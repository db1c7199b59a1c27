import MariaDB.Decimal.Integer
import MariaDB.Decimal.Strtoll10
import MariaDB.Radix.SignMagnitude

set_option autoImplicit false

/- The integer paths of the SQL arithmetic operators of sql/item_func.cc, with
the helper classes of sql/sql_type_int.h. An operator reads its arguments'
`val_int()` with their `unsigned_flag`s and returns a `longlong` in the item's
own format, the `unsigned_flag` that `fix_length_and_dec` gave it, or raises
`ER_DATA_OUT_OF_RANGE`. `+` and `-` sort the signs into cases and compute in
`ulonglong` or in `longlong`; `*`, `DIV` and `%` work on the absolute values
and give the sign to a `ULonglong_hybrid`; unary `-` checks the values whose
negation does not fit. An overflowing signed `longlong` operation is undefined
in C and is a result of its own here.

`+`, `*`, `DIV`, `%` and unary `-` return the exact result or report that it
is out of range. `-` does not: `0 - LONGLONG_MIN` and some mixed-sign
subtractions overflow in `longlong`, and under `NO_UNSIGNED_SUBTRACTION` two
unsigned arguments with `a < b` are refused although the signed item can hold
their difference. -/
namespace MariaDB.Sql

open MariaDB.Decimal SignMagnitude

/-! ## Values -/

/-- An argument's `val_int()`: the `longlong` `val`, with the argument's
`unsigned_flag`. -/
structure IntArg where
  val : Int
  unsignedFlag : Bool
  lo : -2 ^ 63 ≤ val
  hi : val < 2 ^ 63
  deriving DecidableEq

/-- The number an argument stands for: its `longlong`, or the `ulonglong` that
the same bits are when it is unsigned. -/
def IntArg.value (a : IntArg) : Int := if a.unsignedFlag ∧ a.val < 0 then a.val + 2 ^ 64 else a.val

theorem IntArg.value_def (a : IntArg) : a.value = if a.unsignedFlag ∧ a.val < 0 then a.val + 2 ^ 64 else a.val :=
  rfl

/-- `(ulonglong) v` for a `longlong` `v`. -/
def ull (v : Int) : Nat := (v % 2 ^ 64).toNat

/-- What an integer operation gives: the `longlong` returned, the error
`ER_DATA_OUT_OF_RANGE` (`raise_integer_overflow()`, which returns 0), SQL
NULL (`null_value` set by `signal_divide_by_null()`), or a signed `longlong`
operation that overflowed, which C leaves undefined. -/
inductive IntResult where
  | value (v : Int)
  | outOfRange
  | null
  | undefined
  deriving DecidableEq, Repr

/-! ## sql_type_int.h -/

/-- `ULonglong::test_if_sum_overflows_ull(arg1, arg2)`. -/
def testIfSumOverflowsUll (arg1 arg2 : Nat) : Bool := ulonglongMax - arg1 < arg2

/-- `Longlong_hybrid::neg()`. -/
def IntArg.neg (a : IntArg) : Bool := a.val < 0 ∧ !a.unsignedFlag

/-- `Longlong_hybrid::abs()`, through `Longlong::abs()` for a signed value. -/
def IntArg.abs (a : IntArg) : Nat :=
  if a.unsignedFlag then ull a.val else if a.val = longlongMin then 2 ^ 63 else a.val.natAbs

/-- `Longlong_hybrid(value, val_unsigned).val_int(want_unsigned)`, `none` for
a `Longlong_null` that is null. -/
def longlongHybridValInt (value : Int) (valUnsigned wantUnsigned : Bool) : Option Int :=
  if wantUnsigned then
    if !valUnsigned ∧ value < 0 then none else some value
  else if valUnsigned then
    -- `ULonglong((ulonglong) m_value).to_longlong_null()`
    if ull value > ull longlongMax then none else some value
  else some value

/-- `ULonglong_hybrid(value, neg).val_int(want_unsigned)`; the constructor
makes `-0` into `+0`. -/
def ulonglongHybridValInt (value : Nat) (neg wantUnsigned : Bool) : Option Int :=
  let neg := neg && value ≠ 0
  if wantUnsigned then
    if neg then none else some (toLonglong value)
  else if neg then
    -- `-ULonglong(m_value)`
    if value > ull longlongMax then (if value = ull longlongMax + 1 then some longlongMin else none)
    else some (-value)
  else if value > ull longlongMax then none
  else some value

/-- `ULonglong_null::ullmul(a, b)`: the product, or `none` past
`ULONGLONG_MAX`, decided on the 32-bit halves. -/
def ullmul (a b : Nat) : Option Nat :=
  let a1 := a >>> 32
  let b1 := b >>> 32
  if a1 ≠ 0 ∧ b1 ≠ 0 then none
  else
    let a0 := 0xFFFFFFFF &&& a
    let b0 := 0xFFFFFFFF &&& b
    -- one of `a1` and `b1` is 0, so the sum of the cross products does not wrap
    let res1 := a1 * b0 + a0 * b1
    if res1 > 0xFFFFFFFF then none
    else
      let res1 := res1 <<< 32
      let res0 := a0 * b0
      if testIfSumOverflowsUll res1 res0 then none else some (res1 + res0)

/-! ## item_func.cc -/

/-- `check_integer_overflow(...)`: the value, or `raise_integer_overflow()`
when it has no `val_int` in the item's format. -/
def checkIntegerOverflow : Option Int → IntResult
  | some v => .value v
  | none => .outOfRange

/-- The end of `Item_func_plus::int_op` and `Item_func_minus::int_op`. The
cases decide `res_unsigned`, or the result itself (`goto err`, or an undefined
negation); the result is then `unsignedRes` wrapped to a `ulonglong` or
`signedRes` as a `longlong`, checked against the item's `unsigned_flag`. -/
def additiveResult (unsignedFlag : Bool) (resUnsigned : Except IntResult Bool) (unsignedRes signedRes : Int) :
    IntResult :=
  match resUnsigned with
  | .error r => r
  | .ok true => checkIntegerOverflow (longlongHybridValInt (toLonglong (unsignedRes % 2 ^ 64).toNat) true unsignedFlag)
  | .ok false =>
    if -2 ^ 63 ≤ signedRes ∧ signedRes < 2 ^ 63 then
      checkIntegerOverflow (longlongHybridValInt signedRes false unsignedFlag)
    else .undefined

theorem additiveResult_error (unsignedFlag : Bool) (r : IntResult) (unsignedRes signedRes : Int) :
    additiveResult unsignedFlag (.error r) unsignedRes signedRes = r := rfl

theorem additiveResult_true (unsignedFlag : Bool) (unsignedRes signedRes : Int) :
    additiveResult unsignedFlag (.ok true) unsignedRes signedRes =
      checkIntegerOverflow (longlongHybridValInt (toLonglong (unsignedRes % 2 ^ 64).toNat) true unsignedFlag) :=
  rfl

theorem additiveResult_false (unsignedFlag : Bool) (unsignedRes signedRes : Int) :
    additiveResult unsignedFlag (.ok false) unsignedRes signedRes =
      if -2 ^ 63 ≤ signedRes ∧ signedRes < 2 ^ 63 then
        checkIntegerOverflow (longlongHybridValInt signedRes false unsignedFlag)
      else .undefined := rfl

/-- The cases of `Item_func_plus::int_op()` on the signs: `res_unsigned`, or
`goto err`. -/
def itemFuncPlusCase (a b : IntArg) : Except IntResult Bool :=
  let val0 := a.val
  let val1 := b.val
  if a.unsignedFlag then
    if b.unsignedFlag ∨ val1 ≥ 0 then
      if testIfSumOverflowsUll (ull val0) (ull val1) then .error .outOfRange else .ok true
    else .ok (ull val0 > ull longlongMax)
  else if b.unsignedFlag then
    if val0 ≥ 0 then
      if testIfSumOverflowsUll (ull val0) (ull val1) then .error .outOfRange else .ok true
    else .ok (ull val1 > ull longlongMax)
  else if val0 ≥ 0 ∧ val1 ≥ 0 then .ok true
  else if val0 < 0 ∧ val1 < 0 ∧ val0 < longlongMin - val1 then .error .outOfRange
  else .ok false

/-- `Item_func_plus::int_op()`. -/
def itemFuncPlusIntOp (unsignedFlag : Bool) (a b : IntArg) : IntResult :=
  additiveResult unsignedFlag (itemFuncPlusCase a b) (ull a.val + ull b.val) (a.val + b.val)

/-- The cases of `Item_func_minus::int_op()` on the signs: `res_unsigned`,
`goto err`, or the undefined negation of `val1`. -/
def itemFuncMinusCase (a b : IntArg) : Except IntResult Bool :=
  let val0 := a.val
  let val1 := b.val
  if a.unsignedFlag then
    if b.unsignedFlag then
      if ull val0 < ull val1 then .error .outOfRange else .ok true
    else if val1 ≥ 0 then .ok (ull val0 > ull val1)
    -- `(ulonglong) -val1` negates the `longlong`
    else if val1 = longlongMin then .error .undefined
    else if testIfSumOverflowsUll (ull val0) (ull (-val1)) then .error .outOfRange
    else .ok true
  else if b.unsignedFlag then
    if ((ull val0 - ull longlongMin : Int) % 2 ^ 64) < ull val1 then .error .outOfRange else .ok false
  else if val0 > 0 ∧ val1 < 0 then .ok true
  else if val0 < 0 ∧ val1 > 0 ∧ val0 < longlongMin + val1 then .error .outOfRange
  else .ok false

/-- `Item_func_minus::int_op()`. -/
def itemFuncMinusIntOp (unsignedFlag : Bool) (a b : IntArg) : IntResult :=
  additiveResult unsignedFlag (itemFuncMinusCase a b) (ull a.val - ull b.val) (a.val - b.val)

/-- `Item_func_mul::int_op()`. -/
def itemFuncMulIntOp (unsignedFlag : Bool) (a b : IntArg) : IntResult :=
  match ullmul a.abs b.abs with
  | none => .outOfRange
  | some ures => checkIntegerOverflow (ulonglongHybridValInt ures (a.neg != b.neg) unsignedFlag)

/-- The integer path of `Item_func_int_div::val_int()`. `val1 == 0` compares
the hybrid with the signed 0, which holds exactly when its bits are 0. -/
def itemFuncIntDivValInt (unsignedFlag : Bool) (a b : IntArg) : IntResult :=
  if b.val = 0 then .null
  else checkIntegerOverflow (ulonglongHybridValInt (a.abs / b.abs) (a.neg != b.neg) unsignedFlag)

/-- `Item_func_mod::int_op()`. -/
def itemFuncModIntOp (unsignedFlag : Bool) (a b : IntArg) : IntResult :=
  if b.val = 0 then .null
  else checkIntegerOverflow (ulonglongHybridValInt (a.abs % b.abs) a.neg unsignedFlag)

/-- `Item_func_neg::int_op()`. -/
def itemFuncNegIntOp (unsignedFlag : Bool) (a : IntArg) : IntResult :=
  let value := a.val
  if a.unsignedFlag ∧ ull value > ull longlongMax + 1 then .outOfRange
  else if value = longlongMin then
    -- the negation of `LONGLONG_MIN` is `LONGLONG_MIN`
    if a.unsignedFlag ≠ unsignedFlag then .value longlongMin else .outOfRange
  else checkIntegerOverflow (longlongHybridValInt (-value) (!a.unsignedFlag && value < 0) unsignedFlag)

/-! ## The items' `unsigned_flag` -/

/-- `Item_num_op::fix_length_and_dec_int()`, for `+`, `*` and also `DIV`. -/
def numOpUnsignedFlag (a b : IntArg) : Bool := a.unsignedFlag || b.unsignedFlag

/-- `Item_func_minus::fix_length_and_dec_int()` with `fix_unsigned_flag()`:
signed under `NO_UNSIGNED_SUBTRACTION`. -/
def minusUnsignedFlag (noUnsignedSubtraction : Bool) (a b : IntArg) : Bool :=
  numOpUnsignedFlag a b && !noUnsignedSubtraction

/-! ## The exact result -/

/-- Whether `x` is in the range of an item with the given `unsigned_flag`. -/
def InItemRange (unsignedFlag : Bool) (x : Int) : Prop :=
  if unsignedFlag then 0 ≤ x ∧ x < 2 ^ 64 else -2 ^ 63 ≤ x ∧ x < 2 ^ 63

instance (unsignedFlag : Bool) (x : Int) : Decidable (InItemRange unsignedFlag x) := by
  unfold InItemRange
  infer_instance

/-- `x` in the `val_int()` format of an item with the given `unsigned_flag`:
the `longlong` with the bits of `x`. -/
def valIntOf (unsignedFlag : Bool) (x : Int) : Int := if unsignedFlag then toLonglong x.toNat else x

theorem valIntOf_def (unsignedFlag : Bool) (x : Int) :
    valIntOf unsignedFlag x = if unsignedFlag then toLonglong x.toNat else x := rfl

/-- The exact result `x` as an item with the given `unsigned_flag` returns
it: its `val_int()` when it fits, `ER_DATA_OUT_OF_RANGE` otherwise. -/
def exactIntResult (unsignedFlag : Bool) (x : Int) : IntResult :=
  if InItemRange unsignedFlag x then .value (valIntOf unsignedFlag x) else .outOfRange

theorem exactIntResult_def (unsignedFlag : Bool) (x : Int) :
    exactIntResult unsignedFlag x = if InItemRange unsignedFlag x then .value (valIntOf unsignedFlag x) else .outOfRange :=
  rfl

/-- What the sign cases of `+` and `-` have to decide for the exact result
`x`: `goto err` only when `x` does not fit the item, the `ulonglong` path only
for a `ulonglong` `x` that `unsignedRes` wraps to, and the `longlong` path only
for a `longlong` `x` that `signedRes` computes. -/
def AdditiveExact (unsignedFlag : Bool) (resUnsigned : Except IntResult Bool) (unsignedRes signedRes x : Int) :
    Prop :=
  match resUnsigned with
  | .error r => r = .outOfRange ∧ ¬InItemRange unsignedFlag x
  | .ok resUnsigned =>
    if resUnsigned then 0 ≤ x ∧ x < 2 ^ 64 ∧ unsignedRes % 2 ^ 64 = x
    else -2 ^ 63 ≤ x ∧ x < 2 ^ 63 ∧ signedRes = x

/-- The arguments on which `Item_func_minus::int_op()` computes a `longlong`
that overflows: `-val1` of `LONGLONG_MIN` when only `val0` is unsigned, and
`val0 - val1` on the signed path when `val1` is an unsigned above
`LONGLONG_MAX`, or when `val0` is 0 and `val1` is `LONGLONG_MIN`. -/
def MinusUndefined (a b : IntArg) : Prop :=
  if a.unsignedFlag then b.unsignedFlag = false ∧ b.val = longlongMin
  else if b.unsignedFlag then b.val < 0 ∧ -2 ^ 63 ≤ a.value - b.value
  else a.val = 0 ∧ b.val = longlongMin

instance (a b : IntArg) : Decidable (MinusUndefined a b) := by
  unfold MinusUndefined
  infer_instance

/-! ## The conversions -/

theorem ull_eq {v : Int} (lo : -2 ^ 63 ≤ v) (hi : v < 2 ^ 63) :
    (ull v : Int) = if v < 0 then v + 2 ^ 64 else v := by
  unfold ull
  split_ifs <;> omega

theorem IntArg.value_bounds (a : IntArg) : -2 ^ 63 ≤ a.value ∧ a.value < 2 ^ 64 := by
  obtain ⟨v, u, lo, hi⟩ := a
  dsimp only [IntArg.value_def]
  split_ifs <;> omega

theorem IntArg.abs_eq (a : IntArg) : a.abs = a.value.natAbs := by
  obtain ⟨v, u, lo, hi⟩ := a
  cases u with
  | false =>
    have min : longlongMin = -2 ^ 63 := rfl
    simp only [IntArg.abs, IntArg.value_def, Bool.false_eq_true, false_and, if_false]
    split_ifs <;> omega
  | true =>
    simp only [IntArg.abs, IntArg.value_def, ull, true_and, if_true]
    split_ifs <;> omega

theorem IntArg.neg_eq (a : IntArg) : a.neg = decide (a.value < 0) := by
  obtain ⟨v, u, lo, hi⟩ := a
  cases u with
  | false => simp [IntArg.neg, IntArg.value_def]
  | true =>
    simp only [IntArg.neg, IntArg.value_def, true_and, Bool.not_true]
    split_ifs <;> simp <;> omega

theorem checkIntegerOverflow_exact {o : Option Int} {u : Bool} {x : Int}
    (h : o = if InItemRange u x then some (valIntOf u x) else none) : checkIntegerOverflow o = exactIntResult u x := by
  subst h
  rw [exactIntResult_def]
  split_ifs <;> rfl

theorem ull_longlongMax : ull longlongMax = 2 ^ 63 - 1 := rfl

theorem ull_gt_longlongMax {v : Int} (lo : -2 ^ 63 ≤ v) (hi : v < 2 ^ 63) : ull v > ull longlongMax ↔ v < 0 := by
  have hv := ull_eq lo hi
  rw [ull_longlongMax]
  split_ifs at hv <;> omega

/-- A `Longlong_hybrid` `(r, val_unsigned)` stands for `r`, or for the
`ulonglong` with its bits; it has a `val_int()` exactly when that number fits
the item. -/
theorem longlongHybridValInt_eq {r x : Int} {valUnsigned : Bool} (lo : -2 ^ 63 ≤ r) (hi : r < 2 ^ 63)
    (stands : x = if valUnsigned ∧ r < 0 then r + 2 ^ 64 else r) (u : Bool) :
    longlongHybridValInt r valUnsigned u = if InItemRange u x then some (valIntOf u x) else none := by
  subst stands
  have top := ull_gt_longlongMax lo hi
  cases valUnsigned <;> cases u <;>
    simp only [longlongHybridValInt, top, InItemRange, valIntOf_def, toLonglong, Bool.false_eq_true, Bool.not_true,
      Bool.not_false, true_and, false_and, if_true, if_false] <;>
    split_ifs <;> (try simp only [Option.some.injEq]) <;> omega

/-- A `ULonglong_hybrid` `(value, neg)` stands for `value` with the sign
`neg`; it has a `val_int()` exactly when that fits the item. -/
theorem ulonglongHybridValInt_eq {value : Nat} {neg : Bool} {x : Int} (lt : value < 2 ^ 64)
    (stands : x = signed neg value) (u : Bool) :
    ulonglongHybridValInt value neg u = if InItemRange u x then some (valIntOf u x) else none := by
  subst stands
  have min : longlongMin = -2 ^ 63 := rfl
  have max := ull_longlongMax
  cases neg <;> cases u <;>
    simp only [ulonglongHybridValInt, signed_false, signed_true, InItemRange, valIntOf_def, toLonglong, Bool.false_eq_true,
      Bool.true_and, Bool.false_and, decide_eq_true_eq, if_true, if_false] <;>
    split_ifs <;> (try simp only [Option.some.injEq]) <;> omega

theorem toLonglong_bounds {n : Nat} (lt : n < 2 ^ 64) : -2 ^ 63 ≤ toLonglong n ∧ toLonglong n < 2 ^ 63 := by
  unfold toLonglong
  split_ifs <;> omega

/-- The end of `+` and `-` returns the exact result when the sign cases
decided as `AdditiveExact` says. -/
theorem additiveResult_exact {u : Bool} {c : Except IntResult Bool} {ur sr x : Int}
    (h : AdditiveExact u c ur sr x) : additiveResult u c ur sr = exactIntResult u x := by
  cases c with
  | error r =>
    obtain ⟨rfl, out⟩ := h
    simp only [additiveResult_error, exactIntResult_def, if_neg out]
  | ok resUnsigned =>
    cases resUnsigned with
    | true =>
      obtain ⟨lo, hi, wraps⟩ := h
      have n : (ur % 2 ^ 64).toNat < 2 ^ 64 := by omega
      obtain ⟨lo', hi'⟩ := toLonglong_bounds n
      rw [additiveResult_true]
      apply checkIntegerOverflow_exact
      apply longlongHybridValInt_eq lo' hi'
      simp only [toLonglong, wraps, true_and]
      split_ifs <;> omega
    | false =>
      obtain ⟨lo, hi, rfl⟩ := h
      rw [additiveResult_false, if_pos (And.intro lo hi)]
      apply checkIntegerOverflow_exact
      apply longlongHybridValInt_eq lo hi
      simp

theorem testIfSumOverflowsUll_iff {p q : Nat} : testIfSumOverflowsUll p q = true ↔ 2 ^ 64 - 1 - p < q := by
  rw [testIfSumOverflowsUll, ulonglongMax, decide_eq_true_iff]

theorem ull_emod (v : Int) : (ull v : Int) = v % 2 ^ 64 := by
  unfold ull
  omega

/-! ## The sign cases

Each case of `+` and `-` is a branch of the source: the facts it tests on the
flags and signs of `val0` and `val1` are named, the arguments' values are read
off them, and the exact result is placed against the range by `omega`. -/

/-- What every sign case knows of an argument: its `longlong` range and the
`ulonglong` of its bits. -/
theorem IntArg.val_facts (a : IntArg) : -2 ^ 63 ≤ a.val ∧ a.val < 2 ^ 63 ∧ (ull a.val : Int) = a.val % 2 ^ 64 :=
  ⟨a.lo, a.hi, ull_emod a.val⟩

/-- A `ulonglong`, or a `longlong` that is not negative: the value is the
`ulonglong` of the bits. -/
theorem IntArg.value_eq_ull {a : IntArg} (h : a.unsignedFlag = true ∨ 0 ≤ a.val) : a.value = ull a.val := by
  obtain ⟨_, _, w⟩ := a.val_facts
  rw [IntArg.value_def]
  rcases h with unsigned | pos
  · simp only [unsigned, true_and]
    split_ifs <;> omega
  · rw [if_neg fun neg => absurd neg.2 (by omega)]
    omega

theorem IntArg.value_of_signed {a : IntArg} (h : a.unsignedFlag = false) : a.value = a.val := by
  simp [IntArg.value_def, h]

section AdditiveExact

variable {u : Bool} {ur sr x : Int}

theorem additiveExact_outOfRange (h : 2 ^ 64 ≤ x ∨ x < -2 ^ 63) : AdditiveExact u (.error .outOfRange) ur sr x := by
  refine ⟨rfl, ?_⟩
  unfold InItemRange
  split_ifs <;> omega

theorem additiveExact_unsigned (lo : 0 ≤ x) (hi : x < 2 ^ 64) (wraps : ur % 2 ^ 64 = x) :
    AdditiveExact u (.ok true) ur sr x :=
  ⟨lo, hi, wraps⟩

theorem additiveExact_signed (lo : -2 ^ 63 ≤ x) (hi : x < 2 ^ 63) (exact : sr = x) :
    AdditiveExact u (.ok false) ur sr x :=
  ⟨lo, hi, exact⟩

end AdditiveExact

/-- The sign cases of `Item_func_plus::int_op()` decide as the exact sum
needs. -/
theorem itemFuncPlusCase_exact (u : Bool) (a b : IntArg) :
    AdditiveExact u (itemFuncPlusCase a b) (ull a.val + ull b.val) (a.val + b.val) (a.value + b.value) := by
  obtain ⟨_, _, wa⟩ := a.val_facts
  obtain ⟨_, _, wb⟩ := b.val_facts
  have max := ull_longlongMax
  have min : longlongMin = -2 ^ 63 := rfl
  unfold itemFuncPlusCase
  cases ua : a.unsignedFlag with
  | true =>
    have va := IntArg.value_eq_ull (.inl ua)
    rw [if_pos rfl]
    split_ifs with both carry
    · -- two `ulonglong`s whose sum carries out of 64 bits: `goto err`
      have vb := IntArg.value_eq_ull both
      rw [testIfSumOverflowsUll_iff] at carry
      exact additiveExact_outOfRange (.inl (by omega))
    · -- two `ulonglong`s and no carry: the `ulonglong` sum
      have vb := IntArg.value_eq_ull both
      rw [testIfSumOverflowsUll_iff] at carry
      exact additiveExact_unsigned (by omega) (by omega) (by omega)
    · -- a negative `longlong` added: `res_unsigned` when `val0` is above `LONGLONG_MAX`
      obtain ⟨ub, neg⟩ : b.unsignedFlag = false ∧ b.val < 0 := by simpa [not_or] using both
      have vb := IntArg.value_of_signed ub
      by_cases big : ull a.val > ull longlongMax
      · rw [decide_eq_true big]
        exact additiveExact_unsigned (by omega) (by omega) (by omega)
      · rw [decide_eq_false big]
        exact additiveExact_signed (by omega) (by omega) (by omega)
  | false =>
    have va := IntArg.value_of_signed ua
    rw [if_neg Bool.false_ne_true]
    split_ifs with ub pos carry both under
    · -- `val0` is not negative, so both are `ulonglong`s, and the sum carries: `goto err`
      have va' := IntArg.value_eq_ull (.inr pos)
      have vb := IntArg.value_eq_ull (.inl ub)
      rw [testIfSumOverflowsUll_iff] at carry
      exact additiveExact_outOfRange (.inl (by omega))
    · -- both are `ulonglong`s and no carry
      have va' := IntArg.value_eq_ull (.inr pos)
      have vb := IntArg.value_eq_ull (.inl ub)
      rw [testIfSumOverflowsUll_iff] at carry
      exact additiveExact_unsigned (by omega) (by omega) (by omega)
    · -- a negative `longlong` and a `ulonglong`: `res_unsigned` when `val1` is above `LONGLONG_MAX`
      have vb := IntArg.value_eq_ull (.inl ub)
      by_cases big : ull b.val > ull longlongMax
      · rw [decide_eq_true big]
        exact additiveExact_unsigned (by omega) (by omega) (by omega)
      · rw [decide_eq_false big]
        exact additiveExact_signed (by omega) (by omega) (by omega)
    · -- two `longlong`s that are not negative: their sum is a `ulonglong`
      have vb := IntArg.value_of_signed (Bool.eq_false_iff.mpr ub)
      exact additiveExact_unsigned (by omega) (by omega) (by omega)
    · -- two negative `longlong`s whose sum is below `LONGLONG_MIN`: `goto err`
      have vb := IntArg.value_of_signed (Bool.eq_false_iff.mpr ub)
      exact additiveExact_outOfRange (.inr (by omega))
    · -- signs that differ, or a sum that fits: the `longlong` sum
      have vb := IntArg.value_of_signed (Bool.eq_false_iff.mpr ub)
      exact additiveExact_signed (by omega) (by omega) (by omega)

/-- `+` is exact: it returns the sum in the item's format, and raises
`ER_DATA_OUT_OF_RANGE` exactly when the sum does not fit the item. -/
theorem itemFuncPlusIntOp_exact (u : Bool) (a b : IntArg) :
    itemFuncPlusIntOp u a b = exactIntResult u (a.value + b.value) :=
  additiveResult_exact (itemFuncPlusCase_exact u a b)

/-- Away from the overflowing `longlong` operations and from two unsigned
arguments with `a < b`, the sign cases of `Item_func_minus::int_op()` decide
as the exact difference needs. -/
theorem itemFuncMinusCase_exact (u : Bool) (a b : IntArg) (defined : ¬MinusUndefined a b)
    (ordered : ¬(a.unsignedFlag ∧ b.unsignedFlag ∧ a.value < b.value)) :
    AdditiveExact u (itemFuncMinusCase a b) (ull a.val - ull b.val) (a.val - b.val) (a.value - b.value) := by
  obtain ⟨_, _, wa⟩ := a.val_facts
  obtain ⟨_, _, wb⟩ := b.val_facts
  have wn := ull_emod (-b.val)
  have max := ull_longlongMax
  have min : longlongMin = -2 ^ 63 := rfl
  have umin : (ull longlongMin : Int) = 2 ^ 63 := by decide
  unfold itemFuncMinusCase
  cases ua : a.unsignedFlag with
  | true =>
    have va := IntArg.value_eq_ull (.inl ua)
    rw [if_pos rfl]
    split_ifs with ub less pos isMin carry
    · -- two `ulonglong`s with `a < b`, which `ordered` rules out
      have vb := IntArg.value_eq_ull (.inl ub)
      exact absurd ⟨ua, ub, by omega⟩ ordered
    · -- two `ulonglong`s with `a >= b`: the `ulonglong` difference
      have vb := IntArg.value_eq_ull (.inl ub)
      exact additiveExact_unsigned (by omega) (by omega) (by omega)
    · -- a `longlong` that is not negative taken off a `ulonglong`: `res_unsigned` when `val0 > val1`
      have vb := IntArg.value_of_signed (Bool.eq_false_iff.mpr ub)
      by_cases big : ull a.val > ull b.val
      · rw [decide_eq_true big]
        exact additiveExact_unsigned (by omega) (by omega) (by omega)
      · rw [decide_eq_false big]
        exact additiveExact_signed (by omega) (by omega) (by omega)
    · -- the negation of `LONGLONG_MIN`, which `defined` rules out
      exact absurd (by simp only [MinusUndefined, ua, if_true]; exact ⟨Bool.eq_false_iff.mpr ub, isMin⟩) defined
    · -- `val0 + (-val1)` carries out of 64 bits: `goto err`
      have vb := IntArg.value_of_signed (Bool.eq_false_iff.mpr ub)
      rw [testIfSumOverflowsUll_iff] at carry
      exact additiveExact_outOfRange (.inl (by omega))
    · -- `val0 + (-val1)` with no carry: the `ulonglong` sum
      have vb := IntArg.value_of_signed (Bool.eq_false_iff.mpr ub)
      rw [testIfSumOverflowsUll_iff] at carry
      exact additiveExact_unsigned (by omega) (by omega) (by omega)
  | false =>
    have va := IntArg.value_of_signed ua
    rw [if_neg Bool.false_ne_true]
    split_ifs with ub below pos under
    · -- a `ulonglong` taken off a `longlong`, below `LONGLONG_MIN`: `goto err`
      have vb := IntArg.value_eq_ull (.inl ub)
      exact additiveExact_outOfRange (.inr (by omega))
    · -- the `longlong` difference; `defined` rules out a `val1` above `LONGLONG_MAX`
      have vb := IntArg.value_eq_ull (.inl ub)
      have small : 0 ≤ b.val := by
        by_contra neg
        exact defined (by simp only [MinusUndefined, ua, ub, Bool.false_eq_true, if_false, if_true]; omega)
      exact additiveExact_signed (by omega) (by omega) (by omega)
    · -- a positive `longlong` less a negative one: the `ulonglong` difference
      have vb := IntArg.value_of_signed (Bool.eq_false_iff.mpr ub)
      exact additiveExact_unsigned (by omega) (by omega) (by omega)
    · -- a negative `longlong` less a positive one, below `LONGLONG_MIN`: `goto err`
      have vb := IntArg.value_of_signed (Bool.eq_false_iff.mpr ub)
      exact additiveExact_outOfRange (.inr (by omega))
    · -- the `longlong` difference; `defined` rules out `0 - LONGLONG_MIN`
      have vb := IntArg.value_of_signed (Bool.eq_false_iff.mpr ub)
      have notMin : ¬(a.val = 0 ∧ b.val = longlongMin) := fun zero =>
        defined (by simp only [MinusUndefined, ua, Bool.eq_false_iff.mpr ub, Bool.false_eq_true, if_false]; exact zero)
      exact additiveExact_signed (by omega) (by omega) (by omega)

/-- On the arguments of `MinusUndefined` the `longlong` that
`Item_func_minus::int_op()` computes overflows. -/
theorem itemFuncMinusIntOp_undefined (u : Bool) (a b : IntArg) (h : MinusUndefined a b) :
    itemFuncMinusIntOp u a b = .undefined := by
  obtain ⟨_, _, wa⟩ := a.val_facts
  obtain ⟨_, _, wb⟩ := b.val_facts
  have min : longlongMin = -2 ^ 63 := rfl
  have umin : (ull longlongMin : Int) = 2 ^ 63 := by decide
  unfold itemFuncMinusIntOp itemFuncMinusCase
  cases ua : a.unsignedFlag with
  | true =>
    -- `-val1` of `LONGLONG_MIN`, a signed `val1`
    obtain ⟨ub, isMin⟩ : b.unsignedFlag = false ∧ b.val = longlongMin := by
      simpa only [MinusUndefined, ua, if_true] using h
    rw [if_pos rfl, ub, if_neg Bool.false_ne_true, if_neg (by omega), if_pos isMin, additiveResult_error]
  | false =>
    cases ub : b.unsignedFlag with
    | true =>
      -- a `ulonglong` above `LONGLONG_MAX`: the test passes and `val0 - val1` overflows
      obtain ⟨neg, fits⟩ : b.val < 0 ∧ -2 ^ 63 ≤ a.value - b.value := by
        simpa only [MinusUndefined, ua, ub, Bool.false_eq_true, if_false, if_true] using h
      have va := IntArg.value_of_signed ua
      have vb := IntArg.value_eq_ull (.inl ub)
      rw [if_neg Bool.false_ne_true, if_pos rfl, if_neg (by omega), additiveResult_false, if_neg (by omega)]
    | false =>
      -- `0 - LONGLONG_MIN`
      obtain ⟨zero, isMin⟩ : a.val = 0 ∧ b.val = longlongMin := by
        simpa only [MinusUndefined, ua, ub, Bool.false_eq_true, if_false] using h
      rw [if_neg Bool.false_ne_true, if_neg Bool.false_ne_true, if_neg (by omega), if_neg (by omega),
        additiveResult_false, if_neg (by omega)]

/-- Two unsigned arguments with `a < b` go to `err`, whatever the item's
`unsigned_flag`. -/
theorem itemFuncMinusIntOp_refused (u : Bool) (a b : IntArg)
    (h : a.unsignedFlag ∧ b.unsignedFlag ∧ a.value < b.value) : itemFuncMinusIntOp u a b = .outOfRange := by
  obtain ⟨v0, u0, lo0, hi0⟩ := a
  obtain ⟨v1, u1, lo1, hi1⟩ := b
  obtain ⟨rfl, rfl, lt⟩ := h
  have w0 := ull_eq lo0 hi0
  have w1 := ull_eq lo1 hi1
  have less : ull v0 < ull v1 := by
    simp only [IntArg.value_def, true_and] at lt
    split_ifs at w0 w1 lt <;> omega
  simp only [itemFuncMinusIntOp, itemFuncMinusCase, if_true, if_pos less, additiveResult_error]

/-- `-` returns the exact difference except in two ways: on the arguments of
`MinusUndefined` it overflows a `longlong`, and it refuses two unsigned
arguments with `a < b` also when the item is signed. -/
theorem itemFuncMinusIntOp_eq (u : Bool) (a b : IntArg) :
    itemFuncMinusIntOp u a b =
      if MinusUndefined a b then .undefined
      else if a.unsignedFlag ∧ b.unsignedFlag ∧ a.value < b.value then .outOfRange
      else exactIntResult u (a.value - b.value) := by
  split_ifs with defined ordered
  · exact itemFuncMinusIntOp_undefined u a b defined
  · exact itemFuncMinusIntOp_refused u a b ordered
  · exact additiveResult_exact (itemFuncMinusCase_exact u a b defined ordered)

/-- Two subtractions where `-` is not exact: `0 - LONGLONG_MIN` on signed
arguments evaluates the overflowing `longlong` `0 - LONGLONG_MIN` instead of
raising `ER_DATA_OUT_OF_RANGE`, and under `NO_UNSIGNED_SUBTRACTION` the
unsigned `1 - 2` is refused although the signed item holds `-1`. -/
theorem itemFuncMinusIntOp_not_exact :
    itemFuncMinusIntOp (minusUnsignedFlag false ⟨0, false, by decide, by decide⟩ ⟨-2 ^ 63, false, by decide, by decide⟩)
        ⟨0, false, by decide, by decide⟩ ⟨-2 ^ 63, false, by decide, by decide⟩ = .undefined ∧
      exactIntResult (minusUnsignedFlag false ⟨0, false, by decide, by decide⟩ ⟨-2 ^ 63, false, by decide, by decide⟩)
        (0 - -2 ^ 63) = .outOfRange ∧
      itemFuncMinusIntOp (minusUnsignedFlag true ⟨1, true, by decide, by decide⟩ ⟨2, true, by decide, by decide⟩)
        ⟨1, true, by decide, by decide⟩ ⟨2, true, by decide, by decide⟩ = .outOfRange ∧
      exactIntResult (minusUnsignedFlag true ⟨1, true, by decide, by decide⟩ ⟨2, true, by decide, by decide⟩)
        (1 - 2) = .value (-1) := by
  refine ⟨?_, ?_, ?_, ?_⟩ <;> decide

/-- `ullmul` decides on the 32-bit halves exactly whether the product is a
`ulonglong`. -/
theorem ullmul_eq {a b : Nat} (ha : a < 2 ^ 64) (hb : b < 2 ^ 64) :
    ullmul a b = if a * b < 2 ^ 64 then some (a * b) else none := by
  have low (n : Nat) : 0xFFFFFFFF &&& n = n % 2 ^ 32 := by
    rw [Nat.and_comm]
    exact Nat.and_two_pow_sub_one_eq_mod n 32
  simp only [ullmul, Nat.shiftRight_eq_div_pow, low, Nat.shiftLeft_eq, testIfSumOverflowsUll_iff]
  have halves : a * b = a / 2 ^ 32 * (b / 2 ^ 32) * 2 ^ 64 +
      (a / 2 ^ 32 * (b % 2 ^ 32) + a % 2 ^ 32 * (b / 2 ^ 32)) * 2 ^ 32 + a % 2 ^ 32 * (b % 2 ^ 32) := by
    conv =>
      lhs
      rw [← Nat.div_add_mod a (2 ^ 32), ← Nat.div_add_mod b (2 ^ 32)]
    ring
  by_cases high : a / 2 ^ 32 ≠ 0 ∧ b / 2 ^ 32 ≠ 0
  · have : 0 < a / 2 ^ 32 * (b / 2 ^ 32) := Nat.mul_pos (Nat.pos_of_ne_zero high.1) (Nat.pos_of_ne_zero high.2)
    rw [if_pos high, if_neg (by omega)]
  · have : a / 2 ^ 32 * (b / 2 ^ 32) = 0 := by
      rw [Nat.mul_eq_zero]
      omega
    rw [if_neg high]
    split_ifs <;> first | rfl | omega | (simp only [Option.some.injEq]; omega)

theorem IntArg.abs_lt (a : IntArg) : a.abs < 2 ^ 64 := by
  have := IntArg.value_bounds a
  rw [IntArg.abs_eq]
  omega

theorem IntArg.val_eq_zero (a : IntArg) : a.val = 0 ↔ a.value = 0 := by
  obtain ⟨v, u, lo, hi⟩ := a
  simp only [IntArg.value_def]
  split_ifs <;> omega

theorem not_inItemRange_signed {m : Nat} (big : 2 ^ 64 ≤ m) (neg u : Bool) : ¬InItemRange u (signed neg m) := by
  cases neg <;> cases u <;> simp only [InItemRange, signed_false, signed_true, if_true, if_false,
    Bool.false_eq_true] <;> omega

/-- `*` is exact: the product of the magnitudes, signed by `neg()`, in the
item's format, and `ER_DATA_OUT_OF_RANGE` exactly when the product does not
fit the item. -/
theorem itemFuncMulIntOp_exact (u : Bool) (a b : IntArg) :
    itemFuncMulIntOp u a b = exactIntResult u (a.value * b.value) := by
  have product := mul_eq_signed a.value b.value
  rw [← IntArg.abs_eq, ← IntArg.abs_eq, ← IntArg.neg_eq, ← IntArg.neg_eq] at product
  unfold itemFuncMulIntOp
  rw [ullmul_eq (IntArg.abs_lt a) (IntArg.abs_lt b)]
  by_cases fits : a.abs * b.abs < 2 ^ 64
  · rw [if_pos fits]
    exact checkIntegerOverflow_exact (ulonglongHybridValInt_eq fits product u)
  · rw [if_neg fits, exactIntResult_def, product, if_neg (not_inItemRange_signed (by omega) _ u)]

/-- `DIV` is exact: SQL `NULL` for a zero divisor, otherwise the quotient
truncated toward zero in the item's format, or `ER_DATA_OUT_OF_RANGE` exactly
when it does not fit. -/
theorem itemFuncIntDivValInt_exact (u : Bool) (a b : IntArg) :
    itemFuncIntDivValInt u a b = if b.value = 0 then .null else exactIntResult u (a.value.tdiv b.value) := by
  have quotient := tdiv_eq_signed a.value b.value
  rw [← IntArg.abs_eq, ← IntArg.abs_eq, ← IntArg.neg_eq, ← IntArg.neg_eq] at quotient
  have fits : a.abs / b.abs < 2 ^ 64 := Nat.lt_of_le_of_lt (Nat.div_le_self _ _) (IntArg.abs_lt a)
  unfold itemFuncIntDivValInt
  by_cases zero : b.value = 0
  · rw [if_pos ((IntArg.val_eq_zero b).mpr zero), if_pos zero]
  · rw [if_neg (mt (IntArg.val_eq_zero b).mp zero), if_neg zero]
    exact checkIntegerOverflow_exact (ulonglongHybridValInt_eq fits quotient u)

/-- `%` is exact: SQL `NULL` for a zero divisor, otherwise the remainder with
the dividend's sign in the item's format. -/
theorem itemFuncModIntOp_exact (u : Bool) (a b : IntArg) :
    itemFuncModIntOp u a b = if b.value = 0 then .null else exactIntResult u (a.value.tmod b.value) := by
  have remainder := tmod_eq_signed a.value b.value
  rw [← IntArg.abs_eq, ← IntArg.abs_eq, ← IntArg.neg_eq] at remainder
  have fits : a.abs % b.abs < 2 ^ 64 := Nat.lt_of_le_of_lt (Nat.mod_le _ _) (IntArg.abs_lt a)
  unfold itemFuncModIntOp
  by_cases zero : b.value = 0
  · rw [if_pos ((IntArg.val_eq_zero b).mpr zero), if_pos zero]
  · rw [if_neg (mt (IntArg.val_eq_zero b).mp zero), if_neg zero]
    exact checkIntegerOverflow_exact (ulonglongHybridValInt_eq fits remainder u)

/-- Unary `-` is exact: the negation in the item's format, or
`ER_DATA_OUT_OF_RANGE` exactly when it does not fit. -/
theorem itemFuncNegIntOp_exact (u : Bool) (a : IntArg) : itemFuncNegIntOp u a = exactIntResult u (-a.value) := by
  obtain ⟨v, au, lo, hi⟩ := a
  have w := ull_emod v
  have wn := ull_emod (-v)
  have max := ull_longlongMax
  have min : longlongMin = -2 ^ 63 := rfl
  cases au <;> cases u <;>
    simp only [itemFuncNegIntOp, longlongHybridValInt, checkIntegerOverflow, exactIntResult_def, IntArg.value_def,
      InItemRange, valIntOf_def, toLonglong, Bool.false_eq_true, false_and, true_and, Bool.not_false, Bool.not_true,
      Bool.true_and, Bool.false_and, decide_eq_true_eq, ne_eq, not_true_eq_false, not_false_eq_true, if_false,
      if_true] <;>
    split_ifs <;>
    (try simp only [IntResult.value.injEq, Bool.not_eq_true', decide_eq_false_iff_not] at *) <;>
    first | rfl | omega

end MariaDB.Sql
