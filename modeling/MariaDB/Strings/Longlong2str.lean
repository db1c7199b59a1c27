import Mathlib.Algebra.CharP.Defs
import Mathlib.Algebra.Order.Ring.Star
import Mathlib.Data.Int.ConditionallyCompleteOrder
import Mathlib.Data.Int.Star
import MariaDB.Decimal.Strtoll10Spec

set_option autoImplicit false

/- Integers to text, strings/longlong2str.c. The digits go into a buffer from
its end, least significant first: while the value does not fit a `long` by
`ulonglong` division, then by `long` division, each digit looked up in a
digit table; the text is copied to `dst` with its NUL, and the function
returns the pointer to that NUL. A result here is the bytes written, NUL
included, and the offset of the returned pointer.

The file is compiled only where `long` is narrower than `longlong`
(include/m_string.h maps `ll2str` and `longlong10_to_str` to `int2str` and
`int10_to_str` when `SIZEOF_LONG == SIZEOF_LONG_LONG`), so its `long` has 32
bits here. -/
namespace MariaDB.Strings

open MariaDB.Decimal

/-- `_dig_vec_base62`. -/
def digVecBase62 : List UInt8 :=
  "0123456789ABCDEFGHIJKLMNOPQRSTUVWXYZabcdefghijklmnopqrstuvwxyz".toList.map Char.toUInt8

/-- `_dig_vec_upper`. -/
def digVecUpper : List UInt8 := "0123456789ABCDEFGHIJKLMNOPQRSTUVWXYZ".toList.map Char.toUInt8

/-- `_dig_vec_lower`. -/
def digVecLower : List UInt8 := "0123456789abcdefghijklmnopqrstuvwxyz".toList.map Char.toUInt8

/-- `LONG_MAX` of the 32-bit `long` of the targets that compile this file. -/
def longMax : Nat := 2 ^ 31 - 1

/-- `while (uval > (ulonglong) LONG_MAX) { quo = uval / (uint) radix;
rem = (uint) (uval - quo * (uint) radix); *--p = dig_vec[rem]; uval = quo; }` -/
def ulonglongLoop (digVec : List UInt8) (radix : Nat) : Nat → Nat → List UInt8 → Nat × List UInt8
  | 0, uval, p => (uval, p)
  | fuel + 1, uval, p =>
    if longMax < uval then
      ulonglongLoop digVec radix fuel (uval / radix) (digVec.getD (uval - uval / radix * radix) 0 :: p)
    else (uval, p)

/-- `while (long_val != 0) { quo = long_val / radix;
*--p = dig_vec[(uchar) (long_val - quo * radix)]; long_val = quo; }` -/
def longLoop (digVec : List UInt8) (radix : Int) : Nat → Int → List UInt8 → List UInt8
  | 0, _, p => p
  | fuel + 1, longVal, p =>
    if longVal ≠ 0 then
      longLoop digVec radix fuel (longVal.tdiv radix)
        (digVec.getD ((longVal - longVal.tdiv radix * radix) % 256).toNat 0 :: p)
    else p

/-- The digits both functions write after the sign: `'0'` for zero, and
otherwise the two loops over the 64 places of `buffer`. -/
def unsignedDigits (digVec : List UInt8) (radix uval : Nat) : List UInt8 :=
  if uval = 0 then ['0'.toUInt8]
  else
    let (uval, p) := ulonglongLoop digVec radix 64 uval []
    longLoop digVec radix 64 uval p

/-- The copy `while ((*dst++ = *p++) != 0);` after the sign, and
`return dst - 1`. -/
def finish (text : List UInt8) : List UInt8 × Nat := (text ++ [0], text.length)

/-- The table `ll2str` reads digits from. -/
def digVecFor (radix : Int) (upcase : Bool) : List UInt8 :=
  if radix < -36 ∨ 36 < radix then digVecBase62 else if upcase then digVecUpper else digVecLower

/-- `ll2str(val, dst, radix, upcase)`: `none` for the `(char*) 0` of a radix
outside `2..62` and `-62..-2`; a negative radix reads `val` as signed. -/
def ll2str (val : Int64) (radix : Int) (upcase : Bool) : Option (List UInt8 × Nat) :=
  let digVec := digVecFor radix upcase
  let uval := val.toUInt64
  if radix < 0 then
    if radix < -62 ∨ -2 < radix then none
    else if val < 0 then some (finish ('-'.toUInt8 :: unsignedDigits digVec (-radix).toNat (0 - uval).toNat))
    else some (finish (unsignedDigits digVec (-radix).toNat uval.toNat))
  else if 62 < radix ∨ radix < 2 then none
  else some (finish (unsignedDigits digVec radix.toNat uval.toNat))

/-- `longlong10_to_str(val, dst, radix)`: base ten in upper-case digits,
signed exactly when `radix` is negative. -/
def longlong10ToStr (val : Int64) (radix : Int) : List UInt8 × Nat :=
  let uval := val.toUInt64
  if radix < 0 ∧ val < 0 then finish ('-'.toUInt8 :: unsignedDigits digVecUpper 10 (0 - uval).toNat)
  else finish (unsignedDigits digVecUpper 10 uval.toNat)

example : longlong10ToStr (-120) (-10) = ("-120".toList.map Char.toUInt8 ++ [0], 4) := by decide

example : ll2str 255 16 false = some ("ff".toList.map Char.toUInt8 ++ [0], 2) := by decide

/-! ## The digits of a number -/

/-- The digits of `n` in base `radix` through the table `digVec`, most
significant first, and `"0"` for zero: no leading zero. -/
def baseDigits (digVec : List UInt8) (radix n : Nat) : List UInt8 :=
  if n = 0 then ['0'.toUInt8] else (Nat.digits radix n).reverse.map (digVec.getD · 0)

/-- The canonical decimal text of an integer: a minus sign exactly for a
negative number, then its decimal digits. -/
def decimalText (v : Int) : List UInt8 :=
  (if v < 0 then ['-'.toUInt8] else []) ++ baseDigits digVecUpper 10 v.natAbs

/-! ## The digit loops -/

section Loops

variable {digVec : List UInt8} {radix : Nat}

/-- What both loops keep: the digits of the value still to divide, in front
of the digits already written. -/
def pending (digVec : List UInt8) (radix uval : Nat) (p : List UInt8) : List UInt8 :=
  (Nat.digits radix uval).reverse.map (digVec.getD · 0) ++ p

theorem pending_step (hr : 2 ≤ radix) {uval : Nat} (hu : 0 < uval) (p : List UInt8) :
    pending digVec radix (uval / radix) (digVec.getD (uval % radix) 0 :: p) = pending digVec radix uval p := by
  rw [pending, pending, Nat.digits_def' (by omega) hu]
  simp

/-- The `ulonglong` loop, by induction on its fuel: each division by a radix
of two or more halves the value, so `fuel` passes bring a value below
`2 ^ (31 + fuel)` under `LONG_MAX`, and the digits they write are those the
value loses. -/
theorem ulonglongLoop_spec (hr : 2 ≤ radix) :
    ∀ (fuel uval : Nat) (p : List UInt8), uval < 2 ^ (31 + fuel) →
      (ulonglongLoop digVec radix fuel uval p).1 ≤ longMax ∧
        pending digVec radix (ulonglongLoop digVec radix fuel uval p).1
          (ulonglongLoop digVec radix fuel uval p).2 = pending digVec radix uval p
  | 0, uval, p, hu => by
    have hsmall : uval ≤ longMax := by unfold longMax; omega
    exact ⟨hsmall, rfl⟩
  | fuel + 1, uval, p, hu => by
    rw [ulonglongLoop]
    split_ifs with hbig
    · -- one division: the quotient is below the bound of one pass fewer
      have hhalf : uval / radix ≤ uval / 2 := Nat.div_le_div_left hr (by omega)
      have hbound : uval / radix < 2 ^ (31 + fuel) := by
        rw [show 31 + (fuel + 1) = 31 + fuel + 1 by omega, Nat.pow_succ] at hu
        omega
      have hrem : uval - uval / radix * radix = uval % radix := by
        rw [Nat.mod_eq_sub_mul_div, Nat.mul_comm]
      rw [hrem]
      obtain ⟨hle, hpend⟩ := ulonglongLoop_spec hr fuel (uval / radix) _ hbound
      exact ⟨hle, hpend.trans (pending_step hr (by unfold longMax at hbig; omega) p)⟩
    · exact ⟨by omega, rfl⟩

/-- The `long` loop writes the remaining digits, given a place for each. -/
theorem longLoop_spec (hr : 2 ≤ radix) (hr' : radix ≤ 256) :
    ∀ (fuel m : Nat) (p : List UInt8), (Nat.digits radix m).length ≤ fuel →
      longLoop digVec radix fuel (m : Int) p = pending digVec radix m p
  | 0, m, p, hlen => by
    have hnil : (Nat.digits radix m).length = 0 := by omega
    have hm : m = 0 := Nat.digits_eq_nil_iff_eq_zero.mp (List.length_eq_zero_iff.mp hnil)
    subst hm
    simp [longLoop, pending]
  | fuel + 1, m, p, hlen => by
    rcases Nat.eq_zero_or_pos m with rfl | hm
    · simp [longLoop, pending]
    · have hq : (m : Int).tdiv radix = ((m / radix : Nat) : Int) := (Int.ofNat_tdiv m radix).symm
      have hrem : (((m : Int) - ((m / radix : Nat) : Int) * radix) % 256).toNat = m % radix := by
        have hsplit := congrArg (fun x : Nat => (x : Int)) (Nat.div_add_mod m radix)
        push_cast at hsplit
        have hlt : m % radix < 256 := lt_of_lt_of_le (Nat.mod_lt m (by omega)) hr'
        rw [show (m : Int) - ((m / radix : Nat) : Int) * radix = ((m % radix : Nat) : Int) by
          push_cast; linarith]
        rw [Int.emod_eq_of_lt (by omega) (by omega), Int.toNat_natCast]
      rw [Nat.digits_def' (by omega) hm, List.length_cons] at hlen
      rw [longLoop, if_pos (by omega), hq, hrem, longLoop_spec hr hr' fuel (m / radix) _ (by omega),
        pending_step hr hm]

/-- Both loops over the 64 places of `buffer` write the digits of a 64-bit
value. -/
theorem unsignedDigits_eq (hr : 2 ≤ radix) (hr' : radix ≤ 256) {uval : Nat} (hu : uval < 2 ^ 64) :
    unsignedDigits digVec radix uval = baseDigits digVec radix uval := by
  unfold unsignedDigits baseDigits
  split_ifs with h0
  · rfl
  · have hbound : uval < 2 ^ (31 + 64) :=
      lt_of_lt_of_le hu (Nat.pow_le_pow_right (by decide) (by decide))
    obtain ⟨hle, hpend⟩ := @ulonglongLoop_spec digVec _ hr 64 uval [] hbound
    rcases hloop : ulonglongLoop digVec radix 64 uval [] with ⟨u, p⟩
    rw [hloop] at hle hpend
    have hfew : (Nat.digits radix u).length ≤ 64 := by
      apply (Nat.digits_length_le_iff (by omega) u).mpr
      have := Nat.pow_le_pow_left hr 64
      unfold longMax at hle
      omega
    simp only
    rw [longLoop_spec hr hr' 64 u p hfew, hpend, pending, List.append_nil]

end Loops

/-! ## Signed and unsigned values -/

theorem toNat_toUInt64 (v : Int64) : (v.toUInt64.toNat : Int) = v.toInt % 2 ^ 64 := by
  have hbits : v.toUInt64.toNat = v.toBitVec.toNat := rfl
  have hint : v.toInt = v.toBitVec.toInt := rfl
  have hlt := v.toBitVec.isLt
  rw [hbits, hint, BitVec.toInt_eq_toNat_cond]
  split_ifs <;> omega

theorem lt_zero_iff (v : Int64) : v < 0 ↔ v.toInt < 0 := by
  rw [Int64.lt_iff_toInt_lt]
  rfl

/-- The unsigned value of a non-negative `longlong`. -/
theorem toNat_toUInt64_of_nonneg {v : Int64} (h : 0 ≤ v.toInt) : v.toUInt64.toNat = v.toInt.natAbs := by
  have hv := toNat_toUInt64 v
  have hlt := v.toInt_lt
  rw [Int.emod_eq_of_lt h (by omega)] at hv
  omega

/-- `(ulonglong) 0 - uval` of a negative `longlong` is its absolute value. -/
theorem toNat_neg_toUInt64 {v : Int64} (h : v.toInt < 0) : (0 - v.toUInt64).toNat = v.toInt.natAbs := by
  have hv := toNat_toUInt64 v
  have hge := v.le_toInt
  rw [UInt64.toNat_sub, UInt64.toNat_zero]
  have hu : (v.toUInt64.toNat : Int) = v.toInt + 2 ^ 64 := by
    rw [hv, Int.emod_def]
    have : v.toInt / 2 ^ 64 = -1 := by
      rw [Int.ediv_eq_iff_of_pos (by norm_num)]
      omega
    rw [this]
    ring
  have hlt := v.toUInt64.toNat_lt
  omega

/-- A `ulonglong` read as a `longlong`, as `my_strtoll10` returns it. -/
theorem toLonglong_toNat (u : UInt64) : toLonglong u.toNat = u.toInt64.toInt := by
  have hint : u.toInt64.toInt = u.toBitVec.toInt := rfl
  have hbits : u.toBitVec.toNat = u.toNat := rfl
  rw [hint, BitVec.toInt_eq_toNat_cond, hbits, toLonglong]
  split_ifs <;> omega

/-! ## Reading the text back -/

theorem digVecUpper_getD {d : Nat} (h : d < 10) : digVecUpper.getD d 0 = digitChar d := by
  revert d
  decide

theorem digitChar_eq_zero_iff {d : Nat} (h : d < 10) : digitChar d = '0'.toUInt8 ↔ d = 0 := by
  revert d
  decide

/-- The decimal digits of a number read back by `my_strtoll10`'s Horner
loop, digit by digit from the most significant. -/
theorem horner_reverse_map (l : List Nat) (hl : ∀ d ∈ l, d < 10) :
    horner 0 (l.reverse.map (digVecUpper.getD · 0)) = Nat.ofDigits 10 l := by
  induction l with
  | nil => rfl
  | cons d l ih =>
    have hd := hl d List.mem_cons_self
    rw [List.reverse_cons, List.map_append, horner_append, ih (fun e he => hl e (List.mem_cons_of_mem d he)),
      List.map_singleton, horner_cons, horner, List.foldl_nil, digVecUpper_getD hd, digitValue_digitChar hd,
      Nat.ofDigits_cons]
    ring

theorem horner_baseDigits (n : Nat) : horner 0 (baseDigits digVecUpper 10 n) = n := by
  unfold baseDigits
  split_ifs with h0
  · subst h0
    rfl
  · rw [horner_reverse_map _ (fun d hd => Nat.digits_lt_base (by decide) hd), Nat.ofDigits_digits]

theorem baseDigits_digits (n : Nat) : ∀ c ∈ baseDigits digVecUpper 10 n, latin1IsDigit c = true := by
  intro c hc
  unfold baseDigits at hc
  split_ifs at hc
  · simp only [List.mem_singleton] at hc
    subst hc
    decide
  · obtain ⟨d, hd, rfl⟩ := List.mem_map.mp hc
    have hlt := Nat.digits_lt_base (by decide) (List.mem_reverse.mp hd)
    rw [digVecUpper_getD hlt]
    exact latin1IsDigit_digitChar hlt

theorem length_baseDigits_le {n k : Nat} (hk : 0 < k) (hn : n < 10 ^ k) :
    (baseDigits digVecUpper 10 n).length ≤ k := by
  unfold baseDigits
  split_ifs
  · simp only [List.length_singleton]
    omega
  · simpa using (Nat.digits_length_le_iff (by decide) n).mpr hn

/-- The digits of a positive number start with one that is not zero. -/
theorem baseDigits_cons {n : Nat} (hn : 0 < n) :
    ∃ d D, baseDigits digVecUpper 10 n = d :: D ∧ latin1IsDigit d = true ∧ d ≠ '0'.toUInt8 := by
  have hne : Nat.digits 10 n ≠ [] := Nat.digits_ne_nil_iff_ne_zero.mpr (by omega)
  have hlast := Nat.getLast_digit_ne_zero 10 (show n ≠ 0 by omega)
  have hlt := Nat.digits_lt_base (by decide) (List.getLast_mem hne)
  obtain ⟨a, as, has⟩ := List.exists_cons_of_ne_nil (List.reverse_ne_nil_iff.mpr hne)
  have ha : a = (Nat.digits 10 n).getLast hne := by
    rw [← List.head_reverse (List.reverse_ne_nil_iff.mpr hne)]
    simp [has]
  refine ⟨digVecUpper.getD a 0, as.map (digVecUpper.getD · 0), ?_, ?_, ?_⟩
  · simp [baseDigits, show n ≠ 0 by omega, has]
  · rw [ha, digVecUpper_getD hlt]
    exact latin1IsDigit_digitChar hlt
  · rw [ha, digVecUpper_getD hlt, Ne, digitChar_eq_zero_iff hlt]
    exact hlast

/-- `my_strtoll10` reads the canonical text of a `longlong` back: its value,
the end after the last digit, and `*error` `-1` for a negative number. -/
theorem myStrtoll10_decimalText {v : Int} (hlo : -2 ^ 63 ≤ v) (hhi : v < 2 ^ 64) :
    myStrtoll10 (decimalText v) =
      (if v < 0 then v else toLonglong v.natAbs, (decimalText v).length, if v < 0 then -1 else 0) := by
  unfold decimalText
  by_cases hneg : v < 0
  · -- `-` and the digits of `|v| ≤ 2^63`, at most nineteen of them
    obtain ⟨d, D, hD, digit, lead⟩ := baseDigits_cons (show 0 < v.natAbs by omega)
    have digits : ∀ c ∈ D, latin1IsDigit c = true := fun c hc =>
      baseDigits_digits v.natAbs c (hD ▸ List.mem_cons_of_mem d hc)
    have hfew : (d :: D).length ≤ 19 := hD ▸ length_baseDigits_le (by decide) (by omega)
    have hread := myStrtoll10_digits 0 (W := []) (X := ['-'.toUInt8]) (R := []) (by simp)
      (Or.inr (Or.inr rfl)) digit lead digits (by decide)
    have hvalue := horner_baseDigits v.natAbs
    rw [hD] at hvalue
    simp only [List.nil_append, List.replicate_zero, List.append_nil, decide_true, List.length_nil,
      List.length_singleton, Nat.zero_add, Nat.add_zero, hvalue, List.singleton_append] at hread
    rw [if_pos hneg, hD, List.singleton_append, hread, ← strtoll10Result_negative rfl rfl,
      if_neg (by omega)]
    simp only [List.length_cons] at hfew
    simp only [if_pos hneg, List.length_cons, Prod.mk.injEq, and_true]
    omega
  · -- the digits alone, read as an unsigned number
    have hread := myStrtoll10_unsigned (W := []) (X := []) (R := []) (by simp) (Or.inl rfl)
      (by unfold baseDigits; split_ifs <;> simp [Nat.digits_ne_nil_iff_ne_zero, *])
      (baseDigits_digits v.natAbs) (by decide) (by rw [horner_baseDigits]; omega)
    simp only [List.nil_append, List.append_nil, List.length_nil, Nat.zero_add,
      horner_baseDigits] at hread
    rw [if_neg hneg, List.nil_append, hread, if_neg hneg, if_neg hneg]


/-! ## What the functions write -/

/-- `longlong10_to_str(v, dst, -10)` writes the canonical text of `v`. -/
theorem longlong10ToStr_signed (v : Int64) : longlong10ToStr v (-10) = finish (decimalText v.toInt) := by
  have hlo := v.le_toInt
  have hhi := v.toInt_lt
  unfold longlong10ToStr decimalText
  by_cases hneg : v.toInt < 0
  · rw [if_pos ⟨by norm_num, (lt_zero_iff v).mpr hneg⟩, if_pos hneg, toNat_neg_toUInt64 hneg,
      unsignedDigits_eq (by norm_num) (by norm_num) (by omega)]
    rfl
  · rw [if_neg (fun h => hneg ((lt_zero_iff v).mp h.2)), if_neg hneg, toNat_toUInt64_of_nonneg (by omega),
      unsignedDigits_eq (by norm_num) (by norm_num) (by omega)]
    rfl

/-- `longlong10_to_str((longlong) u, dst, 10)` writes the decimal text of the
`ulonglong` `u`. -/
theorem longlong10ToStr_unsigned (u : UInt64) :
    longlong10ToStr u.toInt64 10 = finish (decimalText u.toNat) := by
  unfold longlong10ToStr decimalText
  rw [if_neg (fun h => absurd h.1 (by norm_num)), UInt64.toUInt64_toInt64,
    unsignedDigits_eq (by norm_num) (by norm_num) u.toNat_lt, if_neg (by omega), Int.natAbs_natCast]
  rfl

/-- `ll2str` with a radix of size `2..62` writes the digits of `v` in that
base from the table it selects, after a minus sign for a negative `v` and a
negative radix. -/
theorem ll2str_eq (v : Int64) (radix : Int) (upcase : Bool) (two : 2 ≤ radix.natAbs)
    (sixtyTwo : radix.natAbs ≤ 62) :
    ll2str v radix upcase = some (finish ((if radix < 0 ∧ v.toInt < 0 then ['-'.toUInt8] else []) ++
      baseDigits (digVecFor radix upcase) radix.natAbs
        (if radix < 0 then v.toInt.natAbs else v.toUInt64.toNat))) := by
  have hlo := v.le_toInt
  have hhi := v.toInt_lt
  unfold ll2str
  by_cases hr : radix < 0
  · have habs : (-radix).toNat = radix.natAbs := by omega
    rw [if_pos hr, if_neg (by omega), if_pos hr, habs]
    by_cases hneg : v.toInt < 0
    · rw [if_pos ((lt_zero_iff v).mpr hneg), if_pos ⟨hr, hneg⟩, toNat_neg_toUInt64 hneg,
        unsignedDigits_eq two (by omega) (by omega)]
      rfl
    · rw [if_neg (fun h => hneg ((lt_zero_iff v).mp h)), if_neg (fun h => hneg h.2),
        toNat_toUInt64_of_nonneg (by omega), unsignedDigits_eq two (by omega) (by omega)]
      rfl
  · have habs : radix.toNat = radix.natAbs := by omega
    rw [if_neg hr, if_neg (by omega), if_neg hr, if_neg (fun h => hr h.1), habs,
      unsignedDigits_eq two (by omega) v.toUInt64.toNat_lt]
    rfl

/-- Integers to text and back: `longlong10_to_str` writes the canonical
decimal text of a `longlong` with radix `-10`, and of a `ulonglong` with radix
`10`, returning the pointer to the NUL after it, and `my_strtoll10` reads
that text back as the same `longlong`; `ll2str` writes the digits in any base
of size `2..62`. -/
theorem integerText_round_trip :
    (∀ v : Int64, longlong10ToStr v (-10) = finish (decimalText v.toInt) ∧
      myStrtoll10 (decimalText v.toInt) =
        (v.toInt, (decimalText v.toInt).length, if v.toInt < 0 then -1 else 0)) ∧
    (∀ u : UInt64, longlong10ToStr u.toInt64 10 = finish (decimalText u.toNat) ∧
      myStrtoll10 (decimalText u.toNat) = (u.toInt64.toInt, (decimalText u.toNat).length, 0)) ∧
    (∀ (v : Int64) (radix : Int) (upcase : Bool), 2 ≤ radix.natAbs → radix.natAbs ≤ 62 →
      ll2str v radix upcase = some (finish ((if radix < 0 ∧ v.toInt < 0 then ['-'.toUInt8] else []) ++
        baseDigits (digVecFor radix upcase) radix.natAbs
          (if radix < 0 then v.toInt.natAbs else v.toUInt64.toNat)))) := by
  refine ⟨fun v => ⟨longlong10ToStr_signed v, ?_⟩, fun u => ⟨longlong10ToStr_unsigned u, ?_⟩, ll2str_eq⟩
  · have hlo := v.le_toInt
    have hhi := v.toInt_lt
    rw [myStrtoll10_decimalText (by omega) (by omega)]
    by_cases hneg : v.toInt < 0
    · simp only [if_pos hneg]
    · simp only [if_neg hneg, toLonglong, if_pos (show v.toInt.natAbs < 2 ^ 63 by omega)]
      congr 1
      omega
  · have hlt := u.toNat_lt
    rw [myStrtoll10_decimalText (by omega) (by omega), if_neg (by omega), if_neg (by omega),
      Int.natAbs_natCast, toLonglong_toNat]

theorem integerText_round_trip_hex :
    2 ≤ (16 : Int).natAbs ∧ (16 : Int).natAbs ≤ 62 ∧
      ll2str 255 16 false = some (finish ((if (16 : Int) < 0 ∧ (255 : Int64).toInt < 0 then ['-'.toUInt8] else []) ++
        baseDigits (digVecFor 16 false) (16 : Int).natAbs
          (if (16 : Int) < 0 then (255 : Int64).toInt.natAbs else (255 : Int64).toUInt64.toNat))) :=
  ⟨by decide, by decide, integerText_round_trip.2.2 255 16 false (by decide) (by decide)⟩

end MariaDB.Strings
