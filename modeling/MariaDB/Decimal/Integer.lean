import Mathlib.Data.Nat.Digits.Lemmas
import Mathlib.Data.Rat.Floor
import MariaDB.Decimal.CmpOrder

set_option autoImplicit false

/- The conversions between `decimal_t` and the 64-bit integers of
strings/decimal.c. `ull2dec` splits an integer into words; `decimal2ulonglong`
and `decimal2longlong` gather the integer words back, checking before each
multiplication by `DIG_BASE` that it cannot overflow, and report fraction words
that are dropped. `decimal2longlong` gathers the negated magnitude, so that
`LONGLONG_MIN` is reached without overflow. -/
namespace MariaDB.Decimal

/-- `ULONGLONG_MAX`. -/
def ulonglongMax : Nat := 2 ^ 64 - 1

/-- `LONGLONG_MIN`. -/
def longlongMin : Int := -2 ^ 63

/-- `LONGLONG_MAX`. -/
def longlongMax : Int := 2 ^ 63 - 1

/-! ## `ull2dec` -/

/-- The loop `for (intg1=1; from >= DIG_BASE; intg1++, from/=DIG_BASE)`: the
words `from` takes and its top word. -/
def countWords : Nat → Nat → Nat → Nat × Nat
  | 0, x, intg1 => (intg1, x)
  | fuel + 1, x, intg1 =>
    if digBase ≤ x then countWords fuel (x / digBase) (intg1 + 1) else (intg1, x)

/-- The loop `for (...; from; to->intg++, from/=10)` over the top word. -/
def countDigits : Nat → Nat → Nat → Nat
  | 0, _, intg => intg
  | fuel + 1, x, intg => if x ≠ 0 then countDigits fuel (x / 10) (intg + 1) else intg

/-- The last loop of `ull2dec`: the low `intg1` words of `x`, stored from the
last one back. -/
def lowWords : Nat → Nat → List Nat
  | 0, _ => []
  | intg1 + 1, x =>
    let y := x / digBase
    lowWords intg1 y ++ [x - y * digBase]

/-- `ull2dec(from, to)`; the sign of `to` is the caller's. -/
def ull2dec (x : Nat) (toDec : DecimalT) : DecimalT × DecError :=
  if x = 0 then (toDec.makeZero, .ok)
  else
    let (intg1, top) := countWords x x 1
    let (intg1, error) :=
      if toDec.len < intg1 then (toDec.len, DecError.overflow) else (intg1, .ok)
    let toDec := { toDec with
      frac := 0
      intg := countDigits top top ((intg1 - 1) * 9)
      buf := lowWords intg1 x }
    (toDec, error)

/-- `ulonglong2decimal(from, to)`. -/
def ulonglong2decimal (x : Nat) (toDec : DecimalT) : DecimalT × DecError :=
  ull2dec x { toDec with sign := false }

/-- `longlong2decimal(from, to)`. -/
def longlong2decimal (x : Int) (toDec : DecimalT) : DecimalT × DecError :=
  let toDec := { toDec with sign := decide (x < 0) }
  if x < 0 then
    -- `(ulonglong)LONGLONG_MIN`, to avoid the undefined `-LONGLONG_MIN`
    if x = longlongMin then ull2dec (longlongMin % 2 ^ 64).toNat toDec
    else ull2dec (-x).toNat toDec
  else ull2dec x.toNat toDec

/-! ## `decimal2ulonglong` and `decimal2longlong` -/

/-- The integer loop of `decimal2ulonglong`: the words gathered into `x`, or
`none` where the next step would pass `ULONGLONG_MAX`. -/
def ulonglongWords : List Nat → Nat → Option Nat
  | [], x => some x
  | w :: ws, x =>
    if ulonglongMax / digBase ≤ x ∧ (ulonglongMax / digBase < x ∨ ulonglongMax % digBase < w)
    then none
    else ulonglongWords ws (x * digBase + w)

/-- The integer loop of `decimal2longlong`, which gathers `-|from|`: `none`
where the next step would pass `LONGLONG_MIN`. -/
def longlongWords : List Nat → Int → Option Int
  | [], x => some x
  | w :: ws, x =>
    if x ≤ longlongMin.tdiv digBase ∧
        (x < longlongMin.tdiv digBase ∨ -longlongMin.tmod digBase < w)
    then none
    else longlongWords ws (x * digBase - w)

/-- The fraction loop of both conversions: `E_DEC_TRUNCATED` at a fraction
word that is not zero. -/
def fracError (ws : List Nat) : DecError :=
  if ws.all (· == 0) then .ok else .truncated

/-- `decimal2ulonglong(from, to)`: the value stored to `*to` and the code. -/
def decimal2ulonglong (d : DecimalT) : Nat × DecError :=
  if d.sign then (0, .overflow)
  else
    match ulonglongWords (d.buf.take (roundUp d.intg)) 0 with
    | none => (ulonglongMax, .overflow)
    | some x => (x, fracError (fracWords d))

/-- `decimal2longlong(from, to)`: the value stored to `*to` and the code. -/
def decimal2longlong (d : DecimalT) : Int × DecError :=
  match longlongWords (d.buf.take (roundUp d.intg)) 0 with
  | none => (if d.sign then longlongMin else longlongMax, .overflow)
  | some x =>
    -- boundary case: 9223372036854775808
    if d.sign = false ∧ x = longlongMin then (longlongMax, .overflow)
    else (if d.sign then x else -x, fracError (fracWords d))

/-! ## Truncation toward zero -/

/-- `q` truncated toward zero. -/
def truncate (q : ℚ) : Int := if 0 ≤ q then ⌊q⌋ else ⌈q⌉

theorem truncate_neg (q : ℚ) : truncate (-q) = -truncate q := by
  unfold truncate
  rcases lt_trichotomy q 0 with neg | rfl | pos
  · rw [if_pos (by linarith), if_neg (by linarith), Int.floor_neg]
  · simp
  · rw [if_neg (by linarith), if_pos pos.le, Int.ceil_neg]

/-- A magnitude `n + f` with `0 ≤ f < 1` truncates to `n`, and is an integer
exactly when `f` is zero. -/
theorem truncate_natCast_add {n : Nat} {f : ℚ} (nonneg : 0 ≤ f) (lt : f < 1) :
    truncate (n + f) = n ∧ ((n : ℚ) = n + f ↔ f = 0) := by
  have floor : ⌊(n : ℚ) + f⌋ = n := by
    rw [Int.floor_eq_iff]
    push_cast
    constructor <;> linarith
  refine ⟨?_, ⟨fun h => by linarith, fun h => by rw [h, add_zero]⟩⟩
  rw [truncate, if_pos (by positivity), floor]

/-! ## The words of a well-formed decimal -/

/-- `fracError` reports a fraction word that is not zero, which is a fraction
that is not zero. -/
theorem fracError_eq_ok_iff {ws : List Nat} : fracError ws = .ok ↔ fracValue ws = 0 := by
  have pos := digBase_pos
  by_cases zero : ws.all (· == 0)
  · have value : wordsValue ws = 0 := by
      have rep : ws = List.replicate ws.length 0 := by
        rw [List.eq_replicate_iff]
        simpa using zero
      rw [rep, wordsValue_replicate_zero]
    simp [fracError, zero, fracValue, value]
  · have ne : ∃ w ∈ ws, w ≠ 0 := by simpa using zero
    have value := wordsValue_pos ne
    simp only [fracError, zero, Bool.false_eq_true, ↓reduceIte, reduceCtorEq, false_iff,
      fracValue]
    positivity

/-- The magnitude of a well-formed decimal is its integer part and the
fraction its fraction words spell. -/
theorem DecimalT.magnitude_eq_intPart {d : DecimalT} (wf : d.WellFormed) :
    d.magnitude = d.intPart + fracValue (fracWords d) := by
  have pos := digBase_pos
  rw [DecimalT.magnitude, words_eq wf, wordsValue_append, fracValue, fracWords_length wf,
    DecimalT.intPart_def]
  push_cast
  field_simp

theorem fracWords_word_lt {d : DecimalT} (wf : d.WellFormed) : ∀ w ∈ fracWords d, w < digBase :=
  fun _ mem => wf.word_lt _ (List.mem_of_mem_drop (List.mem_of_mem_take mem))

theorem intWords_word_lt {d : DecimalT} (wf : d.WellFormed) :
    ∀ w ∈ d.buf.take (roundUp d.intg), w < digBase :=
  fun _ mem => wf.word_lt _ (List.mem_of_mem_take mem)

/-- The integer part with the decimal's sign. -/
def DecimalT.signedIntPart (d : DecimalT) : Int := if d.sign then -(d.intPart : Int) else d.intPart

/-- What the conversions compute: the integer part with the sign, and whether
the fraction is zero. -/
theorem truncate_value {d : DecimalT} (wf : d.WellFormed) :
    truncate d.value = d.signedIntPart ∧
      ((truncate d.value : ℚ) = d.value ↔ fracError (fracWords d) = .ok) := by
  have magnitude := d.magnitude_eq_intPart wf
  obtain ⟨trunc, integral⟩ := truncate_natCast_add (n := d.intPart) (fracValue_nonneg (fracWords d))
    (fracValue_lt_one (fracWords_word_lt wf))
  rw [fracError_eq_ok_iff, ← integral, DecimalT.value_eq, magnitude, DecimalT.signedIntPart]
  cases d.sign
  · simp only [Bool.false_eq_true, ↓reduceIte, one_mul, trunc, Int.cast_natCast, and_self]
  · simp only [↓reduceIte, neg_one_mul, truncate_neg, trunc, Int.cast_neg, Int.cast_natCast,
      neg_inj, and_self]

/-! ## The gathering loops -/

/-- The test before `x*DIG_BASE + *buf` of `decimal2ulonglong` is that the
step would pass `ULONGLONG_MAX`. -/
theorem ulonglong_check_iff {x w : Nat} (hw : w < digBase) :
    (ulonglongMax / digBase ≤ x ∧ (ulonglongMax / digBase < x ∨ ulonglongMax % digBase < w)) ↔
      ulonglongMax < x * digBase + w := by
  simp only [ulonglongMax, digBase_def] at *
  omega

/-- The test before `x*DIG_BASE - *buf` of `decimal2longlong` is that the
step would pass `LONGLONG_MIN`. -/
theorem longlong_check_iff {x : Int} {w : Nat} (hw : w < digBase) :
    (x ≤ longlongMin.tdiv digBase ∧
        (x < longlongMin.tdiv digBase ∨ -longlongMin.tmod digBase < w)) ↔
      x * digBase - w < longlongMin := by
  have quot : longlongMin.tdiv digBase = -9223372036 := by decide
  have rem : -longlongMin.tmod digBase = 854775808 := by decide
  rw [quot, rem]
  simp only [longlongMin, digBase_def] at *
  omega

/-- Gathering words `ws` after `x`: `x` shifted past them plus their value. -/
theorem shift_add_wordsValue_cons (x w : Nat) (ws : List Nat) :
    x * digBase ^ (w :: ws).length + wordsValue (w :: ws) =
      (x * digBase + w) * digBase ^ ws.length + wordsValue ws := by
  rw [wordsValue_cons, List.length_cons, pow_succ]
  ring

/-- `decimal2ulonglong`'s loop gathers the words unless the value passes
`ULONGLONG_MAX`. -/
theorem ulonglongWords_eq {ws : List Nat} (h : ∀ w ∈ ws, w < digBase) {x : Nat}
    (hx : x ≤ ulonglongMax) :
    ulonglongWords ws x =
      if x * digBase ^ ws.length + wordsValue ws ≤ ulonglongMax
      then some (x * digBase ^ ws.length + wordsValue ws) else none := by
  induction ws generalizing x with
  | nil => simp [ulonglongWords, hx]
  | cons w ws ih =>
    have hw := h w List.mem_cons_self
    have scale : 1 ≤ digBase ^ ws.length := Nat.one_le_pow _ _ (by decide)
    rw [ulonglongWords, shift_add_wordsValue_cons]
    by_cases passes : ulonglongMax < x * digBase + w
    · have grown := Nat.le_mul_of_pos_right (x * digBase + w) scale
      rw [if_pos ((ulonglong_check_iff hw).mpr passes), if_neg (by omega)]
    · rw [if_neg (mt (ulonglong_check_iff hw).mp passes)]
      exact ih (fun v mem => h v (List.mem_cons_of_mem w mem)) (by omega)

/-- `decimal2longlong`'s loop gathers the negated words unless the value
passes `LONGLONG_MIN`. -/
theorem longlongWords_eq {ws : List Nat} (h : ∀ w ∈ ws, w < digBase) {x : Int}
    (hx : longlongMin ≤ x) (nonpos : x ≤ 0) :
    longlongWords ws x =
      if longlongMin ≤ x * digBase ^ ws.length - wordsValue ws
      then some (x * digBase ^ ws.length - wordsValue ws) else none := by
  induction ws generalizing x with
  | nil => simp [longlongWords, hx]
  | cons w ws ih =>
    have hw := h w List.mem_cons_self
    have scale : (1 : Int) ≤ digBase ^ ws.length := by
      have := Nat.one_le_pow ws.length digBase (by decide)
      exact_mod_cast this
    have shifted : x * digBase ^ (w :: ws).length - wordsValue (w :: ws) =
        (x * digBase - w) * digBase ^ ws.length - wordsValue ws := by
      have := congrArg (fun n : Nat => (n : Int)) (shift_add_wordsValue_cons 0 w ws)
      simp only [Nat.zero_mul, Nat.zero_add, Nat.cast_add, Nat.cast_mul, Nat.cast_pow] at this
      rw [List.length_cons, pow_succ, this]
      ring
    rw [longlongWords, shifted]
    by_cases passes : x * digBase - w < longlongMin
    · have low : (x * digBase - w) * digBase ^ ws.length ≤ x * digBase - w := by
        have : x * digBase - w ≤ 0 := by simp only [digBase_def] at *; omega
        nlinarith
      have nonneg : (0 : Int) ≤ wordsValue ws := Nat.cast_nonneg _
      rw [if_pos ((longlong_check_iff hw).mpr passes), if_neg (by omega)]
    · rw [if_neg (mt (longlong_check_iff hw).mp passes)]
      exact ih (fun v mem => h v (List.mem_cons_of_mem w mem)) (by omega)
        (by simp only [digBase_def] at *; omega)

/-! ## What the conversions to an integer return -/

/-- `decimal2ulonglong` of a well-formed decimal without a sign. -/
theorem decimal2ulonglong_eq {d : DecimalT} (wf : d.WellFormed) (unsigned : d.sign = false) :
    decimal2ulonglong d =
      if d.intPart ≤ ulonglongMax then (d.intPart, fracError (fracWords d))
      else (ulonglongMax, .overflow) := by
  have gather := ulonglongWords_eq (intWords_word_lt wf) (Nat.zero_le ulonglongMax)
  simp only [Nat.zero_mul, Nat.zero_add] at gather
  rw [decimal2ulonglong, if_neg (by simp [unsigned]), gather, ← DecimalT.intPart_def]
  by_cases fits : d.intPart ≤ ulonglongMax
  · simp only [if_pos fits]
  · simp only [if_neg fits]

/-- `decimal2longlong` of a well-formed decimal. -/
theorem decimal2longlong_eq {d : DecimalT} (wf : d.WellFormed) :
    decimal2longlong d =
      if longlongMin ≤ d.signedIntPart ∧ d.signedIntPart ≤ longlongMax then
        (d.signedIntPart, fracError (fracWords d))
      else (if d.sign then longlongMin else longlongMax, .overflow) := by
  have gather := longlongWords_eq (intWords_word_lt wf) (x := 0) (by decide) le_rfl
  simp only [Int.zero_mul, Int.zero_sub] at gather
  rw [decimal2longlong, gather, ← DecimalT.intPart_def, DecimalT.signedIntPart]
  have nonneg : (0 : Int) ≤ d.intPart := Nat.cast_nonneg _
  cases d.sign
  · -- without a sign, `-x` is the value, unless `x` is `LONGLONG_MIN`
    by_cases fits : longlongMin ≤ -(d.intPart : Int)
    · by_cases boundary : -(d.intPart : Int) = longlongMin
      · have out : ¬(longlongMin ≤ (d.intPart : Int) ∧ (d.intPart : Int) ≤ longlongMax) := by
          simp only [longlongMin, longlongMax] at *
          omega
        simp [boundary, out]
      · have inRange : longlongMin ≤ (d.intPart : Int) ∧ (d.intPart : Int) ≤ longlongMax := by
          simp only [longlongMin, longlongMax] at *
          omega
        simp [fits, boundary, inRange]
    · have out : ¬(longlongMin ≤ (d.intPart : Int) ∧ (d.intPart : Int) ≤ longlongMax) := by
        simp only [longlongMin, longlongMax] at *
        omega
      simp [fits, out]
  · have below : -(d.intPart : Int) ≤ longlongMax := by
      simp only [longlongMax]
      omega
    by_cases fits : longlongMin ≤ -(d.intPart : Int)
    · simp [fits, below]
    · simp [fits]

/-! ## What `ull2dec` stores -/

/-- With fuel enough, `countWords` counts `k` more words and stops at the top
word `x / DIG_BASE^k`, which is below `DIG_BASE` and not zero unless `x` is. -/
theorem countWords_spec {fuel x : Nat} (h : x < digBase ^ (fuel + 1)) (intg1 : Nat) :
    ∃ k, countWords fuel x intg1 = (intg1 + k, x / digBase ^ k) ∧ x / digBase ^ k < digBase ∧
      (0 < x → 0 < x / digBase ^ k) := by
  induction fuel generalizing x intg1 with
  | zero => exact ⟨0, by simp [countWords], by simpa using h, by simp⟩
  | succ fuel ih =>
    by_cases big : digBase ≤ x
    · have next : x / digBase < digBase ^ (fuel + 1) := by
        rw [Nat.div_lt_iff_lt_mul (by decide), ← pow_succ]
        exact h
      obtain ⟨k, count, top, nonzero⟩ := ih next (intg1 + 1)
      have shift : x / digBase / digBase ^ k = x / digBase ^ (k + 1) := by
        rw [Nat.div_div_eq_div_mul, ← pow_succ']
      refine ⟨k + 1, ?_, shift ▸ top, fun _ => shift ▸ nonzero (Nat.div_pos big (by decide))⟩
      rw [countWords, if_pos big, count, shift, Nat.add_right_comm, Nat.add_assoc]
    · exact ⟨0, by simp [countWords, big], by simpa using Nat.lt_of_not_le big, by simp⟩

/-- `countDigits` adds the number of decimal digits of `x`. -/
theorem countDigits_eq {fuel x : Nat} (h : x ≤ fuel) (intg : Nat) :
    countDigits fuel x intg = intg + (Nat.digits 10 x).length := by
  induction fuel generalizing x intg with
  | zero =>
    obtain rfl : x = 0 := Nat.le_zero.mp h
    rfl
  | succ fuel ih =>
    by_cases zero : x = 0
    · subst zero
      simp [countDigits]
    · rw [countDigits, if_pos zero, ih (by omega), Nat.digits_def' (by decide) (Nat.pos_of_ne_zero zero),
        List.length_cons]
      omega

/-- One word of `ull2dec`'s last loop: `x - y*DIG_BASE` is `x % DIG_BASE`. -/
theorem lowWords_succ (n x : Nat) :
    lowWords (n + 1) x = lowWords n (x / digBase) ++ [x % digBase] := by
  rw [lowWords.eq_2, Nat.mod_eq_sub_div_mul]

theorem lowWords_length (n x : Nat) : (lowWords n x).length = n := by
  induction n generalizing x with
  | zero => rfl
  | succ n ih => rw [lowWords_succ, List.length_append, ih, List.length_singleton]

theorem lowWords_word_lt (n x : Nat) : ∀ w ∈ lowWords n x, w < digBase := by
  induction n generalizing x with
  | zero => simp [lowWords]
  | succ n ih =>
    intro w mem
    rw [lowWords_succ] at mem
    rcases List.mem_append.mp mem with rest | last
    · exact ih _ w rest
    · rw [List.mem_singleton.mp last]
      exact Nat.mod_lt x (by decide)

/-- The words `ull2dec` stores spell `x` modulo the room they have. -/
theorem wordsValue_lowWords (n x : Nat) : wordsValue (lowWords n x) = x % digBase ^ n := by
  induction n generalizing x with
  | zero => simp [lowWords, Nat.mod_one]
  | succ n ih =>
    rw [lowWords_succ, wordsValue_append_singleton, ih, pow_succ', Nat.mod_mul]
    ring

theorem lowWords_headD (n x : Nat) : (lowWords (n + 1) x).headD 0 = x / digBase ^ n % digBase := by
  induction n generalizing x with
  | zero => rw [lowWords_succ, pow_zero, Nat.div_one]; rfl
  | succ n ih =>
    obtain ⟨w, ws, cons⟩ : ∃ w ws, lowWords (n + 1) (x / digBase) = w :: ws := by
      cases h : lowWords (n + 1) (x / digBase) with
      | nil => simpa [h] using lowWords_length (n + 1) (x / digBase)
      | cons w ws => exact ⟨w, ws, rfl⟩
    have head := ih (x / digBase)
    rw [cons, List.headD_cons, Nat.div_div_eq_div_mul, ← pow_succ'] at head
    rw [lowWords_succ, cons, List.cons_append, List.headD_cons, head]

/-- The words `x` takes: the top word `x / DIG_BASE^k` is not zero and below
`DIG_BASE`. -/
theorem exists_top_word {x : Nat} (pos : 0 < x) :
    ∃ k, countWords x x 1 = (k + 1, x / digBase ^ k) ∧ 0 < x / digBase ^ k ∧
      x / digBase ^ k < digBase ∧ digBase ^ k ≤ x ∧ x < digBase ^ (k + 1) := by
  have enough : x < digBase ^ (x + 1) :=
    (Nat.lt_pow_self (by decide)).trans (Nat.pow_lt_pow_right (by decide) (Nat.lt_succ_self x))
  obtain ⟨k, count, topLt, topPos⟩ := countWords_spec enough 1
  refine ⟨k, by rw [count, Nat.add_comm], topPos pos, topLt,
    (Nat.div_pos_iff.mp (topPos pos)).2, ?_⟩
  rw [pow_succ']
  exact (Nat.div_lt_iff_lt_mul (Nat.pow_pos (by decide))).mp topLt

/-- `ull2dec` of an integer that its buffer holds: `E_DEC_OK` and a
well-formed decimal with `x` as integer part, no fraction and, unless `x` is
zero, the caller's sign. -/
theorem ull2dec_fits {x : Nat} {toDec : DecimalT} (nonempty : 0 < toDec.len)
    (fits : x < digBase ^ toDec.len) :
    (ull2dec x toDec).2 = .ok ∧ (ull2dec x toDec).1.WellFormed ∧
      (ull2dec x toDec).1.intPart = x ∧ (ull2dec x toDec).1.frac = 0 ∧
      (ull2dec x toDec).1.sign = (toDec.sign && decide (0 < x)) := by
  by_cases zero : x = 0
  · subst zero
    rw [show ull2dec 0 toDec = (toDec.makeZero, .ok) from if_pos rfl]
    refine ⟨rfl, ⟨?_, nonempty, ?_, ?_, ?_⟩, ?_, rfl, by simp [DecimalT.makeZero]⟩
    · simp [DecimalT.makeZero, roundUp_def]
    · simp [DecimalT.makeZero, digBase_def]
    · simp [DecimalT.makeZero]
    · simp [DecimalT.makeZero]
    · simp [DecimalT.makeZero, DecimalT.intPart_def, roundUp_def]
  · obtain ⟨k, count, topPos, topLt, lower, upper⟩ := exists_top_word (Nat.pos_of_ne_zero zero)
    have room : k + 1 ≤ toDec.len := by
      have := (Nat.pow_lt_pow_iff_right (by decide)).mp (lt_of_le_of_lt lower fits)
      omega
    -- the top word has between one and nine digits
    generalize digitsEq : (Nat.digits 10 (x / digBase ^ k)).length = digits
    have someDigit : 0 < digits :=
      digitsEq ▸ (Nat.lt_digits_length_iff (by decide) _).mpr (by rw [pow_zero]; exact topPos)
    have nineDigits : digits ≤ 9 := digitsEq ▸ (Nat.digits_length_le_iff (by decide) _).mpr topLt
    have result : ull2dec x toDec =
        ({ toDec with frac := 0, intg := k * 9 + digits, buf := lowWords (k + 1) x }, .ok) := by
      have counted := countDigits_eq (le_refl (x / digBase ^ k)) (k * 9)
      rw [digitsEq] at counted
      simp only [ull2dec, if_neg zero, count, if_neg (Nat.not_lt.mpr room), Nat.add_sub_cancel,
        counted]
    have words : roundUp (k * 9 + digits) = k + 1 := by
      rw [roundUp_def]
      omega
    rw [result]
    dsimp only
    refine ⟨rfl, ⟨?_, ?_, lowWords_word_lt _ _, ?_, fun h => absurd h (by simp)⟩, ?_, rfl,
      by simp [Nat.pos_of_ne_zero zero]⟩
    · show (lowWords (k + 1) x).length = roundUp (k * 9 + digits) + roundUp 0
      rw [lowWords_length, words]
      rfl
    · simpa only [lowWords_length] using room
    · intro someDigits
      change 0 < (k * 9 + digits) % 9 at someDigits
      show (lowWords (k + 1) x).headD 0 < 10 ^ ((k * 9 + digits) % 9)
      have digitsMod : (k * 9 + digits) % 9 = digits := by omega
      have lt := Nat.lt_base_pow_length_digits (b := 10) (m := x / digBase ^ k) (by decide)
      rw [digitsEq] at lt
      simpa only [lowWords_headD, Nat.mod_eq_of_lt topLt, digitsMod] using lt
    · show wordsValue ((lowWords (k + 1) x).take (roundUp (k * 9 + digits))) = x
      rw [words, List.take_of_length_le (by rw [lowWords_length]),
        wordsValue_lowWords, Nat.mod_eq_of_lt upper]

/-- A buffer too short for `x` makes `ull2dec` report `E_DEC_OVERFLOW`. -/
theorem ull2dec_overflow {x : Nat} {toDec : DecimalT} (short : digBase ^ toDec.len ≤ x) :
    (ull2dec x toDec).2 = .overflow := by
  have pos : 0 < x := lt_of_lt_of_le (Nat.pow_pos (by decide)) short
  obtain ⟨k, count, -, -, -, upper⟩ := exists_top_word pos
  have tooMany : toDec.len < k + 1 :=
    (Nat.pow_lt_pow_iff_right (by decide)).mp (lt_of_le_of_lt short upper)
  simp only [ull2dec, if_neg (Nat.pos_iff_ne_zero.mp pos), count, if_pos tooMany]

/-! ## The round trips -/

/-- `longlong2decimal` stores `|x|` under the sign of `x`; `LONGLONG_MIN`
takes its own branch to the same value. -/
theorem longlong2decimal_eq {x : Int} (hx : longlongMin ≤ x) (toDec : DecimalT) :
    longlong2decimal x toDec = ull2dec x.natAbs { toDec with sign := decide (x < 0) } := by
  unfold longlong2decimal
  by_cases neg : x < 0
  · by_cases least : x = longlongMin
    · subst least
      rw [if_pos neg, if_pos rfl]
      rfl
    · rw [if_pos neg, if_neg least]
      congr 1
      omega
  · rw [if_neg neg]
    congr 1
    omega

/-- The integer part read back with the sign `ull2dec` stored is `x`. -/
theorem signedIntPart_of_natAbs {d : DecimalT} {x : Int} (intPart : d.intPart = x.natAbs)
    (sign : d.sign = (decide (x < 0) && decide (0 < x.natAbs))) : d.signedIntPart = x := by
  rw [DecimalT.signedIntPart, intPart, sign]
  by_cases neg : x < 0
  · have : 0 < x.natAbs := by omega
    simp only [neg, this, decide_true, Bool.and_self, ↓reduceIte]
    omega
  · simp only [neg, decide_false, Bool.false_and, Bool.false_eq_true, ↓reduceIte]
    omega

/-- A decimal that `ull2dec` stored has no fraction words. -/
theorem fracWords_of_frac_zero {d : DecimalT} (frac : d.frac = 0) : fracWords d = [] := by
  simp [fracWords, frac, roundUp_def]

theorem longlong2decimal_roundTrip {x : Int} (lower : longlongMin ≤ x) (upper : x ≤ longlongMax)
    {toDec : DecimalT} (room : 3 ≤ toDec.len) :
    (longlong2decimal x toDec).2 = .ok ∧ decimal2longlong (longlong2decimal x toDec).1 = (x, .ok) := by
  have fits : x.natAbs < digBase ^ ({ toDec with sign := decide (x < 0) } : DecimalT).len := by
    have small : x.natAbs < digBase ^ 3 := by
      simp only [longlongMin, longlongMax, digBase_def] at *
      omega
    exact lt_of_lt_of_le small (Nat.pow_le_pow_right (by decide) room)
  obtain ⟨ok, wf, intPart, frac, sign⟩ := ull2dec_fits (by simp only; omega) fits
  have signed := signedIntPart_of_natAbs intPart sign
  rw [longlong2decimal_eq lower]
  refine ⟨ok, ?_⟩
  rw [decimal2longlong_eq wf, signed, if_pos ⟨lower, upper⟩, fracWords_of_frac_zero frac]
  rfl

theorem ulonglong2decimal_roundTrip {x : Nat} (upper : x ≤ ulonglongMax) {toDec : DecimalT}
    (room : 3 ≤ toDec.len) :
    (ulonglong2decimal x toDec).2 = .ok ∧
      decimal2ulonglong (ulonglong2decimal x toDec).1 = (x, .ok) := by
  have fits : x < digBase ^ ({ toDec with sign := false } : DecimalT).len := by
    have small : x < digBase ^ 3 := by
      simp only [ulonglongMax, digBase_def] at *
      omega
    exact lt_of_lt_of_le small (Nat.pow_le_pow_right (by decide) room)
  obtain ⟨ok, wf, intPart, frac, sign⟩ := ull2dec_fits (by simp only; omega) fits
  refine ⟨ok, ?_⟩
  rw [ulonglong2decimal, decimal2ulonglong_eq wf (by rw [sign]; rfl), intPart, if_pos upper,
    fracWords_of_frac_zero frac]
  rfl

/-- The conversions to an integer as the value truncated toward zero:
`E_DEC_TRUNCATED` when a fraction is dropped, and the bound of the sign with
`E_DEC_OVERFLOW` past the range. -/
theorem decimal2longlong_truncate {d : DecimalT} (wf : d.WellFormed) :
    decimal2longlong d =
      if longlongMin ≤ truncate d.value ∧ truncate d.value ≤ longlongMax then
        (truncate d.value, if (truncate d.value : ℚ) = d.value then .ok else .truncated)
      else (if d.sign then longlongMin else longlongMax, .overflow) := by
  obtain ⟨trunc, integral⟩ := truncate_value wf
  have code : (if fracError (fracWords d) = .ok then DecError.ok else .truncated) =
      fracError (fracWords d) := by
    unfold fracError
    split <;> rfl
  simp only [integral, code]
  rw [decimal2longlong_eq wf, trunc]

/-- `9223372036854775808` gathers to exactly `LONGLONG_MIN` and still
overflows without a sign. -/
example : decimal2longlong ⟨19, 0, 3, false, [9, 223372036, 854775808]⟩ =
    (longlongMax, .overflow) := by decide

theorem decimal2ulonglong_truncate {d : DecimalT} (wf : d.WellFormed)
    (noNegZero : d.NoNegativeZero) (nonneg : 0 ≤ d.value) :
    decimal2ulonglong d =
      if truncate d.value ≤ ulonglongMax then
        ((truncate d.value).toNat, if (truncate d.value : ℚ) = d.value then .ok else .truncated)
      else (ulonglongMax, .overflow) := by
  have unsigned : d.sign = false := by
    cases sign : d.sign
    · rfl
    · have pos := noNegZero.magnitude_pos sign
      rw [DecimalT.value_eq, sign] at nonneg
      simp only [↓reduceIte, neg_one_mul, Left.nonneg_neg_iff] at nonneg
      exact absurd nonneg (not_le.mpr pos)
  obtain ⟨trunc, integral⟩ := truncate_value wf
  have code : (if fracError (fracWords d) = .ok then DecError.ok else .truncated) =
      fracError (fracWords d) := by
    unfold fracError
    split <;> rfl
  simp only [integral, code]
  rw [decimal2ulonglong_eq wf unsigned, trunc, DecimalT.signedIntPart, unsigned]
  simp only [Bool.false_eq_true, ↓reduceIte, Nat.cast_le, Int.toNat_natCast]

theorem decimal_integer_conversions_exact :
    (∀ d : DecimalT, d.WellFormed →
      decimal2longlong d =
        if longlongMin ≤ truncate d.value ∧ truncate d.value ≤ longlongMax then
          (truncate d.value, if (truncate d.value : ℚ) = d.value then .ok else .truncated)
        else (if d.sign then longlongMin else longlongMax, .overflow)) ∧
    (∀ d : DecimalT, d.WellFormed → d.NoNegativeZero → 0 ≤ d.value →
      decimal2ulonglong d =
        if truncate d.value ≤ ulonglongMax then
          ((truncate d.value).toNat, if (truncate d.value : ℚ) = d.value then .ok else .truncated)
        else (ulonglongMax, .overflow)) ∧
    (∀ x : Int, longlongMin ≤ x → x ≤ longlongMax → ∀ toDec : DecimalT, 3 ≤ toDec.len →
      (longlong2decimal x toDec).2 = .ok ∧
        decimal2longlong (longlong2decimal x toDec).1 = (x, .ok)) ∧
    (∀ x : Nat, x ≤ ulonglongMax → ∀ toDec : DecimalT, 3 ≤ toDec.len →
      (ulonglong2decimal x toDec).2 = .ok ∧
        decimal2ulonglong (ulonglong2decimal x toDec).1 = (x, .ok)) :=
  ⟨fun _ wf => decimal2longlong_truncate wf,
    fun _ wf noNegZero nonneg => decimal2ulonglong_truncate wf noNegZero nonneg,
    fun _ lower upper _ room => longlong2decimal_roundTrip lower upper room,
    fun _ upper _ room => ulonglong2decimal_roundTrip upper room⟩

/-- `LONGLONG_MIN` through a buffer of nine words, as the server's decimals
have. -/
theorem decimal_integer_conversions_longlong_min :
    longlongMin ≤ longlongMin ∧ longlongMin ≤ longlongMax ∧ 3 ≤ 9 ∧
      (longlong2decimal longlongMin ⟨0, 0, 9, false, []⟩).2 = .ok ∧
      decimal2longlong (longlong2decimal longlongMin ⟨0, 0, 9, false, []⟩).1 = (longlongMin, .ok) :=
  ⟨le_rfl, by decide, by decide,
    decimal_integer_conversions_exact.2.2.1 longlongMin le_rfl (by decide) ⟨0, 0, 9, false, []⟩
      (by decide)⟩

end MariaDB.Decimal
