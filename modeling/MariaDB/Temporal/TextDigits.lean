import MariaDB.Temporal.Parse
import MariaDB.Temporal.PackedDatetime
import MariaDB.Decimal.StringRoundTrip

set_option autoImplicit false

/- The texts sql-common/my_time.c prints, as digit strings: each fixed-width
field of fmt_number2, fmt_number4, fmt_usec and int10_to_str is the low digits
of its value, and the number readers of the date and TIME parsers read such a
run of digits back as the value. -/
namespace MariaDB.Temporal

open MariaDB.Decimal

/-! ## Fixed-width fields -/

theorem lowDigitChars_succ (n x : Nat) :
    lowDigitChars (n + 1) x = lowDigitChars n (x / 10) ++ [digitChar (x % 10)] := by
  have low : x - x / 10 * 10 = x % 10 := by omega
  rw [lowDigitChars, low]

theorem lowDigitChars_mod (n x : Nat) : lowDigitChars n (x % 10 ^ n) = lowDigitChars n x := by
  induction n generalizing x with
  | zero => rfl
  | succ n ih =>
    have high : x % 10 ^ (n + 1) / 10 = (x / 10) % 10 ^ n := by
      rw [pow_succ', Nat.mod_mul_right_div_self]
    have low : x % 10 ^ (n + 1) % 10 = x % 10 := by
      rw [pow_succ', Nat.mod_mul_right_mod]
    rw [lowDigitChars_succ, lowDigitChars_succ, high, low, ih]

theorem lowDigitChars_add (m n x : Nat) :
    lowDigitChars (m + n) x = lowDigitChars m (x / 10 ^ n) ++ lowDigitChars n x := by
  induction n generalizing x with
  | zero => simp [lowDigitChars]
  | succ n ih =>
    rw [← Nat.add_assoc, lowDigitChars_succ, ih, lowDigitChars_succ, Nat.div_div_eq_div_mul,
      ← pow_succ', List.append_assoc]

theorem lowDigitChars_one (x : Nat) : lowDigitChars 1 x = [digitChar (x % 10)] := by
  rw [lowDigitChars_succ]
  rfl

theorem fmtNumber2_eq {v : Nat} (h : v < 100) : fmtNumber2 v = lowDigitChars 2 v := by
  have tens : v / 10 % 10 = v / 10 := Nat.mod_eq_of_lt (by omega)
  rw [fmtNumber2, Nat.mod_eq_of_lt (by omega), twoDigitNumbers, if_pos h,
    lowDigitChars_succ, lowDigitChars_one, tens]
  rfl

theorem fmtNumber4_eq {v : Nat} (h : v < 10000) : fmtNumber4 v = lowDigitChars 4 v := by
  have high := fmtNumber2_eq (show v / 100 < 100 by omega)
  have low := fmtNumber2_eq (show v % 100 < 100 by omega)
  rw [fmtNumber4, Nat.mod_eq_of_lt (by omega : v < 65536), high, low,
    show 4 = 2 + 2 from rfl, lowDigitChars_add, show (100 : Nat) = 10 ^ 2 from rfl,
    lowDigitChars_mod]

theorem fmtNumber6_eq {v : Nat} (h : v < 1000000) : fmtNumber6 v = lowDigitChars 6 v := by
  have top := fmtNumber2_eq (show v / 10000 < 100 by omega)
  have mid := fmtNumber2_eq (show v % 10000 / 100 < 100 by omega)
  have low := fmtNumber2_eq (show v % 10000 % 100 < 100 by omega)
  rw [fmtNumber6, top, mid, low, show (100 : Nat) = 10 ^ 2 from rfl, lowDigitChars_mod,
    List.append_assoc, ← lowDigitChars_add, show (10000 : Nat) = 10 ^ 4 from rfl,
    lowDigitChars_mod, ← lowDigitChars_add]

theorem fmtUsec_eq {v d : Nat} (pos : 0 < d) (le : d ≤ 6) (h : v < 10 ^ d) :
    fmtUsec v d = lowDigitChars d v := by
  match d, pos, le with
  | 1, _, _ => rw [fmtUsec, lowDigitChars_one]
  | 2, _, _ => rw [fmtUsec, fmtNumber2_eq h]
  | 3, _, _ =>
    rw [fmtUsec, fmtNumber2_eq (by omega), show 3 = 1 + 2 from rfl, lowDigitChars_add,
      lowDigitChars_one, show (100 : Nat) = 10 ^ 2 from rfl, lowDigitChars_mod]
    rfl
  | 4, _, _ => rw [fmtUsec, fmtNumber4_eq h]
  | 5, _, _ =>
    rw [fmtUsec, fmtNumber4_eq (by omega), show 5 = 1 + 4 from rfl, lowDigitChars_add,
      lowDigitChars_one, show (10000 : Nat) = 10 ^ 4 from rfl, lowDigitChars_mod]
    rfl
  | 6, _, _ => rw [fmtUsec, fmtNumber6_eq h]

theorem int10ToStr_eq {v : Nat} (lo : 100 ≤ v) (hi : v < 1000) : int10ToStr v = lowDigitChars 3 v := by
  obtain ⟨k, rfl⟩ : ∃ k, v = k + 2 := ⟨v - 2, by omega⟩
  have d1 : (k + 2) / 10 ≠ 0 := by omega
  have d2 : (k + 2) / (10 * 10) ≠ 0 := by omega
  have d3 : (k + 2) / (10 * 10 * 10) = 0 := by omega
  rw [show (3 : Nat) = 1 + 1 + 1 from rfl, lowDigitChars_succ, lowDigitChars_succ, lowDigitChars_one,
    Nat.div_div_eq_div_mul]
  simp only [int10ToStr, int10Digits, d1, d2, d3, if_false, if_true, List.reverse_cons,
    List.reverse_nil, List.nil_append, Nat.div_div_eq_div_mul]

/-! ## Reading digits back -/

theorem le_horner (x : Nat) (cs : List UInt8) : x ≤ horner x cs := by
  induction cs generalizing x with
  | nil => rfl
  | cons c cs ih => exact Nat.le_trans (by omega) (ih (digitValue c + x * 10))

theorem horner_eq (x : Nat) (cs : List UInt8) :
    horner x cs = x * 10 ^ cs.length + lowValue cs.reverse := by
  induction cs generalizing x with
  | nil => simp
  | cons c cs ih =>
    have single : lowValue [c] = digitValue c := by simp [lowValue]
    rw [horner_cons, ih, List.reverse_cons, lowValue_append, single, List.length_reverse,
      List.length_cons, pow_succ]
    ring

theorem horner_lowDigitChars (n x : Nat) : horner 0 (lowDigitChars n x) = x % 10 ^ n := by
  rw [horner_eq, lowValue_lowDigitChars, Nat.zero_mul, Nat.zero_add]

/-- A `%`-bounded loop over digits agrees with the exact one while the value
stays below the bound. -/
theorem foldl_mod_eq_horner (m x : Nat) (cs : List UInt8) (h : horner x cs < m) :
    cs.foldl (fun v c => (v * 10 + digitValue c) % m) x = horner x cs := by
  induction cs generalizing x with
  | nil => rfl
  | cons c cs ih =>
    rw [horner_cons] at h
    have step : x * 10 + digitValue c < m := by
      have := le_horner (digitValue c + x * 10) cs
      omega
    rw [List.foldl_cons, Nat.mod_eq_of_lt step, Nat.add_comm, ih _ h, horner_cons]

theorem takeWhile_digits_append {cs : List UInt8} (rest : List UInt8)
    (digits : ∀ c ∈ cs, latin1IsDigit c = true) (stop : latin1IsDigit (rest.headD 0) = false) :
    (cs ++ rest).takeWhile latin1IsDigit = cs := by
  induction cs with
  | nil =>
    cases rest with
    | nil => rfl
    | cons r rs => simp_all
  | cons c cs ih =>
    rw [List.cons_append, List.takeWhile_cons_of_pos (digits c List.mem_cons_self),
      ih fun d mem => digits d (List.mem_cons_of_mem c mem)]

theorem lowDigitChars_value_lt (n x : Nat) : horner 0 (lowDigitChars n x) < 10 ^ n := by
  rw [horner_lowDigitChars]
  exact Nat.mod_lt _ (by positivity)

theorem getNumberAt_digits {cs : List UInt8} (rest : List UInt8) (ne : cs ≠ [])
    (digits : ∀ c ∈ cs, latin1IsDigit c = true) (stop : latin1IsDigit (rest.headD 0) = false) :
    getNumberAt (cs ++ rest) = some (some (uintDigitsValue cs), rest) := by
  obtain ⟨c, cs', rfl⟩ := List.exists_cons_of_ne_nil ne
  have take := takeWhile_digits_append rest digits stop
  rw [List.cons_append] at take ⊢
  rw [getNumberAt, if_pos (digits c List.mem_cons_self), take]
  exact congrArg (fun rest => some (some (uintDigitsValue (c :: cs')), rest)) List.drop_left

theorem uintDigitsValue_lowDigitChars {n : Nat} (x : Nat) (le : n ≤ 9) :
    uintDigitsValue (lowDigitChars n x) = x % 10 ^ n := by
  have small : horner 0 (lowDigitChars n x) < 2 ^ 32 :=
    Nat.lt_of_lt_of_le (lowDigitChars_value_lt n x)
      (Nat.le_trans (Nat.pow_le_pow_right (by norm_num) le) (by norm_num))
  rw [uintDigitsValue, foldl_mod_eq_horner _ _ _ small, horner_lowDigitChars]

theorem getNumberAt_lowDigitChars {n : Nat} (x : Nat) (rest : List UInt8) (pos : 0 < n) (le : n ≤ 9)
    (stop : latin1IsDigit (rest.headD 0) = false) :
    getNumberAt (lowDigitChars n x ++ rest) = some (some (x % 10 ^ n), rest) := by
  rw [getNumberAt_digits rest (lowDigitChars_ne_nil x pos) (lowDigitChars_digits n x) stop,
    uintDigitsValue_lowDigitChars x le]

theorem getDigitsAt_lowDigitChars {n : Nat} (x : Nat) (pos : 0 < n) (le : n ≤ 6) :
    getDigitsAt (lowDigitChars n x) 6 = some (some (x % 10 ^ n), []) := by
  have whole : (lowDigitChars n x).take 6 = lowDigitChars n x ++ [] := by
    rw [List.append_nil, List.take_of_length_le (by rw [length_lowDigitChars]; exact le)]
  have none : (lowDigitChars n x).drop 6 = [] :=
    List.drop_of_length_le (by rw [length_lowDigitChars]; exact le)
  rw [getDigitsAt, whole, getNumberAt_lowDigitChars x [] pos (by omega) rfl, none]
  rfl

theorem getMicroseconds_lowDigitChars (status : MysqlTimeStatus) (k : Nat) {n : Nat} (x : Nat)
    (pos : 0 < n) (le : n ≤ 6) :
    getMicroseconds status k (lowDigitChars n x) =
      (x % 10 ^ n * 10 ^ (6 - n), { status with precision := n }, k + 1, []) := by
  have scale : (if n < 6 then x % 10 ^ n * log10Int (6 - n) else x % 10 ^ n) =
      x % 10 ^ n * 10 ^ (6 - n) := by
    by_cases short : n < 6
    · rw [if_pos short, log10Int]
    · rw [if_neg short, show 6 - n = 0 by omega, pow_zero, Nat.mul_one]
  simp only [getMicroseconds, getDigitsAt_lowDigitChars x pos le, length_lowDigitChars,
    List.length_nil, Nat.sub_zero, scale, skipDigits, List.takeWhile_nil, List.length_nil]
  rfl

/-- The microseconds of `digits` digits read back from the digits printed. -/
theorem secondPart_of_dvd {secondPart digits : Nat} (lt : secondPart < 10 ^ 6)
    (dvd : 10 ^ (6 - digits) ∣ secondPart) (le : digits ≤ 6) :
    secondPart / 10 ^ (6 - digits) % 10 ^ digits * 10 ^ (6 - digits) = secondPart := by
  have fits : secondPart / 10 ^ (6 - digits) < 10 ^ digits :=
    Nat.div_lt_of_lt_mul (by rw [← pow_add, show 6 - digits + digits = 6 by omega]; exact lt)
  rw [Nat.mod_eq_of_lt fits, Nat.div_mul_cancel dvd]

theorem ddDaysValue_append (x : Nat) {cs : List UInt8} (rest : List UInt8)
    (digits : ∀ c ∈ cs, latin1IsDigit c = true) (small : horner x cs < 42949672955959)
    (stop : latin1IsDigit (rest.headD 0) = false) :
    ddDaysValue (cs ++ rest) x = (some (horner x cs), rest) := by
  induction cs generalizing x with
  | nil =>
    cases rest with
    | nil => rfl
    | cons r rs =>
      have stop : latin1IsDigit r = false := stop
      simp [ddDaysValue, stop]
  | cons c cs ih =>
    rw [horner_cons] at small
    have step : ¬ x * 10 + digitValue c ≥ 42949672955959 := by
      have := le_horner (digitValue c + x * 10) cs
      omega
    rw [List.cons_append, ddDaysValue, if_pos (digits c List.mem_cons_self), if_neg step,
      Nat.add_comm, ih _ (fun d mem => digits d (List.mem_cons_of_mem c mem)) small, horner_cons]

theorem ulonglongDigits_lowDigitChars {n : Nat} (x : Nat) (rest : List UInt8) (le : n ≤ 19)
    (stop : latin1IsDigit (rest.headD 0) = false) :
    ulonglongDigits (lowDigitChars n x ++ rest) = (x % 10 ^ n, rest) := by
  have small : horner 0 (lowDigitChars n x) < 2 ^ 64 :=
    Nat.lt_of_lt_of_le (lowDigitChars_value_lt n x)
      (Nat.le_trans (Nat.pow_le_pow_right (by norm_num) le) (by norm_num))
  rw [ulonglongDigits, takeWhile_digits_append rest (lowDigitChars_digits n x) stop,
    foldl_mod_eq_horner _ _ _ small, horner_lowDigitChars, List.drop_left]

/-! ## The texts -/

theorem headD_lowDigitChars {n : Nat} (x : Nat) (rest : List UInt8) (pos : 0 < n) :
    latin1IsDigit ((lowDigitChars n x ++ rest).headD 0) = true := by
  obtain ⟨m, rfl⟩ : ∃ m, n = m + 1 := ⟨n - 1, by omega⟩
  obtain ⟨cs, h⟩ := lowDigitChars_succ_eq_cons m x
  rw [h, List.cons_append, List.headD_cons]
  exact latin1IsDigit_digitChar (Nat.mod_lt _ (by norm_num))

/-- The fraction `my_mmssff_to_str` prints after the seconds. -/
def fracText (secondPart digits : Nat) : List UInt8 :=
  if digits ≠ 0 then '.'.toUInt8 :: lowDigitChars digits (secondPart / 10 ^ (6 - digits)) else []

/-- Hours in `hourDigits` digits, then minutes, seconds and fraction. -/
def hmsText (hourDigits hour : Nat) (t : MysqlTime) (digits : Nat) : List UInt8 :=
  lowDigitChars hourDigits hour ++ ':'.toUInt8 :: (lowDigitChars 2 t.minute ++ ':'.toUInt8 ::
    (lowDigitChars 2 t.second ++ fracText t.secondPart digits))

/-- The text of a DATE. -/
def dateText (t : MysqlTime) : List UInt8 :=
  lowDigitChars 4 t.year ++ '-'.toUInt8 :: (lowDigitChars 2 t.month ++ '-'.toUInt8 ::
    lowDigitChars 2 t.day)

/-- The text of a DATETIME. -/
def datetimeText (t : MysqlTime) (digits : Nat) : List UInt8 :=
  lowDigitChars 4 t.year ++ '-'.toUInt8 :: (lowDigitChars 2 t.month ++ '-'.toUInt8 ::
    (lowDigitChars 2 t.day ++ ' '.toUInt8 :: hmsText 2 t.hour t digits))

theorem myMmssffToStr_eq (t : MysqlTime) {digits : Nat} (le : digits ≤ 6) (minute : t.minute < 100)
    (second : t.second < 100) (sp : t.secondPart < 10 ^ 6) :
    myMmssffToStr t digits =
      lowDigitChars 2 t.minute ++ ':'.toUInt8 :: (lowDigitChars 2 t.second ++ fracText t.secondPart digits) := by
  have notAuto : digits ≠ autoSecPartDigits := by unfold autoSecPartDigits; omega
  have fits : t.secondPart / 10 ^ (6 - digits) < 10 ^ digits :=
    Nat.div_lt_of_lt_mul (by rw [← pow_add, show 6 - digits + digits = 6 by omega]; exact sp)
  have shifted : secPartShift t.secondPart digits % 2 ^ 32 = t.secondPart / 10 ^ (6 - digits) := by
    rw [secPartShift, log10Int, timeSecondPartDigits]
    exact Nat.mod_eq_of_lt (Nat.lt_of_lt_of_le fits
      (Nat.le_trans (Nat.pow_le_pow_right (by norm_num) le) (by norm_num)))
  rw [myMmssffToStr, if_neg notAuto, fmtNumber2_eq minute, fmtNumber2_eq second, fracText]
  by_cases zero : digits = 0
  · simp [zero]
  · rw [if_pos zero, if_pos zero, shifted, fmtUsec_eq (Nat.pos_of_ne_zero zero) le fits]
    simp only [List.append_assoc, List.cons_append]

theorem myDatetimeToStr_eq {t : MysqlTime} {digits : Nat} (valid : t.ValidDatetime digits) :
    myDatetimeToStr t digits = datetimeText t digits := by
  have le := valid.dec_le
  have sp := valid.secondPart_lt
  have := valid.year_le
  have := valid.month_le
  have := valid.day_le
  have := valid.hour_le
  have := valid.minute_le
  have := valid.second_le
  simp only [timeSecondPartDigits] at le sp
  rw [myDatetimeToStr, myMmssffToStr_eq t le (by omega) (by omega) sp, fmtNumber4_eq (by omega),
    fmtNumber2_eq (by omega), fmtNumber2_eq (by omega), fmtNumber2_eq (by omega), datetimeText,
    hmsText]
  simp only [List.append_assoc, List.cons_append]

theorem myDateToStr_eq (t : MysqlTime) (year : t.year ≤ 9999) (month : t.month ≤ 12) (day : t.day ≤ 31) :
    myDateToStr t = dateText t := by
  rw [myDateToStr, fmtNumber4_eq (by omega), fmtNumber2_eq (by omega), fmtNumber2_eq (by omega),
    dateText]
  simp only [List.append_assoc, List.cons_append]

/-- The digits `my_time_to_str` gives the hours: two, or as many as they need. -/
def hourWidth (hour : Nat) : Nat := if hour > 99 then 3 else 2

theorem myTimeToStr_eq {t : MysqlTime} {digits : Nat} (valid : t.ValidTime digits) (year : t.year = 0)
    (month : t.month = 0) :
    myTimeToStr t digits = (if t.neg then ['-'.toUInt8] else []) ++
      hmsText (hourWidth (t.day * 24 + t.hour)) (t.day * 24 + t.hour) t digits := by
  have hour := valid.hour_le
  have le := valid.dec_le
  have sp := valid.secondPart_lt
  simp only [timeMaxHour, timeSecondPartDigits] at hour le sp
  have mmss := myMmssffToStr_eq t le (by have := valid.minute_lt; omega)
    (by have := valid.second_lt; omega) sp
  have noDays : ¬ (t.year ≠ 0 ∨ t.month ≠ 0) := by simp [year, month]
  have width : (if t.day * 24 + t.hour > 99 then int10ToStr (t.day * 24 + t.hour)
      else fmtNumber2 (t.day * 24 + t.hour)) =
      lowDigitChars (hourWidth (t.day * 24 + t.hour)) (t.day * 24 + t.hour) := by
    unfold hourWidth
    split
    · exact int10ToStr_eq (by omega) (by omega)
    · exact fmtNumber2_eq (by omega)
  rw [myTimeToStr, if_neg noDays, Nat.mod_eq_of_lt (by omega), width, mmss, hmsText,
    List.append_assoc]

theorem hourWidth_spec {hour : Nat} (le : hour ≤ timeMaxHour) :
    0 < hourWidth hour ∧ hourWidth hour ≤ 3 ∧ hour < 10 ^ hourWidth hour := by
  unfold hourWidth timeMaxHour at *
  split <;> simp <;> omega

end MariaDB.Temporal
