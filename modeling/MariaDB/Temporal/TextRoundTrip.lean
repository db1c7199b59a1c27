import MariaDB.Temporal.TextDigits

set_option autoImplicit false

/- Printing and reading back: the texts my_datetime_to_str, my_date_to_str and
my_time_to_str print are read by str_to_datetime_or_date and
str_to_datetime_or_date_or_time as the values printed, with no warning. A TIME
with a fraction is long enough to be tried as a date first: the date reader
has to give it up at the point, and the TIME reader then reads it. -/
namespace MariaDB.Temporal

open MariaDB.Decimal

/-! ## Separators -/

@[simp] theorem latin1IsDigit_minus : latin1IsDigit '-'.toUInt8 = false := by decide

@[simp] theorem latin1IsDigit_colon : latin1IsDigit ':'.toUInt8 = false := by decide

@[simp] theorem latin1IsDigit_blank : latin1IsDigit ' '.toUInt8 = false := by decide

@[simp] theorem latin1IsDigit_point : latin1IsDigit '.'.toUInt8 = false := by decide

@[simp] theorem latin1IsPunct_minus : latin1IsPunct '-'.toUInt8 = true := by decide

@[simp] theorem latin1IsPunct_colon : latin1IsPunct ':'.toUInt8 = true := by decide

@[simp] theorem latin1IsPunct_point : latin1IsPunct '.'.toUInt8 = true := by decide

@[simp] theorem latin1IsPunct_blank : latin1IsPunct ' '.toUInt8 = false := by decide

@[simp] theorem latin1IsSpace_blank : latin1IsSpace ' '.toUInt8 = true := by decide

@[simp] theorem separators_ne_T :
    ' '.toUInt8 ≠ 'T'.toUInt8 ∧ '.'.toUInt8 ≠ 'T'.toUInt8 ∧ '-'.toUInt8 ≠ 'T'.toUInt8 ∧
      ':'.toUInt8 ≠ 'T'.toUInt8 := by
  decide

theorem fracText_stop (secondPart digits : Nat) :
    latin1IsDigit ((fracText secondPart digits).headD 0) = false := by
  unfold fracText
  split
  · simp
  · decide

theorem dropWhile_space_lowDigitChars {n : Nat} (x : Nat) (rest : List UInt8) (pos : 0 < n) :
    (lowDigitChars n x ++ rest).dropWhile latin1IsSpace = lowDigitChars n x ++ rest := by
  obtain ⟨m, rfl⟩ : ∃ m, n = m + 1 := ⟨n - 1, by omega⟩
  obtain ⟨cs, h⟩ := lowDigitChars_succ_eq_cons m x
  rw [h, List.cons_append, List.dropWhile_cons_of_neg]
  rw [latin1IsSpace_of_digit (latin1IsDigit_digitChar (Nat.mod_lt _ (by norm_num)))]
  simp

theorem dateBodyDelimited_datetimeText (t : MysqlTime) (digits : Nat) (b : Bool)
    (year : t.year < 10000) (month : t.month < 100) (day : t.day < 100)
    (hour : t.hour < 100) (minute : t.minute < 100) (second : t.second < 100) :
    dateBodyDelimited b ⟨setZeroTime .date, 0, datetimeText t digits⟩ =
      (false, ⟨⟨t.year, t.month, t.day, t.hour, t.minute, t.second, 0, false, .date⟩, 6,
        fracText t.secondPart digits⟩, 4) := by
  have sec := @getNumberAt_lowDigitChars 2 t.second (fracText t.secondPart digits) (by decide)
    (by decide) (fracText_stop t.secondPart digits)
  simp [dateBodyDelimited, datetimeText, hmsText, getNumber, getPunct, getDateTimeSeparator,
    scanFields, getNumberAt_lowDigitChars, sec, dropWhile_space_lowDigitChars,
    Nat.mod_eq_of_lt, year, month, day, hour, minute, second, MysqlTime.setField, setZeroTime]

/-! ## `find_body` on a printed value -/

/-- A text whose last character is a digit: `get_suffix` keeps all of it. -/
def EndsInDigit (str : List UInt8) : Prop := ∃ d, str.getLast? = some d ∧ latin1IsDigit d = true

theorem EndsInDigit.ne_nil {str : List UInt8} (h : EndsInDigit str) : str ≠ [] := by
  rintro rfl
  obtain ⟨d, last, _⟩ := h
  simp at last

theorem EndsInDigit.append (A : List UInt8) {B : List UInt8} (h : EndsInDigit B) :
    EndsInDigit (A ++ B) := by
  obtain ⟨d, last, digit⟩ := h
  exact ⟨d, by rw [List.getLast?_append_of_ne_nil _ (EndsInDigit.ne_nil ⟨d, last, digit⟩), last], digit⟩

theorem EndsInDigit.cons (c : UInt8) {B : List UInt8} (h : EndsInDigit B) : EndsInDigit (c :: B) := by
  have := h.append [c]
  rwa [List.singleton_append] at this

theorem endsInDigit_lowDigitChars {n : Nat} (x : Nat) (pos : 0 < n) : EndsInDigit (lowDigitChars n x) := by
  obtain ⟨m, rfl⟩ : ∃ m, n = m + 1 := ⟨n - 1, by omega⟩
  exact ⟨digitChar (x % 10), by rw [lowDigitChars_succ, List.getLast?_concat],
    latin1IsDigit_digitChar (Nat.mod_lt _ (by norm_num))⟩

theorem endsInDigit_seconds (second secondPart digits : Nat) :
    EndsInDigit (lowDigitChars 2 second ++ fracText secondPart digits) := by
  unfold fracText
  split
  · exact ((endsInDigit_lowDigitChars _ (Nat.pos_of_ne_zero ‹_›)).cons _).append _
  · rw [List.append_nil]
    exact endsInDigit_lowDigitChars _ (by decide)

theorem endsInDigit_hmsText (k hour : Nat) (t : MysqlTime) (digits : Nat) :
    EndsInDigit (hmsText k hour t digits) :=
  ((((endsInDigit_seconds _ _ _).cons _).append _).cons _).append _

theorem getSuffix_of_endsInDigit {str : List UInt8} (h : EndsInDigit str) :
    getSuffix str = (false, str) := by
  obtain ⟨d, last, digit⟩ := h
  have split : str = str.dropLast ++ [d] := (List.dropLast_append_getLast? d last).symm
  rw [getSuffix, split, List.reverse_append, List.reverse_singleton, List.singleton_append,
    getSuffixRev, if_pos (Or.inl digit)]
  simp

theorem findBody_digits (neg : Bool) {body : List UInt8}
    (first : latin1IsDigit (body.headD 0) = true) (last : EndsInDigit body) :
    findBody ((if neg then ['-'.toUInt8] else []) ++ body) = (false, neg, 0, body) := by
  obtain ⟨c, cs, rfl⟩ := List.exists_cons_of_ne_nil last.ne_nil
  have first : latin1IsDigit c = true := first
  have sign := ne_sign_of_digit first
  have notSpace := latin1IsSpace_of_digit first
  have suffix := getSuffix_of_endsInDigit last
  cases neg with
  | false => simp [findBody, notSpace, sign.1, sign.2, suffix, first]
  | true =>
    have minus : latin1IsSpace '-'.toUInt8 = false := by decide
    simp [findBody, minus, notSpace, suffix, first]

/-! ## DATE and DATETIME -/

/-- A day of `check_date`'s calendar: a month of the year and a day in it,
February 29 only in the years `calc_days_in_year` makes 366 days long. -/
structure MysqlTime.ValidDay (t : MysqlTime) : Prop where
  month_pos : 0 < t.month
  month_le : t.month ≤ 12
  day_pos : 0 < t.day
  day_le : t.day ≤ daysInMonth.getD (t.month - 1) 0 ∨
    (t.month = 2 ∧ calcDaysInYear t.year = 366 ∧ t.day = 29)

theorem checkDate_of_validDay {t : MysqlTime} (valid : t.ValidDay) (notTime : t.timeType ≠ .time)
    (notNeg : t.neg = false) (flags wasCut : Nat) : checkDate t true flags wasCut = (false, wasCut) := by
  have inDate : ¬ (flags &&& cTimeNoZeroInDate ≠ 0 ∧ (t.month = 0 ∨ t.day = 0)) := by
    have := valid.month_pos
    have := valid.day_pos
    omega
  have inMonth : ¬ (flags &&& cTimeInvalidDates = 0 ∧ t.month ≠ 0 ∧
      t.day > daysInMonth.getD (t.month - 1) 0 ∧
      (t.month ≠ 2 ∨ calcDaysInYear t.year ≠ 366 ∨ t.day ≠ 29)) := by
    rcases valid.day_le with le | ⟨feb, leap, last⟩
    · omega
    · omega
  have notNeg : ¬ t.neg = true := by simp [notNeg]
  rw [checkDate, if_neg notTime, if_pos rfl, if_neg (not_or.mpr ⟨inDate, not_or.mpr ⟨notNeg, inMonth⟩⟩)]

theorem dateBodyDigits_of_separator {n : Nat} (x : Nat) (rest : List UInt8) (c : UInt8)
    (notT : c ≠ 'T'.toUInt8) (notPoint : c ≠ '.'.toUInt8) (notDigit : latin1IsDigit c = false) :
    dateBodyDigits (lowDigitChars n x ++ c :: rest) = (n, false) := by
  have skip : skipDigits (lowDigitChars n x ++ c :: rest) = n := by
    rw [skipDigits, takeWhile_digits_append (c :: rest) (lowDigitChars_digits n x) notDigit,
      length_lowDigitChars]
  have drop : (lowDigitChars n x ++ c :: rest).drop n = c :: rest :=
    (congrArg (fun k => (lowDigitChars n x ++ c :: rest).drop k) (length_lowDigitChars n x)).symm.trans
      List.drop_left
  simp [dateBodyDigits, skip, drop, notT, notPoint]

theorem MysqlTime.ValidDatetime.secondPart_eq {t : MysqlTime} {digits : Nat}
    (valid : t.ValidDatetime digits) :
    t.secondPart / 10 ^ (6 - digits) % 10 ^ digits * 10 ^ (6 - digits) = t.secondPart :=
  secondPart_of_dvd valid.secondPart_lt valid.secondPart_dvd valid.dec_le

theorem dateBodyFinish_datetime (flags w : Nat) {t : MysqlTime} {digits : Nat}
    (valid : t.ValidDatetime digits) (day : t.ValidDay) {k : Nat} (fields : 3 < k) :
    dateBodyFinish flags false ⟨w, 0, 0⟩
        ⟨⟨t.year, t.month, t.day, t.hour, t.minute, t.second, 0, false, .date⟩, k,
          fracText t.secondPart digits⟩ 4 =
      ⟨false, t, ⟨w, digits, 0⟩, if digits ≠ 0 then k + 1 else k, []⟩ := by
  have dateOk (secondPart : Nat) := @checkDate_of_validDay
    ⟨t.year, t.month, t.day, t.hour, t.minute, t.second, secondPart, false, .date⟩
    ⟨day.month_pos, day.month_le, day.day_pos, day.day_le⟩ (by simp) rfl flags w
  have sp := valid.secondPart_eq
  have range : ¬ (9999 < t.year ∨ 12 < t.month ∨ 31 < t.day ∨ 23 < t.hour ∨ 59 < t.minute ∨
      59 < t.second) := by
    have := valid.year_le
    have := valid.month_le
    have := valid.day_le
    have := valid.hour_le
    have := valid.minute_le
    have := valid.second_le
    omega
  have notDate : ¬ k ≤ 3 := by omega
  have month := day.month_pos
  obtain ⟨year, month, day, hour, minute, second, secondPart, neg, timeType⟩ := t
  obtain rfl : neg = false := valid.not_neg
  obtain rfl : timeType = .datetime := valid.timeType_eq
  dsimp only at dateOk sp range month
  by_cases zero : digits = 0
  · subst zero
    simp only [Nat.sub_zero, pow_zero, Nat.mod_one, Nat.zero_mul] at sp
    subst sp
    simp [dateBodyFinish, fracText, MysqlTime.notZeroDate, month.ne', dateOk, range, notDate]
  · have micro := getMicroseconds_lowDigitChars ⟨w, 0, 0⟩ k (secondPart / 10 ^ (6 - digits))
      (Nat.pos_of_ne_zero zero) valid.dec_le
    simp [dateBodyFinish, fracText, zero, micro, sp, MysqlTime.notZeroDate, month.ne', dateOk,
      range, Nat.le_of_lt fields]

theorem endsInDigit_datetimeText (t : MysqlTime) (digits : Nat) :
    EndsInDigit (datetimeText t digits) :=
  (((((endsInDigit_hmsText _ _ _ _).cons _).append _).cons _).append _).cons _ |>.append _

theorem strToDatetimeOrDate_myDatetimeToStr {t : MysqlTime} {digits : Nat}
    (valid : t.ValidDatetime digits) (day : t.ValidDay) (flags : Nat) :
    strToDatetimeOrDate (myDatetimeToStr t digits) flags = (false, t, ⟨0, digits, 0⟩) := by
  have body : findBody (datetimeText t digits) = (false, false, 0, datetimeText t digits) :=
    findBody_digits false (@headD_lowDigitChars 4 t.year _ (by decide)) (endsInDigit_datetimeText t digits)
  have count : dateBodyDigits (datetimeText t digits) = (4, false) :=
    dateBodyDigits_of_separator _ _ _ (by decide) (by decide) (by decide)
  have scan := dateBodyDelimited_datetimeText t digits true (by have := valid.year_le; omega)
    (by have := valid.month_le; omega) (by have := valid.day_le; omega)
    (by have := valid.hour_le; omega) (by have := valid.minute_le; omega)
    (by have := valid.second_le; omega)
  have finish := dateBodyFinish_datetime flags 0 valid day (show 3 < 6 by decide)
  rw [myDatetimeToStr_eq valid, strToDatetimeOrDate, body]
  have notNeg := valid.not_neg
  simp [strToDatetimeOrDateBody, myTimeStatusInit, count, scan, finish, setNeg]
  cases t
  simp_all

/-- A DATE: a valid day of a year up to 9999, with no time of day. -/
structure MysqlTime.ValidDate (t : MysqlTime) : Prop where
  year_le : t.year ≤ 9999
  validDay : t.ValidDay
  hour_eq : t.hour = 0
  minute_eq : t.minute = 0
  second_eq : t.second = 0
  secondPart_eq : t.secondPart = 0
  not_neg : t.neg = false
  timeType_eq : t.timeType = .date

@[simp] theorem getNumberAt_nil : getNumberAt [] = some (none, []) := rfl

theorem dateBodyDelimited_dateText (t : MysqlTime) (b : Bool) (year : t.year < 10000)
    (month : t.month < 100) (day : t.day < 100) :
    dateBodyDelimited b ⟨setZeroTime .date, 0, dateText t⟩ =
      (false, ⟨⟨t.year, t.month, t.day, 0, 0, 0, 0, false, .date⟩, 3, []⟩, 4) := by
  have last := @getNumberAt_lowDigitChars 2 t.day [] (by decide) (by decide) (by decide)
  rw [List.append_nil] at last
  simp [dateBodyDelimited, dateText, getNumber, getPunct, getDateTimeSeparator, scanFields,
    getNumberAt_lowDigitChars, last, Nat.mod_eq_of_lt, year, month, day, MysqlTime.setField,
    setZeroTime, getNumberAt_nil]

theorem endsInDigit_dateText (t : MysqlTime) : EndsInDigit (dateText t) :=
  ((((@endsInDigit_lowDigitChars 2 _ (by decide)).cons _).append _).cons _).append _

theorem strToDatetimeOrDate_myDateToStr {t : MysqlTime} (valid : t.ValidDate) (flags : Nat) :
    strToDatetimeOrDate (myDateToStr t) flags = (false, t, ⟨0, 0, 0⟩) := by
  have day := valid.validDay
  have year := valid.year_le
  have month := day.month_le
  have dayLe : t.day ≤ 31 := by
    rcases day.day_le with le | ⟨_, _, h⟩
    · have := day.month_pos
      have lookup : ∀ m < 13, daysInMonth.getD (m - 1) 0 ≤ 31 := by decide
      exact Nat.le_trans le (lookup _ (by omega))
    · omega
  have body : findBody (dateText t) = (false, false, 0, dateText t) :=
    findBody_digits false (@headD_lowDigitChars 4 t.year _ (by decide)) (endsInDigit_dateText t)
  have count : dateBodyDigits (dateText t) = (4, false) :=
    dateBodyDigits_of_separator _ _ _ (by decide) (by decide) (by decide)
  have scan := dateBodyDelimited_dateText t true (by omega) (by omega) (by omega)
  have dateOk := @checkDate_of_validDay ⟨t.year, t.month, t.day, 0, 0, 0, 0, false, .date⟩
    ⟨day.month_pos, day.month_le, day.day_pos, day.day_le⟩ (by simp) rfl flags 0
  have range : ¬ (9999 < t.year ∨ 12 < t.month ∨ 31 < t.day) := by omega
  rw [myDateToStr_eq t year month dayLe, strToDatetimeOrDate, body]
  simp [strToDatetimeOrDateBody, myTimeStatusInit, count, scan, dateBodyFinish,
    MysqlTime.notZeroDate, day.month_pos.ne', dateOk, range, setNeg]
  obtain ⟨⟩ := valid
  cases t
  simp_all

/-! ## TIME -/

theorem hmsText_no_separator (k hour : Nat) (t : MysqlTime) (digits : Nat) :
    ∀ c ∈ hmsText k hour t digits, c ≠ 'T'.toUInt8 ∧ c ≠ ' '.toUInt8 := by
  have low (n x : Nat) (c : UInt8) (mem : c ∈ lowDigitChars n x) :
      c ≠ 'T'.toUInt8 ∧ c ≠ ' '.toUInt8 := by
    have digit := lowDigitChars_digits n x c mem
    constructor <;> rintro rfl <;> revert digit <;> decide
  intro c mem
  unfold hmsText fracText at mem
  split at mem
  · simp only [List.mem_append, List.mem_cons] at mem
    rcases mem with m | rfl | m | rfl | m | rfl | m <;> first | exact low _ _ _ m | decide
  · simp only [List.mem_append, List.mem_cons, List.not_mem_nil, or_false] at mem
    rcases mem with m | rfl | m | rfl | m <;> first | exact low _ _ _ m | decide

theorem candidateScan_time (cs : List UInt8) (n : Nat)
    (plain : ∀ c ∈ cs, c ≠ 'T'.toUInt8 ∧ c ≠ ' '.toUInt8) : candidateScan false false cs n = false := by
  induction cs generalizing n with
  | nil => rfl
  | cons c cs ih =>
    have head := plain c List.mem_cons_self
    have tail (m : Nat) := ih m fun d mem => plain d (List.mem_cons_of_mem c mem)
    rw [candidateScan, if_neg head.1, if_neg head.2]
    split
    · simp only [Bool.false_eq_true, false_and, if_false]
      exact tail (n + 1)
    · exact tail n

/-- The date reader takes the hours, minutes and seconds of a TIME with a
fraction for a year, a month and a day, and stops hard at the point, where a
DATETIME may not have punctuation; the text may still be a TIME. -/
theorem datetimeOrTime_timeText {k hour : Nat} {t : MysqlTime} {digits : Nat} (fuzzydate : Nat)
    (status : MysqlTimeStatus) (pos : 0 < k) (le : k ≤ 3) (fraction : digits ≠ 0) :
    datetimeOrTime false (hmsText k hour t digits)
      (strToDatetimeOrDateBody (hmsText k hour t digits) fuzzydate false status) = none := by
  have frac : fracText t.secondPart digits =
      '.'.toUInt8 :: lowDigitChars digits (t.secondPart / 10 ^ (6 - digits)) := if_pos fraction
  rw [hmsText, frac]
  have count := @dateBodyDigits_of_separator k hour
    (lowDigitChars 2 t.minute ++ ':'.toUInt8 :: (lowDigitChars 2 t.second ++
      '.'.toUInt8 :: lowDigitChars digits (t.secondPart / 10 ^ (6 - digits))))
    ':'.toUInt8 (by decide) (by decide) (by decide)
  have hours := @getNumberAt_lowDigitChars k hour
    (':'.toUInt8 :: (lowDigitChars 2 t.minute ++ ':'.toUInt8 :: (lowDigitChars 2 t.second ++
      '.'.toUInt8 :: lowDigitChars digits (t.secondPart / 10 ^ (6 - digits))))) pos (by omega)
    latin1IsDigit_colon
  have seconds := @getNumberAt_lowDigitChars 2 t.second
    ('.'.toUInt8 :: lowDigitChars digits (t.secondPart / 10 ^ (6 - digits))) (by decide) (by decide)
    latin1IsDigit_point
  simp [strToDatetimeOrDateBody, count, dateBodyDelimited, getNumber, getPunct,
    getDateTimeSeparator, scanFields, hours, getNumberAt_lowDigitChars, seconds, datetimeOrTime]

theorem ddHmsLoop_minute_second (fuel : Nat) (date : List Nat) {minute second : Nat}
    (frac : List UInt8) (mlt : minute < 100) (slt : second < 100)
    (stop : latin1IsDigit (frac.headD 0) = false) :
    ddHmsLoop (fuel + 2) date 2 (lowDigitChars 2 minute ++ ':'.toUInt8 :: (lowDigitChars 2 second ++ frac)) =
      ((date.set 2 minute).set 3 second, 4, frac) := by
  have mm := @ulonglongDigits_lowDigitChars 2 minute (':'.toUInt8 :: (lowDigitChars 2 second ++ frac))
    (by decide) latin1IsDigit_colon
  have ss := @ulonglongDigits_lowDigitChars 2 second frac (by decide) stop
  obtain ⟨cs, hcs⟩ := lowDigitChars_succ_eq_cons 1 second
  have first : latin1IsDigit (digitChar (second / 10 % 10)) = true :=
    latin1IsDigit_digitChar (Nat.mod_lt _ (by norm_num))
  have mmod : minute % 100 = minute := Nat.mod_eq_of_lt mlt
  have smod : second % 100 = second := Nat.mod_eq_of_lt slt
  rw [hcs, List.cons_append] at mm ss ⊢
  simp only [ddHmsLoop, mm, ss]
  simp [timeSeparator, first, mmod, smod]
  split <;> rfl

@[simp] theorem latin1IsSpace_colon : latin1IsSpace ':'.toUInt8 = false := by decide

theorem ddDaysValue_lowDigitChars {n : Nat} (x : Nat) (rest : List UInt8) (le : n ≤ 3)
    (lt : x < 10 ^ n) (stop : latin1IsDigit (rest.headD 0) = false) :
    ddDaysValue (lowDigitChars n x ++ rest) 0 = (some x, rest) := by
  have small : horner 0 (lowDigitChars n x) < 42949672955959 :=
    Nat.lt_of_lt_of_le (lowDigitChars_value_lt n x)
      (Nat.le_trans (Nat.pow_le_pow_right (by norm_num) le) (by norm_num))
  rw [ddDaysValue_append 0 rest (lowDigitChars_digits n x) small stop, horner_lowDigitChars,
    Nat.mod_eq_of_lt lt]

/-- The TIME reader takes the hours, minutes and seconds of a printed TIME,
leaving the fraction. -/
theorem ddhhmmss_hmsText {k hour : Nat} (t : MysqlTime) (digits : Nat) (le : k ≤ 3)
    (hourLt : hour < 10 ^ k) (minute : t.minute < 100) (second : t.second < 100) :
    ddhhmmss (hmsText k hour t digits) =
      some ([0, hour, t.minute, t.second], fracText t.secondPart digits) := by
  have days := ddDaysValue_lowDigitChars hour
    (':'.toUInt8 :: (lowDigitChars 2 t.minute ++ ':'.toUInt8 ::
      (lowDigitChars 2 t.second ++ fracText t.secondPart digits))) le hourLt latin1IsDigit_colon
  have loop := ddHmsLoop_minute_second 2 [0, hour, 0, 0, 0] (fracText t.secondPart digits) minute
    second (fracText_stop t.secondPart digits)
  have hourSmall : ¬ hour ≥ uintMax32 := by
    have : 10 ^ k ≤ 10 ^ 3 := Nat.pow_le_pow_right (by norm_num) le
    unfold uintMax32
    omega
  obtain ⟨cs, hcs⟩ := lowDigitChars_succ_eq_cons 1 t.minute
  have first : latin1IsDigit (digitChar (t.minute / 10 ^ 1 % 10)) = true :=
    latin1IsDigit_digitChar (Nat.mod_lt _ (by norm_num))
  rw [hcs, List.cons_append] at days loop
  rw [hmsText, hcs, List.cons_append]
  simp only [Nat.reduceAdd, pow_one] at days loop first
  simp [ddhhmmss, days, timeSeparator, first, hourSmall, loop]

theorem checkTimeRangeInternal_of_valid (t : MysqlTime) (maxHour errHour warning : Nat)
    (minute : t.minute < 60) (second : t.second < 60) (err : t.hour ≤ errHour)
    (hour : t.hour + 24 * t.day ≤ maxHour) (secondPart : t.secondPart ≤ 999999) :
    checkTimeRangeInternal t maxHour errHour 6 warning = (false, t, warning) := by
  have inRange : ¬ (t.minute ≥ 60 ∨ t.second ≥ 60 ∨ t.hour > errHour) := by omega
  have sixDigits : (6 : Nat) ≠ autoSecPartDigits := by decide
  have fits : t.hour + 24 * t.day ≤ maxHour ∧ (t.hour + 24 * t.day ≠ maxHour ∨
      t.minute ≠ timeMaxMinute ∨ t.second ≠ timeMaxSecond ∨ t.secondPart ≤ maxSecPart.getD 6 0) :=
    ⟨hour, Or.inr (Or.inr (Or.inr secondPart))⟩
  rw [checkTimeRangeInternal, if_neg inRange, if_neg sixDigits, if_pos fits]

/-- The TIME reader reads a printed TIME back, fraction included. -/
theorem strToDDhhmmssffInternal_hmsText {k hour : Nat} {t : MysqlTime} {digits : Nat}
    (errHour w : Nat) (le : k ≤ 3) (hourLt : hour < 10 ^ k) (hourMax : hour ≤ timeMaxHour)
    (err : hour ≤ errHour) (minute : t.minute < 60) (second : t.second < 60)
    (sp : t.secondPart < 10 ^ 6) (dvd : 10 ^ (6 - digits) ∣ t.secondPart) (dle : digits ≤ 6) :
    strToDDhhmmssffInternal false (hmsText k hour t digits) timeMaxHour errHour ⟨w, 0, 0⟩ =
      ⟨false, ⟨0, 0, 0, hour, t.minute, t.second, t.secondPart, false, .time⟩, ⟨w, digits, 0⟩, []⟩ := by
  have fields := ddhhmmss_hmsText t digits le hourLt (by omega) (by omega)
  have range := checkTimeRangeInternal_of_valid
    ⟨0, 0, 0, hour, t.minute, t.second, t.secondPart, false, .time⟩ timeMaxHour errHour w
    minute second err (by simpa using hourMax) (by simp only; omega)
  have small : ¬ uintMax32 < hour ∧ ¬ uintMax32 < t.minute ∧ ¬ uintMax32 < t.second ∧
      ¬ uintMax32 < t.secondPart := by
    unfold uintMax32 timeMaxHour at *
    omega
  by_cases zero : digits = 0
  · subst zero
    have none : t.secondPart = 0 := Nat.eq_zero_of_dvd_of_lt dvd (by simpa using sp)
    rw [none] at range
    simp [strToDDhhmmssffInternal, fields, fracText, internalFormatPositions7, none, small, range]
  · have micro := getMicroseconds_lowDigitChars ⟨w, 0, 0⟩ 0 (t.secondPart / 10 ^ (6 - digits))
      (Nat.pos_of_ne_zero zero) dle
    simp [strToDDhhmmssffInternal, fields, fracText, zero, micro, internalFormatPositions7,
      secondPart_of_dvd sp dvd dle, small, range]

theorem length_hmsText (k hour : Nat) (t : MysqlTime) (digits : Nat) :
    (hmsText k hour t digits).length = k + 6 + if digits ≠ 0 then digits + 1 else 0 := by
  unfold hmsText fracText
  split
  · simp [length_lowDigitChars]
    omega
  · simp [length_lowDigitChars]

/-- A TIME with no fraction is too short to be taken for a date. -/
theorem isDatetimeBodyCandidate_hmsText {k : Nat} (hour : Nat) (t : MysqlTime) (le : k ≤ 3) :
    isDatetimeBodyCandidate (hmsText k hour t 0) false false = false := by
  have short : ¬ (hmsText k hour t 0).length ≥ 12 := by
    rw [length_hmsText]
    simp only [ne_eq, not_true_eq_false, if_false]
    omega
  rw [isDatetimeBodyCandidate, if_neg short]
  simp only [Bool.false_eq_true, if_false]
  split
  · rfl
  · exact candidateScan_time _ 0 (hmsText_no_separator k hour t 0)

/-- The body of a printed TIME reads back through the TIME reader, whether or
not the date reader tried it first. -/
theorem strToDatetimeOrDateOrTimeBody_hmsText {k hour : Nat} {t : MysqlTime} {digits : Nat}
    (mode errHour : Nat) (pos : 0 < k) (le : k ≤ 3) (hourLt : hour < 10 ^ k)
    (hourMax : hour ≤ timeMaxHour) (err : hour ≤ errHour) (minute : t.minute < 60)
    (second : t.second < 60) (sp : t.secondPart < 10 ^ 6) (dvd : 10 ^ (6 - digits) ∣ t.secondPart)
    (dle : digits ≤ 6) :
    strToDatetimeOrDateOrTimeBody (hmsText k hour t digits) mode ⟨0, 0, 0⟩ timeMaxHour errHour
        false false =
      (false, ⟨0, 0, 0, hour, t.minute, t.second, t.secondPart, false, .time⟩, ⟨0, digits, 0⟩) := by
  have reader := strToDDhhmmssffInternal_hmsText errHour 0 le hourLt hourMax err minute second sp
    dvd dle
  by_cases zero : digits = 0
  · subst zero
    simp [strToDatetimeOrDateOrTimeBody, isDatetimeBodyCandidate_hmsText hour t le, reader]
  · -- the date reader gives up at the point of the fraction
    have none := @datetimeOrTime_timeText k hour t digits mode ⟨0, 0, 0⟩ pos le zero
    simp [strToDatetimeOrDateOrTimeBody, none, reader, myTimeStatusInit]

/-- A TIME printed by my_time_to_str reads back as that TIME with its days
folded into its hours, the sign included. -/
theorem strToDatetimeOrDateOrTime_myTimeToStr {t : MysqlTime} {digits : Nat}
    (valid : t.ValidTime digits) (year : t.year = 0) (month : t.month = 0) (mode errHour : Nat)
    (err : timeMaxHour ≤ errHour) :
    strToDatetimeOrDateOrTime (myTimeToStr t digits) mode timeMaxHour errHour =
      (false, t.foldDays, ⟨0, digits, 0⟩) := by
  have hour := valid.hour_le
  obtain ⟨pos, le, hourLt⟩ := hourWidth_spec hour
  have body : findBody ((if t.neg then ['-'.toUInt8] else []) ++
      hmsText (hourWidth (t.day * 24 + t.hour)) (t.day * 24 + t.hour) t digits) =
      (false, t.neg, 0, hmsText (hourWidth (t.day * 24 + t.hour)) (t.day * 24 + t.hour) t digits) :=
    findBody_digits t.neg (headD_lowDigitChars _ _ pos) (endsInDigit_hmsText _ _ t digits)
  have dle := valid.dec_le
  have sp := valid.secondPart_lt
  have dvd := valid.secondPart_dvd
  simp only [timeSecondPartDigits] at dle sp dvd
  have read := strToDatetimeOrDateOrTimeBody_hmsText mode errHour pos le hourLt hour
    (le_trans hour err) valid.minute_lt valid.second_lt sp dvd dle
  rw [myTimeToStr_eq valid year month, strToDatetimeOrDateOrTime, body]
  simp [myTimeStatusInit, read, setNeg, MysqlTime.foldDays]

/-- DATETIME, DATE and TIME values read back from the texts that
my_datetime_to_str, my_date_to_str and my_time_to_str print for them, with no
warning and the precision printed. -/
theorem temporalText_roundTrip (flags mode errHour : Nat) (err : timeMaxHour ≤ errHour) :
    (∀ (t : MysqlTime) (digits : Nat), t.ValidDatetime digits → t.ValidDay →
      strToDatetimeOrDate (myDatetimeToStr t digits) flags = (false, t, ⟨0, digits, 0⟩)) ∧
    (∀ t : MysqlTime, t.ValidDate → strToDatetimeOrDate (myDateToStr t) flags = (false, t, ⟨0, 0, 0⟩)) ∧
    (∀ (t : MysqlTime) (digits : Nat), t.ValidTime digits → t.year = 0 → t.month = 0 → t.day = 0 →
      t.timeType = .time →
      strToDatetimeOrDateOrTime (myTimeToStr t digits) mode timeMaxHour errHour =
        (false, t, ⟨0, digits, 0⟩)) := by
  refine ⟨fun t digits valid day => strToDatetimeOrDate_myDatetimeToStr valid day flags,
    fun t valid => strToDatetimeOrDate_myDateToStr valid flags, ?_⟩
  intro t digits valid year month day timeType
  have folded : t.foldDays = t := by
    cases t
    simp_all [MysqlTime.foldDays]
  rw [strToDatetimeOrDateOrTime_myTimeToStr valid year month mode errHour err, folded]

theorem temporalText_roundTrip_leapDay : timeMaxHour ≤ timeMaxHour ∧
    strToDatetimeOrDate (myDatetimeToStr ⟨2024, 2, 29, 13, 5, 9, 120000, false, .datetime⟩ 2) 0 =
      (false, ⟨2024, 2, 29, 13, 5, 9, 120000, false, .datetime⟩, ⟨0, 2, 0⟩) ∧
    strToDatetimeOrDate (myDateToStr ⟨1999, 12, 31, 0, 0, 0, 0, false, .date⟩) 0 =
      (false, ⟨1999, 12, 31, 0, 0, 0, 0, false, .date⟩, ⟨0, 0, 0⟩) ∧
    strToDatetimeOrDateOrTime (myTimeToStr ⟨0, 0, 0, 838, 59, 59, 500000, true, .time⟩ 1) 0
        timeMaxHour timeMaxHour =
      (false, ⟨0, 0, 0, 838, 59, 59, 500000, true, .time⟩, ⟨0, 1, 0⟩) :=
  have trip := temporalText_roundTrip 0 0 timeMaxHour (le_refl _)
  ⟨le_refl _,
    trip.1 _ _ (by decide) ⟨by decide, by decide, by decide, Or.inr ⟨rfl, by decide, rfl⟩⟩,
    trip.2.1 _ ⟨by decide, ⟨by decide, by decide, by decide, Or.inl (by decide)⟩, rfl, rfl, rfl, rfl,
      rfl, rfl⟩,
    trip.2.2 _ _ (by decide) rfl rfl rfl rfl⟩

end MariaDB.Temporal
