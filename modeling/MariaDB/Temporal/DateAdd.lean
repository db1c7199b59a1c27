import Mathlib.Data.Int.ConditionallyCompleteOrder
import MariaDB.Temporal.DaynrCalendar

set_option autoImplicit false

/- `date_add_interval` of sql/sql_time.cc. An interval of days down to
microseconds is added on one count of microseconds since day 0, built by
`COMBINE` and split back with `GET_PART` and `get_date_from_daynr`; weeks are
added to the day number; years and months to `year*12+month`. The sums are
C's: the `INTERVAL` fields are 64-bit unsigned, `COMBINE(&interval)` and its
product with the sign are computed modulo `2^64` and stored into a `longlong`,
`Int.bmod (2^64)` here; the fields of `MYSQL_TIME` take the low 32 bits. -/
namespace MariaDB.Temporal

open Calendar

/-- `enum interval_type`. -/
inductive IntervalType where
  | year | quarter | month | week | day | hour | minute | second | microsecond
  | yearMonth | dayHour | dayMinute | daySecond | hourMinute | hourSecond | minuteSecond
  | dayMicrosecond | hourMicrosecond | minuteMicrosecond | secondMicrosecond | last
  deriving Repr, DecidableEq

/-- `INTERVAL`: `year` to `hour` are `ulong`, the rest `ulonglong`. -/
structure Interval where
  year : UInt64
  month : UInt64
  day : UInt64
  hour : UInt64
  minute : UInt64
  second : UInt64
  secondPart : UInt64
  neg : Bool
  deriving Repr, DecidableEq

/-- `COMBINE(X)`: days, hours, minutes, seconds and microseconds in
microseconds, an unsigned 64-bit sum. -/
def combine (day hour minute second secondPart : Nat) : Nat :=
  ((((day * 24 + hour) * 60 + minute) * 60 + second) * 1000000 + secondPart) % 2 ^ 64

/-- `COMBINE(ltime)`. -/
def MysqlTime.combine (t : MysqlTime) : Nat :=
  Temporal.combine t.day t.hour t.minute t.second t.secondPart

/-- `COMBINE(&interval)`. -/
def Interval.combine (i : Interval) : Nat :=
  Temporal.combine i.day.toNat i.hour.toNat i.minute.toNat i.second.toNat i.secondPart.toNat

/-- How a case of the switch of `date_add_interval` leaves it: a `return` or a
`goto` out of the function (`true` for an error), or the `break` to the test of
the time type after the switch. -/
inductive SwitchEnd where
  | exit (error : Bool)
  | fallThrough
  deriving Repr, DecidableEq

/-- The cases of days down to microseconds. The guard sums the whole days of
each field, with a wrap; the time is moved to its day number, the interval added
on the count of microseconds, and the count split back. -/
def addDayTime (lTime : MysqlTime) (intType : IntervalType) (interval : Interval) (sign : Int) :
    MysqlTime × SwitchEnd :=
  if (((interval.day.toNat + interval.hour.toNat / 24 + interval.minute.toNat / 24 / 60 +
      interval.second.toNat / 24 / 60 / 60) % 2 ^ 64 : Nat) : Int) > maxDayNumber then
    (lTime, .exit true)
  else
    let timeType := lTime.timeType
    let lTime := if timeType ≠ .time then
        { lTime with day := ((lTime.day + calcDaynr lTime.year lTime.month 1 - 1) % 2 ^ 32).toNat }
      else lTime
    let usec := ((lTime.combine : Int) + sign * interval.combine).bmod (2 ^ 64)
    let (neg, usec) := if usec < 0 then (true, (-usec).bmod (2 ^ 64)) else (false, usec)
    -- `GET_PART`: a remainder, then the quotient, both truncating
    let secondPart := usec.tmod 1000000
    let usec := usec.tdiv 1000000
    let second := usec.tmod 60
    let usec := usec.tdiv 60
    let minute := usec.tmod 60
    let usec := usec.tdiv 60
    let lTime := { lTime with
      secondPart := (secondPart % 2 ^ 64).toNat
      second := (second % 2 ^ 32).toNat
      minute := (minute % 2 ^ 32).toNat
      neg := xor lTime.neg neg }
    if timeType = .time then
      if usec > timeMaxHour then (lTime, .exit true)
      else ({ lTime with hour := (usec % 2 ^ 32).toNat, day := 0 }, .exit false)
    else if lTime.neg then (lTime, .exit true)
    else
      let lTime := if intType ≠ .day then { lTime with timeType := .datetime } else lTime
      let hour := usec.tmod 24
      let daynr := usec.tdiv 24
      let lTime := { lTime with hour := (hour % 2 ^ 32).toNat }
      match getDateFromDaynr daynr with
      | none => (lTime, .exit true)
      | some (year, month, day) => ({ lTime with year, month, day }, .fallThrough)

/-- The case `INTERVAL_WEEK`: the days added to the day number, kept in `long`. -/
def addWeek (lTime : MysqlTime) (interval : Interval) (sign : Int) : MysqlTime × SwitchEnd :=
  let period := (calcDaynr lTime.year lTime.month lTime.day + sign * interval.day.toNat).bmod (2 ^ 64)
  if period < 0 ∨ period > 0x7FFFFFFF then (lTime, .exit true)
  else
    match getDateFromDaynr period with
    | none => (lTime, .exit true)
    | some (year, month, day) => ({ lTime with year, month, day }, .fallThrough)

/-- The case `INTERVAL_YEAR`: February 29 becomes February 28 out of a leap year. -/
def addYear (lTime : MysqlTime) (interval : Interval) (sign : Int) : MysqlTime × SwitchEnd :=
  let lTime := { lTime with year := ((lTime.year + sign * interval.year.toNat) % 2 ^ 32).toNat }
  if lTime.year ≥ 10000 then (lTime, .exit true)
  else if lTime.month = 2 ∧ lTime.day = 29 ∧ calcDaysInYear lTime.year ≠ 366 then
    ({ lTime with day := 28 }, .fallThrough)
  else (lTime, .fallThrough)

/-- The cases `INTERVAL_YEAR_MONTH`, `INTERVAL_QUARTER` and `INTERVAL_MONTH`: the
months added to `year*12+month-1`, the day clipped to the new month. -/
def addMonths (lTime : MysqlTime) (interval : Interval) (sign : Int) : MysqlTime × SwitchEnd :=
  let period := ((lTime.year * 12 % 2 ^ 32 : Nat) + sign * interval.year.toNat * 12 +
    lTime.month - 1 + sign * interval.month.toNat).bmod (2 ^ 64)
  -- `(ulong) period >= 120000L`
  if period < 0 ∨ period ≥ 120000 then (lTime, .exit true)
  else
    let lTime := { lTime with year := (period / 12).toNat, month := (period % 12).toNat + 1 }
    let lastDay := daysInMonth.getD (lTime.month - 1) 0
    if lTime.day > lastDay then
      let lTime := { lTime with day := lastDay }
      if lTime.month = 2 ∧ calcDaysInYear lTime.year = 366 then
        ({ lTime with day := lTime.day + 1 }, .fallThrough)
      else (lTime, .fallThrough)
    else (lTime, .fallThrough)

/-- The switch of `date_add_interval` on the interval type. -/
def addBySwitch (lTime : MysqlTime) (intType : IntervalType) (interval : Interval) (sign : Int) :
    MysqlTime × SwitchEnd :=
  match intType with
  | .second | .secondMicrosecond | .microsecond | .minute | .hour | .minuteMicrosecond
  | .minuteSecond | .hourMicrosecond | .hourSecond | .hourMinute | .dayMicrosecond
  | .daySecond | .dayMinute | .dayHour | .day => addDayTime lTime intType interval sign
  | .week => addWeek lTime interval sign
  | .year => addYear lTime interval sign
  | .yearMonth | .quarter | .month => addMonths lTime interval sign
  | .last => (lTime, .exit true)

/-- The result of `date_add_interval` once the switch is left: a `return` or a
`goto` keeps its own, and past the switch a TIME goes to `invalid_date`. -/
def SwitchEnd.result (lTime : MysqlTime) : SwitchEnd → Bool
  | .exit error => error
  | .fallThrough => lTime.timeType = .time

/-- `date_add_interval(thd, ltime, int_type, interval, push_warn)`: the new
`*ltime` and the result, `true` for an error. -/
def dateAddInterval (lTime : MysqlTime) (intType : IntervalType) (interval : Interval) :
    MysqlTime × Bool :=
  let sign : Int := if interval.neg = lTime.neg then 1 else -1
  let switched := addBySwitch lTime intType interval sign
  (switched.1, switched.2.result switched.1)

/-! ## The calendar arithmetic it is meant to do -/

/-- A DATE or DATETIME `date_add_interval` takes: a valid day of a year up to
9999, a time of day, no sign. -/
structure MysqlTime.ValidDateOrDatetime (t : MysqlTime) : Prop where
  date : (⟨t.year, t.month, t.day⟩ : Date).Valid daysInYearLeap
  year_le : t.year ≤ 9999
  hour_lt : t.hour < 24
  minute_lt : t.minute < 60
  second_lt : t.second < 60
  secondPart_lt : t.secondPart < 1000000
  not_neg : t.neg = false
  timeType_mem : t.timeType = .date ∨ t.timeType = .datetime

instance (t : MysqlTime) : Decidable t.ValidDateOrDatetime :=
  decidable_of_iff ((⟨t.year, t.month, t.day⟩ : Date).Valid daysInYearLeap ∧ t.year ≤ 9999 ∧ t.hour < 24 ∧
      t.minute < 60 ∧ t.second < 60 ∧ t.secondPart < 1000000 ∧ t.neg = false ∧
      (t.timeType = .date ∨ t.timeType = .datetime))
    ⟨fun ⟨a, b, c, d, e, f, g, h⟩ => ⟨a, b, c, d, e, f, g, h⟩,
      fun ⟨a, b, c, d, e, f, g, h⟩ => ⟨a, b, c, d, e, f, g, h⟩⟩

/-- The microseconds of the time of day of `t`. -/
def MysqlTime.usecOfDay (t : MysqlTime) : Nat :=
  ((t.hour * 60 + t.minute) * 60 + t.second) * 1000000 + t.secondPart

/-- The microseconds of `t` since day 0. -/
def MysqlTime.usecSinceDay0 (t : MysqlTime) : Int :=
  calcDaynr t.year t.month t.day * 86400000000 + t.usecOfDay

/-- The microseconds of an interval, without the wrap of `COMBINE`. -/
def Interval.usec (i : Interval) : Nat :=
  (((i.day.toNat * 24 + i.hour.toNat) * 60 + i.minute.toNat) * 60 + i.second.toNat) * 1000000 +
    i.secondPart.toNat

/-- The interval with its sign, in microseconds. -/
def Interval.signedUsec (i : Interval) : Int := if i.neg then -(i.usec : Int) else i.usec

/-- The interval types of days down to microseconds. -/
def IntervalType.isDayTime : IntervalType → Bool
  | .second | .secondMicrosecond | .microsecond | .minute | .hour | .minuteMicrosecond
  | .minuteSecond | .hourMicrosecond | .hourSecond | .hourMinute | .dayMicrosecond
  | .daySecond | .dayMinute | .dayHour | .day => true
  | _ => false

/-- The months of an interval, with its sign. -/
def Interval.signedMonths (i : Interval) : Int :=
  if i.neg then -((i.year.toNat * 12 + i.month.toNat : Nat) : Int) else (i.year.toNat * 12 + i.month.toNat : Nat)

/-- The month number `year*12+month-1` of `t` moved by the months of `i`. -/
def monthNumberAfter (t : MysqlTime) (i : Interval) : Int :=
  ((t.year * 12 + t.month - 1 : Nat) : Int) + i.signedMonths

/-- `t` moved to the month number `n`, its day clipped to the last day of the month. -/
def MysqlTime.atMonthNumber (t : MysqlTime) (n : Nat) : MysqlTime :=
  { t with
    year := n / 12
    month := n % 12 + 1
    day := min t.day (monthLength (daysInYearLeap (n / 12)) (n % 12 + 1)) }

/-! ## Days down to microseconds -/

theorem Interval.combine_eq {i : Interval} (fits : i.usec < 2 ^ 64) : i.combine = i.usec := by
  unfold Interval.combine Temporal.combine
  exact Nat.mod_eq_of_lt fits

/-- The guard of `date_add_interval` counts whole days of each field, so never
more days than the interval has. -/
theorem guard_le_days (i : Interval) (fits : i.usec < 2 ^ 64) :
    (i.day.toNat + i.hour.toNat / 24 + i.minute.toNat / 24 / 60 + i.second.toNat / 24 / 60 / 60) % 2 ^ 64 ≤
      i.usec / 86400000000 := by
  unfold Interval.usec at fits ⊢
  rw [Nat.mod_eq_of_lt (by omega)]
  omega

/-- The end of the cases of days down to microseconds: a count of microseconds
from day 0 split into a time of day and a day number for `get_date_from_daynr`. -/
theorem splitUsec_spec {x : Int} (nonneg : 0 ≤ x) (resultType : TimestampType)
    (typeMem : resultType = .date ∨ resultType = .datetime) (before : MysqlTime) :
    if 366 * 86400000000 ≤ x ∧ x < (maxDayNumber + 1) * 86400000000 then
      ∃ r, (match getDateFromDaynr (x / 86400000000) with
          | none => (before, SwitchEnd.exit true)
          | some (year, month, day) =>
            (⟨year, month, day, (x / 1000000 / 60 / 60 % 24 % 2 ^ 32).toNat,
              (x / 1000000 / 60 % 60 % 2 ^ 32).toNat, (x / 1000000 % 60 % 2 ^ 32).toNat,
              (x % 1000000 % 2 ^ 64).toNat, false, resultType⟩, SwitchEnd.fallThrough)) =
          (r, .fallThrough) ∧ r.ValidDateOrDatetime ∧ r.usecSinceDay0 = x
    else (match getDateFromDaynr (x / 86400000000) with
        | none => (before, SwitchEnd.exit true)
        | some (year, month, day) =>
          (⟨year, month, day, (x / 1000000 / 60 / 60 % 24 % 2 ^ 32).toNat,
            (x / 1000000 / 60 % 60 % 2 ^ 32).toNat, (x / 1000000 % 60 % 2 ^ 32).toNat,
            (x % 1000000 % 2 ^ 64).toNat, false, resultType⟩, SwitchEnd.fallThrough)).2 = .exit true := by
  split_ifs with inRange
  · obtain ⟨k, daynr⟩ : ∃ k : Nat, x / 86400000000 = k := ⟨(x / 86400000000).toNat, by omega⟩
    simp only [maxDayNumber] at inRange
    obtain ⟨d, validD, pos, number, decoded⟩ := getDateFromDaynr_spec (n := k) (by omega) (by omega)
    rw [daynr, decoded]
    refine ⟨_, rfl, ⟨validD, year_le_of_dayNumber_le validD (by omega), ?hour, ?minute, ?second,
      ?secondPart, rfl, typeMem⟩, ?usec⟩
    case hour | minute | second | secondPart => dsimp only; omega
    unfold MysqlTime.usecSinceDay0 MysqlTime.usecOfDay
    dsimp only
    rw [calcDaynr_eq_dayNumber validD pos, number]
    -- each field is below its register width, so the widths drop out before omega
    simp (disch := omega) only [Int.emod_eq_of_lt]
    omega
  · have outside : x / 86400000000 < 366 ∨ x / 86400000000 > maxDayNumber := by
      simp only [maxDayNumber] at inRange ⊢
      omega
    unfold getDateFromDaynr
    rw [if_pos outside]

section
variable {t : MysqlTime} (valid : t.ValidDateOrDatetime)
include valid

theorem usecSinceDay0_mem : 86400000000 ≤ t.usecSinceDay0 ∧
    t.usecSinceDay0 < (maxDayNumber + 1) * 86400000000 := by
  have days := calcDaynr_mem valid.date valid.year_le
  have := valid.hour_lt
  have := valid.minute_lt
  have := valid.second_lt
  have := valid.secondPart_lt
  unfold MysqlTime.usecSinceDay0 MysqlTime.usecOfDay
  simp only [maxDayNumber] at days ⊢
  omega

/-- Moved to its day number, a DATE or DATETIME makes `COMBINE` its
microseconds since day 0. -/
theorem combine_toDaynr :
    (({ t with day := ((t.day + calcDaynr t.year t.month 1 - 1) % 2 ^ 32).toNat } : MysqlTime).combine : Int) =
      t.usecSinceDay0 := by
  have days := calcDaynr_mem valid.date valid.year_le
  have first := @calcDaynr_eq_first_add t.year t.month t.day valid.date.month_pos
  have := valid.hour_lt
  have := valid.minute_lt
  have := valid.second_lt
  have := valid.secondPart_lt
  unfold MysqlTime.combine combine MysqlTime.usecSinceDay0 MysqlTime.usecOfDay
  simp only [maxDayNumber] at days
  have day : ((t.day + calcDaynr t.year t.month 1 - 1) % 2 ^ 32).toNat =
      (calcDaynr t.year t.month t.day).toNat := by omega
  dsimp only
  rw [day, Nat.mod_eq_of_lt (by omega)]
  push_cast
  omega

theorem addDayTime_spec (intType : IntervalType) (i : Interval)
    (fits : t.usecSinceDay0 + i.usec < 2 ^ 63) :
    if 366 * 86400000000 ≤ t.usecSinceDay0 + i.signedUsec ∧
        t.usecSinceDay0 + i.signedUsec < (maxDayNumber + 1) * 86400000000 then
      ∃ r, addDayTime t intType i (if i.neg = t.neg then 1 else -1) = (r, .fallThrough) ∧
        r.ValidDateOrDatetime ∧ r.usecSinceDay0 = t.usecSinceDay0 + i.signedUsec
    else (addDayTime t intType i (if i.neg = t.neg then 1 else -1)).2 = .exit true := by
  have range := usecSinceDay0_mem valid
  have usecFits : i.usec < 2 ^ 64 := by omega
  have signed : (if i.neg = t.neg then (1 : Int) else -1) * i.combine = i.signedUsec := by
    rw [Interval.combine_eq usecFits, valid.not_neg]
    unfold Interval.signedUsec
    cases i.neg <;> simp
  have notTime : t.timeType ≠ .time := by rcases valid.timeType_mem with h | h <;> rw [h] <;> decide
  unfold addDayTime
  by_cases guard : (((i.day.toNat + i.hour.toNat / 24 + i.minute.toNat / 24 / 60 +
      i.second.toNat / 24 / 60 / 60) % 2 ^ 64 : Nat) : Int) > maxDayNumber
  · -- the guard only stops intervals of more days than the range has
    have days := guard_le_days i usecFits
    have outside : ¬ (366 * 86400000000 ≤ t.usecSinceDay0 + i.signedUsec ∧
        t.usecSinceDay0 + i.signedUsec < (maxDayNumber + 1) * 86400000000) := by
      unfold Interval.signedUsec
      simp only [maxDayNumber] at guard range ⊢
      split <;> omega
    rw [if_neg outside, if_pos guard]
  · rw [if_neg guard]
    have wrap : (t.usecSinceDay0 + i.signedUsec).bmod (2 ^ 64) = t.usecSinceDay0 + i.signedUsec :=
      Int.bmod_eq_of_le (by unfold Interval.signedUsec; split <;> omega)
        (by unfold Interval.signedUsec; split <;> omega)
    simp only [notTime, ne_eq, not_false_eq_true, if_true, if_false, combine_toDaynr valid, signed, wrap]
    simp only [valid.not_neg]
    generalize target : t.usecSinceDay0 + i.signedUsec = x at *
    by_cases neg : x < 0
    · -- before day 0 the result takes the sign and goes to `invalid_date`
      have outside : ¬ (366 * 86400000000 ≤ x ∧ x < (maxDayNumber + 1) * 86400000000) := by omega
      simp only [neg, if_true, outside, if_false, Bool.false_xor]
    · have nonneg : 0 ≤ x := by omega
      simp only [neg, if_false, Bool.false_xor, Bool.false_eq_true]
      simp (disch := omega) only [Int.tdiv_eq_ediv_of_nonneg, Int.tmod_eq_emod_of_nonneg]
      have daynr : x / 1000000 / 60 / 60 / 24 = x / 86400000000 := by omega
      rw [daynr]
      -- a DATETIME unless the interval is of days, which keeps a DATE one
      by_cases dayType : intType = .day <;>
        simp only [dayType, not_true, not_false_eq_true, if_true, if_false]
      · exact splitUsec_spec nonneg t.timeType valid.timeType_mem _
      · exact splitUsec_spec nonneg .datetime (Or.inr rfl) _

end

theorem addBySwitch_of_isDayTime {intType : IntervalType} (dayTime : intType.isDayTime) (t : MysqlTime)
    (i : Interval) (sign : Int) : addBySwitch t intType i sign = addDayTime t intType i sign := by
  cases intType <;> simp only [IntervalType.isDayTime, Bool.false_eq_true] at dayTime <;> rfl

/-- With no wrap of the sum, `date_add_interval` adds days down to
microseconds on the count of microseconds since day 0: a sum from 0001-01-01
to 9999-12-31 comes back as a valid date and time of that count, any other
sum is an error. -/
theorem dateAddInterval_dayTime {t : MysqlTime} (valid : t.ValidDateOrDatetime) {intType : IntervalType}
    (dayTime : intType.isDayTime) (i : Interval) (fits : t.usecSinceDay0 + i.usec < 2 ^ 63) :
    if 366 * 86400000000 ≤ t.usecSinceDay0 + i.signedUsec ∧
        t.usecSinceDay0 + i.signedUsec < (maxDayNumber + 1) * 86400000000 then
      (dateAddInterval t intType i).2 = false ∧ (dateAddInterval t intType i).1.ValidDateOrDatetime ∧
        (dateAddInterval t intType i).1.usecSinceDay0 = t.usecSinceDay0 + i.signedUsec
    else (dateAddInterval t intType i).2 = true := by
  have spec := addDayTime_spec valid intType i fits
  unfold dateAddInterval
  dsimp only
  rw [addBySwitch_of_isDayTime dayTime]
  by_cases inRange : 366 * 86400000000 ≤ t.usecSinceDay0 + i.signedUsec ∧
      t.usecSinceDay0 + i.signedUsec < (maxDayNumber + 1) * 86400000000
  · rw [if_pos inRange] at spec ⊢
    obtain ⟨r, result, validR, usecR⟩ := spec
    have notTime : r.timeType ≠ .time := by rcases validR.timeType_mem with h | h <;> rw [h] <;> decide
    rw [result]
    exact ⟨by simpa [SwitchEnd.result] using notTime, validR, usecR⟩
  · rw [if_neg inRange] at spec ⊢
    rw [spec]
    rfl

/-! ## Months -/

/-- The day a month interval keeps: the day of the date, or the last day of
the new month when that month is shorter. -/
theorem clippedDay_eq_min {month : Nat} (pos : 1 ≤ month) (le : month ≤ 12) (year day : Nat) :
    (if day > daysInMonth.getD (month - 1) 0 then
        if month = 2 ∧ calcDaysInYear year = 366 then daysInMonth.getD (month - 1) 0 + 1
        else daysInMonth.getD (month - 1) 0
      else day) = min day (monthLength (daysInYearLeap year) month) := by
  have days : calcDaysInYear year = 365 ∨ calcDaysInYear year = 366 := by
    unfold calcDaysInYear
    split <;> simp
  unfold daysInYearLeap
  interval_cases month <;> rcases days with days | days <;>
    simp [days, daysInMonth, monthLength_eq] <;> (try split_ifs) <;> omega

theorem addBySwitch_of_months {intType : IntervalType}
    (months : intType = .yearMonth ∨ intType = .quarter ∨ intType = .month) (t : MysqlTime)
    (i : Interval) (sign : Int) : addBySwitch t intType i sign = addMonths t i sign := by
  rcases months with rfl | rfl | rfl <;> rfl

/-- With no wrap of the sum, the month intervals move `year*12+month-1` and
clip the day to the new month, and fail when the new year is not from 0 to 9999. -/
theorem dateAddInterval_months {t : MysqlTime} (valid : t.ValidDateOrDatetime) {intType : IntervalType}
    (months : intType = .yearMonth ∨ intType = .quarter ∨ intType = .month) (i : Interval)
    (fits : i.year.toNat * 12 + i.month.toNat < 2 ^ 62) :
    if 0 ≤ monthNumberAfter t i ∧ monthNumberAfter t i < 120000 then
      dateAddInterval t intType i = (t.atMonthNumber (monthNumberAfter t i).toNat, false)
    else (dateAddInterval t intType i).2 = true := by
  have period : (((t.year * 12 % 2 ^ 32 : Nat) : Int) + (if i.neg = t.neg then 1 else -1) * i.year.toNat * 12 +
      t.month - 1 + (if i.neg = t.neg then 1 else -1) * i.month.toNat).bmod (2 ^ 64) =
      monthNumberAfter t i := by
    have := valid.year_le
    have := valid.date.month_pos
    have := valid.date.month_le
    unfold monthNumberAfter Interval.signedMonths
    rw [valid.not_neg]
    rw [Int.bmod_eq_of_le (by split <;> simp at * <;> omega) (by split <;> simp at * <;> omega)]
    split <;> simp_all <;> omega
  unfold dateAddInterval
  dsimp only
  rw [addBySwitch_of_months months]
  unfold addMonths
  rw [period]
  dsimp only
  by_cases inRange : 0 ≤ monthNumberAfter t i ∧ monthNumberAfter t i < 120000
  · rw [if_pos inRange, if_neg (by omega)]
    obtain ⟨n, number⟩ : ∃ n : Nat, monthNumberAfter t i = n := ⟨(monthNumberAfter t i).toNat, by omega⟩
    rw [number] at inRange ⊢
    have clip := clippedDay_eq_min (show 1 ≤ n % 12 + 1 by omega) (show n % 12 + 1 ≤ 12 by omega) (n / 12) t.day
    simp only [Int.toNat_natCast, show ((n : Int) / 12).toNat = n / 12 by omega,
      show ((n : Int) % 12).toNat = n % 12 by omega, Nat.add_sub_cancel]
    simp only [Nat.add_sub_cancel] at clip
    have notTime : t.timeType ≠ .time := by rcases valid.timeType_mem with h | h <;> rw [h] <;> decide
    unfold MysqlTime.atMonthNumber
    split_ifs at clip ⊢ <;> simp only [← clip, SwitchEnd.result, notTime, decide_false]
  · rw [if_neg inRange, if_pos (by omega)]
    rfl

/-- Where nothing wraps, `date_add_interval` is the calendar arithmetic it is
meant to do: the day-to-microsecond intervals move the count of microseconds
since day 0 and the month intervals the count of months, and a sum past the
supported dates is an error. -/
theorem dateAddInterval_exact {t : MysqlTime} (valid : t.ValidDateOrDatetime) (i : Interval) :
    (∀ intType : IntervalType, intType.isDayTime → t.usecSinceDay0 + i.usec < 2 ^ 63 →
      if 366 * 86400000000 ≤ t.usecSinceDay0 + i.signedUsec ∧
          t.usecSinceDay0 + i.signedUsec < (maxDayNumber + 1) * 86400000000 then
        (dateAddInterval t intType i).2 = false ∧ (dateAddInterval t intType i).1.ValidDateOrDatetime ∧
          (dateAddInterval t intType i).1.usecSinceDay0 = t.usecSinceDay0 + i.signedUsec
      else (dateAddInterval t intType i).2 = true) ∧
      (∀ intType : IntervalType, (intType = .yearMonth ∨ intType = .quarter ∨ intType = .month) →
        i.year.toNat * 12 + i.month.toNat < 2 ^ 62 →
        if 0 ≤ monthNumberAfter t i ∧ monthNumberAfter t i < 120000 then
          dateAddInterval t intType i = (t.atMonthNumber (monthNumberAfter t i).toNat, false)
        else (dateAddInterval t intType i).2 = true) :=
  ⟨fun _ dayTime fits => dateAddInterval_dayTime valid dayTime i fits,
    fun _ months fits => dateAddInterval_months valid months i fits⟩

/-- One month after 2024-01-31 is 2024-02-29. -/
theorem dateAddInterval_exact_leapMonth :
    (⟨2024, 1, 31, 0, 0, 0, 0, false, .date⟩ : MysqlTime).ValidDateOrDatetime ∧
      dateAddInterval ⟨2024, 1, 31, 0, 0, 0, 0, false, .date⟩ .month ⟨0, 1, 0, 0, 0, 0, 0, false⟩ =
        (⟨2024, 2, 29, 0, 0, 0, 0, false, .date⟩, false) := by
  have valid : (⟨2024, 1, 31, 0, 0, 0, 0, false, .date⟩ : MysqlTime).ValidDateOrDatetime := by decide
  have months := (dateAddInterval_exact valid ⟨0, 1, 0, 0, 0, 0, 0, false⟩).2 .month (.inr (.inr rfl)) (by decide)
  rw [if_pos (by decide)] at months
  exact ⟨valid, months.trans (by decide)⟩

/-! ## The wrap of `COMBINE(&interval)` -/

/-- `2000-01-01` plus `INTERVAL 18446744073709551615 MICROSECOND`: the guard
does not look at the microseconds, `COMBINE(&interval)` is `2^64-1`, and the
sum wraps to one microsecond before the date, which comes back as a success
although the sum is past 9999-12-31. `INTERVAL 18446744073709551615 MONTH`
goes one month back the same way, through `(long) interval.month`. -/
theorem dateAddInterval_wraps :
    (⟨2000, 1, 1, 0, 0, 0, 0, false, .datetime⟩ : MysqlTime).ValidDateOrDatetime ∧
      dateAddInterval ⟨2000, 1, 1, 0, 0, 0, 0, false, .datetime⟩ .microsecond
          ⟨0, 0, 0, 0, 0, 0, 18446744073709551615, false⟩ =
        (⟨1999, 12, 31, 23, 59, 59, 999999, false, .datetime⟩, false) ∧
      (maxDayNumber + 1) * 86400000000 ≤
        (⟨2000, 1, 1, 0, 0, 0, 0, false, .datetime⟩ : MysqlTime).usecSinceDay0 +
          (⟨0, 0, 0, 0, 0, 0, 18446744073709551615, false⟩ : Interval).signedUsec ∧
      dateAddInterval ⟨2000, 1, 31, 0, 0, 0, 0, false, .date⟩ .month
          ⟨0, 18446744073709551615, 0, 0, 0, 0, 0, false⟩ =
        (⟨1999, 12, 31, 0, 0, 0, 0, false, .date⟩, false) ∧
      120000 ≤ monthNumberAfter ⟨2000, 1, 31, 0, 0, 0, 0, false, .date⟩
        ⟨0, 18446744073709551615, 0, 0, 0, 0, 0, false⟩ :=
  ⟨by decide, by decide +kernel, by decide +kernel, by decide +kernel, by decide +kernel⟩

end MariaDB.Temporal
