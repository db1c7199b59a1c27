import MariaDB.Temporal.Parse

set_option autoImplicit false

/- Day numbers of sql-common/my_time.c and sql/sql_time.cc: `calc_daynr`
counts the days since 0000-00-00, `get_date_from_daynr` turns a number back
into a date, and `calc_weekday` and `calc_week` read weeks off the numbers.
The years are those of `calc_days_in_year`, where year 0 is not a leap
year. `long` arithmetic is exact here: the years are at most 9999. -/
namespace MariaDB.Temporal

/-- `calc_daynr(year, month, day)`: `y` and `temp` are `int`, `delsum` a
`long`, all divisions truncating. -/
def calcDaynr (year month day : Nat) : Int :=
  let y : Int := year
  if y = 0 ∧ month = 0 then 0
  else
    let delsum : Int := 365 * y + 31 * ((month : Int) - 1) + day
    let (y, delsum) :=
      if month ≤ 2 then (y - 1, delsum) else (y, delsum - ((month : Int) * 4 + 23).tdiv 10)
    let temp := ((y.tdiv 100 + 1) * 3).tdiv 4
    delsum + y.tdiv 4 - temp

/-- `calc_weekday(daynr, sunday_first_day_of_week)`: 0 for Monday, or for
Sunday with the flag. -/
def calcWeekday (daynr : Int) (sundayFirstDayOfWeek : Bool) : Int :=
  (daynr + 5 + if sundayFirstDayOfWeek then 1 else 0).tmod 7

/-- `MAX_DAY_NUMBER`, the number of 9999-12-31. -/
def maxDayNumber : Int := 3652424

/-- The year loop of `get_date_from_daynr`: while the day of the year lies
past the year, go to the next year. The year, the day of the year, and
`days_in_year` of the year it stops at; the day of the year is fuel enough. -/
def daynrYearLoop : Nat → Nat → Nat → Nat × Nat × Nat
  | 0, year, dayOfYear => (year, dayOfYear, calcDaysInYear year)
  | fuel + 1, year, dayOfYear =>
    let daysInYear := calcDaysInYear year
    if dayOfYear > daysInYear then daynrYearLoop fuel (year + 1) (dayOfYear - daysInYear)
    else (year, dayOfYear, daysInYear)

/-- The month loop of `get_date_from_daynr` over `days_in_month`: the month
and the day in it. Past the table C reads on; a day of a year never gets
there. -/
def daynrMonthLoop : List Nat → Nat → Nat → Nat × Nat
  | [], month, dayOfYear => (month, dayOfYear)
  | l :: ls, month, dayOfYear =>
    if dayOfYear > l then daynrMonthLoop ls (month + 1) (dayOfYear - l) else (month, dayOfYear)

/-- `get_date_from_daynr(daynr, &year, &month, &day)`: `none` where it
returns 1. `year`, `temp` and `day_of_year` are `uint`; past the range
check `year` is at least 1. -/
def getDateFromDaynr (daynr : Int) : Option (Nat × Nat × Nat) :=
  if daynr < 366 ∨ daynr > maxDayNumber then none
  else
    let year := (daynr * 100 / 36525).toNat
    let temp := ((year - 1) / 100 + 1) * 3 / 4
    let dayOfYear := ((daynr - year * 365 - ((year - 1) / 4 : Nat) + temp) % 2 ^ 32).toNat
    let (year, dayOfYear, daysInYear) := daynrYearLoop dayOfYear year dayOfYear
    -- the leap day is taken out, and put back on February 29
    let (dayOfYear, leapDay) :=
      if daysInYear = 366 ∧ dayOfYear > 31 + 28 then
        (dayOfYear - 1, if dayOfYear - 1 = 31 + 28 then 1 else 0)
      else (dayOfYear, 0)
    let (month, dayOfYear) := daynrMonthLoop daysInMonth 1 dayOfYear
    some (year, month, dayOfYear + leapDay)

/-- `WEEK_MONDAY_FIRST`. -/
def weekMondayFirst : Nat := 1

/-- `WEEK_YEAR`. -/
def weekYear : Nat := 2

/-- `WEEK_FIRST_WEEKDAY`. -/
def weekFirstWeekday : Nat := 4

/-- `calc_week(l_time, week_behaviour, &year)`: the week and the year it
belongs to. `daynr` and `first_daynr` are `ulong`, `days` and `weekday`
`uint`. -/
def calcWeek (lTime : MysqlTime) (weekBehaviour : Nat) : Nat × Nat :=
  let daynr := calcDaynr lTime.year lTime.month lTime.day
  let firstDaynr := calcDaynr lTime.year 1 1
  let mondayFirst := weekBehaviour &&& weekMondayFirst ≠ 0
  let weekYear := weekBehaviour &&& weekYear ≠ 0
  let firstWeekday := weekBehaviour &&& weekFirstWeekday ≠ 0
  let weekday := (calcWeekday firstDaynr !mondayFirst).toNat
  let year := lTime.year
  -- the first days of January may belong to the last week of the year before
  let early := lTime.month = 1 ∧ lTime.day ≤ 7 - weekday
  if early ∧ ¬ weekYear ∧ ((firstWeekday ∧ weekday ≠ 0) ∨ (¬ firstWeekday ∧ weekday ≥ 4)) then
    (0, year)
  else
    let (weekYear, year, firstDaynr, weekday) :=
      if early then
        let year := (((year : Int) - 1) % 2 ^ 32).toNat
        let days := calcDaysInYear year
        (true, year, firstDaynr - days, (weekday + 53 * 7 - days) % 7)
      else (weekYear, year, firstDaynr, weekday)
    let days : Nat :=
      if (firstWeekday ∧ weekday ≠ 0) ∨ (¬ firstWeekday ∧ weekday ≥ 4) then
        ((daynr - (firstDaynr + (7 - weekday : Nat))) % 2 ^ 32).toNat
      else ((daynr - (firstDaynr - weekday)) % 2 ^ 32).toNat
    if weekYear ∧ days ≥ 52 * 7 then
      let weekday := (weekday + calcDaysInYear year) % 7
      if (¬ firstWeekday ∧ weekday < 4) ∨ (firstWeekday ∧ weekday = 0) then (1, (year + 1) % 2 ^ 32)
      else (days / 7 + 1, year)
    else (days / 7 + 1, year)

end MariaDB.Temporal
