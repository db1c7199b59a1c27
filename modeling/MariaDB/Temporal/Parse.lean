import MariaDB.Temporal.Text

set_option autoImplicit false

/- The text parsers of sql-common/my_time.c. `find_body` strips the blanks, the
sign and trailing garbage; `str_to_datetime_or_date_body` reads a DATE or
DATETIME, either as one run of digits or as numbers between punctuation; and
`str_to_DDhhmmssff_internal` reads a TIME as `[DD ]hh:mm:ss.ffffff`. The parser
of a value that may be a TIME first guesses whether the text is a DATETIME and
falls back to the TIME reader when the date reader stops in a way a TIME
explains. A pointer into the string is the rest of the string after it. -/
namespace MariaDB.Temporal

open MariaDB.Decimal (latin1IsDigit latin1IsSpace digitValue)

/-! ## Constants of include/my_time.h -/

/-- `MYSQL_TIME_WARN_TRUNCATED`. -/
def mysqlTimeWarnTruncated : Nat := 1

/-- `MYSQL_TIME_WARN_OUT_OF_RANGE`. -/
def mysqlTimeWarnOutOfRange : Nat := 2

/-- `MYSQL_TIME_WARN_EDOM`. -/
def mysqlTimeWarnEdom : Nat := 4

/-- `MYSQL_TIME_WARN_ZERO_DATE`. -/
def mysqlTimeWarnZeroDate : Nat := 8

/-- `MYSQL_TIME_NOTE_TRUNCATED`. -/
def mysqlTimeNoteTruncated : Nat := 16

/-- `C_TIME_NO_ZERO_IN_DATE`. -/
def cTimeNoZeroInDate : Nat := 2 ^ 23

/-- `C_TIME_NO_ZERO_DATE`. -/
def cTimeNoZeroDate : Nat := 2 ^ 24

/-- `C_TIME_INVALID_DATES`. -/
def cTimeInvalidDates : Nat := 2 ^ 25

/-- `TIME_MAX_MINUTE`. -/
def timeMaxMinute : Nat := 59

/-- `TIME_MAX_SECOND`. -/
def timeMaxSecond : Nat := 59

/-- `UINT_MAX32`. -/
def uintMax32 : Nat := 4294967295

/-- `time_separator`. -/
def timeSeparator : UInt8 := ':'.toUInt8

/-- `internal_format_positions[7]`, the position of AM/PM, which the default
format has none of. -/
def internalFormatPositions7 : Nat := 255

/-- `days_in_month[]`. -/
def daysInMonth : List Nat := [31, 28, 31, 30, 31, 30, 31, 31, 30, 31, 30, 31, 0]

/-- `max_sec_part[]` of `check_time_range_internal`. -/
def maxSecPart : List Nat := [0, 900000, 990000, 999000, 999900, 999990, 999999]

/-- `my_ispunct(&my_charset_latin1, c)`: the `_MY_PNT` entries of
`ctype_latin1`. -/
def latin1IsPunct (c : UInt8) : Bool :=
  let c := c.toNat
  (33 ≤ c && c ≤ 47) || (58 ≤ c && c ≤ 64) || (91 ≤ c && c ≤ 96) || (123 ≤ c && c ≤ 126) ||
    c == 128 || c == 130 || (132 ≤ c && c ≤ 137) || c == 139 || (145 ≤ c && c ≤ 153) ||
    c == 155 || (161 ≤ c && c ≤ 191) || c == 215 || c == 247

/-- `MYSQL_TIME_STATUS`. -/
structure MysqlTimeStatus where
  warnings : Nat
  precision : Nat
  nanoseconds : Nat
  deriving Repr, DecidableEq

/-- `my_time_status_init(status)`. -/
def myTimeStatusInit : MysqlTimeStatus := ⟨0, 0, 0⟩

/-- `set_zero_time(tm, time_type)`; a `bzero`ed `MYSQL_TIME` is
`set_zero_time(tm, MYSQL_TIMESTAMP_DATE)`. -/
def setZeroTime (timeType : TimestampType) : MysqlTime := ⟨0, 0, 0, 0, 0, 0, 0, false, timeType⟩

/-- `calc_days_in_year(year)`. -/
def calcDaysInYear (year : Nat) : Nat :=
  if year &&& 3 = 0 ∧ (year % 100 ≠ 0 ∨ (year % 400 = 0 ∧ year ≠ 0)) then 366 else 365

/-- `check_date(ltime, not_zero_date, flags, &was_cut)`: `true` for an invalid
date, and the new `*was_cut`. -/
def checkDate (ltime : MysqlTime) (notZeroDate : Bool) (flags wasCut : Nat) : Bool × Nat :=
  if ltime.timeType = .time then (false, wasCut)
  else if notZeroDate then
    if (flags &&& cTimeNoZeroInDate ≠ 0 ∧ (ltime.month = 0 ∨ ltime.day = 0)) ∨ ltime.neg ∨
        (flags &&& cTimeInvalidDates = 0 ∧ ltime.month ≠ 0 ∧
          ltime.day > daysInMonth.getD (ltime.month - 1) 0 ∧
          (ltime.month ≠ 2 ∨ calcDaysInYear ltime.year ≠ 366 ∨ ltime.day ≠ 29)) then (true, 2)
    else (false, wasCut)
  -- a zero date sets no `was_cut` of an invalid one
  else if flags &&& cTimeNoZeroDate ≠ 0 then (true, wasCut ||| mysqlTimeWarnZeroDate)
  else (false, wasCut)

/-! ## Reading numbers -/

/-- The value of the digits `ds` in a `uint`. -/
def uintDigitsValue (ds : List UInt8) : Nat :=
  ds.foldl (fun v c => (v * 10 + digitValue c) % 2 ^ 32) 0

/-- `get_number(&val, &number_of_fields, &str, end)` on the string `str`:
`none` for its `return 1` at a character that is not a digit; otherwise the
value of the digits, if there were any, and the rest. -/
def getNumberAt (str : List UInt8) : Option (Option Nat × List UInt8) :=
  match str with
  | [] => some (none, [])
  | c :: cs =>
    if latin1IsDigit c then
      let ds := (c :: cs).takeWhile latin1IsDigit
      some (some (uintDigitsValue ds), (c :: cs).drop ds.length)
    else none

/-- `get_digits(&val, &number_of_fields, &str, end, length)`: `get_number`
over at most `length` characters. -/
def getDigitsAt (str : List UInt8) (length : Nat) : Option (Option Nat × List UInt8) :=
  (getNumberAt (str.take length)).map fun (v, rest) => (v, rest ++ str.drop length)

/-- `skip_digits(&str, end)`: the number of digits skipped. -/
def skipDigits (str : List UInt8) : Nat := (str.takeWhile latin1IsDigit).length

/-- `get_microseconds(&val, status, &number_of_fields, &str, end)`: the
microseconds from up to six digits, and the new status, number of fields and
rest; the digits past six are skipped. -/
def getMicroseconds (status : MysqlTimeStatus) (numberOfFields : Nat) (str : List UInt8) :
    Nat × MysqlTimeStatus × Nat × List UInt8 :=
  let (failed, tmp, numberOfFields, rest) :=
    match getDigitsAt str 6 with
    | none => (true, 0, numberOfFields, str)
    | some (none, rest) => (false, 0, numberOfFields, rest)
    | some (some v, rest) => (false, v, numberOfFields + 1, rest)
  let status :=
    if failed then { status with warnings := status.warnings ||| mysqlTimeWarnTruncated } else status
  let precision := str.length - rest.length
  let status := { status with precision }
  let val := if precision < 6 then tmp * log10Int (6 - precision) else tmp
  -- the first digit past six is kept for rounding
  let status :=
    match rest with
    | c :: _ => if latin1IsDigit c then { status with nanoseconds := 100 * digitValue c } else status
    | [] => status
  let skipped := skipDigits rest
  let status :=
    if skipped ≠ 0 then { status with warnings := status.warnings ||| mysqlTimeNoteTruncated }
    else status
  (val, status, numberOfFields, rest.drop skipped)

/-! ## `str_to_datetime_or_date_body` -/

/-- The fields of `MYSQL_TIME` that the date reader reads numbers into. -/
inductive TimeField where
  | year | month | day | hour | minute | second
  deriving Repr, DecidableEq

/-- `l_time->field = v`. -/
def MysqlTime.setField (t : MysqlTime) : TimeField → Nat → MysqlTime
  | .year, v => { t with year := v }
  | .month, v => { t with month := v }
  | .day, v => { t with day := v }
  | .hour, v => { t with hour := v }
  | .minute, v => { t with minute := v }
  | .second, v => { t with second := v }

/-- The locals of `str_to_datetime_or_date_body` that its readers change:
`*l_time`, `*number_of_fields` and the rest of the string from `str`. -/
structure DateScan where
  lTime : MysqlTime
  numberOfFields : Nat
  str : List UInt8
  deriving Repr, DecidableEq

/-- A reader of the date scanner: `true` for its `return 1`. -/
abbrev DateReader := DateScan → Bool × DateScan

/-- `get_number(&l_time->field, number_of_fields, &str, end)`. -/
def getNumber (field : TimeField) : DateReader := fun s =>
  match getNumberAt s.str with
  | none => (true, s)
  | some (none, _) => (false, s)
  | some (some v, rest) =>
    (false, { lTime := s.lTime.setField field v, numberOfFields := s.numberOfFields + 1, str := rest })

/-- `get_digits(&l_time->field, number_of_fields, &str, end, length)`. -/
def getDigits (field : TimeField) (length : Nat) : DateReader := fun s =>
  match getDigitsAt s.str length with
  | none => (true, s)
  | some (none, _) => (false, s)
  | some (some v, rest) =>
    (false, { lTime := s.lTime.setField field v, numberOfFields := s.numberOfFields + 1, str := rest })

/-- `get_punct(&str, end)`. -/
def getPunct : DateReader := fun s =>
  match s.str with
  | [] => (false, s)
  | c :: cs => if latin1IsPunct c then (false, { s with str := cs }) else (true, s)

/-- `get_date_time_separator(number_of_fields, punct_is_date_time_separator,
&str, end)`: a `T`, one punctuation character where it may separate the date
from the time, or blanks. -/
def getDateTimeSeparator (punctIsDateTimeSeparator : Bool) : DateReader := fun s =>
  match s.str with
  | [] => (false, s)
  | c :: cs =>
    if c = 'T'.toUInt8 then (false, { s with str := cs })
    else if latin1IsPunct c then
      -- a hard abort: the fields read so far do not count
      if !punctIsDateTimeSeparator then (true, { s with numberOfFields := 0 })
      else (false, { s with str := cs })
    else if !latin1IsSpace c then (true, s)
    else (false, { s with str := cs.dropWhile latin1IsSpace })

/-- `get_maybe_T(&str, end)`. -/
def getMaybeT : DateReader := fun s =>
  match s.str with
  | c :: cs => if c = 'T'.toUInt8 then (false, { s with str := cs }) else (false, s)
  | [] => (false, s)

/-- `r1(..) || r2(..) || ...`: the readers in turn, up to the first that
returns 1. -/
def scanFields : List DateReader → DateReader
  | [], s => (false, s)
  | r :: rs, s =>
    match r s with
    | (true, s) => (true, s)
    | (false, s) => scanFields rs s

/-- The digits `str_to_datetime_or_date_body` counts to recognise the internal
format `[YY]YYMMDD[T][hhmmss[.uuuuuu]]`: their number, and whether they run to
the end of the string. -/
def dateBodyDigits (str : List UInt8) : Nat × Bool :=
  let digits := skipDigits str
  let pos := str.drop digits
  let (digits, pos) :=
    match pos with
    | c :: cs =>
      if c = 'T'.toUInt8 then (digits + skipDigits cs, cs.drop (skipDigits cs)) else (digits, pos)
    | [] => (digits, pos)
  let pos :=
    match pos with
    | c :: cs => if c = '.'.toUInt8 ∧ digits ≥ 12 then cs.drop (skipDigits cs) else pos
    | [] => pos
  (digits, pos = [])

/-- The readers of the internal format, with the year in four digits for 4, 8
or at least 14 digits and in two otherwise: whether one failed, and the year
length. -/
def dateBodyInternal (digits : Nat) (s : DateScan) : Bool × DateScan × Nat :=
  let yearLength := if digits = 4 ∨ digits = 8 ∨ digits ≥ 14 then 4 else 2
  let (failed, s) :=
    scanFields [getDigits .year yearLength, getDigits .month 2, getDigits .day 2, getMaybeT,
      getDigits .hour 2, getDigits .minute 2, getDigits .second 2] s
  (failed, s, yearLength)

/-- The readers of a date with delimiters: the year with as many digits as it
has, then the other numbers between punctuation. -/
def dateBodyDelimited (punctIsDateTimeSeparator : Bool) (s : DateScan) : Bool × DateScan × Nat :=
  let start := s.str
  let (failed, s) := getNumber .year s
  let yearLength := start.length - s.str.length
  if failed then (true, s, yearLength)
  else
    let (failed, s) :=
      scanFields [getPunct, getNumber .month, getPunct, getNumber .day,
        getDateTimeSeparator punctIsDateTimeSeparator, getNumber .hour, getPunct,
        getNumber .minute, getPunct, getNumber .second] s
    (failed, s, yearLength)

/-- The result of `str_to_datetime_or_date_body`: what it returns, `*l_time`,
the status, `*number_of_fields`, and `*endptr` as the rest of the string. -/
structure DateBodyResult where
  ret : Bool
  lTime : MysqlTime
  status : MysqlTimeStatus
  numberOfFields : Nat
  endptr : List UInt8
  deriving Repr, DecidableEq

/-- Whether any field of a date read so far is not zero. -/
def MysqlTime.notZeroDate (t : MysqlTime) : Bool :=
  t.year ≠ 0 ∨ t.month ≠ 0 ∨ t.day ≠ 0 ∨ t.hour ≠ 0 ∨ t.minute ≠ 0 ∨ t.second ≠ 0 ∨
    t.secondPart ≠ 0

/-- The end of `str_to_datetime_or_date_body` once three fields were read:
the fraction, the two-digit year, the range checks and `check_date`. -/
def dateBodyFinish (flags : Nat) (warn : Bool) (status : MysqlTimeStatus) (s : DateScan)
    (yearLength : Nat) : DateBodyResult :=
  let (lTime, status, numberOfFields, str) :=
    match s.str with
    | c :: cs =>
      if !warn ∧ c = '.'.toUInt8 then
        let (secondPart, status, numberOfFields, str) := getMicroseconds status s.numberOfFields cs
        ({ s.lTime with secondPart }, status, numberOfFields, str)
      else (s.lTime, status, s.numberOfFields, s.str)
    | [] => (s.lTime, status, s.numberOfFields, s.str)
  let notZeroDate := lTime.notZeroDate
  let lTime :=
    if yearLength = 2 ∧ notZeroDate then
      { lTime with year := lTime.year + if lTime.year < yyPartYear then 2000 else 1900 }
    else lTime
  if lTime.year > 9999 ∨ lTime.month > 12 ∨ lTime.day > 31 ∨ lTime.hour > 23 ∨
      lTime.minute > 59 ∨ lTime.second > 59 then
    ⟨true, setZeroTime .error,
      { status with warnings := status.warnings ||| mysqlTimeWarnTruncated }, numberOfFields, str⟩
  else
    let (bad, wasCut) := checkDate lTime notZeroDate flags status.warnings
    let status := { status with warnings := wasCut }
    if bad then ⟨true, setZeroTime .error, status, numberOfFields, str⟩
    else
      let lTime := { lTime with timeType := if numberOfFields ≤ 3 then .date else .datetime }
      -- garbage after the value replaces the warnings
      let status := if str ≠ [] then { status with warnings := mysqlTimeWarnTruncated } else status
      ⟨false, lTime, status, numberOfFields, str⟩

/-- `str_to_datetime_or_date_body(str, length, l_time, flags,
punct_is_date_time_separator, status, &number_of_fields, &endptr)`. -/
def strToDatetimeOrDateBody (str : List UInt8) (flags : Nat) (punctIsDateTimeSeparator : Bool)
    (status : MysqlTimeStatus) : DateBodyResult :=
  let s : DateScan := ⟨setZeroTime .date, 0, str⟩
  let (digits, allDigits) := dateBodyDigits str
  let (warn, s, yearLength) :=
    if allDigits then dateBodyInternal digits s else dateBodyDelimited punctIsDateTimeSeparator s
  let status :=
    { status with warnings := status.warnings ||| if warn then mysqlTimeWarnTruncated else 0 }
  if s.numberOfFields < 3 then
    ⟨true, { s.lTime with timeType := .none },
      { status with warnings := status.warnings ||| mysqlTimeWarnTruncated }, s.numberOfFields, s.str⟩
  else dateBodyFinish flags warn status s yearLength

/-! ## `str_to_DDhhmmssff_internal` -/

/-- The days loop of `str_to_DDhhmmssff_internal`: the value of the digits,
or `none` once it reaches `UINT_MAX32 : 59 : 59`, and the rest. -/
def ddDaysValue : List UInt8 → Nat → Option Nat × List UInt8
  | [], value => (some value, [])
  | c :: cs, value =>
    if latin1IsDigit c then
      let value := value * 10 + digitValue c
      if value ≥ 42949672955959 then (none, cs) else ddDaysValue cs value
    else (some value, c :: cs)

/-- The value of the leading digits in a `ulonglong`, and the rest. -/
def ulonglongDigits (str : List UInt8) : Nat × List UInt8 :=
  let ds := str.takeWhile latin1IsDigit
  (ds.foldl (fun v c => (v * 10 + digitValue c) % 2 ^ 64) 0, str.drop ds.length)

/-- The loop of `str_to_DDhhmmssff_internal` that reads `date[state]` on, up to
the seconds or the first number not followed by `:` and a digit. -/
def ddHmsLoop : Nat → List Nat → Nat → List UInt8 → List Nat × Nat × List UInt8
  | 0, date, state, str => (date, state, str)
  | fuel + 1, date, state, str =>
    let (value, str) := ulonglongDigits str
    let date := date.set state value
    let state := state + 1
    match str with
    | c :: d :: rest =>
      if state = 4 ∨ c ≠ timeSeparator ∨ !latin1IsDigit d then (date, state, str)
      else ddHmsLoop fuel date state (d :: rest)
    | _ => (date, state, str)

/-- `check_time_range_internal(ltime, max_hour, err_hour, dec, &warning)`:
`true` for an invalid time; a time past `max_hour` is cut to
`max_hour:59:59.999999`. -/
def checkTimeRangeInternal (t : MysqlTime) (maxHour errHour dec warning : Nat) :
    Bool × MysqlTime × Nat :=
  if t.minute ≥ 60 ∨ t.second ≥ 60 ∨ t.hour > errHour then
    (true, t, warning ||| mysqlTimeWarnTruncated)
  else
    let hour := t.hour + 24 * t.day
    let dec := if dec = autoSecPartDigits then timeSecondPartDigits else dec
    if hour ≤ maxHour ∧ (hour ≠ maxHour ∨ t.minute ≠ timeMaxMinute ∨ t.second ≠ timeMaxSecond ∨
        t.secondPart ≤ maxSecPart.getD dec 0) then (false, t, warning)
    else
      (false, { t with day := 0, hour := maxHour, minute := timeMaxMinute, second := timeMaxSecond,
                       secondPart := maxSecPart.getD dec 0 },
        warning ||| mysqlTimeWarnOutOfRange)

/-- The result of `str_to_DDhhmmssff_internal`: what it returns, `*l_time`,
the status, and `*endptr` as the rest of the string. -/
structure TimeBodyResult where
  ret : Bool
  lTime : MysqlTime
  status : MysqlTimeStatus
  endptr : List UInt8
  deriving Repr, DecidableEq

/-- The days, hours, minutes and seconds of `str_to_DDhhmmssff_internal`, as
`date[0..3]`, and the rest of the string; `none` for an out of range number of
days. -/
def ddhhmmss (str : List UInt8) : Option (List Nat × List UInt8) :=
  match ddDaysValue str 0 with
  | (none, _) => none
  | (some value, str) =>
    let endOfDays := str
    let str := str.dropWhile latin1IsSpace
    let foundDays := decide (1 < str.length) && str.length ≠ endOfDays.length &&
      latin1IsDigit (str.headD 0)
    if foundDays then
      let (date, state, str) := ddHmsLoop 4 [value, 0, 0, 0, 0] 1 str
      some ((date.take state ++ List.replicate (4 - state) 0), str)
    else
      match str with
      | c :: d :: rest =>
        if c = timeSeparator ∧ latin1IsDigit d then
          if value ≥ uintMax32 then none
          else
            let (date, state, str) := ddHmsLoop 4 [0, value, 0, 0, 0] 2 (d :: rest)
            some ((date.take state ++ List.replicate (4 - state) 0), str)
        else some ([0, value / 10000, value / 100 % 100, value % 100], str)
      -- one number: `HHMMSS`
      | _ => some ([0, value / 10000, value / 100 % 100, value % 100], str)

/-- `str_to_DDhhmmssff_internal(neg, str, length, l_time, max_hour, err_hour,
status, &endptr)`. With the days or the hours found the loop's unread fields
are zero; the branch of `bmove_upp`, for neither, is never taken. -/
def strToDDhhmmssffInternal (neg : Bool) (str : List UInt8) (maxHour errHour : Nat)
    (status : MysqlTimeStatus) : TimeBodyResult :=
  let err (status : MysqlTimeStatus) (warning : Nat) (str : List UInt8) : TimeBodyResult :=
    ⟨true, { setZeroTime .date with neg }, { status with warnings := status.warnings ||| warning },
      str⟩
  match ddhhmmss str with
  | none => err status mysqlTimeWarnOutOfRange str
  | some (date, str) =>
    let (secondPart, status, str) :=
      match str with
      | c :: cs =>
        if c = '.'.toUInt8 then
          let (v, status, _, str) := getMicroseconds status 0 cs
          (v, status, str)
        else (0, status, str)
      | [] => (0, status, str)
    -- an exponent, as `%g` may print a time
    let exponent : Bool :=
      match str with
      | e :: c :: rest =>
        (e == 'e'.toUInt8 || e == 'E'.toUInt8) &&
          (latin1IsDigit c || ((c == '-'.toUInt8 || c == '+'.toUInt8) && latin1IsDigit (rest.headD 0)))
      | _ => false
    if exponent then err status mysqlTimeWarnTruncated str
    else
      let hourSet (date : List Nat) (h : Nat) : List Nat := date.set 1 h
      let (date, str) :=
        if internalFormatPositions7 ≠ 255 then
          let str := str.dropWhile latin1IsSpace
          match str with
          | a :: m :: rest =>
            if m = 'M'.toUInt8 ∨ m = 'm'.toUInt8 then
              if a = 'p'.toUInt8 ∨ a = 'P'.toUInt8 then (hourSet date (date.getD 1 0 % 12 + 12), rest)
              else if a = 'a'.toUInt8 ∨ a = 'A'.toUInt8 then (date, rest)
              else (date, str)
            else (date, str)
          | _ => (date, str)
        else (date, str)
      let d (i : Nat) := date.getD i 0
      if d 0 > uintMax32 ∨ d 1 > uintMax32 ∨ d 2 > uintMax32 ∨ d 3 > uintMax32 ∨
          secondPart > uintMax32 then err status mysqlTimeWarnOutOfRange str
      else if d 0 * 24 + d 1 > uintMax32 then err status mysqlTimeWarnOutOfRange str
      else
        let lTime : MysqlTime := ⟨0, 0, 0, d 1 + d 0 * 24, d 2, d 3, secondPart, neg, .time⟩
        match checkTimeRangeInternal lTime maxHour errHour 6 status.warnings with
        | (true, lTime, warnings) => ⟨true, lTime, { status with warnings }, str⟩
        | (false, lTime, warnings) =>
          let warnings := if str ≠ [] then warnings ||| mysqlTimeWarnTruncated else warnings
          ⟨false, lTime, { status with warnings }, str⟩

/-! ## The entry points -/

/-- `mysql_time_used_char_statistics_init(to, str, end)`: the punctuation,
colons and `T`s of the text the date reader used. -/
structure UsedCharStatistics where
  countPunct : Nat
  countColon : Nat
  countIsoDateTimeSeparator : Nat
  deriving Repr, DecidableEq

/-- `mysql_time_used_char_statistics_init(to, str, end)`. -/
def usedCharStatistics (used : List UInt8) : UsedCharStatistics :=
  ⟨used.countP latin1IsPunct, used.count ':'.toUInt8, used.count 'T'.toUInt8⟩

/-- The loop of `is_datetime_body_candidate`. -/
def candidateScan (allowDatesDelimited allowDatesNumeric : Bool) : List UInt8 → Nat → Bool
  | [], countPunct => allowDatesNumeric && countPunct == 0
  | c :: cs, countPunct =>
    if c = 'T'.toUInt8 then true
    -- a blank separates a date from a time only after a separator
    else if c = ' '.toUInt8 then 0 < countPunct
    else if latin1IsPunct c then
      if allowDatesDelimited ∧ c ≠ ':'.toUInt8 then true
      else candidateScan allowDatesDelimited allowDatesNumeric cs (countPunct + 1)
    else candidateScan allowDatesDelimited allowDatesNumeric cs countPunct

/-- `is_datetime_body_candidate(str, length, allow_dates_delimited,
allow_dates_numeric)`. -/
def isDatetimeBodyCandidate (str : List UInt8) (allowDatesDelimited allowDatesNumeric : Bool) :
    Bool :=
  let minDateLength := 5
  let dateTimeSeparatorLength := if allowDatesDelimited then 0 else 1
  if str.length ≥ 12 then true
  else if str.length < minDateLength + dateTimeSeparatorLength ∧ !allowDatesNumeric then false
  else candidateScan allowDatesDelimited allowDatesNumeric str 0

/-- What `str_to_datetime_or_date_or_time_body` makes of the date reader's
result: `some` of its result where it returns it, `none` where the text may
still be a TIME. -/
def datetimeOrTime (allowDatesNumeric : Bool) (str : List UInt8) (r : DateBodyResult) :
    Option (Bool × MysqlTime × MysqlTimeStatus) :=
  let used := usedCharStatistics (str.take (str.length - r.endptr.length))
  match r.lTime.timeType with
  | .datetime => some (false, r.lTime, r.status)
  -- `24:02:03` is a TIME, `24-02-03` and `24:02:03T` are DATEs
  | .date =>
    if used.countIsoDateTimeSeparator ≠ 0 ∨ used.countColon = 0 then some (false, r.lTime, r.status)
    else none
  | .error =>
    if r.numberOfFields > 3 then some (true, r.lTime, r.status)
    else if used.countIsoDateTimeSeparator ≠ 0 ∨ used.countColon = 0 then
      some (true, r.lTime, r.status)
    else none
  | .none =>
    if allowDatesNumeric ∧ r.endptr = [] ∧ used.countIsoDateTimeSeparator = 0 ∧
        used.countColon = 0 ∧ used.countPunct = 0 then some (true, r.lTime, r.status)
    else none
  | .time => none

/-- `str_to_datetime_or_date_or_time_body(str, length, l_time, fuzzydate,
status, time_max_hour, time_err_hour, allow_dates_delimited,
allow_dates_numeric)`: what it returns, `*l_time` and the status. -/
def strToDatetimeOrDateOrTimeBody (str : List UInt8) (fuzzydate : Nat) (status : MysqlTimeStatus)
    (timeMaxHour timeErrHour : Nat) (allowDatesDelimited allowDatesNumeric : Bool) :
    Bool × MysqlTime × MysqlTimeStatus :=
  let tryTime (status : MysqlTimeStatus) : Bool × MysqlTime × MysqlTimeStatus :=
    let r := strToDDhhmmssffInternal false str timeMaxHour timeErrHour status
    if !r.ret then (false, r.lTime, r.status) else (true, setZeroTime .error, r.status)
  if isDatetimeBodyCandidate str allowDatesDelimited allowDatesNumeric then
    let r := strToDatetimeOrDateBody str fuzzydate false status
    match datetimeOrTime allowDatesNumeric str r with
    | some result => result
    | none => tryTime { myTimeStatusInit with warnings := status.warnings }
  else tryTime status

/-- `get_suffix` over the string reversed: whether garbage was cut, and the
string kept, reversed. A `T` right after a digit is kept. -/
def getSuffixRev : List UInt8 → Bool → Bool × List UInt8
  | [], garbage => (garbage, [])
  | ch :: rest, garbage =>
    if latin1IsDigit ch ∨ latin1IsPunct ch then (garbage, ch :: rest)
    else if latin1IsSpace ch then getSuffixRev rest garbage
    else if ch = 'T'.toUInt8 ∧ latin1IsDigit (rest.headD 0) ∧ rest ≠ [] then (garbage, ch :: rest)
    else getSuffixRev rest true

/-- `get_suffix(str, length, &new_length)`: whether trailing garbage was cut,
and the string without its trailing blanks and garbage. -/
def getSuffix (str : List UInt8) : Bool × List UInt8 :=
  let (garbage, kept) := getSuffixRev str.reverse false
  (garbage, kept.reverse)

/-- `find_body(&neg, str, length, to, &warn, &str, &length)`: `true` where the
body does not start with a digit, the sign, the new `*warn`, and the body. -/
def findBody (str : List UInt8) : Bool × Bool × Nat × List UInt8 :=
  let str := str.dropWhile latin1IsSpace
  let (neg, str) :=
    match str with
    | c :: cs => if c = '-'.toUInt8 then (true, cs) else if c = '+'.toUInt8 then (false, cs) else (false, str)
    | [] => (false, str)
  -- there may be blanks after the sign: `- 10:20:30`
  let str := str.dropWhile latin1IsSpace
  let (garbage, str) := getSuffix str
  let warn := if garbage then mysqlTimeWarnTruncated else 0
  if latin1IsDigit (str.headD 0) ∧ str ≠ [] then (false, neg, warn, str)
  else (true, neg, warn ||| mysqlTimeWarnEdom, str)

/-- `set_neg(neg, st, ltime)`: only a TIME may be negative. -/
def setNeg (neg : Bool) (st : MysqlTimeStatus) (ltime : MysqlTime) :
    Bool × MysqlTime × MysqlTimeStatus :=
  let ltime := { ltime with neg }
  if neg ∧ ltime.timeType ≠ .time then
    (true, ltime, { st with warnings := st.warnings ||| mysqlTimeWarnOutOfRange })
  else (false, ltime, st)

/-- `str_to_datetime_or_date_or_time(str, length, to, mode, status,
time_max_hour, time_err_hour)`: what it returns, `*to` and the status. -/
def strToDatetimeOrDateOrTime (str : List UInt8) (mode timeMaxHour timeErrHour : Nat) :
    Bool × MysqlTime × MysqlTimeStatus :=
  match findBody str with
  | (true, _, warn, _) => (true, setZeroTime .error, { myTimeStatusInit with warnings := warn })
  | (false, neg, warn, body) =>
    match strToDatetimeOrDateOrTimeBody body mode { myTimeStatusInit with warnings := warn }
        timeMaxHour timeErrHour false false with
    | (true, lTime, status) => (true, lTime, status)
    | (false, lTime, status) => setNeg neg status lTime

/-- `str_to_datetime_or_date(str, length, l_time, flags, status)`: what it
returns, `*l_time` and the status. -/
def strToDatetimeOrDate (str : List UInt8) (flags : Nat) : Bool × MysqlTime × MysqlTimeStatus :=
  match findBody str with
  | (true, _, warn, _) => (true, setZeroTime .error, { myTimeStatusInit with warnings := warn })
  | (false, neg, warn, body) =>
    let r := strToDatetimeOrDateBody body flags true { myTimeStatusInit with warnings := warn }
    if r.ret then (true, r.lTime, r.status) else setNeg neg r.status r.lTime

end MariaDB.Temporal
