import MariaDB.Temporal.Basic
import MariaDB.Decimal.String

set_option autoImplicit false

/- The text forms that sql-common/my_time.c prints for TIME, DATE and DATETIME
values: fixed-width fields of two or four digits from the table
`two_digit_numbers`, the hours of a TIME past 99 in as many digits as they
need, and `digits` digits of the fraction. -/
namespace MariaDB.Temporal

open MariaDB.Decimal (digitChar)

/-- `log_10_int[i]`, for `i < 20`. -/
def log10Int (i : Nat) : Nat := 10 ^ i

/-- `AUTO_SEC_PART_DIGITS`: `DECIMAL_NOT_SPECIFIED`. -/
def autoSecPartDigits : Nat := 39

/-- `two_digit_numbers[val]` as the two characters `int2store` writes: the
digits of `val` below 100, and `XX` above. -/
def twoDigitNumbers (val : Nat) : List UInt8 :=
  if val < 100 then [digitChar (val / 10), digitChar (val % 10)] else ['X'.toUInt8, 'X'.toUInt8]

/-- `fmt_number2((uint8) val, out)`. -/
def fmtNumber2 (val : Nat) : List UInt8 := twoDigitNumbers (val % 256)

/-- `fmt_number4((uint16) val, out)`. -/
def fmtNumber4 (val : Nat) : List UInt8 :=
  let val := val % 65536
  fmtNumber2 (val / 100) ++ fmtNumber2 (val % 100)

/-- `fmt_number6(val, out)`. -/
def fmtNumber6 (val : Nat) : List UInt8 :=
  fmtNumber2 (val / 10000) ++ fmtNumber2 (val % 10000 / 100) ++ fmtNumber2 (val % 10000 % 100)

/-- `fmt_usec(val, out, digits)`. -/
def fmtUsec (val digits : Nat) : List UInt8 :=
  match digits with
  | 1 => [digitChar (val % 10)]
  | 2 => fmtNumber2 val
  | 3 => digitChar (val / 100 % 10) :: fmtNumber2 (val % 100)
  | 4 => fmtNumber4 val
  | 5 => digitChar (val / 10000 % 10) :: fmtNumber4 (val % 10000)
  | 6 => fmtNumber6 val
  | _ => []

/-- `sec_part_shift(second_part, digits)`. -/
def secPartShift (secondPart digits : Nat) : Nat :=
  secondPart / log10Int (timeSecondPartDigits - digits)

/-- The digits the loop of `int10_to_str` writes right to left, the last
digit first; `val + 1` is fuel enough. -/
def int10Digits : Nat → Nat → List UInt8
  | 0, _ => []
  | fuel + 1, val =>
    digitChar (val % 10) :: if val / 10 = 0 then [] else int10Digits fuel (val / 10)

/-- `int10_to_str(val, dst, 10)` of a value that is not negative. -/
def int10ToStr (val : Nat) : List UInt8 := (int10Digits (val + 1) val).reverse

/-- `my_mmssff_to_str(ltime, to, fsp)`. -/
def myMmssffToStr (ltime : MysqlTime) (fsp : Nat) : List UInt8 :=
  let fsp := if fsp = autoSecPartDigits then
      (if ltime.secondPart ≠ 0 then timeSecondPartDigits else 0)
    else fsp
  fmtNumber2 ltime.minute ++ ':'.toUInt8 :: fmtNumber2 ltime.second ++
    if fsp ≠ 0 then
      '.'.toUInt8 :: fmtUsec (secPartShift ltime.secondPart fsp % 2 ^ 32) fsp
    else []

/-- `my_time_to_str(l_time, to, digits)`: the characters before the
terminating zero. -/
def myTimeToStr (lTime : MysqlTime) (digits : Nat) : List UInt8 :=
  let day := if lTime.year ≠ 0 ∨ lTime.month ≠ 0 then 0 else lTime.day
  let hour := (day * 24 + lTime.hour) % 2 ^ 32
  (if lTime.neg then ['-'.toUInt8] else []) ++
    (if hour > 99 then int10ToStr hour else fmtNumber2 hour) ++
    ':'.toUInt8 :: myMmssffToStr lTime digits

/-- `my_date_to_str(l_time, to)`. -/
def myDateToStr (lTime : MysqlTime) : List UInt8 :=
  fmtNumber4 lTime.year ++ '-'.toUInt8 :: fmtNumber2 lTime.month ++ '-'.toUInt8 ::
    fmtNumber2 lTime.day

/-- `my_datetime_to_str(l_time, to, digits)`. -/
def myDatetimeToStr (lTime : MysqlTime) (digits : Nat) : List UInt8 :=
  fmtNumber4 lTime.year ++ '-'.toUInt8 :: fmtNumber2 lTime.month ++ '-'.toUInt8 ::
    fmtNumber2 lTime.day ++ ' '.toUInt8 :: fmtNumber2 lTime.hour ++ ':'.toUInt8 ::
    myMmssffToStr lTime digits

end MariaDB.Temporal
