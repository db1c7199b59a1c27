set_option autoImplicit false

/- The temporal values of include/mysql_time.h and include/my_time.h. -/
namespace MariaDB.Temporal

/-- `enum enum_mysql_timestamp_type`. -/
inductive TimestampType where
  | none
  | error
  | date
  | datetime
  | time
  deriving Repr, DecidableEq

/-- `MYSQL_TIME`. A TIME keeps its days in `day` until it is packed, which
folds them into `hour`. -/
structure MysqlTime where
  year : Nat
  month : Nat
  day : Nat
  hour : Nat
  minute : Nat
  second : Nat
  secondPart : Nat
  neg : Bool
  timeType : TimestampType
  deriving Repr, DecidableEq

/-- `struct my_timeval`. -/
structure MyTimeval where
  tvSec : Int
  tvUsec : Nat
  deriving Repr, DecidableEq

/-- `TIME_MAX_HOUR`. -/
def timeMaxHour : Nat := 838

/-- `TIME_SECOND_PART_DIGITS`. -/
def timeSecondPartDigits : Nat := 6

/-- `YY_PART_YEAR`: two-digit years below it are in the 2000s. -/
def yyPartYear : Nat := 70

end MariaDB.Temporal
