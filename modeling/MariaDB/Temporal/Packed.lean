import MariaDB.Temporal.Basic
import MariaDB.Bytes.MyIsamPack

set_option autoImplicit false

/- The MySQL 5.6 packed TIME, DATETIME and TIMESTAMP formats of sql/compat56.cc.
In memory a TIME or DATETIME is a `longlong` whose high part holds the packed
fields and whose low 24 bits hold the microseconds; on disk the high part gets an
offset that makes the bytes compare as the values, and the fraction keeps as
many bytes as `dec` needs. -/
namespace MariaDB.Temporal

open BigEndian

/-- `MY_PACKED_TIME_GET_INT_PART`: an arithmetic shift. -/
def myPackedTimeGetIntPart (x : Int) : Int := x >>> (24 : Nat)

/-- `MY_PACKED_TIME_GET_FRAC_PART`: C's `%`, which takes the sign of `x`. -/
def myPackedTimeGetFracPart (x : Int) : Int := x.tmod (2 ^ 24)

/-- `MY_PACKED_TIME_MAKE`, whose unsigned sum read back as a `longlong` is the
plain sum for every value below. -/
def myPackedTimeMake (i f : Int) : Int := i * 2 ^ 24 + f

/-- `MY_PACKED_TIME_MAKE_INT`. -/
def myPackedTimeMakeInt (i : Int) : Int := i * 2 ^ 24

/-! ## TIME -/

/-- `TIME_to_longlong_time_packed`. -/
def timeToLonglongTimePacked (t : MysqlTime) : Int :=
  let hms : Nat := ((t.day * 24 + t.hour) <<< 12) ||| (t.minute <<< 6) ||| t.second
  let tmp := myPackedTimeMake hms t.secondPart
  if t.neg then -tmp else tmp

/-- `TIME_from_longlong_time_packed`. -/
def timeFromLonglongTimePacked (tmp : Int) : MysqlTime :=
  let neg := decide (tmp < 0)
  let tmp := if neg then -tmp else tmp
  let hms := (myPackedTimeGetIntPart tmp).toNat
  { year := 0, month := 0, day := 0, hour := (hms >>> 12) % 2 ^ 10,
    minute := (hms >>> 6) % 2 ^ 6, second := hms % 2 ^ 6,
    secondPart := (myPackedTimeGetFracPart tmp).toNat, neg := neg, timeType := .time }

/-- `my_time_binary_length`. -/
def myTimeBinaryLength (dec : Nat) : Nat := 3 + (dec + 1) / 2

/-- `TIMEF_OFS`. -/
def timefOfs : Int := 0x800000000000

/-- `TIMEF_INT_OFS`. -/
def timefIntOfs : Int := 0x800000

/-- `my_time_packed_to_binary`. -/
def myTimePackedToBinary (nr : Int) (dec : Nat) : List UInt8 :=
  match dec with
  | 1 | 2 => miIntStore 3 (timefIntOfs + myPackedTimeGetIntPart nr) ++
      miIntStore 1 ((myPackedTimeGetFracPart nr).tdiv 10000)
  | 3 | 4 => miIntStore 3 (timefIntOfs + myPackedTimeGetIntPart nr) ++
      miIntStore 2 ((myPackedTimeGetFracPart nr).tdiv 100)
  | 5 | 6 => miIntStore 6 (nr + timefOfs)
  | _ => miIntStore 3 (timefIntOfs + myPackedTimeGetIntPart nr)

/-- `my_time_packed_from_binary`. A negative value stores its fraction in
reverse order, so a nonzero fraction moves the integer part up by one. -/
def myTimePackedFromBinary (ptr : List UInt8) (dec : Nat) : Int :=
  match dec with
  | 1 | 2 =>
    let intpart : Int := (miUintKorr 3 ptr : Int) - timefIntOfs
    let frac : Int := (ptr.getD 3 0).toNat
    if intpart < 0 ∧ frac ≠ 0 then myPackedTimeMake (intpart + 1) ((frac - 0x100) * 10000)
    else myPackedTimeMake intpart (frac * 10000)
  | 3 | 4 =>
    let intpart : Int := (miUintKorr 3 ptr : Int) - timefIntOfs
    let frac : Int := miUintKorr 2 (ptr.drop 3)
    if intpart < 0 ∧ frac ≠ 0 then myPackedTimeMake (intpart + 1) ((frac - 0x10000) * 100)
    else myPackedTimeMake intpart (frac * 100)
  | 5 | 6 => (miUintKorr 6 ptr : Int) - timefOfs
  | _ => myPackedTimeMakeInt ((miUintKorr 3 ptr : Int) - timefIntOfs)

/-! ## DATETIME -/

/-- `TIME_to_longlong_datetime_packed`. -/
def timeToLonglongDatetimePacked (t : MysqlTime) : Int :=
  let ymd : Nat := ((t.year * 13 + t.month) <<< 5) ||| t.day
  let hms : Nat := (t.hour <<< 12) ||| (t.minute <<< 6) ||| t.second
  let tmp := myPackedTimeMake ((ymd <<< 17) ||| hms : Nat) t.secondPart
  if t.neg then -tmp else tmp

/-- `TIME_from_longlong_datetime_packed`. -/
def timeFromLonglongDatetimePacked (tmp : Int) : MysqlTime :=
  let neg := decide (tmp < 0)
  let tmp := if neg then -tmp else tmp
  let ymdhms := (myPackedTimeGetIntPart tmp).toNat
  let ymd := ymdhms >>> 17
  let ym := ymd >>> 5
  let hms := ymdhms % 2 ^ 17
  { year := ym / 13, month := ym % 13, day := ymd % 2 ^ 5, hour := hms >>> 12,
    minute := (hms >>> 6) % 2 ^ 6, second := hms % 2 ^ 6,
    secondPart := (myPackedTimeGetFracPart tmp).toNat, neg := neg, timeType := .datetime }

/-- `my_datetime_binary_length`. -/
def myDatetimeBinaryLength (dec : Nat) : Nat := 5 + (dec + 1) / 2

/-- `DATETIMEF_INT_OFS`. -/
def datetimefIntOfs : Int := 0x8000000000

/-- `my_datetime_packed_from_binary`. The fraction is read as a signed number. -/
def myDatetimePackedFromBinary (ptr : List UInt8) (dec : Nat) : Int :=
  let intpart : Int := (miUintKorr 5 ptr : Int) - datetimefIntOfs
  match dec with
  | 1 | 2 => myPackedTimeMake intpart (miSintKorr 1 (ptr.drop 5) * 10000)
  | 3 | 4 => myPackedTimeMake intpart (miSintKorr 2 (ptr.drop 5) * 100)
  | 5 | 6 => myPackedTimeMake intpart (miSintKorr 3 (ptr.drop 5))
  | _ => myPackedTimeMakeInt intpart

/-- `my_datetime_packed_to_binary`. -/
def myDatetimePackedToBinary (nr : Int) (dec : Nat) : List UInt8 :=
  miIntStore 5 (myPackedTimeGetIntPart nr + datetimefIntOfs) ++
    match dec with
    | 1 | 2 => miIntStore 1 ((myPackedTimeGetFracPart nr).tdiv 10000)
    | 3 | 4 => miIntStore 2 ((myPackedTimeGetFracPart nr).tdiv 100)
    | 5 | 6 => miIntStore 3 (myPackedTimeGetFracPart nr)
    | _ => []

/-! ## TIMESTAMP -/

/-- `my_max_usec_value[]`. -/
def myMaxUsecValue : Nat → Nat
  | 0 => 0
  | 1 => 900000
  | 2 => 990000
  | 3 => 999000
  | 4 => 999900
  | 5 => 999990
  | _ => 999999

/-- `my_timestamp_binary_length`. -/
def myTimestampBinaryLength (dec : Nat) : Nat := 4 + (dec + 1) / 2

/-- `my_timestamp_from_binary`: corrupt fractions are cut to the range of `dec`. -/
def myTimestampFromBinary (ptr : List UInt8) (dec : Nat) : MyTimeval :=
  let tvSec : Int := miUintKorr 4 ptr
  match dec with
  | 1 | 2 => ⟨tvSec, min ((ptr.getD 4 0).toNat * 10000) (myMaxUsecValue dec)⟩
  | 3 | 4 => ⟨tvSec, min (miUintKorr 2 (ptr.drop 4) * 100) (myMaxUsecValue dec)⟩
  | 5 | 6 => ⟨tvSec, min (miUintKorr 3 (ptr.drop 4)) (myMaxUsecValue dec)⟩
  | _ => ⟨tvSec, 0⟩

/-- `my_timestamp_to_binary`. -/
def myTimestampToBinary (tm : MyTimeval) (dec : Nat) : List UInt8 :=
  miIntStore 4 tm.tvSec ++
    match dec with
    | 1 | 2 => miIntStore 1 (tm.tvUsec / 10000 : Nat)
    | 3 | 4 => miIntStore 2 (tm.tvUsec / 100 : Nat)
    | 5 | 6 => miIntStore 3 tm.tvUsec
    | _ => []

end MariaDB.Temporal
