import MariaDB.Dyncol.Format
import MariaDB.Decimal.Bin
import MariaDB.Temporal.Basic

set_option autoImplicit false

/- The column values of mysys/ma_dyncol.c and their encodings: signed
integers zigzag-coded and unsigned ones in as many little-endian bytes as
they need (zero in none), doubles in eight bytes, strings after the
variable-length number of their charset, decimals as two variable-length
digit counts and the `decimal2bin` form (zero in no bytes), and dates and
times bit-packed into 3, 6 or 9 bytes. Nothing stores a value's length: the
reader is given it by the directory. -/
namespace MariaDB.Dyncol

open LittleEndian MariaDB.Decimal MariaDB.Temporal

/-- `DYNAMIC_COLUMN_VALUE`: the type and the member of the union it selects.
`long_value` and `ulong_value` are `long long` and `unsigned long long`; a
double is the number its eight bytes make, read little-endian, as
`float8store` writes them; a string is its bytes and the number of its
charset; a nested record is its bytes. -/
inductive Value where
  | null
  | int (longValue : Int)
  | uint (ulongValue : Nat)
  | double (bits : Nat)
  | string (value : List UInt8) (charset : Nat)
  | decimal (value : DecimalT)
  | datetime (timeValue : MysqlTime)
  | date (timeValue : MysqlTime)
  | time (timeValue : MysqlTime)
  | dyncol (value : List UInt8)
  deriving Repr, DecidableEq

/-- The `type` member. -/
def Value.type : Value → ColumnType
  | .null => .null
  | .int _ => .int
  | .uint _ => .uint
  | .double _ => .double
  | .string _ _ => .string
  | .decimal _ => .decimal
  | .datetime _ => .datetime
  | .date _ => .date
  | .time _ => .time
  | .dyncol _ => .dyncol

/-- `(longlong) val` of an `unsigned long long`. -/
def longlongOfUlonglong (val : Nat) : Int :=
  if val % 2 ^ 64 < 2 ^ 63 then (val % 2 ^ 64 : Nat) else ((val % 2 ^ 64 : Nat) : Int) - 2 ^ 64

/-- `(int) val` of an `unsigned long long`: its low 32 bits, signed. -/
def intOfUlonglong (val : Nat) : Int :=
  if val % 2 ^ 32 < 2 ^ 31 then (val % 2 ^ 32 : Nat) else ((val % 2 ^ 32 : Nat) : Int) - 2 ^ 32

/-! ## Variable-length numbers

The loops below run on `val + 1` as fuel, more than the number of bytes any
value takes. -/

/-- The loop of `dynamic_column_var_uint_bytes`: `do { len++; val>>= 7; } while (val)`. -/
def varUintBytesLoop : Nat → Nat → Nat
  | 0, _ => 0
  | fuel + 1, val => if val >>> 7 = 0 then 1 else varUintBytesLoop fuel (val >>> 7) + 1

/-- `dynamic_column_var_uint_bytes`. -/
def dynamicColumnVarUintBytes (val : Nat) : Nat := varUintBytesLoop (val + 1) val

/-- The loop of `dynamic_column_var_uint_store`: seven bits a byte, low bits
first, the top bit set on every byte but the last. -/
def varUintStoreLoop : Nat → Nat → List UInt8
  | 0, _ => []
  | fuel + 1, val =>
    let rest := val >>> 7
    UInt8.ofNat ((val &&& 0x7f) ||| if rest ≠ 0 then 0x80 else 0) ::
      if rest ≠ 0 then varUintStoreLoop fuel rest else []

/-- `dynamic_column_var_uint_store`: the bytes appended. -/
def dynamicColumnVarUintStore (val : Nat) : List UInt8 := varUintStoreLoop (val + 1) val

/-- The loop of `dynamic_column_var_uint_get` over the bytes left: the value
and the bytes read, or `(0, 0)` where no byte ends the number. -/
def varUintGetLoop : List UInt8 → Nat → Nat → Nat × Nat
  | [], _, _ => (0, 0)
  | b :: bs, val, length =>
    let val := (val + ((b.toNat &&& 0x7f) <<< (length * 7))) % 2 ^ 64
    if b.toNat &&& 0x80 = 0 then (val, length + 1) else varUintGetLoop bs val (length + 1)

/-- `dynamic_column_var_uint_get(data, data_length, &len)`: the value and `len`. -/
def dynamicColumnVarUintGet (data : List UInt8) (dataLength : Nat) : Nat × Nat :=
  varUintGetLoop (data.take dataLength) 0 0

/-! ## Integers -/

/-- The loop of `dynamic_column_uint_bytes`: `for (len= 0; val ; val>>= 8, len++)`. -/
def uintBytesLoop : Nat → Nat → Nat
  | 0, _ => 0
  | fuel + 1, val => if val = 0 then 0 else uintBytesLoop fuel (val >>> 8) + 1

/-- `dynamic_column_uint_bytes`. -/
def dynamicColumnUintBytes (val : Nat) : Nat := uintBytesLoop (val + 1) val

/-- The loop of `dynamic_column_uint_store`: `for (; val; val>>= 8)` appending `val & 0xff`. -/
def uintStoreLoop : Nat → Nat → List UInt8
  | 0, _ => []
  | fuel + 1, val => if val = 0 then [] else UInt8.ofNat (val &&& 0xff) :: uintStoreLoop fuel (val >>> 8)

/-- `dynamic_column_uint_store`. -/
def dynamicColumnUintStore (val : Nat) : List UInt8 := uintStoreLoop (val + 1) val

/-- `dynamic_column_uint_read`: `value+= ((ulonglong)data[i]) << (i*8)` over
`length` bytes, in 64-bit arithmetic. -/
def dynamicColumnUintRead (data : List UInt8) (length : Nat) : Nat :=
  ofBytes (data.take length) % 2 ^ 64

/-- The signed encoding `(((ulonglong) val) << 1) ^ (val < 0 ? ~0ULL : 0)`:
0, -1, 1, -2, 2, ... become 0, 1, 2, 3, 4, ... -/
def sintEncode (val : Int) : Nat :=
  (((val % 2 ^ 64).toNat <<< 1) % 2 ^ 64) ^^^ (if val < 0 then 0xffffffffffffffff else 0)

/-- `dynamic_column_sint_bytes`. -/
def dynamicColumnSintBytes (val : Int) : Nat := dynamicColumnUintBytes (sintEncode val)

/-- `dynamic_column_sint_store`. -/
def dynamicColumnSintStore (val : Int) : List UInt8 := dynamicColumnUintStore (sintEncode val)

/-- `dynamic_column_sint_read`. -/
def dynamicColumnSintRead (data : List UInt8) (length : Nat) : Int :=
  let val := dynamicColumnUintRead data length
  let val := if val &&& 1 ≠ 0 then (val >>> 1) ^^^ 0xffffffffffffffff else val >>> 1
  longlongOfUlonglong val

/-! ## Doubles, strings and nested records -/

/-- `dynamic_column_double_store`: `float8store`, little-endian. -/
def dynamicColumnDoubleStore (bits : Nat) : List UInt8 := toBytes 8 bits

/-- `dynamic_column_double_read`. -/
def dynamicColumnDoubleRead (data : List UInt8) (length : Nat) : Option Nat :=
  if length ≠ 8 then none else some (ofBytes (data.take 8))

/-- `dynamic_column_string_store`. -/
def dynamicColumnStringStore (string : List UInt8) (charset : Nat) : List UInt8 :=
  dynamicColumnVarUintStore charset ++ string

/-- `dynamic_column_string_read`, with `get_charset` telling which charset
numbers it knows: the code, and the string and its charset on success. -/
def dynamicColumnStringRead (getCharset : Nat → Bool) (data : List UInt8) (length : Nat) :
    FuncResult × Option (List UInt8 × Nat) :=
  let (charsetNr, len) := dynamicColumnVarUintGet data length
  let charsetNr := charsetNr % 2 ^ 32
  if len = 0 then (.format, none)
  else if !getCharset charsetNr then (.unknownCharset, none)
  else (.ok, some ((data.drop len).take (length - len), charsetNr))

/-- `dynamic_column_dyncol_store`. -/
def dynamicColumnDyncolStore (string : List UInt8) : List UInt8 := string

/-- `dynamic_column_dyncol_read`: any length is a nested record. -/
def dynamicColumnDyncolRead (data : List UInt8) (length : Nat) : List UInt8 := data.take length

/-! ## Decimals -/

/-- `DECIMAL_BUFF_LENGTH`, the words `mariadb_dyncol_prepare_decimal` gives
the value read. -/
def decimalBuffLength : Nat := 9

/-- `dynamic_column_decimal_store`: zero digits store nothing; otherwise the
two digit counts and `decimal2bin` at the value's own precision and scale. -/
def dynamicColumnDecimalStore (value : DecimalT) : List UInt8 :=
  let precision := value.intg + value.frac
  if precision = 0 then []
  else
    dynamicColumnVarUintStore value.intg ++ dynamicColumnVarUintStore value.frac ++
      (decimal2bin value precision value.frac).1

/-- `dynamic_column_decimal_read`: the empty string is zero; otherwise the
digit counts must fit the bytes that follow, and `bin2decimal` must return
`E_DEC_OK`. `intg` and `frac` are `int`. -/
def dynamicColumnDecimalRead (data : List UInt8) (length : Nat) : Option DecimalT :=
  let zero := ({ intg := 0, frac := 0, len := decimalBuffLength, sign := false, buf := [] } :
    DecimalT).makeZero
  if length = 0 then some zero
  else
    let (intgVal, intgLen) := dynamicColumnVarUintGet data length
    let (fracVal, fracLen) := dynamicColumnVarUintGet (data.drop intgLen) (length - intgLen)
    let intg := intOfUlonglong intgVal
    let frac := intOfUlonglong fracVal
    let precision := intg + frac
    let scale := frac
    let binLength := length - intgLen - fracLen
    if scale < 0 ∨ precision ≤ 0 ∨ scale > precision ∨ binLength > decimalBuffLength * 4 ∨
        decimalBinSize (intg + frac).toNat frac.toNat ≠ binLength then none
    else
      let (d, err) := bin2decimal (data.drop (intgLen + fracLen)) precision.toNat scale.toNat
        decimalBuffLength
      if err ≠ .ok then none else some d

/-! ## Dates and times -/

/-- `dynamic_column_date_store`: day, month and year in 5, 4 and 14 bits. A
value that is no date stores the zero date. -/
def dynamicColumnDateStore (value : MysqlTime) : List UInt8 :=
  let (year, month, day) :=
    if value.timeType = .none ∨ value.timeType = .error ∨ value.timeType = .time then (0, 0, 0)
    else (value.year, value.month, value.day)
  [UInt8.ofNat (day ||| ((month &&& 0x7) <<< 5)),
    UInt8.ofNat ((month >>> 3) ||| ((year &&& 0x7f) <<< 1)),
    UInt8.ofNat (year >>> 7)]

/-- `dynamic_column_time_store`: with microseconds, or always in the numeric
format, 6 bytes (microseconds 20 bits, seconds 6, minutes 6, hours 10, the
sign); otherwise 3 bytes without the microseconds. A value that is no time
stores the zero time. -/
def dynamicColumnTimeStore (value : MysqlTime) (format : Format) : List UInt8 :=
  let v := if value.timeType = .none ∨ value.timeType = .error ∨ value.timeType = .date then
      { value with neg := false, secondPart := 0, hour := 0, minute := 0, second := 0 }
    else value
  if format = .num ∨ v.secondPart ≠ 0 then
    [UInt8.ofNat (v.secondPart &&& 0xff),
      UInt8.ofNat ((v.secondPart &&& 0xff00) >>> 8),
      UInt8.ofNat (((v.second &&& 0xf) <<< 4) ||| ((v.secondPart &&& 0xf0000) >>> 16)),
      UInt8.ofNat ((v.minute <<< 2) ||| ((v.second &&& 0x30) >>> 4)),
      UInt8.ofNat (v.hour &&& 0xff),
      UInt8.ofNat ((if v.neg then 0x4 else 0) ||| (v.hour >>> 8))]
  else
    [UInt8.ofNat (v.second ||| ((v.minute &&& 0x3) <<< 6)),
      UInt8.ofNat ((v.minute >>> 2) ||| ((v.hour &&& 0xf) <<< 4)),
      UInt8.ofNat ((v.hour >>> 4) ||| (if v.neg then 0x80 else 0))]

/-- `dynamic_column_date_time_store`: the date, then the time. -/
def dynamicColumnDateTimeStore (value : MysqlTime) (format : Format) : List UInt8 :=
  dynamicColumnDateStore value ++ dynamicColumnTimeStore value format

/-- `dynamic_column_date_read_internal`: the date fields of `t`, or `none`
where C marks the value `MYSQL_TIMESTAMP_ERROR` and returns `ER_DYNCOL_FORMAT`. -/
def dynamicColumnDateReadInternal (t : MysqlTime) (data : List UInt8) (length : Nat) :
    Option MysqlTime :=
  let d := fun i => (data.getD i 0).toNat
  if length ≠ 3 then none
  else
    let t := { t with
      day := d 0 &&& 0x1f
      month := ((d 1 &&& 0x1) <<< 3) ||| (d 0 >>> 5)
      year := (d 2 <<< 7) ||| (d 1 >>> 1) }
    if t.day > 31 ∨ t.month > 12 ∨ t.year > 9999 then none else some t

/-- `dynamic_column_time_read_internal`: the time fields of `t`. -/
def dynamicColumnTimeReadInternal (t : MysqlTime) (data : List UInt8) (length : Nat) :
    Option MysqlTime :=
  let d := fun i => (data.getD i 0).toNat
  if length ≠ 6 ∧ length ≠ 3 then none
  else
    let t :=
      if length = 6 then
        { t with
          secondPart := d 0 ||| (d 1 <<< 8) ||| ((d 2 &&& 0xf) <<< 16)
          second := (d 2 >>> 4) ||| ((d 3 &&& 0x3) <<< 4)
          minute := d 3 >>> 2
          hour := ((d 5 &&& 0x3) <<< 8) ||| d 4
          neg := d 5 &&& 0x4 ≠ 0 }
      else
        { t with
          secondPart := 0
          second := d 0 &&& 0x3f
          minute := (d 0 >>> 6) ||| ((d 1 &&& 0xf) <<< 2)
          hour := (d 1 >>> 4) ||| ((d 2 &&& 0x3f) <<< 4)
          neg := d 2 &&& 0x80 ≠ 0 }
    if t.second > 59 ∨ t.minute > 59 ∨ t.hour > 838 ∨ t.secondPart > 999999 then none
    else some t

/-- `dynamic_column_date_read`: a DATE with a zero time. -/
def dynamicColumnDateRead (data : List UInt8) (length : Nat) : Option MysqlTime :=
  dynamicColumnDateReadInternal ⟨0, 0, 0, 0, 0, 0, 0, false, .date⟩ data length

/-- `dynamic_column_time_read`: a TIME with a zero date. -/
def dynamicColumnTimeRead (data : List UInt8) (length : Nat) : Option MysqlTime :=
  dynamicColumnTimeReadInternal ⟨0, 0, 0, 0, 0, 0, 0, false, .time⟩ data length

/-- `dynamic_column_date_time_read`: 3 bytes of date and 3 or 6 of time. -/
def dynamicColumnDateTimeRead (data : List UInt8) (length : Nat) : Option MysqlTime :=
  if length ≠ 9 ∧ length ≠ 6 then none
  else do
    let t ← dynamicColumnDateReadInternal ⟨0, 0, 0, 0, 0, 0, 0, false, .datetime⟩ data 3
    dynamicColumnTimeReadInternal t (data.drop 3) (length - 3)

/-! ## Values -/

/-- `dynamic_column_value_len`: the bytes `data_store` will write, and the
value as the call leaves it, since a decimal zero is rewritten to have no
digits. The `(size_t) ~0` return for a negative scale or precision cannot
arise on natural digit counts. -/
def dynamicColumnValueLen (value : Value) (format : Format) : Nat × Value :=
  match value with
  | .null => (0, value)
  | .int v => (dynamicColumnSintBytes v, value)
  | .uint v => (dynamicColumnUintBytes v, value)
  | .double _ => (8, value)
  | .string s charset => (dynamicColumnVarUintBytes charset + s.length, value)
  | .decimal d =>
    if d.intg + d.frac = 0 ∨ decimalIsZero d then (0, .decimal { d with intg := 0, frac := 0 })
    else
      (dynamicColumnVarUintBytes d.intg + dynamicColumnVarUintBytes d.frac +
        decimalBinSize (d.intg + d.frac) d.frac, value)
  | .datetime t => (if format = .num ∨ t.secondPart ≠ 0 then 9 else 6, value)
  | .date _ => (3, value)
  | .time t => (if format = .num ∨ t.secondPart ≠ 0 then 6 else 3, value)
  | .dyncol s => (s.length, value)

/-- `data_store`: the bytes appended for a value. -/
def dataStore (value : Value) (format : Format) : List UInt8 :=
  match value with
  | .int v => dynamicColumnSintStore v
  | .uint v => dynamicColumnUintStore v
  | .double v => dynamicColumnDoubleStore v
  | .string s charset => dynamicColumnStringStore s charset
  | .decimal d => dynamicColumnDecimalStore d
  | .datetime t => dynamicColumnDateTimeStore t format
  | .date t => dynamicColumnDateStore t
  | .time t => dynamicColumnTimeStore t format
  | .dyncol s => dynamicColumnDyncolStore s
  | .null => []

/-- `dynamic_column_get_value` for an entry of type number `type` whose data
is the `length` bytes of `data`: the code and the value. After a negative
code the callers read no value; the model gives `null` there. -/
def dynamicColumnGetValue (getCharset : Nat → Bool) (type : Nat) (data : List UInt8)
    (length : Nat) : FuncResult × Value :=
  let fromOption : Option Value → FuncResult × Value
    | some v => (.ok, v)
    | none => (.format, .null)
  match ColumnType.ofNat? type with
  | some .int => (.ok, .int (dynamicColumnSintRead data length))
  | some .uint => (.ok, .uint (dynamicColumnUintRead data length))
  | some .double => fromOption ((dynamicColumnDoubleRead data length).map .double)
  | some .string =>
    match dynamicColumnStringRead getCharset data length with
    | (.ok, some (s, charset)) => (.ok, .string s charset)
    | (rc, _) => (rc, .null)
  | some .decimal => fromOption ((dynamicColumnDecimalRead data length).map .decimal)
  | some .datetime => fromOption ((dynamicColumnDateTimeRead data length).map .datetime)
  | some .date => fromOption ((dynamicColumnDateRead data length).map .date)
  | some .time => fromOption ((dynamicColumnTimeRead data length).map .time)
  | some .null => (.ok, .null)
  | some .dyncol => (.ok, .dyncol (dynamicColumnDyncolRead data length))
  | none => (.format, .null)

end MariaDB.Dyncol
