import MariaDB.Bytes.LittleEndian

set_option autoImplicit false

/- The layout of a dynamic-column record, mysys/ma_dyncol.c. A record is a
flag byte, a 2-byte column count and, in the format with names, a 2-byte
name pool size; then a directory of one entry per column, sorted by key; in
the format with names the pool of names; and last the data of the columns
in directory order. An entry is the key (the column number, or the name's
offset in the pool) followed by a field holding the data offset shifted left
past the type: 3 bits of type and 1-4 bytes in all for numbers, 4 bits and
2-5 bytes for names. Byte fields are little-endian (`int2store`,
`uint2korr`). -/
namespace MariaDB.Dyncol

open LittleEndian

/-- `enum enum_dyncol_func_result`. -/
inductive FuncResult where
  | ok
  | yes
  | format
  | limit
  | resource
  | data
  | unknownCharset
  | truncated
  deriving Repr, DecidableEq

/-- The codes below zero, which the callers test with `rc < 0`. -/
def FuncResult.isError : FuncResult → Bool
  | .format | .limit | .resource | .data | .unknownCharset => true
  | .ok | .yes | .truncated => false

/-- `enum enum_dynamic_column_type`. -/
inductive ColumnType where
  | null
  | int
  | uint
  | double
  | string
  | decimal
  | datetime
  | date
  | time
  | dyncol
  deriving Repr, DecidableEq

/-- The number of a type, as C numbers the enumeration. -/
def ColumnType.toNat : ColumnType → Nat
  | .null => 0
  | .int => 1
  | .uint => 2
  | .double => 3
  | .string => 4
  | .decimal => 5
  | .datetime => 6
  | .date => 7
  | .time => 8
  | .dyncol => 9

/-- The type a number names; a number past `DYN_COL_DYNCOL` names none. -/
def ColumnType.ofNat? : Nat → Option ColumnType
  | 0 => some .null
  | 1 => some .int
  | 2 => some .uint
  | 3 => some .double
  | 4 => some .string
  | 5 => some .decimal
  | 6 => some .datetime
  | 7 => some .date
  | 8 => some .time
  | 9 => some .dyncol
  | _ => none

/-- `enum enum_dyncol_format`. -/
inductive Format where
  | num
  | str
  deriving Repr, DecidableEq

/-! ## Constants -/

/-- `DYNCOL_FLG_OFFSET`. -/
def dyncolFlgOffset : Nat := 3

/-- `DYNCOL_FLG_NAMES`. -/
def dyncolFlgNames : Nat := 4

/-- `DYNCOL_FLG_NMOFFSET`. -/
def dyncolFlgNmoffset : Nat := 24

/-- `DYNCOL_FLG_KNOWN`. -/
def dyncolFlgKnown : Nat := 7

/-- `DYNCOL_OFFSET_ERROR`. -/
def dyncolOffsetError : Nat := 0xffffffff

/-- `FIXED_HEADER_SIZE`. -/
def fixedHeaderSize : Nat := 3

/-- `FIXED_HEADER_SIZE_NM`. -/
def fixedHeaderSizeNm : Nat := 5

/-- `COLUMN_NUMBER_SIZE`. -/
def columnNumberSize : Nat := 2

/-- `COLUMN_NAMEPTR_SIZE`. -/
def columnNameptrSize : Nat := 2

/-- `MAX_OFFSET_LENGTH`. -/
def maxOffsetLength : Nat := 4

/-- `MAX_OFFSET_LENGTH_NM`. -/
def maxOffsetLengthNm : Nat := 5

/-- `DYNCOL_NUM_CHAR`. -/
def dyncolNumChar : Nat := 6

/-- `MAX_TOTAL_NAME_LENGTH`. -/
def maxTotalNameLength : Nat := 65535

/-- `MAX_NAME_LENGTH`. -/
def maxNameLength : Nat := maxTotalNameLength / 4

/-- `UINT_MAX16`. -/
def uintMax16 : Nat := 0xffff

/-- `INT_MAX`. -/
def intMax : Nat := 0x7fffffff

/-- `size_t` arithmetic: a difference that goes below zero wraps. -/
def sizeT (x : Int) : Nat := (x % 2 ^ 64).toNat

/-- `int2store`, `int3store`, ...: the `width` low bytes of `x`. -/
def intStore (width x : Nat) : List UInt8 := toBytes width x

/-- `uint2korr`, `uint3korr`, ...: the `width` bytes from `pos` on. Reads past
the end of the string, which C does not guard against everywhere, give zero
bytes here. -/
def uintKorr (width : Nat) (s : List UInt8) (pos : Nat) : Nat :=
  ofBytes ((List.range width).map fun i => s.getD (pos + i) 0)

/-! ## The format descriptors `fmt_data[]` -/

/-- `fixed_hdr`: `FIXED_HEADER_SIZE` or `FIXED_HEADER_SIZE_NM`. -/
def Format.fixedHdr : Format → Nat
  | .num => fixedHeaderSize
  | .str => fixedHeaderSizeNm

/-- `fixed_hdr_entry`: the key part of an entry. -/
def Format.fixedHdrEntry : Format → Nat
  | .num => columnNumberSize
  | .str => columnNameptrSize

/-- `max_offset_size`. -/
def Format.maxOffsetSize : Format → Nat
  | .num => maxOffsetLength
  | .str => maxOffsetLengthNm

/-- `dynamic_column_offset_bytes_num`: the width of the type-and-offset
field for a data pool of `dataLength` bytes; the all-ones offset is reserved. -/
def dynamicColumnOffsetBytesNum (dataLength : Nat) : Nat :=
  if dataLength < 0x1f then 1
  else if dataLength < 0x1fff then 2
  else if dataLength < 0x1fffff then 3
  else if dataLength < 0x1fffffff then 4
  else maxOffsetLength + 1

/-- `dynamic_column_offset_bytes_named`, for a 64-bit `size_t`. -/
def dynamicColumnOffsetBytesNamed (dataLength : Nat) : Nat :=
  if dataLength < 0xfff then 2
  else if dataLength < 0xfffff then 3
  else if dataLength < 0xfffffff then 4
  else if dataLength < 0xfffffffff then 5
  else maxOffsetLengthNm + 1

/-- `fmt->dynamic_column_offset_bytes`. -/
def Format.dynamicColumnOffsetBytes : Format → Nat → Nat
  | .num => dynamicColumnOffsetBytesNum
  | .str => dynamicColumnOffsetBytesNamed

/-- The largest offset plus one that a field of each width holds. -/
def offsetLimitNum : Nat → Option Nat
  | 1 => some 0x1f
  | 2 => some 0x1fff
  | 3 => some 0x1fffff
  | 4 => some 0x1fffffff
  | _ => none

/-- The same for the format with names. -/
def offsetLimitNamed : Nat → Option Nat
  | 2 => some 0xfff
  | 3 => some 0xfffff
  | 4 => some 0xfffffff
  | 5 => some 0xfffffffff
  | _ => none

/-- `type_and_offset_store_num`: the field after the column number, or
`none` where C returns `TRUE` because the offset does not fit. -/
def typeAndOffsetStoreNum (offsetSize : Nat) (type : ColumnType) (offset : Nat) :
    Option (List UInt8) :=
  let val := (offset <<< 3) ||| (type.toNat - 1)
  match offsetLimitNum offsetSize with
  | some lim => if offset ≥ lim then none else some (intStore offsetSize val)
  | none => none

/-- `type_and_offset_store_named`. -/
def typeAndOffsetStoreNamed (offsetSize : Nat) (type : ColumnType) (offset : Nat) :
    Option (List UInt8) :=
  let val := (offset <<< 4) ||| (type.toNat - 1)
  match offsetLimitNamed offsetSize with
  | some lim => if offset ≥ lim then none else some (intStore offsetSize val)
  | none => none

/-- `type_and_offset_read_num` on the field at `pos`: the type number and
the offset, or `none` where C returns `1`. The callers read neither output
after a failure. -/
def typeAndOffsetReadNum (s : List UInt8) (pos offsetSize : Nat) : Option (Nat × Nat) :=
  match offsetLimitNum offsetSize with
  | some lim =>
    let val := uintKorr offsetSize s pos
    if val >>> 3 ≥ lim then none else some ((val &&& 0x7) + 1, val >>> 3)
  | none => none

/-- `type_and_offset_read_named`. -/
def typeAndOffsetReadNamed (s : List UInt8) (pos offsetSize : Nat) : Option (Nat × Nat) :=
  match offsetLimitNamed offsetSize with
  | some lim =>
    let val := uintKorr offsetSize s pos
    if val >>> 4 ≥ lim then none else some ((val &&& 0xf) + 1, val >>> 4)
  | none => none

/-- `fmt->type_and_offset_read`. -/
def Format.typeAndOffsetRead : Format → List UInt8 → Nat → Nat → Option (Nat × Nat)
  | .num => typeAndOffsetReadNum
  | .str => typeAndOffsetReadNamed

/-- `set_fixed_header`, for the numeric format: the flag byte keeps its bits
other than the offset size, which the writers have cleared. -/
def setFixedHeader (flags : UInt8) (offsetSize columnCount : Nat) : List UInt8 :=
  UInt8.ofNat ((flags.toNat &&& (0xff - dyncolFlgOffset)) ||| (offsetSize - 1)) ::
    intStore 2 columnCount

/-- `set_fixed_header_named`: the name offset width bits stay zero, which
means 2 bytes. -/
def setFixedHeaderNamed (flags : UInt8) (offsetSize columnCount nmpoolSize : Nat) :
    List UInt8 :=
  UInt8.ofNat ((flags.toNat &&& (0xff - (dyncolFlgOffset ||| dyncolFlgNmoffset))) |||
      (offsetSize - 2) ||| dyncolFlgNames) ::
    (intStore 2 columnCount ++ intStore 2 nmpoolSize)

end MariaDB.Dyncol
