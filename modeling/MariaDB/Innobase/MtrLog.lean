import MariaDB.Bytes.Memory
import MariaDB.Unicode.Utf8

set_option autoImplicit false

/- The redo log records of InnoDB's mini-transactions, mtr0log.h and
mtr0types.h. A record is a first byte holding the `same_page` flag, the
record type and a length nibble, then (for a nibble of 0) a variable-length
length field, the page identifier unless `same_page` is set, and the body.
Integers are written by `mlog_encode_varint` in one to five bytes, the count
of leading one bits of the first byte giving the length. The methods of
`mtr_t` that write a page log a record of what they wrote; the frame of a
page is a byte memory, offsets counting from its start. -/
namespace MariaDB.Innobase

/-- `MIN_2BYTE`, the least integer of two bytes. -/
def min2Byte : Nat := 1 <<< 7
/-- `MIN_3BYTE`. -/
def min3Byte : Nat := min2Byte + (1 <<< 14)
/-- `MIN_4BYTE`. -/
def min4Byte : Nat := min3Byte + (1 <<< 21)
/-- `MIN_5BYTE`. -/
def min5Byte : Nat := min4Byte + (1 <<< 28)
/-- `MLOG_DECODE_ERROR`, `~0U`. -/
def mlogDecodeError : Nat := 0xFFFFFFFF

theorem min2Byte_eq : min2Byte = 128 := rfl
theorem min3Byte_eq : min3Byte = 16512 := rfl
theorem min4Byte_eq : min4Byte = 2113664 := rfl
theorem min5Byte_eq : min5Byte = 270549120 := rfl
theorem mlogDecodeError_eq : mlogDecodeError = 4294967295 := rfl

/-- `~x` of a 32-bit `x`. -/
def compl32 (x : Nat) : Nat := 0xFFFFFFFF ^^^ x

/-- The loop of `mlog_decode_varint_length`: one more byte for each leading
one bit. Eight shifts clear a byte, so eight rounds are fuel enough. -/
def varintLengthLoop : Nat → UInt8 → Nat → Nat
  | 0, _, len => len
  | fuel + 1, first, len =>
    if first &&& 0x80 ≠ 0 then varintLengthLoop fuel (first <<< 1) (len + 1) else len

/-- `mlog_decode_varint_length(first)`. -/
def mlogDecodeVarintLength (first : UInt8) : Nat := varintLengthLoop 8 first 1

/-- `mlog_decode_varint(log)`. The callers check first that the bytes it
reads lie in the record; `log[k]` is `log.getD k 0`. -/
def mlogDecodeVarint (log : List UInt8) : Nat :=
  let i := (log.getD 0 0).toNat
  let byte (k : Nat) := (log.getD k 0).toNat
  if i < min2Byte then i
  else if i < 0xc0 then min2Byte + ((i &&& compl32 0x80) <<< 8 ||| byte 1)
  else if i < 0xe0 then min3Byte + ((i &&& compl32 0xc0) <<< 16 ||| byte 1 <<< 8 ||| byte 2)
  else if i < 0xf0 then
    min4Byte + ((i &&& compl32 0xe0) <<< 24 ||| byte 1 <<< 16 ||| byte 2 <<< 8 ||| byte 3)
  else if i = 0xf0 then
    let i := byte 1 <<< 24 ||| byte 2 <<< 16 ||| byte 3 <<< 8 ||| byte 4
    if i ≤ compl32 min5Byte then min5Byte + i else mlogDecodeError
  else mlogDecodeError

/-- `mlog_encode_varint(log, i)`: the bytes written. -/
def mlogEncodeVarint (i : Nat) : List UInt8 :=
  if i < min2Byte then [UInt8.ofNat i]
  else if i < min3Byte then
    let i := i - min2Byte
    [(0x80 : UInt8) ||| UInt8.ofNat (i >>> 8), UInt8.ofNat i]
  else if i < min4Byte then
    let i := i - min3Byte
    [(0xc0 : UInt8) ||| UInt8.ofNat (i >>> 16), UInt8.ofNat (i >>> 8), UInt8.ofNat i]
  else if i < min5Byte then
    let i := i - min4Byte
    [(0xe0 : UInt8) ||| UInt8.ofNat (i >>> 24), UInt8.ofNat (i >>> 16), UInt8.ofNat (i >>> 8), UInt8.ofNat i]
  else
    let i := i - min5Byte
    [0xf0, UInt8.ofNat (i >>> 24), UInt8.ofNat (i >>> 16), UInt8.ofNat (i >>> 8), UInt8.ofNat i]

/-- The length of the encoding. -/
def varintSize (i : Nat) : Nat :=
  if i < min2Byte then 1 else if i < min3Byte then 2 else if i < min4Byte then 3
  else if i < min5Byte then 4 else 5

@[simp] theorem length_mlogEncodeVarint (i : Nat) : (mlogEncodeVarint i).length = varintSize i := by
  unfold mlogEncodeVarint varintSize
  split_ifs <;> rfl


/-! ## Reading back -/

section RoundTrip

open Utf8 (shiftLeft_or_eq_add shiftLeft_or_shiftLeft_eq)

/-- A tag in the high bits of a byte and a value in the bits below it. -/
theorem toNat_or_ofNat (tag : UInt8) {x k : Nat} (hx : x < 2 ^ k) (low : tag.toNat % 2 ^ k = 0)
    (fits : tag.toNat + x < 256) : (tag ||| UInt8.ofNat x).toNat = tag.toNat + x := by
  have split : tag.toNat = tag.toNat / 2 ^ k * 2 ^ k := (Nat.div_mul_cancel (Nat.dvd_of_mod_eq_zero low)).symm
  rw [UInt8.toNat_or, UInt8.toNat_ofNat', Nat.mod_eq_of_lt (by omega)]
  calc tag.toNat ||| x = (tag.toNat / 2 ^ k) <<< k ||| x := by rw [Nat.shiftLeft_eq, ← split]
    _ = tag.toNat + x := by rw [shiftLeft_or_eq_add hx, ← split]

theorem toNat_ofNat_shiftRight (j s : Nat) : (UInt8.ofNat (j >>> s)).toNat = j / 2 ^ s % 256 := by
  rw [UInt8.toNat_ofNat', Nat.shiftRight_eq_div_pow]

/-- `i & ~tag` takes the tag off a first byte. -/
theorem and_compl32_tag : (∀ x < 64, (0x80 + x) &&& compl32 0x80 = x) ∧
    (∀ x < 32, (0xc0 + x) &&& compl32 0xc0 = x) ∧ (∀ x < 16, (0xe0 + x) &&& compl32 0xe0 = x) := by
  decide

theorem or_bytes_two (a b : Nat) (hb : b < 2 ^ 8) : a <<< 8 ||| b = a * 256 + b :=
  shiftLeft_or_eq_add hb

theorem or_bytes_three (a b c : Nat) (hb : b < 2 ^ 8) (hc : c < 2 ^ 8) :
    a <<< 16 ||| b <<< 8 ||| c = (a * 256 + b) * 256 + c := by
  rw [shiftLeft_or_shiftLeft_eq (j := 8) hb (show 16 = 8 + 8 from rfl), shiftLeft_or_eq_add hc]
  omega

theorem or_bytes_four (a b c d : Nat) (hb : b < 2 ^ 8) (hc : c < 2 ^ 8) (hd : d < 2 ^ 8) :
    a <<< 24 ||| b <<< 16 ||| c <<< 8 ||| d = ((a * 256 + b) * 256 + c) * 256 + d := by
  rw [shiftLeft_or_shiftLeft_eq (j := 16) hb (show 24 = 8 + 16 from rfl),
    shiftLeft_or_shiftLeft_eq (j := 8) hc (show 16 = 8 + 8 from rfl), shiftLeft_or_eq_add hd]
  omega

/-- The first byte of a varint of more than one byte: the tag `tag` and the
top bits of `j` below it. -/
theorem toNat_first_byte {tag : UInt8} {j s k : Nat} (hj : j < 2 ^ (s + k)) (low : tag.toNat % 2 ^ k = 0)
    (fits : tag.toNat + 2 ^ k ≤ 256) : (tag ||| UInt8.ofNat (j >>> s)).toNat = tag.toNat + j / 2 ^ s := by
  have top : j / 2 ^ s < 2 ^ k := by
    rw [Nat.div_lt_iff_lt_mul (Nat.two_pow_pos s), ← Nat.pow_add, Nat.add_comm]
    exact hj
  rw [toNat_or_ofNat tag (by rw [Nat.shiftRight_eq_div_pow]; exact top) low
    (by rw [Nat.shiftRight_eq_div_pow]; omega), Nat.shiftRight_eq_div_pow]

theorem mlogDecodeVarint_two {j : Nat} (hj : j < 2 ^ 14) (rest : List UInt8) :
    mlogDecodeVarint (([(0x80 : UInt8) ||| UInt8.ofNat (j >>> 8), UInt8.ofNat j]) ++ rest) = min2Byte + j := by
  have b0 := @toNat_first_byte 0x80 j 8 6 hj (by decide) (by decide)
  have b1 : (UInt8.ofNat j).toNat = j % 256 := UInt8.toNat_ofNat'
  have untag := and_compl32_tag.1 (j / 2 ^ 8) (by omega)
  delta mlogDecodeVarint
  simp only [List.cons_append, List.getD_cons_zero, List.getD_cons_succ, b0, b1]
  rw [show (0x80 : UInt8).toNat = 0x80 from rfl, if_neg (by rw [min2Byte_eq]; omega), if_pos (by omega), untag,
    or_bytes_two _ _ (by omega)]
  omega

theorem mlogDecodeVarint_three {j : Nat} (hj : j < 2 ^ 21) (rest : List UInt8) :
    mlogDecodeVarint (([(0xc0 : UInt8) ||| UInt8.ofNat (j >>> 16), UInt8.ofNat (j >>> 8), UInt8.ofNat j]) ++ rest) =
      min3Byte + j := by
  have b0 := @toNat_first_byte 0xc0 j 16 5 hj (by decide) (by decide)
  have b1 := toNat_ofNat_shiftRight j 8
  have b2 : (UInt8.ofNat j).toNat = j % 256 := UInt8.toNat_ofNat'
  have untag := and_compl32_tag.2.1 (j / 2 ^ 16) (by omega)
  delta mlogDecodeVarint
  simp only [List.cons_append, List.getD_cons_zero, List.getD_cons_succ, b0, b1, b2]
  rw [show (0xc0 : UInt8).toNat = 0xc0 from rfl, if_neg (by rw [min2Byte_eq]; omega), if_neg (by omega),
    if_pos (by omega), untag, or_bytes_three _ _ _ (by omega) (by omega)]
  omega

theorem mlogDecodeVarint_four {j : Nat} (hj : j < 2 ^ 28) (rest : List UInt8) :
    mlogDecodeVarint (([(0xe0 : UInt8) ||| UInt8.ofNat (j >>> 24), UInt8.ofNat (j >>> 16), UInt8.ofNat (j >>> 8),
      UInt8.ofNat j]) ++ rest) = min4Byte + j := by
  have b0 := @toNat_first_byte 0xe0 j 24 4 hj (by decide) (by decide)
  have b1 := toNat_ofNat_shiftRight j 16
  have b2 := toNat_ofNat_shiftRight j 8
  have b3 : (UInt8.ofNat j).toNat = j % 256 := UInt8.toNat_ofNat'
  have untag := and_compl32_tag.2.2 (j / 2 ^ 24) (by omega)
  delta mlogDecodeVarint
  simp only [List.cons_append, List.getD_cons_zero, List.getD_cons_succ, b0, b1, b2, b3]
  rw [show (0xe0 : UInt8).toNat = 0xe0 from rfl, if_neg (by rw [min2Byte_eq]; omega), if_neg (by omega),
    if_neg (by omega), if_pos (by omega), untag, or_bytes_four _ _ _ _ (by omega) (by omega) (by omega)]
  omega

theorem compl32_min5Byte : compl32 min5Byte = mlogDecodeError - min5Byte := by decide

theorem mlogDecodeVarint_five {j : Nat} (hj : j < mlogDecodeError - min5Byte) (rest : List UInt8) :
    mlogDecodeVarint (([(0xf0 : UInt8), UInt8.ofNat (j >>> 24), UInt8.ofNat (j >>> 16), UInt8.ofNat (j >>> 8),
      UInt8.ofNat j]) ++ rest) = min5Byte + j := by
  rw [mlogDecodeError_eq, min5Byte_eq] at hj
  have b1 := toNat_ofNat_shiftRight j 24
  have b2 := toNat_ofNat_shiftRight j 16
  have b3 := toNat_ofNat_shiftRight j 8
  have b4 : (UInt8.ofNat j).toNat = j % 256 := UInt8.toNat_ofNat'
  have word : (j / 2 ^ 24 % 256) <<< 24 ||| (j / 2 ^ 16 % 256) <<< 16 ||| (j / 2 ^ 8 % 256) <<< 8 ||| j % 256 = j := by
    rw [or_bytes_four _ _ _ _ (by omega) (by omega) (by omega)]
    omega
  delta mlogDecodeVarint
  simp only [List.cons_append, List.getD_cons_zero, List.getD_cons_succ, b1, b2, b3, b4, word]
  rw [show (0xf0 : UInt8).toNat = 0xf0 from rfl, if_neg (by rw [min2Byte_eq]; omega), if_neg (by omega),
    if_neg (by omega), if_neg (by omega), if_pos rfl, if_pos (by rw [compl32_min5Byte, mlogDecodeError_eq, min5Byte_eq]; omega)]

/-- `mlog_decode_varint` reads back what `mlog_encode_varint` wrote, for
every integer below `MLOG_DECODE_ERROR`, whatever follows it. -/
theorem mlogDecodeVarint_encode (i : Nat) (hi : i < mlogDecodeError) (rest : List UInt8) :
    mlogDecodeVarint (mlogEncodeVarint i ++ rest) = i := by
  have bounds := And.intro min2Byte_eq (And.intro min3Byte_eq (And.intro min4Byte_eq min5Byte_eq))
  unfold mlogEncodeVarint
  split_ifs with h2 h3 h4 h5
  · -- `0xxxxxxx`
    have b0 : (UInt8.ofNat i).toNat = i := by rw [UInt8.toNat_ofNat']; omega
    delta mlogDecodeVarint
    simp only [List.cons_append, List.getD_cons_zero, b0, if_pos h2]
  · rw [mlogDecodeVarint_two (by omega)]
    omega
  · rw [mlogDecodeVarint_three (by omega)]
    omega
  · rw [mlogDecodeVarint_four (by omega)]
    omega
  · rw [mlogDecodeVarint_five (by omega)]
    omega

example : mlogEncodeVarint 300 = [0x80, 0xAC] ∧ mlogDecodeVarint [0x80, 0xAC] = 300 := by decide

/-- The length a first byte announces: one and the count of its leading one bits. -/
theorem mlogDecodeVarintLength_eq (b : UInt8) :
    mlogDecodeVarintLength b =
      if b.toNat < 0x80 then 1 else if b.toNat < 0xc0 then 2 else if b.toNat < 0xe0 then 3
      else if b.toNat < 0xf0 then 4 else if b.toNat < 0xf8 then 5 else if b.toNat < 0xfc then 6
      else if b.toNat < 0xfe then 7 else if b.toNat < 0xff then 8 else 9 := by
  have table : ∀ n < 256, mlogDecodeVarintLength (UInt8.ofNat n) =
      if n < 0x80 then 1 else if n < 0xc0 then 2 else if n < 0xe0 then 3
      else if n < 0xf0 then 4 else if n < 0xf8 then 5 else if n < 0xfc then 6
      else if n < 0xfe then 7 else if n < 0xff then 8 else 9 := by decide +kernel
  have := table b.toNat b.toNat_lt
  rwa [UInt8.ofNat_toNat] at this

/-- The first byte of an encoding: the value itself, or a tag and the top
bits of the value's offset from the least integer of its length. -/
theorem toNat_head_mlogEncodeVarint (i : Nat) (rest : List UInt8) :
    ((mlogEncodeVarint i ++ rest).headD 0).toNat =
      if i < min2Byte then i else if i < min3Byte then 0x80 + (i - min2Byte) / 2 ^ 8
      else if i < min4Byte then 0xc0 + (i - min3Byte) / 2 ^ 16
      else if i < min5Byte then 0xe0 + (i - min4Byte) / 2 ^ 24 else 0xf0 := by
  have bounds := And.intro min2Byte_eq (And.intro min3Byte_eq (And.intro min4Byte_eq min5Byte_eq))
  unfold mlogEncodeVarint
  split_ifs with h2 h3 h4 h5 <;> simp only [List.cons_append, List.headD_cons]
  · rw [UInt8.toNat_ofNat', Nat.mod_eq_of_lt (by omega)]
  · exact toNat_first_byte (k := 6) (by omega) (by decide) (by decide)
  · exact toNat_first_byte (k := 5) (by omega) (by decide) (by decide)
  · exact toNat_first_byte (k := 4) (by omega) (by decide) (by decide)
  · rfl

/-- The first byte of an encoding announces its length. -/
theorem mlogDecodeVarintLength_encode (i : Nat) (rest : List UInt8) :
    mlogDecodeVarintLength ((mlogEncodeVarint i ++ rest).headD 0) = varintSize i := by
  have bounds := And.intro min2Byte_eq (And.intro min3Byte_eq (And.intro min4Byte_eq min5Byte_eq))
  rw [mlogDecodeVarintLength_eq, toNat_head_mlogEncodeVarint]
  unfold varintSize
  -- the range of `i` fixes the first byte, and the table gives that byte the same size
  by_cases h2 : i < min2Byte
  · simp only [h2, ↓reduceIte]; split_ifs <;> omega
  by_cases h3 : i < min3Byte
  · simp only [h2, h3, ↓reduceIte]; split_ifs <;> omega
  by_cases h4 : i < min4Byte
  · simp only [h2, h3, h4, ↓reduceIte]; split_ifs <;> omega
  by_cases h5 : i < min5Byte
  · simp only [h2, h3, h4, h5, ↓reduceIte]; split_ifs <;> omega
  · simp only [h2, h3, h4, h5, ↓reduceIte]; split_ifs <;> omega

end RoundTrip

/-- `mlog_decode_varint` and `mlog_decode_varint_length` read back every
integer below `MLOG_DECODE_ERROR` that `mlog_encode_varint` writes, whatever
follows it: the value, and the bytes it takes. -/
theorem mlogEncodeVarint_readBack (i : Nat) (hi : i < mlogDecodeError) (rest : List UInt8) :
    mlogDecodeVarint (mlogEncodeVarint i ++ rest) = i ∧
      mlogDecodeVarintLength ((mlogEncodeVarint i ++ rest).headD 0) = (mlogEncodeVarint i).length :=
  ⟨mlogDecodeVarint_encode i hi rest, by rw [mlogDecodeVarintLength_encode, length_mlogEncodeVarint]⟩

theorem mlogEncodeVarint_readBack_min4Byte :
    mlogDecodeVarint (mlogEncodeVarint 2113664 ++ [0x35]) = 2113664 ∧
      mlogDecodeVarintLength ((mlogEncodeVarint 2113664 ++ [0x35]).headD 0) = (mlogEncodeVarint 2113664).length :=
  mlogEncodeVarint_readBack 2113664 (by decide) [0x35]

/-! ## Records -/

/-- `mrec_type_t`: bits 6..4 of a record's first byte. -/
inductive MrecType where
  | freePage
  | initPage
  | extended
  | write
  | memset
  | memmove
  | reserved
  | option
  deriving DecidableEq, Repr

/-- The value of each `mrec_type_t`. -/
def MrecType.code : MrecType → UInt8
  | freePage => 0
  | initPage => 0x10
  | extended => 0x20
  | write => 0x30
  | memset => 0x40
  | memmove => 0x50
  | reserved => 0x60
  | option => 0x70

/-- `page_id_t`. -/
structure PageId where
  space : Nat
  pageNo : Nat
  deriving DecidableEq, Repr

/-- The template argument `type` of `mtr_t::log_write`: a page record type or
a file operation, with the `static_assert` on it. Every byte whose low four
bits are zero is at most `FILE_CHECKPOINT`. -/
structure LogType where
  code : UInt8
  low_zero : code.toNat % 16 = 0
  ne_reserved : code ≠ MrecType.reserved.code

/-- The `LogType` of a page record type other than `RESERVED`. -/
def MrecType.logType (t : MrecType) (h : t ≠ .reserved) : LogType where
  code := t.code
  low_zero := by cases t <;> decide
  ne_reserved := by cases t <;> first | decide | exact absurd rfl h

/-- The `LogType` of `WRITE`. -/
def writeType : LogType := MrecType.write.logType (by decide)

/-- The `LogType` of `MEMSET`. -/
def memsetType : LogType := MrecType.memset.logType (by decide)

/-- The `LogType` of `MEMMOVE`. -/
def memmoveType : LogType := MrecType.memmove.logType (by decide)

theorem memset_ne_reserved : MrecType.memset ≠ .reserved := nofun

theorem write_ne_reserved : MrecType.write ≠ .reserved := nofun

theorem memsetType_eq : memsetType = MrecType.memset.logType memset_ne_reserved := rfl

theorem writeType_eq : writeType = MrecType.write.logType write_ne_reserved := rfl

theorem memmove_ne_reserved : MrecType.memmove ≠ .reserved := nofun

theorem memmoveType_eq : memmoveType = MrecType.memmove.logType memmove_ne_reserved := rfl

/-- `have_len`: every record but `INIT_PAGE` and `FREE_PAGE` has a body. -/
def LogType.haveLen (type : LogType) : Bool :=
  type.code != MrecType.initPage.code && type.code != MrecType.freePage.code

/-- `have_offset`: `WRITE`, `MEMSET` and `MEMMOVE` carry a byte offset. -/
def LogType.haveOffset (type : LogType) : Bool :=
  type.code == MrecType.write.code || type.code == MrecType.memset.code || type.code == MrecType.memmove.code

/-- The fields of `mtr_t` that `log_write` and the `memset` overloads read and
set: whether the mini-transaction writes log (`is_logged()`), the page of
its last record (`m_last`) and where its last write ended (`m_last_offset`). -/
structure MtrLog where
  logged : Bool
  last : Option PageId
  lastOffset : Nat
  deriving DecidableEq, Repr

/-- `UNIV_PAGE_SIZE_MAX`. -/
def univPageSizeMax : Nat := 65536

/-- The start of `log_write`: `max_len`, the most bytes the head of the record
can take, and the offset to encode, relative from `m_last_offset` when the
record follows one for the same page that ended before it. -/
def logWriteMaxLen (type : LogType) (m : MtrLog) (bpage : Option PageId) (offset : Nat) : Nat × Nat :=
  -- `bpage && m_last == bpage`
  let onLast := bpage.isSome ∧ m.last = bpage
  if !type.haveLen then (1 + 5 + 5, offset)
  else if !type.haveOffset then (if onLast then 1 + 3 else 1 + 3 + 5 + 5, offset)
  else if onLast ∧ m.lastOffset ≤ offset then (1 + 3 + 3, offset - m.lastOffset)
  else (1 + 3 + 5 + 5 + 3, offset)

/-- The length field of a long record: the bytes from the first byte to the
end of the record's head (`headEnd`) and the `len` after it, less 15, and
one or two more for the length bytes beyond the first. -/
def longLength (len headEnd : Nat) : Nat :=
  let len := len + headEnd - 15
  if len ≥ min3Byte - 1 then len + 2 else if len ≥ min2Byte then len + 1 else len

/-- `mtr_t::log_write<type>(id, bpage, len, alloc, offset)`: the bytes it
writes up to the `end` it returns, and the mini-transaction after it. The
caller writes the `len` bytes of the record's body after them. A long record
has its page identifier and offset written again after the length bytes;
the bytes here are the final ones. -/
def logWrite (type : LogType) (m : MtrLog) (id : PageId) (bpage : Option PageId) (len offset : Nat) :
    List UInt8 × MtrLog :=
  let (maxLen, offset) := logWriteMaxLen type m bpage offset
  let samePage : UInt8 := if maxLen < 1 + 5 + 5 then 0x80 else 0
  let ids := if samePage = 0 then mlogEncodeVarint id.space ++ mlogEncodeVarint id.pageNo else []
  let m := if samePage = 0 then { m with last := bpage } else m
  if type.haveOffset then
    let oend := 1 + ids.length + (mlogEncodeVarint offset).length
    if oend + len > 16 then
      ((type.code ||| samePage) :: (mlogEncodeVarint (longLength len oend) ++ ids ++ mlogEncodeVarint offset), m)
    else ((type.code ||| samePage ||| UInt8.ofNat (oend + len - 1)) :: (ids ++ mlogEncodeVarint offset), m)
  else if len ≥ 3 ∧ 1 + ids.length + len > 16 then
    ((type.code ||| samePage) :: (mlogEncodeVarint (longLength len (1 + ids.length)) ++ ids), m)
  else ((type.code ||| samePage ||| UInt8.ofNat (1 + ids.length + len - 1)) :: ids, m)

/-- How `recv_sys_t::parse` and `log_phys_t::apply` read the length of a
record with first byte `b` from the bytes `l` after it: `rlen`, the bytes
after the first byte and the length bytes, and the count of length bytes. -/
def recordLength (b : UInt8) (l : List UInt8) : Nat × Nat :=
  let rlen := (b &&& 0xf).toNat
  if rlen = 0 then
    let lenlen := mlogDecodeVarintLength (l.headD 0)
    (mlogDecodeVarint l + 15 - lenlen, lenlen)
  else (rlen, 0)

theorem varintSize_pos (i : Nat) : 0 < varintSize i := by
  unfold varintSize
  split_ifs <;> omega

theorem varintSize_le_five (i : Nat) : varintSize i ≤ 5 := by
  unfold varintSize
  split_ifs <;> omega

theorem varintSize_le_three {i : Nat} (h : i < min4Byte) : varintSize i ≤ 3 := by
  unfold varintSize
  split_ifs <;> omega

theorem lt_mlogDecodeError_of_lt_min4Byte {i : Nat} (h : i < min4Byte) : i < mlogDecodeError := by
  rw [min4Byte_eq] at h; rw [mlogDecodeError_eq]; omega

theorem mlogEncodeVarint_ne_nil (i : Nat) : mlogEncodeVarint i ≠ [] := by
  rw [← List.length_pos_iff, length_mlogEncodeVarint]
  exact varintSize_pos i

/-- Only a record with a body can be written for the same page as the last. -/
theorem haveLen_of_logWriteMaxLen (type : LogType) (m : MtrLog) (bpage : Option PageId) (offset : Nat)
    (near : (logWriteMaxLen type m bpage offset).1 < 1 + 5 + 5) : type.haveLen = true := by
  unfold logWriteMaxLen at near
  cases h : type.haveLen
  · simp only [h] at near
    simp at near
  · rfl

/-- Every record head that `log_write` writes has one of two forms: a long
one, whose first byte has no length bits and is followed by the length field
and then the page identifier and offset (`fields`), and a short one, whose
length bits count the bytes after the first byte. -/
theorem logWrite_shape (type : LogType) (m : MtrLog) (id : PageId) (bpage : Option PageId) (len offset : Nat) :
    ∃ (samePage : UInt8) (fields : List UInt8), (samePage = 0 ∨ samePage = 0x80) ∧ fields.length ≤ 15 ∧
      (fields = [] → type.haveLen = true) ∧
      ((logWrite type m id bpage len offset).1 =
          (type.code ||| samePage) :: (mlogEncodeVarint (longLength len (1 + fields.length)) ++ fields) ∧
          16 < 1 + fields.length + len ∨
        (logWrite type m id bpage len offset).1 =
          (type.code ||| samePage ||| UInt8.ofNat (fields.length + len)) :: fields ∧ fields.length + len ≤ 15) := by
  have near := haveLen_of_logWriteMaxLen type m bpage offset
  unfold logWrite
  generalize logWriteMaxLen type m bpage offset = p at near
  obtain ⟨maxLen, off⟩ := p
  dsimp only at near ⊢
  generalize hsp : (if maxLen < 1 + 5 + 5 then (0x80 : UInt8) else 0) = sp
  have spCases : sp = 0 ∨ sp = 0x80 := by
    rw [← hsp]; split
    · exact .inr rfl
    · exact .inl rfl
  generalize hids : (if sp = 0 then mlogEncodeVarint id.space ++ mlogEncodeVarint id.pageNo else []) = ids
  generalize (if sp = 0 then { m with last := bpage } else m) = m'
  have idsLen : ids.length ≤ 10 := by
    rw [← hids]; split
    · have := varintSize_le_five id.space; have := varintSize_le_five id.pageNo
      simp only [List.length_append, length_mlogEncodeVarint]; omega
    · simp
  -- no page identifier only after a record for the same page
  have idsNil : ids = [] → type.haveLen = true := by
    intro nil
    rw [← hids] at nil
    split at nil
    · exact absurd (List.append_eq_nil_iff.mp nil).1 (mlogEncodeVarint_ne_nil _)
    · next far =>
      apply near
      by_contra notNear
      rw [if_neg notNear] at hsp
      exact far hsp.symm
  have offLen := varintSize_le_five off
  have withOffset : ids ++ mlogEncodeVarint off = [] → type.haveLen = true :=
    fun nil => absurd (List.append_eq_nil_iff.mp nil).2 (mlogEncodeVarint_ne_nil _)
  simp only [length_mlogEncodeVarint]
  split_ifs with hOff hLong hLong'
  · refine ⟨sp, ids ++ mlogEncodeVarint off, spCases, by simp; omega, withOffset, .inl ⟨?_, ?_⟩⟩
    · simp only [List.length_append, List.append_assoc, length_mlogEncodeVarint, Nat.add_assoc]
    · simp only [List.length_append, length_mlogEncodeVarint]; omega
  · refine ⟨sp, ids ++ mlogEncodeVarint off, spCases, by simp; omega, withOffset, .inr ⟨?_, ?_⟩⟩
    · simp only [List.length_append, length_mlogEncodeVarint]
      rw [show 1 + ids.length + varintSize off + len - 1 = ids.length + varintSize off + len by omega]
    · simp only [List.length_append, length_mlogEncodeVarint]; omega
  · exact ⟨sp, ids, spCases, by omega, idsNil, .inl ⟨rfl, by omega⟩⟩
  · refine ⟨sp, ids, spCases, by omega, idsNil, .inr ⟨?_, by omega⟩⟩
    rw [show 1 + ids.length + len - 1 = ids.length + len by omega]

/-- The length bits of a first byte: the type and the same-page flag have none. -/
theorem nibble_first_byte (type : LogType) {samePage : UInt8} (hsp : samePage = 0 ∨ samePage = 0x80)
    {x : Nat} (hx : x < 16) : ((type.code ||| samePage ||| UInt8.ofNat x) &&& 0xf).toNat = x := by
  have table : ∀ q < 16, ∀ x < 16, ((UInt8.ofNat (16 * q) ||| 0 ||| UInt8.ofNat x) &&& 0xf).toNat = x ∧
      ((UInt8.ofNat (16 * q) ||| 0x80 ||| UInt8.ofNat x) &&& 0xf).toNat = x := by decide +kernel
  have code : type.code = UInt8.ofNat (16 * (type.code.toNat / 16)) := by
    rw [Nat.mul_div_cancel' (Nat.dvd_of_mod_eq_zero type.low_zero), UInt8.ofNat_toNat]
  have q := Nat.div_lt_of_lt_mul (show type.code.toNat < 16 * 16 from type.code.toNat_lt)
  rw [code]
  rcases hsp with rfl | rfl
  · exact (table _ q x hx).1
  · exact (table _ q x hx).2

theorem nibble_first_byte_long (type : LogType) {samePage : UInt8} (hsp : samePage = 0 ∨ samePage = 0x80) :
    ((type.code ||| samePage) &&& 0xf).toNat = 0 := by
  have zero := nibble_first_byte type hsp (x := 0) (by decide)
  rwa [show UInt8.ofNat 0 = 0 from rfl, UInt8.or_zero] at zero

/-- The length field of a long record counts, past the 16 bytes a short one
can take, the length bytes beyond the first, the head and the body. -/
theorem longLength_add {len headEnd : Nat} (long : 16 < headEnd + len) (small : headEnd + len < min4Byte) :
    longLength len headEnd + 15 - varintSize (longLength len headEnd) = headEnd + len - 1 := by
  have bounds := And.intro (And.intro min2Byte_eq min3Byte_eq) (And.intro min4Byte_eq min5Byte_eq)
  unfold longLength varintSize
  dsimp only
  split_ifs <;> omega

theorem longLength_lt {len headEnd : Nat} (small : headEnd + len < min4Byte) :
    longLength len headEnd < mlogDecodeError := by
  have bounds := And.intro (And.intro min2Byte_eq min3Byte_eq) (And.intro min4Byte_eq mlogDecodeError_eq)
  unfold longLength
  dsimp only
  split_ifs <;> omega

/-- The readers take from every record that `log_write` and its caller
write the length it has: the length bytes and `rlen` cover the head after
the first byte and the body, whatever follows the record. -/
theorem recordLength_logWrite (type : LogType) (m : MtrLog) (id : PageId) (bpage : Option PageId)
    (offset : Nat) (body rest : List UInt8) (small : body.length ≤ univPageSizeMax)
    (nonempty : type.haveLen = true → 0 < body.length) :
    (recordLength ((logWrite type m id bpage body.length offset).1.headD 0)
        ((logWrite type m id bpage body.length offset).1.tail ++ body ++ rest)).2 +
      (recordLength ((logWrite type m id bpage body.length offset).1.headD 0)
        ((logWrite type m id bpage body.length offset).1.tail ++ body ++ rest)).1 =
      (logWrite type m id bpage body.length offset).1.tail.length + body.length := by
  obtain ⟨samePage, fields, hsp, fieldsLen, fieldsNil, ⟨record, long⟩ | ⟨record, short⟩⟩ :=
    logWrite_shape type m id bpage body.length offset
  · -- nibble 0: the length field follows the first byte
    have bound : 1 + fields.length + body.length < min4Byte := by
      rw [min4Byte_eq]; rw [univPageSizeMax] at small; omega
    have field := longLength_add long bound
    have fits := @longLength_lt body.length _ bound
    rw [record, List.headD_cons, List.tail_cons]
    simp only [recordLength, nibble_first_byte_long type hsp, ↓reduceIte, List.append_assoc,
      mlogDecodeVarintLength_encode, mlogDecodeVarint_encode _ fits, List.length_append, length_mlogEncodeVarint]
    omega
  · -- the nibble is the length
    have filled : 0 < fields.length + body.length := by
      rcases fields with _ | ⟨f, fields⟩
      · exact Nat.lt_of_lt_of_le (nonempty (fieldsNil rfl)) (by simp)
      · simp
    rw [record, List.headD_cons, List.tail_cons]
    simp only [recordLength, nibble_first_byte type hsp (show fields.length + body.length < 16 by omega),
      Nat.pos_iff_ne_zero.mp filled, ↓reduceIte]
    omega

theorem recordLength_logWrite_write_twenty :
    (recordLength ((logWrite writeType ⟨true, none, 0⟩ ⟨0, 3⟩ (some ⟨0, 3⟩) (List.replicate 20 0xAB).length 100).1.headD 0)
        ((logWrite writeType ⟨true, none, 0⟩ ⟨0, 3⟩ (some ⟨0, 3⟩) (List.replicate 20 0xAB).length 100).1.tail ++
          List.replicate 20 0xAB ++ [0])).2 +
      (recordLength ((logWrite writeType ⟨true, none, 0⟩ ⟨0, 3⟩ (some ⟨0, 3⟩) (List.replicate 20 0xAB).length 100).1.headD 0)
        ((logWrite writeType ⟨true, none, 0⟩ ⟨0, 3⟩ (some ⟨0, 3⟩) (List.replicate 20 0xAB).length 100).1.tail ++
          List.replicate 20 0xAB ++ [0])).1 =
      (logWrite writeType ⟨true, none, 0⟩ ⟨0, 3⟩ (some ⟨0, 3⟩) (List.replicate 20 0xAB).length 100).1.tail.length + 20 :=
  recordLength_logWrite writeType ⟨true, none, 0⟩ ⟨0, 3⟩ (some ⟨0, 3⟩) 100 (List.replicate 20 0xAB) [0] (by decide)
    (fun _ => by decide)

example : logWrite writeType ⟨true, none, 0⟩ ⟨0, 3⟩ (some ⟨0, 3⟩) 2 100 =
    ([0x35, 0, 3, 100], ⟨true, some ⟨0, 3⟩, 0⟩) := by decide

/-! ### The head of a page write record -/

/-- The head of a record as mtr0types.h lays it out: for more than 15 bytes
after the first, a first byte of type and flag alone and the length field;
for fewer, the count in the first byte. `fields` are the page identifier
and offset, and `len` bytes of body follow. -/
def recordHead (type : LogType) (samePage : UInt8) (fields : List UInt8) (len : Nat) : List UInt8 :=
  if 1 + fields.length + len > 16 then
    (type.code ||| samePage) :: (mlogEncodeVarint (longLength len (1 + fields.length)) ++ fields)
  else (type.code ||| samePage ||| UInt8.ofNat (fields.length + len)) :: fields

theorem length_recordHead_le (type : LogType) (samePage : UInt8) {fields : List UInt8} {len : Nat}
    (small : 1 + fields.length + len < min4Byte) : (recordHead type samePage fields len).length ≤ 4 + fields.length := by
  unfold recordHead
  split_ifs
  · have fieldSmall : longLength len (1 + fields.length) < min4Byte := by
      unfold longLength
      dsimp only
      split_ifs <;> omega
    have := varintSize_le_three fieldSmall
    simp only [List.length_cons, List.length_append, length_mlogEncodeVarint]
    omega
  · simp only [List.length_cons]
    omega

theorem haveLen_of_haveOffset {type : LogType} (hoff : type.haveOffset = true) : type.haveLen = true := by
  unfold LogType.haveOffset at hoff
  unfold LogType.haveLen
  rcases type with ⟨code, _, _⟩
  simp only [Bool.or_eq_true, beq_iff_eq] at hoff
  rcases hoff with (rfl | rfl) | rfl <;> rfl

/-- `log_write` for a WRITE, MEMSET or MEMMOVE record of the page `id`: after
a record for the same page that ended at or before `offset`, the offset
relative from it and no page identifier; otherwise the page identifier and
the offset itself, and the page becomes the last one. -/
theorem logWrite_offset {type : LogType} (hoff : type.haveOffset = true) (m : MtrLog) (id : PageId)
    (len offset : Nat) :
    logWrite type m id (some id) len offset =
      if m.last = some id ∧ m.lastOffset ≤ offset then
        (recordHead type 0x80 (mlogEncodeVarint (offset - m.lastOffset)) len, m)
      else
        (recordHead type 0 (mlogEncodeVarint id.space ++ mlogEncodeVarint id.pageNo ++ mlogEncodeVarint offset) len,
          { m with last := some id }) := by
  have withLen := haveLen_of_haveOffset hoff
  by_cases same : m.last = some id ∧ m.lastOffset ≤ offset
  · -- `max_len= 1 + 3 + 3` sets `same_page`
    have maxLen : logWriteMaxLen type m (some id) offset = (1 + 3 + 3, offset - m.lastOffset) := by
      simp only [logWriteMaxLen, withLen, hoff, Option.isSome_some, same, and_self, Bool.not_true,
        Bool.false_eq_true, ↓reduceIte]
    simp only [logWrite, maxLen, if_pos same, hoff, recordHead, List.length_append, length_mlogEncodeVarint,
      Nat.reduceAdd, Nat.reduceLT, ↓reduceIte, show (128 : UInt8) ≠ 0 by decide, List.length_nil,
      Nat.add_zero, List.nil_append, List.append_nil, Nat.add_assoc, Nat.add_sub_cancel_left]
    split_ifs <;> rfl
  · have maxLen : logWriteMaxLen type m (some id) offset = (1 + 3 + 5 + 5 + 3, offset) := by
      simp only [logWriteMaxLen, withLen, hoff, Option.isSome_some, true_and, same, Bool.not_true,
        Bool.false_eq_true, ↓reduceIte]
    simp only [logWrite, maxLen, if_neg same, hoff, recordHead, List.length_append, length_mlogEncodeVarint,
      Nat.reduceAdd, Nat.reduceLT, ↓reduceIte, List.append_assoc, Nat.add_assoc, Nat.add_sub_cancel_left]
    split_ifs <;> rfl

/-- `log_write` for page `id` leaves the page as the last one. -/
theorem logWrite_snd {type : LogType} (hoff : type.haveOffset = true) (m : MtrLog) (id : PageId)
    (len offset : Nat) : (logWrite type m id (some id) len offset).2 = { m with last := some id } := by
  rw [logWrite_offset hoff]
  split_ifs with same
  · rw [← same.1]
  · rfl

/-- `mlog_decode_len(log, end)`: `log` holds the bytes from `log` up to `end`,
at least one (`ut_ad(log < end)`); `none` where the code reads at or past
`end`. -/
def mlogDecodeLen (log : List UInt8) : Option Nat :=
  let i := (log.headD 0).toNat
  if i = 0 then some 0  -- end of mini-transaction
  else if compl32 i &&& 15 ≠ 0 then some ((i &&& 15) + 1)
  else
    match log.drop 1 with
    | [] => some 0  -- end of buffer
    | first :: more =>
      let i := first.toNat
      if i < min2Byte then some (16 + i)
      else if i < 0xc0 then
        match more with
        | [] => some 0
        | b1 :: _ => some (16 + min2Byte + ((i &&& compl32 0xc0) <<< 8 ||| b1.toNat))
      else if i < 0xe0 then
        match more with
        | [_] => some 0
        | b1 :: b2 :: _ => some (16 + min3Byte + ((i &&& compl32 0xe0) <<< 16 ||| b1.toNat <<< 8 ||| b2.toNat))
        -- `log + 2 == end` misses `log + 1 == end`: `log[1]` and `log[2]` lie past `end`
        | [] => none
      else some mlogDecodeError

/-- The low four bits of a byte, and of its 32-bit complement. -/
theorem and_fifteen_byte : ∀ i < 256, i &&& 15 = i % 16 ∧ compl32 i &&& 15 = 15 - i % 16 := by
  decide +kernel

/-- `mlog_decode_len` on the records that `log_write` and its caller write:
it returns 1 for every record longer than 16 bytes, whose first byte has no
length bits, and the length of every record shorter than 16 bytes. -/
theorem mlogDecodeLen_logWrite (type : LogType) (m : MtrLog) (id : PageId) (bpage : Option PageId)
    (offset : Nat) (body rest : List UInt8) (nonempty : type.haveLen = true → 0 < body.length)
    (noBody : type.haveLen = false → body = []) :
    (16 < (logWrite type m id bpage body.length offset).1.length + body.length →
      mlogDecodeLen ((logWrite type m id bpage body.length offset).1 ++ body ++ rest) = some 1) ∧
    ((logWrite type m id bpage body.length offset).1.length + body.length < 16 →
      mlogDecodeLen ((logWrite type m id bpage body.length offset).1 ++ body ++ rest) =
        some ((logWrite type m id bpage body.length offset).1.length + body.length)) := by
  obtain ⟨samePage, fields, hsp, fieldsLen, fieldsNil, ⟨record, long⟩ | ⟨record, short⟩⟩ :=
    logWrite_shape type m id bpage body.length offset
  · -- a long record: only `FREE_PAGE` has the type code 0, and it has no body
    have withBody : type.haveLen = true := by
      cases h : type.haveLen
      · rw [noBody h, List.length_nil] at long; omega
      · rfl
    have first := nibble_first_byte_long type hsp
    have code : type.code ≠ 0 := by
      intro zero
      rw [LogType.haveLen, zero] at withBody
      exact absurd withBody (by decide)
    have nonzero : (type.code ||| samePage).toNat ≠ 0 := by
      rw [UInt8.toNat_or]
      intro zero
      exact code (UInt8.toNat_inj.mp (Nat.eq_zero_of_le_zero (zero ▸ Nat.left_le_or)))
    obtain ⟨low, lowCompl⟩ := and_fifteen_byte _ (type.code ||| samePage).toNat_lt
    rw [UInt8.toNat_and, show (0xf : UInt8).toNat = 15 from rfl, low] at first
    refine ⟨fun _ => ?_, fun short => ?_⟩
    · rw [record]
      simp only [mlogDecodeLen, List.cons_append, List.headD_cons, nonzero, ↓reduceIte, lowCompl, first, low]
      rfl
    · rw [record, List.length_cons, List.length_append, length_mlogEncodeVarint] at short
      omega
  · -- a short record: its length bits count the bytes after the first
    have filled : 0 < fields.length + body.length := by
      rcases fields with _ | ⟨f, fields⟩
      · exact Nat.lt_of_lt_of_le (nonempty (fieldsNil rfl)) (by simp)
      · simp
    have first := nibble_first_byte type hsp (show fields.length + body.length < 16 by omega)
    obtain ⟨low, lowCompl⟩ := and_fifteen_byte _
      (type.code ||| samePage ||| UInt8.ofNat (fields.length + body.length)).toNat_lt
    rw [UInt8.toNat_and, show (0xf : UInt8).toNat = 15 from rfl, low] at first
    have nonzero : (type.code ||| samePage ||| UInt8.ofNat (fields.length + body.length)).toNat ≠ 0 := by
      intro zero
      rw [zero] at first
      omega
    refine ⟨fun long => ?_, fun lessThan => ?_⟩
    · rw [record, List.length_cons] at long
      omega
    · rw [record]
      rw [record, List.length_cons] at lessThan
      simp only [mlogDecodeLen, List.cons_append, List.headD_cons, nonzero, ↓reduceIte, lowCompl, first, low]
      rw [if_pos (show 15 - (fields.length + body.length) ≠ 0 by omega), List.length_cons]
      congr 1
      omega

/-- A WRITE of 20 bytes at offset 100 of page 3 in a fresh mini-transaction:
`log_write` gives it the length field 9, the readers take the record as
1 + 1 + 23 = 25 bytes, and `mlog_decode_len` as one. -/
theorem mlogDecodeLen_logWrite_write_twenty :
    (logWrite writeType ⟨true, none, 0⟩ ⟨0, 3⟩ (some ⟨0, 3⟩) (List.replicate 20 0xAB).length 100).1 =
        [0x30, 9, 0, 3, 100] ∧
      recordLength 0x30 ([9, 0, 3, 100] ++ List.replicate 20 0xAB) = (23, 1) ∧
      mlogDecodeLen ((logWrite writeType ⟨true, none, 0⟩ ⟨0, 3⟩ (some ⟨0, 3⟩) (List.replicate 20 0xAB).length
        100).1 ++ List.replicate 20 0xAB ++ []) = some 1 :=
  ⟨by decide, by decide, (mlogDecodeLen_logWrite writeType ⟨true, none, 0⟩ ⟨0, 3⟩ (some ⟨0, 3⟩) 100
    (List.replicate 20 0xAB) [] (fun _ => by decide) (fun h => absurd h (by decide))).1 (by decide)⟩

/-! ## Writing pages -/

section Methods

open Memory

/-- `a - b` in `size_t`. -/
def sizeSub (a b : Nat) : Nat := (a + 2 ^ 64 - b % 2 ^ 64) % 2 ^ 64

theorem sizeSub_self (a : Nat) (h : a < 2 ^ 64) : sizeSub a a = 0 := by
  unfold sizeSub
  rw [Nat.mod_eq_of_lt h, Nat.add_sub_cancel_left, Nat.mod_self]

theorem sizeSub_of_lt {a b : Nat} (h : a < b) (hb : b < 2 ^ 64) : sizeSub a b = 2 ^ 64 - (b - a) := by
  unfold sizeSub
  rw [Nat.mod_eq_of_lt hb, Nat.mod_eq_of_lt (by omega)]
  omega

/-- The bytes `mlog_encode_varint` takes for a length below `MIN_4BYTE`:
`lenlen` and `slen` of the logging methods. -/
def varintLen (len : Nat) : Nat := if len < min2Byte then 1 else if len < min3Byte then 2 else 3

/-- `mtr_t::memcpy_low(block, offset, data, len)`: the WRITE record of the
bytes `data` at `offset` of page `id`, and the mini-transaction after it. -/
def mtrMemcpyLow (m : MtrLog) (id : PageId) (offset : Nat) (data : List UInt8) : List UInt8 × MtrLog :=
  if !m.logged then ([], m)
  else
    let (head, m) := logWrite writeType m id (some id) data.length offset
    (head ++ data, { m with lastOffset := (offset + data.length) % 2 ^ 16 })

/-- `mtr_t::memset(const buf_block_t &b, ofs, len, str, size)`: the MEMSET
record of `len` bytes repeating the `size` bytes of `str` from `ofs` of page
`id`, and the mini-transaction after it. -/
def mtrMemsetLog (m : MtrLog) (id : PageId) (ofs len : Nat) (str : List UInt8) : List UInt8 × MtrLog :=
  if !m.logged then ([], m)
  else
    let (head, m) := logWrite memsetType m id (some id) (varintLen len + str.length) ofs
    (head ++ mlogEncodeVarint len ++ str, { m with lastOffset := (ofs + len) % 2 ^ 16 })

/-- The page writes of `mtr_t::memset(const buf_block_t *b, ofs, len, str, size)`
on the frame of the page: its loop advances `s` by `len` and not by `size`,
so two rounds are fuel enough. -/
def mtrMemsetFrame (frame : Nat → UInt8) (ofs len : Nat) (str : List UInt8) : Option (Nat → UInt8) := do
  let (frame, s) ← copyLoop ofs len len str.length (bytes str) 2 0 frame
  pure (copy frame (ofs + s) (bytes str) (sizeSub len s))

/-- `mtr_t::memset(const buf_block_t *b, ofs, len, str, size)`: the frame after
its writes, then the record that it logs through the other overload. -/
def mtrMemsetPtr (m : MtrLog) (frame : Nat → UInt8) (id : PageId) (ofs len : Nat) (str : List UInt8) :
    Option ((Nat → UInt8) × List UInt8 × MtrLog) :=
  (mtrMemsetFrame frame ofs len str).map fun frame => (frame, mtrMemsetLog m id ofs len str)

/-- `mtr_t::memset(const buf_block_t &b, ofs, len, val)`: the MEMSET record
of `len` bytes `val` from `ofs` of page `id`, and the mini-transaction after
it. -/
def mtrMemsetValLog (m : MtrLog) (id : PageId) (ofs len : Nat) (val : UInt8) : List UInt8 × MtrLog :=
  if !m.logged then ([], m)
  else
    -- `lenlen` counts the byte `val` after the length
    let head := logWrite memsetType m id (some id) (varintLen len + 1) ofs
    (head.1 ++ mlogEncodeVarint len ++ [val], { head.2 with lastOffset := (ofs + len) % 2 ^ 16 })

/-- `mtr_t::memset(const buf_block_t *b, ofs, len, val)`: `::memset` of the
frame, then the record of the other overload. -/
def mtrMemsetValPtr (m : MtrLog) (frame : Nat → UInt8) (id : PageId) (ofs len : Nat) (val : UInt8) :
    (Nat → UInt8) × List UInt8 × MtrLog :=
  (copy frame ofs (fun _ => val) len, mtrMemsetValLog m id ofs len val)

/-- `mtr_t::memmove(b, d, s, len)`: the MEMMOVE record of copying `len` bytes
from `s` to `d` of page `id`, the source relative to the destination with
the sign in the lowest bit. -/
def mtrMemmoveLog (m : MtrLog) (id : PageId) (d s len : Nat) : List UInt8 × MtrLog :=
  if !m.logged then ([], m)
  else
    let s := (if s > d then (s - d) <<< 1 else (d - s) <<< 1 ||| 1) - (1 <<< 1)
    let (head, m) := logWrite memmoveType m id (some id) (varintLen len + varintLen s) d
    (head ++ mlogEncodeVarint len ++ mlogEncodeVarint s, { m with lastOffset := (d + len) % 2 ^ 16 })

/-- The source offset that `mtr_t::memmove` logs: relative to the
destination `d`, with the sign in the least significant bit, less 2 because
the source is never the destination. -/
def memmoveSourceCode (d s : Nat) : Nat :=
  (if s > d then (s - d) <<< 1 else (d - s) <<< 1 ||| 1) - (1 <<< 1)

/-- A source after the destination: twice the distance, less 2. -/
theorem memmoveSourceCode_of_lt {d s : Nat} (after : d < s) : memmoveSourceCode d s = 2 * (s - d - 1) := by
  unfold memmoveSourceCode
  rw [if_pos after, Nat.shiftLeft_eq, Nat.shiftLeft_eq]
  omega

/-- A source before the destination: twice the distance with the sign bit, less 2. -/
theorem memmoveSourceCode_of_gt {d s : Nat} (before : s < d) : memmoveSourceCode d s = 2 * (d - s - 1) + 1 := by
  unfold memmoveSourceCode
  rw [if_neg (by omega), Utf8.shiftLeft_or_eq_add (show 1 < 2 ^ 1 by decide), Nat.shiftLeft_eq]
  omega

/-- The source code of two offsets in a page fits three bytes. -/
theorem memmoveSourceCode_lt {d s : Nat} (hd : d < 2 ^ 16) (hs : s < 2 ^ 16) : memmoveSourceCode d s < min4Byte := by
  rw [min4Byte_eq]
  rcases Nat.lt_or_ge d s with after | atMost
  · rw [memmoveSourceCode_of_lt after]
    omega
  · unfold memmoveSourceCode
    rw [if_neg (by omega)]
    have odd := @Utf8.shiftLeft_or_eq_add (d - s) 1 1 (by decide)
    rw [odd, Nat.shiftLeft_eq]
    omega

/-- The template argument `w` of `mtr_t::memcpy`: `NORMAL` and `MAYBE_NOP`
log from the first byte that changes, `FORCED` every byte. -/
inductive WriteType where
  | normal
  | maybeNop
  | forced
  deriving DecidableEq, Repr

/-- The loop `while (*d++ == *s++)`: how many bytes of `str` the frame
already holds from `offset` on, up to the first that differs. -/
def samePrefix (frame : Nat → UInt8) (offset : Nat) : List UInt8 → Nat
  | [] => 0
  | c :: cs => if frame offset = c then samePrefix frame (offset + 1) cs + 1 else 0

theorem samePrefix_cons (frame : Nat → UInt8) (offset : Nat) (c : UInt8) (cs : List UInt8) :
    samePrefix frame offset (c :: cs) = if frame offset = c then samePrefix frame (offset + 1) cs + 1 else 0 := rfl

/-- `mtr_t::memcpy(b, offset, len)`: the WRITE record of the `len` bytes the
frame holds from `offset`. -/
def mtrMemcpyAt (m : MtrLog) (frame : Nat → UInt8) (id : PageId) (offset len : Nat) : List UInt8 × MtrLog :=
  mtrMemcpyLow m id (offset % 2 ^ 16) (read frame offset len)

/-- `mtr_t::memcpy<w>(b, dest, str, len)` with `dest` at `offset` of page
`id`: the frame after it, and the record it logs. Unless the write is
`FORCED` or not logged, the bytes the frame already holds are skipped, and
when they are all of them nothing is written or logged. -/
def mtrMemcpy (w : WriteType) (m : MtrLog) (frame : Nat → UInt8) (id : PageId) (offset : Nat) (str : List UInt8) :
    (Nat → UInt8) × List UInt8 × MtrLog :=
  if w ≠ .forced ∧ m.logged = true then
    let skip := samePrefix frame offset str
    if skip = str.length then (frame, [], m)
    else
      let frame := copy frame (offset + skip) (bytes (str.drop skip)) (str.length - skip)
      let (log, m) := mtrMemcpyAt m frame id (offset + skip) (str.length - skip)
      (frame, log, m)
  else
    let frame := copy frame offset (bytes str) str.length
    let (log, m) := mtrMemcpyAt m frame id offset str.length
    (frame, log, m)

theorem samePrefix_le (frame : Nat → UInt8) (offset : Nat) (str : List UInt8) :
    samePrefix frame offset str ≤ str.length := by
  induction str generalizing offset with
  | nil => exact Nat.le_refl 0
  | cons c cs ih =>
    rw [samePrefix_cons]
    split
    · simp only [List.length_cons, Nat.add_le_add_iff_right, ih]
    · exact Nat.zero_le _

/-- The bytes the loop passes over are in the frame already. -/
theorem samePrefix_held (frame : Nat → UInt8) (offset : Nat) (str : List UInt8) :
    ∀ i < samePrefix frame offset str, frame (offset + i) = bytes str i := by
  induction str generalizing offset with
  | nil => intro i h; exact absurd h (Nat.not_lt_zero i)
  | cons c cs ih =>
    intro i h
    rw [samePrefix_cons] at h
    split at h
    · next held =>
      cases i with
      | zero => exact held
      | succ i =>
        rw [← Nat.add_assoc, Nat.add_right_comm, ih (offset + 1) i (by omega)]
        rfl
    · exact absurd h (Nat.not_lt_zero i)

theorem bytes_drop (l : List UInt8) (k : Nat) : bytes (l.drop k) = fun i => bytes l (k + i) := by
  funext i
  simp only [bytes_apply, List.getD_eq_getElem?_getD, List.getElem?_drop]

/-- `mtr_t::memcpy<w>` as the cases of its body: nothing when the write is
not forced and the frame holds `str` already; otherwise the bytes from the
first one it does not skip land in the frame, and the WRITE record of
`memcpy_low` carries them. -/
theorem mtrMemcpy_cases (w : WriteType) (m : MtrLog) (frame : Nat → UInt8) (id : PageId) {offset : Nat}
    {str : List UInt8} (nonempty : 0 < str.length) (fits : offset + str.length ≤ 2 ^ 16) :
    (m.logged = true ∧ mtrMemcpy w m frame id offset str = (frame, [], m) ∧ samePrefix frame offset str = str.length) ∨
    ∃ skip, skip < str.length ∧ (∀ i < skip, frame (offset + i) = bytes str i) ∧
      mtrMemcpy w m frame id offset str =
        (copy frame (offset + skip) (bytes (str.drop skip)) (str.length - skip),
          mtrMemcpyLow m id (offset + skip) (str.drop skip)) := by
  have logged : ∀ skip, skip < str.length →
      mtrMemcpyAt m (copy frame (offset + skip) (bytes (str.drop skip)) (str.length - skip)) id (offset + skip)
        (str.length - skip) = mtrMemcpyLow m id (offset + skip) (str.drop skip) := by
    intro skip short
    have length : str.length - skip = (str.drop skip).length := (List.length_drop ..).symm
    rw [mtrMemcpyAt, Nat.mod_eq_of_lt (by omega), length, read_copy_bytes]
  unfold mtrMemcpy
  dsimp only
  split_ifs with skipping whole
  · exact .inl ⟨skipping.2, rfl, whole⟩
  · have short : samePrefix frame offset str < str.length := Nat.lt_of_le_of_ne (samePrefix_le ..) whole
    exact .inr ⟨_, short, samePrefix_held frame offset str, by rw [logged _ short]⟩
  · refine .inr ⟨0, nonempty, fun i h => absurd h (Nat.not_lt_zero i), ?_⟩
    have whole := logged 0 nonempty
    simp only [Nat.add_zero, List.drop_zero, Nat.sub_zero] at whole ⊢
    rw [whole]

/-- Whatever `w`, `mtr_t::memcpy<w>` leaves the frame holding `str` at
`offset`. -/
theorem mtrMemcpy_frame (w : WriteType) (m : MtrLog) (frame : Nat → UInt8) (id : PageId) {offset : Nat}
    {str : List UInt8} (nonempty : 0 < str.length) (fits : offset + str.length ≤ 2 ^ 16) :
    (mtrMemcpy w m frame id offset str).1 = copy frame offset (bytes str) str.length := by
  rcases mtrMemcpy_cases w m frame id nonempty fits with ⟨-, nothing, whole⟩ | ⟨skip, short, held, written⟩
  · -- every byte is in place: `copy` of them changes nothing
    rw [nothing, ← copy_skip frame offset (bytes str) (Nat.le_refl _) (whole ▸ samePrefix_held frame offset str),
      Nat.sub_self, copy_zero]
  · rw [written, bytes_drop, copy_skip frame offset (bytes str) short.le held]

/-- The pointer overload writes the pattern once: its first `size` bytes
from `ofs`, and leaves the rest of the `len` bytes as they were. -/
theorem mtrMemsetFrame_eq (frame : Nat → UInt8) (ofs : Nat) {len : Nat} (str : List UInt8) (pos : 0 < len)
    (small : len < 2 ^ 64) : mtrMemsetFrame frame ofs len str = some (copy frame ofs (bytes str) str.length) := by
  simp only [mtrMemsetFrame, copyLoop_succ, if_pos pos, Nat.zero_add, Nat.lt_irrefl, ↓reduceIte, Nat.add_zero]
  show some (copy (copy frame ofs (bytes str) str.length) (ofs + len) (bytes str) (sizeSub len len)) = _
  rw [sizeSub_self len small, copy_zero]

theorem varintLen_eq_varintSize {len : Nat} (h : len < min4Byte) : varintLen len = varintSize len := by
  unfold varintLen varintSize
  split_ifs <;> omega

/-- `mtr_t::memcpy_low` on a logged mini-transaction: the WRITE record, after
a record for the same page that ended at or before `offset` with the offset
relative from it, and otherwise with the page identifier. -/
theorem mtrMemcpyLow_eq {m : MtrLog} (logged : m.logged = true) (id : PageId) (offset : Nat) (data : List UInt8) :
    mtrMemcpyLow m id offset data =
      if m.last = some id ∧ m.lastOffset ≤ offset then
        (recordHead writeType 0x80 (mlogEncodeVarint (offset - m.lastOffset)) data.length ++ data,
          { m with lastOffset := (offset + data.length) % 2 ^ 16 })
      else
        (recordHead writeType 0 (mlogEncodeVarint id.space ++ mlogEncodeVarint id.pageNo ++ mlogEncodeVarint offset)
          data.length ++ data, { m with last := some id, lastOffset := (offset + data.length) % 2 ^ 16 }) := by
  unfold mtrMemcpyLow
  rw [if_neg (by rw [logged]; decide), logWrite_offset (show writeType.haveOffset = true from rfl)]
  split_ifs <;> rfl

/-- After `mtr_t::memcpy_low`, the mini-transaction's last record is for the
page, and ended where the write ends. -/
theorem mtrMemcpyLow_snd {m : MtrLog} (logged : m.logged = true) (id : PageId) (offset : Nat) (data : List UInt8) :
    (mtrMemcpyLow m id offset data).2 = ⟨true, some id, (offset + data.length) % 2 ^ 16⟩ := by
  obtain ⟨_, last, _⟩ := m
  cases logged
  rw [mtrMemcpyLow_eq rfl]
  split_ifs with same
  · rw [same.1]
  · rfl

/-- `mtr_t::memset` (the logging overload) on a logged mini-transaction: the
MEMSET record whose body is the length field and the pattern. -/
theorem mtrMemsetLog_eq {m : MtrLog} (logged : m.logged = true) (id : PageId) (ofs : Nat) {len : Nat}
    (lenSmall : len < min4Byte) (str : List UInt8) :
    mtrMemsetLog m id ofs len str =
      if m.last = some id ∧ m.lastOffset ≤ ofs then
        (recordHead memsetType 0x80 (mlogEncodeVarint (ofs - m.lastOffset)) (mlogEncodeVarint len ++ str).length ++
          (mlogEncodeVarint len ++ str), { m with lastOffset := (ofs + len) % 2 ^ 16 })
      else
        (recordHead memsetType 0 (mlogEncodeVarint id.space ++ mlogEncodeVarint id.pageNo ++ mlogEncodeVarint ofs)
          (mlogEncodeVarint len ++ str).length ++ (mlogEncodeVarint len ++ str),
          { m with last := some id, lastOffset := (ofs + len) % 2 ^ 16 }) := by
  unfold mtrMemsetLog
  rw [if_neg (by rw [logged]; decide), logWrite_offset (show memsetType.haveOffset = true from rfl),
    varintLen_eq_varintSize lenSmall, List.length_append, length_mlogEncodeVarint]
  split_ifs <;> simp only [List.append_assoc]

/-- `mtr_t::memset` of a byte is the MEMSET record of a pattern of one byte. -/
theorem mtrMemsetValLog_eq_mtrMemsetLog (m : MtrLog) (id : PageId) (ofs len : Nat) (val : UInt8) :
    mtrMemsetValLog m id ofs len val = mtrMemsetLog m id ofs len [val] := rfl

/-- `mtr_t::memset` of a byte on a logged mini-transaction: the record
`log_write` heads, with the length and the byte as its body. -/
theorem mtrMemsetValLog_eq {m : MtrLog} (logged : m.logged = true) (id : PageId) (ofs : Nat) {len : Nat}
    (lenSmall : len < min4Byte) (val : UInt8) :
    mtrMemsetValLog m id ofs len val =
      ((logWrite memsetType m id (some id) (mlogEncodeVarint len ++ [val]).length ofs).1 ++ (mlogEncodeVarint len ++ [val]),
        ⟨true, some id, (ofs + len) % 2 ^ 16⟩) := by
  have state := logWrite_snd (show memsetType.haveOffset = true from rfl) m id (mlogEncodeVarint len ++ [val]).length ofs
  unfold mtrMemsetValLog
  rw [if_neg (by rw [logged]; decide)]
  dsimp only
  rw [List.length_append, length_mlogEncodeVarint, List.length_singleton, ← varintLen_eq_varintSize lenSmall] at state ⊢
  rw [state, ← List.append_assoc]
  obtain ⟨_, last, _⟩ := m
  cases logged
  rfl

/-- `mtr_t::memmove` on a logged mini-transaction: the record `log_write`
heads, with the length and the source code as its body. -/
theorem mtrMemmoveLog_eq {m : MtrLog} (logged : m.logged = true) (id : PageId) (d s : Nat) {len : Nat}
    (lenSmall : len < min4Byte) (codeSmall : memmoveSourceCode d s < min4Byte) :
    mtrMemmoveLog m id d s len =
      ((logWrite memmoveType m id (some id) (mlogEncodeVarint len ++ mlogEncodeVarint (memmoveSourceCode d s)).length
          d).1 ++ (mlogEncodeVarint len ++ mlogEncodeVarint (memmoveSourceCode d s)),
        ⟨true, some id, (d + len) % 2 ^ 16⟩) := by
  have body : varintLen len + varintLen (memmoveSourceCode d s) =
      (mlogEncodeVarint len ++ mlogEncodeVarint (memmoveSourceCode d s)).length := by
    rw [List.length_append, length_mlogEncodeVarint, length_mlogEncodeVarint, varintLen_eq_varintSize lenSmall,
      varintLen_eq_varintSize codeSmall]
  have state := logWrite_snd (show memmoveType.haveOffset = true from rfl) m id
    (mlogEncodeVarint len ++ mlogEncodeVarint (memmoveSourceCode d s)).length d
  unfold mtrMemmoveLog
  rw [if_neg (by rw [logged]; decide)]
  dsimp only
  rw [← memmoveSourceCode, body, ← List.append_assoc]
  obtain ⟨_, last, _⟩ := m
  cases logged
  -- the record and the state are the two halves of what `log_write` returns
  rw [← @Prod.mk.eta _ _ (logWrite _ _ _ _ _ _), state]

end Methods

end MariaDB.Innobase
