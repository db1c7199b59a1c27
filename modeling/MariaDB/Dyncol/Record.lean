import Mathlib.Data.List.Sort
import MariaDB.Dyncol.Values
import MariaDB.Search.Bsearch

set_option autoImplicit false

/- Writing and reading whole dynamic-column records, mysys/ma_dyncol.c:
`mariadb_dyncol_create_many_num/_named` through `calc_var_sizes` and
`dynamic_new_column_store`, the header readers `read_fixed_header` and
`init_read_hdr`, `hdr_interval_length`, the lookups `find_entry_num`
(`bsearch` on the 2-byte column numbers), `find_entry_named` and
`find_column`, and on top of them `mariadb_dyncol_get_num/_named`,
`mariadb_dyncol_unpack` and the validator `mariadb_dyncol_check`.
Positions in a record are byte offsets from its start. -/
namespace MariaDB.Dyncol

open LittleEndian

/-- A `LEX_STRING`: the bytes from its pointer on and its length. A name
read from a damaged directory may claim more bytes than the record has. -/
structure LexString where
  str : List UInt8
  length : Nat
  deriving Repr, DecidableEq

/-- The `LEX_STRING` of a byte string. -/
def LexString.ofBytes (bytes : List UInt8) : LexString := ⟨bytes, bytes.length⟩

/-- `mariadb_dyncol_column_cmp_named`: the shorter name first, names of one
length by `memcmp`. -/
def mariadbDyncolColumnCmpNamed (s1 s2 : LexString) : Ordering :=
  if s1.length > s2.length then .gt
  else if s1.length < s2.length then .lt
  else BigEndian.memcmp (s1.str.take s1.length) (s2.str.take s1.length)

/-- `column_sort_num`: `**a - **b`, an unsigned difference returned as `int`. -/
def columnSortNum (a b : Nat) : Ordering :=
  let d := ((a : Int) - b) % 2 ^ 32
  compare (if d < 2 ^ 31 then d else d - 2 ^ 32) 0

/-! ## Writing -/

/-- `put_header_entry_num`: the column number and the type-and-offset field. -/
def putHeaderEntryNum (offsetSize _nameOffset : Nat) (columnNumber : Nat) (type : ColumnType)
    (offset : Nat) : Option (List UInt8 × List UInt8) :=
  (typeAndOffsetStoreNum offsetSize type offset).map fun field => (intStore 2 columnNumber ++ field, [])

/-- `put_header_entry_named`: the offset of the name in the pool, the
type-and-offset field, and the name copied into the pool. -/
def putHeaderEntryNamed (offsetSize nameOffset : Nat) (columnName : LexString) (type : ColumnType)
    (offset : Nat) : Option (List UInt8 × List UInt8) :=
  (typeAndOffsetStoreNamed offsetSize type offset).map fun field =>
    (intStore 2 nameOffset ++ field, columnName.str.take columnName.length)

/-- The members of `struct st_service_funcs` that the writer calls, for
keys of type `κ`. `setFixedHdr` gets the offset size, the column count and
the name pool size; `putHeaderEntry` the offset size, the bytes of the name
pool written so far, the key, the type and the data offset, and gives the
entry and the bytes it adds to the name pool. -/
structure KeyFuncs (κ : Type) where
  format : Format
  nameSize : κ → Nat
  columnSort : κ → κ → Ordering
  checkLimit : κ → Bool
  setFixedHdr : Nat → Nat → Nat → List UInt8
  putHeaderEntry : Nat → Nat → κ → ColumnType → Nat → Option (List UInt8 × List UInt8)

/-- `fmt_data[dyncol_fmt_num]`. The writers have cleared the flag byte
before `set_fixed_hdr`. -/
def fmtDataNum : KeyFuncs Nat where
  format := .num
  nameSize := fun _ => 0
  columnSort := columnSortNum
  checkLimit := fun key => key > uintMax16
  setFixedHdr := fun offsetSize columnCount _ => setFixedHeader 0 offsetSize columnCount
  putHeaderEntry := putHeaderEntryNum

/-- `fmt_data[dyncol_fmt_str]`. -/
def fmtDataNamed : KeyFuncs LexString where
  format := .str
  nameSize := fun key => key.length
  columnSort := mariadbDyncolColumnCmpNamed
  checkLimit := fun key => key.length > maxNameLength
  setFixedHdr := setFixedHeaderNamed 0
  putHeaderEntry := putHeaderEntryNamed

/-- The sizes `calc_var_sizes` sets in the header descriptor. -/
structure WriteSizes where
  columnCount : Nat
  dataSize : Nat
  nmpoolSize : Nat
  offsetSize : Nat
  entrySize : Nat
  headerSize : Nat
  deriving Repr, DecidableEq

section Write

variable {κ : Type} (fmt : KeyFuncs κ)

/-- The loop of `calc_var_sizes` over the columns: the non-NULL columns, the
bytes of their data and of their names, and the values as
`dynamic_column_value_len` leaves them. -/
def calcVarSizesLoop : List (κ × Value) → Nat × Nat × Nat × List (κ × Value)
  | [] => (0, 0, 0, [])
  | (key, value) :: rest =>
    let (columnCount, dataSize, nmpoolSize, values) := calcVarSizesLoop rest
    if value.type = .null then (columnCount, dataSize, nmpoolSize, (key, value) :: values)
    else
      let (len, value) := dynamicColumnValueLen value fmt.format
      (columnCount + 1, dataSize + len, nmpoolSize + fmt.nameSize key, (key, value) :: values)

/-- `calc_var_sizes`: the sizes and the updated values, or `ER_DYNCOL_LIMIT`
when the data needs a wider offset than the format has. -/
def calcVarSizes (columns : List (κ × Value)) : Except FuncResult (WriteSizes × List (κ × Value)) :=
  let (columnCount, dataSize, nmpoolSize, columns) := calcVarSizesLoop fmt columns
  let offsetSize := fmt.format.dynamicColumnOffsetBytes dataSize
  if offsetSize ≥ fmt.format.maxOffsetSize then .error .limit
  else
    let entrySize := fmt.format.fixedHdrEntry + offsetSize
    .ok (⟨columnCount, dataSize, nmpoolSize, offsetSize, entrySize, columnCount * entrySize⟩, columns)

/-- The check after the sort: every key within the limit, and no key equal
to the next one; `true` where C returns `ER_DYNCOL_DATA`. -/
def columnsOrderRejected : List κ → Bool
  | [] => false
  | [key] => fmt.checkLimit key
  | key :: next :: rest =>
    fmt.checkLimit key || fmt.columnSort key next == .eq || columnsOrderRejected (next :: rest)

/-- The store loop of `dynamic_new_column_store` over the sorted columns:
for each non-NULL value its directory entry, its name and its data, the
entry's data offset being the data written so far. -/
def newColumnStoreLoop (offsetSize : Nat) :
    List (κ × Value) → List UInt8 → List UInt8 → List UInt8 →
      Except FuncResult (List UInt8 × List UInt8 × List UInt8)
  | [], entries, names, data => .ok (entries, names, data)
  | (key, value) :: rest, entries, names, data =>
    if value.type = .null then newColumnStoreLoop offsetSize rest entries names data
    else
      match fmt.putHeaderEntry offsetSize names.length key value.type data.length with
      | none => .error .format
      | some (entry, name) =>
        newColumnStoreLoop offsetSize rest (entries ++ entry) (names ++ name)
          (data ++ dataStore value fmt.format)

/-- `dynamic_new_column_store`: the record, the fixed header followed by the
directory, the name pool and the data. `qsort` is an insertion sort by
`column_sort` here: on distinct keys within the limit every sort gives the
one order, and any other input ends in `ER_DYNCOL_DATA` whatever the order.
After an error the string's contents are not modelled. -/
def dynamicNewColumnStore (sizes : WriteSizes) (columns : List (κ × Value)) :
    FuncResult × List UInt8 :=
  if columns = [] then (.ok, [])
  else
    let order := columns.insertionSort fun a b => fmt.columnSort a.1 b.1 ≠ .gt
    if columnsOrderRejected fmt (order.map (·.1)) then (.data, [])
    else
      match newColumnStoreLoop fmt sizes.offsetSize order [] [] [] with
      | .error rc => (rc, [])
      | .ok (entries, names, data) =>
        (.ok, fmt.setFixedHdr sizes.offsetSize sizes.columnCount sizes.nmpoolSize ++ entries ++
          names ++ data)

/-- `dynamic_column_create_many_internal_fmt` on the `column_count` keys and
values, paired. -/
def dynamicColumnCreateManyInternalFmt (columns : List (κ × Value)) : FuncResult × List UInt8 :=
  match calcVarSizes fmt columns with
  | .error rc => (rc, [])
  | .ok (sizes, columns) => dynamicNewColumnStore fmt sizes columns

end Write

/-- `mariadb_dyncol_create_many_num`. -/
def mariadbDyncolCreateManyNum (columns : List (Nat × Value)) : FuncResult × List UInt8 :=
  dynamicColumnCreateManyInternalFmt fmtDataNum columns

/-- `mariadb_dyncol_create_many_named`. -/
def mariadbDyncolCreateManyNamed (columns : List (LexString × Value)) : FuncResult × List UInt8 :=
  dynamicColumnCreateManyInternalFmt fmtDataNamed columns

/-! ## Reading the header -/

/-- `DYN_HEADER` as `init_read_hdr` fills it. -/
structure DynHeader where
  format : Format
  offsetSize : Nat
  entrySize : Nat
  headerSize : Nat
  nmpoolSize : Nat
  dataSize : Nat
  columnCount : Nat
  header : Nat
  nmpool : Nat
  dtpool : Nat
  dataEnd : Nat
  deriving Repr, DecidableEq

/-- `read_fixed_header`: the format, the offset size, the column count and
the name pool size, or `none` for an unknown flag or a short string. -/
def readFixedHeader (s : List UInt8) : Option (Format × Nat × Nat × Nat) :=
  let flags := (s.getD 0 0).toNat
  if s.length < 1 ∨ flags &&& (0xff - dyncolFlgKnown) ≠ 0 then none
  else
    let format : Format := if flags &&& dyncolFlgNames ≠ 0 then .str else .num
    if s.length < format.fixedHdr then none
    else
      let offsetSize := (flags &&& dyncolFlgOffset) + 1 + (if format = .str then 1 else 0)
      let columnCount := uintKorr 2 s 1
      let nmpoolSize := if format = .str then uintKorr 2 s 3 else 0
      some (format, offsetSize, columnCount, nmpoolSize)

/-- `init_read_hdr`, `none` for `ER_DYNCOL_FORMAT`. Nothing checks that the
directory fits the string here, so `data_size` may wrap. -/
def initReadHdr (s : List UInt8) : Option DynHeader :=
  (readFixedHeader s).map fun (format, offsetSize, columnCount, nmpoolSize) =>
    let header := format.fixedHdr
    let entrySize := offsetSize + format.fixedHdrEntry
    let headerSize := entrySize * columnCount
    { format, offsetSize, entrySize, headerSize, nmpoolSize, columnCount, header
      nmpool := header + headerSize
      dtpool := header + headerSize + nmpoolSize
      dataSize := sizeT ((s.length : Int) - format.fixedHdr - headerSize - nmpoolSize)
      dataEnd := s.length }

/-- What `hdr_interval_length` leaves in the descriptor and returns: the
type and the data offset of the entry, and the length of its data, which is
`DYNCOL_OFFSET_ERROR` for a bad field or an offset past the data. -/
structure EntryData where
  type : Nat
  offset : Nat
  length : Nat
  deriving Repr, DecidableEq

/-- `hdr_interval_length(hdr, next_entry)` for the entry at `entry`: the
data runs to the next entry's offset, or to the end of the data after the
last entry. -/
def hdrIntervalLength (s : List UInt8) (hdr : DynHeader) (entry nextEntry : Nat) : EntryData :=
  match hdr.format.typeAndOffsetRead s (entry + hdr.format.fixedHdrEntry) hdr.offsetSize with
  | none => ⟨0, 0, dyncolOffsetError⟩
  | some (type, offset) =>
    if hdr.dataSize < offset then ⟨type, offset, dyncolOffsetError⟩
    else if nextEntry = hdr.header + hdr.headerSize then ⟨type, offset, hdr.dataSize - offset⟩
    else
      match hdr.format.typeAndOffsetRead s (nextEntry + hdr.format.fixedHdrEntry) hdr.offsetSize with
      | none => ⟨type, offset, dyncolOffsetError⟩
      | some (_, nextEntryOffset) =>
        if hdr.dataSize < nextEntryOffset then ⟨type, offset, dyncolOffsetError⟩
        else ⟨type, offset, sizeT ((nextEntryOffset : Int) - offset)⟩

/-! ## Finding a column -/

/-- `header_compar_num` on the key and an entry's column number. -/
def headerComparNum (va vb : Nat) : Ordering := compare va vb

/-- `find_entry_num`: the key goes through `int2store` into a 2-byte
buffer, and `bsearch` looks for that among the entries' column numbers. -/
def findEntryNum (s : List UInt8) (hdr : DynHeader) (key : Nat) : Option Nat :=
  let headerEntry := intStore 2 key
  (Bsearch.bsearch (fun idx =>
      headerComparNum (uintKorr 2 headerEntry 0) (uintKorr 2 s (hdr.header + idx * hdr.entrySize)))
    hdr.columnCount).map fun idx => hdr.header + idx * hdr.entrySize

/-- `read_name`: the name of the entry at `entry` runs from its offset in
the pool to the next entry's, or to the end of the pool after the last
entry; `none` for an offset past the pool. -/
def readName (s : List UInt8) (hdr : DynHeader) (entry : Nat) : Option LexString :=
  let nmoffset := uintKorr 2 s entry
  let nextEntry := entry + hdr.entrySize
  if nmoffset > hdr.nmpoolSize then none
  else
    let str := s.drop (hdr.nmpool + nmoffset)
    if nextEntry = hdr.header + hdr.headerSize then some ⟨str, hdr.nmpoolSize - nmoffset⟩
    else
      let nextNmoffset := uintKorr 2 s nextEntry
      if nextNmoffset > hdr.nmpoolSize then none
      else some ⟨str, sizeT ((nextNmoffset : Int) - nmoffset)⟩

/-- The loop of `find_entry_named` on `min` and `max`, offsets from the
start of the directory: the midpoint is rounded down to an entry; a name
that cannot be read ends the search. `column_count + 1` rounds are fuel
enough. -/
def findEntryNamedLoop (s : List UInt8) (hdr : DynHeader) (key : LexString) :
    Nat → Int → Int → Option Nat
  | 0, _, _ => none
  | fuel + 1, min, max =>
    if max ≥ min then
      let mid := (min + max) / 2 / hdr.entrySize * hdr.entrySize
      match readName s hdr (hdr.header + mid.toNat) with
      | none => none
      | some name =>
        match mariadbDyncolColumnCmpNamed name key with
        | .lt => findEntryNamedLoop s hdr key fuel (mid + hdr.entrySize) max
        | .gt => findEntryNamedLoop s hdr key fuel min (mid - hdr.entrySize)
        | .eq => some (hdr.header + mid.toNat)
    else none

/-- `find_entry_named`: a binary search over the directory by name. -/
def findEntryNamed (s : List UInt8) (hdr : DynHeader) (key : LexString) : Option Nat :=
  findEntryNamedLoop s hdr key (hdr.columnCount + 1) 0
    (((hdr.columnCount : Int) - 1) * hdr.entrySize)

/-- The loop of `backwritenum`, putting digits in front. -/
def backwritenumLoop : Nat → Nat → List UInt8 → List UInt8
  | 0, _, chr => chr
  | fuel + 1, numkey, chr =>
    if numkey > 0 then backwritenumLoop fuel (numkey / 10) (UInt8.ofNat (48 + numkey % 10) :: chr)
    else chr

/-- `backwritenum`: the decimal digits of `numkey`. C writes them backwards
from the end of a `DYNCOL_NUM_CHAR` buffer; the model has no such bound. -/
def backwritenum (numkey : Nat) : List UInt8 :=
  if numkey = 0 then [48] else backwritenumLoop (numkey + 1) numkey []

/-- The C locale's `isspace`. -/
def isCSpace (c : UInt8) : Bool :=
  c = 32 ∨ c = 9 ∨ c = 10 ∨ c = 11 ∨ c = 12 ∨ c = 13

/-- The digit loop of `strtoul`: the value, saturated at `ULONG_MAX`, and the
digits read. -/
def strtoulDigits : List UInt8 → Nat → Nat → Nat × Nat
  | c :: cs, value, count =>
    if 48 ≤ c.toNat ∧ c.toNat ≤ 57 then
      strtoulDigits cs (min (value * 10 + (c.toNat - 48)) (2 ^ 64 - 1)) (count + 1)
    else (value, count)
  | [], value, count => (value, count)

/-- `strtoul(str, &end, 10)` on a string that ends where the key does: the
value and the characters `end` is past. Blanks and a sign may come first; a
minus negates modulo `2^64` unless the value saturated; with no digit `end`
is the start. -/
def strtoul (str : List UInt8) : Nat × Nat :=
  let blanks := (str.takeWhile isCSpace).length
  let rest := str.drop blanks
  let (neg, signLength) :=
    match rest with
    | 45 :: _ => (true, 1)
    | 43 :: _ => (false, 1)
    | _ => (false, 0)
  let (value, digits) := strtoulDigits (rest.drop signLength) 0 0
  if digits = 0 then (0, 0)
  else
    let value := if neg ∧ value ≠ 2 ^ 64 - 1 then (2 ^ 64 - value) % 2 ^ 64 else value
    (value, blanks + signLength + digits)

/-- What `find_column` leaves for the caller: an error, a missing column
(type `DYN_COL_NULL`), or the entry's type, data offset and length. -/
inductive FindResult where
  | error
  | notFound
  | found (entry : EntryData)
  deriving Repr, DecidableEq

/-- `find_column`: a name asked of the numeric format is read as a number,
and a number asked of the format with names is written out as its name. -/
def findColumn (s : List UInt8) (hdr : DynHeader) (numkey : Nat) (strkey : Option LexString) :
    FindResult :=
  if hdr.header + hdr.headerSize > hdr.dataEnd then .error
  else
    let key : Option (Nat × Option LexString) :=
      match hdr.format, strkey with
      | .num, some name =>
        let (value, used) := strtoul (name.str.take name.length)
        if used ≠ name.length then none else some (value % 2 ^ 32, strkey)
      | .str, none => some (numkey, some (LexString.ofBytes (backwritenum numkey)))
      | _, _ => some (numkey, strkey)
    match key with
    | none => .notFound
    | some (numkey, strkey) =>
      let entry := match hdr.format, strkey with
        | .num, _ => findEntryNum s hdr numkey
        | .str, some name => findEntryNamed s hdr name
        | .str, none => none
      match entry with
      | none => .notFound
      | some entry =>
        let data := hdrIntervalLength s hdr entry (entry + hdr.entrySize)
        if data.length = dyncolOffsetError ∨ data.length > intMax ∨ data.offset > hdr.dataSize then
          .error
        else .found data

/-! ## Getting, unpacking and checking -/

section Read

variable (getCharset : Nat → Bool)

/-- `dynamic_column_get_internal`. When `find_column` fails, `rc` still holds
the `ER_DYNCOL_OK` of `init_read_hdr`, and that is what returns. -/
def dynamicColumnGetInternal (s : List UInt8) (numKey : Nat) (strKey : Option LexString) :
    FuncResult × Value :=
  if s.length = 0 then (.ok, .null)
  else
    match initReadHdr s with
    | none => (.format, .null)
    | some hdr =>
      if hdr.columnCount = 0 then (.ok, .null)
      else
        match findColumn s hdr numKey strKey with
        | .error => (.ok, .null)
        | .notFound => (.ok, .null)
        | .found data => dynamicColumnGetValue getCharset data.type (s.drop (hdr.dtpool + data.offset))
            data.length

/-- `mariadb_dyncol_get_num`. -/
def mariadbDyncolGetNum (s : List UInt8) (columnNr : Nat) : FuncResult × Value :=
  dynamicColumnGetInternal getCharset s columnNr none

/-- `mariadb_dyncol_get_named`. -/
def mariadbDyncolGetNamed (s : List UInt8) (name : LexString) : FuncResult × Value :=
  dynamicColumnGetInternal getCharset s 0 (some name)

/-- A record written with column 5 alone answers a request for column
65541 with column 5's value: `find_entry_num` compares only the 16 bits of
the key that `int2store` keeps, and `mariadb_dyncol_get_num` takes any
`uint`. -/
theorem mariadbDyncolGetNum_key_wraps :
    mariadbDyncolCreateManyNum [(5, .int 1)] = (.ok, [0, 1, 0, 5, 0, 0, 2]) ∧
      mariadbDyncolGetNum getCharset [0, 1, 0, 5, 0, 0, 2] 65541 = (.ok, .int 1) := by
  exact ⟨rfl, rfl⟩

/-- The loop of `mariadb_dyncol_unpack` over the directory: each value, then
its name, the decimal digits of the column number (`snprintf("%u")`) or the
name from the pool. -/
def unpackLoop (s : List UInt8) (hdr : DynHeader) :
    Nat → Nat → List (LexString × Value) → FuncResult × List (LexString × Value)
  | 0, _, acc => (.ok, acc)
  | n + 1, entry, acc =>
    let data := hdrIntervalLength s hdr entry (entry + hdr.entrySize)
    if data.length = dyncolOffsetError ∨ data.length > intMax ∨ data.offset > hdr.dataSize then
      (.format, [])
    else
      let (rc, value) := dynamicColumnGetValue getCharset data.type (s.drop (hdr.dtpool + data.offset))
        data.length
      if rc.isError then (rc, [])
      else
        let name := match hdr.format with
          | .num => some (LexString.ofBytes (backwritenum (uintKorr 2 s entry)))
          | .str => readName s hdr entry
        match name with
        | none => (.format, [])
        | some name => unpackLoop s hdr n (entry + hdr.entrySize) (acc ++ [(name, value)])

/-- `mariadb_dyncol_unpack`: the names and values of all columns in
directory order. It checks the directory against `FIXED_HEADER_SIZE` in
both formats. -/
def mariadbDyncolUnpack (s : List UInt8) : FuncResult × List (LexString × Value) :=
  if s.length = 0 then (.ok, [])
  else
    match initReadHdr s with
    | none => (.format, [])
    | some hdr =>
      if hdr.entrySize * hdr.columnCount + fixedHeaderSize > s.length then (.format, [])
      else unpackLoop getCharset s hdr hdr.columnCount hdr.header []

end Read

/-- What the first pass of `mariadb_dyncol_check` carries from one entry to
the next: the type (`DYN_COL_NULL` before the first entry), the data
offset, the name offset, the column number and the name. -/
structure CheckKey where
  type : Nat
  dataOffset : Nat
  nameOffset : Nat
  num : Nat
  name : LexString
  deriving Repr, DecidableEq

/-- `column_sort` on the previous key and this one. -/
def CheckKey.columnSort (format : Format) (prev cur : CheckKey) : Ordering :=
  match format with
  | .num => columnSortNum prev.num cur.num
  | .str => mariadbDyncolColumnCmpNamed prev.name cur.name

/-- The first pass of `mariadb_dyncol_check`, `true` when it passes: every
field readable, every offset inside the data, and after the first entry
offsets not decreasing (equal only after an INT, UINT or DECIMAL entry),
name offsets not decreasing and keys increasing. -/
def checkEntriesLoop (s : List UInt8) (hdr : DynHeader) : Nat → Nat → CheckKey → Bool
  | 0, _, _ => true
  | n + 1, entry, prev =>
    let cur? : Option CheckKey :=
      match hdr.format with
      | .num => some { prev with num := uintKorr 2 s entry }
      | .str => (readName s hdr entry).map fun name =>
          { prev with name := name, nameOffset := uintKorr 2 s entry }
    match cur? with
    | none => false
    | some cur =>
      match hdr.format.typeAndOffsetRead s (entry + hdr.format.fixedHdrEntry) hdr.offsetSize with
      | none => false
      | some (type, dataOffset) =>
        let cur := { cur with type, dataOffset }
        if dataOffset > hdr.dataSize then false
        else if prev.type ≠ ColumnType.null.toNat ∧
            (prev.dataOffset > dataOffset ∨
              (prev.type ≠ ColumnType.int.toNat ∧ prev.type ≠ ColumnType.uint.toNat ∧
                prev.type ≠ ColumnType.decimal.toNat ∧ prev.dataOffset = dataOffset) ∨
              prev.nameOffset > cur.nameOffset ∨ CheckKey.columnSort hdr.format prev cur ≠ .lt) then
          false
        else checkEntriesLoop s hdr n (entry + hdr.entrySize) cur

/-- The second pass of `mariadb_dyncol_check`: every value read by its
type's reader. -/
def checkDataLoop (getCharset : Nat → Bool) (s : List UInt8) (hdr : DynHeader) :
    Nat → Nat → FuncResult
  | 0, _ => .ok
  | n + 1, entry =>
    let data := hdrIntervalLength s hdr entry (entry + hdr.entrySize)
    match ColumnType.ofNat? data.type with
    | none | some .null => .format
    | some _ =>
      let rc := (dynamicColumnGetValue getCharset data.type (s.drop (hdr.dtpool + data.offset))
        data.length).1
      if rc ≠ .ok then rc else checkDataLoop getCharset s hdr n (entry + hdr.entrySize)

/-- `mariadb_dyncol_check`. The descriptor is the one `init_read_hdr`
computes; C computes its fields only after the size check, which no field
before it depends on. -/
def mariadbDyncolCheck (getCharset : Nat → Bool) (s : List UInt8) : FuncResult :=
  if s.length = 0 then .ok
  else
    match initReadHdr s with
    | none => .format
    | some hdr =>
      if hdr.format.fixedHdr + hdr.headerSize + hdr.nmpoolSize > s.length then .format
      else if !checkEntriesLoop s hdr hdr.columnCount hdr.header ⟨0, 0, 0, 0, ⟨[], 0⟩⟩ then .format
      else checkDataLoop getCharset s hdr hdr.columnCount hdr.header

/-- The writer stores an empty nested record in no bytes, so the next
column's data starts at the same offset; `mariadb_dyncol_check` allows that
only after INT, UINT and DECIMAL entries and rejects the record the writer
has just returned with `ER_DYNCOL_OK`. The nested value is itself a record
that passes the check. -/
theorem mariadbDyncolCheck_rejects_empty_dyncol (getCharset : Nat → Bool) :
    mariadbDyncolCheck getCharset [] = .ok ∧
      mariadbDyncolCreateManyNamed [(.ofBytes [0x61], .dyncol []), (.ofBytes [0x62], .int 1)] =
        (.ok, [4, 2, 0, 2, 0, 0, 0, 8, 0, 1, 0, 0, 0, 0x61, 0x62, 2]) ∧
      mariadbDyncolCheck getCharset [4, 2, 0, 2, 0, 0, 0, 8, 0, 1, 0, 0, 0, 0x61, 0x62, 2] =
        .format := by
  exact ⟨rfl, rfl, rfl⟩

end MariaDB.Dyncol
