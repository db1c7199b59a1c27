import MariaDB.Dyncol.Record

set_option autoImplicit false

/- Updating a dynamic-column record in place of re-creating it,
mysys/ma_dyncol.c: `dynamic_column_update_many_fmt` sorts the new columns,
finds each key's entry with `find_place` and makes a plan of `PLAN_ADD`,
`PLAN_REPLACE`, `PLAN_DELETE` and `PLAN_NOP` actions carrying the header,
data and name deltas before them. It then rewrites the record by
`dynamic_column_update_copy` into a new buffer (converting numbers into
names where the format changes), or, when the directory shrinks and no data
moves right, by `dynamic_column_update_move_left` inside the old buffer.
`dynamic_column_update_move_right` is compiled out. Buffers are byte lists;
positions are byte offsets from the start of the record. -/
namespace MariaDB.Dyncol

open LittleEndian

/-- `memcpy` of `bytes` into a buffer at `pos`; a write past the end extends
the buffer, zero bytes filling any gap. -/
def storeAt (buf : List UInt8) (pos : Nat) (bytes : List UInt8) : List UInt8 :=
  buf.take pos ++ List.replicate (pos - buf.length) 0 ++ bytes ++ buf.drop (pos + bytes.length)

/-- `memmove(buf + dst, buf + src, len)`: all bytes are read before any is
written. -/
def memmove (buf : List UInt8) (dst src len : Nat) : List UInt8 :=
  storeAt buf dst ((buf.drop src).take len)

/-- The loop of `numlen`; `val` rounds are fuel enough. -/
def numlenLoop : Nat → Nat → Nat → Nat
  | 0, _, res => res
  | fuel + 1, val, res => if val ≠ 0 then numlenLoop fuel (val / 10) (res + 1) else res

/-- `numlen`: the number of decimal digits of `val`. -/
def numlen (val : Nat) : Nat := if val = 0 then 1 else numlenLoop val val 0

/-- `PLAN_ACT`. -/
inductive PlanAct where
  | replace
  | add
  | delete
  | nop
  deriving Repr, DecidableEq

/-- `struct st_plan`: the new value, the key, the directory entry where the
key is or would go, the length of the new data, the header (in entries) and
data deltas of the plans before it, and what `dynamic_column_update_move_left`
notes for its second pass. The name delta is left out: only the compiled-out
`dynamic_column_update_move_right` reads it. -/
structure Plan (κ : Type) where
  val : Value
  key : κ
  place : Nat
  length : Nat
  hdelta : Int
  ddelta : Int
  mvOffset : Nat
  mvLength : Nat
  mvEnd : Nat
  act : PlanAct

/-- What the update reads of a key format beyond the writer's functions:
`plan_sort`, the comparison of `find_place`, the key of an old directory
entry as the new format has it (a column number becomes its decimal name
when a numeric record is converted), and the column number of a key, which
`dynamic_column_update_move_left` stores; only numeric updates get there. -/
structure UpdateFuncs (κ : Type) extends KeyFuncs κ where
  planSort : κ → κ → Ordering
  placeCmp : κ → κ → Ordering
  entryKey : List UInt8 → DynHeader → Nat → Option κ
  keyNumber : κ → Nat

/-- The numeric update. A record with names is not one it takes (C asserts
that); reading one of its entries as a number fails here. -/
def updateFuncsNum : UpdateFuncs Nat where
  toKeyFuncs := fmtDataNum
  planSort := columnSortNum
  placeCmp := fun a b => compare a b
  entryKey := fun s hdr entry => if hdr.format = .num then some (uintKorr 2 s entry) else none
  keyNumber := id

/-- The update with names; the format with names always copies, so no key
number is read. -/
def updateFuncsNamed : UpdateFuncs LexString where
  toKeyFuncs := fmtDataNamed
  planSort := mariadbDyncolColumnCmpNamed
  placeCmp := mariadbDyncolColumnCmpNamed
  entryKey := fun s hdr entry =>
    match hdr.format with
    | .num => some (.ofBytes (backwritenum (uintKorr 2 s entry)))
    | .str => readName s hdr entry
  keyNumber := fun _ => 0

/-- `DELTA_CHECK(S, D, C)`: the first nonzero delta fixes the sign, and a
delta of the other sign forces the copy. -/
def deltaCheck (s d : Int) (c : Bool) : Int × Bool :=
  if s = 0 then (d, c)
  else if (s > 0 ∧ d < 0) ∨ (s < 0 ∧ d > 0) then (s, true)
  else (s, c)

/-- `while (i < add_column_count && plan[i].act == PLAN_NOP) i++`; `n`
rounds are fuel enough. -/
def skipNop {κ : Type} (plans : List (Plan κ)) (n : Nat) : Nat → Nat → Nat
  | 0, i => i
  | fuel + 1, i =>
    if i < n ∧ (plans[i]?.map (·.act)) = some .nop then skipNop plans n fuel (i + 1) else i

/-- `while (header + j * entry_size < plan[i].place) j++`: the first entry at
or after `place`; the places are entries of the directory, so
`column_count + 1` rounds are fuel enough. -/
def advancePlace (header entrySize place : Nat) : Nat → Nat → Nat
  | 0, j => j
  | fuel + 1, j =>
    if header + j * entrySize < place then advancePlace header entrySize place fuel (j + 1) else j

section Update

variable {κ : Type} (fmt : UpdateFuncs κ)

/-! ## The plan -/

/-- The binary search of `find_place` from `start` to `end`, with the `mid`
and `flag` of the last round: `.error entry` where a name cannot be read,
and `find_place` returns `FALSE` with that entry. `column_count` rounds are
fuel enough. -/
def findPlaceLoop (s : List UInt8) (hdr : DynHeader) (key : κ) :
    Nat → Nat → Nat → Nat → Ordering → Except Nat (Nat × Nat × Ordering)
  | 0, start, _, mid, flag => .ok (start, mid, flag)
  | fuel + 1, start, end_, mid, flag =>
    if start = end_ then .ok (start, mid, flag)
    else
      let mid := (start + end_) / 2
      let entry := hdr.header + mid * hdr.entrySize
      match fmt.entryKey s hdr entry with
      | none => .error entry
      | some entryKey =>
        let flag := fmt.placeCmp key entryKey
        if flag ≠ .gt then findPlaceLoop s hdr key fuel start mid mid flag
        else findPlaceLoop s hdr key fuel (mid + 1) end_ mid flag

/-- `find_place`: whether the key is in the directory, and its entry or the
entry of the next bigger key. The record has a column at least. -/
def findPlace (s : List UInt8) (hdr : DynHeader) (key : κ) : Bool × Nat :=
  match findPlaceLoop fmt s hdr key hdr.columnCount 0 (hdr.columnCount - 1) 1 .eq with
  | .error entry => (false, entry)
  | .ok (start, mid, flag) =>
    let entry := hdr.header + start * hdr.entrySize
    -- the flag of the last round is for `mid`; the entry found is `start`
    let flag := if start ≠ mid then (fmt.entryKey s hdr entry).map (fmt.placeCmp key) else some flag
    match flag with
    | none => (false, entry)
    | some flag => (flag = .eq, if flag = .gt then entry + hdr.entrySize else entry)

/-- One round of the plan loop of `dynamic_column_update_many_fmt` on a
column whose key differs from the next one: its plan and the header, data
and name deltas after it. A found key is replaced, or deleted by a NULL; a
missing key is added, or skipped for a NULL. -/
def planColumn (s : List UInt8) (header : DynHeader) (key : κ) (val : Value)
    (headerDelta dataDelta nameDelta : Int) : Except FuncResult (Plan κ × Int × Int × Int) :=
  let (found, place) := findPlace fmt s header key
  let plan : Plan κ := ⟨val, key, place, 0, headerDelta, dataDelta, 0, 0, 0, .nop⟩
  if found then
    let entryDataSize := (hdrIntervalLength s header place (place + header.entrySize)).length
    if entryDataSize = dyncolOffsetError ∨ entryDataSize ≥ 2 ^ 63 then .error .format
    else
      let entryNameSize : Option Nat :=
        if fmt.format = .str then
          if header.format = .str then (readName s header place).map (·.length)
          else some (numlen (uintKorr 2 s place))
        else some 0
      match entryNameSize with
      | none => .error .format
      | some entryNameSize =>
        if val.type = .null then
          .ok ({ plan with act := .delete }, headerDelta - 1, dataDelta - entryDataSize,
            nameDelta - entryNameSize)
        else
          let (length, val) := dynamicColumnValueLen val fmt.format
          .ok ({ plan with act := .replace, length, val }, headerDelta,
            dataDelta + length - entryDataSize,
            if fmt.format = .str then nameDelta + fmt.nameSize key - entryNameSize else nameDelta)
  else if val.type = .null then .ok (plan, headerDelta, dataDelta, nameDelta)
  else
    let (length, val) := dynamicColumnValueLen val fmt.format
    .ok ({ plan with act := .add, length, val }, headerDelta + 1, dataDelta + length,
      if fmt.format = .str then nameDelta + fmt.nameSize key else nameDelta)

/-- The plan loop over the sorted columns: `ER_DYNCOL_DATA` for a key equal
to the next one, and the plans with the final deltas. -/
def planLoop (s : List UInt8) (header : DynHeader) :
    List (κ × Value) → Int → Int → Int → Except FuncResult (List (Plan κ) × Int × Int × Int)
  | [], headerDelta, dataDelta, nameDelta => .ok ([], headerDelta, dataDelta, nameDelta)
  | (key, val) :: rest, headerDelta, dataDelta, nameDelta =>
    let duplicate : Bool := match rest with
      | (next, _) :: _ => fmt.columnSort key next == .eq
      | [] => false
    if duplicate then .error .data
    else
      match planColumn fmt s header key val headerDelta dataDelta nameDelta with
      | .error rc => .error rc
      | .ok (plan, headerDelta, dataDelta, nameDelta) =>
        match planLoop s header rest headerDelta dataDelta nameDelta with
        | .error rc => .error rc
        | .ok (plans, headerDelta, dataDelta, nameDelta) => .ok (plan :: plans, headerDelta, dataDelta, nameDelta)

/-- The sign loop over the plans and the final deltas, stopping once the
copy is forced: the header and data signs and whether to copy. -/
def deltaCheckLoop : List (Plan κ) → Int → Int → Bool → Int × Int × Bool
  | [], headerSign, dataSign, copy => (headerSign, dataSign, copy)
  | plan :: rest, headerSign, dataSign, copy =>
    if copy then (headerSign, dataSign, copy)
    else
      let (headerSign, copy) := deltaCheck headerSign plan.hdelta copy
      let (dataSign, copy) := deltaCheck dataSign plan.ddelta copy
      deltaCheckLoop rest headerSign dataSign copy

/-! ## Rewriting by copy -/

/-- The new buffer `tmp` of `dynamic_column_update_copy` and the fields of
`new_hdr` that move: the contents, `tmp.length`, and the places `entry` and
`name` of the next directory entry and name. -/
structure CopyState where
  tmp : List UInt8
  length : Nat
  entry : Nat
  name : Nat

/-- `(*new_fmt->put_header_entry)(new_hdr, key, value, offset)`; `none` for
an offset its field cannot hold. -/
def copyPutHeaderEntry (newHdr : WriteSizes) (nmpool : Nat) (st : CopyState) (key : κ)
    (type : ColumnType) (offset : Nat) : Option CopyState :=
  (fmt.putHeaderEntry newHdr.offsetSize (st.name - nmpool) key type offset).map fun (entry, name) =>
    { st with
      tmp := storeAt (storeAt st.tmp st.entry entry) st.name name
      entry := st.entry + newHdr.entrySize
      name := st.name + name.length }

/-- The loop of `dynamic_column_update_copy` over the old entries `k` from
`start` on: each goes into the new directory with its data offset moved by
`ddelta`, and no offset may be below the first one, which it returns. The
type is read back as a `ColumnType`; a type number past `DYN_COL_DYNCOL`
fails here, where C would copy it. -/
def copyHeadersLoop (s : List UInt8) (hdr : DynHeader) (newHdr : WriteSizes) (nmpool : Nat)
    (ddelta : Int) (start : Nat) : Nat → Nat → Nat → CopyState → Option (CopyState × Nat)
  | 0, _, firstOffset, st => some (st, firstOffset)
  | count + 1, k, firstOffset, st =>
    let read := hdr.header + k * hdr.entrySize
    match fmt.entryKey s hdr read, hdr.format.typeAndOffsetRead s (read + hdr.format.fixedHdrEntry)
        hdr.offsetSize with
    | some key, some (tp, offs) =>
      let firstOffset := if k = start then offs else firstOffset
      if k ≠ start ∧ offs < firstOffset then none
      else
        match ColumnType.ofNat? tp with
        | none => none
        | some type =>
          match copyPutHeaderEntry fmt newHdr nmpool st key type (sizeT (offs + ddelta)) with
          | none => none
          | some st => copyHeadersLoop s hdr newHdr nmpool ddelta start count (k + 1) firstOffset st
    | _, _ => none

/-- One round of the loop of `dynamic_column_update_copy` on plan `plan`
and the old entries `[start, end)` before it: their entries, then their data
in one piece, then the plan's new entry and data. -/
def copySegment (s : List UInt8) (hdr : DynHeader) (newHdr : WriteSizes) (nmpool allHeadersSize : Nat)
    (plan : Plan κ) (isPlan : Bool) (start end_ : Nat) (st : CopyState) : Option CopyState := do
  let (st, firstOffset) ← copyHeadersLoop fmt s hdr newHdr nmpool plan.ddelta start (end_ - start) start 0 st
  let st ← if start < end_ then
      let dataSize := (hdrIntervalLength s hdr (hdr.header + start * hdr.entrySize)
        (hdr.header + end_ * hdr.entrySize)).length
      if dataSize = dyncolOffsetError ∨ dataSize ≥ 2 ^ 63 ∨ dataSize > sizeT (hdr.dataSize - firstOffset) then
        none
      else
        some { st with
          tmp := storeAt st.tmp st.length ((s.drop (hdr.dtpool + firstOffset)).take dataSize)
          length := st.length + dataSize }
    else some st
  if isPlan ∧ (plan.act = .add ∨ plan.act = .replace) then
    let st ← copyPutHeaderEntry fmt newHdr nmpool st plan.key plan.val.type (st.length - allHeadersSize)
    let data := dataStore plan.val fmt.format
    some { st with tmp := storeAt st.tmp st.length data, length := st.length + data.length }
  else some st

/-- The loop of `dynamic_column_update_copy`: `i` walks the plan (the plan at
`add_column_count` holds the final deltas) and `j` the old directory. Each
round takes `i` past a plan, so `add_column_count + 1` rounds are fuel
enough. -/
def updateCopyLoop (s : List UInt8) (hdr : DynHeader) (newHdr : WriteSizes) (nmpool allHeadersSize : Nat)
    (plans : List (Plan κ)) (last : Plan κ) (n : Nat) : Nat → Nat → Nat → CopyState → Option CopyState
  | 0, _, _, st => some st
  | fuel + 1, i, j, st =>
    if ¬ (i < n ∨ j < hdr.columnCount) then some st
    else
      let start := j
      let i := skipNop plans n n i
      let plan := plans.getD i last
      let (j, end_) :=
        if i = n then (hdr.columnCount, hdr.columnCount)
        else
          let end_ := advancePlace hdr.header hdr.entrySize plan.place (hdr.columnCount + 1) j
          (if plan.act = .replace ∨ plan.act = .delete then end_ + 1 else end_, end_)
      match copySegment fmt s hdr newHdr nmpool allHeadersSize plan (decide (i < n)) start end_ st with
      | none => none
      | some st => updateCopyLoop s hdr newHdr nmpool allHeadersSize plans last n fuel (i + 1) j st

/-- `dynamic_column_update_copy`: the record written anew in the new
format; `ER_DYNCOL_FORMAT` leaves the old one. -/
def dynamicColumnUpdateCopy (s : List UInt8) (hdr : DynHeader) (newHdr : WriteSizes)
    (plans : List (Plan κ)) (last : Plan κ) : FuncResult × List UInt8 :=
  let header := fmt.format.fixedHdr
  let nmpool := header + newHdr.headerSize
  let allHeadersSize := header + newHdr.headerSize + newHdr.nmpoolSize
  let tmp := fmt.setFixedHdr newHdr.offsetSize newHdr.columnCount newHdr.nmpoolSize ++
    List.replicate (newHdr.headerSize + newHdr.nmpoolSize) 0
  match updateCopyLoop fmt s hdr newHdr nmpool allHeadersSize plans last plans.length
      (plans.length + 1) 0 0 ⟨tmp, allHeadersSize, header, nmpool⟩ with
  | none => (.format, s)
  | some st => (.ok, st.tmp.take st.length)

/-! ## Rewriting by moving left -/

/-- `get_length_interval`: the data length from the entry at `entry` to the
one at `entryNext`, or to `lastOffset` from the last entry. -/
def getLengthInterval (s : List UInt8) (entry entryNext headerEnd offsetSize lastOffset : Nat) : Nat :=
  match typeAndOffsetReadNum s (entry + columnNumberSize) offsetSize with
  | none => dyncolOffsetError
  | some (_, offset) =>
    if entryNext ≥ headerEnd then sizeT ((lastOffset : Int) - offset)
    else
      match typeAndOffsetReadNum s (entryNext + columnNumberSize) offsetSize with
      | none => dyncolOffsetError
      | some (_, offsetNext) =>
        if offsetNext > lastOffset then dyncolOffsetError else sizeT ((offsetNext : Int) - offset)

/-- The record in the string's buffer as `dynamic_column_update_move_left`
changes it: the buffer, `str->length`, the place `write` of the next
directory entry, the data offset reached, and the plans with their `mv_*`
fields. -/
structure MoveState (κ : Type) where
  str : List UInt8
  length : Nat
  write : Nat
  currOffset : Nat
  plans : List (Plan κ)

/-- The sizes `dynamic_column_update_move_left` gets: the old and new offset,
entry and directory sizes and column counts, the end of the old directory
and the old data size. -/
structure MoveSizes where
  offsetSize : Nat
  entrySize : Nat
  headerSize : Nat
  newOffsetSize : Nat
  newEntrySize : Nat
  newHeaderSize : Nat
  columnCount : Nat
  newColumnCount : Nat
  headerEnd : Nat
  maxOffset : Nat

/-- The inner loop of the first pass over the old entries `k` from `start`:
each is rewritten at `write` with the new offset size and its data offset
moved by `ddelta`. An offset below the first one empties the string. A
failing `type_and_offset_store_num` leaves its field as it was. -/
def moveHeadersLoop (sz : MoveSizes) (ddelta : Int) (start firstOffset : Nat) :
    Nat → Nat → MoveState κ → Except (FuncResult × Nat) (MoveState κ)
  | 0, _, st => .ok st
  | count + 1, k, st =>
    let read := fixedHeaderSize + k * sz.entrySize
    let nm := uintKorr 2 st.str read
    match typeAndOffsetReadNum st.str (read + columnNumberSize) sz.offsetSize with
    | none => .error (.format, st.length)
    | some (tp, offs) =>
      if k > start ∧ offs < firstOffset then .error (.format, 0)
      else
        let str := storeAt st.str st.write (intStore 2 nm)
        let field := (ColumnType.ofNat? tp).bind fun type =>
          typeAndOffsetStoreNum sz.newOffsetSize type (sizeT (offs + ddelta))
        let str := match field with
          | some field => storeAt str (st.write + columnNumberSize) field
          | none => str
        moveHeadersLoop sz ddelta start firstOffset count (k + 1)
          { st with str, write := st.write + sz.newEntrySize }

/-- One round of the first pass on plan `i` and the old entries
`[start, end)` before it: it notes where their data is, rewrites their
entries unless nothing about them changes, and writes the plan's new entry. -/
def moveLeftHeaders (sz : MoveSizes) (n i start end_ : Nat) (st : MoveState κ) (plan : Plan κ) :
    Except (FuncResult × Nat) (MoveState κ) := do
  let plans := st.plans.set i { plan with mvEnd := end_ }
  let firstOffset ← match typeAndOffsetReadNum st.str
      (fixedHeaderSize + start * sz.entrySize + columnNumberSize) sz.offsetSize with
    | none => .error (.format, st.length)
    | some (_, offset) => .ok offset
  let st ← if start < end_ then
      let dataSize := getLengthInterval st.str (fixedHeaderSize + start * sz.entrySize)
        (fixedHeaderSize + end_ * sz.entrySize) sz.headerEnd sz.offsetSize sz.maxOffset
      if dataSize = dyncolOffsetError ∨ dataSize ≥ 2 ^ 63 ∨
          dataSize > sizeT ((sz.maxOffset : Int) - firstOffset) then
        .error (.format, 0)
      else
        .ok { st with
          plans := plans.set i { plan with mvEnd := end_, mvOffset := firstOffset, mvLength := dataSize }
          currOffset := st.currOffset + dataSize }
    else .ok { st with plans := plans.set i { plan with mvEnd := end_, mvLength := 0, mvOffset := st.currOffset } }
  -- entries whose data stays and whose field keeps its width are left where they are
  let st ← if plan.ddelta = 0 ∧ sz.offsetSize = sz.newOffsetSize ∧ plan.act ≠ .delete then
      .ok { st with write := st.write + sz.entrySize * (end_ - start) }
    else moveHeadersLoop sz plan.ddelta start firstOffset (end_ - start) start st
  if i < n ∧ (plan.act = .add ∨ plan.act = .replace) then
    let str := storeAt st.str st.write (intStore 2 (fmt.keyNumber plan.key))
    let str := match typeAndOffsetStoreNum sz.newOffsetSize plan.val.type st.currOffset with
      | some field => storeAt str (st.write + columnNumberSize) field
      | none => str
    .ok { st with str, write := st.write + sz.newEntrySize, currOffset := st.currOffset + plan.length }
  else .ok st

/-- The first pass of `dynamic_column_update_move_left`, over the plans as
`dynamic_column_update_copy` walks them; the error carries what C leaves in
`str->length`. -/
def moveLeftHeadersLoop (sz : MoveSizes) (last : Plan κ) (n : Nat) :
    Nat → Nat → Nat → MoveState κ → Except (FuncResult × Nat) (MoveState κ)
  | 0, _, _, st => .ok st
  | fuel + 1, i, j, st =>
    if ¬ (i < n ∨ j < sz.columnCount) then .ok st
    else
      let start := j
      let i := skipNop st.plans n n i
      let plan := st.plans.getD i last
      let (j, end_) :=
        if i = n then (sz.columnCount, sz.columnCount)
        else
          let end_ := advancePlace fixedHeaderSize sz.entrySize plan.place (sz.columnCount + 1) j
          (if plan.act = .replace ∨ plan.act = .delete then end_ + 1 else end_, end_)
      match moveLeftHeaders fmt sz n i start end_ st plan with
      | .error e => .error e
      | .ok st => moveLeftHeadersLoop sz last n fuel (i + 1) j st

/-- The second pass of `dynamic_column_update_move_left`: the data of each
piece moves left by its data delta and the new header's shrinking, and each
new value is appended. -/
def moveLeftDataLoop (sz : MoveSizes) (last : Plan κ) (n : Nat) :
    Nat → Nat → Nat → MoveState κ → MoveState κ
  | 0, _, _, st => st
  | fuel + 1, i, j, st =>
    if ¬ (i < n ∨ j < sz.columnCount) then st
    else
      let start := j
      let i := skipNop st.plans n n i
      let plan := st.plans.getD i last
      let end_ := plan.mvEnd
      let j := if i ≠ n ∧ (plan.act = .replace ∨ plan.act = .delete) then end_ + 1 else end_
      let str := if start < end_ ∧ plan.mvLength ≠ 0 then
          memmove st.str (fixedHeaderSize + sz.newHeaderSize + plan.mvOffset + plan.ddelta).toNat
            (fixedHeaderSize + sz.headerSize + plan.mvOffset) plan.mvLength
        else st.str
      let length := st.length + plan.mvLength
      let st := { st with str, length }
      let st := if i < n ∧ (plan.act = .add ∨ plan.act = .replace) then
          let data := dataStore plan.val .num
          { st with str := storeAt st.str st.length data, length := st.length + data.length }
        else st
      moveLeftDataLoop sz last n fuel (i + 1) j st

/-- `dynamic_column_update_move_left` on a numeric record: the directory is
rewritten from the front, then the data; both passes walk the plans alike. -/
def dynamicColumnUpdateMoveLeft (s : List UInt8) (sz : MoveSizes) (plans : List (Plan κ))
    (last : Plan κ) : FuncResult × List UInt8 :=
  let n := plans.length
  let str := storeAt s 0 (setFixedHeader (s.getD 0 0) sz.newOffsetSize sz.newColumnCount)
  if sz.newColumnCount = 0 then (.ok, str.take fixedHeaderSize)
  else
    match moveLeftHeadersLoop fmt sz last n (n + 1) 0 0 ⟨str, s.length, fixedHeaderSize, 0, plans ++ [last]⟩ with
    | .error (rc, length) => (rc, str.take length)
    | .ok st =>
      let st := moveLeftDataLoop sz last n (n + 1) 0 0
        { st with length := fixedHeaderSize + sz.newHeaderSize }
      (.ok, st.str.take st.length)

/-! ## The update -/

/-- `dynamic_column_update_many_fmt` on the string `s` in a buffer of
`maxLength` bytes (`str->max_length`) with the columns' keys and values,
paired. Errors found before any writing leave the string as it was. -/
def dynamicColumnUpdateManyFmt (maxLength : Nat) (s : List UInt8) (columns : List (κ × Value)) :
    FuncResult × List UInt8 :=
  let notNull := (columns.filter fun c => c.2.type ≠ .null).length
  -- `create_new_string`: nothing to add leaves the string as it is
  let createNewString : FuncResult × List UInt8 :=
    if notNull ≠ 0 then dynamicColumnCreateManyInternalFmt fmt.toKeyFuncs columns else (.ok, s)
  match columns with
  | [] => (.ok, s)
  | (firstKey, _) :: _ =>
    if columns.any fun c => fmt.checkLimit c.1 then (.data, s)
    else if s.length = 0 then createNewString
    else
      match initReadHdr s with
      | none => (.format, s)
      | some header =>
        if header.columnCount = 0 then createNewString
        else
          let sorted := columns.insertionSort fun a b => fmt.planSort a.1 b.1 ≠ .gt
          let convert := decide (fmt.format = .str ∧ header.format = .num)
          let nmpoolSize := if convert then
              ((List.range header.columnCount).map fun i =>
                numlen (uintKorr 2 s (header.header + i * header.entrySize))).sum
            else header.nmpoolSize
          if header.format.fixedHdr + header.headerSize + header.nmpoolSize > s.length then (.format, s)
          else
            match planLoop fmt s header sorted 0 0 0 with
            | .error rc => (rc, s)
            | .ok (plans, headerDelta, dataDelta, nameDelta) =>
              let last : Plan κ := ⟨.null, firstKey, header.dtpool, 0, headerDelta, dataDelta, 0, 0, 0, .nop⟩
              let columnCount := ((header.columnCount : Int) + headerDelta).toNat
              let dataSize := sizeT (header.dataSize + dataDelta)
              let newNmpoolSize := sizeT (nmpoolSize + nameDelta)
              let offsetSize := fmt.format.dynamicColumnOffsetBytes dataSize
              if offsetSize ≥ fmt.format.maxOffsetSize then (.limit, s)
              else
                let copy := decide (header.format ≠ fmt.format ∨ fmt.format = .str)
                let headerSign : Int := ((offsetSize + fmt.format.fixedHdrEntry : Nat) : Int) -
                  ((header.offsetSize + header.format.fixedHdrEntry : Nat) : Int)
                let (headerSign, dataSign, copy) := deltaCheckLoop (plans ++ [last]) headerSign 0 copy
                let entrySize := offsetSize + fmt.format.fixedHdrEntry
                let newHdr : WriteSizes :=
                  ⟨columnCount, dataSize, newNmpoolSize, offsetSize, entrySize, entrySize * columnCount⟩
                if copy ∨ maxLength < sizeT (s.length + headerDelta + dataDelta) ∨
                    (headerSign < 0 ∧ dataSign > 0) ∨ (headerSign > 0 ∧ dataSign < 0) then
                  dynamicColumnUpdateCopy fmt s header newHdr plans last
                else if headerSign < 0 then
                  dynamicColumnUpdateMoveLeft fmt s
                    ⟨header.offsetSize, header.entrySize, header.headerSize, offsetSize, entrySize,
                      entrySize * columnCount, header.columnCount, columnCount, header.dtpool, header.dataSize⟩
                    plans last
                else dynamicColumnUpdateCopy fmt s header newHdr plans last

end Update

/-- `mariadb_dyncol_update_many_num`. -/
def mariadbDyncolUpdateManyNum (maxLength : Nat) (s : List UInt8) (columns : List (Nat × Value)) :
    FuncResult × List UInt8 :=
  dynamicColumnUpdateManyFmt updateFuncsNum maxLength s columns

/-- Deleting a column whose data takes no bytes, an INT 0, leaves the data
delta at zero; the first pass of `dynamic_column_update_move_left` then
leaves the following entries where they were although the directory lost
one, and the one entry of the result is still column 1's, with column 2's
data. Every buffer that holds the record takes that path. -/
theorem mariadbDyncolUpdateManyNum_moveLeft_stale_entry (getCharset : Nat → Bool) (maxLength : Nat)
    (hmax : 10 ≤ maxLength) :
    mariadbDyncolCreateManyNum [(1, .int 0), (2, .int 5)] = (.ok, [0, 2, 0, 1, 0, 0, 2, 0, 0, 10]) ∧
      mariadbDyncolUnpack getCharset [0, 2, 0, 1, 0, 0, 2, 0, 0, 10] =
        (.ok, [(.ofBytes [49], .int 0), (.ofBytes [50], .int 5)]) ∧
      mariadbDyncolUpdateManyNum maxLength [0, 2, 0, 1, 0, 0, 2, 0, 0, 10] [(1, .null)] =
        (.ok, [0, 1, 0, 1, 0, 0, 10]) ∧
      mariadbDyncolUnpack getCharset [0, 1, 0, 1, 0, 0, 10] = (.ok, [(.ofBytes [49], .int 5)]) := by
  obtain ⟨extra, rfl⟩ : ∃ extra, maxLength = extra + 10 := ⟨maxLength - 10, by omega⟩
  exact ⟨rfl, rfl, rfl, rfl⟩

/-- The record in the 90-byte buffer `mariadb_dyncol_create_many_num`
allocates for it. -/
theorem mariadbDyncolUpdateManyNum_moveLeft_stale_entry_created :
    10 ≤ 90 ∧
      (mariadbDyncolCreateManyNum [(1, .int 0), (2, .int 5)] = (.ok, [0, 2, 0, 1, 0, 0, 2, 0, 0, 10]) ∧
        mariadbDyncolUnpack (fun _ => true) [0, 2, 0, 1, 0, 0, 2, 0, 0, 10] =
          (.ok, [(.ofBytes [49], .int 0), (.ofBytes [50], .int 5)]) ∧
        mariadbDyncolUpdateManyNum 90 [0, 2, 0, 1, 0, 0, 2, 0, 0, 10] [(1, .null)] =
          (.ok, [0, 1, 0, 1, 0, 0, 10]) ∧
        mariadbDyncolUnpack (fun _ => true) [0, 1, 0, 1, 0, 0, 10] = (.ok, [(.ofBytes [49], .int 5)])) :=
  ⟨by decide, mariadbDyncolUpdateManyNum_moveLeft_stale_entry (fun _ => true) 90 (by decide)⟩

/-- `mariadb_dyncol_update_many_named`. -/
def mariadbDyncolUpdateManyNamed (maxLength : Nat) (s : List UInt8) (columns : List (LexString × Value)) :
    FuncResult × List UInt8 :=
  dynamicColumnUpdateManyFmt updateFuncsNamed maxLength s columns

end MariaDB.Dyncol
