import Mathlib.Data.FinEnum
import MariaDB.Innobase.MtrLog

set_option autoImplicit false

/- Crash recovery's two readers of the redo log, log0recv.cc.
`recv_sys_t::parse` checks each record of a mini-transaction and stores the
records of each page; `log_phys_t::apply` replays a page's stored records on
its frame. Both read the same fields of a WRITE, MEMSET or MEMMOVE record:
the length, the page identifier (absent for a record flagged `same_page`),
the offset relative to where the page's last record ended (`last_offset`),
and the body. Each checks the fields separately, and tracks `last_offset`
separately. The other record types, forced recovery, decryption and the
tablespace-header bookkeeping are left out. -/
namespace MariaDB.Innobase

open Memory

/-- The type of a record from its first byte: `b & 0x70`. -/
def MrecType.ofByte (b : UInt8) : MrecType :=
  match (b &&& 0x70).toNat >>> 4 with
  | 0 => .freePage
  | 1 => .initPage
  | 2 => .extended
  | 3 => .write
  | 4 => .memset
  | 5 => .memmove
  | 6 => .reserved
  | _ => .option

/-- Why `log_phys_t::apply` stops on a record: `goto record_corrupted`, a fill
loop that has not ended within the fuel given, or a record of a type whose
application this model leaves out. -/
inductive ApplyError where
  | recordCorrupted
  | outOfFuel
  | otherRecord
  deriving DecidableEq, Repr

/-- The WRITE, MEMSET and MEMMOVE case of `log_phys_t::apply` on the frame of
a page of `size` bytes: `l` holds the `rlen` bytes of the record after its
page identifier. The frame and `last_offset` after it. `fuel` bounds the
rounds of the loop that repeats a MEMSET pattern. -/
def applyPageWrite (size fuel : Nat) (op : MrecType) (lastOffset : Nat) (l : List UInt8) (rlen : Nat)
    (frame : Nat → UInt8) : Except ApplyError ((Nat → UInt8) × Nat) :=
  if lastOffset = 1 then .error .recordCorrupted else
  let olen := mlogDecodeVarintLength (l.headD 0)
  if olen ≥ rlen ∨ olen > 3 then .error .recordCorrupted else
  let offset := mlogDecodeVarint l
  if offset ≥ size then .error .recordCorrupted else
  if offset + lastOffset < 8 ∨ offset + lastOffset ≥ size then .error .recordCorrupted else
  let lastOffset := (lastOffset + offset) % 2 ^ 16
  let l := l.drop olen
  let rlen := rlen - olen
  if op = .write then
    if rlen + lastOffset > size then .error .recordCorrupted
    else .ok (copy frame lastOffset (bytes l) rlen, (lastOffset + rlen) % 2 ^ 16)
  else
    let llen := mlogDecodeVarintLength (l.headD 0)
    if llen > rlen ∨ llen > 3 then .error .recordCorrupted else
    let len := mlogDecodeVarint l
    if len + lastOffset > size then .error .recordCorrupted else
    let l := l.drop llen
    let rlen := rlen - llen
    if op = .memset then
      if rlen ≠ 1 then
        match copyLoop lastOffset len rlen rlen (bytes l) fuel 0 frame with
        | none => .error .outOfFuel
        | some filled =>
          .ok (copy filled.1 (lastOffset + filled.2) (bytes l) (sizeSub len filled.2), (lastOffset + len) % 2 ^ 16)
      else .ok (copy frame lastOffset (fun _ => l.headD 0) len, (lastOffset + len) % 2 ^ 16)
    else
      let slen := mlogDecodeVarintLength (l.headD 0)
      if slen ≠ rlen ∨ slen > 3 then .error .recordCorrupted else
      let s := mlogDecodeVarint l
      -- `uint32_t s`: a source before the start of the page wraps around
      let s := if s &&& 1 ≠ 0 then (lastOffset + 2 ^ 32 - (s >>> 1) - 1) % 2 ^ 32
        else (lastOffset + (s >>> 1) + 1) % 2 ^ 32
      if s ≥ 8 ∧ s + len ≤ size then
        .ok (copy frame lastOffset (fun k => frame (s + k)) len, (lastOffset + len) % 2 ^ 16)
      else .error .recordCorrupted

/-- `log_phys_t::apply` on the record at the start of `recs`, for a page of
`size` bytes: its length, the page identifier it skips (validated by
`parse` already), then its case. The frame and `last_offset` after it, and
the bytes it takes. -/
def applyRecord (size fuel lastOffset : Nat) (frame : Nat → UInt8) (recs : List UInt8) :
    Except ApplyError ((Nat → UInt8) × Nat × Nat) :=
  let b := recs.headD 0
  let rlen := (recordLength b (recs.drop 1)).1
  let lenlen := (recordLength b (recs.drop 1)).2
  let l := recs.drop (1 + lenlen)
  -- the rest of the record, the bytes of its page identifier and `last_offset`
  let head : List UInt8 × Nat × Nat :=
    if b &&& 0x80 = 0 then
      let idlen := mlogDecodeVarintLength (l.headD 0)
      let idlen' := mlogDecodeVarintLength ((l.drop idlen).headD 0)
      (l.drop (idlen + idlen'), idlen + idlen', 0)
    else (l, 0, lastOffset)
  let op := MrecType.ofByte b
  if op = .write ∨ op = .memset ∨ op = .memmove then
    (applyPageWrite size fuel op head.2.2 head.1 (rlen - head.2.1) frame).map
      fun applied => (applied.1, applied.2, 1 + lenlen + rlen)
  else .error .otherRecord

/-- The loop of `log_phys_t::apply` over the records stored for a page, up to
the byte 0 that ends them, for at most `rounds` records. -/
def applyLoop (size fuel : Nat) : Nat → Nat → (Nat → UInt8) → List UInt8 → Except ApplyError ((Nat → UInt8) × Nat)
  | 0, _, _, _ => .error .outOfFuel
  | rounds + 1, lastOffset, frame, recs =>
    if recs.headD 0 = 0 then .ok (frame, lastOffset)
    else
      (applyRecord size fuel lastOffset frame recs).bind fun applied =>
        applyLoop size fuel rounds applied.2.1 applied.1 (recs.drop applied.2.2)

theorem applyLoop_succ (size fuel rounds lastOffset : Nat) (frame : Nat → UInt8) (recs : List UInt8) :
    applyLoop size fuel (rounds + 1) lastOffset frame recs =
      if recs.headD 0 = 0 then .ok (frame, lastOffset)
      else (applyRecord size fuel lastOffset frame recs).bind fun applied =>
        applyLoop size fuel rounds applied.2.1 applied.1 (recs.drop applied.2.2) := rfl

/-- Why `recv_sys_t::parse` stops on a record: `record_corrupted`,
`page_id_corrupted`, or a record outside the page writes this model covers. -/
inductive ParseError where
  | recordCorrupted
  | pageIdCorrupted
  | otherRecord
  deriving DecidableEq, Repr

/-- The WRITE, MEMSET and MEMMOVE case of `recv_sys_t::parse`: the checks on
the `rlen` bytes `cl` of a record after its page identifier, with
`last_offset` before it. The offset where it takes the write to start, and
`last_offset` after the record (`parsed_ok: last_offset+= rlen`). -/
def parsePageWrite (pageSize : Nat) (op : MrecType) (lastOffset : Nat) (cl : List UInt8) (rlen : Nat) :
    Except ParseError (Nat × Nat) :=
  if rlen = 0 ∨ lastOffset = 1 then .error .recordCorrupted else
  let olen := mlogDecodeVarintLength (cl.headD 0)
  if olen ≥ rlen ∨ olen > 3 then .error .recordCorrupted else
  let offset := mlogDecodeVarint cl
  if offset ≥ pageSize then .error .recordCorrupted else
  let lastOffset := lastOffset + offset
  if lastOffset < 8 ∨ lastOffset ≥ pageSize then .error .recordCorrupted else
  let cl := cl.drop olen
  let rlen := rlen - olen
  if op = .write then
    if rlen + lastOffset > pageSize then .error .recordCorrupted else .ok (lastOffset, lastOffset + rlen)
  else
    let llen := mlogDecodeVarintLength (cl.headD 0)
    if llen > rlen ∨ llen > 3 then .error .recordCorrupted else
    let len := mlogDecodeVarint cl
    if lastOffset + len > pageSize then .error .recordCorrupted else
    let cl := cl.drop llen
    let rlen := rlen - llen
    if op = .memset then
      if rlen > len then .error .recordCorrupted else .ok (lastOffset, lastOffset + rlen)
    else
      let slen := mlogDecodeVarintLength (cl.headD 0)
      if slen ≠ rlen ∨ slen > 3 then .error .recordCorrupted else
      let s := mlogDecodeVarint cl
      let s := if s &&& 1 ≠ 0 then (lastOffset + 2 ^ 32 - (s >>> 1) - 1) % 2 ^ 32
        else (lastOffset + (s >>> 1) + 1) % 2 ^ 32
      -- `s + llen` in `uint32_t`
      if s < 8 ∨ (s + len) % 2 ^ 32 > pageSize then .error .recordCorrupted
      else .ok (lastOffset, lastOffset + rlen)

/-- The variables of `recv_sys_t::parse` that carry from record to record:
`last_offset`, `got_page_op` and the page of the records. -/
structure ParseState where
  lastOffset : Nat
  gotPageOp : Bool
  page : PageId
  deriving DecidableEq, Repr

/-- `recv_sys_t::parse` on the record at the start of `recs`: its length, its
page identifier unless it is for the same page as the one before, and its
case. The state after it, the offset it gives the write, and the bytes it
takes. -/
def parseRecord (pageSize : Nat) (st : ParseState) (recs : List UInt8) :
    Except ParseError (ParseState × Nat × Nat) :=
  let b := recs.headD 0
  let rlen := (recordLength b (recs.drop 1)).1
  let lenlen := (recordLength b (recs.drop 1)).2
  let l := recs.drop (1 + lenlen)
  let op := MrecType.ofByte b
  if ¬(op = .write ∨ op = .memset ∨ op = .memmove) then .error .otherRecord else
  let headed : Except ParseError (ParseState × List UInt8 × Nat × Nat) :=
    if b &&& 0x80 ≠ 0 then
      -- a record for the same page; without a page record before it, a file record
      if st.gotPageOp then .ok (st, l, rlen, 0) else .error .otherRecord
    else
      let idlen := mlogDecodeVarintLength (l.headD 0)
      if idlen > 5 ∨ idlen ≥ rlen then .error .pageIdCorrupted else
      let space := mlogDecodeVarint l
      if space = mlogDecodeError then .error .pageIdCorrupted else
      let l := l.drop idlen
      let idlen' := mlogDecodeVarintLength (l.headD 0)
      if idlen' > 5 ∨ idlen' > rlen - idlen then .error .pageIdCorrupted else
      let pageNo := mlogDecodeVarint l
      if pageNo = mlogDecodeError then .error .pageIdCorrupted else
      .ok (⟨0, true, ⟨space, pageNo⟩⟩, l.drop idlen', rlen - idlen - idlen', idlen + idlen')
  headed.bind fun head =>
    -- `l - recs + rlen > srv_page_size`
    if head.2.2.1 ≠ 0 ∧ 1 + lenlen + head.2.2.2 + head.2.2.1 > pageSize then .error .recordCorrupted
    else
      (parsePageWrite pageSize op head.1.lastOffset head.2.1 head.2.2.1).map fun w =>
        ({ head.1 with lastOffset := w.2 }, w.1, 1 + lenlen + rlen)

/-- The loop of `recv_sys_t::parse` over the records of a mini-transaction, up
to the byte 0 or 1 that ends it, for at most `rounds` records: the offsets
it gives the writes, in order. -/
def parseLoop (pageSize : Nat) : Nat → ParseState → List UInt8 → Except ParseError (List Nat)
  | 0, _, _ => .ok []
  | rounds + 1, st, recs =>
    if recs.headD 0 ≤ 1 then .ok []
    else
      (parseRecord pageSize st recs).bind fun parsed =>
        (parseLoop pageSize rounds parsed.1 (recs.drop parsed.2.2)).map (parsed.2.1 :: ·)

theorem parseLoop_succ (pageSize rounds : Nat) (st : ParseState) (recs : List UInt8) :
    parseLoop pageSize (rounds + 1) st recs =
      if recs.headD 0 ≤ 1 then .ok []
      else (parseRecord pageSize st recs).bind fun parsed =>
        (parseLoop pageSize rounds parsed.1 (recs.drop parsed.2.2)).map (parsed.2.1 :: ·) := rfl

/-- The type and the same-page flag of a first byte with a length count. -/
theorem ofByte_first_byte (t : MrecType) (h : t ≠ .reserved) {samePage : UInt8} (hsp : samePage = 0 ∨ samePage = 0x80)
    {n : Nat} (hn : n < 16) :
    MrecType.ofByte ((t.logType h).code ||| samePage ||| UInt8.ofNat n) = t ∧
      ((t.logType h).code ||| samePage ||| UInt8.ofNat n) &&& 0x80 = samePage := by
  have table : ∀ n < 16, ∀ t ∈ [MrecType.freePage, .initPage, .extended, .write, .memset, .memmove, .option],
      ∀ sp ∈ [(0 : UInt8), 0x80], MrecType.ofByte (t.code ||| sp ||| UInt8.ofNat n) = t ∧
        (t.code ||| sp ||| UInt8.ofNat n) &&& 0x80 = sp := by decide +kernel
  have member : t ∈ [MrecType.freePage, .initPage, .extended, .write, .memset, .memmove, .option] := by
    cases t <;> simp_all
  exact table n hn t member samePage (by rcases hsp with rfl | rfl <;> simp)

/-- What the readers take from a record that starts with `recordHead`: its
type and flag, `rlen` covering the fields and the body, and past the
length bytes, the fields. -/
theorem read_recordHead (t : MrecType) (h : t ≠ .reserved) {samePage : UInt8} (hsp : samePage = 0 ∨ samePage = 0x80)
    (fields body rest : List UInt8) (hfields : fields ≠ []) (small : 1 + fields.length + body.length < min4Byte) :
    ∃ first tail lenlen, recordHead (t.logType h) samePage fields body.length = first :: tail ∧
      MrecType.ofByte first = t ∧ first &&& 0x80 = samePage ∧
      recordLength first (tail ++ body ++ rest) = (fields.length + body.length, lenlen) ∧
      (tail ++ body ++ rest).drop lenlen = fields ++ body ++ rest ∧ tail.length = lenlen + fields.length := by
  have filled : 0 < fields.length := List.length_pos_iff.mpr hfields
  unfold recordHead
  split_ifs with long
  · -- nibble 0 and the length field
    have field := @longLength_add body.length (1 + fields.length) long small
    have fits := @longLength_lt body.length (1 + fields.length) small
    have typed := ofByte_first_byte t h hsp (n := 0) (by decide)
    rw [show UInt8.ofNat 0 = 0 from rfl, UInt8.or_zero] at typed
    refine ⟨_, _, varintSize (longLength body.length (1 + fields.length)), rfl, typed.1, typed.2, ?_, ?_, ?_⟩
    · simp only [recordLength, nibble_first_byte_long _ hsp, ↓reduceIte, List.append_assoc,
        mlogDecodeVarintLength_encode, mlogDecodeVarint_encode _ fits]
      congr 1
      omega
    · rw [List.append_assoc, List.append_assoc, List.drop_left' (by simp), List.append_assoc]
    · simp only [List.length_append, length_mlogEncodeVarint]
  · -- the count in the first byte
    have count : fields.length + body.length < 16 := by omega
    have typed := ofByte_first_byte t h hsp count
    refine ⟨_, _, 0, rfl, typed.1, typed.2, ?_, rfl, by omega⟩
    simp only [recordLength, nibble_first_byte _ hsp count, show fields.length + body.length ≠ 0 by omega,
      ↓reduceIte]

theorem drop_one_add_cons {α : Type} (a : α) (l : List α) (n : Nat) : (a :: l).drop (1 + n) = l.drop n := by
  rw [Nat.add_comm, List.drop_succ_cons]

/-- `log_phys_t::apply` on a record for the same page: the case on its offset
field and body, from the `last_offset` of the record before. -/
theorem applyRecord_same_page (t : MrecType) (ht : t = .write ∨ t = .memset ∨ t = .memmove) (h : t ≠ .reserved)
    (off : Nat) (body rest : List UInt8) (small : 1 + varintSize off + body.length < min4Byte)
    (size fuel lastOffset : Nat) (frame : Nat → UInt8) :
    applyRecord size fuel lastOffset frame (recordHead (t.logType h) 0x80 (mlogEncodeVarint off) body.length ++ body ++ rest) =
      (applyPageWrite size fuel t lastOffset (mlogEncodeVarint off ++ body ++ rest) (varintSize off + body.length)
        frame).map fun p => (p.1, p.2, (recordHead (t.logType h) 0x80 (mlogEncodeVarint off) body.length).length +
          body.length) := by
  obtain ⟨first, tail, lenlen, head, typed, flag, length, fields, tailLen⟩ :=
    read_recordHead t h (.inr rfl) (mlogEncodeVarint off) body rest (mlogEncodeVarint_ne_nil off)
      (by rw [length_mlogEncodeVarint]; exact small)
  rw [head]
  delta applyRecord
  simp only [List.cons_append, List.headD_cons, List.drop_one, List.tail_cons, length, drop_one_add_cons,
    fields, flag, show (0x80 : UInt8) ≠ 0 by decide, ↓reduceIte, typed, ht, Nat.sub_zero, length_mlogEncodeVarint,
    List.length_cons, tailLen]
  congr 1
  funext p
  congr 2
  omega

/-- `log_phys_t::apply` on a record with a page identifier: past it, the case
on its offset field and body, from `last_offset` 0. -/
theorem applyRecord_new_page (t : MrecType) (ht : t = .write ∨ t = .memset ∨ t = .memmove) (h : t ≠ .reserved)
    (id : PageId) (off : Nat) (body rest : List UInt8)
    (small : 1 + (varintSize id.space + varintSize id.pageNo + varintSize off) + body.length < min4Byte)
    (size fuel lastOffset : Nat) (frame : Nat → UInt8) :
    applyRecord size fuel lastOffset frame
        (recordHead (t.logType h) 0 (mlogEncodeVarint id.space ++ mlogEncodeVarint id.pageNo ++ mlogEncodeVarint off)
          body.length ++ body ++ rest) =
      (applyPageWrite size fuel t 0 (mlogEncodeVarint off ++ body ++ rest) (varintSize off + body.length) frame).map
        fun p => (p.1, p.2, (recordHead (t.logType h) 0
          (mlogEncodeVarint id.space ++ mlogEncodeVarint id.pageNo ++ mlogEncodeVarint off) body.length).length +
            body.length) := by
  obtain ⟨first, tail, lenlen, head, typed, flag, length, fields, tailLen⟩ :=
    read_recordHead t h (.inl rfl) (mlogEncodeVarint id.space ++ mlogEncodeVarint id.pageNo ++ mlogEncodeVarint off)
      body rest (by simp [mlogEncodeVarint_ne_nil]) (by simp only [List.length_append, length_mlogEncodeVarint]; exact small)
  have space := mlogDecodeVarintLength_encode id.space (mlogEncodeVarint id.pageNo ++ mlogEncodeVarint off ++ body ++ rest)
  have pageNo := mlogDecodeVarintLength_encode id.pageNo (mlogEncodeVarint off ++ body ++ rest)
  rw [head]
  simp only [List.append_assoc] at length fields space pageNo ⊢
  delta applyRecord
  simp only [List.cons_append, List.headD_cons, List.drop_one, List.tail_cons, length,
    fields, flag, ↓reduceIte, typed, ht, space, List.drop_left' (length_mlogEncodeVarint id.space), pageNo,
    ← List.drop_drop, List.drop_left' (length_mlogEncodeVarint id.pageNo)]
  simp only [List.length_append, length_mlogEncodeVarint, List.length_cons] at tailLen ⊢
  rw [show varintSize id.space + (varintSize id.pageNo + varintSize off) + body.length -
    (varintSize id.space + varintSize id.pageNo) = varintSize off + body.length by omega]
  congr 1
  funext p
  congr 2
  omega

/-- `log_phys_t::apply` on the body of a WRITE that fits the page: the bytes
land at the offset, and `last_offset` moves past them. -/
theorem applyPageWrite_write {size fuel base off : Nat} {data : List UInt8} (rest : List UInt8) (frame : Nat → UInt8)
    (notFirst : base ≠ 1) (offSmall : off < min4Byte) (nonempty : 0 < data.length) (start : 8 ≤ base + off)
    (fits : base + off + data.length ≤ size) (page : size ≤ 2 ^ 16) :
    applyPageWrite size fuel .write base (mlogEncodeVarint off ++ data ++ rest) (varintSize off + data.length) frame =
      .ok (copy frame (base + off) (bytes data) data.length, (base + off + data.length) % 2 ^ 16) := by
  have olen := varintSize_le_three offSmall
  have offset := mlogDecodeVarint_encode off (lt_mlogDecodeError_of_lt_min4Byte offSmall) (data ++ rest)
  have olenIs := mlogDecodeVarintLength_encode off (data ++ rest)
  simp only [List.append_assoc] at offset olenIs ⊢
  delta applyPageWrite
  simp only [notFirst, olenIs, offset, ↓reduceIte,
    List.drop_left' (length_mlogEncodeVarint off), Nat.add_sub_cancel_left,
    show ¬(varintSize off ≥ varintSize off + data.length ∨ varintSize off > 3) by omega,
    show ¬off ≥ size by omega, show ¬(off + base < 8 ∨ off + base ≥ size) by omega,
    Nat.mod_eq_of_lt (show base + off < 2 ^ 16 by omega), show ¬data.length + (base + off) > size by omega]
  rw [copy_congr_src frame (base + off) (fun k hk => bytes_append_of_lt rest hk)]

/-- `log_phys_t::apply` on the body of a MEMSET that fits the page, up to the
fill: the offset and length fields pass their checks, and the pattern is
what is left of the record. -/
theorem applyPageWrite_memset {size fuel base off len : Nat} {str : List UInt8} (rest : List UInt8)
    (frame : Nat → UInt8) (notFirst : base ≠ 1) (offSmall : off < min4Byte) (lenSmall : len < min4Byte)
    (start : 8 ≤ base + off) (inPage : base + off < size) (fits : base + off + len ≤ size) (page : size ≤ 2 ^ 16) :
    applyPageWrite size fuel .memset base (mlogEncodeVarint off ++ mlogEncodeVarint len ++ str ++ rest)
        (varintSize off + (varintSize len + str.length)) frame =
      if str.length ≠ 1 then
        match copyLoop (base + off) len str.length str.length (bytes (str ++ rest)) fuel 0 frame with
        | none => .error .outOfFuel
        | some filled =>
          .ok (copy filled.1 (base + off + filled.2) (bytes (str ++ rest)) (sizeSub len filled.2),
            (base + off + len) % 2 ^ 16)
      else .ok (copy frame (base + off) (fun _ => (str ++ rest).headD 0) len, (base + off + len) % 2 ^ 16) := by
  have olen := varintSize_le_three offSmall
  have llen := varintSize_le_three lenSmall
  have llenPos := varintSize_pos len
  have offset := mlogDecodeVarint_encode off (lt_mlogDecodeError_of_lt_min4Byte offSmall)
    (mlogEncodeVarint len ++ str ++ rest)
  have olenIs := mlogDecodeVarintLength_encode off (mlogEncodeVarint len ++ str ++ rest)
  have length := mlogDecodeVarint_encode len (lt_mlogDecodeError_of_lt_min4Byte lenSmall) (str ++ rest)
  have llenIs := mlogDecodeVarintLength_encode len (str ++ rest)
  simp only [List.append_assoc] at offset olenIs length llenIs ⊢
  delta applyPageWrite
  simp only [notFirst, olenIs, offset, ↓reduceIte,
    List.drop_left' (length_mlogEncodeVarint off), Nat.add_sub_cancel_left,
    show ¬(varintSize off ≥ varintSize off + (varintSize len + str.length) ∨ varintSize off > 3) by omega,
    show ¬off ≥ size by omega, show ¬(off + base < 8 ∨ off + base ≥ size) by omega,
    Nat.mod_eq_of_lt (show base + off < 2 ^ 16 by omega), show MrecType.memset ≠ .write by decide,
    llenIs, show ¬(varintSize len > varintSize len + str.length ∨ varintSize len > 3) by omega, length,
    show ¬len + (base + off) > size by omega, List.drop_left' (length_mlogEncodeVarint len)]

/-- A MEMSET without pattern bytes and of a positive length: the loop
`for (s= 0; s < llen; s+= rlen)` never ends, whatever the fuel. -/
theorem applyPageWrite_memset_empty {size base off len : Nat} (rest : List UInt8) (frame : Nat → UInt8)
    (notFirst : base ≠ 1) (offSmall : off < min4Byte) (lenSmall : len < min4Byte) (start : 8 ≤ base + off)
    (inPage : base + off < size) (fits : base + off + len ≤ size) (page : size ≤ 2 ^ 16) (pos : 0 < len) (fuel : Nat) :
    applyPageWrite size fuel .memset base (mlogEncodeVarint off ++ mlogEncodeVarint len ++ [] ++ rest)
      (varintSize off + (varintSize len + ([] : List UInt8).length)) frame = .error .outOfFuel := by
  rw [applyPageWrite_memset rest frame notFirst offSmall lenSmall start inPage fits page, List.length_nil,
    if_pos (by decide), copyLoop_step_zero (base + off) len 0 _ pos fuel frame]

/-- A MEMSET with a pattern: the `len` bytes from the offset hold the pattern
repeated, and when the pattern's length divides `len` the frame is the
original one with exactly those bytes replaced. -/
theorem applyPageWrite_memset_fill {size fuel base off len : Nat} {str : List UInt8} (rest : List UInt8)
    (frame : Nat → UInt8) (notFirst : base ≠ 1) (offSmall : off < min4Byte) (lenSmall : len < min4Byte)
    (start : 8 ≤ base + off) (inPage : base + off < size) (fits : base + off + len ≤ size) (page : size ≤ 2 ^ 16)
    (pattern : 0 < str.length) (enough : len < fuel) :
    ∃ frame', applyPageWrite size fuel .memset base (mlogEncodeVarint off ++ mlogEncodeVarint len ++ str ++ rest)
        (varintSize off + (varintSize len + str.length)) frame = .ok (frame', (base + off + len) % 2 ^ 16) ∧
      (∀ a, base + off ≤ a → a < base + off + len → frame' a = bytes str ((a - (base + off)) % str.length)) ∧
      (str.length ∣ len → frame' = repeatPattern frame (base + off) len (bytes str) str.length) := by
  rw [applyPageWrite_memset rest frame notFirst offSmall lenSmall start inPage fits page]
  by_cases one : str.length = 1
  · -- `memset(frame + last_offset, *l, llen)`
    obtain ⟨c, rfl⟩ := List.length_eq_one_iff.mp one
    have fill : copy frame (base + off) (fun _ => ([c] ++ rest).headD 0) len =
        repeatPattern frame (base + off) len (bytes [c]) 1 := by
      funext a
      by_cases inside : base + off ≤ a ∧ a < base + off + len
      · rw [copy_inside _ _ inside.1 inside.2, repeatPattern_inside _ _ _ inside.1 inside.2, Nat.mod_one]
        rfl
      · rw [copy_outside _ _ (by omega), repeatPattern_outside _ _ _ (by omega)]
    refine ⟨_, by rw [if_neg (by simp), fill]; rfl, fun a lower upper => ?_, fun _ => rfl⟩
    rw [repeatPattern_inside _ _ _ lower upper]
  · -- the copy loop, the whole pattern each round, then a last `memcpy` of `llen - s` bytes
    have run := copyLoop_repeat pattern (base + off) len (bytes (str ++ rest)) frame fuel 0 (Nat.zero_le _)
      (by have := ceilDiv_le_self pattern len; omega)
    rw [Nat.zero_mul, repeatPattern_zero] at run
    have reach := le_ceilDiv_mul pattern len
    rw [if_pos one, run]
    dsimp only
    refine ⟨_, rfl, fun a lower upper => ?_, fun divides => ?_⟩
    · rw [copy_outside _ _ (.inl (by omega)), repeatPattern_inside _ _ _ lower (by omega),
        bytes_append_of_lt rest (Nat.mod_lt _ pattern)]
    · have small : len < 2 ^ 64 := by rw [min4Byte_eq] at lenSmall; omega
      rw [ceilDiv_mul_of_dvd pattern divides, sizeSub_self len small, copy_zero,
        repeatPattern_congr_src _ _ _ pattern (fun k hk => bytes_append_of_lt rest hk)]

/-- A MEMSET whose pattern of two or more bytes does not divide its length:
the last round of the loop copies a whole pattern past the `len` bytes, so
the byte after them is a pattern byte, and `memcpy(..., llen - s)` then
copies `2^64 - (s - llen)` bytes. -/
theorem applyPageWrite_memset_overrun {size fuel base off len : Nat} {str : List UInt8} (rest : List UInt8)
    (frame : Nat → UInt8) (notFirst : base ≠ 1) (offSmall : off < min4Byte) (lenSmall : len < min4Byte)
    (start : 8 ≤ base + off) (inPage : base + off < size) (fits : base + off + len ≤ size) (page : size ≤ 2 ^ 16)
    (two : 2 ≤ str.length) (short : str.length ≤ len) (uneven : ¬str.length ∣ len) (enough : len < fuel) :
    ∃ frame' s, applyPageWrite size fuel .memset base (mlogEncodeVarint off ++ mlogEncodeVarint len ++ str ++ rest)
        (varintSize off + (varintSize len + str.length)) frame = .ok (frame', (base + off + len) % 2 ^ 16) ∧
      len < s ∧ s < len + str.length ∧ frame' (base + off + len) = bytes str (len % str.length) ∧
      ∀ a, base + off + s ≤ a → a < base + off + s + (2 ^ 64 - (s - len)) →
        frame' a = bytes (str ++ rest) (a - (base + off + s)) := by
  have pattern : 0 < str.length := by omega
  rw [applyPageWrite_memset rest frame notFirst offSmall lenSmall start inPage fits page]
  have run := copyLoop_repeat pattern (base + off) len (bytes (str ++ rest)) frame fuel 0 (Nat.zero_le _)
    (by have := ceilDiv_le_self pattern len; omega)
  rw [Nat.zero_mul, repeatPattern_zero] at run
  rw [if_pos (by omega), run]
  dsimp only
  -- `s`, the first multiple of the pattern's length from `len` on
  have reach := le_ceilDiv_mul pattern len
  have past : len ≠ (len + str.length - 1) / str.length * str.length := fun same =>
    uneven ⟨_, same.trans (Nat.mul_comm _ _)⟩
  have below : (len + str.length - 1) / str.length * str.length < len + str.length := by
    have := Nat.div_mul_le_self (len + str.length - 1) str.length
    omega
  have small : (len + str.length - 1) / str.length * str.length < 2 ^ 64 := by
    rw [min4Byte_eq] at lenSmall; omega
  refine ⟨_, _, rfl, by omega, below, ?_, fun a lower upper => ?_⟩
  · rw [copy_outside _ _ (.inl (by omega)), repeatPattern_inside _ _ _ (by omega) (by omega),
      Nat.add_sub_cancel_left, bytes_append_of_lt rest (Nat.mod_lt _ pattern)]
  · rw [sizeSub_of_lt (by omega) small, copy_inside _ _ lower upper]

/-- `recv_sys_t::parse` on the body of a WRITE that fits the page: the write
starts at the offset, and `last_offset` moves past its bytes. -/
theorem parsePageWrite_write {pageSize base off : Nat} {data : List UInt8} (rest : List UInt8)
    (notFirst : base ≠ 1) (offSmall : off < min4Byte) (nonempty : 0 < data.length) (start : 8 ≤ base + off)
    (fits : base + off + data.length ≤ pageSize) :
    parsePageWrite pageSize .write base (mlogEncodeVarint off ++ data ++ rest) (varintSize off + data.length) =
      .ok (base + off, base + off + data.length) := by
  have olen := varintSize_le_three offSmall
  have offset := mlogDecodeVarint_encode off (lt_mlogDecodeError_of_lt_min4Byte offSmall) (data ++ rest)
  have olenIs := mlogDecodeVarintLength_encode off (data ++ rest)
  simp only [List.append_assoc] at offset olenIs ⊢
  delta parsePageWrite
  simp only [notFirst, olenIs, offset, ↓reduceIte, Nat.add_sub_cancel_left,
    show varintSize off + data.length ≠ 0 by omega,
    show ¬(varintSize off ≥ varintSize off + data.length ∨ varintSize off > 3) by omega,
    show ¬off ≥ pageSize by omega, show ¬(base + off < 8 ∨ base + off ≥ pageSize) by omega,
    show ¬data.length + (base + off) > pageSize by omega, or_false]

/-- `recv_sys_t::parse` on the body of a MEMSET that fits the page, with no
more pattern bytes than its length: the fill starts at the offset, and
`last_offset` moves past the pattern bytes of the record. -/
theorem parsePageWrite_memset {pageSize base off len : Nat} {str : List UInt8} (rest : List UInt8)
    (notFirst : base ≠ 1) (offSmall : off < min4Byte) (lenSmall : len < min4Byte) (start : 8 ≤ base + off)
    (inPage : base + off < pageSize) (fits : base + off + len ≤ pageSize) (short : str.length ≤ len) :
    parsePageWrite pageSize .memset base (mlogEncodeVarint off ++ mlogEncodeVarint len ++ str ++ rest)
        (varintSize off + (varintSize len + str.length)) =
      .ok (base + off, base + off + str.length) := by
  have olen := varintSize_le_three offSmall
  have llen := varintSize_le_three lenSmall
  have llenPos := varintSize_pos len
  have offset := mlogDecodeVarint_encode off (lt_mlogDecodeError_of_lt_min4Byte offSmall)
    (mlogEncodeVarint len ++ str ++ rest)
  have olenIs := mlogDecodeVarintLength_encode off (mlogEncodeVarint len ++ str ++ rest)
  have length := mlogDecodeVarint_encode len (lt_mlogDecodeError_of_lt_min4Byte lenSmall) (str ++ rest)
  have llenIs := mlogDecodeVarintLength_encode len (str ++ rest)
  simp only [List.append_assoc] at offset olenIs length llenIs ⊢
  delta parsePageWrite
  simp only [notFirst, olenIs, offset, ↓reduceIte, Nat.add_sub_cancel_left,
    show varintSize off + (varintSize len + str.length) ≠ 0 by omega,
    show ¬(varintSize off ≥ varintSize off + (varintSize len + str.length) ∨ varintSize off > 3) by omega,
    show ¬off ≥ pageSize by omega, show ¬(base + off < 8 ∨ base + off ≥ pageSize) by omega,
    show MrecType.memset ≠ .write by decide, or_false,
    List.drop_left' (length_mlogEncodeVarint off), llenIs, length,
    show ¬(varintSize len > varintSize len + str.length ∨ varintSize len > 3) by omega,
    show ¬base + off + len > pageSize by omega, show ¬str.length > len by omega]

/-- Apply and parse decode the source of a MEMMOVE relative to their own
`last_offset` `p`: the writer's source moved by `p - d`, in `uint32_t`. -/
theorem decode_memmoveSourceCode {p d s : Nat} (ne : s ≠ d) (near : d < s + 2 ^ 32) :
    (if memmoveSourceCode d s &&& 1 ≠ 0 then (p + 2 ^ 32 - (memmoveSourceCode d s >>> 1) - 1) % 2 ^ 32
      else (p + (memmoveSourceCode d s >>> 1) + 1) % 2 ^ 32) = (p + 2 ^ 32 + s - d) % 2 ^ 32 := by
  rw [Nat.and_one_is_mod, Nat.shiftRight_one]
  rcases Nat.lt_or_gt_of_ne ne with before | after
  · rw [memmoveSourceCode_of_gt before, if_pos (by omega)]
    congr 1
    omega
  · -- a source after the destination: adding 2^32 changes nothing modulo 2^32
    rw [memmoveSourceCode_of_lt after, if_neg (by omega), Nat.add_sub_assoc (by omega),
      show p + 2 ^ 32 + (s - d) = p + (s - d) + 2 ^ 32 by omega, Nat.add_mod_right]
    congr 1
    omega

/-- `log_phys_t::apply` on the body of a MEMMOVE that `mtr_t::memmove`
logged within the page: the `len` bytes from the source move to the offset. -/
theorem applyPageWrite_memmove {size fuel base off len src : Nat} (rest : List UInt8) (frame : Nat → UInt8)
    (notFirst : base ≠ 1) (offSmall : off < min4Byte) (lenSmall : len < min4Byte)
    (codeSmall : memmoveSourceCode (base + off) src < min4Byte) (start : 8 ≤ base + off) (inPage : base + off < size)
    (fits : base + off + len ≤ size) (page : size ≤ 2 ^ 16) (ne : src ≠ base + off) (srcStart : 8 ≤ src)
    (srcFits : src + len ≤ size) :
    applyPageWrite size fuel .memmove base
        (mlogEncodeVarint off ++ mlogEncodeVarint len ++ mlogEncodeVarint (memmoveSourceCode (base + off) src) ++ rest)
        (varintSize off + (varintSize len + varintSize (memmoveSourceCode (base + off) src))) frame =
      .ok (copy frame (base + off) (fun k => frame (src + k)) len, (base + off + len) % 2 ^ 16) := by
  have olen := varintSize_le_three offSmall
  have llen := varintSize_le_three lenSmall
  have slen := varintSize_le_three codeSmall
  have llenPos := varintSize_pos len
  have slenPos := varintSize_pos (memmoveSourceCode (base + off) src)
  have offset := mlogDecodeVarint_encode off (lt_mlogDecodeError_of_lt_min4Byte offSmall)
    (mlogEncodeVarint len ++ mlogEncodeVarint (memmoveSourceCode (base + off) src) ++ rest)
  have olenIs := mlogDecodeVarintLength_encode off
    (mlogEncodeVarint len ++ mlogEncodeVarint (memmoveSourceCode (base + off) src) ++ rest)
  have length := mlogDecodeVarint_encode len (lt_mlogDecodeError_of_lt_min4Byte lenSmall)
    (mlogEncodeVarint (memmoveSourceCode (base + off) src) ++ rest)
  have llenIs := mlogDecodeVarintLength_encode len (mlogEncodeVarint (memmoveSourceCode (base + off) src) ++ rest)
  have code := mlogDecodeVarint_encode (memmoveSourceCode (base + off) src)
    (lt_mlogDecodeError_of_lt_min4Byte codeSmall) rest
  have slenIs := mlogDecodeVarintLength_encode (memmoveSourceCode (base + off) src) rest
  -- apply's `last_offset` is the writer's destination, so the source comes back as it was
  have source := @decode_memmoveSourceCode (base + off) (base + off) src ne (by omega)
  rw [show base + off + 2 ^ 32 + src - (base + off) = src + 2 ^ 32 by omega, Nat.add_mod_right,
    Nat.mod_eq_of_lt (show src < 2 ^ 32 by omega)] at source
  simp only [List.append_assoc] at offset olenIs length llenIs ⊢
  delta applyPageWrite
  simp only [notFirst, olenIs, offset, ↓reduceIte,
    List.drop_left' (length_mlogEncodeVarint off), Nat.add_sub_cancel_left,
    show ¬(varintSize off ≥ varintSize off + (varintSize len + varintSize (memmoveSourceCode (base + off) src)) ∨
      varintSize off > 3) by omega,
    show ¬off ≥ size by omega, show ¬(off + base < 8 ∨ off + base ≥ size) by omega,
    Nat.mod_eq_of_lt (show base + off < 2 ^ 16 by omega), show MrecType.memmove ≠ .write by decide,
    llenIs, length, show ¬(varintSize len > varintSize len + varintSize (memmoveSourceCode (base + off) src) ∨
      varintSize len > 3) by omega,
    show ¬len + (base + off) > size by omega, List.drop_left' (length_mlogEncodeVarint len),
    show MrecType.memmove ≠ .memset by decide, slenIs, code, ne_eq, not_true_eq_false, false_or,
    show ¬varintSize (memmoveSourceCode (base + off) src) > 3 by omega, source]
  rw [if_pos ⟨srcStart, srcFits⟩]

/-- `recv_sys_t::parse` on the body of a MEMMOVE that `mtr_t::memmove`
logged from destination `d`, read from the `last_offset` that parse has:
the source it checks is the writer's, moved by the difference in `uint32_t`. -/
theorem parsePageWrite_memmove {pageSize base off len d src : Nat} (rest : List UInt8)
    (notFirst : base ≠ 1) (offSmall : off < min4Byte) (lenSmall : len < min4Byte)
    (codeSmall : memmoveSourceCode d src < min4Byte) (start : 8 ≤ base + off) (inPage : base + off < pageSize)
    (fits : base + off + len ≤ pageSize) (ne : src ≠ d) (near : d < src + 2 ^ 32) :
    parsePageWrite pageSize .memmove base
        (mlogEncodeVarint off ++ mlogEncodeVarint len ++ mlogEncodeVarint (memmoveSourceCode d src) ++ rest)
        (varintSize off + (varintSize len + varintSize (memmoveSourceCode d src))) =
      if (base + off + 2 ^ 32 + src - d) % 2 ^ 32 < 8 ∨
          ((base + off + 2 ^ 32 + src - d) % 2 ^ 32 + len) % 2 ^ 32 > pageSize then .error .recordCorrupted
      else .ok (base + off, base + off + varintSize (memmoveSourceCode d src)) := by
  have olen := varintSize_le_three offSmall
  have llen := varintSize_le_three lenSmall
  have slen := varintSize_le_three codeSmall
  have llenPos := varintSize_pos len
  have slenPos := varintSize_pos (memmoveSourceCode d src)
  have offset := mlogDecodeVarint_encode off (lt_mlogDecodeError_of_lt_min4Byte offSmall)
    (mlogEncodeVarint len ++ mlogEncodeVarint (memmoveSourceCode d src) ++ rest)
  have olenIs := mlogDecodeVarintLength_encode off (mlogEncodeVarint len ++ mlogEncodeVarint (memmoveSourceCode d src) ++ rest)
  have length := mlogDecodeVarint_encode len (lt_mlogDecodeError_of_lt_min4Byte lenSmall)
    (mlogEncodeVarint (memmoveSourceCode d src) ++ rest)
  have llenIs := mlogDecodeVarintLength_encode len (mlogEncodeVarint (memmoveSourceCode d src) ++ rest)
  have code := mlogDecodeVarint_encode (memmoveSourceCode d src) (lt_mlogDecodeError_of_lt_min4Byte codeSmall) rest
  have slenIs := mlogDecodeVarintLength_encode (memmoveSourceCode d src) rest
  have source := @decode_memmoveSourceCode (base + off) d src ne near
  simp only [List.append_assoc] at offset olenIs length llenIs ⊢
  delta parsePageWrite
  simp only [notFirst, olenIs, offset, ↓reduceIte, Nat.add_sub_cancel_left,
    show varintSize off + (varintSize len + varintSize (memmoveSourceCode d src)) ≠ 0 by omega,
    show ¬(varintSize off ≥ varintSize off + (varintSize len + varintSize (memmoveSourceCode d src)) ∨
      varintSize off > 3) by omega,
    show ¬off ≥ pageSize by omega, show ¬(base + off < 8 ∨ base + off ≥ pageSize) by omega,
    show MrecType.memmove ≠ .write by decide, or_false,
    List.drop_left' (length_mlogEncodeVarint off), llenIs, length,
    show ¬(varintSize len > varintSize len + varintSize (memmoveSourceCode d src) ∨ varintSize len > 3) by omega,
    show ¬base + off + len > pageSize by omega, List.drop_left' (length_mlogEncodeVarint len),
    show MrecType.memmove ≠ .memset by decide, slenIs, code, ne_eq, not_true_eq_false,
    show ¬varintSize (memmoveSourceCode d src) > 3 by omega, source]

/-- `recv_sys_t::parse` on a record for the same page after a page record:
the case on its offset field and body, from the `last_offset` it carries. -/
theorem parseRecord_same_page (t : MrecType) (ht : t = .write ∨ t = .memset ∨ t = .memmove) (h : t ≠ .reserved)
    (off : Nat) (body rest : List UInt8) (small : 1 + varintSize off + body.length < min4Byte)
    (pageSize : Nat) (st : ParseState) (got : st.gotPageOp = true)
    (fits : (recordHead (t.logType h) 0x80 (mlogEncodeVarint off) body.length).length + body.length ≤ pageSize) :
    parseRecord pageSize st (recordHead (t.logType h) 0x80 (mlogEncodeVarint off) body.length ++ body ++ rest) =
      (parsePageWrite pageSize t st.lastOffset (mlogEncodeVarint off ++ body ++ rest) (varintSize off + body.length)).map
        fun p => ({ st with lastOffset := p.2 }, p.1,
          (recordHead (t.logType h) 0x80 (mlogEncodeVarint off) body.length).length + body.length) := by
  obtain ⟨first, tail, lenlen, head, typed, flag, length, fields, tailLen⟩ :=
    read_recordHead t h (.inr rfl) (mlogEncodeVarint off) body rest (mlogEncodeVarint_ne_nil off)
      (by rw [length_mlogEncodeVarint]; exact small)
  have samePage : first &&& 0x80 ≠ 0 := by rw [flag]; decide
  rw [head] at fits ⊢
  simp only [List.length_cons, length_mlogEncodeVarint] at tailLen fits
  delta parseRecord
  simp only [List.cons_append, List.headD_cons, List.drop_one, List.tail_cons, length, drop_one_add_cons,
    fields, ↓reduceIte, typed, ht, got, length_mlogEncodeVarint,
    List.length_cons, tailLen, not_true_eq_false]
  rw [if_pos samePage]
  simp only [Except.bind]
  rw [if_neg (by omega)]
  cases parsePageWrite pageSize t st.lastOffset (mlogEncodeVarint off ++ body ++ rest) (varintSize off + body.length) with
  | error e => rfl
  | ok p =>
    simp only [Except.map, got, Except.ok.injEq, Prod.mk.injEq, true_and]
    omega

/-- `recv_sys_t::parse` on a record with a page identifier: the identifier
passes its checks and becomes the page of the records after it, and the
case on the offset field and body starts from `last_offset` 0. -/
theorem parseRecord_new_page (t : MrecType) (ht : t = .write ∨ t = .memset ∨ t = .memmove) (h : t ≠ .reserved)
    (id : PageId) (spaceOk : id.space < mlogDecodeError) (pageNoOk : id.pageNo < mlogDecodeError)
    (off : Nat) (body rest : List UInt8)
    (small : 1 + (varintSize id.space + varintSize id.pageNo + varintSize off) + body.length < min4Byte)
    (pageSize : Nat) (st : ParseState)
    (fits : (recordHead (t.logType h) 0 (mlogEncodeVarint id.space ++ mlogEncodeVarint id.pageNo ++
      mlogEncodeVarint off) body.length).length + body.length ≤ pageSize) :
    parseRecord pageSize st
        (recordHead (t.logType h) 0 (mlogEncodeVarint id.space ++ mlogEncodeVarint id.pageNo ++ mlogEncodeVarint off)
          body.length ++ body ++ rest) =
      (parsePageWrite pageSize t 0 (mlogEncodeVarint off ++ body ++ rest) (varintSize off + body.length)).map
        fun p => (⟨p.2, true, id⟩, p.1, (recordHead (t.logType h) 0
          (mlogEncodeVarint id.space ++ mlogEncodeVarint id.pageNo ++ mlogEncodeVarint off) body.length).length +
            body.length) := by
  obtain ⟨first, tail, lenlen, head, typed, flag, length, fields, tailLen⟩ :=
    read_recordHead t h (.inl rfl) (mlogEncodeVarint id.space ++ mlogEncodeVarint id.pageNo ++ mlogEncodeVarint off)
      body rest (by simp [mlogEncodeVarint_ne_nil]) (by simp only [List.length_append, length_mlogEncodeVarint]; exact small)
  have spaceLen := mlogDecodeVarintLength_encode id.space
    (mlogEncodeVarint id.pageNo ++ mlogEncodeVarint off ++ body ++ rest)
  have space := mlogDecodeVarint_encode id.space spaceOk (mlogEncodeVarint id.pageNo ++ mlogEncodeVarint off ++ body ++ rest)
  have pageNoLen := mlogDecodeVarintLength_encode id.pageNo (mlogEncodeVarint off ++ body ++ rest)
  have pageNo := mlogDecodeVarint_encode id.pageNo pageNoOk (mlogEncodeVarint off ++ body ++ rest)
  have spaceSize := varintSize_le_five id.space
  have pageNoSize := varintSize_le_five id.pageNo
  rw [head] at fits ⊢
  simp only [List.append_assoc] at length fields spaceLen space pageNoLen pageNo ⊢
  simp only [List.length_cons, List.length_append, length_mlogEncodeVarint] at tailLen fits
  have spaceFits : ¬(varintSize id.space > 5 ∨ varintSize id.space ≥
      varintSize id.space + (varintSize id.pageNo + varintSize off) + body.length) := by
    have := varintSize_pos id.pageNo
    omega
  have pageNoFits : ¬(varintSize id.pageNo > 5 ∨ varintSize id.pageNo >
      varintSize id.space + (varintSize id.pageNo + varintSize off) + body.length - varintSize id.space) := by
    omega
  delta parseRecord
  simp only [List.cons_append, List.headD_cons, List.drop_one, List.tail_cons, length, drop_one_add_cons,
    fields, flag, typed, ht, List.length_append, length_mlogEncodeVarint, spaceLen, space,
    List.drop_left' (length_mlogEncodeVarint id.space), pageNoLen, pageNo, not_true_eq_false, ↓reduceIte,
    List.drop_left' (length_mlogEncodeVarint id.pageNo), Nat.ne_of_lt spaceOk, Nat.ne_of_lt pageNoOk,
    spaceFits, pageNoFits]
  rw [if_neg (not_not.mpr rfl)]
  simp only [Except.bind]
  rw [if_neg (by omega), show varintSize id.space + (varintSize id.pageNo + varintSize off) + body.length -
    varintSize id.space - varintSize id.pageNo = varintSize off + body.length by omega]
  cases parsePageWrite pageSize t 0 (mlogEncodeVarint off ++ (body ++ rest)) (varintSize off + body.length) with
  | error e => rfl
  | ok p =>
    obtain ⟨offset, lastOffset⟩ := p
    simp only [Except.map, List.length_cons, Except.ok.injEq, Prod.mk.injEq, true_and]
    omega

/-! ## Whole mini-transactions -/

theorem ofByte_of_le_one : ∀ b : UInt8, b ≤ 1 → MrecType.ofByte b = .freePage := by
  decide +kernel

/-- A record that `recv_sys_t::parse` takes does not end the mini-transaction:
bytes 0 and 1 have the type of FREE_PAGE. -/
theorem not_le_one_of_parseRecord {pageSize : Nat} {st : ParseState} {recs : List UInt8}
    {r : ParseState × Nat × Nat} (parsed : parseRecord pageSize st recs = .ok r) : ¬recs.headD 0 ≤ 1 := by
  intro low
  delta parseRecord at parsed
  simp only [ofByte_of_le_one _ low, reduceCtorEq, or_self, not_false_eq_true, ↓reduceIte] at parsed

/-- Nor does a record that `recv_sys_t::parse` reports as corrupted: only
a WRITE, MEMSET or MEMMOVE gets that far. -/
theorem not_le_one_of_parseRecord_corrupted {pageSize : Nat} {st : ParseState} {recs : List UInt8}
    (failed : parseRecord pageSize st recs = .error .recordCorrupted) : ¬recs.headD 0 ≤ 1 := by
  intro low
  delta parseRecord at failed
  simp only [ofByte_of_le_one _ low, reduceCtorEq, or_self, not_false_eq_true, ↓reduceIte,
    Except.error.injEq] at failed

/-- A record that `log_phys_t::apply` applies is not the byte 0 that ends
the records of a page. -/
theorem ne_zero_of_applyRecord {size fuel lastOffset : Nat} {frame : Nat → UInt8} {recs : List UInt8}
    {r : (Nat → UInt8) × Nat × Nat} (applied : applyRecord size fuel lastOffset frame recs = .ok r) :
    recs.headD 0 ≠ 0 := by
  intro zero
  delta applyRecord at applied
  simp only [zero, ofByte_of_le_one 0 (by decide), reduceCtorEq, or_self, ↓reduceIte] at applied

theorem parseLoop_record {pageSize rounds : Nat} {st st' : ParseState} {recs : List UInt8} {offset taken : Nat}
    (parsed : parseRecord pageSize st recs = .ok (st', offset, taken)) :
    parseLoop pageSize (rounds + 1) st recs = (parseLoop pageSize rounds st' (recs.drop taken)).map (offset :: ·) := by
  rw [parseLoop_succ, if_neg (not_le_one_of_parseRecord parsed), parsed]
  rfl

theorem parseLoop_error {pageSize rounds : Nat} {st : ParseState} {recs : List UInt8} {e : ParseError}
    (more : ¬recs.headD 0 ≤ 1) (failed : parseRecord pageSize st recs = .error e) :
    parseLoop pageSize (rounds + 1) st recs = .error e := by
  rw [parseLoop_succ, if_neg more, failed]
  rfl

theorem parseLoop_end {pageSize rounds : Nat} {st : ParseState} {recs : List UInt8} (stop : recs.headD 0 ≤ 1) :
    parseLoop pageSize (rounds + 1) st recs = .ok [] := by
  rw [parseLoop_succ, if_pos stop]

theorem applyLoop_record {size fuel rounds lastOffset lastOffset' taken : Nat} {frame frame' : Nat → UInt8}
    {recs : List UInt8} (applied : applyRecord size fuel lastOffset frame recs = .ok (frame', lastOffset', taken)) :
    applyLoop size fuel (rounds + 1) lastOffset frame recs =
      applyLoop size fuel rounds lastOffset' frame' (recs.drop taken) := by
  rw [applyLoop_succ, if_neg (ne_zero_of_applyRecord applied), applied]
  rfl

theorem applyLoop_error {size fuel rounds lastOffset : Nat} {frame : Nat → UInt8} {recs : List UInt8}
    {e : ApplyError} (more : recs.headD 0 ≠ 0) (failed : applyRecord size fuel lastOffset frame recs = .error e) :
    applyLoop size fuel (rounds + 1) lastOffset frame recs = .error e := by
  rw [applyLoop_succ, if_neg more, failed]
  rfl

theorem applyLoop_end {size fuel rounds lastOffset : Nat} {frame : Nat → UInt8} {recs : List UInt8}
    (stop : recs.headD 0 = 0) : applyLoop size fuel (rounds + 1) lastOffset frame recs = .ok (frame, lastOffset) := by
  rw [applyLoop_succ, if_pos stop]

end MariaDB.Innobase
