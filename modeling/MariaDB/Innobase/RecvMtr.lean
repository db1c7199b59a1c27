import MariaDB.Innobase.Recv

set_option autoImplicit false

/- What recovery makes of the records the methods of `mtr_t` log: for each
method, what `recv_sys_t::parse` and `log_phys_t::apply` do with its record,
and over whole mini-transactions, whether the offsets parse assigns and the
page apply rebuilds are those the writer used and produced. -/
namespace MariaDB.Innobase

open Memory

/-! ## The records the writers log -/

/-- `recv_sys_t::parse` on the MEMSET record of `mtr_t::memset` for a page
other than the last one: it takes the write to start at `ofs`, and moves
`last_offset` past the pattern bytes only. -/
theorem parseRecord_mtrMemsetLog_new_page {m : MtrLog} (logged : m.logged = true) {id : PageId}
    {ofs len pageSize : Nat} {str : List UInt8} (other : ¬(m.last = some id ∧ m.lastOffset ≤ ofs))
    (spaceOk : id.space < mlogDecodeError) (pageNoOk : id.pageNo < mlogDecodeError)
    (start : 8 ≤ ofs) (inPage : ofs < pageSize) (fits : ofs + len ≤ pageSize) (page : pageSize ≤ 2 ^ 16)
    (short : str.length ≤ len) (recordFits : (mtrMemsetLog m id ofs len str).1.length ≤ pageSize)
    (st : ParseState) (rest : List UInt8) :
    parseRecord pageSize st ((mtrMemsetLog m id ofs len str).1 ++ rest) =
      .ok (⟨ofs + str.length, true, id⟩, ofs, (mtrMemsetLog m id ofs len str).1.length) := by
  have lenSmall : len < min4Byte := by rw [min4Byte_eq]; omega
  have ofsSmall : ofs < min4Byte := by rw [min4Byte_eq]; omega
  have sizes := And.intro (And.intro (varintSize_le_five id.space) (varintSize_le_five id.pageNo))
    (And.intro (varintSize_le_three ofsSmall) (varintSize_le_three lenSmall))
  have bound := min4Byte_eq
  have body := @parsePageWrite_memset pageSize 0 ofs len str rest Nat.zero_ne_one ofsSmall lenSmall (by omega)
    (by omega) (by omega) short
  rw [mtrMemsetLog_eq logged id ofs lenSmall str, if_neg other] at recordFits ⊢
  dsimp only at recordFits ⊢
  rw [List.length_append] at recordFits
  rw [memsetType_eq, parseRecord_new_page .memset (by simp) memset_ne_reserved id spaceOk pageNoOk ofs _
    rest (by simp only [List.length_append, length_mlogEncodeVarint]; omega) pageSize st recordFits]
  simp only [List.append_assoc, Nat.zero_add] at body
  simp only [List.length_append, length_mlogEncodeVarint, List.append_assoc, body]
  rfl

/-- `recv_sys_t::parse` on the WRITE record of `mtr_t::memcpy` for the same
page as the record before: the write is taken to start at the parser's
`last_offset` plus the offset the writer took relative to its own. -/
theorem parseRecord_mtrMemcpyLow_same_page {m : MtrLog} (logged : m.logged = true) {id : PageId}
    {offset pageSize : Nat} {data : List UInt8} (same : m.last = some id) (after : m.lastOffset ≤ offset)
    (st : ParseState) (got : st.gotPageOp = true) (notFirst : st.lastOffset ≠ 1)
    (start : 8 ≤ st.lastOffset + (offset - m.lastOffset)) (nonempty : 0 < data.length)
    (fits : st.lastOffset + (offset - m.lastOffset) + data.length ≤ pageSize) (page : pageSize ≤ 2 ^ 16)
    (rest : List UInt8) :
    parseRecord pageSize st ((mtrMemcpyLow m id offset data).1 ++ rest) =
      .ok ({ st with lastOffset := st.lastOffset + (offset - m.lastOffset) + data.length },
        st.lastOffset + (offset - m.lastOffset), (mtrMemcpyLow m id offset data).1.length) := by
  have relSmall : offset - m.lastOffset < min4Byte := by rw [min4Byte_eq]; omega
  have relSize := varintSize_le_three relSmall
  have small : 1 + varintSize (offset - m.lastOffset) + data.length < min4Byte := by rw [min4Byte_eq]; omega
  have headLen := @length_recordHead_le writeType 0x80 (mlogEncodeVarint (offset - m.lastOffset)) data.length
    (by rw [length_mlogEncodeVarint]; exact small)
  rw [length_mlogEncodeVarint, writeType_eq] at headLen
  rw [mtrMemcpyLow_eq logged id offset data, if_pos ⟨same, after⟩]
  dsimp only
  rw [writeType_eq, parseRecord_same_page .write (by simp) write_ne_reserved _ data rest small pageSize st got (by omega),
    parsePageWrite_write rest notFirst relSmall nonempty start fits]
  simp only [Except.map, List.length_append]

/-- `log_phys_t::apply` on the WRITE record of `mtr_t::memcpy` for the same
page as the record before: the bytes land at its `last_offset` plus the
offset the writer took relative to its own. -/
theorem applyRecord_mtrMemcpyLow_same_page {m : MtrLog} (logged : m.logged = true) {id : PageId}
    {offset size fuel : Nat} {data : List UInt8} (same : m.last = some id) (after : m.lastOffset ≤ offset)
    (base : Nat) (notFirst : base ≠ 1) (start : 8 ≤ base + (offset - m.lastOffset)) (nonempty : 0 < data.length)
    (fits : base + (offset - m.lastOffset) + data.length ≤ size) (page : size ≤ 2 ^ 16)
    (frame : Nat → UInt8) (rest : List UInt8) :
    applyRecord size fuel base frame ((mtrMemcpyLow m id offset data).1 ++ rest) =
      .ok (copy frame (base + (offset - m.lastOffset)) (bytes data) data.length,
        (base + (offset - m.lastOffset) + data.length) % 2 ^ 16, (mtrMemcpyLow m id offset data).1.length) := by
  have relSmall : offset - m.lastOffset < min4Byte := by rw [min4Byte_eq]; omega
  have small : 1 + varintSize (offset - m.lastOffset) + data.length < min4Byte := by
    have := varintSize_le_three relSmall
    rw [min4Byte_eq]; omega
  rw [mtrMemcpyLow_eq logged id offset data, if_pos ⟨same, after⟩]
  dsimp only
  rw [writeType_eq, applyRecord_same_page .write (by simp) write_ne_reserved _ data rest small size fuel base frame,
    applyPageWrite_write rest frame notFirst relSmall nonempty start fits page]
  simp only [Except.map, List.length_append]

/-- `recv_sys_t::parse` on the WRITE record of `mtr_t::memcpy` for a page
other than the last one: the write starts at `offset`, and so does
`last_offset`. -/
theorem parseRecord_mtrMemcpyLow_new_page {m : MtrLog} (logged : m.logged = true) {id : PageId}
    {offset pageSize : Nat} {data : List UInt8} (other : ¬(m.last = some id ∧ m.lastOffset ≤ offset))
    (spaceOk : id.space < mlogDecodeError) (pageNoOk : id.pageNo < mlogDecodeError)
    (start : 8 ≤ offset) (nonempty : 0 < data.length) (fits : offset + data.length ≤ pageSize)
    (page : pageSize ≤ 2 ^ 16) (recordFits : (mtrMemcpyLow m id offset data).1.length ≤ pageSize)
    (st : ParseState) (rest : List UInt8) :
    parseRecord pageSize st ((mtrMemcpyLow m id offset data).1 ++ rest) =
      .ok (⟨offset + data.length, true, id⟩, offset, (mtrMemcpyLow m id offset data).1.length) := by
  have offSmall : offset < min4Byte := by rw [min4Byte_eq]; omega
  have sizes := And.intro (And.intro (varintSize_le_five id.space) (varintSize_le_five id.pageNo))
    (varintSize_le_three offSmall)
  have bound := min4Byte_eq
  rw [mtrMemcpyLow_eq logged id offset data, if_neg other] at recordFits ⊢
  dsimp only at recordFits ⊢
  rw [List.length_append] at recordFits
  rw [writeType_eq, parseRecord_new_page .write (by simp) write_ne_reserved id spaceOk pageNoOk offset data rest (by omega)
    pageSize st recordFits, @parsePageWrite_write pageSize 0 offset data rest Nat.zero_ne_one offSmall nonempty
    (by omega) (by omega)]
  simp only [Except.map, List.length_append, Nat.zero_add]

/-- `log_phys_t::apply` on the WRITE record of `mtr_t::memcpy` for a page
other than the last one: the bytes land at `offset`. -/
theorem applyRecord_mtrMemcpyLow_new_page {m : MtrLog} (logged : m.logged = true) {id : PageId}
    {offset size fuel : Nat} {data : List UInt8} (other : ¬(m.last = some id ∧ m.lastOffset ≤ offset))
    (start : 8 ≤ offset) (nonempty : 0 < data.length) (fits : offset + data.length ≤ size) (page : size ≤ 2 ^ 16)
    (lastOffset : Nat) (frame : Nat → UInt8) (rest : List UInt8) :
    applyRecord size fuel lastOffset frame ((mtrMemcpyLow m id offset data).1 ++ rest) =
      .ok (copy frame offset (bytes data) data.length, (offset + data.length) % 2 ^ 16,
        (mtrMemcpyLow m id offset data).1.length) := by
  have offSmall : offset < min4Byte := by rw [min4Byte_eq]; omega
  have sizes := And.intro (And.intro (varintSize_le_five id.space) (varintSize_le_five id.pageNo))
    (varintSize_le_three offSmall)
  have bound := min4Byte_eq
  rw [mtrMemcpyLow_eq logged id offset data, if_neg other]
  dsimp only
  rw [writeType_eq, applyRecord_new_page .write (by simp) write_ne_reserved id offset data rest (by omega) size fuel lastOffset
    frame, @applyPageWrite_write size fuel 0 offset data rest frame Nat.zero_ne_one offSmall nonempty (by omega)
    (by omega) page]
  simp only [Except.map, List.length_append, Nat.zero_add]

/-- `log_phys_t::apply` on the MEMSET record of `mtr_t::memset` for a page
other than the last one: the MEMSET case on its body, from `last_offset` 0. -/
theorem applyRecord_mtrMemsetLog_eq {m : MtrLog} (logged : m.logged = true) {id : PageId}
    {ofs len size fuel : Nat} {str : List UInt8} (other : ¬(m.last = some id ∧ m.lastOffset ≤ ofs))
    (inPage : ofs + len ≤ 2 ^ 16) (short : str.length ≤ len) (lastOffset : Nat) (frame : Nat → UInt8)
    (rest : List UInt8) :
    applyRecord size fuel lastOffset frame ((mtrMemsetLog m id ofs len str).1 ++ rest) =
      (applyPageWrite size fuel .memset 0 (mlogEncodeVarint ofs ++ mlogEncodeVarint len ++ str ++ rest)
        (varintSize ofs + (varintSize len + str.length)) frame).map
          fun p => (p.1, p.2, (mtrMemsetLog m id ofs len str).1.length) := by
  have lenSmall : len < min4Byte := by rw [min4Byte_eq]; omega
  have ofsSmall : ofs < min4Byte := by rw [min4Byte_eq]; omega
  have sizes := And.intro (And.intro (varintSize_le_five id.space) (varintSize_le_five id.pageNo))
    (And.intro (varintSize_le_three ofsSmall) (varintSize_le_three lenSmall))
  have bound := min4Byte_eq
  rw [mtrMemsetLog_eq logged id ofs lenSmall str, if_neg other]
  dsimp only
  rw [memsetType_eq, applyRecord_new_page .memset (by simp) memset_ne_reserved id ofs _ rest
    (by simp only [List.length_append, length_mlogEncodeVarint]; omega) size fuel lastOffset frame]
  simp only [List.length_append, length_mlogEncodeVarint, List.append_assoc]

/-- `log_phys_t::apply` on the MEMSET record of `mtr_t::memset` for a page
other than the last one: the `len` bytes from `ofs` hold the pattern
repeated, and when the pattern's length divides `len` nothing else changes. -/
theorem applyRecord_mtrMemsetLog_new_page {m : MtrLog} (logged : m.logged = true) {id : PageId}
    {ofs len size fuel : Nat} {str : List UInt8} (other : ¬(m.last = some id ∧ m.lastOffset ≤ ofs))
    (start : 8 ≤ ofs) (inPage : ofs < size) (fits : ofs + len ≤ size) (page : size ≤ 2 ^ 16)
    (pattern : 0 < str.length) (short : str.length ≤ len) (enough : len < fuel) (lastOffset : Nat)
    (frame : Nat → UInt8) (rest : List UInt8) :
    ∃ frame', applyRecord size fuel lastOffset frame ((mtrMemsetLog m id ofs len str).1 ++ rest) =
        .ok (frame', (ofs + len) % 2 ^ 16, (mtrMemsetLog m id ofs len str).1.length) ∧
      (∀ a, ofs ≤ a → a < ofs + len → frame' a = bytes str ((a - ofs) % str.length)) ∧
      (str.length ∣ len → frame' = repeatPattern frame ofs len (bytes str) str.length) := by
  have lenSmall : len < min4Byte := by rw [min4Byte_eq]; omega
  have ofsSmall : ofs < min4Byte := by rw [min4Byte_eq]; omega
  obtain ⟨frame', body, filled, exact⟩ := @applyPageWrite_memset_fill size fuel 0 ofs len str rest frame
    Nat.zero_ne_one ofsSmall lenSmall (by omega) (by omega) (by omega) page pattern enough
  simp only [Nat.zero_add] at body filled exact
  refine ⟨frame', ?_, filled, exact⟩
  rw [applyRecord_mtrMemsetLog_eq logged other (by omega) short lastOffset frame rest, body]
  rfl

/-- `log_phys_t::apply` on a MEMSET record of a positive length and no
pattern bytes: the fill loop does not end, whatever the fuel. -/
theorem applyRecord_mtrMemsetLog_empty {m : MtrLog} (logged : m.logged = true) {id : PageId}
    {ofs len size : Nat} (other : ¬(m.last = some id ∧ m.lastOffset ≤ ofs))
    (start : 8 ≤ ofs) (inPage : ofs < size) (fits : ofs + len ≤ size) (page : size ≤ 2 ^ 16) (pos : 0 < len)
    (fuel lastOffset : Nat) (frame : Nat → UInt8) (rest : List UInt8) :
    applyRecord size fuel lastOffset frame ((mtrMemsetLog m id ofs len []).1 ++ rest) = .error .outOfFuel := by
  have lenSmall : len < min4Byte := by rw [min4Byte_eq]; omega
  have ofsSmall : ofs < min4Byte := by rw [min4Byte_eq]; omega
  have body := @applyPageWrite_memset_empty size 0 ofs len rest frame Nat.zero_ne_one ofsSmall lenSmall
    (by omega) (by omega) (by omega) page pos fuel
  simp only [List.append_nil] at body
  rw [applyRecord_mtrMemsetLog_eq logged other (by omega) (Nat.zero_le _) lastOffset frame rest, List.append_nil, body]
  rfl

/-- `log_phys_t::apply` on a MEMSET record whose pattern of two or more bytes
does not divide its length: it writes a pattern byte past the `len` bytes,
and then copies `2^64 - (s - len)` bytes from `ofs + s`. -/
theorem applyRecord_mtrMemsetLog_overrun {m : MtrLog} (logged : m.logged = true) {id : PageId}
    {ofs len size fuel : Nat} {str : List UInt8} (other : ¬(m.last = some id ∧ m.lastOffset ≤ ofs))
    (start : 8 ≤ ofs) (inPage : ofs < size) (fits : ofs + len ≤ size) (page : size ≤ 2 ^ 16)
    (two : 2 ≤ str.length) (short : str.length ≤ len) (uneven : ¬str.length ∣ len) (enough : len < fuel)
    (lastOffset : Nat) (frame : Nat → UInt8) (rest : List UInt8) :
    ∃ frame' s, applyRecord size fuel lastOffset frame ((mtrMemsetLog m id ofs len str).1 ++ rest) =
        .ok (frame', (ofs + len) % 2 ^ 16, (mtrMemsetLog m id ofs len str).1.length) ∧
      len < s ∧ frame' (ofs + len) = bytes str (len % str.length) ∧
      ∀ a, ofs + s ≤ a → a < ofs + s + (2 ^ 64 - (s - len)) → frame' a = bytes (str ++ rest) (a - (ofs + s)) := by
  have lenSmall : len < min4Byte := by rw [min4Byte_eq]; omega
  have ofsSmall : ofs < min4Byte := by rw [min4Byte_eq]; omega
  obtain ⟨frame', s, body, past, -, written, copied⟩ := @applyPageWrite_memset_overrun size fuel 0 ofs len str rest
    frame Nat.zero_ne_one ofsSmall lenSmall (by omega) (by omega) (by omega) page two short uneven enough
  simp only [Nat.zero_add] at body written copied
  refine ⟨frame', s, ?_, past, written, copied⟩
  rw [applyRecord_mtrMemsetLog_eq logged other (by omega) short lastOffset frame rest, body]
  rfl

theorem parseLoop_lags_after_memset {pageSize : Nat} {m : MtrLog} {id : PageId} {ofs len ofs2 : Nat}
    {str data : List UInt8} (logged : m.logged = true) (other : m.last ≠ some id)
    (spaceOk : id.space < mlogDecodeError) (pageNoOk : id.pageNo < mlogDecodeError)
    (pattern : 0 < str.length) (short : str.length < len) (start : 8 ≤ ofs) (after : ofs + len ≤ ofs2)
    (nonempty : 0 < data.length) (fits : ofs2 + data.length ≤ pageSize) (page : pageSize ≤ 2 ^ 16)
    (recordFits : (mtrMemsetLog m id ofs len str).1.length ≤ pageSize) (st : ParseState) :
    parseLoop pageSize 3 st ((mtrMemsetLog m id ofs len str).1 ++
        (mtrMemcpyLow (mtrMemsetLog m id ofs len str).2 id ofs2 data).1 ++ [0]) =
      .ok [ofs, ofs2 - (len - str.length)] ∧
    ∀ fuel lastOffset frame, len < fuel → ∃ frame',
      applyLoop pageSize fuel 3 lastOffset frame ((mtrMemsetLog m id ofs len str).1 ++
        (mtrMemcpyLow (mtrMemsetLog m id ofs len str).2 id ofs2 data).1 ++ [0]) =
        .ok (copy frame' ofs2 (bytes data) data.length, (ofs2 + data.length) % 2 ^ 16) := by
  have lenSmall : len < min4Byte := by rw [min4Byte_eq]; omega
  have newPage : ¬(m.last = some id ∧ m.lastOffset ≤ ofs) := fun same => other same.1
  -- the writer's state after the MEMSET: the page, and `m_last_offset` past the `len` bytes
  have written : (mtrMemsetLog m id ofs len str).2 = { m with last := some id, lastOffset := ofs + len } := by
    rw [mtrMemsetLog_eq logged id ofs lenSmall str, if_neg newPage, Nat.mod_eq_of_lt (by omega)]
  rw [written, List.append_assoc]
  constructor
  · -- parse: `last_offset` is `ofs + r` after the MEMSET, so the WRITE lands `len - r` bytes early
    have first := parseRecord_mtrMemsetLog_new_page logged newPage spaceOk pageNoOk start (by omega) (by omega) page
      short.le recordFits st ((mtrMemcpyLow { m with last := some id, lastOffset := ofs + len } id ofs2 data).1 ++ [0])
    have second := parseRecord_mtrMemcpyLow_same_page (m := { m with last := some id, lastOffset := ofs + len })
      logged rfl after ⟨ofs + str.length, true, id⟩ rfl (by simp only; omega) (by simp only; omega) nonempty
      (by simp only; omega) page [0]
    rw [parseLoop_record first, List.drop_left' rfl, parseLoop_record second, List.drop_left' rfl,
      parseLoop_end (by decide)]
    simp only [Except.map]
    rw [show ofs + str.length + (ofs2 - (ofs + len)) = ofs2 - (len - str.length) by omega]
  · -- apply: `last_offset` is `ofs + len` after the MEMSET, as the writer's
    intro fuel lastOffset frame enough
    obtain ⟨frame', first, -, -⟩ := applyRecord_mtrMemsetLog_new_page logged newPage start (by omega) (by omega)
      page pattern short.le enough lastOffset frame
      ((mtrMemcpyLow { m with last := some id, lastOffset := ofs + len } id ofs2 data).1 ++ [0])
    rw [Nat.mod_eq_of_lt (by omega)] at first
    have second := @applyRecord_mtrMemcpyLow_same_page { m with last := some id, lastOffset := ofs + len } logged id
      ofs2 pageSize fuel data rfl after (ofs + len) (by omega) (by simp only; omega) nonempty (by simp only; omega)
      page frame' [0]
    refine ⟨frame', ?_⟩
    rw [applyLoop_record first, List.drop_left' rfl, applyLoop_record second, List.drop_left' rfl,
      applyLoop_end rfl]
    simp only [Nat.add_sub_cancel' after]

theorem parseLoop_lags_after_memset_four_bytes :
    parseLoop 16384 3 ⟨0, false, ⟨0, 0⟩⟩ ((mtrMemsetLog ⟨true, none, 0⟩ ⟨0, 3⟩ 104 4 [0xff]).1 ++
        (mtrMemcpyLow (mtrMemsetLog ⟨true, none, 0⟩ ⟨0, 3⟩ 104 4 [0xff]).2 ⟨0, 3⟩ 110 [1, 2]).1 ++ [0]) =
      .ok [104, 107] ∧
    ∀ fuel lastOffset frame, 4 < fuel → ∃ frame',
      applyLoop 16384 fuel 3 lastOffset frame ((mtrMemsetLog ⟨true, none, 0⟩ ⟨0, 3⟩ 104 4 [0xff]).1 ++
        (mtrMemcpyLow (mtrMemsetLog ⟨true, none, 0⟩ ⟨0, 3⟩ 104 4 [0xff]).2 ⟨0, 3⟩ 110 [1, 2]).1 ++ [0]) =
        .ok (copy frame' 110 (bytes [1, 2]) 2, 112) :=
  parseLoop_lags_after_memset rfl (by decide) (by decide) (by decide) (by decide) (by decide) (by decide)
    (by decide) (by decide) (by decide) (by decide) (by decide) _

theorem parse_accepts_memset_apply_overruns {pageSize : Nat} {m : MtrLog} {id : PageId} {ofs len : Nat}
    (logged : m.logged = true) (other : m.last ≠ some id) (spaceOk : id.space < mlogDecodeError)
    (pageNoOk : id.pageNo < mlogDecodeError) (start : 8 ≤ ofs) (pos : 0 < len) (fits : ofs + len ≤ pageSize)
    (page : pageSize ≤ 2 ^ 16) (st : ParseState) :
    ((mtrMemsetLog m id ofs len []).1.length ≤ pageSize →
      parseLoop pageSize 2 st ((mtrMemsetLog m id ofs len []).1 ++ [0]) = .ok [ofs] ∧
      ∀ fuel rounds lastOffset frame,
        applyLoop pageSize fuel (rounds + 1) lastOffset frame ((mtrMemsetLog m id ofs len []).1 ++ [0]) =
          .error .outOfFuel) ∧
    ∀ str : List UInt8, 2 ≤ str.length → str.length ≤ len → ¬str.length ∣ len →
      (mtrMemsetLog m id ofs len str).1.length ≤ pageSize →
      parseLoop pageSize 2 st ((mtrMemsetLog m id ofs len str).1 ++ [0]) = .ok [ofs] ∧
      ∀ fuel lastOffset frame, len < fuel → ∃ frame' s,
        applyLoop pageSize fuel 2 lastOffset frame ((mtrMemsetLog m id ofs len str).1 ++ [0]) =
          .ok (frame', (ofs + len) % 2 ^ 16) ∧ len < s ∧ frame' (ofs + len) = bytes str (len % str.length) ∧
        ∀ a, ofs + s ≤ a → a < ofs + s + (2 ^ 64 - (s - len)) → frame' a = bytes (str ++ [0]) (a - (ofs + s)) := by
  have newPage : ¬(m.last = some id ∧ m.lastOffset ≤ ofs) := fun same => other same.1
  -- parse takes every MEMSET record with at most `len` pattern bytes
  have parsed : ∀ str : List UInt8, str.length ≤ len → (mtrMemsetLog m id ofs len str).1.length ≤ pageSize →
      parseRecord pageSize st ((mtrMemsetLog m id ofs len str).1 ++ [0]) =
        .ok (⟨ofs + str.length, true, id⟩, ofs, (mtrMemsetLog m id ofs len str).1.length) :=
    fun str short recordFits =>
      parseRecord_mtrMemsetLog_new_page logged newPage spaceOk pageNoOk start (by omega) fits page short recordFits st [0]
  have accepted : ∀ str : List UInt8, str.length ≤ len → (mtrMemsetLog m id ofs len str).1.length ≤ pageSize →
      parseLoop pageSize 2 st ((mtrMemsetLog m id ofs len str).1 ++ [0]) = .ok [ofs] := by
    intro str short recordFits
    rw [parseLoop_record (parsed str short recordFits), List.drop_left' rfl, parseLoop_end (by decide)]
    rfl
  refine ⟨fun recordFits => ⟨accepted [] (Nat.zero_le _) recordFits, fun fuel rounds lastOffset frame => ?_⟩,
    fun str two short uneven recordFits => ⟨accepted str short recordFits, fun fuel lastOffset frame enough => ?_⟩⟩
  · -- no pattern bytes: `s+= rlen` adds 0
    have first := not_le_one_of_parseRecord (parsed [] (Nat.zero_le _) recordFits)
    exact applyLoop_error (fun zero => first (by rw [zero]; decide))
      (applyRecord_mtrMemsetLog_empty logged newPage start (by omega) fits page pos fuel lastOffset frame [0])
  · -- a pattern that does not divide `len`: the loop passes the end of the `len` bytes
    obtain ⟨frame', s, applied, past, written, copied⟩ := applyRecord_mtrMemsetLog_overrun logged newPage start
      (by omega) fits page two short uneven enough lastOffset frame [0]
    refine ⟨frame', s, ?_, past, written, copied⟩
    rw [applyLoop_record applied, List.drop_left' rfl, applyLoop_end rfl]

theorem parse_accepts_memset_apply_overruns_five :
    (parseLoop 16384 2 ⟨0, false, ⟨0, 0⟩⟩ ((mtrMemsetLog ⟨true, none, 0⟩ ⟨0, 3⟩ 100 5 []).1 ++ [0]) = .ok [100] ∧
      ∀ fuel rounds lastOffset frame, applyLoop 16384 fuel (rounds + 1) lastOffset frame
        ((mtrMemsetLog ⟨true, none, 0⟩ ⟨0, 3⟩ 100 5 []).1 ++ [0]) = .error .outOfFuel) ∧
    parseLoop 16384 2 ⟨0, false, ⟨0, 0⟩⟩ ((mtrMemsetLog ⟨true, none, 0⟩ ⟨0, 3⟩ 100 5 [0x41, 0x42]).1 ++ [0]) =
        .ok [100] ∧
      ∀ fuel lastOffset frame, 5 < fuel → ∃ frame' s,
        applyLoop 16384 fuel 2 lastOffset frame ((mtrMemsetLog ⟨true, none, 0⟩ ⟨0, 3⟩ 100 5 [0x41, 0x42]).1 ++ [0]) =
          .ok (frame', 105) ∧ 5 < s ∧ frame' 105 = 0x42 ∧
        ∀ a, 100 + s ≤ a → a < 100 + s + (2 ^ 64 - (s - 5)) → frame' a = bytes [0x41, 0x42, 0] (a - (100 + s)) := by
  have hazard := @parse_accepts_memset_apply_overruns 16384 ⟨true, none, 0⟩ ⟨0, 3⟩ 100 5 rfl (by decide) (by decide)
    (by decide) (by decide) (by decide) (by decide) (by decide) ⟨0, false, ⟨0, 0⟩⟩
  exact ⟨hazard.1 (by decide), hazard.2 [0x41, 0x42] (by decide) (by decide) (by decide) (by decide)⟩

theorem mtrMemsetPtr_writes_one_pattern {m : MtrLog} (logged : m.logged = true) {id : PageId}
    (other : m.last ≠ some id) {ofs len size : Nat} {str : List UInt8} (pattern : 0 < str.length)
    (short : str.length < len) (start : 8 ≤ ofs) (fits : ofs + len ≤ size) (page : size ≤ 2 ^ 16)
    (frame : Nat → UInt8) :
    (∃ frame1, mtrMemsetPtr m frame id ofs len str = some (frame1, mtrMemsetLog m id ofs len str) ∧
      (∀ a, ofs ≤ a → a < ofs + str.length → frame1 a = bytes str (a - ofs)) ∧
      ∀ a, ofs + str.length ≤ a → frame1 a = frame a) ∧
    ∀ fuel lastOffset rest, len < fuel → ∃ frame',
      applyRecord size fuel lastOffset frame ((mtrMemsetLog m id ofs len str).1 ++ rest) =
        .ok (frame', (ofs + len) % 2 ^ 16, (mtrMemsetLog m id ofs len str).1.length) ∧
      ∀ a, ofs ≤ a → a < ofs + len → frame' a = bytes str ((a - ofs) % str.length) := by
  refine ⟨⟨copy frame ofs (bytes str) str.length, ?_, fun a lower upper => copy_inside _ _ lower upper,
    fun a above => copy_outside _ _ (.inr above)⟩, fun fuel lastOffset rest enough => ?_⟩
  · -- the loop advances by `len`: one pattern, then `memcpy` of `len - len` bytes
    rw [mtrMemsetPtr, mtrMemsetFrame_eq frame ofs str (by omega) (by omega)]
    rfl
  · obtain ⟨frame', applied, filled, -⟩ := applyRecord_mtrMemsetLog_new_page logged (fun same => other same.1) start
      (by omega) fits page pattern short.le enough lastOffset frame rest
    exact ⟨frame', applied, filled⟩

theorem mtrMemsetPtr_writes_one_pattern_four :
    (∃ frame1, mtrMemsetPtr ⟨true, none, 0⟩ (fun _ => 0) ⟨0, 3⟩ 100 4 [0x41, 0x42] =
        some (frame1, mtrMemsetLog ⟨true, none, 0⟩ ⟨0, 3⟩ 100 4 [0x41, 0x42]) ∧
      (∀ a, 100 ≤ a → a < 102 → frame1 a = bytes [0x41, 0x42] (a - 100)) ∧ ∀ a, 102 ≤ a → frame1 a = 0) ∧
    ∀ fuel lastOffset rest, 4 < fuel → ∃ frame',
      applyRecord 16384 fuel lastOffset (fun _ => 0) ((mtrMemsetLog ⟨true, none, 0⟩ ⟨0, 3⟩ 100 4 [0x41, 0x42]).1 ++ rest) =
        .ok (frame', 104, (mtrMemsetLog ⟨true, none, 0⟩ ⟨0, 3⟩ 100 4 [0x41, 0x42]).1.length) ∧
      ∀ a, 100 ≤ a → a < 104 → frame' a = bytes [0x41, 0x42] ((a - 100) % 2) :=
  mtrMemsetPtr_writes_one_pattern rfl (by decide) (by decide) (by decide) (by decide) (by decide) (by decide) _

/-! ## Mini-transactions of writes -/

/-- The records of a run of `mtr_t::memcpy_low` calls on page `id`, each
`(offset, data)`, in order, and the mini-transaction after them. -/
def memcpyLowRun (id : PageId) : MtrLog → List (Nat × List UInt8) → List UInt8 × MtrLog
  | m, [] => ([], m)
  | m, (offset, data) :: writes =>
    ((mtrMemcpyLow m id offset data).1 ++ (memcpyLowRun id (mtrMemcpyLow m id offset data).2 writes).1,
      (memcpyLowRun id (mtrMemcpyLow m id offset data).2 writes).2)

theorem memcpyLowRun_cons (id : PageId) (m : MtrLog) (offset : Nat) (data : List UInt8)
    (writes : List (Nat × List UInt8)) :
    memcpyLowRun id m ((offset, data) :: writes) =
      ((mtrMemcpyLow m id offset data).1 ++ (memcpyLowRun id (mtrMemcpyLow m id offset data).2 writes).1,
        (memcpyLowRun id (mtrMemcpyLow m id offset data).2 writes).2) := rfl

/-- A run of `mtr_t::memcpy<w>` calls on page `id`, each `(offset, str)`, in
order: the frame after them, their records, and the mini-transaction. -/
def memcpyRun (w : WriteType) (id : PageId) :
    MtrLog → (Nat → UInt8) → List (Nat × List UInt8) → (Nat → UInt8) × List UInt8 × MtrLog
  | m, frame, [] => (frame, [], m)
  | m, frame, (offset, str) :: writes =>
    ((memcpyRun w id (mtrMemcpy w m frame id offset str).2.2 (mtrMemcpy w m frame id offset str).1 writes).1,
      (mtrMemcpy w m frame id offset str).2.1 ++
        (memcpyRun w id (mtrMemcpy w m frame id offset str).2.2 (mtrMemcpy w m frame id offset str).1 writes).2.1,
      (memcpyRun w id (mtrMemcpy w m frame id offset str).2.2 (mtrMemcpy w m frame id offset str).1 writes).2.2)

theorem memcpyRun_cons (w : WriteType) (id : PageId) (m : MtrLog) (frame : Nat → UInt8) (offset : Nat)
    (str : List UInt8) (writes : List (Nat × List UInt8)) :
    memcpyRun w id m frame ((offset, str) :: writes) =
      ((memcpyRun w id (mtrMemcpy w m frame id offset str).2.2 (mtrMemcpy w m frame id offset str).1 writes).1,
        (mtrMemcpy w m frame id offset str).2.1 ++
          (memcpyRun w id (mtrMemcpy w m frame id offset str).2.2 (mtrMemcpy w m frame id offset str).1 writes).2.1,
        (memcpyRun w id (mtrMemcpy w m frame id offset str).2.2 (mtrMemcpy w m frame id offset str).1 writes).2.2) :=
  rfl

/-- A write that recovery replays: past the first eight bytes of a page of
`size` bytes, inside it, and not empty. -/
structure WriteFits (size : Nat) (write : Nat × List UInt8) : Prop where
  start : 8 ≤ write.1
  nonempty : 0 < write.2.length
  inPage : write.1 + write.2.length ≤ size

instance (size : Nat) (write : Nat × List UInt8) : Decidable (WriteFits size write) :=
  decidable_of_iff (8 ≤ write.1 ∧ 0 < write.2.length ∧ write.1 + write.2.length ≤ size)
    ⟨fun ⟨start, nonempty, inPage⟩ => ⟨start, nonempty, inPage⟩,
      fun ⟨start, nonempty, inPage⟩ => ⟨start, nonempty, inPage⟩⟩

/-- What is left of a write past bytes it skips still fits. -/
theorem WriteFits.drop {size offset : Nat} {str : List UInt8} (fits : WriteFits size (offset, str)) {skip : Nat}
    (short : skip < str.length) : WriteFits size (offset + skip, str.drop skip) :=
  ⟨by have := fits.start; dsimp only at this ⊢; omega, by rw [List.length_drop]; omega,
    by have := fits.inPage; dsimp only at this ⊢; rw [List.length_drop]; omega⟩

/-- Apply's `last_offset` for the next record of the writer: the writer's
`m_last_offset` while its last record is for the page, and that is then not
the 1 that forbids a `same_page` record. -/
structure ApplyTracks (id : PageId) (m : MtrLog) (lastOffset : Nat) : Prop where
  logged : m.logged = true
  same : m.last = some id → lastOffset = m.lastOffset ∧ m.lastOffset ≠ 1

/-- A write ending inside a page of at most 2^16 bytes leaves `m_last_offset`
other than 1. -/
theorem end_ne_one {offset len : Nat} (start : 8 ≤ offset) (inPage : offset + len ≤ 2 ^ 16) :
    (offset + len) % 2 ^ 16 ≠ 1 := by
  have block : (2 : Nat) ^ 16 = 65536 := rfl
  rw [block] at inPage ⊢
  omega

/-- One record of the writer: apply writes its bytes at the writer's offset
and keeps tracking the writer. -/
theorem applyRecord_mtrMemcpyLow {id : PageId} {m : MtrLog} {lastOffset : Nat} (tracks : ApplyTracks id m lastOffset)
    {size fuel offset : Nat} {data : List UInt8} (fits : WriteFits size (offset, data)) (page : size ≤ 2 ^ 16)
    (frame : Nat → UInt8) (rest : List UInt8) :
    applyRecord size fuel lastOffset frame ((mtrMemcpyLow m id offset data).1 ++ rest) =
      .ok (copy frame offset (bytes data) data.length, (offset + data.length) % 2 ^ 16,
        (mtrMemcpyLow m id offset data).1.length) ∧
    ApplyTracks id (mtrMemcpyLow m id offset data).2 ((offset + data.length) % 2 ^ 16) := by
  obtain ⟨start, nonempty, inPage⟩ := fits
  dsimp only at start nonempty inPage
  refine ⟨?_, ⟨by rw [mtrMemcpyLow_snd tracks.logged], fun _ => ?_⟩⟩
  · by_cases same : m.last = some id ∧ m.lastOffset ≤ offset
    · -- a `same_page` record: apply's `last_offset` is the writer's
      obtain ⟨rfl, notFirst⟩ := tracks.same same.1
      rw [applyRecord_mtrMemcpyLow_same_page tracks.logged same.1 same.2 m.lastOffset notFirst (by omega) nonempty
        (by omega) page frame rest, Nat.add_sub_cancel' same.2]
    · exact applyRecord_mtrMemcpyLow_new_page tracks.logged same start nonempty inPage page lastOffset frame rest
  · rw [mtrMemcpyLow_snd tracks.logged]
    exact ⟨rfl, end_ne_one start (by omega)⟩

/-- Apply replays the records of a run of `memcpy_low` calls on the frame:
the page becomes the frame of the writes done in order. -/
theorem applyLoop_memcpyLowRun (id : PageId) {size fuel : Nat} (page : size ≤ 2 ^ 16)
    (writes : List (Nat × List UInt8)) (fits : ∀ write ∈ writes, WriteFits size write) :
    ∀ (m : MtrLog) (lastOffset : Nat) (frame : Nat → UInt8) (rounds : Nat), writes.length < rounds →
      ApplyTracks id m lastOffset →
      ∃ lastOffset', applyLoop size fuel rounds lastOffset frame ((memcpyLowRun id m writes).1 ++ [0]) =
        .ok (copyAll frame writes, lastOffset') := by
  induction writes with
  | nil =>
    intro m lastOffset frame rounds more _
    obtain ⟨rounds, rfl⟩ := Nat.exists_eq_add_of_lt more
    exact ⟨lastOffset, applyLoop_end rfl⟩
  | cons write writes ih =>
    intro m lastOffset frame rounds more tracks
    obtain ⟨offset, data⟩ := write
    obtain ⟨rounds, rfl⟩ := Nat.exists_eq_add_of_lt (Nat.zero_lt_of_lt more)
    -- the record of the first write, then the run of the others from where it leaves apply
    obtain ⟨applied, tracks'⟩ := applyRecord_mtrMemcpyLow tracks (fits _ (List.mem_cons_self ..)) page frame
      ((memcpyLowRun id (mtrMemcpyLow m id offset data).2 writes).1 ++ [0])
    obtain ⟨lastOffset', run⟩ := ih (fun write mem => fits write (List.mem_cons_of_mem _ mem)) _ _
      (copy frame offset (bytes data) data.length) rounds (by simp only [List.length_cons] at more; omega) tracks'
    refine ⟨lastOffset', ?_⟩
    rw [memcpyLowRun_cons, List.append_assoc, Nat.zero_add, applyLoop_record applied, List.drop_left' rfl, run,
      copyAll_cons]

/-- A write whose record parse takes whole: it fits the page with room for
the longest head of a record, and ends before the 2^16 where
`m_last_offset` wraps and parse's `last_offset` does not. -/
structure RecordFits (pageSize : Nat) (write : Nat × List UInt8) : Prop where
  fits : WriteFits pageSize write
  head : 17 + write.2.length ≤ pageSize
  noWrap : write.1 + write.2.length < 2 ^ 16

instance (pageSize : Nat) (write : Nat × List UInt8) : Decidable (RecordFits pageSize write) :=
  decidable_of_iff (WriteFits pageSize write ∧ 17 + write.2.length ≤ pageSize ∧ write.1 + write.2.length < 2 ^ 16)
    ⟨fun ⟨fits, head, noWrap⟩ => ⟨fits, head, noWrap⟩, fun ⟨fits, head, noWrap⟩ => ⟨fits, head, noWrap⟩⟩

/-- The variables of parse for the next record of the writer: while the
writer's last record is for the page, parse has seen a page record and its
`last_offset` is the writer's `m_last_offset`, which is not 1. -/
structure ParseTracks (id : PageId) (m : MtrLog) (st : ParseState) : Prop where
  logged : m.logged = true
  same : m.last = some id → st.gotPageOp = true ∧ st.lastOffset = m.lastOffset ∧ m.lastOffset ≠ 1

/-- A WRITE record takes at most 17 bytes more than its data: the first
byte, three of length, ten of page identifier and three of offset. -/
theorem length_mtrMemcpyLow_le {m : MtrLog} (logged : m.logged = true) (id : PageId) {offset : Nat}
    {data : List UInt8} (small : offset + data.length ≤ 2 ^ 16) :
    (mtrMemcpyLow m id offset data).1.length ≤ 17 + data.length := by
  have offSmall : offset < min4Byte := by rw [min4Byte_eq]; omega
  have sizes := And.intro (And.intro (varintSize_le_five id.space) (varintSize_le_five id.pageNo))
    (And.intro (varintSize_le_three offSmall) (varintSize_le_three (Nat.lt_of_le_of_lt (Nat.sub_le offset m.lastOffset) offSmall)))
  have bound := min4Byte_eq
  rw [mtrMemcpyLow_eq logged id offset data]
  split_ifs
  · have head := @length_recordHead_le writeType 0x80 (mlogEncodeVarint (offset - m.lastOffset)) data.length
      (by rw [length_mlogEncodeVarint]; omega)
    rw [List.length_append]
    rw [length_mlogEncodeVarint] at head
    omega
  · have head := @length_recordHead_le writeType 0
      (mlogEncodeVarint id.space ++ mlogEncodeVarint id.pageNo ++ mlogEncodeVarint offset) data.length
      (by simp only [List.length_append, length_mlogEncodeVarint]; omega)
    simp only [List.length_append, length_mlogEncodeVarint] at head ⊢
    omega

/-- One record of the writer: parse takes the write to start at the
writer's offset, and keeps tracking the writer. -/
theorem parseRecord_mtrMemcpyLow {id : PageId} {m : MtrLog} {st : ParseState} (tracks : ParseTracks id m st)
    (spaceOk : id.space < mlogDecodeError) (pageNoOk : id.pageNo < mlogDecodeError) {pageSize offset : Nat}
    {data : List UInt8} (fits : RecordFits pageSize (offset, data)) (page : pageSize ≤ 2 ^ 16) (rest : List UInt8) :
    ∃ st', parseRecord pageSize st ((mtrMemcpyLow m id offset data).1 ++ rest) =
        .ok (st', offset, (mtrMemcpyLow m id offset data).1.length) ∧
      ParseTracks id (mtrMemcpyLow m id offset data).2 st' := by
  obtain ⟨⟨start, nonempty, inPage⟩, head, noWrap⟩ := fits
  dsimp only at start nonempty inPage head noWrap
  have after : ∀ st' : ParseState, st'.gotPageOp = true → st'.lastOffset = offset + data.length →
      ParseTracks id (mtrMemcpyLow m id offset data).2 st' := by
    intro st' got ended
    rw [mtrMemcpyLow_snd tracks.logged]
    refine ⟨rfl, fun _ => ⟨got, ?_, end_ne_one start (by omega)⟩⟩
    rw [ended, Nat.mod_eq_of_lt noWrap]
  by_cases same : m.last = some id ∧ m.lastOffset ≤ offset
  · -- a `same_page` record: parse's `last_offset` is the writer's
    obtain ⟨got, tracked, notFirst⟩ := tracks.same same.1
    have parsed := parseRecord_mtrMemcpyLow_same_page tracks.logged same.1 same.2 st got (by omega) (by omega)
      nonempty (by omega) page rest
    rw [tracked, Nat.add_sub_cancel' same.2] at parsed
    exact ⟨_, parsed, after _ got rfl⟩
  · have recordFits := @length_mtrMemcpyLow_le m tracks.logged id offset data (by omega)
    exact ⟨_, parseRecord_mtrMemcpyLow_new_page tracks.logged same spaceOk pageNoOk start nonempty inPage page
      (by omega) st rest, after _ rfl rfl⟩

/-- Parse takes the records of a run of `memcpy_low` calls without a report
of corruption, and assigns each write the offset the writer gave it. -/
theorem parseLoop_memcpyLowRun {id : PageId} (spaceOk : id.space < mlogDecodeError)
    (pageNoOk : id.pageNo < mlogDecodeError) {pageSize : Nat} (page : pageSize ≤ 2 ^ 16)
    (writes : List (Nat × List UInt8)) (fits : ∀ write ∈ writes, RecordFits pageSize write) :
    ∀ (m : MtrLog) (st : ParseState) (rounds : Nat), writes.length < rounds → ParseTracks id m st →
      parseLoop pageSize rounds st ((memcpyLowRun id m writes).1 ++ [0]) = .ok (writes.map Prod.fst) := by
  induction writes with
  | nil =>
    intro m st rounds more _
    obtain ⟨rounds, rfl⟩ := Nat.exists_eq_add_of_lt more
    exact parseLoop_end (show (0 : UInt8) ≤ 1 by decide)
  | cons write writes ih =>
    intro m st rounds more tracks
    obtain ⟨offset, data⟩ := write
    obtain ⟨rounds, rfl⟩ := Nat.exists_eq_add_of_lt (Nat.zero_lt_of_lt more)
    obtain ⟨st', parsed, tracks'⟩ := parseRecord_mtrMemcpyLow tracks spaceOk pageNoOk (fits _ (List.mem_cons_self ..))
      page ((memcpyLowRun id (mtrMemcpyLow m id offset data).2 writes).1 ++ [0])
    rw [memcpyLowRun_cons, List.append_assoc, Nat.zero_add, parseLoop_record parsed, List.drop_left' rfl,
      ih (fun write mem => fits write (List.mem_cons_of_mem _ mem)) _ st' rounds
        (by simp only [List.length_cons] at more; omega) tracks']
    rfl

/-- A run of `mtr_t::memcpy<w>` calls is a run of `memcpy_low` calls of the
bytes it does not skip, one for each call that logs: its records are
theirs, and its frame is that of its writes done in order, which theirs
leave too. -/
theorem memcpyRun_low (w : WriteType) (id : PageId) {size : Nat} (page : size ≤ 2 ^ 16)
    (writes : List (Nat × List UInt8)) (fits : ∀ write ∈ writes, WriteFits size write) :
    ∀ (m : MtrLog) (frame : Nat → UInt8), ∃ lows : List (Nat × List UInt8), lows.length ≤ writes.length ∧
      (∀ low ∈ lows, ∃ write ∈ writes, ∃ skip < write.2.length, low = (write.1 + skip, write.2.drop skip)) ∧
      memcpyRun w id m frame writes = (copyAll frame writes, memcpyLowRun id m lows) ∧
      copyAll frame lows = copyAll frame writes := by
  induction writes with
  | nil => exact fun m frame => ⟨[], le_rfl, fun _ absent => absurd absent List.not_mem_nil, rfl, rfl⟩
  | cons write writes ih =>
    intro m frame
    obtain ⟨offset, str⟩ := write
    have first := fits _ (List.mem_cons_self ..)
    have others : ∀ write ∈ writes, WriteFits size write := fun write mem => fits write (List.mem_cons_of_mem _ mem)
    have direct := mtrMemcpy_frame w m frame id first.nonempty (Nat.le_trans first.inPage page)
    rcases mtrMemcpy_cases w m frame id first.nonempty (Nat.le_trans first.inPage page) with
      ⟨-, nothing, -⟩ | ⟨skip, short, -, written⟩
    · -- the frame holds the bytes already: no record, and the write changes nothing
      rw [nothing] at direct
      dsimp only at direct
      obtain ⟨lows, fewer, inside, run, same⟩ := ih others m frame
      refine ⟨lows, Nat.le_succ_of_le fewer, fun low mem => ?_, ?_, ?_⟩
      · obtain ⟨write, mem', rest⟩ := inside low mem
        exact ⟨write, List.mem_cons_of_mem _ mem', rest⟩
      · rw [memcpyRun_cons, nothing]
        simp only [run, List.nil_append, copyAll_cons, ← direct]
      · rw [copyAll_cons, ← direct, same]
    · -- one record: the write of the bytes from the first one not skipped
      rw [written] at direct
      dsimp only at direct
      obtain ⟨lows, fewer, inside, run, same⟩ :=
        ih others (mtrMemcpyLow m id (offset + skip) (str.drop skip)).2
          (copy frame (offset + skip) (bytes (str.drop skip)) (str.length - skip))
      refine ⟨(offset + skip, str.drop skip) :: lows, by simp only [List.length_cons]; omega, fun low mem => ?_, ?_, ?_⟩
      · rcases List.mem_cons.mp mem with rfl | mem
        · exact ⟨(offset, str), List.mem_cons_self .., skip, short, rfl⟩
        · obtain ⟨write, mem', rest⟩ := inside low mem
          exact ⟨write, List.mem_cons_of_mem _ mem', rest⟩
      · rw [memcpyRun_cons, written]
        simp only [run, copyAll_cons, ← direct, memcpyLowRun_cons]
      · simp only [copyAll_cons, List.length_drop]
        rw [same, direct]

theorem applyLoop_memcpyRun (w : WriteType) (id : PageId) {size fuel : Nat} (page : size ≤ 2 ^ 16)
    (writes : List (Nat × List UInt8)) (fits : ∀ write ∈ writes, WriteFits size write) {m : MtrLog}
    {lastOffset : Nat} (tracks : ApplyTracks id m lastOffset) (frame : Nat → UInt8) :
    (memcpyRun w id m frame writes).1 = copyAll frame writes ∧
    ∃ lastOffset', applyLoop size fuel (writes.length + 1) lastOffset frame
      ((memcpyRun w id m frame writes).2.1 ++ [0]) = .ok ((memcpyRun w id m frame writes).1, lastOffset') := by
  obtain ⟨lows, fewer, inside, run, same⟩ := memcpyRun_low w id page writes fits m frame
  have lowsFit : ∀ low ∈ lows, WriteFits size low := by
    intro low mem
    obtain ⟨⟨offset, str⟩, mem', skip, short, rfl⟩ := inside low mem
    exact (fits _ mem').drop short
  obtain ⟨lastOffset', replayed⟩ := @applyLoop_memcpyLowRun id size fuel page lows lowsFit m lastOffset frame
    (writes.length + 1) (by omega) tracks
  rw [run]
  exact ⟨rfl, lastOffset', by rw [replayed, same]⟩

theorem applyLoop_memcpyRun_three_writes :
    (memcpyRun .normal ⟨0, 3⟩ ⟨true, none, 0⟩ (fun _ => 0) [(100, [1, 2, 3]), (101, [2, 9]), (50, [7])]).1 =
        copyAll (fun _ => 0) [(100, [1, 2, 3]), (101, [2, 9]), (50, [7])] ∧
      ∃ lastOffset', applyLoop 16384 0 4 0 (fun _ => 0)
        ((memcpyRun .normal ⟨0, 3⟩ ⟨true, none, 0⟩ (fun _ => 0) [(100, [1, 2, 3]), (101, [2, 9]), (50, [7])]).2.1 ++
          [0]) = .ok ((memcpyRun .normal ⟨0, 3⟩ ⟨true, none, 0⟩ (fun _ => 0)
            [(100, [1, 2, 3]), (101, [2, 9]), (50, [7])]).1, lastOffset') :=
  applyLoop_memcpyRun .normal ⟨0, 3⟩ (by decide) [(100, [1, 2, 3]), (101, [2, 9]), (50, [7])] (by decide)
    ⟨rfl, fun h => absurd h (by decide)⟩ (fun _ => 0)

theorem parseLoop_memcpyLowRun_two_writes :
    parseLoop 16384 3 ⟨0, false, ⟨0, 0⟩⟩ ((memcpyLowRun ⟨0, 3⟩ ⟨true, none, 0⟩ [(100, [1, 2, 3]), (103, [4])]).1 ++ [0]) =
      .ok [100, 103] :=
  parseLoop_memcpyLowRun (by decide) (by decide) (by decide) [(100, [1, 2, 3]), (103, [4])] (by decide)
    ⟨true, none, 0⟩ ⟨0, false, ⟨0, 0⟩⟩ 3 (by decide) ⟨rfl, fun h => absurd h (by decide)⟩

/-- Apply replays the record of `mtr_t::memset` whose pattern's length
divides its length, a single byte for `mtr_t::memset(b, ofs, len, val)`:
the page is the old one with exactly the `len` bytes from `ofs` replaced by
the pattern repeated. -/
theorem applyLoop_mtrMemsetLog_exact {m : MtrLog} (logged : m.logged = true) {id : PageId} (other : m.last ≠ some id)
    {ofs len size fuel : Nat} {str : List UInt8} (start : 8 ≤ ofs) (pos : 0 < len) (fits : ofs + len ≤ size)
    (page : size ≤ 2 ^ 16) (pattern : 0 < str.length) (divides : str.length ∣ len) (enough : len < fuel)
    (lastOffset : Nat) (frame : Nat → UInt8) :
    applyLoop size fuel 2 lastOffset frame ((mtrMemsetLog m id ofs len str).1 ++ [0]) =
      .ok (repeatPattern frame ofs len (bytes str) str.length, (ofs + len) % 2 ^ 16) := by
  obtain ⟨frame', applied, -, exact⟩ := applyRecord_mtrMemsetLog_new_page logged (fun same => other same.1) start
    (by omega) fits page pattern (Nat.le_of_dvd pos divides) enough lastOffset frame [0]
  rw [applyLoop_record applied, List.drop_left' rfl, applyLoop_end rfl, exact divides]

theorem applyLoop_mtrMemsetLog_exact_byte :
    applyLoop 16384 5 2 0 (fun _ => 0) ((mtrMemsetLog ⟨true, none, 0⟩ ⟨0, 3⟩ 104 4 [0xff]).1 ++ [0]) =
      .ok (repeatPattern (fun _ => 0) 104 4 (bytes [0xff]) 1, 108) :=
  applyLoop_mtrMemsetLog_exact rfl (by decide) (by decide) (by decide) (by decide) (by decide) (by decide)
    (by decide) (by decide) 0 (fun _ => 0)

end MariaDB.Innobase
