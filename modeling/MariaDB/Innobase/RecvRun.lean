import MariaDB.Innobase.RecvMtr

set_option autoImplicit false

/- Runs of the calls that change a page in a mini-transaction, and their
replay in crash recovery. A caller changes a page through
`mtr_t::memcpy<w>`, through `mtr_t::memset(const buf_block_t *b, ofs, len,
val)`, or by copying bytes of the frame itself and logging the copy with
`mtr_t::memmove`; each call changes the frame and appends at most one record.
`log_phys_t::apply` on the records of any such run leaves the page as the
calls left it. `recv_sys_t::parse` does not follow the writer as closely:
after a MEMSET or MEMMOVE record its `last_offset` counts the bytes of the
record's body and not those written, and a MEMMOVE that follows on the same
page then has its source checked at the wrong place. -/
namespace MariaDB.Innobase

open Memory

/-! ## A record that `log_write` heads -/

theorem haveOffset_logType {t : MrecType} (ht : t = .write ∨ t = .memset ∨ t = .memmove) (h : t ≠ .reserved) :
    (t.logType h).haveOffset = true := by
  rcases ht with rfl | rfl | rfl <;> rfl

/-- Apply on a record that `log_write` heads for page `id`, from a
`last_offset` that tracks the writer: the case on the offset field and the
body, from a base and a relative offset that add up to the writer's offset.
Which of the two forms the head takes decides the base: the writer's
`m_last_offset` for a `same_page` record, and 0 after a page identifier. -/
theorem applyRecord_logWrite {t : MrecType} (ht : t = .write ∨ t = .memset ∨ t = .memmove) (h : t ≠ .reserved)
    {id : PageId} {m : MtrLog} {lastOffset : Nat} (tracks : ApplyTracks id m lastOffset) {offset : Nat}
    (offSmall : offset < 2 ^ 16) (body rest : List UInt8) (bodySmall : body.length ≤ 2 ^ 16)
    (size fuel : Nat) (frame : Nat → UInt8) :
    ∃ base off, base ≠ 1 ∧ base + off = offset ∧ off < min4Byte ∧
      applyRecord size fuel lastOffset frame ((logWrite (t.logType h) m id (some id) body.length offset).1 ++ body ++ rest) =
        (applyPageWrite size fuel t base (mlogEncodeVarint off ++ body ++ rest) (varintSize off + body.length) frame).map
          fun p => (p.1, p.2, (logWrite (t.logType h) m id (some id) body.length offset).1.length + body.length) := by
  have bound := min4Byte_eq
  have ids := And.intro (varintSize_le_five id.space) (varintSize_le_five id.pageNo)
  rw [logWrite_offset (haveOffset_logType ht h)]
  by_cases same : m.last = some id ∧ m.lastOffset ≤ offset
  · -- a `same_page` record: apply's `last_offset` is the writer's
    obtain ⟨rfl, notFirst⟩ := tracks.same same.1
    have relSize := varintSize_le_three (show offset - m.lastOffset < min4Byte by omega)
    rw [if_pos same]
    exact ⟨m.lastOffset, offset - m.lastOffset, notFirst, Nat.add_sub_cancel' same.2, by omega,
      applyRecord_same_page t ht h _ body rest (by omega) size fuel m.lastOffset frame⟩
  · have offSize := varintSize_le_three (show offset < min4Byte by omega)
    rw [if_neg same]
    exact ⟨0, offset, Nat.zero_ne_one, Nat.zero_add offset, by omega,
      applyRecord_new_page t ht h id offset body rest (by omega) size fuel lastOffset frame⟩

/-- After a record for page `id` whose write ends inside a page of at most
2^16 bytes past its first eight, apply tracks the writer from where the
write ends. -/
theorem ApplyTracks.written (id : PageId) {ofs len : Nat} (start : 8 ≤ ofs) (inPage : ofs + len ≤ 2 ^ 16) :
    ApplyTracks id ⟨true, some id, (ofs + len) % 2 ^ 16⟩ ((ofs + len) % 2 ^ 16) :=
  ⟨rfl, fun _ => ⟨rfl, end_ne_one start inPage⟩⟩

/-- Apply tracks a logged mini-transaction with no record yet for any page,
from any `last_offset`. -/
theorem ApplyTracks.of_none {id : PageId} {m : MtrLog} (logged : m.logged = true) (none : m.last = none)
    (lastOffset : Nat) : ApplyTracks id m lastOffset :=
  ⟨logged, fun same => absurd (same.symm.trans none) (Option.some_ne_none id)⟩

/-! ## The records of a byte `memset` and of `memmove` -/

/-- One record of `mtr_t::memset` of a byte: apply fills the `len` bytes
with it, and keeps tracking the writer. -/
theorem applyRecord_mtrMemsetValLog {id : PageId} {m : MtrLog} {lastOffset : Nat} (tracks : ApplyTracks id m lastOffset)
    {size fuel ofs len : Nat} (val : UInt8) (start : 8 ≤ ofs) (pos : 0 < len) (inPage : ofs + len ≤ size)
    (page : size ≤ 2 ^ 16) (frame : Nat → UInt8) (rest : List UInt8) :
    applyRecord size fuel lastOffset frame ((mtrMemsetValLog m id ofs len val).1 ++ rest) =
      .ok (copy frame ofs (fun _ => val) len, (ofs + len) % 2 ^ 16, (mtrMemsetValLog m id ofs len val).1.length) ∧
    ApplyTracks id (mtrMemsetValLog m id ofs len val).2 ((ofs + len) % 2 ^ 16) := by
  have lenSmall : len < min4Byte := by rw [min4Byte_eq]; omega
  have lenSize := varintSize_le_three lenSmall
  rw [mtrMemsetValLog_eq tracks.logged id ofs lenSmall val, memsetType_eq]
  refine ⟨?_, ApplyTracks.written id start (by omega)⟩
  obtain ⟨base, off, notFirst, sum, offSmall, applied⟩ := applyRecord_logWrite (.inr (.inl rfl)) memset_ne_reserved
    tracks (show ofs < 2 ^ 16 by omega) (mlogEncodeVarint len ++ [val]) rest
    (by rw [List.length_append, length_mlogEncodeVarint, List.length_singleton]; omega) size fuel frame
  subst sum
  -- the body as the case on MEMSET reads it: the length field, then a pattern of one byte
  have body := @applyPageWrite_memset size fuel base off len [val] rest frame notFirst offSmall lenSmall start
    (by omega) inPage page
  simp only [List.append_assoc, List.length_singleton, ne_eq, not_true_eq_false, ↓reduceIte] at body
  simp only [List.append_assoc, List.length_append, length_mlogEncodeVarint, List.length_singleton] at applied ⊢
  rw [applied, body]
  rfl

/-- One record of `mtr_t::memmove`: apply moves the `len` bytes from the
source to the destination, and keeps tracking the writer. -/
theorem applyRecord_mtrMemmoveLog {id : PageId} {m : MtrLog} {lastOffset : Nat} (tracks : ApplyTracks id m lastOffset)
    {size fuel d s len : Nat} (start : 8 ≤ d) (srcStart : 8 ≤ s) (ne : s ≠ d) (pos : 0 < len)
    (inPage : d + len ≤ size) (srcInPage : s + len ≤ size) (page : size ≤ 2 ^ 16) (frame : Nat → UInt8)
    (rest : List UInt8) :
    applyRecord size fuel lastOffset frame ((mtrMemmoveLog m id d s len).1 ++ rest) =
      .ok (copy frame d (fun k => frame (s + k)) len, (d + len) % 2 ^ 16, (mtrMemmoveLog m id d s len).1.length) ∧
    ApplyTracks id (mtrMemmoveLog m id d s len).2 ((d + len) % 2 ^ 16) := by
  have lenSmall : len < min4Byte := by rw [min4Byte_eq]; omega
  have codeSmall := @memmoveSourceCode_lt d s (by omega) (by omega)
  have sizes := And.intro (varintSize_le_three lenSmall) (varintSize_le_three codeSmall)
  rw [mtrMemmoveLog_eq tracks.logged id d s lenSmall codeSmall, memmoveType_eq]
  refine ⟨?_, ApplyTracks.written id start (by omega)⟩
  obtain ⟨base, off, notFirst, sum, offSmall, applied⟩ := applyRecord_logWrite (.inr (.inr rfl))
    memmove_ne_reserved tracks (show d < 2 ^ 16 by omega) (mlogEncodeVarint len ++ mlogEncodeVarint (memmoveSourceCode d s))
    rest (by rw [List.length_append, length_mlogEncodeVarint, length_mlogEncodeVarint]; omega) size fuel frame
  subst sum
  have body := @applyPageWrite_memmove size fuel base off len s rest frame notFirst offSmall lenSmall codeSmall start
    (by omega) inPage page ne srcStart srcInPage
  simp only [List.append_assoc] at body
  simp only [List.append_assoc, List.length_append, length_mlogEncodeVarint] at applied ⊢
  rw [applied, body]
  rfl

/-! ## Runs of calls -/

/-- A call of a mini-transaction that changes the page and logs the change:
`mtr_t::memcpy<w>(b, offset, str)`; `mtr_t::memset(const buf_block_t *b,
ofs, len, val)`; or a copy of `len` bytes of the frame from `s` to `d`
followed by `mtr_t::memmove(b, d, s, len)`, as the callers in
btr0cur.cc and btr0bulk.cc write it. -/
inductive PageWrite where
  | memcpy (w : WriteType) (offset : Nat) (str : List UInt8)
  | memset (ofs len : Nat) (val : UInt8)
  | memmove (d s len : Nat)
  deriving DecidableEq, Repr

/-- What the calls assert (`ut_ad`) on a page of `size` bytes, with the first
eight bytes of the page, which apply refuses to write, left alone. -/
def PageWrite.Fits (size : Nat) : PageWrite → Prop
  | .memcpy _ offset str => WriteFits size (offset, str)
  | .memset ofs len _ => 8 ≤ ofs ∧ 0 < len ∧ ofs + len ≤ size
  | .memmove d s len => 8 ≤ d ∧ 8 ≤ s ∧ s ≠ d ∧ 0 < len ∧ d + len ≤ size ∧ s + len ≤ size

instance (size : Nat) : (c : PageWrite) → Decidable (c.Fits size)
  | .memcpy _ offset str => inferInstanceAs (Decidable (WriteFits size (offset, str)))
  | .memset ofs len _ => inferInstanceAs (Decidable (8 ≤ ofs ∧ 0 < len ∧ ofs + len ≤ size))
  | .memmove d s len =>
    inferInstanceAs (Decidable (8 ≤ d ∧ 8 ≤ s ∧ s ≠ d ∧ 0 < len ∧ d + len ≤ size ∧ s + len ≤ size))

/-- What a call does to the page: the bytes it writes, whatever it logs. -/
def PageWrite.effect (frame : Nat → UInt8) : PageWrite → Nat → UInt8
  | .memcpy _ offset str => copy frame offset (bytes str) str.length
  | .memset ofs len val => copy frame ofs (fun _ => val) len
  | .memmove d s len => copy frame d (fun k => frame (s + k)) len

/-- The page after a run of calls: their effects in turn. -/
def runEffect (frame : Nat → UInt8) (writes : List PageWrite) : Nat → UInt8 :=
  writes.foldl PageWrite.effect frame

@[simp] theorem runEffect_nil (frame : Nat → UInt8) : runEffect frame [] = frame := rfl

@[simp] theorem runEffect_cons (frame : Nat → UInt8) (c : PageWrite) (writes : List PageWrite) :
    runEffect frame (c :: writes) = runEffect (c.effect frame) writes := rfl

/-- One call on page `id` of mini-transaction `m`: the frame after it, the
record it appends, and the mini-transaction after it. -/
def pageWrite (id : PageId) (m : MtrLog) (frame : Nat → UInt8) : PageWrite → (Nat → UInt8) × List UInt8 × MtrLog
  | .memcpy w offset str => mtrMemcpy w m frame id offset str
  | .memset ofs len val => mtrMemsetValPtr m frame id ofs len val
  | .memmove d s len => (copy frame d (fun k => frame (s + k)) len, mtrMemmoveLog m id d s len)

/-- A run of calls on page `id`, in order: the frame after them, their
records, and the mini-transaction. -/
def pageWriteRun (id : PageId) : MtrLog → (Nat → UInt8) → List PageWrite → (Nat → UInt8) × List UInt8 × MtrLog
  | m, frame, [] => (frame, [], m)
  | m, frame, c :: writes =>
    ((pageWriteRun id (pageWrite id m frame c).2.2 (pageWrite id m frame c).1 writes).1,
      (pageWrite id m frame c).2.1 ++ (pageWriteRun id (pageWrite id m frame c).2.2 (pageWrite id m frame c).1 writes).2.1,
      (pageWriteRun id (pageWrite id m frame c).2.2 (pageWrite id m frame c).1 writes).2.2)

theorem pageWriteRun_cons (id : PageId) (m : MtrLog) (frame : Nat → UInt8) (c : PageWrite) (writes : List PageWrite) :
    pageWriteRun id m frame (c :: writes) =
      ((pageWriteRun id (pageWrite id m frame c).2.2 (pageWrite id m frame c).1 writes).1,
        (pageWrite id m frame c).2.1 ++
          (pageWriteRun id (pageWrite id m frame c).2.2 (pageWrite id m frame c).1 writes).2.1,
        (pageWriteRun id (pageWrite id m frame c).2.2 (pageWrite id m frame c).1 writes).2.2) := rfl

/-- Every call leaves the frame as its effect says: `mtr_t::memcpy` skips
only bytes the frame already holds. -/
theorem pageWrite_frame (id : PageId) (m : MtrLog) (frame : Nat → UInt8) {size : Nat} (page : size ≤ 2 ^ 16)
    {c : PageWrite} (fits : c.Fits size) : (pageWrite id m frame c).1 = c.effect frame := by
  cases c with
  | memcpy w offset str =>
    obtain ⟨-, nonempty, inPage⟩ := fits
    exact mtrMemcpy_frame w m frame id nonempty (by dsimp only at inPage; omega)
  | memset ofs len val => rfl
  | memmove d s len => rfl

theorem pageWriteRun_frame (id : PageId) {size : Nat} (page : size ≤ 2 ^ 16) (writes : List PageWrite)
    (fits : ∀ c ∈ writes, c.Fits size) :
    ∀ (m : MtrLog) (frame : Nat → UInt8), (pageWriteRun id m frame writes).1 = runEffect frame writes := by
  induction writes with
  | nil => exact fun m frame => rfl
  | cons c writes ih =>
    intro m frame
    rw [pageWriteRun_cons, runEffect_cons, ← pageWrite_frame id m frame page (fits c (List.mem_cons_self ..))]
    exact ih (fun c' mem => fits c' (List.mem_cons_of_mem _ mem)) _ _

/-- The record of one call: from a `last_offset` that tracks the writer,
apply replays it as the call's effect on the frame, in `k ≤ 1` rounds (none
for a `memcpy` of bytes the frame holds already), and keeps tracking the
writer. -/
theorem applyLoop_pageWrite {id : PageId} {m : MtrLog} {lastOffset : Nat} (tracks : ApplyTracks id m lastOffset)
    {size fuel : Nat} (page : size ≤ 2 ^ 16) {c : PageWrite} (fits : c.Fits size) (frame : Nat → UInt8) :
    ∃ lastOffset' k, k ≤ 1 ∧ ApplyTracks id (pageWrite id m frame c).2.2 lastOffset' ∧
      ∀ rounds rest, applyLoop size fuel (rounds + k) lastOffset frame ((pageWrite id m frame c).2.1 ++ rest) =
        applyLoop size fuel rounds lastOffset' (c.effect frame) rest := by
  have effect := pageWrite_frame id m frame page fits
  cases c with
  | memcpy w offset str =>
    have whole : WriteFits size (offset, str) := fits
    rcases mtrMemcpy_cases w m frame id whole.nonempty (Nat.le_trans whole.inPage page) with
      ⟨-, nothing, -⟩ | ⟨skip, short, -, written⟩
    · -- every byte is in place already: no record, and the frame stays
      rw [pageWrite, nothing] at effect ⊢
      refine ⟨lastOffset, 0, Nat.zero_le 1, tracks, fun rounds rest => ?_⟩
      rw [← effect]
      rfl
    · -- one WRITE record, of the bytes from the first one that changes
      rw [pageWrite, written] at effect ⊢
      have applied := @applyRecord_mtrMemcpyLow id m lastOffset tracks size fuel (offset + skip) (str.drop skip)
        (whole.drop short) page frame
      refine ⟨_, 1, le_rfl, (applied []).2, fun rounds rest => ?_⟩
      rw [applyLoop_record (applied rest).1, List.drop_left' rfl, List.length_drop, ← effect]
  | memset ofs len val =>
    obtain ⟨start, pos, inPage⟩ := fits
    have applied := @applyRecord_mtrMemsetValLog id m lastOffset tracks size fuel ofs len val start pos inPage page frame
    refine ⟨_, 1, le_rfl, (applied []).2, fun rounds rest => ?_⟩
    rw [pageWrite, mtrMemsetValPtr]
    exact (applyLoop_record (applied rest).1).trans (by rw [List.drop_left' rfl]; rfl)
  | memmove d s len =>
    obtain ⟨start, srcStart, ne, pos, inPage, srcInPage⟩ := fits
    have applied := @applyRecord_mtrMemmoveLog id m lastOffset tracks size fuel d s len start srcStart ne pos inPage
      srcInPage page frame
    refine ⟨_, 1, le_rfl, (applied []).2, fun rounds rest => ?_⟩
    rw [pageWrite]
    exact (applyLoop_record (applied rest).1).trans (by rw [List.drop_left' rfl]; rfl)

/-- Apply replays the records of a run of calls: from a `last_offset` that
tracks the writer, with a round for each call and one for the end, the page
becomes the calls' effects in turn. -/
theorem applyLoop_pageWriteRun_effect (id : PageId) {size fuel : Nat} (page : size ≤ 2 ^ 16)
    (writes : List PageWrite) (fits : ∀ c ∈ writes, c.Fits size) :
    ∀ (m : MtrLog) (lastOffset : Nat) (frame : Nat → UInt8) (rounds : Nat), writes.length < rounds →
      ApplyTracks id m lastOffset →
      ∃ lastOffset', applyLoop size fuel rounds lastOffset frame ((pageWriteRun id m frame writes).2.1 ++ [0]) =
        .ok (runEffect frame writes, lastOffset') := by
  induction writes with
  | nil =>
    intro m lastOffset frame rounds more _
    obtain ⟨rounds, rfl⟩ := Nat.exists_eq_add_of_lt more
    exact ⟨lastOffset, applyLoop_end rfl⟩
  | cons c writes ih =>
    intro m lastOffset frame rounds more tracks
    have first := fits c (List.mem_cons_self ..)
    obtain ⟨lastOffset', k, few, tracks', step⟩ := @applyLoop_pageWrite id m lastOffset tracks size fuel page c first frame
    -- the rounds left for the others, after the `k` of the first call
    have left : writes.length < rounds - k := by simp only [List.length_cons] at more; omega
    obtain ⟨lastOffset'', run⟩ := ih (fun c' mem => fits c' (List.mem_cons_of_mem _ mem)) _ lastOffset'
      (pageWrite id m frame c).1 (rounds - k) left tracks'
    refine ⟨lastOffset'', ?_⟩
    rw [pageWriteRun_cons, List.append_assoc, show rounds = rounds - k + k by omega, step, runEffect_cons,
      ← pageWrite_frame id m frame page first, run]

/-- Crash recovery replays every run of calls that change a page: the frame
the calls leave is their effects in turn, and `log_phys_t::apply` on their
records, from a `last_offset` that tracks the writer, leaves the page the
same. -/
theorem applyLoop_pageWriteRun (id : PageId) {size fuel : Nat} (page : size ≤ 2 ^ 16) (writes : List PageWrite)
    (fits : ∀ c ∈ writes, c.Fits size) {m : MtrLog} {lastOffset : Nat} (tracks : ApplyTracks id m lastOffset)
    (frame : Nat → UInt8) :
    (pageWriteRun id m frame writes).1 = runEffect frame writes ∧
    ∃ lastOffset', applyLoop size fuel (writes.length + 1) lastOffset frame
      ((pageWriteRun id m frame writes).2.1 ++ [0]) = .ok (runEffect frame writes, lastOffset') :=
  ⟨pageWriteRun_frame id page writes fits m frame,
    applyLoop_pageWriteRun_effect id page writes fits m lastOffset frame (writes.length + 1) (by omega) tracks⟩

theorem applyLoop_pageWriteRun_three_calls :
    (pageWriteRun ⟨0, 3⟩ ⟨true, none, 0⟩ (fun _ => 0)
        [.memcpy .normal 100 [1, 2, 3], .memset 200 10 0xff, .memmove 300 100 3]).1 =
      runEffect (fun _ => 0) [.memcpy .normal 100 [1, 2, 3], .memset 200 10 0xff, .memmove 300 100 3] ∧
    ∃ lastOffset', applyLoop 16384 0 4 0 (fun _ => 0)
      ((pageWriteRun ⟨0, 3⟩ ⟨true, none, 0⟩ (fun _ => 0)
        [.memcpy .normal 100 [1, 2, 3], .memset 200 10 0xff, .memmove 300 100 3]).2.1 ++ [0]) =
      .ok (runEffect (fun _ => 0) [.memcpy .normal 100 [1, 2, 3], .memset 200 10 0xff, .memmove 300 100 3],
        lastOffset') :=
  applyLoop_pageWriteRun ⟨0, 3⟩ (by decide) [.memcpy .normal 100 [1, 2, 3], .memset 200 10 0xff, .memmove 300 100 3]
    (by decide) (ApplyTracks.of_none rfl rfl 0) _

/-! ## Parse after a MEMSET or a MEMMOVE -/

/-- `recv_sys_t::parse` on the MEMMOVE record of `mtr_t::memmove` for the
same page as the record before, from whatever `last_offset` parse has: the
destination is that `last_offset` plus the writer's relative offset, the
source is checked relative to that destination in `uint32_t`, and
`last_offset` moves past the bytes of the source field only. -/
theorem parseRecord_mtrMemmoveLog_same_page {m : MtrLog} (logged : m.logged = true) {id : PageId}
    {d s len pageSize : Nat} (same : m.last = some id) (after : m.lastOffset ≤ d) (ne : s ≠ d)
    (dSmall : d < 2 ^ 16) (sSmall : s < 2 ^ 16) (nonempty : 0 < len) (st : ParseState) (got : st.gotPageOp = true)
    (notFirst : st.lastOffset ≠ 1) (parsedStart : 8 ≤ st.lastOffset + (d - m.lastOffset))
    (parsedFits : st.lastOffset + (d - m.lastOffset) + len ≤ pageSize) (page : pageSize ≤ 2 ^ 16)
    (headFits : 16 ≤ pageSize) (rest : List UInt8) :
    parseRecord pageSize st ((mtrMemmoveLog m id d s len).1 ++ rest) =
      if (st.lastOffset + (d - m.lastOffset) + 2 ^ 32 + s - d) % 2 ^ 32 < 8 ∨
          ((st.lastOffset + (d - m.lastOffset) + 2 ^ 32 + s - d) % 2 ^ 32 + len) % 2 ^ 32 > pageSize then
        .error .recordCorrupted
      else .ok ({ st with lastOffset := st.lastOffset + (d - m.lastOffset) + varintSize (memmoveSourceCode d s) },
        st.lastOffset + (d - m.lastOffset), (mtrMemmoveLog m id d s len).1.length) := by
  have lenSmall : len < min4Byte := by rw [min4Byte_eq]; omega
  have relSmall : d - m.lastOffset < min4Byte := by rw [min4Byte_eq]; omega
  have codeSmall := memmoveSourceCode_lt dSmall sSmall
  have sizes := And.intro (varintSize_le_three relSmall)
    (And.intro (varintSize_le_three lenSmall) (varintSize_le_three codeSmall))
  have bound := min4Byte_eq
  have head := @length_recordHead_le (MrecType.memmove.logType memmove_ne_reserved) 0x80 (mlogEncodeVarint (d - m.lastOffset))
    (mlogEncodeVarint len ++ mlogEncodeVarint (memmoveSourceCode d s)).length
    (by simp only [List.length_append, length_mlogEncodeVarint]; omega)
  have body := @parsePageWrite_memmove pageSize st.lastOffset (d - m.lastOffset) len d s rest notFirst relSmall lenSmall
    codeSmall parsedStart (by omega) parsedFits ne (by omega)
  simp only [List.append_assoc] at body
  rw [length_mlogEncodeVarint] at head
  rw [mtrMemmoveLog_eq logged id d s lenSmall codeSmall, memmoveType_eq,
    logWrite_offset (haveOffset_logType (.inr (.inr rfl)) memmove_ne_reserved), if_pos ⟨same, after⟩]
  dsimp only
  rw [parseRecord_same_page .memmove (.inr (.inr rfl)) memmove_ne_reserved (d - m.lastOffset) _ rest
    (by simp only [List.length_append, length_mlogEncodeVarint]; omega) pageSize st got
    (by simp only [List.length_append, length_mlogEncodeVarint] at head ⊢; omega)]
  simp only [List.append_assoc, List.length_append, length_mlogEncodeVarint] at ⊢
  rw [body]
  split_ifs <;> rfl

/-- The record of `mtr_t::memset` of a byte takes at most 21 bytes: the
first byte, three of length, ten of page identifier, three of offset, three
of length field and the byte. -/
theorem length_mtrMemsetValLog_le {m : MtrLog} (logged : m.logged = true) (id : PageId) {ofs len : Nat}
    (val : UInt8) (ofsSmall : ofs < 2 ^ 16) (lenSmall : len < 2 ^ 16) :
    (mtrMemsetValLog m id ofs len val).1.length ≤ 21 := by
  have bound := min4Byte_eq
  have sizes := And.intro (And.intro (varintSize_le_five id.space) (varintSize_le_five id.pageNo))
    (And.intro (varintSize_le_three (show ofs < min4Byte by omega))
      (varintSize_le_three (show len < min4Byte by omega)))
  have relSize := varintSize_le_three (show ofs - m.lastOffset < min4Byte by omega)
  have body : (mlogEncodeVarint len ++ [val]).length = varintSize len + 1 := by
    rw [List.length_append, length_mlogEncodeVarint, List.length_singleton]
  rw [mtrMemsetValLog_eq logged id ofs (by omega) val,
    logWrite_offset (show memsetType.haveOffset = true from rfl)]
  split_ifs
  · have head := @length_recordHead_le memsetType 0x80 (mlogEncodeVarint (ofs - m.lastOffset))
      (mlogEncodeVarint len ++ [val]).length (by rw [body, length_mlogEncodeVarint]; omega)
    simp only [List.length_append, length_mlogEncodeVarint, List.length_singleton] at head ⊢
    omega
  · have head := @length_recordHead_le memsetType 0
      (mlogEncodeVarint id.space ++ mlogEncodeVarint id.pageNo ++ mlogEncodeVarint ofs)
      (mlogEncodeVarint len ++ [val]).length (by simp only [body, List.length_append, length_mlogEncodeVarint]; omega)
    simp only [List.length_append, length_mlogEncodeVarint, List.length_singleton] at head ⊢
    omega

/-- A valid mini-transaction that recovery refuses: `mtr_t::memset` of
`len` bytes to a new page, then `mtr_t::memmove` on the same page to a
destination after them, from a source that ends `len - 1` bytes or more
before the start. `log_phys_t::apply` replays both records, but
`recv_sys_t::parse` has `last_offset` only one byte past the MEMSET, so the
MEMMOVE's destination and source are `len - 1` bytes early, the source
falls before the page and wraps around in `uint32_t`, and parse reports
the record as corrupted. -/
theorem parseLoop_rejects_memmove_after_memset {pageSize : Nat} {m : MtrLog} {id : PageId} {ofs len d s len2 : Nat}
    (val : UInt8) (logged : m.logged = true) (other : m.last ≠ some id) (spaceOk : id.space < mlogDecodeError)
    (pageNoOk : id.pageNo < mlogDecodeError) (start : 8 ≤ ofs) (after : ofs + len ≤ d) (srcStart : 8 ≤ s)
    (early : s + len2 + 1 < len) (pos : 0 < len2) (fits : d + len2 ≤ pageSize) (pageMin : 2 ^ 12 ≤ pageSize)
    (page : pageSize ≤ 2 ^ 16) (st : ParseState) :
    parseLoop pageSize 3 st ((mtrMemsetValLog m id ofs len val).1 ++
        (mtrMemmoveLog (mtrMemsetValLog m id ofs len val).2 id d s len2).1 ++ [0]) = .error .recordCorrupted ∧
    ∀ fuel lastOffset frame, applyLoop pageSize fuel 3 lastOffset frame ((mtrMemsetValLog m id ofs len val).1 ++
        (mtrMemmoveLog (mtrMemsetValLog m id ofs len val).2 id d s len2).1 ++ [0]) =
      .ok (copy (copy frame ofs (fun _ => val) len) d (fun k => copy frame ofs (fun _ => val) len (s + k)) len2,
        (d + len2) % 2 ^ 16) := by
  have lenSmall : len < min4Byte := by rw [min4Byte_eq]; omega
  have newPage : ¬(m.last = some id ∧ m.lastOffset ≤ ofs) := fun same => other same.1
  -- the writer after the MEMSET: the page, and `m_last_offset` past the `len` bytes
  have written : (mtrMemsetValLog m id ofs len val).2 = ⟨true, some id, ofs + len⟩ := by
    rw [mtrMemsetValLog_eq logged id ofs lenSmall val, Nat.mod_eq_of_lt (by omega)]
  rw [List.append_assoc]
  constructor
  · -- parse: `last_offset` is `ofs + 1` after the MEMSET, and `d + 1 - len` at the MEMMOVE
    have recordFits := length_mtrMemsetValLog_le logged id val (show ofs < 2 ^ 16 by omega)
      (show len < 2 ^ 16 by omega)
    have first := parseRecord_mtrMemsetLog_new_page logged newPage spaceOk pageNoOk start (by omega) (by omega) page
      (show [val].length ≤ len by simp only [List.length_singleton]; omega)
      (by rw [← mtrMemsetValLog_eq_mtrMemsetLog]; omega) st
      ((mtrMemmoveLog (mtrMemsetValLog m id ofs len val).2 id d s len2).1 ++ [0])
    rw [← mtrMemsetValLog_eq_mtrMemsetLog] at first
    have second := @parseRecord_mtrMemmoveLog_same_page ⟨true, some id, ofs + len⟩ rfl id d s len2 pageSize rfl after
      (by omega) (by omega) (by omega) pos ⟨ofs + [val].length, true, id⟩ rfl
      (by simp only [List.length_singleton]; omega) (by simp only [List.length_singleton]; omega)
      (by simp only [List.length_singleton]; omega) page (by omega) [0]
    -- the source wraps around: it lies `len - 1 - s` bytes before the page
    rw [if_pos (.inr (by simp only [List.length_singleton]; omega))] at second
    rw [parseLoop_record first, List.drop_left' rfl, written,
      parseLoop_error (not_le_one_of_parseRecord_corrupted second) second]
    rfl
  · -- apply: `last_offset` is `ofs + len` after the MEMSET, as the writer's
    intro fuel lastOffset frame
    have first := @applyRecord_mtrMemsetValLog id m lastOffset ⟨logged, fun same => absurd same other⟩ pageSize fuel
      ofs len val start (by omega) (by omega) page frame
      ((mtrMemmoveLog (mtrMemsetValLog m id ofs len val).2 id d s len2).1 ++ [0])
    have second := @applyRecord_mtrMemmoveLog id (mtrMemsetValLog m id ofs len val).2 ((ofs + len) % 2 ^ 16)
      first.2 pageSize fuel d s len2 (by omega) srcStart (by omega) pos fits (by omega) page
      (copy frame ofs (fun _ => val) len) [0]
    rw [applyLoop_record first.1, List.drop_left' rfl, applyLoop_record second.1, List.drop_left' rfl,
      applyLoop_end rfl]

theorem parseLoop_rejects_memmove_after_memset_fifty :
    parseLoop 16384 3 ⟨0, false, ⟨0, 0⟩⟩ ((mtrMemsetValLog ⟨true, none, 0⟩ ⟨0, 3⟩ 100 50 0).1 ++
        (mtrMemmoveLog (mtrMemsetValLog ⟨true, none, 0⟩ ⟨0, 3⟩ 100 50 0).2 ⟨0, 3⟩ 200 20 10).1 ++ [0]) =
      .error .recordCorrupted ∧
    ∀ fuel lastOffset frame, applyLoop 16384 fuel 3 lastOffset frame ((mtrMemsetValLog ⟨true, none, 0⟩ ⟨0, 3⟩ 100 50 0).1 ++
        (mtrMemmoveLog (mtrMemsetValLog ⟨true, none, 0⟩ ⟨0, 3⟩ 100 50 0).2 ⟨0, 3⟩ 200 20 10).1 ++ [0]) =
      .ok (copy (copy frame 100 (fun _ => 0) 50) 200 (fun k => copy frame 100 (fun _ => 0) 50 (20 + k)) 10, 210) :=
  parseLoop_rejects_memmove_after_memset 0 rfl (by decide) (by decide) (by decide) (by decide) (by decide)
    (by decide) (by decide) (by decide) (by decide) (by decide) (by decide) _

end MariaDB.Innobase
