import MariaDB.Hash.Index

set_option autoImplicit false

/- The split loop of `my_hash_insert`. It walks the chain of bucket
`records - halfbuff` and deals its records to two sides: those whose hash
number has the `halfbuff` bit clear stay in the bucket (the low side), the
others form the new bucket `records` (the high side). Each side's first
record goes to the side's own slot, the later ones stay where they are, and
each side's chain is written one record behind the walk. -/

namespace MariaDB.MysysHash

open ThreadedChain

variable {ρ : Type}

/-! ## The flag -/

/-- The split loop's `flag`, from its four bits. -/
def flagOf (lowFind lowUsed highFind highUsed : Bool) : Nat :=
  (if lowFind then lowfind else 0) + (if lowUsed then lowused else 0) +
    (if highFind then highfind else 0) + (if highUsed then highused else 0)

section Flag

variable (lf lu hf hu : Bool)

theorem flagOf_eq_zero : flagOf lf lu hf hu = 0 ↔ lf = false ∧ lu = false ∧ hf = false ∧ hu = false := by
  cases lf <;> cases lu <;> cases hf <;> cases hu <;> decide

theorem flagOf_and_lowfind : flagOf lf lu hf hu &&& lowfind = 0 ↔ lf = false := by
  cases lf <;> cases lu <;> cases hf <;> cases hu <;> decide

theorem flagOf_and_highfind : flagOf lf lu hf hu &&& highfind = 0 ↔ hf = false := by
  cases lf <;> cases lu <;> cases hf <;> cases hu <;> decide

theorem flagOf_and_lowused : flagOf lf lu hf hu &&& lowused = 0 ↔ lu = false := by
  cases lf <;> cases lu <;> cases hf <;> cases hu <;> decide

theorem flagOf_and_highused : flagOf lf lu hf hu &&& highused = 0 ↔ hu = false := by
  cases lf <;> cases lu <;> cases hf <;> cases hu <;> decide

theorem flagOf_lowPending : flagOf lf lu hf hu &&& (lowfind ||| lowused) = lowfind ↔ lf = true ∧ lu = false := by
  cases lf <;> cases lu <;> cases hf <;> cases hu <;> decide

theorem flagOf_highPending : flagOf lf lu hf hu &&& (highfind ||| highused) = highfind ↔ hf = true ∧ hu = false := by
  cases lf <;> cases lu <;> cases hf <;> cases hu <;> decide

theorem flagOf_lowUsed : (flagOf lf lu hf hu &&& highfind) ||| (lowfind ||| lowused) = flagOf true true hf false := by
  cases lf <;> cases lu <;> cases hf <;> cases hu <;> decide

theorem flagOf_highFirst : (flagOf lf lu hf hu &&& lowfind) ||| highfind = flagOf lf false true false := by
  cases lf <;> cases lu <;> cases hf <;> cases hu <;> decide

theorem flagOf_highUsed : (flagOf lf lu hf hu &&& lowfind) ||| (highfind ||| highused) = flagOf lf false true true := by
  cases lf <;> cases lu <;> cases hf <;> cases hu <;> decide

theorem lowfind_or_highfind : lowfind ||| highfind = flagOf true false true false := by decide

theorem lowfind_or_lowused : lowfind ||| lowused = flagOf true true false false := by decide

end Flag

/-! ## One round -/

section Round

variable {half pos : Nat} {st : SplitState ρ} {lf lu hf hu : Bool}

/-- The first low record after a high one: it is to go to the free slot,
which is the bucket's own, and its slot becomes the free one. -/
theorem splitStep_lowFirst_afterHigh (flag : st.flag = flagOf false lu true hu)
    (low : (st.array pos).hashNr &&& half = 0) :
    splitStep half st pos =
      { st with flag := flagOf true false true false, gpos := st.empty, recData := (st.array pos).data,
                recHashNr := (st.array pos).hashNr, empty := pos } := by
  have noLow : st.flag &&& lowfind = 0 := by rw [flag, flagOf_and_lowfind]
  have high : st.flag &&& highfind ≠ 0 := by rw [flag, ne_eq, flagOf_and_highfind]; decide
  simp only [splitStep, low, noLow, high, if_true, if_false, ne_eq, not_false_eq_true, lowfind_or_highfind]

/-- The first record of the chain, when it is low: it stays in place. -/
theorem splitStep_lowFirst (flag : st.flag = flagOf false lu false hu) (low : (st.array pos).hashNr &&& half = 0) :
    splitStep half st pos =
      { st with flag := flagOf true true false false, gpos := pos, recData := (st.array pos).data,
                recHashNr := (st.array pos).hashNr } := by
  have noLow : st.flag &&& lowfind = 0 := by rw [flag, flagOf_and_lowfind]
  have noHigh : st.flag &&& highfind = 0 := by rw [flag, flagOf_and_highfind]
  simp only [splitStep, low, noLow, noHigh, if_true, ne_eq, not_true_eq_false, if_false, lowfind_or_lowused]

/-- A later low record after a high one: the pending low record is written
with a link to this one. -/
theorem splitStep_lowLink (flag : st.flag = flagOf true false hf hu) (low : (st.array pos).hashNr &&& half = 0) :
    splitStep half st pos =
      { st with array := setLink st.array st.gpos ⟨pos, st.recHashNr, st.recData⟩,
                flag := flagOf true true hf false, gpos := pos, recData := (st.array pos).data,
                recHashNr := (st.array pos).hashNr } := by
  have found : st.flag &&& lowfind ≠ 0 := by rw [flag, ne_eq, flagOf_and_lowfind]; decide
  have notUsed : st.flag &&& lowused = 0 := by rw [flag, flagOf_and_lowused]
  have next : (st.flag &&& highfind) ||| (lowfind ||| lowused) = flagOf true true hf false := by
    rw [flag, flagOf_lowUsed]
  simp only [splitStep, low, found, notUsed, if_true, if_false, next]

/-- A later low record right after the pending one, which is in place and
already links to it. -/
theorem splitStep_lowNext (flag : st.flag = flagOf true true hf hu) (low : (st.array pos).hashNr &&& half = 0) :
    splitStep half st pos =
      { st with gpos := pos, recData := (st.array pos).data, recHashNr := (st.array pos).hashNr } := by
  have found : st.flag &&& lowfind ≠ 0 := by rw [flag, ne_eq, flagOf_and_lowfind]; decide
  have used : st.flag &&& lowused ≠ 0 := by rw [flag, ne_eq, flagOf_and_lowused]; decide
  simp only [splitStep, low, found, used, if_true, if_false]

/-- The first high record: it is to go to the free slot, which is the new
bucket's own, and its slot becomes the free one. -/
theorem splitStep_highFirst (flag : st.flag = flagOf lf lu false hu) (high : (st.array pos).hashNr &&& half ≠ 0) :
    splitStep half st pos =
      { st with flag := flagOf lf false true false, gpos2 := st.empty, empty := pos,
                rec2Data := (st.array pos).data, rec2HashNr := (st.array pos).hashNr } := by
  have noHigh : st.flag &&& highfind = 0 := by rw [flag, flagOf_and_highfind]
  have next : (st.flag &&& lowfind) ||| highfind = flagOf lf false true false := by
    rw [flag, flagOf_highFirst]
  simp only [splitStep, high, noHigh, if_true, if_false, next]

/-- A later high record after a low one: the pending high record is written
with a link to this one. -/
theorem splitStep_highLink (flag : st.flag = flagOf lf lu true false) (high : (st.array pos).hashNr &&& half ≠ 0) :
    splitStep half st pos =
      { st with array := setLink st.array st.gpos2 ⟨pos, st.rec2HashNr, st.rec2Data⟩,
                flag := flagOf lf false true true, gpos2 := pos, rec2Data := (st.array pos).data,
                rec2HashNr := (st.array pos).hashNr } := by
  have found : st.flag &&& highfind ≠ 0 := by rw [flag, ne_eq, flagOf_and_highfind]; decide
  have notUsed : st.flag &&& highused = 0 := by rw [flag, flagOf_and_highused]
  have next : (st.flag &&& lowfind) ||| (highfind ||| highused) = flagOf lf false true true := by
    rw [flag, flagOf_highUsed]
  simp only [splitStep, high, found, notUsed, if_true, if_false, next]

/-- A later high record right after the pending one. -/
theorem splitStep_highNext (flag : st.flag = flagOf lf lu true true) (high : (st.array pos).hashNr &&& half ≠ 0) :
    splitStep half st pos =
      { st with gpos2 := pos, rec2Data := (st.array pos).data, rec2HashNr := (st.array pos).hashNr } := by
  have found : st.flag &&& highfind ≠ 0 := by rw [flag, ne_eq, flagOf_and_highfind]; decide
  have used : st.flag &&& highused ≠ 0 := by rw [flag, ne_eq, flagOf_and_highused]; decide
  simp only [splitStep, high, found, used, if_false]

end Round

/-! ## One side of the split -/

/-- The slots a side's records go to: the side's own slot for the first
record, and their own slots for the later ones. -/
def targets (first : Nat) : List Nat → List Nat
  | [] => []
  | _ :: rest => first :: rest

theorem targets_append (first x : Nat) {xs : List Nat} (nonempty : xs ≠ []) :
    targets first (xs ++ [x]) = targets first xs ++ [x] := by
  cases xs with
  | nil => contradiction
  | cons y ys => rfl

theorem targets_head (first : Nat) {xs : List Nat} (nonempty : xs ≠ []) : (targets first xs).head? = some first := by
  cases xs with
  | nil => contradiction
  | cons y ys => rfl

theorem mem_targets {first j : Nat} {xs : List Nat} (mem : j ∈ targets first xs) : j = first ∨ j ∈ xs.tail := by
  cases xs with
  | nil => cases mem
  | cons y ys => simpa [targets] using mem

section Side

variable (arr₀ : Nat → HashLink ρ) (first : Nat)

/-- A side that has records: the target slots linked so far (`done`, holding
the records of the slots `sources`), and its last record, from slot `source`,
waiting in `rec` for its target `gpos`. With `used`, the last record is still
in its own slot, which links to the next slot of the chain. -/
structure Pending (arr : Nat → HashLink ρ) (p xs : List Nat) (used : Bool) (gpos : Nat) (rec : Nat × ρ)
    (done sources : List Nat) (source : Nat) : Prop where
  records : xs = sources ++ [source]
  slots : targets first xs = done ++ [gpos]
  linked : Linked (links arr) gpos done
  contents : done.map (content arr) = sources.map (content arr₀)
  pending : rec = content arr₀ source
  inPlace : used = true → gpos = source ∧ p.getLast? = some source ∧ arr source = arr₀ source

/-- One side of the split after the slots `p`, of which `xs` are this side's. -/
def SideInv (arr : Nat → HashLink ρ) (p xs : List Nat) (used : Bool) (gpos : Nat) (rec : Nat × ρ) : Prop :=
  (xs = [] ∧ used = false) ∨ ∃ done sources source, Pending arr₀ first arr p xs used gpos rec done sources source

/-- A side's chain, complete: its targets linked to the end, holding the
side's records in order. -/
def Final (arr : Nat → HashLink ρ) (xs : List Nat) : Prop :=
  Linked (links arr) noRecord (targets first xs) ∧ (targets first xs).map (content arr) = xs.map (content arr₀)

variable {arr₀ first} {arr arr' : Nat → HashLink ρ} {p xs : List Nat} {used : Bool} {gpos pos : Nat} {rec : Nat × ρ}

/-- Each target of a complete side holds the record of one of the side's
slots. -/
theorem Final.content_mem (final : Final arr₀ first arr xs) {j : Nat} (mem : j ∈ targets first xs) :
    ∃ x ∈ xs, content arr j = content arr₀ x := by
  have : content arr j ∈ xs.map (content arr₀) := final.2 ▸ List.mem_map_of_mem mem
  obtain ⟨x, mem, same⟩ := List.mem_map.mp this
  exact ⟨x, mem, same.symm⟩

theorem Final.congr (final : Final arr₀ first arr xs) (same : ∀ j ∈ targets first xs, arr' j = arr j) :
    Final arr₀ first arr' xs := by
  refine ⟨final.1.congr fun j mem => by simp only [links, same j mem], ?_⟩
  rw [← final.2]
  exact List.map_congr_left fun j mem => by simp only [content, same j mem]

theorem SideInv.nil : SideInv arr₀ first arr p [] false gpos rec := Or.inl ⟨rfl, rfl⟩

/-- The side's first record: it is to go to the side's own slot. -/
theorem sideInv_first (untouched : arr pos = arr₀ pos) (inPlace : used = true → first = pos) :
    SideInv arr₀ first arr (p ++ [pos]) [pos] used first (content arr pos) := by
  refine Or.inr ⟨[], [], pos, rfl, rfl, linked_nil, rfl, by rw [content, content, untouched], ?_⟩
  intro used
  obtain rfl := inPlace used
  exact ⟨rfl, by simp, untouched⟩

/-- A later record when the pending one is not in place: the pending record
is written to its target with a link to this one. -/
theorem SideInv.link (side : SideInv arr₀ first arr p xs false gpos rec) (nonempty : xs ≠ [])
    (distinct : (targets first xs).Nodup) (fresh : pos ∉ targets first xs) (untouched : arr pos = arr₀ pos) :
    SideInv arr₀ first (setLink arr gpos ⟨pos, rec.1, rec.2⟩) (p ++ [pos]) (xs ++ [pos]) true pos
      (content arr pos) := by
  rcases side with ⟨empty, -⟩ | ⟨done, sources, source, pend⟩
  · exact absurd empty nonempty
  have last : gpos ∈ targets first xs := by simp [pend.slots]
  have before : gpos ∉ done := by
    have := pend.slots ▸ distinct
    rw [← List.concat_eq_append, List.nodup_concat] at this
    exact this.1
  have other : pos ≠ gpos := fun same => fresh (same ▸ last)
  refine Or.inr ⟨done ++ [gpos], sources ++ [source], pos, ?_, ?_, ?_, ?_, ?_, ?_⟩
  · rw [pend.records]
  · rw [targets_append first pos nonempty, pend.slots]
  · -- the pending slot now links to `pos`; the slots before it are unchanged
    refine linked_concat.mpr ⟨pend.linked.congr fun j mem => ?_, by simp [links]⟩
    simp only [links, setLink_ne arr _ (fun same : j = gpos => before (same ▸ mem))]
  · have unchanged : done.map (content (setLink arr gpos ⟨pos, rec.1, rec.2⟩)) = done.map (content arr) :=
      List.map_congr_left fun j mem => by
        simp only [content, setLink_ne arr _ (fun same : j = gpos => before (same ▸ mem))]
    rw [List.map_append, List.map_append, unchanged, pend.contents]
    simp [content, pend.pending]
  · rw [content, content, untouched]
  · intro _
    exact ⟨rfl, by simp, by rw [setLink_ne arr _ other, untouched]⟩

/-- A later record right after the pending one, which is in place and
already links to it. -/
theorem SideInv.next (side : SideInv arr₀ first arr p xs true gpos rec)
    (order : ∀ x ∈ p.getLast?, links arr₀ x = pos) (untouched : arr pos = arr₀ pos) :
    SideInv arr₀ first arr (p ++ [pos]) (xs ++ [pos]) true pos (content arr pos) := by
  rcases side with ⟨-, used⟩ | ⟨done, sources, source, pend⟩
  · cases used
  obtain ⟨rfl, lastSlot, inPlace⟩ := pend.inPlace rfl
  have nonempty : xs ≠ [] := by simp [pend.records]
  refine Or.inr ⟨done ++ [gpos], sources ++ [gpos], pos, ?_, ?_, ?_, ?_, ?_, ?_⟩
  · rw [pend.records]
  · rw [targets_append first pos nonempty, pend.slots]
  · refine linked_concat.mpr ⟨pend.linked, ?_⟩
    rw [← order gpos lastSlot]
    simp only [links, inPlace]
  · simp [pend.contents, content, inPlace]
  · rw [content, content, untouched]
  · intro _
    exact ⟨rfl, by simp, untouched⟩

/-- Writes off the side's targets leave it as it is. -/
theorem SideInv.congr (side : SideInv arr₀ first arr p xs used gpos rec)
    (same : ∀ j ∈ targets first xs, arr' j = arr j) : SideInv arr₀ first arr' p xs used gpos rec := by
  rcases side with empty | ⟨done, sources, source, pend⟩
  · exact Or.inl empty
  have onDone : ∀ j ∈ done, arr' j = arr j := fun j mem => same j (by simp [pend.slots, mem])
  refine Or.inr ⟨done, sources, source, pend.records, pend.slots,
    pend.linked.congr fun j mem => by simp only [links, onDone j mem], ?_, pend.pending, ?_⟩
  · rw [← pend.contents]
    exact List.map_congr_left fun j mem => by simp only [content, onDone j mem]
  · intro used
    obtain ⟨rfl, lastSlot, inPlace⟩ := pend.inPlace used
    exact ⟨rfl, lastSlot, by rw [same gpos (by simp [pend.slots]), inPlace]⟩

/-- A record of the other side: the pending record of this side no longer
links to the next slot. -/
theorem SideInv.forget (side : SideInv arr₀ first arr p xs used gpos rec) :
    SideInv arr₀ first arr (p ++ [pos]) xs false gpos rec := by
  rcases side with ⟨empty, -⟩ | ⟨done, sources, source, pend⟩
  · exact Or.inl ⟨empty, rfl⟩
  · exact Or.inr ⟨done, sources, source, pend.records, pend.slots, pend.linked, pend.contents, pend.pending,
      fun used => by cases used⟩

/-- The end of the walk, with the pending record written: the side's chain,
holding its records in order. -/
theorem SideInv.finish_write (side : SideInv arr₀ first arr p xs false gpos rec) (nonempty : xs ≠ [])
    (distinct : (targets first xs).Nodup) :
    Final arr₀ first (setLink arr gpos ⟨noRecord, rec.1, rec.2⟩) xs := by
  rcases side with ⟨empty, -⟩ | ⟨done, sources, source, pend⟩
  · exact absurd empty nonempty
  have before : gpos ∉ done := by
    have := pend.slots ▸ distinct
    rw [← List.concat_eq_append, List.nodup_concat] at this
    exact this.1
  have unchanged : ∀ j ∈ done, setLink arr gpos ⟨noRecord, rec.1, rec.2⟩ j = arr j :=
    fun j mem => setLink_ne arr _ fun same => before (same ▸ mem)
  have unchangedContents : done.map (content (setLink arr gpos ⟨noRecord, rec.1, rec.2⟩)) = done.map (content arr) :=
    List.map_congr_left fun j mem => by simp only [content, unchanged j mem]
  unfold Final
  rw [pend.slots, pend.records]
  refine ⟨linked_concat.mpr ⟨pend.linked.congr fun j mem => by simp only [links, unchanged j mem], by simp [links]⟩, ?_⟩
  rw [List.map_append, List.map_append, unchangedContents, pend.contents]
  simp [content, pend.pending]

/-- The end of the walk with the last record in place: it is the chain's
last slot, so the side's chain is complete. -/
theorem SideInv.finish_used (side : SideInv arr₀ first arr p xs true gpos rec)
    (last : ∀ x ∈ p.getLast?, links arr₀ x = noRecord) : Final arr₀ first arr xs := by
  rcases side with ⟨-, used⟩ | ⟨done, sources, source, pend⟩
  · cases used
  obtain ⟨rfl, lastSlot, inPlace⟩ := pend.inPlace rfl
  unfold Final
  rw [pend.slots, pend.records]
  refine ⟨linked_concat.mpr ⟨pend.linked, ?_⟩, ?_⟩
  · rw [← last gpos lastSlot]
    simp only [links, inPlace]
  · simp [pend.contents, content, inPlace]

theorem SideInv.used_false (side : SideInv arr₀ first arr p [] used gpos rec) : used = false := by
  rcases side with ⟨-, unused⟩ | ⟨done, sources, source, pend⟩
  · exact unused
  · simpa using pend.records

theorem SideInv.gpos_mem (side : SideInv arr₀ first arr p xs used gpos rec) (nonempty : xs ≠ []) :
    gpos ∈ targets first xs := by
  rcases side with ⟨empty, -⟩ | ⟨done, sources, source, pend⟩
  · exact absurd empty nonempty
  · simp [pend.slots]

/-- With `used`, the side's last record is the last slot walked. -/
theorem SideInv.last_of_used (side : SideInv arr₀ first arr p xs true gpos rec) :
    ∃ x ∈ xs, p.getLast? = some x := by
  rcases side with ⟨-, used⟩ | ⟨done, sources, source, pend⟩
  · cases used
  · exact ⟨source, by simp [pend.records], (pend.inPlace rfl).2.1⟩

end Side

/-! ## The walk -/

theorem headD_filter_append {α : Type} (q : α → Bool) (xs : List α) (a d : α) :
    ((xs ++ [a]).filter q).headD d = (xs.filter q).headD (if q a then a else d) := by
  induction xs with
  | nil => cases found : q a <;> simp [found]
  | cons x xs ih =>
    cases found : q x
    · simp only [List.cons_append, List.filter_cons, found, Bool.false_eq_true, if_false]
      exact ih
    · simp [List.filter_cons, found]

theorem tail_filter_subset {α : Type} (q : α → Bool) (xs : List α) : (xs.filter q).tail ⊆ xs.tail := by
  cases xs with
  | nil => simp
  | cons x xs =>
    intro j mem
    cases found : q x
    · simp only [List.filter_cons, found, Bool.false_eq_true, if_false] at mem
      exact List.mem_of_mem_filter (List.mem_of_mem_tail mem)
    · simp only [List.filter_cons, found, if_true, List.tail_cons] at mem
      exact List.mem_of_mem_filter mem

section Walk

variable (arr₀ : Nat → HashLink ρ) (half f N : Nat)

/-- Whether the record of a slot stays in the low bucket. -/
def isLow (i : Nat) : Bool := (arr₀ i).hashNr &&& half = 0

/-- The slot the split of the slots `p` leaves free: that of the first record
that went to the other side's own slot. -/
def freeSlot : List Nat → Nat
  | [] => N
  | x :: rest =>
    if isLow arr₀ half x then (rest.filter fun i => !isLow arr₀ half i).headD N
    else (rest.filter (isLow arr₀ half)).headD f

/-- The split state after the walk over the slots `p`, with the `LOWUSED`
and `HIGHUSED` bits `lu` and `hu`. -/
structure SplitInv (p : List Nat) (lu hu : Bool) (st : SplitState ρ) : Prop where
  flag : st.flag = flagOf (!(p.filter (isLow arr₀ half)).isEmpty) lu
    (!(p.filter fun i => !isLow arr₀ half i).isEmpty) hu
  low : SideInv arr₀ f st.array p (p.filter (isLow arr₀ half)) lu st.gpos (st.recHashNr, st.recData)
  high : SideInv arr₀ N st.array p (p.filter fun i => !isLow arr₀ half i) hu st.gpos2 (st.rec2HashNr, st.rec2Data)
  frame : ∀ j ∉ p, j ≠ N → st.array j = arr₀ j
  empty : st.empty = freeSlot arr₀ half f N p

section Free

variable {arr₀ half f N}

theorem freeSlot_append (x pos : Nat) (rest : List Nat) :
    freeSlot arr₀ half f N (x :: rest ++ [pos]) =
      if isLow arr₀ half x then (rest.filter fun i => !isLow arr₀ half i).headD (if !isLow arr₀ half pos then pos else N)
      else (rest.filter (isLow arr₀ half)).headD (if isLow arr₀ half pos then pos else f) := by
  simp only [List.cons_append, freeSlot, headD_filter_append]

theorem not_isEmpty {α : Type} {l : List α} (nonempty : l ≠ []) : (!l.isEmpty) = true := by
  simp [nonempty]

theorem not_isEmpty_concat {α : Type} (l : List α) (a : α) : (!(l ++ [a]).isEmpty) = true :=
  not_isEmpty (by simp)

theorem headD_of_ne_nil {α : Type} {l : List α} (nonempty : l ≠ []) (a b : α) : l.headD a = l.headD b := by
  cases l with
  | nil => contradiction
  | cons y l => rfl

theorem filter_cons_of_false {α : Type} {q : α → Bool} {y : α} (rest : List α) (no : q y = false) :
    (y :: rest).filter q = rest.filter q := by
  simp [no]

theorem filter_cons_of_true {α : Type} {q : α → Bool} {y : α} (rest : List α) (yes : q y = true) :
    (y :: rest).filter q = y :: rest.filter q := by
  simp [yes]

/-- A low record when there is one already frees no slot. -/
theorem freeSlot_low_found {p : List Nat} {pos : Nat} (low : isLow arr₀ half pos = true)
    (found : p.filter (isLow arr₀ half) ≠ []) :
    freeSlot arr₀ half f N (p ++ [pos]) = freeSlot arr₀ half f N p := by
  cases p with
  | nil => contradiction
  | cons y rest =>
    rw [freeSlot_append, freeSlot, low]
    cases lowY : isLow arr₀ half y
    · rw [filter_cons_of_false rest lowY] at found
      simp only [Bool.false_eq_true, if_false, if_true]
      exact headD_of_ne_nil found _ _
    · simp

/-- A high record when there is one already frees no slot. -/
theorem freeSlot_high_found {p : List Nat} {pos : Nat} (high : isLow arr₀ half pos = false)
    (found : (p.filter fun i => !isLow arr₀ half i) ≠ []) :
    freeSlot arr₀ half f N (p ++ [pos]) = freeSlot arr₀ half f N p := by
  cases p with
  | nil => contradiction
  | cons y rest =>
    rw [freeSlot_append, freeSlot, high]
    cases lowY : isLow arr₀ half y
    · simp
    · rw [filter_cons_of_false rest (by simp [lowY])] at found
      simp only [if_true, Bool.not_false]
      exact headD_of_ne_nil found _ _

/-- Before any low record, the free slot is the bucket's own. -/
theorem freeSlot_of_noLow {p : List Nat} (nonempty : p ≠ []) (noLow : p.filter (isLow arr₀ half) = []) :
    freeSlot arr₀ half f N p = f := by
  cases p with
  | nil => contradiction
  | cons y rest =>
    cases lowY : isLow arr₀ half y
    · rw [filter_cons_of_false rest lowY] at noLow
      simp [freeSlot, lowY, noLow]
    · rw [filter_cons_of_true rest lowY] at noLow
      cases noLow

/-- Before any high record, the free slot is the new bucket's own. -/
theorem freeSlot_of_noHigh {p : List Nat} (noHigh : (p.filter fun i => !isLow arr₀ half i) = []) :
    freeSlot arr₀ half f N p = N := by
  cases p with
  | nil => rfl
  | cons y rest =>
    cases lowY : isLow arr₀ half y
    · rw [filter_cons_of_true rest (by simp [lowY])] at noHigh
      cases noHigh
    · rw [filter_cons_of_false rest (by simp [lowY])] at noHigh
      simp [freeSlot, lowY, noHigh]

/-- The first low record after a high one frees its slot. -/
theorem freeSlot_low_first {p : List Nat} {pos : Nat} (low : isLow arr₀ half pos = true) (nonempty : p ≠ [])
    (noLow : p.filter (isLow arr₀ half) = []) :
    freeSlot arr₀ half f N (p ++ [pos]) = pos := by
  cases p with
  | nil => contradiction
  | cons y rest =>
    cases lowY : isLow arr₀ half y
    · rw [filter_cons_of_false rest lowY] at noLow
      rw [freeSlot_append]
      simp [lowY, low, noLow]
    · rw [filter_cons_of_true rest lowY] at noLow
      cases noLow

/-- The first high record frees its slot. -/
theorem freeSlot_high_first {p : List Nat} {pos : Nat} (high : isLow arr₀ half pos = false)
    (noHigh : (p.filter fun i => !isLow arr₀ half i) = []) (start : p = [] → pos = f) :
    freeSlot arr₀ half f N (p ++ [pos]) = pos := by
  cases p with
  | nil =>
    obtain rfl := start rfl
    simp [freeSlot, high]
  | cons y rest =>
    cases lowY : isLow arr₀ half y
    · rw [filter_cons_of_true rest (by simp [lowY])] at noHigh
      cases noHigh
    · rw [filter_cons_of_false rest (by simp [lowY])] at noHigh
      rw [freeSlot_append]
      simp [lowY, high, noHigh]

end Free

/-! ### Where the two sides' records go -/

/-- The slot `b` put before `l₂` and `a` moved to the end. -/
theorem perm_move {a b : Nat} {l₁ l₂ t : List Nat} (rest : (a :: (l₁ ++ l₂)).Perm t) :
    (l₁ ++ b :: l₂ ++ [a]).Perm (t ++ [b]) :=
  calc (l₁ ++ b :: l₂ ++ [a]).Perm (a :: (l₁ ++ b :: l₂)) := List.perm_append_singleton _ _
    _ |>.Perm (a :: b :: (l₁ ++ l₂)) := List.Perm.cons a List.perm_middle
    _ |>.Perm (b :: a :: (l₁ ++ l₂)) := List.Perm.swap _ _ _
    _ |>.Perm (b :: t) := List.Perm.cons b rest
    _ |>.Perm (t ++ [b]) := (List.perm_append_singleton _ _).symm

/-- The split deals the chain's records to the chain's slots and the new
bucket's slot, and leaves one of these slots free. -/
theorem split_slots_perm (t : List Nat) :
    (targets f ((f :: t).filter (isLow arr₀ half)) ++ targets N ((f :: t).filter fun i => !isLow arr₀ half i) ++
      [freeSlot arr₀ half f N (f :: t)]).Perm (f :: t ++ [N]) := by
  have parts := List.filter_append_perm (isLow arr₀ half) t
  cases lowF : isLow arr₀ half f
  · -- the first record is high: it goes to slot `N`, and the first low one to slot `f`
    rw [filter_cons_of_false t lowF, filter_cons_of_true t (by simp [lowF])]
    simp only [freeSlot, lowF, Bool.false_eq_true, if_false]
    cases lows : t.filter (isLow arr₀ half) with
    | nil =>
      rw [lows, List.nil_append] at parts
      exact perm_move (List.Perm.cons f parts)
    | cons x rest =>
      rw [lows] at parts
      simp only [targets, List.headD_cons, List.cons_append]
      exact List.Perm.cons f (perm_move parts)
  · -- the first record is low: it stays, and the first high one goes to slot `N`
    rw [filter_cons_of_true t lowF, filter_cons_of_false t (by simp [lowF])]
    simp only [freeSlot, lowF, if_true]
    cases highs : t.filter (fun i => !isLow arr₀ half i) with
    | nil =>
      rw [highs, List.append_nil] at parts
      simpa [targets] using List.Perm.append_right [N] (List.Perm.cons f parts)
    | cons y rest =>
      rw [highs] at parts
      simp only [targets, List.headD_cons, List.cons_append]
      exact List.Perm.cons f (perm_move (List.perm_middle.symm.trans parts))

theorem highTargets_mem {arr₀ : Nat → HashLink ρ} {half N : Nat} {p : List Nat} {j : Nat}
    (mem : j ∈ targets N (p.filter fun i => !isLow arr₀ half i)) : j = N ∨ j ∈ p := by
  rcases mem_targets mem with same | later
  · exact Or.inl same
  · exact Or.inr (List.mem_of_mem_filter (List.mem_of_mem_tail later))

section Targets

variable {arr₀ half f N} {p : List Nat} (distinct : p.Nodup) (start : ∀ y ∈ p.head?, y = f) (outside : N ∉ p)
include distinct start outside

theorem head_mem_of_filter {q : Nat → Bool} (nonempty : p.filter q ≠ []) : f ∈ p := by
  cases p with
  | nil => simp at nonempty
  | cons y rest => simp [start y rfl]

theorem lowTargets_mem {j : Nat} (mem : j ∈ targets f (p.filter (isLow arr₀ half))) : j ∈ p := by
  have nonempty : p.filter (isLow arr₀ half) ≠ [] := by rintro empty; simp [empty, targets] at mem
  rcases mem_targets mem with rfl | later
  · exact head_mem_of_filter distinct start outside nonempty
  · exact List.mem_of_mem_filter (List.mem_of_mem_tail later)

/-- A side's records after the first are later slots of the chain than the
bucket's own. -/
theorem head_not_mem_tail (q : Nat → Bool) : f ∉ (p.filter q).tail := by
  intro mem
  cases p with
  | nil => simp at mem
  | cons y rest =>
    obtain rfl := start y rfl
    exact (List.nodup_cons.mp distinct).1 (tail_filter_subset q _ mem)

theorem lowTargets_nodup : (targets f (p.filter (isLow arr₀ half))).Nodup := by
  cases xs : p.filter (isLow arr₀ half) with
  | nil => simp [targets]
  | cons y rest =>
    have tail := head_not_mem_tail distinct start outside (isLow arr₀ half)
    have whole := distinct.filter (isLow arr₀ half)
    rw [xs] at tail whole
    exact List.nodup_cons.mpr ⟨tail, (List.nodup_cons.mp whole).2⟩

omit start in
theorem highTargets_nodup : (targets N (p.filter fun i => !isLow arr₀ half i)).Nodup := by
  cases xs : p.filter (fun i => !isLow arr₀ half i) with
  | nil => simp [targets]
  | cons y rest =>
    have whole := distinct.filter (fun i => !isLow arr₀ half i)
    rw [xs] at whole
    refine List.nodup_cons.mpr ⟨fun mem => outside ?_, (List.nodup_cons.mp whole).2⟩
    have : N ∈ p.filter (fun i => !isLow arr₀ half i) := by rw [xs]; exact List.mem_cons_of_mem y mem
    exact List.mem_of_mem_filter this

/-- The two sides go to different slots. -/
theorem targets_disjoint {j : Nat} (low : j ∈ targets f (p.filter (isLow arr₀ half)))
    (high : j ∈ targets N (p.filter fun i => !isLow arr₀ half i)) : False := by
  have inP := lowTargets_mem distinct start outside low
  rcases highTargets_mem high with rfl | _
  · exact outside inP
  rcases mem_targets high with rfl | highLater
  · exact outside inP
  rcases mem_targets low with rfl | lowLater
  · exact head_not_mem_tail distinct start outside _ highLater
  · have isLowJ := (List.mem_filter.mp (List.mem_of_mem_tail lowLater)).2
    have isHighJ := (List.mem_filter.mp (List.mem_of_mem_tail highLater)).2
    simp [isLowJ] at isHighJ

end Targets

theorem splitInv_start [Inhabited ρ] :
    SplitInv arr₀ half f N [] false false ⟨arr₀, 0, N, 0, 0, default, 0, default, 0⟩ :=
  ⟨rfl, SideInv.nil, SideInv.nil, fun _ _ _ => rfl, rfl⟩

section Step

variable {arr₀ half f N} {p : List Nat} {pos : Nat} {lu hu : Bool} {st : SplitState ρ}

/-- The two bits `LOWUSED` and `HIGHUSED` are never set together: each says
that the last slot walked is of its side. -/
theorem SplitInv.not_both (inv : SplitInv arr₀ half f N p true hu st) : hu = false := by
  cases hu
  · rfl
  obtain ⟨x, lowX, lastX⟩ := inv.low.last_of_used
  obtain ⟨y, highY, lastY⟩ := inv.high.last_of_used
  obtain rfl : x = y := Option.some.inj (lastX.symm.trans lastY)
  have isLowX := (List.mem_filter.mp lowX).2
  have isHighX := (List.mem_filter.mp highY).2
  simp [isLowX] at isHighX

theorem eq_nil_of_filters {p : List Nat} (noLow : p.filter (isLow arr₀ half) = [])
    (noHigh : (p.filter fun i => !isLow arr₀ half i) = []) : p = [] := by
  apply List.eq_nil_iff_forall_not_mem.mpr
  intro x mem
  cases lowX : isLow arr₀ half x
  · exact List.filter_eq_nil_iff.mp noHigh x mem (by simp [lowX])
  · exact List.filter_eq_nil_iff.mp noLow x mem lowX

/-- One round of the split loop on a low record keeps the invariant, and the
record's slot still holds its link. -/
theorem SplitInv.step_low (inv : SplitInv arr₀ half f N p lu hu st) (distinct : (p ++ [pos]).Nodup)
    (start : ∀ y ∈ (p ++ [pos]).head?, y = f) (outside : N ∉ p ++ [pos])
    (order : ∀ x ∈ p.getLast?, links arr₀ x = pos) (low : isLow arr₀ half pos = true) :
    (∃ lu' hu', SplitInv arr₀ half f N (p ++ [pos]) lu' hu' (splitStep half st pos)) ∧
      (splitStep half st pos).array pos = arr₀ pos := by
  have pDistinct : p.Nodup := (List.nodup_append.mp distinct).1
  have fresh : pos ∉ p := fun mem => (List.nodup_append.mp distinct).2.2 pos mem pos (by simp) rfl
  have notN : pos ≠ N := fun same => outside (by simp [same])
  have pStart : ∀ y ∈ p.head?, y = f := fun y mem => start y (by cases p <;> simp_all)
  have pOutside : N ∉ p := fun mem => outside (by simp [mem])
  have untouched : st.array pos = arr₀ pos := inv.frame pos fresh notN
  have lowKey : (st.array pos).hashNr &&& half = 0 := by
    rw [untouched]; simpa [isLow] using low
  have lows : (p ++ [pos]).filter (isLow arr₀ half) = p.filter (isLow arr₀ half) ++ [pos] := by
    simp [List.filter_append, low]
  have highs : ((p ++ [pos]).filter fun i => !isLow arr₀ half i) = p.filter fun i => !isLow arr₀ half i := by
    simp [List.filter_append, low]
  have frameKept : ∀ j ∉ p ++ [pos], j ≠ N → st.array j = arr₀ j :=
    fun j out other => inv.frame j (fun mem => out (by simp [mem])) other
  by_cases noLow : p.filter (isLow arr₀ half) = []
  · have lowSide := inv.low
    rw [noLow] at lowSide
    obtain rfl := lowSide.used_false
    by_cases noHigh : (p.filter fun i => !isLow arr₀ half i) = []
    · -- the chain's first record is low: it stays in the bucket's own slot
      obtain rfl := eq_nil_of_filters noLow noHigh
      obtain rfl : pos = f := start pos (by simp)
      have highSide := inv.high
      rw [noHigh] at highSide
      obtain rfl := highSide.used_false
      rw [splitStep_lowFirst (by simpa using inv.flag) lowKey]
      refine ⟨⟨true, false, ⟨?_, ?_, ?_, frameKept, ?_⟩⟩, untouched⟩
      · rw [lows, highs, noLow, noHigh]; rfl
      · rw [lows, noLow]
        exact sideInv_first untouched fun _ => rfl
      · rw [highs, noHigh]; exact SideInv.nil
      · rw [inv.empty, freeSlot_of_noHigh noHigh, freeSlot_of_noHigh (highs.trans noHigh)]
    · -- the first low record after a high one: it goes to the bucket's own slot, now free
      have nonempty : p ≠ [] := by rintro rfl; simp at noHigh
      have flag : st.flag = flagOf false false true hu := by rw [inv.flag, noLow, not_isEmpty noHigh]; rfl
      rw [splitStep_lowFirst_afterHigh flag lowKey]
      refine ⟨⟨false, false, ⟨?_, ?_, ?_, frameKept, ?_⟩⟩, untouched⟩
      · rw [lows, highs, not_isEmpty_concat, not_isEmpty noHigh]
      · rw [lows, noLow]
        simp only [inv.empty, freeSlot_of_noLow nonempty noLow, List.nil_append]
        exact sideInv_first untouched fun used => by cases used
      · rw [highs]; exact inv.high.forget
      · exact (freeSlot_low_first low nonempty noLow).symm
  · have lowMem : st.gpos ∈ targets f (p.filter (isLow arr₀ half)) := inv.low.gpos_mem noLow
    have gposInP : st.gpos ∈ p := lowTargets_mem pDistinct pStart pOutside lowMem
    have notTarget : pos ∉ targets f (p.filter (isLow arr₀ half)) :=
      fun mem => fresh (lowTargets_mem pDistinct pStart pOutside mem)
    cases lu
    · -- a later low record after a high one: the pending low record is written, linked to it
      have flag : st.flag = flagOf true false (!(p.filter fun i => !isLow arr₀ half i).isEmpty) hu := by
        rw [inv.flag, not_isEmpty noLow]
      rw [splitStep_lowLink flag lowKey]
      have other : ∀ j, j ≠ st.gpos → setLink st.array st.gpos ⟨pos, st.recHashNr, st.recData⟩ j = st.array j :=
        fun j ne => setLink_ne _ _ ne
      refine ⟨⟨true, false, ⟨?_, ?_, ?_, ?_, ?_⟩⟩, ?_⟩
      · rw [lows, highs, not_isEmpty_concat]
      · rw [lows]
        exact inv.low.link noLow (lowTargets_nodup pDistinct pStart pOutside) notTarget untouched
      · rw [highs]
        refine (inv.high.congr fun j mem => other j fun same => ?_).forget
        exact targets_disjoint pDistinct pStart pOutside (same ▸ lowMem) mem
      · intro j out notN'
        exact (other j fun same => out (by simp [same, gposInP])).trans (frameKept j out notN')
      · rw [freeSlot_low_found low noLow]; exact inv.empty
      · exact (other pos fun same => fresh (same ▸ gposInP)).trans untouched
    · -- a later low record right after the pending one, in place
      obtain rfl := inv.not_both
      have flag : st.flag = flagOf true true (!(p.filter fun i => !isLow arr₀ half i).isEmpty) false := by
        rw [inv.flag, not_isEmpty noLow]
      rw [splitStep_lowNext flag lowKey]
      refine ⟨⟨true, false, ⟨?_, ?_, ?_, frameKept, ?_⟩⟩, untouched⟩
      · rw [lows, highs, not_isEmpty_concat, ← flag]
      · rw [lows]
        exact inv.low.next order untouched
      · rw [highs]; exact inv.high.forget
      · rw [freeSlot_low_found low noLow]; exact inv.empty

/-- One round of the split loop on a high record keeps the invariant, and
the record's slot still holds its link. -/
theorem SplitInv.step_high (inv : SplitInv arr₀ half f N p lu hu st) (distinct : (p ++ [pos]).Nodup)
    (start : ∀ y ∈ (p ++ [pos]).head?, y = f) (outside : N ∉ p ++ [pos])
    (order : ∀ x ∈ p.getLast?, links arr₀ x = pos) (high : isLow arr₀ half pos = false) :
    (∃ lu' hu', SplitInv arr₀ half f N (p ++ [pos]) lu' hu' (splitStep half st pos)) ∧
      (splitStep half st pos).array pos = arr₀ pos := by
  have pDistinct : p.Nodup := (List.nodup_append.mp distinct).1
  have fresh : pos ∉ p := fun mem => (List.nodup_append.mp distinct).2.2 pos mem pos (by simp) rfl
  have notN : pos ≠ N := fun same => outside (by simp [same])
  have pStart : ∀ y ∈ p.head?, y = f := fun y mem => start y (by cases p <;> simp_all)
  have pOutside : N ∉ p := fun mem => outside (by simp [mem])
  have untouched : st.array pos = arr₀ pos := inv.frame pos fresh notN
  have highKey : (st.array pos).hashNr &&& half ≠ 0 := by
    rw [untouched]; simpa [isLow] using high
  have lows : (p ++ [pos]).filter (isLow arr₀ half) = p.filter (isLow arr₀ half) := by
    simp [List.filter_append, high]
  have highs : ((p ++ [pos]).filter fun i => !isLow arr₀ half i) = (p.filter fun i => !isLow arr₀ half i) ++ [pos] := by
    simp [List.filter_append, high]
  have frameKept : ∀ j ∉ p ++ [pos], j ≠ N → st.array j = arr₀ j :=
    fun j out other => inv.frame j (fun mem => out (by simp [mem])) other
  by_cases noHigh : (p.filter fun i => !isLow arr₀ half i) = []
  · -- the first high record: it goes to the new bucket's own slot, and its slot becomes free
    have highSide := inv.high
    rw [noHigh] at highSide
    obtain rfl := highSide.used_false
    have flag : st.flag = flagOf (!(p.filter (isLow arr₀ half)).isEmpty) lu false false := by
      rw [inv.flag, noHigh]; rfl
    rw [splitStep_highFirst flag highKey]
    refine ⟨⟨false, false, ⟨?_, ?_, ?_, frameKept, ?_⟩⟩, untouched⟩
    · rw [lows, highs, not_isEmpty_concat]
    · rw [lows]; exact inv.low.forget
    · rw [highs, noHigh]
      simp only [inv.empty, freeSlot_of_noHigh noHigh, List.nil_append]
      exact sideInv_first untouched fun used => by cases used
    · exact (freeSlot_high_first high noHigh fun empty => start pos (by simp [empty])).symm
  · have highMem : st.gpos2 ∈ targets N (p.filter fun i => !isLow arr₀ half i) := inv.high.gpos_mem noHigh
    have gpos2Old : st.gpos2 = N ∨ st.gpos2 ∈ p := highTargets_mem highMem
    have notTarget : pos ∉ targets N (p.filter fun i => !isLow arr₀ half i) := fun mem => by
      rcases highTargets_mem mem with same | inP
      · exact notN same
      · exact fresh inP
    cases hu
    · -- a later high record after a low one: the pending high record is written, linked to it
      have flag : st.flag = flagOf (!(p.filter (isLow arr₀ half)).isEmpty) lu true false := by
        rw [inv.flag, not_isEmpty noHigh]
      rw [splitStep_highLink flag highKey]
      have other : ∀ j, j ≠ st.gpos2 → setLink st.array st.gpos2 ⟨pos, st.rec2HashNr, st.rec2Data⟩ j = st.array j :=
        fun j ne => setLink_ne _ _ ne
      refine ⟨⟨false, true, ⟨?_, ?_, ?_, ?_, ?_⟩⟩, ?_⟩
      · rw [lows, highs, not_isEmpty_concat]
      · rw [lows]
        refine (inv.low.congr fun j mem => other j fun same => ?_).forget
        exact targets_disjoint pDistinct pStart pOutside mem (same ▸ highMem)
      · rw [highs]
        exact inv.high.link noHigh (highTargets_nodup pDistinct pOutside) notTarget untouched
      · intro j out notN'
        refine (other j fun same => ?_).trans (frameKept j out notN')
        rcases gpos2Old with isN | inP
        · exact notN' (same.trans isN)
        · exact out (by simp [same, inP])
      · rw [freeSlot_high_found high noHigh]; exact inv.empty
      · exact (other pos fun same => notTarget (same ▸ highMem)).trans untouched
    · -- a later high record right after the pending one, in place
      obtain rfl : lu = false := by
        cases lu
        · rfl
        · exact absurd inv.not_both (by decide)
      have flag : st.flag = flagOf (!(p.filter (isLow arr₀ half)).isEmpty) false true true := by
        rw [inv.flag, not_isEmpty noHigh]
      rw [splitStep_highNext flag highKey]
      refine ⟨⟨false, true, ⟨?_, ?_, ?_, frameKept, ?_⟩⟩, untouched⟩
      · rw [lows, highs, not_isEmpty_concat, ← flag]
      · rw [lows]; exact inv.low.forget
      · rw [highs]
        exact inv.high.next order untouched
      · rw [freeSlot_high_found high noHigh]; exact inv.empty

/-- After a slot of the chain the split state has a `flag`. -/
theorem SplitInv.flag_ne_zero (inv : SplitInv arr₀ half f N p lu hu st) (nonempty : p ≠ []) : st.flag ≠ 0 := by
  rw [inv.flag, ne_eq, flagOf_eq_zero]
  rintro ⟨noLow, -, noHigh, -⟩
  exact nonempty (eq_nil_of_filters (by simpa using noLow) (by simpa using noHigh))

/-- One round of the split loop keeps the invariant, and the slot walked
still holds its link. -/
theorem SplitInv.step (inv : SplitInv arr₀ half f N p lu hu st) (distinct : (p ++ [pos]).Nodup)
    (start : ∀ y ∈ (p ++ [pos]).head?, y = f) (outside : N ∉ p ++ [pos])
    (order : ∀ x ∈ p.getLast?, links arr₀ x = pos) :
    (∃ lu' hu', SplitInv arr₀ half f N (p ++ [pos]) lu' hu' (splitStep half st pos)) ∧
      (splitStep half st pos).array pos = arr₀ pos := by
  cases low : isLow arr₀ half pos
  · exact inv.step_high distinct start outside order low
  · exact inv.step_low distinct start outside order low

end Step

/-! ### The whole walk -/

section Run

variable {arr₀ half f N} {B : Nat} {l : List Nat}
variable (linked : Linked (links arr₀) noRecord l) (distinct : l.Nodup) (start : l.head? = some f)
  (outside : N ∉ l) (noRec : noRecord ∉ l) (own : myHashMask (arr₀ f).hashNr B N = f)

include start outside own in
/-- The split loop goes on past its first round: the bucket's own slot holds
a record of the bucket. -/
theorem splitLoop_continue {p r : List Nat} {pos : Nat} {st : SplitState ρ} {lu hu : Bool}
    (inv : SplitInv arr₀ half f N p lu hu st) (split : p ++ pos :: r = l) (fuel : Nat) :
    splitLoop B N f half (fuel + 1) st pos =
      if ((splitStep half st pos).array pos).next = noRecord then splitStep half st pos
      else splitLoop B N f half fuel (splitStep half st pos) ((splitStep half st pos).array pos).next := by
  rw [splitLoop, if_neg]
  rintro ⟨noFlag, other⟩
  cases p with
  | nil =>
    obtain rfl : pos = f := by simpa [← split] using start
    have notN : pos ≠ N := fun same => outside (by simp [← split, same])
    exact other (by rw [inv.frame pos (by simp) notN, own])
  | cons y p => exact inv.flag_ne_zero (by simp) noFlag

include linked distinct start outside in
/-- What the walk knows at the slot `pos` of the chain. -/
theorem chain_prefix {p r : List Nat} {pos : Nat} (split : p ++ pos :: r = l) :
    (p ++ [pos]).Nodup ∧ (∀ y ∈ (p ++ [pos]).head?, y = f) ∧ N ∉ p ++ [pos] ∧
      (∀ x ∈ p.getLast?, links arr₀ x = pos) ∧ links arr₀ pos = r.headD noRecord := by
  have whole : l = (p ++ [pos]) ++ r := by rw [← split]; simp
  rw [← split] at linked
  refine ⟨distinct.sublist (whole ▸ List.sublist_append_left _ _), fun y mem => ?_,
    fun mem => outside (whole ▸ List.mem_append_left _ mem), (linked_append.mp linked).1.last,
    (linked_cons.mp (linked_append.mp linked).2).1⟩
  have same : (p ++ [pos]).head? = l.head? := by rw [whole, List.head?_append]; cases p <;> simp
  rw [same, start] at mem
  exact (Option.mem_some_iff.mp mem).symm

include linked distinct start outside noRec own in
/-- The split loop run over the chain from any slot of it keeps the
invariant to the chain's end. -/
theorem splitLoop_run :
    ∀ (r p : List Nat) (pos : Nat) (st : SplitState ρ) (lu hu : Bool) (fuel : Nat),
      p ++ pos :: r = l → SplitInv arr₀ half f N p lu hu st → r.length < fuel →
        ∃ lu' hu', SplitInv arr₀ half f N l lu' hu' (splitLoop B N f half fuel st pos) := by
  intro r
  induction r with
  | nil =>
    intro p pos st lu hu fuel split inv room
    obtain ⟨fuel, rfl⟩ := exists_succ_of_lt room
    obtain ⟨distinct', start', outside', order, last⟩ := chain_prefix linked distinct start outside split
    obtain ⟨⟨lu', hu', inv'⟩, kept⟩ := inv.step distinct' start' outside' order
    have stop : ((splitStep half st pos).array pos).next = noRecord := by rw [kept]; exact last
    rw [splitLoop_continue start outside own inv split, if_pos stop, ← split]
    exact ⟨lu', hu', inv'⟩
  | cons next r ih =>
    intro p pos st lu hu fuel split inv room
    obtain ⟨fuel, rfl⟩ := exists_succ_of_lt room
    obtain ⟨distinct', start', outside', order, link⟩ := chain_prefix linked distinct start outside split
    obtain ⟨⟨lu', hu', inv'⟩, kept⟩ := inv.step distinct' start' outside' order
    have follows : ((splitStep half st pos).array pos).next = next := by rw [kept]; exact link
    have more : next ≠ noRecord := fun same => noRec (by simp [← split, same])
    rw [splitLoop_continue start outside own inv split, follows, if_neg more]
    exact ih (p ++ [pos]) next _ lu' hu' fuel (by simp [← split]) inv' (by simp at room; omega)

include linked distinct start outside in
/-- The end of the split: each side's chain complete from its own slot, the
slots off the chain and the new bucket's slot as they were, and the free
slot. -/
theorem SplitInv.finish {lu hu : Bool} {st : SplitState ρ} (inv : SplitInv arr₀ half f N l lu hu st) :
    (l.filter (isLow arr₀ half) ≠ [] → Final arr₀ f (splitFinish st).array (l.filter (isLow arr₀ half))) ∧
      ((l.filter fun i => !isLow arr₀ half i) ≠ [] →
        Final arr₀ N (splitFinish st).array (l.filter fun i => !isLow arr₀ half i)) ∧
      (∀ j ∉ l, j ≠ N → (splitFinish st).array j = arr₀ j) ∧ (splitFinish st).empty = freeSlot arr₀ half f N l := by
  have lStart : ∀ y ∈ l.head?, y = f := fun y mem => by
    rw [start] at mem; exact (Option.mem_some_iff.mp mem).symm
  have last : ∀ x ∈ l.getLast?, links arr₀ x = noRecord := linked.last
  -- the two writes of `splitFinish`, one for each side whose last record is pending
  set arr₁ := if st.flag &&& (lowfind ||| lowused) = lowfind then
    setLink st.array st.gpos ⟨noRecord, st.recHashNr, st.recData⟩ else st.array with hArr₁
  set arr₂ := if st.flag &&& (highfind ||| highused) = highfind then
    setLink arr₁ st.gpos2 ⟨noRecord, st.rec2HashNr, st.rec2Data⟩ else arr₁ with hArr₂
  have finishArray : (splitFinish st).array = arr₂ := by
    simp only [splitFinish, hArr₂, hArr₁]
    split_ifs <;> rfl
  have finishEmpty : (splitFinish st).empty = st.empty := by
    simp only [splitFinish]
    split_ifs <;> rfl
  have lowWrite : st.flag &&& (lowfind ||| lowused) = lowfind ↔
      (!(l.filter (isLow arr₀ half)).isEmpty) = true ∧ lu = false := by
    rw [inv.flag, flagOf_lowPending]
  have highWrite : st.flag &&& (highfind ||| highused) = highfind ↔
      (!(l.filter fun i => !isLow arr₀ half i).isEmpty) = true ∧ hu = false := by
    rw [inv.flag, flagOf_highPending]
  -- each write is at a target of its own side
  have lowAt : st.flag &&& (lowfind ||| lowused) = lowfind → st.gpos ∈ targets f (l.filter (isLow arr₀ half)) :=
    fun write => inv.low.gpos_mem (by simpa using (lowWrite.mp write).1)
  have highAt : st.flag &&& (highfind ||| highused) = highfind →
      st.gpos2 ∈ targets N (l.filter fun i => !isLow arr₀ half i) :=
    fun write => inv.high.gpos_mem (by simpa using (highWrite.mp write).1)
  have arr₁Off : ∀ j, j ∉ targets f (l.filter (isLow arr₀ half)) → arr₁ j = st.array j := by
    intro j off
    simp only [hArr₁]
    split_ifs with write
    · exact setLink_ne _ _ fun same => off (same ▸ lowAt write)
    · rfl
  have arr₂Off : ∀ j, j ∉ targets N (l.filter fun i => !isLow arr₀ half i) → arr₂ j = arr₁ j := by
    intro j off
    simp only [hArr₂]
    split_ifs with write
    · exact setLink_ne _ _ fun same => off (same ▸ highAt write)
    · rfl
  have lowFinal₁ : l.filter (isLow arr₀ half) ≠ [] → Final arr₀ f arr₁ (l.filter (isLow arr₀ half)) := by
    intro nonempty
    cases lu
    · rw [hArr₁, if_pos (lowWrite.mpr ⟨not_isEmpty nonempty, rfl⟩)]
      exact inv.low.finish_write nonempty (lowTargets_nodup distinct lStart outside)
    · rw [hArr₁, if_neg fun write => by simpa using (lowWrite.mp write).2]
      exact inv.low.finish_used last
  have highSide₁ := inv.high.congr fun j mem =>
    arr₁Off j fun low => targets_disjoint distinct lStart outside low mem
  have highFinal₂ : (l.filter fun i => !isLow arr₀ half i) ≠ [] →
      Final arr₀ N arr₂ (l.filter fun i => !isLow arr₀ half i) := by
    intro nonempty
    cases hu
    · rw [hArr₂, if_pos (highWrite.mpr ⟨not_isEmpty nonempty, rfl⟩)]
      exact highSide₁.finish_write nonempty (highTargets_nodup distinct outside)
    · rw [hArr₂, if_neg fun write => by simpa using (highWrite.mp write).2]
      exact highSide₁.finish_used last
  refine ⟨fun nonempty => ?_, fun nonempty => finishArray ▸ highFinal₂ nonempty, ?_, finishEmpty.trans inv.empty⟩
  · rw [finishArray]
    exact (lowFinal₁ nonempty).congr fun j mem =>
      arr₂Off j fun high => targets_disjoint distinct lStart outside mem high
  · intro j off notN
    have notLow : j ∉ targets f (l.filter (isLow arr₀ half)) :=
      fun mem => off (lowTargets_mem distinct lStart outside mem)
    have notHigh : j ∉ targets N (l.filter fun i => !isLow arr₀ half i) := fun mem => by
      rcases highTargets_mem mem with same | inL
      · exact notN same
      · exact off inL
    rw [finishArray, arr₂Off j notHigh, arr₁Off j notLow, inv.frame j off notN]

end Run

end Walk

end MariaDB.MysysHash
