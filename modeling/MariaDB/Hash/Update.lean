import MariaDB.Hash.Delete

set_option autoImplicit false

/- `my_hash_update` on a valid index after one record's key changed: its
duplicate check, the search of the record from its old key, and its move
to the bucket of the new key. -/

namespace MariaDB.MysysHash

open ThreadedChain

variable {ρ : Type}

/-! ## The phases of `my_hash_update` -/

section Phases

/-- The relink of `my_hash_update` after the unlink: the record's old link
`orgLink`, with the new hash number, goes to its new bucket's slot
`newIndex` when that slot is free or holds a record of another bucket, and
otherwise to the free slot `empty` right behind the bucket's own slot. -/
def updatePlace (bucket : Nat → Nat) (fuel : Nat) (data : Nat → HashLink ρ) (idx empty : Nat)
    (orgLink : HashLink ρ) (hashNr : Nat) : Nat → HashLink ρ :=
  let newIndex := bucket hashNr
  if newIndex = empty then
    let data := if empty ≠ idx then setLink data empty orgLink else data
    setLink data empty { data empty with next := noRecord, hashNr }
  else
    let newPosIndex := bucket (data newIndex).hashNr
    if newIndex ≠ newPosIndex then
      let data := movelink newIndex empty fuel (setLink data empty (data newIndex)) newPosIndex
      setLink data newIndex { orgLink with next := noRecord, hashNr }
    else
      let data := setLink data empty { orgLink with next := (data newIndex).next, hashNr }
      setNext data newIndex empty

variable {κ : Type} [DecidableEq ρ] (hd : HashDef κ) (key : ρ → κ)

/-- `my_hash_update` is its duplicate check, its search from the old key,
and either a new hash number in place or the unlink and the relink. -/
theorem myHashUpdate_eq (h : Hash ρ) (record : ρ) (oldKey : κ) :
    myHashUpdate hd key h record oldKey =
      if hd.unique ∧ duplicateLoop hd key h (key record) record (h.records + 1)
          (myHashFirstFromHashValue hd key h (recHashnr hd key record) (key record)) then (true, h)
      else
        match chainSearch h.array record (h.records + 1) (myHashMask (hd.hashFunction oldKey) h.blength h.records)
            none with
        | none => (true, h)
        | some (idx, previous) =>
          if myHashMask (hd.hashFunction oldKey) h.blength h.records =
              myHashMask (recHashnr hd key record) h.blength h.records then
            (false, { h with array := setLink h.array idx { h.array idx with hashNr := recHashnr hd key record } })
          else
            (false, { h with
              array := updatePlace (fun n => myHashMask n h.blength h.records) (h.records + 1)
                (unlinkRecord h.array idx previous).1 idx (unlinkRecord h.array idx previous).2 (h.array idx)
                (recHashnr hd key record) }) := by
  rfl

end Phases

/-! ## The duplicate check -/

section Duplicate

variable {κ : Type} {hd : HashDef κ} {key : ρ → κ} {h : Hash ρ} {k : κ}

/-- A stored slot links to a stored slot or to `NO_RECORD`. -/
theorem Threaded.next_lt (threaded : Threaded h) {i : Nat} (iLt : i < h.records) :
    (h.array i).next = noRecord ∨ (h.array i).next < h.records := by
  obtain ⟨l, chain, members⟩ := threaded.chained _ ⟨i, iLt, rfl⟩
  rcases chain.linked.next_mem ((members i).mpr ⟨iLt, rfl⟩) with mem | stop
  · exact Or.inr ((members _).mp mem).1
  · exact Or.inl stop

/-- `my_hash_first`'s loop from a stored slot finds a stored slot with the key. -/
theorem firstLoop_sound (threaded : Threaded h) {j : Nat} :
    ∀ {fuel : Nat} {flag : Bool} {idx : Nat}, idx < h.records → firstLoop hd key h k fuel flag idx = some j →
      j < h.records ∧ hashcmp hd key (h.array j) k = true := by
  intro fuel
  induction fuel with
  | zero => intro _ _ _ found; cases found
  | succ fuel ih =>
    intro flag idx idxLt found
    simp only [firstLoop] at found
    by_cases here : hashcmp hd key (h.array idx) k = true
    · rw [if_pos here, Option.some.injEq] at found
      exact found ▸ ⟨idxLt, here⟩
    rw [if_neg here] at found
    split_ifs at found with stop more
    rcases threaded.next_lt idxLt with last | nextLt
    · exact absurd last more
    · exact ih nextLt found

/-- `my_hash_next`'s loop from a stored slot or `NO_RECORD` finds a stored
slot with the key. -/
theorem nextLoop_sound (threaded : Threaded h) {j : Nat} :
    ∀ {fuel idx : Nat}, (idx = noRecord ∨ idx < h.records) → nextLoop hd key h k fuel idx = some j →
      j < h.records ∧ hashcmp hd key (h.array j) k = true := by
  intro fuel
  induction fuel with
  | zero => intro _ _ found; cases found
  | succ fuel ih =>
    intro idx idxOk found
    simp only [nextLoop] at found
    split_ifs at found with last here
    · rw [Option.some.injEq] at found
      exact found ▸ ⟨idxOk.resolve_left last, here⟩
    · exact ih (threaded.next_lt (idxOk.resolve_left last)) found

/-- The records a search reads from a found slot are stored records with the
key. -/
theorem searchRecords_sound (threaded : Threaded h) :
    ∀ {fuel : Nat} {cur : Option Nat}, (∀ j ∈ cur, j < h.records ∧ hashcmp hd key (h.array j) k = true) →
      ∀ x ∈ searchRecords hd key h k fuel cur, ∃ j < h.records, (h.array j).data = x ∧
        hashcmp hd key (h.array j) k = true := by
  intro fuel
  induction fuel with
  | zero => intro _ _ x mem; cases mem
  | succ fuel ih =>
    intro cur curOk x mem
    cases cur with
    | none => cases mem
    | some idx =>
      obtain ⟨idxLt, here⟩ := curOk idx rfl
      rcases List.mem_cons.mp mem with rfl | rest
      · exact ⟨idx, idxLt, rfl, here⟩
      · refine ih (fun j found => nextLoop_sound threaded (threaded.next_lt idxLt) found) x rest

/-- `my_hash_first_from_hash_value` finds a stored slot with the key. -/
theorem myHashFirstFromHashValue_sound (threaded : Threaded h) (hashValue : Nat) :
    ∀ j ∈ myHashFirstFromHashValue hd key h hashValue k, j < h.records ∧ hashcmp hd key (h.array j) k = true := by
  intro j found
  by_cases empty : h.records = 0
  · simp [myHashFirstFromHashValue, empty] at found
  rw [myHashFirstFromHashValue, if_neg empty] at found
  exact firstLoop_sound threaded (myHashMask_lt threaded.size (Nat.pos_of_ne_zero empty) _) found

/-- The duplicate check of `my_hash_update` asks whether the search reads a
record other than the one updated. -/
theorem duplicateLoop_eq_any [DecidableEq ρ] (record : ρ) :
    ∀ (fuel : Nat) (cur : Option Nat),
      duplicateLoop hd key h k record fuel cur = (searchRecords hd key h k fuel cur).any (· != record) := by
  intro fuel
  induction fuel with
  | zero => intro _; rfl
  | succ fuel ih =>
    intro cur
    cases cur with
    | none => rfl
    | some idx =>
      by_cases same : (h.array idx).data = record
      · simp [duplicateLoop, searchRecords, same, ih]
      · simp [duplicateLoop, searchRecords, same]

variable [DecidableEq ρ] {key₀ : ρ → κ} {record : ρ}

/-- On a valid index for the keys `key₀`, after the key of `record` changed
(the keys `key`), the duplicate check of `my_hash_update` finds exactly the
other stored records whose key equals the new one. -/
theorem duplicateLoop_iff (valid : Valid hd key₀ h) (consistent : Consistent hd)
    (agree : ∀ x, x ≠ record → key x = key₀ x) :
    duplicateLoop hd key h (key record) record (h.records + 1)
        (myHashFirstFromHashValue hd key h (recHashnr hd key record) (key record)) = true ↔
      ∃ x ∈ h.stored, x ≠ record ∧ hd.strnncollEq (key x) (key record) = true := by
  have threaded := valid.toThreaded
  rw [duplicateLoop_eq_any, List.any_eq_true]
  constructor
  · rintro ⟨x, mem, other⟩
    obtain ⟨j, jLt, rfl, equal⟩ := searchRecords_sound threaded (myHashFirstFromHashValue_sound threaded _) _ mem
    exact ⟨_, List.mem_map.mpr ⟨j, List.mem_range.mpr jLt, rfl⟩, by simpa using other, equal⟩
  · rintro ⟨x, mem, other, equal⟩
    obtain ⟨j, jMem, rfl⟩ := List.mem_map.mp mem
    have jLt := List.mem_range.mp jMem
    -- the other record kept its key, so it sits in the bucket of the new key
    have home : h.home j = myHashMask (hd.hashFunction (key record)) h.blength h.records := by
      rw [Hash.home, valid.hashNr_eq j jLt, recHashnr, ← agree _ other, consistent _ _ equal]
    have search : (myHashFirst hd key h (key record)).2 =
        myHashFirstFromHashValue hd key h (recHashnr hd key record) (key record) := rfl
    have read : (h.array j).data ∈ searchRecords hd key h (key record) (h.records + 1)
        (myHashFirst hd key h (key record)).2 := (searchRecords_bucket threaded ⟨j, jLt, home⟩).mem_iff.mpr
      (List.mem_map.mpr ⟨j, List.mem_filter.mpr ⟨jMem, by simp [home, hashcmp, equal]⟩, rfl⟩)
    rw [search] at read
    exact ⟨_, read, by simpa using other⟩

end Duplicate

/-! ## The relink -/

section Relink

variable {d : Nat → HashLink ρ} {M : Nat → Nat} {fuel idx e c : Nat} {o : HashLink ρ}

/-- The relink when the new bucket is the free slot: the record alone there. -/
theorem updatePlace_hole (self : M c = e) (same : e = idx → (d idx).data = o.data) :
    updatePlace M fuel d idx e o c = setLink d e ⟨noRecord, c, o.data⟩ := by
  funext j
  by_cases jE : j = e
  · subst jE
    by_cases eIdx : j = idx
    · simp [updatePlace, self, eIdx, same eIdx]
    · simp [updatePlace, self, eIdx]
  · by_cases eIdx : e = idx
    · subst eIdx
      simp [updatePlace, self, setLink_ne _ _ jE]
    · simp [updatePlace, self, eIdx, setLink_ne _ _ jE]

/-- The relink when the new bucket's slot holds a record of that bucket: the
record goes to the free slot, right behind the bucket's slot. -/
theorem updatePlace_head (ne : M c ≠ e) (occupant : M (d (M c)).hashNr = M c) :
    updatePlace M fuel d idx e o c = setNext (setLink d e ⟨(d (M c)).next, c, o.data⟩) (M c) e := by
  simp only [updatePlace, if_neg ne, occupant, ne_eq, not_true_eq_false, if_false]

/-- The relink when the new bucket's slot holds a record of another bucket,
whose chain reaches the slot from `p`: that record moves to the free slot. -/
theorem updatePlace_moved {p : Nat} (ne : M c ≠ e) (occupant : M (d (M c)).hashNr ≠ M c)
    (path : movelink (M c) e fuel (setLink d e (d (M c))) (M (d (M c)).hashNr) = setNext (setLink d e (d (M c))) p e) :
    updatePlace M fuel d idx e o c = setLink (setNext (setLink d e (d (M c))) p e) (M c) ⟨noRecord, c, o.data⟩ := by
  have turn : M c ≠ M (d (M c)).hashNr := fun same => occupant same.symm
  simp only [updatePlace, if_neg ne, ne_eq, turn, not_false_eq_true, if_true, path]

/-- A written slot's contents are the hash number and record written. -/
theorem content_setLink (array : Nat → HashLink ρ) (i : Nat) (link : HashLink ρ) :
    content (setLink array i link) = Function.update (content array) i (link.hashNr, link.data) := by
  funext j
  by_cases ji : j = i
  · subst ji
    simp [content]
  · simp [content, setLink_ne _ _ ji, ji]

/-- When the record stays at the free slot, the other slots keep their
records. -/
theorem updatePlace_content_stay (stay : M c = e ∨ M (d (M c)).hashNr = M c)
    (same : e = idx → (d idx).data = o.data) :
    content (updatePlace M fuel d idx e o c) = Function.update (content d) e (c, o.data) := by
  by_cases self : M c = e
  · rw [updatePlace_hole self same, content_setLink]
  · rw [updatePlace_head self (stay.resolve_left self), content_setNext, content_setLink]

/-- When the record takes its bucket's slot, that slot's record moves to the
free slot. -/
theorem updatePlace_content_moved (ne : M c ≠ e) (occupant : M (d (M c)).hashNr ≠ M c) (i : Nat) :
    content (updatePlace M fuel d idx e o c) i =
      if i = M c then (c, o.data) else if i = e then content d (M c) else content d i := by
  have turn : M c ≠ M (d (M c)).hashNr := fun same => occupant same.symm
  simp only [updatePlace, if_neg ne, ne_eq, turn, not_false_eq_true, if_true, content_setLink, content_movelink,
    Function.update_apply]
  rfl

/-- The relink keeps the records of the slots below `n` but the free one,
and adds the record with its new hash number. -/
theorem updatePlace_contents {n : Nat} (eLt : e < n) (inRange : M c < n) (same : e = idx → (d idx).data = o.data) :
    ((List.range n).map (content (updatePlace M fuel d idx e o c))).Perm
      ((c, o.data) :: ((List.range n).filter (· ≠ e)).map (content d)) := by
  by_cases stay : M c = e ∨ M (d (M c)).hashNr = M c
  · rw [updatePlace_content_stay stay same]
    exact perm_place eLt eLt fun i => by by_cases iE : i = e <;> simp [iE]
  · obtain ⟨ne, occupant⟩ := not_or.mp stay
    exact perm_place inRange eLt (updatePlace_content_moved ne occupant)

/-- The relink chains every slot below `n`: the free slot is used again. -/
theorem updatePlace_chained {n : Nat} (chained : Chained d M (fun i => i < n ∧ i ≠ e)) (eLt : e < n)
    (inRange : ∀ m, M m < n) (enough : n ≤ fuel) (same : e = idx → (d idx).data = o.data) (c : Nat) :
    Chained (updatePlace M fuel d idx e o c) M (· < n) := by
  by_cases self : M c = e
  · rw [updatePlace_hole self same]
    exact chained.fill_hole eLt self (setLink_same ..) fun i ne => setLink_ne _ _ ne
  have idxUsed : M c < n ∧ M c ≠ e := ⟨inRange c, self⟩
  by_cases occupant : M (d (M c)).hashNr = M c
  · -- the record joins its bucket behind the bucket's own slot
    rw [updatePlace_head self occupant]
    refine chained.push_head eLt idxUsed.1 self occupant ⟨links_setNext_same .., ?_⟩ ⟨?_, ?_⟩ fun i iIdx iE => ?_
    · rw [setNext, setLink_same, setLink_ne _ _ self, occupant]
    · rw [links_setNext_ne _ _ (Ne.symm self), links, setLink_same, links]
    · rw [setNext, setLink_ne _ _ (Ne.symm self), setLink_same]
    · rw [setNext, setLink_ne _ _ iIdx, setLink_ne _ _ iE]
  -- the occupant goes to the free slot, reached from its predecessor
  obtain ⟨U, p, v, chain, members, last, pIdx, pE, path⟩ := chained.occupant_path idxUsed occupant
    (setLink d e (d (M c))) (fun i _ iE => by rw [links, links, setLink_ne _ _ iE]) e enough
  rw [updatePlace_moved self occupant path]
  refine chained.relocate eLt chain members last rfl occupant (setLink_same ..) ?_ ?_ fun i iIdx iE iP => ?_
  · rw [setLink_ne _ _ (Ne.symm self), setNext, setLink_ne _ _ (Ne.symm pE), setLink_same]
  · rw [setLink_ne _ _ pIdx, setNext, setLink_same, setLink_ne _ _ pE]
  · rw [setLink_ne _ _ iIdx, setNext, setLink_ne _ _ iP, setLink_ne _ _ iE]

/-- When the unlink frees the record's own slot, the slot still holds the
record. -/
theorem unlinkRecord_data (data : Nat → HashLink ρ) (pos : Nat) (previous : Option Nat)
    (free : (unlinkRecord data pos previous).2 = pos) :
    ((unlinkRecord data pos previous).1 pos).data = (data pos).data := by
  cases previous with
  | some g => exact congrArg Prod.snd (congrFun (content_setNext data g (data pos).next) pos)
  | none =>
    simp only [unlinkRecord] at free ⊢
    split_ifs at free ⊢
    · dsimp only at free ⊢
      rw [setLink_same, free]
    · rfl

/-- A new hash number of the same bucket keeps the chains. -/
theorem Chained.rehash {arr arr' : Nat → HashLink ρ} {used : Nat → Prop} (chained : Chained arr M used)
    (sameLinks : ∀ i, links arr' i = links arr i) (sameHome : ∀ i, used i → M (arr' i).hashNr = M (arr i).hashNr) :
    Chained arr' M used := by
  rintro b ⟨j, usedJ, home⟩
  obtain ⟨l, chain, members⟩ := chained b ⟨j, usedJ, (sameHome j usedJ).symm.trans home⟩
  refine ⟨l, ⟨chain.head, chain.linked.congr fun i _ => sameLinks i, chain.nodup⟩, fun i => ?_⟩
  rw [members i]
  exact and_congr_right fun usedI => by rw [sameHome i usedI]

end Relink

/-! ## `my_hash_update` -/

section Update

variable {κ : Type} [DecidableEq ρ] {hd : HashDef κ} {key₀ key : ρ → κ} {h : Hash ρ} {record : ρ}

/-- The index after a change of the key of a record stored once: chained
slots that hold the record with its new hash number besides the other
records, as the slots before held it with its old one, form a valid index
for the new keys with the same records. -/
theorem rekey_valid (valid : Valid hd key₀ h) (once : h.stored.count record = 1)
    (agree : ∀ x, x ≠ record → key x = key₀ x) {arr' : Nat → HashLink ρ} {y : Nat × ρ} {L : List (Nat × ρ)}
    (chained : Chained arr' (fun n => myHashMask n h.blength h.records) (· < h.records))
    (before : ((List.range h.records).map (content h.array)).Perm (y :: L)) (yData : y.2 = record)
    (after : ((List.range h.records).map (content arr')).Perm ((recHashnr hd key record, record) :: L)) :
    Valid hd key { h with array := arr' } ∧ { h with array := arr' }.stored.Perm h.stored := by
  have storedPerm : h.stored.Perm (record :: L.map Prod.snd) := by
    rw [stored_eq_map_content]
    simpa [yData] using before.map Prod.snd
  -- the record stored once is the one moved: no other pair holds it
  have notInL : ∀ x ∈ L, x.2 ≠ record := by
    have count := storedPerm.count_eq record
    rw [once, List.count_cons_self] at count
    intro x mem same
    have : 0 < (L.map Prod.snd).count record := List.count_pos_iff.mpr (List.mem_map.mpr ⟨x, mem, same⟩)
    omega
  refine ⟨⟨⟨valid.size, chained⟩, hashNr_eq_of_perm after fun x mem => ?_⟩, ?_⟩
  · rcases List.mem_cons.mp mem with rfl | old
    · rfl
    · rw [recHashnr, agree _ (notInL x old)]
      exact valid.content_hashNr x (before.symm.mem_iff.mp (List.mem_cons_of_mem _ old))
  · rw [stored_eq_map_content]
    exact (after.map Prod.snd).trans storedPerm.symm

/-- A failed `my_hash_update` leaves the `HASH` as it was. -/
theorem myHashUpdate_failed (oldKey : κ) (failed : (myHashUpdate hd key h record oldKey).1 = true) :
    (myHashUpdate hd key h record oldKey).2 = h := by
  rw [myHashUpdate_eq] at failed ⊢
  by_cases duplicate : hd.unique = true ∧ duplicateLoop hd key h (key record) record (h.records + 1)
      (myHashFirstFromHashValue hd key h (recHashnr hd key record) (key record)) = true
  · rw [if_pos duplicate]
  rw [if_neg duplicate] at failed ⊢
  cases search : chainSearch h.array record (h.records + 1) (myHashMask (hd.hashFunction oldKey) h.blength h.records)
    none with
  | none => rfl
  | some found =>
    -- a record found is unlinked or rehashed, and the call returns `false`
    rw [search] at failed
    dsimp only at failed
    split_ifs at failed

/-- On a valid index, `my_hash_update` of a stored record after its key
changed to `newKey` fails exactly with `HASH_UNIQUE` and another stored
record of an equal key. -/
theorem myHashUpdate_failed_iff (valid : Valid hd key₀ h) (consistent : Consistent hd) (stored : record ∈ h.stored)
    (newKey : κ) :
    (myHashUpdate hd (Function.update key₀ record newKey) h record (key₀ record)).1 = true ↔
      hd.unique = true ∧ ∃ x ∈ h.stored, x ≠ record ∧ hd.strnncollEq (key₀ x) newKey = true := by
  set key := Function.update key₀ record newKey
  have agree : ∀ x, x ≠ record → key x = key₀ x := fun x ne => Function.update_of_ne ne _ _
  have keyRecord : key record = newKey := Function.update_self ..
  have dup := duplicateLoop_iff valid consistent agree
  have other : (∃ x ∈ h.stored, x ≠ record ∧ hd.strnncollEq (key x) (key record) = true) ↔
      ∃ x ∈ h.stored, x ≠ record ∧ hd.strnncollEq (key₀ x) newKey = true := by
    refine exists_congr fun x => and_congr_right fun _ => and_congr_right fun ne => ?_
    rw [agree x ne, keyRecord]
  obtain ⟨U, pos, V, -, -, -, searched⟩ := chainSearch_of_valid valid stored
  have start : hd.hashFunction (key₀ record) = recHashnr hd key₀ record := rfl
  rw [← other, ← dup, myHashUpdate_eq]
  by_cases duplicate : hd.unique = true ∧ duplicateLoop hd key h (key record) record (h.records + 1)
      (myHashFirstFromHashValue hd key h (recHashnr hd key record) (key record)) = true
  · exact iff_of_true (by rw [if_pos duplicate]) duplicate
  -- past the duplicate check the search from the old key finds the record
  rw [if_neg duplicate, start, searched]
  refine iff_of_false ?_ duplicate
  dsimp only
  split_ifs <;> exact not_false

/-- `my_hash_update` of a record stored once, after its key changed to
`newKey`, past its duplicate check keeps the index valid for the new keys
and keeps the records. -/
theorem myHashUpdate_rekeyed (valid : Valid hd key₀ h) (once : h.stored.count record = 1) (newKey : κ)
    (updated : (myHashUpdate hd (Function.update key₀ record newKey) h record (key₀ record)).1 = false) :
    Valid hd (Function.update key₀ record newKey)
        (myHashUpdate hd (Function.update key₀ record newKey) h record (key₀ record)).2 ∧
      (myHashUpdate hd (Function.update key₀ record newKey) h record (key₀ record)).2.stored.Perm h.stored := by
  set key := Function.update key₀ record newKey
  have agree : ∀ x, x ≠ record → key x = key₀ x := fun x ne => Function.update_of_ne ne _ _
  obtain ⟨U, pos, V, chain, members, posData, searched⟩ :=
    chainSearch_of_valid valid (List.count_pos_iff.mp (by omega : 0 < h.stored.count record))
  obtain ⟨posLt, posHome⟩ := (members pos).mp (by simp)
  have start : hd.hashFunction (key₀ record) = recHashnr hd key₀ record := rfl
  have inRange : ∀ m, myHashMask m h.blength h.records < h.records := myHashMask_lt valid.size (by omega)
  rw [myHashUpdate_eq] at updated ⊢
  by_cases duplicate : hd.unique = true ∧ duplicateLoop hd key h (key record) record (h.records + 1)
      (myHashFirstFromHashValue hd key h (recHashnr hd key record) (key record)) = true
  · rw [if_pos duplicate] at updated
    cases updated
  rw [if_neg duplicate, start, searched]
  dsimp only
  by_cases stay : myHashMask (recHashnr hd key₀ record) h.blength h.records =
      myHashMask (recHashnr hd key record) h.blength h.records
  · -- the record keeps its slot; its hash number names the same bucket
    rw [if_pos stay]
    refine rekey_valid valid once agree (y := content h.array pos)
      (L := ((List.range h.records).filter (· ≠ pos)).map (content h.array))
      (valid.chained.rehash (fun i => ?_) fun i _ => ?_)
      (perm_place posLt posLt fun i => by by_cases iPos : i = pos <;> simp [iPos]) posData
      (perm_place posLt posLt fun i => ?_)
    · by_cases iPos : i = pos
      · rw [iPos, links, links, setLink_same]
      · rw [links, links, setLink_ne _ _ iPos]
    · by_cases iPos : i = pos
      · rw [iPos, setLink_same]
        exact stay.symm.trans posHome.symm
      · rw [setLink_ne _ _ iPos]
    · by_cases iPos : i = pos
      · simp [iPos, content, posData]
      · simp [iPos, content, setLink_ne _ _ iPos]
  · -- the unlink of `my_hash_delete`, then the relink in the new bucket
    rw [if_neg stay]
    obtain ⟨eLt, chained₁, contents₁⟩ := unlinkRecord_spec valid.chained chain members valid.size.1
    have same := unlinkRecord_data h.array pos U.getLast?
    exact rekey_valid valid once agree
      (updatePlace_chained chained₁ eLt inRange (Nat.le_succ _) same _) contents₁ posData
      (posData ▸ updatePlace_contents eLt (inRange _) same)

end Update

end MariaDB.MysysHash

