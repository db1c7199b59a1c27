import MariaDB.Hash.Split

set_option autoImplicit false

/- `my_hash_insert` on a valid index: the split of bucket
`records - halfbuff`, then the new record in its bucket's chain. -/

namespace MariaDB.MysysHash

open ThreadedChain

variable {ρ : Type}

/-! ## The mask as `records` grows -/

/-- The `halfbuff` bit of a hash number, read from its remainder. -/
theorem and_two_pow_eq_zero_iff (n k : Nat) : n &&& 2 ^ k = 0 ↔ n % 2 ^ (k + 1) < 2 ^ k := by
  have low : n % 2 ^ k < 2 ^ k := Nat.mod_lt _ (Nat.two_pow_pos k)
  rw [Nat.and_two_pow, Nat.testBit_eq_decide_div_mod_eq, @Nat.mod_pow_succ n 2 k]
  rcases Nat.mod_two_eq_zero_or_one (n / 2 ^ k) with bit | bit <;> simp [bit]; omega

/-- One more record: only the hash numbers of bucket `records - halfbuff`
with the `halfbuff` bit set change bucket, to the new bucket `records`. -/
theorem myHashMask_records_succ {k N : Nat} (low : 2 ^ k ≤ N) (high : N < 2 ^ (k + 1)) (hashnr : Nat) :
    myHashMask hashnr (2 ^ (k + 1)) (N + 1) =
      if myHashMask hashnr (2 ^ (k + 1)) N = N - 2 ^ k then (if hashnr &&& 2 ^ k = 0 then N - 2 ^ k else N)
      else myHashMask hashnr (2 ^ (k + 1)) N := by
  have pos : 0 < 2 ^ k := Nat.two_pow_pos k
  have below : hashnr % 2 ^ k < 2 ^ k := Nat.mod_lt _ pos
  have parts := @Nat.mod_pow_succ hashnr 2 k
  have double : 2 ^ (k + 1) = 2 ^ k + 2 ^ k := by rw [Nat.pow_succ]; omega
  rw [myHashMask_eq, myHashMask_eq]
  simp only [and_two_pow_eq_zero_iff]
  rcases Nat.mod_two_eq_zero_or_one (hashnr / 2 ^ k) with bit | bit <;> rw [bit] at parts <;>
    split_ifs <;> omega

/-- Doubling `blength` when `records` reaches it moves no hash number. -/
theorem myHashMask_double (k hashnr : Nat) :
    myHashMask hashnr (2 ^ (k + 1) + 2 ^ (k + 1)) (2 ^ (k + 1)) = myHashMask hashnr (2 ^ (k + 1)) (2 ^ (k + 1)) := by
  have parts := @Nat.mod_pow_succ hashnr 2 (k + 1)
  have below : hashnr % 2 ^ (k + 1) < 2 ^ (k + 1) := Nat.mod_lt _ (Nat.two_pow_pos _)
  have double : 2 ^ (k + 1 + 1) = 2 ^ (k + 1) + 2 ^ (k + 1) := by rw [Nat.pow_succ]; omega
  rw [← double, myHashMask_eq, myHashMask_eq]
  rcases Nat.mod_two_eq_zero_or_one (hashnr / 2 ^ (k + 1)) with bit | bit <;> rw [bit] at parts <;>
    split_ifs <;> omega

/-! ## `movelink` -/

/-- `movelink` walks a path of slots whose last slot points at `find`, and
points that slot at `newlink`. -/
theorem movelink_path {find newlink : Nat} {array : Nat → HashLink ρ} :
    ∀ (u : List Nat) (a fuel : Nat), Linked (links array) find (a :: u) → find ∉ u → u.length < fuel →
      movelink find newlink fuel array a = setNext array ((a :: u).getLast (List.cons_ne_nil a u)) newlink := by
  intro u
  induction u with
  | nil =>
    intro a fuel linked _ room
    obtain ⟨fuel, rfl⟩ := exists_succ_of_lt room
    have points : (array a).next = find := linked_singleton.mp linked
    simp [movelink, points]
  | cons b u ih =>
    intro a fuel linked outside room
    obtain ⟨fuel, rfl⟩ := exists_succ_of_lt room
    obtain ⟨next, rest⟩ := linked_cons_cons.mp linked
    have other : (array a).next ≠ find := fun same => outside (by simp [← same, ← next, links])
    have after : (array a).next = b := next
    rw [movelink, if_neg other, after, ih b fuel rest (fun mem => outside (by simp [mem]))
      (by simp at room; omega)]
    simp

/-! ## The index after the split -/

section AfterSplit

variable {arr₀ arr₁ : Nat → HashLink ρ} {k f N : Nat} {t : List Nat}
variable (sizeLow : 2 ^ k ≤ N) (sizeHigh : N < 2 ^ (k + 1)) (first : f + 2 ^ k = N)
  (chained : Chained arr₀ (fun n => myHashMask n (2 ^ (k + 1)) N) (· < N))
  (chain : ChainAt arr₀ f (f :: t))
  (members : ∀ i, i ∈ f :: t ↔ i < N ∧ myHashMask (arr₀ i).hashNr (2 ^ (k + 1)) N = f)

include sizeLow sizeHigh first members in
/-- With `N + 1` records, the records of bucket `f` stay or go to bucket `N`
by their `halfbuff` bit. -/
theorem split_home {x : Nat} (mem : x ∈ f :: t) :
    myHashMask (arr₀ x).hashNr (2 ^ (k + 1)) (N + 1) = if isLow arr₀ (2 ^ k) x then f else N := by
  rw [myHashMask_records_succ sizeLow sizeHigh, show N - 2 ^ k = f by omega, if_pos ((members x).mp mem).2]
  simp [isLow]

include sizeLow sizeHigh first members in
/-- The records of the other buckets keep their bucket. -/
theorem split_home_other {i : Nat} (below : i < N) (out : i ∉ f :: t) :
    myHashMask (arr₀ i).hashNr (2 ^ (k + 1)) N ≠ f ∧
      myHashMask (arr₀ i).hashNr (2 ^ (k + 1)) (N + 1) = myHashMask (arr₀ i).hashNr (2 ^ (k + 1)) N := by
  have other : myHashMask (arr₀ i).hashNr (2 ^ (k + 1)) N ≠ f := fun same => out ((members i).mpr ⟨below, same⟩)
  refine ⟨other, ?_⟩
  rw [myHashMask_records_succ sizeLow sizeHigh, show N - 2 ^ k = f by omega, if_neg other]

include members in
theorem split_outside : N ∉ f :: t := fun mem => by
  have := ((members N).mp mem).1
  omega

include chain members in
/-- The targets of the two sides and the free slot: the chain's slots and the
new bucket's, each once. -/
theorem split_slots_nodup :
    (targets f ((f :: t).filter (isLow arr₀ (2 ^ k))) ++ targets N ((f :: t).filter fun i => !isLow arr₀ (2 ^ k) i) ++
      [freeSlot arr₀ (2 ^ k) f N (f :: t)]).Nodup := by
  have outside := split_outside members
  refine (split_slots_perm arr₀ (2 ^ k) f N t).nodup_iff.mpr (List.nodup_append.mpr ⟨chain.nodup, by simp, ?_⟩)
  intro a mem b same
  rw [List.mem_singleton] at same
  exact fun eq => outside (same ▸ eq ▸ mem)

include members in
/-- The free slot is one of the chain's slots or the new bucket's. -/
theorem split_free_lt : freeSlot arr₀ (2 ^ k) f N (f :: t) < N + 1 := by
  have mem := (split_slots_perm arr₀ (2 ^ k) f N t).mem_iff.mp (List.mem_append_right _ (List.mem_singleton_self _))
  rcases List.mem_append.mp mem with inChain | isN
  · have := ((members _).mp inChain).1
    omega
  · rw [List.mem_singleton.mp isN]
    omega

include chain members in
/-- The slots in use after the split: the two sides' targets and the slots
off the chain. -/
theorem split_used_iff (j : Nat) :
    (j < N + 1 ∧ j ≠ freeSlot arr₀ (2 ^ k) f N (f :: t)) ↔
      j ∈ targets f ((f :: t).filter (isLow arr₀ (2 ^ k))) ∨
        j ∈ targets N ((f :: t).filter fun i => !isLow arr₀ (2 ^ k) i) ∨ (j < N ∧ j ∉ f :: t) := by
  have distinct := split_slots_nodup chain members
  have inSlots := (split_slots_perm arr₀ (2 ^ k) f N t).mem_iff (a := j)
  have below : ∀ x ∈ f :: t, x < N := fun x mem => ((members x).mp mem).1
  simp only [List.mem_append, List.mem_singleton] at inSlots
  -- the free slot is not a target
  have notFree : j ∈ targets f ((f :: t).filter (isLow arr₀ (2 ^ k))) ++
      targets N ((f :: t).filter fun i => !isLow arr₀ (2 ^ k) i) → j ≠ freeSlot arr₀ (2 ^ k) f N (f :: t) :=
    fun mem same => (List.nodup_append.mp distinct).2.2 j mem _ (by simp) same
  have known : ∀ x, x ∈ f :: t ∨ x = N → x < N + 1 := fun x mem => by
    rcases mem with inChain | rfl
    · have := below x inChain; omega
    · omega
  constructor
  · rintro ⟨bound, free⟩
    by_cases onChain : j ∈ f :: t ∨ j = N
    · have := inSlots.mpr onChain
      rcases this with (low | high) | same
      · exact Or.inl low
      · exact Or.inr (Or.inl high)
      · exact absurd same free
    · simp only [not_or] at onChain
      exact Or.inr (Or.inr ⟨by omega, onChain.1⟩)
  · rintro (low | high | ⟨bound, out⟩)
    · exact ⟨known j (inSlots.mp (Or.inl (Or.inl low))), notFree (List.mem_append_left _ low)⟩
    · exact ⟨known j (inSlots.mp (Or.inl (Or.inr high))), notFree (List.mem_append_right _ high)⟩
    · refine ⟨by omega, fun same => ?_⟩
      rcases inSlots.mp (Or.inr same) with inChain | isN
      · exact out inChain
      · omega

include sizeLow sizeHigh first members in
/-- A target of a complete side holds a record of the side's bucket. -/
theorem split_target_home {side : Nat} {xs : List Nat} (final : Final arr₀ side arr₁ xs)
    (sub : ∀ x ∈ xs, x ∈ f :: t) (bucket : ∀ x ∈ xs, (if isLow arr₀ (2 ^ k) x then f else N) = side) {j : Nat}
    (mem : j ∈ targets side xs) : myHashMask (arr₁ j).hashNr (2 ^ (k + 1)) (N + 1) = side := by
  obtain ⟨x, mem, same⟩ := final.content_mem mem
  rw [show (arr₁ j).hashNr = (arr₀ x).hashNr from congrArg Prod.fst same,
    split_home sizeLow sizeHigh first members (sub x mem), bucket x mem]

theorem nonempty_of_mem_targets {side j : Nat} {xs : List Nat} (mem : j ∈ targets side xs) : xs ≠ [] := by
  rintro rfl
  cases mem

include sizeLow sizeHigh first chained chain members in
/-- After the split, the slots below `N + 1` but the free one are chained by
the buckets of `N + 1` records: bucket `f` by its low records, bucket `N` by
its high ones, and the other buckets as they were. -/
theorem split_chained
    (lowFinal : (f :: t).filter (isLow arr₀ (2 ^ k)) ≠ [] →
      Final arr₀ f arr₁ ((f :: t).filter (isLow arr₀ (2 ^ k))))
    (highFinal : ((f :: t).filter fun i => !isLow arr₀ (2 ^ k) i) ≠ [] →
      Final arr₀ N arr₁ ((f :: t).filter fun i => !isLow arr₀ (2 ^ k) i))
    (frame : ∀ j ∉ f :: t, j ≠ N → arr₁ j = arr₀ j) :
    Chained arr₁ (fun n => myHashMask n (2 ^ (k + 1)) (N + 1))
      (fun i => i < N + 1 ∧ i ≠ freeSlot arr₀ (2 ^ k) f N (f :: t)) := by
  have used := split_used_iff chain members
  have distinct := List.nodup_append.mp (List.nodup_append.mp (split_slots_nodup chain members)).1
  have lowHome : ∀ j ∈ targets f ((f :: t).filter (isLow arr₀ (2 ^ k))),
      myHashMask (arr₁ j).hashNr (2 ^ (k + 1)) (N + 1) = f := fun j mem =>
    split_target_home sizeLow sizeHigh first members (lowFinal (nonempty_of_mem_targets mem))
      (fun x mem => List.mem_of_mem_filter mem) (fun x mem => by simp [(List.mem_filter.mp mem).2]) mem
  have highHome : ∀ j ∈ targets N ((f :: t).filter fun i => !isLow arr₀ (2 ^ k) i),
      myHashMask (arr₁ j).hashNr (2 ^ (k + 1)) (N + 1) = N := fun j mem =>
    split_target_home sizeLow sizeHigh first members (highFinal (nonempty_of_mem_targets mem))
      (fun x mem => List.mem_of_mem_filter mem) (fun x mem => by
        have high : isLow arr₀ (2 ^ k) x = false := by simpa using (List.mem_filter.mp mem).2
        simp [high]) mem
  -- a slot off the chain keeps its record, whose bucket is not `f` and does not change
  have otherSlot : ∀ j < N, j ∉ f :: t → arr₁ j = arr₀ j ∧
      myHashMask (arr₁ j).hashNr (2 ^ (k + 1)) N ≠ f ∧
      myHashMask (arr₁ j).hashNr (2 ^ (k + 1)) (N + 1) = myHashMask (arr₁ j).hashNr (2 ^ (k + 1)) N := by
    intro j below out
    have same := frame j out (by omega)
    rw [same]
    exact ⟨rfl, split_home_other sizeLow sizeHigh first members below out⟩
  have fLt : f < N := by have := Nat.two_pow_pos k; omega
  rintro b ⟨j, usedJ, home⟩
  dsimp only at home ⊢
  rcases (used j).mp usedJ with low | high | ⟨below, out⟩
  · -- bucket `f`: the chain of the low records
    rw [lowHome j low] at home
    subst home
    have nonempty := nonempty_of_mem_targets low
    refine ⟨_, ⟨targets_head f nonempty, (lowFinal nonempty).1, distinct.1⟩, fun i => ⟨fun mem => ⟨(used i).mpr
      (Or.inl mem), lowHome i mem⟩, fun both => ?_⟩⟩
    obtain ⟨usedI, homeI⟩ := both
    rcases (used i).mp usedI with lowI | highI | ⟨belowI, outI⟩
    · exact lowI
    · rw [highHome i highI] at homeI; omega
    · obtain ⟨-, notF, keep⟩ := otherSlot i belowI outI
      exact absurd (keep.symm.trans homeI) notF
  · -- bucket `N`: the chain of the high records
    rw [highHome j high] at home
    subst home
    have nonempty := nonempty_of_mem_targets high
    refine ⟨_, ⟨targets_head N nonempty, (highFinal nonempty).1, (List.nodup_append.mp
      (split_slots_nodup chain members)).1 |> fun whole => (List.nodup_append.mp whole).2.1⟩,
      fun i => ⟨fun mem => ⟨(used i).mpr (Or.inr (Or.inl mem)), highHome i mem⟩, fun both => ?_⟩⟩
    obtain ⟨usedI, homeI⟩ := both
    rcases (used i).mp usedI with lowI | highI | ⟨belowI, outI⟩
    · rw [lowHome i lowI] at homeI; omega
    · exact highI
    · obtain ⟨-, -, keep⟩ := otherSlot i belowI outI
      have := myHashMask_pow_lt sizeLow (arr₁ i).hashNr
      omega
  · -- another bucket: its chain, off the split one, is unchanged
    obtain ⟨same, notF, keep⟩ := otherSlot j below out
    rw [same] at notF keep home
    rw [keep] at home
    obtain ⟨lb, chainB, membersB⟩ := chained b ⟨j, below, home⟩
    dsimp only at membersB
    have bLt : b < N := home ▸ myHashMask_pow_lt sizeLow _
    have offChain : ∀ i ∈ lb, i < N ∧ i ∉ f :: t := by
      intro i mem
      obtain ⟨belowI, homeI⟩ := (membersB i).mp mem
      exact ⟨belowI, fun inChain => notF (home.trans (homeI.symm.trans ((members i).mp inChain).2))⟩
    refine ⟨lb, chainB.congr fun i mem => frame i (offChain i mem).2 (by have := (offChain i mem).1; omega),
      fun i => ⟨fun mem => ?_, fun both => ?_⟩⟩
    · obtain ⟨belowI, outI⟩ := offChain i mem
      obtain ⟨sameI, -, keepI⟩ := otherSlot i belowI outI
      exact ⟨(used i).mpr (Or.inr (Or.inr ⟨belowI, outI⟩)), by rw [keepI, sameI]; exact ((membersB i).mp mem).2⟩
    · obtain ⟨usedI, homeI⟩ := both
      rcases (used i).mp usedI with lowI | highI | ⟨belowI, outI⟩
      · exact absurd (home.trans ((lowHome i lowI).symm.trans homeI).symm) notF
      · rw [highHome i highI] at homeI; omega
      · obtain ⟨sameI, -, keepI⟩ := otherSlot i belowI outI
        exact (membersB i).mpr ⟨belowI, by rw [← sameI, ← keepI]; exact homeI⟩

/-- A side's targets hold its records, also when it has none. -/
theorem targets_map {arr : Nat → HashLink ρ} {side : Nat} {xs : List Nat}
    (final : xs ≠ [] → Final arr₀ side arr xs) : (targets side xs).map (content arr) = xs.map (content arr₀) := by
  cases xs with
  | nil => rfl
  | cons x xs => exact (final (by simp)).2

include chain members in
/-- The split moves records between slots and loses none: the slots in use
after it hold the records of the slots below `N` before it. -/
theorem split_contents
    (lowFinal : (f :: t).filter (isLow arr₀ (2 ^ k)) ≠ [] →
      Final arr₀ f arr₁ ((f :: t).filter (isLow arr₀ (2 ^ k))))
    (highFinal : ((f :: t).filter fun i => !isLow arr₀ (2 ^ k) i) ≠ [] →
      Final arr₀ N arr₁ ((f :: t).filter fun i => !isLow arr₀ (2 ^ k) i))
    (frame : ∀ j ∉ f :: t, j ≠ N → arr₁ j = arr₀ j) :
    (((List.range (N + 1)).filter (· ≠ freeSlot arr₀ (2 ^ k) f N (f :: t))).map (content arr₁)).Perm
      ((List.range N).map (content arr₀)) := by
  have used := split_used_iff chain members
  have outside := split_outside members
  have below : ∀ x ∈ f :: t, x < N := fun x mem => ((members x).mp mem).1
  set rest := (List.range N).filter (· ∉ f :: t) with hRest
  have restNodup : rest.Nodup := List.nodup_range.filter _
  have restMem : ∀ j, j ∈ rest ↔ j < N ∧ j ∉ f :: t := by simp [hRest]
  -- the slots in use after the split: the targets, then the slots off the chain
  have targetsNodup := (List.nodup_append.mp (split_slots_nodup chain members)).1
  have afterSlots : ((List.range (N + 1)).filter (· ≠ freeSlot arr₀ (2 ^ k) f N (f :: t))).Perm
      (targets f ((f :: t).filter (isLow arr₀ (2 ^ k))) ++
        targets N ((f :: t).filter fun i => !isLow arr₀ (2 ^ k) i) ++ rest) := by
    refine (List.perm_ext_iff_of_nodup (List.nodup_range.filter _) ?_).mpr fun j => ?_
    · refine List.nodup_append.mpr ⟨targetsNodup, restNodup, fun a mem b memRest same => ?_⟩
      obtain ⟨-, outB⟩ := (restMem b).mp memRest
      have inSlots : a ∈ f :: t ++ [N] :=
        (split_slots_perm arr₀ (2 ^ k) f N t).mem_iff.mp (List.mem_append_left _ mem)
      rcases List.mem_append.mp inSlots with inChain | isN
      · exact outB (same ▸ inChain)
      · have := ((restMem b).mp memRest).1
        rw [List.mem_singleton] at isN
        omega
    · simp only [List.mem_filter, List.mem_range, decide_eq_true_eq, List.mem_append, restMem, or_assoc]
      exact used j
  -- the slots in use before: the chain, then the slots off it
  have beforeSlots : (List.range N).Perm ((f :: t) ++ rest) := by
    refine (List.perm_ext_iff_of_nodup List.nodup_range ?_).mpr fun j => ?_
    · exact List.nodup_append.mpr ⟨chain.nodup, restNodup, fun a mem b memRest same =>
        ((restMem b).mp memRest).2 (same ▸ mem)⟩
    · simp only [List.mem_range, List.mem_append, restMem]
      constructor
      · intro bound; by_cases inChain : j ∈ f :: t <;> simp [inChain, bound]
      · rintro (inChain | ⟨bound, -⟩)
        · exact below j inChain
        · exact bound
  have restSame : rest.map (content arr₁) = rest.map (content arr₀) :=
    List.map_congr_left fun j mem => by
      obtain ⟨bound, out⟩ := (restMem j).mp mem
      rw [content, content, frame j out (by omega)]
  calc (((List.range (N + 1)).filter (· ≠ freeSlot arr₀ (2 ^ k) f N (f :: t))).map (content arr₁)).Perm
        ((targets f ((f :: t).filter (isLow arr₀ (2 ^ k))) ++
          targets N ((f :: t).filter fun i => !isLow arr₀ (2 ^ k) i) ++ rest).map (content arr₁)) :=
      afterSlots.map _
    _ = (((f :: t).filter (isLow arr₀ (2 ^ k)) ++ (f :: t).filter fun i => !isLow arr₀ (2 ^ k) i) ++
          rest).map (content arr₀) := by
      rw [List.map_append, List.map_append, targets_map lowFinal, targets_map highFinal, restSame,
        List.map_append, List.map_append]
    _ |>.Perm (((f :: t) ++ rest).map (content arr₀)) :=
      ((List.filter_append_perm _ _).append_right rest).map _
    _ |>.Perm ((List.range N).map (content arr₀)) := (beforeSlots.map _).symm

end AfterSplit

/-! ## The two phases of `my_hash_insert` -/

section Phases

/-- The placement phase of `my_hash_insert`: the record goes to the slot
`idx` of its bucket; the slot's occupant moves to the free slot `empty` and
is linked where it was, from `idx` when it heads bucket `idx`, and otherwise
by `movelink` from the head of its own bucket. -/
def placeRecord (bucket : Nat → Nat) (fuel : Nat) (array : Nat → HashLink ρ) (empty hashNr : Nat) (record : ρ) :
    Nat → HashLink ρ :=
  let idx := bucket hashNr
  let array :=
    if idx = empty then setNext array idx noRecord
    else
      let array' := setLink array empty (array idx)
      let gpos := bucket (array idx).hashNr
      if idx = gpos then setNext array' idx empty
      else movelink idx empty fuel (setNext array' idx noRecord) gpos
  setLink array idx { array idx with data := record, hashNr := hashNr }

variable [Inhabited ρ]

/-- The split phase of `my_hash_insert`: the state after the walk of bucket
`records - halfbuff`; with no record there is none to walk. -/
def insertSplit (h : Hash ρ) : SplitState ρ :=
  let halfbuff := h.blength >>> 1
  let firstIndex := h.records - halfbuff
  let st : SplitState ρ := ⟨h.array, 0, h.records, 0, 0, default, 0, default, 0⟩
  if firstIndex ≠ h.records then
    splitFinish (splitLoop h.blength h.records firstIndex halfbuff (h.records + 1) st firstIndex)
  else st

variable {κ : Type} (hd : HashDef κ) (key : ρ → κ)

/-- `my_hash_insert` is its duplicate check, its split and its placement. -/
theorem myHashInsert_eq (h : Hash ρ) (record : ρ) :
    myHashInsert hd key h record =
      if hd.unique ∧ (myHashFirstFromHashValue hd key h (recHashnr hd key record) (key record)).isSome then (true, h)
      else (false, ⟨h.records + 1, if h.records + 1 = h.blength then h.blength + h.blength else h.blength,
        placeRecord (fun n => myHashMask n h.blength (h.records + 1)) (h.records + 1) (insertSplit h).array
          (insertSplit h).empty (recHashnr hd key record) record⟩) := by
  rfl

end Phases

/-! ## The placement -/

section Relink

variable {arr arr' : Nat → HashLink ρ} {M : Nat → Nat} {n e c : Nat} {r : ρ}
  (chained : Chained arr M (fun i => i < n ∧ i ≠ e)) (eLt : e < n)

include chained eLt in
/-- A record of bucket `e` fills the free slot `e`, whose bucket was empty. -/
theorem Chained.fill_hole (self : M c = e) (atE : arr' e = ⟨noRecord, c, r⟩)
    (atOther : ∀ i, i ≠ e → arr' i = arr i) : Chained arr' M (· < n) := by
  have free : ¬(e < n ∧ e ≠ e) := fun used => used.2 rfl
  rintro b ⟨j, jLt, home⟩
  by_cases bE : b = e
  · subst bE
    refine ⟨[b], ⟨rfl, by simp [links, atE], List.nodup_singleton b⟩, fun i => ⟨fun mem => ?_, ?_⟩⟩
    · rw [List.mem_singleton.mp mem, atE]
      exact ⟨eLt, self⟩
    · rintro ⟨iLt, homeI⟩
      by_contra out
      have iB : i ≠ b := fun same => out (List.mem_singleton.mpr same)
      rw [atOther i iB] at homeI
      exact chained.not_home free ⟨iLt, iB⟩ homeI
  · refine chained.keep (S := (· = e)) (fun i ne => ⟨atOther i ne, by simp [ne]⟩) (fun _ => Iff.rfl) ?_ ?_
      ⟨j, jLt, home⟩
    · intro i isE _
      rw [isE, atE]
      exact fun h => bE (h.symm.trans self)
    · intro i isE usedI
      exact absurd isE usedI.2

include chained eLt in
/-- A record joins its bucket `idx` right behind the bucket's own slot: the
slots `idx` and `e` hold the record and the slot's occupant, of bucket `idx`
too, in either order, with `idx` linked to `e` and `e` on to the rest. -/
theorem Chained.push_head {idx : Nat} (idxLt : idx < n) (idxNe : idx ≠ e) (occupant : M (arr idx).hashNr = idx)
    (atIdx : links arr' idx = e ∧ M (arr' idx).hashNr = idx) (atE : links arr' e = links arr idx ∧ M (arr' e).hashNr = idx)
    (atOther : ∀ i, i ≠ idx → i ≠ e → arr' i = arr i) : Chained arr' M (· < n) := by
  rintro b ⟨j, jLt, home⟩
  by_cases bIdx : b = idx
  · -- bucket `idx`: its own slot, the free slot, then the chain as it was
    subst bIdx
    obtain ⟨l, chain, members⟩ := chained b ⟨b, ⟨idxLt, idxNe⟩, occupant⟩
    obtain ⟨t, rfl⟩ := chain.eq_cons
    have eOut : e ∉ b :: t := fun mem => ((members e).mp mem).1.2 rfl
    obtain ⟨bOut, distinct⟩ := List.nodup_cons.mp chain.nodup
    have tOff : ∀ i ∈ t, i ≠ b ∧ i ≠ e := fun i mem =>
      ⟨fun same => bOut (same ▸ mem), fun same => eOut (same ▸ List.mem_cons_of_mem b mem)⟩
    obtain ⟨next, rest⟩ := linked_cons.mp chain.linked
    refine ⟨b :: e :: t, ⟨rfl, ?_, ?_⟩, fun i => ?_⟩
    · rw [linked_cons_cons, linked_cons]
      refine ⟨atIdx.1, atE.1.trans next, rest.congr fun i mem => ?_⟩
      simp only [links, atOther i (tOff i mem).1 (tOff i mem).2]
    · simp only [List.nodup_cons, List.mem_cons, not_or]
      exact ⟨⟨idxNe, bOut⟩, fun mem => eOut (List.mem_cons_of_mem b mem), distinct⟩
    · by_cases iB : i = b
      · rw [iB]
        simp [idxLt, atIdx.2]
      by_cases iE : i = e
      · rw [iE]
        simp [eLt, atE.2]
      have memIff : i ∈ b :: e :: t ↔ i ∈ b :: t := by simp [iE]
      rw [memIff, members i, atOther i iB iE]
      simp [iE]
  · refine chained.keep (S := fun i => i = idx ∨ i = e)
      (fun i s => ⟨atOther i (fun h => s (Or.inl h)) (fun h => s (Or.inr h)), by simp [not_or.mp s]⟩)
      (fun _ => Iff.rfl) ?_ ?_ ⟨j, jLt, home⟩
    · rintro i (isIdx | isE) _
      · rw [isIdx]
        exact fun h => bIdx (h.symm.trans atIdx.2)
      · rw [isE]
        exact fun h => bIdx (h.symm.trans atE.2)
    · rintro i (isIdx | isE) usedI
      · rw [isIdx]
        exact fun h => bIdx (h.symm.trans occupant)
      · exact absurd isE usedI.2

/-- A slot of a chain other than its head comes after the head. -/
theorem ChainAt.eq_cons_append {b x : Nat} {W X : List Nat} (chain : ChainAt arr b (W ++ x :: X)) (other : x ≠ b) :
    ∃ w, W = b :: w := by
  have head := chain.head
  cases W with
  | nil =>
    simp only [List.nil_append, List.head?_cons, Option.some.injEq] at head
    exact absurd head other
  | cons a w =>
    simp only [List.cons_append, List.head?_cons, Option.some.injEq] at head
    exact ⟨w, by rw [head]⟩

/-- A slot `x` after a chain's head moves to the slot `y`: its predecessor
`p` points at `y`, and `y` goes on where `x` went on. -/
theorem ChainAt.move_slot {b x y p : Nat} {W X : List Nat} (chain : ChainAt arr b (W ++ x :: X))
    (last : W.getLast? = some p) (atP : links arr' p = y) (atY : links arr' y = links arr x)
    (same : ∀ i ∈ W ++ X, i ≠ p → links arr' i = links arr i) (fresh : y ∉ W ++ X) :
    ChainAt arr' b (W ++ y :: X) := by
  have pMem : p ∈ W := List.mem_of_getLast? last
  obtain ⟨-, distinct⟩ := List.nodup_cons.mp (List.nodup_middle.mp chain.nodup)
  refine ⟨?_, ?_, List.nodup_middle.mpr (List.nodup_cons.mpr ⟨fresh, distinct⟩)⟩
  · have head := chain.head
    cases W with
    | nil => cases pMem
    | cons a W => simpa using head
  · obtain ⟨D, rfl⟩ := List.getLast?_eq_some_iff.mp last
    obtain ⟨before, after⟩ := linked_append.mp chain.linked
    obtain ⟨xNext, rest⟩ := linked_cons.mp after
    have pD : p ∉ D := fun mem =>
      (List.nodup_append.mp (List.nodup_append.mp distinct).1).2.2 p mem p (List.mem_singleton_self p) rfl
    have pX : p ∉ X := fun mem => (List.nodup_append.mp distinct).2.2 p (by simp) p mem rfl
    rw [linked_append, linked_cons]
    exact ⟨before.redirect atP fun i mem => same i (by simp [mem]) fun h => pD (h ▸ mem), atY.trans xNext,
      rest.congr fun i mem => same i (by simp [mem]) fun h => pX (h ▸ mem)⟩

/-- A slot off the rest of a chain stays off it when `y` is put in the middle. -/
theorem not_mem_move_slot {i y : Nat} {W X : List Nat} (out : i ∉ W ++ X) (other : i ≠ y) :
    i ∉ W ++ y :: X := by
  simp only [List.mem_append, List.mem_cons, not_or] at out ⊢
  exact ⟨out.1, other, out.2⟩

include chained eLt in
/-- A record opens its empty bucket `idx` at the bucket's own slot, whose
occupant, of another bucket `g`, moves to the free slot `e`: the occupant's
predecessor `p` in the chain of `g` points at `e` instead. -/
theorem Chained.relocate {idx g p : Nat} {U v : List Nat} (chainG : ChainAt arr g (U ++ idx :: v))
    (membersG : ∀ i, i ∈ U ++ idx :: v ↔ (i < n ∧ i ≠ e) ∧ M (arr i).hashNr = g) (last : U.getLast? = some p)
    (self : M c = idx) (other : g ≠ idx) (atIdx : arr' idx = ⟨noRecord, c, r⟩) (atE : arr' e = arr idx)
    (atP : arr' p = { arr p with next := e }) (atOther : ∀ i, i ≠ idx → i ≠ e → i ≠ p → arr' i = arr i) :
    Chained arr' M (· < n) := by
  obtain ⟨⟨idxLt, idxNe⟩, idxHome⟩ := (membersG idx).mp (by simp)
  have pMem : p ∈ U := List.mem_of_getLast? last
  obtain ⟨⟨pLt, pNe⟩, pHome⟩ := (membersG p).mp (List.mem_append_left _ pMem)
  obtain ⟨idxOut, distinct⟩ := List.nodup_cons.mp (List.nodup_middle.mp chainG.nodup)
  have pIdx : p ≠ idx := fun same => idxOut (List.mem_append_left _ (same ▸ pMem))
  have hashOther : ∀ i, i ≠ idx → i ≠ e → (arr' i).hashNr = (arr i).hashNr := by
    intro i iIdx iE
    by_cases iP : i = p
    · rw [iP, atP]
    · rw [atOther i iIdx iE iP]
  -- bucket `idx` was empty: its own slot held a record of bucket `g`
  have emptyIdx : ∀ i, i < n ∧ i ≠ e → M (arr i).hashNr ≠ idx := fun i usedI home => by
    have headHome := (chained.head_used usedI).2
    rw [home] at headHome
    exact other (idxHome.symm.trans headHome)
  rintro b ⟨j, jLt, home⟩
  by_cases bIdx : b = idx
  · -- bucket `idx` holds the new record only
    subst bIdx
    refine ⟨[b], ⟨rfl, by simp [links, atIdx], List.nodup_singleton b⟩, fun i => ⟨fun mem => ?_, ?_⟩⟩
    · rw [List.mem_singleton.mp mem, atIdx]
      exact ⟨idxLt, self⟩
    · rintro ⟨iLt, homeI⟩
      by_contra out
      have iB : i ≠ b := fun same => out (List.mem_singleton.mpr same)
      by_cases iE : i = e
      · rw [iE, atE] at homeI
        exact other (idxHome.symm.trans homeI)
      · rw [hashOther i iB iE] at homeI
        exact emptyIdx i ⟨iLt, iE⟩ homeI
  by_cases bG : b = g
  · -- bucket `g`: the slot `e` stands where the occupant's slot stood
    subst bG
    have eOut : e ∉ U ++ v := fun mem =>
      ((membersG e).mp (((List.sublist_cons_self idx v).append_left U).subset mem)).1.2 rfl
    refine ⟨U ++ e :: v, chainG.move_slot last (by simp [links, atP]) (by simp only [links, atE])
      (fun i mem iP => ?_) eOut, fun i => ?_⟩
    · have iIdx : i ≠ idx := fun same => idxOut (same ▸ mem)
      have iE : i ≠ e := fun same => eOut (same ▸ mem)
      simp only [links, atOther i iIdx iE iP]
    · by_cases iE : i = e
      · rw [iE, atE]
        simp [eLt, idxHome]
      by_cases iIdx : i = idx
      · rw [iIdx, atIdx]
        exact iff_of_false (not_mem_move_slot idxOut idxNe) fun used => other (used.2.symm.trans self)
      have memIff : i ∈ U ++ e :: v ↔ i ∈ U ++ idx :: v := by simp [iE, iIdx]
      rw [memIff, membersG i, hashOther i iIdx iE]
      simp [iE]
  · -- another bucket: its chain avoids the three slots written
    refine chained.keep (S := fun i => i = idx ∨ i = e ∨ i = p) (fun i s => ?_) (fun _ => Iff.rfl) ?_ ?_
      ⟨j, jLt, home⟩
    · simp only [not_or] at s
      obtain ⟨iIdx, iE, iP⟩ := s
      exact ⟨atOther i iIdx iE iP, by simp [iE]⟩
    · rintro i (isIdx | isE | isP) _
      · rw [isIdx, atIdx]
        exact fun h => bIdx (h.symm.trans self)
      · rw [isE, atE]
        exact fun h => bG (h.symm.trans idxHome)
      · rw [isP, atP]
        exact fun h => bG (h.symm.trans pHome)
    · rintro i (isIdx | isE | isP) usedI
      · rw [isIdx]
        exact fun h => bG (h.symm.trans idxHome)
      · exact absurd isE usedI.2
      · rw [isP]
        exact fun h => bG (h.symm.trans pHome)

include chained in
/-- The occupant of slot `idx`, of another bucket `g`, has a predecessor `p`
in the chain of `g`; `movelink` walks that chain from `g` in any array with
the same links off `idx` and `e`, and points `p` at `newlink`. -/
theorem Chained.occupant_path {idx : Nat} (idxUsed : idx < n ∧ idx ≠ e) (occupant : M (arr idx).hashNr ≠ idx)
    (arr₁ : Nat → HashLink ρ) (frame : ∀ i, i ≠ idx → i ≠ e → links arr₁ i = links arr i) (newlink : Nat)
    {fuel : Nat} (enough : n ≤ fuel) :
    ∃ U p v, ChainAt arr (M (arr idx).hashNr) (U ++ idx :: v) ∧
      (∀ i, i ∈ U ++ idx :: v ↔ (i < n ∧ i ≠ e) ∧ M (arr i).hashNr = M (arr idx).hashNr) ∧
      U.getLast? = some p ∧ p ≠ idx ∧ p ≠ e ∧
      movelink idx newlink fuel arr₁ (M (arr idx).hashNr) = setNext arr₁ p newlink := by
  obtain ⟨l, chain, members⟩ := chained _ ⟨idx, idxUsed, rfl⟩
  obtain ⟨U, v, rfl⟩ := List.append_of_mem ((members idx).mpr ⟨idxUsed, rfl⟩)
  obtain ⟨w, rfl⟩ := chain.eq_cons_append (Ne.symm occupant)
  set g := M (arr idx).hashNr
  obtain ⟨idxOut, -⟩ := List.nodup_cons.mp (List.nodup_middle.mp chain.nodup)
  -- the path from `g` to `idx` avoids the two slots the caller wrote
  have pathOff : ∀ i ∈ g :: w, i ≠ idx ∧ i ≠ e := fun i mem =>
    ⟨fun same => idxOut (List.mem_append_left _ (same ▸ mem)),
      ((members i).mp (List.mem_append_left _ mem)).1.2⟩
  have path : Linked (links arr₁) idx (g :: w) :=
    (linked_append.mp chain.linked).1.congr fun i mem => frame i (pathOff i mem).1 (pathOff i mem).2
  have room : w.length < fuel := by
    have := length_le_of_nodup chain.nodup fun i mem => ((members i).mp mem).1.1
    simp only [List.length_append, List.length_cons] at this
    omega
  obtain ⟨pIdx, pE⟩ := pathOff _ (List.getLast_mem (List.cons_ne_nil g w))
  exact ⟨g :: w, _, v, chain, members, List.getLast?_eq_some_getLast (List.cons_ne_nil g w), pIdx, pE,
    movelink_path w g fuel path (fun mem => idxOut (List.mem_append_left _ (List.mem_cons_of_mem g mem))) room⟩

end Relink

section Place

variable {arr : Nat → HashLink ρ} {M : Nat → Nat} {n e c : Nat} {r : ρ}

/-- `movelink` writes links only. -/
@[simp] theorem content_movelink (find newlink fuel : Nat) (array : Nat → HashLink ρ) (a : Nat) :
    content (movelink find newlink fuel array a) = content array := by
  induction fuel generalizing a with
  | zero => rfl
  | succ fuel ih =>
    simp only [movelink]
    split_ifs
    · exact content_setNext ..
    · exact ih _

/-- The placement writes the record to slot `idx` and the record of `idx`
to the free slot. -/
theorem placeRecord_content (fuel i : Nat) :
    content (placeRecord M fuel arr e c r) i =
      if i = M c then (c, r) else if i = e then content arr (M c) else content arr i := by
  by_cases iIdx : i = M c
  · rw [iIdx]
    simp [placeRecord, content]
  rw [if_neg iIdx]
  have written : ∀ array : Nat → HashLink ρ, content (setLink array (M c) { array (M c) with data := r, hashNr := c }) i =
      content array i := fun array => by simp only [content, setLink_ne _ _ iIdx]
  simp only [placeRecord]
  rw [written]
  by_cases iE : i = e
  · -- the free slot takes the occupant's record, unless it is the record's own slot
    have ne : M c ≠ e := fun self => iIdx (iE.trans self.symm)
    rw [if_pos iE, if_neg ne, iE]
    split_ifs <;> simp only [content_movelink, content_setNext] <;> simp [content]
  · rw [if_neg iE]
    split_ifs <;> simp only [content_movelink, content_setNext] <;> simp [content, setLink_ne _ _ iE]

/-- The placement when the record's bucket is the free slot. -/
theorem placeRecord_hole (fuel : Nat) (self : M c = e) :
    placeRecord M fuel arr e c r = setLink arr e ⟨noRecord, c, r⟩ := by
  funext j
  by_cases je : j = e
  · subst je
    simp [placeRecord, self, setNext]
  · simp [placeRecord, self, setNext, setLink_ne _ _ je]

/-- The placement when the occupant of the record's slot is of the same
bucket. -/
theorem placeRecord_head (fuel : Nat) (ne : M c ≠ e) (occupant : M (arr (M c)).hashNr = M c) :
    placeRecord M fuel arr e c r = setLink (setLink arr e (arr (M c))) (M c) ⟨e, c, r⟩ := by
  funext j
  by_cases jIdx : j = M c
  · rw [jIdx]
    simp [placeRecord, ne, occupant, setNext, setLink_ne _ _ ne]
  · simp [placeRecord, ne, occupant, setNext, setLink_ne _ _ jIdx]

/-- The placement when the occupant of the record's slot is of another
bucket, whose chain reaches the slot from `p`. -/
theorem placeRecord_moved {fuel p : Nat} (ne : M c ≠ e) (occupant : M (arr (M c)).hashNr ≠ M c)
    (path : movelink (M c) e fuel (setNext (setLink arr e (arr (M c))) (M c) noRecord) (M (arr (M c)).hashNr) =
      setNext (setNext (setLink arr e (arr (M c))) (M c) noRecord) p e) (pIdx : p ≠ M c) :
    placeRecord M fuel arr e c r = setLink (setNext (setLink arr e (arr (M c))) p e) (M c) ⟨noRecord, c, r⟩ := by
  funext j
  have turn : M c ≠ M (arr (M c)).hashNr := fun same => occupant same.symm
  simp only [placeRecord, if_neg ne, if_neg turn, path]
  by_cases jIdx : j = M c
  · rw [jIdx]
    simp [setNext, setLink_ne _ _ pIdx.symm]
  · by_cases jP : j = p
    · rw [jP]
      simp [setNext, setLink_ne _ _ pIdx]
    · simp [setNext, setLink_ne _ _ jIdx, setLink_ne _ _ jP]

/-- The slots below `n` after a write of `x` to slot `idx`, whose value
moved to the free slot `e`: `x` and the values of the slots but `e` before. -/
theorem perm_place {α : Type} {f f' : Nat → α} {idx : Nat} {x : α} (idxLt : idx < n) (eLt : e < n)
    (place : ∀ i, f' i = if i = idx then x else if i = e then f idx else f i) :
    ((List.range n).map f').Perm (x :: ((List.range n).filter (· ≠ e)).map f) := by
  have distinct := List.nodup_range (n := n)
  have idxMem : idx ∈ List.range n := List.mem_range.mpr idxLt
  have eMem : e ∈ List.range n := List.mem_range.mpr eLt
  have freeFilter : (List.range n).filter (· ≠ e) = (List.range n).erase e := by
    rw [distinct.erase_eq_filter]
    exact List.filter_congr fun i _ => by by_cases iE : i = e <;> simp [iE]
  rw [freeFilter]
  by_cases same : idx = e
  · -- the record of bucket `e` filled the free slot
    subst same
    calc ((List.range n).map f').Perm ((idx :: (List.range n).erase idx).map f') := (List.perm_cons_erase idxMem).map _
      _ = x :: ((List.range n).erase idx).map f := by
        rw [List.map_cons, place, if_pos rfl]
        congr 1
        refine List.map_congr_left fun i mem => ?_
        have iIdx := ((distinct.mem_erase_iff).mp mem).1
        rw [place, if_neg iIdx, if_neg iIdx]
  · have eMem' : e ∈ (List.range n).erase idx := (distinct.mem_erase_iff).mpr ⟨Ne.symm same, eMem⟩
    have idxMem' : idx ∈ (List.range n).erase e := (distinct.mem_erase_iff).mpr ⟨same, idxMem⟩
    have restNodup := (distinct.erase idx)
    calc ((List.range n).map f').Perm ((idx :: e :: ((List.range n).erase idx).erase e).map f') :=
          ((List.perm_cons_erase idxMem).trans ((List.perm_cons_erase eMem').cons idx)).map _
      _ = x :: f idx :: (((List.range n).erase e).erase idx).map f := by
        rw [List.map_cons, List.map_cons, place, place, if_pos rfl, if_neg (Ne.symm same), if_pos rfl,
          List.erase_comm]
        congr 2
        refine List.map_congr_left fun i mem => ?_
        obtain ⟨iIdx, iInE⟩ := ((distinct.erase e).mem_erase_iff).mp mem
        have iE := ((distinct.mem_erase_iff).mp iInE).1
        rw [place, if_neg iIdx, if_neg iE]
      _ |>.Perm (x :: ((List.range n).erase e).map f) :=
        (((List.perm_cons_erase idxMem').map f).symm).cons x

/-- The placement keeps the records of the slots below `n` but the free one,
and adds the new record. -/
theorem placeRecord_contents (idxLt : M c < n) (eLt : e < n) :
    ((List.range n).map (content (placeRecord M n arr e c r))).Perm
      ((c, r) :: ((List.range n).filter (· ≠ e)).map (content arr)) :=
  perm_place idxLt eLt (placeRecord_content n)

/-- The placement chains every slot below `n`: the free slot is used again. -/
theorem placeRecord_chained (chained : Chained arr M (fun i => i < n ∧ i ≠ e)) (eLt : e < n)
    (inRange : ∀ m, M m < n) (c : Nat) (r : ρ) : Chained (placeRecord M n arr e c r) M (· < n) := by
  by_cases self : M c = e
  · rw [placeRecord_hole n self]
    exact chained.fill_hole eLt self (setLink_same ..) fun i ne => setLink_ne _ _ ne
  have idxUsed : M c < n ∧ M c ≠ e := ⟨inRange c, self⟩
  by_cases occupant : M (arr (M c)).hashNr = M c
  · rw [placeRecord_head n self occupant]
    refine chained.push_head eLt idxUsed.1 self occupant ⟨by simp [links], by simp⟩
      ⟨by rw [links, links, setLink_ne _ _ (Ne.symm self), setLink_same],
        by rw [setLink_ne _ _ (Ne.symm self), setLink_same, occupant]⟩ fun i iIdx iE => ?_
    rw [setLink_ne _ _ iIdx, setLink_ne _ _ iE]
  -- the occupant's chain runs from its bucket's slot to `idx`: the path `movelink` walks
  obtain ⟨U, p, v, chain, members, last, pIdx, pE, path⟩ := chained.occupant_path idxUsed occupant
    (setNext (setLink arr e (arr (M c))) (M c) noRecord)
    (fun i iIdx iE => by rw [links_setNext_ne _ _ iIdx, links, links, setLink_ne _ _ iE]) e le_rfl
  rw [placeRecord_moved self occupant path pIdx]
  refine chained.relocate eLt chain members last rfl occupant (setLink_same ..) ?_ ?_ fun i iIdx iE iP => ?_
  · rw [setLink_ne _ _ (Ne.symm self), setNext, setLink_ne _ _ (Ne.symm pE), setLink_same]
  · rw [setLink_ne _ _ pIdx, setNext, setLink_same, setLink_ne _ _ pE]
  · rw [setLink_ne _ _ iIdx, setNext, setLink_ne _ _ iP, setLink_ne _ _ iE]

end Place

/-! ## `my_hash_insert` -/

section Insert

/-- The slots below `N + 1` but `N`. -/
theorem filter_range_succ_ne (N : Nat) : (List.range (N + 1)).filter (· ≠ N) = List.range N := by
  rw [List.range_succ, List.filter_append, List.filter_eq_self.mpr fun i mem => by
    simpa using Nat.ne_of_lt (List.mem_range.mp mem)]
  simp

/-- The sizes after one more record, `blength` doubled when the records reach it. -/
theorem sizeOk_succ {N B : Nat} (size : SizeOk N B) (room : N + 1 < noRecord) :
    SizeOk (N + 1) (if N + 1 = B then B + B else B) := by
  obtain ⟨-, ⟨rfl, rfl⟩ | ⟨k, rfl, low, high⟩⟩ := size
  · exact ⟨room, Or.inr ⟨0, by decide, by decide, by decide⟩⟩
  · refine ⟨room, Or.inr ?_⟩
    split_ifs with full
    · exact ⟨k + 1, by rw [Nat.pow_succ 2 (k + 1)]; omega, by omega, by rw [Nat.pow_succ 2 (k + 1)]; omega⟩
    · exact ⟨k, rfl, by omega, by omega⟩

/-- The doubled `blength` maps every hash number to the bucket it had. -/
theorem myHashMask_grow {N B : Nat} (size : SizeOk N B) (hashnr : Nat) :
    myHashMask hashnr (if N + 1 = B then B + B else B) (N + 1) = myHashMask hashnr B (N + 1) := by
  split_ifs with full
  · obtain ⟨-, ⟨rfl, rfl⟩ | ⟨k, rfl, -, -⟩⟩ := size
    · -- one slot, bucket 0 either way
      have one : hashnr &&& 1 < 1 → hashnr &&& 1 = 0 := by omega
      unfold myHashMask
      split_ifs <;> simp_all
    · rw [full, myHashMask_double]
  · rfl

variable {κ : Type} {hd : HashDef κ} {key : ρ → κ} {h : Hash ρ}

/-- The stored records are the records of the contents. -/
theorem stored_eq_map_content (h : Hash ρ) :
    h.stored = ((List.range h.records).map (content h.array)).map Prod.snd := by
  simp [Hash.stored, content, Function.comp_def]

/-- The contents of a valid index pair each record with its hash number. -/
theorem Valid.content_hashNr (valid : Valid hd key h) :
    ∀ x ∈ (List.range h.records).map (content h.array), x.1 = recHashnr hd key x.2 := by
  intro x mem
  obtain ⟨j, jMem, rfl⟩ := List.mem_map.mp mem
  exact valid.hashNr_eq j (List.mem_range.mp jMem)

/-- Slots whose contents are a permutation of pairs of records and their
hash numbers hold their records' hash numbers. -/
theorem hashNr_eq_of_perm {arr : Nat → HashLink ρ} {n : Nat} {L : List (Nat × ρ)}
    (perm : ((List.range n).map (content arr)).Perm L) (paired : ∀ x ∈ L, x.1 = recHashnr hd key x.2) :
    ∀ i < n, (arr i).hashNr = recHashnr hd key (arr i).data := fun i below =>
  paired (content arr i) (perm.mem_iff.mp (List.mem_map_of_mem (List.mem_range.mpr below)))

/-- `my_hash_first` finds a slot exactly when a stored record has the key. -/
theorem myHashFirst_isSome (valid : Valid hd key h) (consistent : Consistent hd) (k : κ) :
    (myHashFirst hd key h k).2.isSome ↔ ∃ r ∈ h.stored, hd.strnncollEq (key r) k = true := by
  have perm := searchRecords_perm valid consistent (k := k)
  cases found : (myHashFirst hd key h k).2 with
  | none =>
    rw [found, searchRecords_none] at perm
    have empty := List.nil_perm.mp perm
    simp only [List.filter_eq_nil_iff] at empty
    simpa using empty
  | some idx =>
    rw [found, searchRecords] at perm
    obtain ⟨r, mem, equal⟩ : ∃ r ∈ h.stored, hd.strnncollEq (key r) k = true := by
      have := List.mem_filter.mp (perm.mem_iff.mp (List.mem_cons_self ..))
      exact ⟨_, this.1, this.2⟩
    simpa using ⟨r, mem, equal⟩

variable [Inhabited ρ]

theorem halfbuff_eq (k : Nat) : 2 ^ (k + 1) >>> 1 = 2 ^ k := by
  rw [Nat.shiftRight_eq_div_pow, Nat.pow_succ, Nat.pow_one, Nat.mul_div_cancel _ (by decide)]

/-- With no record in bucket `records - halfbuff` the split stops at its first
slot: the array is as it was and the free slot is the new one. -/
theorem insertSplit_of_empty (empty : ∀ i < h.records, h.home i ≠ h.records - (h.blength >>> 1)) :
    insertSplit h = ⟨h.array, 0, h.records, 0, 0, default, 0, default, 0⟩ := by
  unfold insertSplit
  dsimp only
  split_ifs with walk
  · have below : h.records - (h.blength >>> 1) < h.records := by omega
    rw [splitLoop, if_pos ⟨rfl, empty _ below⟩]
    simp [splitFinish, lowfind, lowused, highfind, highused]
  · rfl

/-- The split phase of `my_hash_insert` on a threaded index: the slots below
`records + 1` but the free one are chained by the buckets of `records + 1`
records, and hold the records the slots below `records` held. -/
theorem insertSplit_spec (threaded : Threaded h) :
    (insertSplit h).empty < h.records + 1 ∧
      Chained (insertSplit h).array (fun n => myHashMask n h.blength (h.records + 1))
        (fun i => i < h.records + 1 ∧ i ≠ (insertSplit h).empty) ∧
      (((List.range (h.records + 1)).filter (· ≠ (insertSplit h).empty)).map (content (insertSplit h).array)).Perm
        ((List.range h.records).map (content h.array)) := by
  obtain ⟨N, B, arr₀⟩ := h
  obtain ⟨-, ⟨rfl, rfl⟩ | ⟨k, rfl, sizeLow, sizeHigh⟩⟩ := threaded.size
  · -- no record: nothing to split
    rw [insertSplit_of_empty fun i below => absurd below (Nat.not_lt_zero i)]
    refine ⟨Nat.zero_lt_one, ?_, by simp⟩
    rintro b ⟨j, ⟨below, other⟩, -⟩
    dsimp only at below other
    omega
  dsimp only at sizeLow sizeHigh
  have half := halfbuff_eq k
  have first : N - 2 ^ k + 2 ^ k = N := by omega
  by_cases used : ∃ i < N, myHashMask (arr₀ i).hashNr (2 ^ (k + 1)) N = N - 2 ^ k
  · -- the walk of bucket `N - 2 ^ k`, from `splitLoop_run` to `SplitInv.finish`
    obtain ⟨t, chain, members, noRec, short⟩ := threaded.bucket used
    simp only [Hash.home] at members
    have outside := split_outside members
    have own := ((members _).mp (List.mem_cons_self ..)).2
    have walk : insertSplit ⟨N, 2 ^ (k + 1), arr₀⟩ = splitFinish (splitLoop (2 ^ (k + 1)) N (N - 2 ^ k) (2 ^ k)
        (N + 1) ⟨arr₀, 0, N, 0, 0, default, 0, default, 0⟩ (N - 2 ^ k)) := by
      unfold insertSplit
      dsimp only
      rw [half, if_pos (by have := Nat.two_pow_pos k; omega)]
    obtain ⟨lu, hu, inv⟩ := splitLoop_run chain.linked chain.nodup chain.head outside noRec own t [] (N - 2 ^ k) _
      false false (N + 1) rfl (splitInv_start _ _ _ _) (by simp at short; omega)
    obtain ⟨lowFinal, highFinal, frame, emptyEq⟩ := inv.finish chain.linked chain.nodup chain.head outside
    rw [walk, emptyEq]
    exact ⟨split_free_lt members, split_chained sizeLow sizeHigh first threaded.chained chain members lowFinal
      highFinal frame, split_contents chain members lowFinal highFinal frame⟩
  · -- an empty bucket: the walk stops at once and no record changes its bucket
    have notHere : ∀ i < N, myHashMask (arr₀ i).hashNr (2 ^ (k + 1)) N ≠ N - 2 ^ k :=
      fun i below home => used ⟨i, below, home⟩
    rw [insertSplit_of_empty fun i below => by simpa [half, Hash.home] using notHere i below]
    refine ⟨Nat.lt_succ_self N, threaded.chained.rebucket (fun i => ?_) fun i below => ?_, ?_⟩
    · dsimp only
      constructor <;> intro <;> omega
    · rw [myHashMask_records_succ sizeLow sizeHigh, if_neg (notHere i below)]
    · rw [filter_range_succ_ne]

/-- `my_hash_insert` past its duplicate check keeps the index valid and
stores the record besides the others. -/
theorem myHashInsert_added (valid : Valid hd key h) (room : h.records + 1 < noRecord) {record : ρ}
    (added : (myHashInsert hd key h record).1 = false) :
    Valid hd key (myHashInsert hd key h record).2 ∧
      (myHashInsert hd key h record).2.stored.Perm (record :: h.stored) := by
  rw [myHashInsert_eq] at added ⊢
  by_cases duplicate : hd.unique = true ∧
      (myHashFirstFromHashValue hd key h (recHashnr hd key record) (key record)).isSome = true
  · rw [if_pos duplicate] at added
    cases added
  rw [if_neg duplicate]
  obtain ⟨eLt, chained, contents⟩ := insertSplit_spec valid.toThreaded
  have grow := myHashMask_grow valid.size
  have size := sizeOk_succ valid.size room
  have inRange : ∀ m, myHashMask m h.blength (h.records + 1) < h.records + 1 := fun m =>
    grow m ▸ myHashMask_lt size (Nat.succ_pos _) m
  have placed := placeRecord_chained chained eLt inRange (recHashnr hd key record) record
  -- the slots below `records + 1` hold the new record and the records before
  have allContents := (placeRecord_contents (M := fun n => myHashMask n h.blength (h.records + 1))
    (c := recHashnr hd key record) (r := record) (inRange _) eLt).trans (contents.cons _)
  refine ⟨⟨⟨size, ?_⟩, hashNr_eq_of_perm allContents fun x mem => ?_⟩, ?_⟩
  · dsimp only
    rw [show (fun n => myHashMask n (if h.records + 1 = h.blength then h.blength + h.blength else h.blength)
      (h.records + 1)) = fun n => myHashMask n h.blength (h.records + 1) from funext grow]
    exact placed
  · rcases List.mem_cons.mp mem with rfl | old
    · rfl
    · exact valid.content_hashNr x old
  · rw [stored_eq_map_content, stored_eq_map_content]
    simpa using allContents.map Prod.snd

/-- With `HASH_UNIQUE`, `my_hash_insert` fails exactly when a stored record
has an equal key, and never otherwise. -/
theorem myHashInsert_failed_iff (valid : Valid hd key h) (consistent : Consistent hd) (record : ρ) :
    (myHashInsert hd key h record).1 = true ↔
      hd.unique = true ∧ ∃ r ∈ h.stored, hd.strnncollEq (key r) (key record) = true := by
  have search : (myHashFirst hd key h (key record)).2 =
      myHashFirstFromHashValue hd key h (recHashnr hd key record) (key record) := rfl
  rw [myHashInsert_eq, ← myHashFirst_isSome valid consistent, search]
  by_cases duplicate : hd.unique = true ∧
      (myHashFirstFromHashValue hd key h (recHashnr hd key record) (key record)).isSome = true
  · exact iff_of_true (by rw [if_pos duplicate]) duplicate
  · exact iff_of_false (by rw [if_neg duplicate]; exact Bool.false_ne_true) duplicate

/-- A failed `my_hash_insert` leaves the `HASH` as it was. -/
theorem myHashInsert_failed (record : ρ) (failed : (myHashInsert hd key h record).1 = true) :
    (myHashInsert hd key h record).2 = h := by
  rw [myHashInsert_eq] at failed ⊢
  by_cases duplicate : hd.unique = true ∧
      (myHashFirstFromHashValue hd key h (recHashnr hd key record) (key record)).isSome = true
  · rw [if_pos duplicate]
  · rw [if_neg duplicate] at failed
    cases failed

end Insert

end MariaDB.MysysHash
