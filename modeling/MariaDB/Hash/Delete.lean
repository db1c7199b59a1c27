import MariaDB.Hash.Insert

set_option autoImplicit false

/- `my_hash_delete` on a valid index: the search of the record's slot, its
unlink, and the move of the last slot into the slot set free, with the
bucket that disappears merged into its low half. -/

namespace MariaDB.MysysHash

open ThreadedChain

variable {ρ : Type}

/-! ## The phases of `my_hash_delete` -/

section Phases

/-- The unlink of `my_hash_delete`: the slot `pos` found, after `gpos`. A
chain head with a successor takes the successor's slot instead; the result
is the array and the slot set free. -/
def unlinkRecord (data : Nat → HashLink ρ) (pos : Nat) : Option Nat → (Nat → HashLink ρ) × Nat
  | some g => (setNext data g (data pos).next, pos)
  | none =>
    if (data pos).next ≠ noRecord then (setLink data pos (data (data pos).next), (data pos).next)
    else (data, pos)

/-- The move of the last slot `lastpos` of `my_hash_delete` into the free
slot `empty`, with `newBucket` the buckets of the records left and
`oldBucket` those before the delete. -/
def moveLast (newBucket oldBucket : Nat → Nat) (lastpos fuel : Nat) (data : Nat → HashLink ρ) (empty : Nat) :
    Nat → HashLink ρ :=
  if empty = lastpos then data
  else
    let lastposHashnr := (data lastpos).hashNr
    let pos := newBucket lastposHashnr
    if pos = empty then setLink data empty (data lastpos)
    else
      let posHashnr := (data pos).hashNr
      let pos3 := newBucket posHashnr
      if pos ≠ pos3 then
        movelink pos empty fuel (setLink (setLink data empty (data pos)) pos (data lastpos)) pos3
      else
        let pos2 := oldBucket lastposHashnr
        if pos2 = oldBucket posHashnr ∧ pos2 ≠ lastpos then
          movelink lastpos empty fuel (setLink data empty (data lastpos)) pos
        else
          let idx := if pos2 = oldBucket posHashnr then pos else noRecord
          let data' := movelink idx (data pos).next fuel (setLink data empty (data lastpos)) empty
          setNext data' pos empty

variable {κ : Type} [DecidableEq ρ] (hd : HashDef κ) (key : ρ → κ)

/-- `my_hash_delete` is its search, its unlink and its move of the last slot. -/
theorem myHashDelete_eq (h : Hash ρ) (record : ρ) :
    myHashDelete hd key h record =
      if h.records = 0 then (true, h)
      else
        match chainSearch h.array record (h.records + 1)
            (myHashMask (recHashnr hd key record) h.blength h.records) none with
        | none => (true, h)
        | some (pos, gpos) =>
          (false, ⟨h.records - 1, if h.records - 1 < h.blength >>> 1 then h.blength >>> 1 else h.blength,
            moveLast (fun n => myHashMask n (if h.records - 1 < h.blength >>> 1 then h.blength >>> 1 else h.blength)
                (h.records - 1)) (fun n => myHashMask n h.blength (h.records - 1 + 1)) (h.records - 1)
              (h.records + 1) (unlinkRecord h.array pos gpos).1 (unlinkRecord h.array pos gpos).2⟩) := by
  rfl

end Phases

/-! ## The search -/

section Search

variable [DecidableEq ρ] {array : Nat → HashLink ρ} {record : ρ}

/-- Along a chain, `chainSearch` finds the first slot that holds the record,
with the slot before it. -/
theorem chainSearch_found {pos : Nat} {V : List Nat} (found : (array pos).data = record) (other : pos ≠ noRecord) :
    ∀ (U : List Nat) (a : Nat) (gpos : Option Nat) (fuel : Nat), (U ++ pos :: V).head? = some a →
      Linked (links array) noRecord (U ++ pos :: V) → noRecord ∉ U → (∀ i ∈ U, (array i).data ≠ record) →
        U.length < fuel → chainSearch array record fuel a gpos = some (pos, U.getLast?.or gpos) := by
  intro U
  induction U with
  | nil =>
    intro a gpos fuel head _ _ _ room
    obtain ⟨fuel, rfl⟩ := exists_succ_of_lt room
    obtain rfl : pos = a := by simpa using head
    simp [chainSearch, found]
  | cons x U ih =>
    intro a gpos fuel head linked outside before room
    obtain ⟨fuel, rfl⟩ := exists_succ_of_lt room
    obtain rfl : x = a := by simpa using head
    obtain ⟨next, rest⟩ := linked_cons.mp linked
    have headNext : (U ++ pos :: V).head? = some (array x).next := by
      rw [show (array x).next = (U ++ pos :: V).headD noRecord from next]
      cases U <;> rfl
    have more : (array x).next ≠ noRecord := by
      rw [show (array x).next = (U ++ pos :: V).headD noRecord from next]
      cases U with
      | nil => exact other
      | cons y U =>
        intro same
        have isNo : y = noRecord := same
        exact outside (List.mem_cons_of_mem x (isNo ▸ List.mem_cons_self ..))
    rw [chainSearch, if_neg (before x (List.mem_cons_self ..)), if_neg more,
      ih _ _ fuel headNext rest (fun mem => outside (List.mem_cons_of_mem x mem))
        (fun i mem => before i (List.mem_cons_of_mem x mem)) (by simp at room; omega)]
    cases U with
    | nil => rfl
    | cons y U =>
      rw [List.getLast?_cons_cons, List.getLast?_eq_some_getLast (List.cons_ne_nil y U)]
      rfl

/-- Along a chain without the record, `chainSearch` finds nothing. -/
theorem chainSearch_absent :
    ∀ (l : List Nat) (a : Nat) (gpos : Option Nat) (fuel : Nat), l.head? = some a →
      Linked (links array) noRecord l → noRecord ∉ l → (∀ i ∈ l, (array i).data ≠ record) →
        chainSearch array record fuel a gpos = none := by
  intro l
  induction l with
  | nil => intro a gpos fuel head; cases head
  | cons x l ih =>
    intro a gpos fuel head linked outside absent
    obtain rfl : x = a := by simpa using head
    cases fuel with
    | zero => rfl
    | succ fuel =>
      obtain ⟨next, rest⟩ := linked_cons.mp linked
      rw [chainSearch, if_neg (absent x (List.mem_cons_self ..))]
      split_ifs with last
      · rfl
      · have headNext : l.head? = some (array x).next := by
          rw [show (array x).next = l.headD noRecord from next]
          cases l with
          | nil => exact absurd next last
          | cons y l => rfl
        exact ih _ _ fuel headNext rest (fun mem => outside (List.mem_cons_of_mem x mem))
          fun i mem => absent i (List.mem_cons_of_mem x mem)

end Search

/-! ## The unlink -/

section Unlink

variable {arr : Nat → HashLink ρ} {M : Nat → Nat} {N b pos : Nat} {U V : List Nat}
  (chained : Chained arr M (· < N)) (chain : ChainAt arr b (U ++ pos :: V))
  (members : ∀ i, i ∈ U ++ pos :: V ↔ i < N ∧ M (arr i).hashNr = b)

include chained chain members in
/-- A slot after its chain's head is unlinked: its predecessor `p` takes its
link, and the slot is free. -/
theorem Chained.unlink_after {p : Nat} (last : U.getLast? = some p) :
    Chained (setNext arr p (arr pos).next) M (fun i => i < N ∧ i ≠ pos) := by
  obtain ⟨posLt, posHome⟩ := (members pos).mp (by simp)
  have pMem : p ∈ U := List.mem_of_getLast? last
  obtain ⟨pLt, pHome⟩ := (members p).mp (List.mem_append_left _ pMem)
  obtain ⟨posOut, distinct⟩ := List.nodup_cons.mp (List.nodup_middle.mp chain.nodup)
  have pV : p ∉ V := fun mem => (List.nodup_append.mp distinct).2.2 p pMem p mem rfl
  have hashSame : ∀ i, (setNext arr p (arr pos).next i).hashNr = (arr i).hashNr := fun i =>
    congrArg Prod.fst (congrFun (content_setNext arr p (arr pos).next) i)
  have offP : ∀ i ∈ U ++ V, i ≠ p → links (setNext arr p (arr pos).next) i = links arr i :=
    fun i _ iP => links_setNext_ne _ _ iP
  rintro c ⟨j, ⟨jLt, jPos⟩, home⟩
  by_cases cB : c = b
  · -- the record's bucket: its chain without the slot
    subst cB
    refine ⟨U ++ V, ⟨?_, ?_, ?_⟩, fun i => ?_⟩
    · have head := chain.head
      cases U with
      | nil => cases pMem
      | cons x U => simpa using head
    · obtain ⟨D, rfl⟩ := List.getLast?_eq_some_iff.mp last
      obtain ⟨before, after⟩ := linked_append.mp chain.linked
      obtain ⟨posNext, rest⟩ := linked_cons.mp after
      have dOut : p ∉ D := fun mem =>
        (List.nodup_append.mp (List.nodup_append.mp chain.nodup).1).2.2 p mem p (List.mem_singleton_self p) rfl
      rw [linked_append]
      refine ⟨before.redirect (by rw [links_setNext_same]; exact posNext) fun i mem => ?_, rest.congr fun i mem => ?_⟩
      · exact offP i (by simp [mem]) fun same => dOut (same ▸ mem)
      · exact offP i (by simp [mem]) fun same => pV (same ▸ mem)
    · exact ((List.sublist_cons_self pos V).append_left U).nodup chain.nodup
    · have memIff : i ∈ U ++ V ↔ i ∈ U ++ pos :: V ∧ i ≠ pos := by
        constructor
        · intro mem
          refine ⟨by simp at mem ⊢; tauto, fun same => posOut (same ▸ mem)⟩
        · rintro ⟨mem, iPos⟩
          simpa [iPos] using mem
      rw [memIff, members i, hashSame]
      tauto
  · refine chained.keep (S := fun i => i = p ∨ i = pos) (fun i s => ?_) (fun _ => Iff.rfl) ?_ ?_ ⟨j, ⟨jLt, jPos⟩, home⟩
    · simp only [not_or] at s
      exact ⟨setLink_ne _ _ s.1, by simp [s.2]⟩
    · rintro i (isP | isPos) usedI
      · rw [isP, hashSame]
        exact fun same => cB (same.symm.trans pHome)
      · exact absurd isPos usedI.2
    · rintro i (isP | isPos) _
      · rw [isP]
        exact fun same => cB (same.symm.trans pHome)
      · rw [isPos]
        exact fun same => cB (same.symm.trans posHome)

include chained chain members in
/-- A chain's head with a successor `n` takes the successor's record and
link; the successor's slot is free. -/
theorem Chained.unlink_head {n : Nat} {V' : List Nat} (first : U = []) (second : V = n :: V') :
    Chained (setLink arr pos (arr n)) M (fun i => i < N ∧ i ≠ n) := by
  subst first second
  simp only [List.nil_append] at chain members
  obtain rfl : pos = b := by simpa using chain.head
  obtain ⟨posLt, posHome⟩ := (members pos).mp (by simp)
  obtain ⟨nLt, nHome⟩ := (members n).mp (by simp)
  obtain ⟨posOut, distinct⟩ := List.nodup_cons.mp chain.nodup
  obtain ⟨nOut, -⟩ := List.nodup_cons.mp distinct
  have posN : pos ≠ n := fun same => posOut (by simp [same])
  have vOff : ∀ i ∈ V', i ≠ pos ∧ i ≠ n :=
    fun i mem => ⟨fun same => posOut (by simp [← same, mem]), fun same => nOut (same ▸ mem)⟩
  obtain ⟨nNext, rest⟩ := linked_cons.mp (linked_cons_cons.mp chain.linked).2
  rintro c ⟨j, ⟨jLt, jN⟩, home⟩
  by_cases cB : c = pos
  · -- the bucket's chain: its head holds the successor now
    subst cB
    refine ⟨c :: V', ⟨rfl, ?_, List.nodup_cons.mpr ⟨fun mem => posOut (by simp [mem]), distinct.of_cons⟩⟩,
      fun i => ?_⟩
    · rw [linked_cons]
      exact ⟨by rw [links, setLink_same]; exact nNext,
        rest.congr fun i mem => by rw [links, links, setLink_ne _ _ (vOff i mem).1]⟩
    · by_cases iC : i = c
      · rw [iC, setLink_same]
        simp [posLt, posN, nHome]
      by_cases iN : i = n
      · rw [iN, setLink_ne _ _ (Ne.symm posN)]
        exact iff_of_false (fun mem => nOut (by simpa [Ne.symm posN] using mem)) fun used => used.1.2 rfl
      have memIff : i ∈ c :: V' ↔ i ∈ c :: n :: V' := by simp [iN]
      rw [memIff, members i, setLink_ne _ _ iC]
      simp [iN]
  · refine chained.keep (S := fun i => i = pos ∨ i = n) (fun i s => ?_) (fun _ => Iff.rfl) ?_ ?_
      ⟨j, ⟨jLt, jN⟩, home⟩
    · simp only [not_or] at s
      exact ⟨setLink_ne _ _ s.1, by simp [s.2]⟩
    · rintro i (isPos | isN) usedI
      · rw [isPos, setLink_same]
        exact fun same => cB (same.symm.trans nHome)
      · exact absurd isN usedI.2
    · rintro i (isPos | isN) _
      · rw [isPos]
        exact fun same => cB (same.symm.trans posHome)
      · rw [isN]
        exact fun same => cB (same.symm.trans nHome)

include chained chain members in
/-- A chain's only slot is unlinked: the bucket is empty and the slot free. -/
theorem Chained.unlink_alone (first : U = []) (second : V = []) :
    Chained arr M (fun i => i < N ∧ i ≠ pos) := by
  subst first second
  simp only [List.nil_append] at members
  obtain ⟨posLt, posHome⟩ := (members pos).mp (by simp)
  rintro c ⟨j, ⟨jLt, jPos⟩, home⟩
  by_cases cB : c = b
  · exact absurd (List.mem_singleton.mp ((members j).mpr ⟨jLt, home.trans cB⟩)) jPos
  · refine chained.keep (S := (· = pos)) (fun i s => ⟨rfl, by simp [s]⟩) (fun _ => Iff.rfl) ?_ ?_
      ⟨j, ⟨jLt, jPos⟩, home⟩
    · intro i isPos usedI
      exact absurd isPos usedI.2
    · intro i isPos _
      rw [isPos]
      exact fun same => cB (same.symm.trans posHome)

include chained chain members in
/-- The unlink of the slot `pos` after `U` in its chain: the slot set free is
below `N`, the slots but that one are chained, and they hold the records but
the one of `pos`. -/
theorem unlinkRecord_spec (bound : N < noRecord) :
    (unlinkRecord arr pos U.getLast?).2 < N ∧
      Chained (unlinkRecord arr pos U.getLast?).1 M (fun i => i < N ∧ i ≠ (unlinkRecord arr pos U.getLast?).2) ∧
      ((List.range N).map (content arr)).Perm (content arr pos ::
        ((List.range N).filter (· ≠ (unlinkRecord arr pos U.getLast?).2)).map
          (content (unlinkRecord arr pos U.getLast?).1)) := by
  obtain ⟨posLt, -⟩ := (members pos).mp (by simp)
  -- when the slot `pos` is the one set free, every other slot keeps its record
  have inPlace : ∀ arr' : Nat → HashLink ρ, content arr' = content arr →
      ((List.range N).map (content arr)).Perm
        (content arr pos :: ((List.range N).filter (· ≠ pos)).map (content arr')) := fun arr' same => by
    rw [same]
    exact perm_place posLt posLt fun i => by by_cases iPos : i = pos <;> simp [iPos]
  cases lastU : U.getLast? with
  | some p => exact ⟨posLt, chained.unlink_after chain members lastU, inPlace _ (content_setNext ..)⟩
  | none =>
    obtain rfl := List.getLast?_eq_none_iff.mp lastU
    have posNext := (linked_cons.mp chain.linked).1
    cases V with
    | nil =>
      have alone : ¬(arr pos).next ≠ noRecord := fun more => more posNext
      simp only [unlinkRecord, if_neg alone]
      exact ⟨posLt, chained.unlink_alone chain members rfl rfl, inPlace arr rfl⟩
    | cons n V' =>
      obtain ⟨nLt, -⟩ := (members n).mp (by simp)
      have next : (arr pos).next = n := posNext
      have more : n ≠ noRecord := by omega
      simp only [unlinkRecord, next]
      rw [if_pos more]
      refine ⟨nLt, chained.unlink_head chain members rfl rfl, perm_place posLt nLt fun i => ?_⟩
      by_cases iPos : i = pos
      · simp [iPos]
      · simp only [if_neg iPos, content, setLink_ne _ _ iPos, setLink_same]
        split_ifs with iN <;> simp [iN]

end Unlink

/-! ## The buckets with one record less -/

section Merge

/-- The sizes after one record less, `blength` halved when the records fall
below half of it. -/
theorem sizeOk_pred {m B : Nat} (size : SizeOk (m + 1) B) : SizeOk m (if m < B >>> 1 then B >>> 1 else B) := by
  obtain ⟨room, ⟨zero, -⟩ | ⟨k, rfl, low, high⟩⟩ := size
  · omega
  rw [halfbuff_eq]
  refine ⟨by omega, ?_⟩
  split_ifs with halved
  · cases k with
    | zero => exact Or.inl ⟨by simp at low; omega, rfl⟩
    | succ j =>
      have double : 2 ^ (j + 1) = 2 ^ j + 2 ^ j := by rw [Nat.pow_succ]; omega
      exact Or.inr ⟨j, rfl, by omega, by omega⟩
  · exact Or.inr ⟨k, rfl, by omega, by omega⟩

/-- The level of the buckets with one record less: the new `blength` is
`2 ^ (j + 1)` with `2 ^ j <= m`, and it maps hash numbers as the old one did
for `m + 1` records. -/
theorem merge_level {m B : Nat} (size : SizeOk (m + 1) B) (pos : 0 < m) :
    ∃ j, (if m < B >>> 1 then B >>> 1 else B) = 2 ^ (j + 1) ∧ 2 ^ j ≤ m ∧ m < 2 ^ (j + 1) ∧
      ∀ n, myHashMask n B (m + 1) = myHashMask n (2 ^ (j + 1)) (m + 1) := by
  obtain ⟨-, ⟨zero, -⟩ | ⟨k, rfl, low, high⟩⟩ := size
  · omega
  rw [halfbuff_eq]
  split_ifs with halved
  · -- `m + 1 = 2 ^ k`: the mask with `2 ^ (k + 1)` is the one with `2 ^ k`
    cases k with
    | zero => simp at halved; omega
    | succ j =>
      have full : m + 1 = 2 ^ (j + 1) := by omega
      refine ⟨j, rfl, by rw [Nat.pow_succ] at full; omega, by omega, fun n => ?_⟩
      rw [full, Nat.pow_succ 2 (j + 1), Nat.mul_two, myHashMask_double]
  · exact ⟨k, rfl, by omega, by omega, fun n => rfl⟩

/-- With one record less, the bucket `m` that disappears merges into the bucket
`low`, and every other bucket keeps its hash numbers. -/
theorem myHashMask_merge {m B : Nat} (size : SizeOk (m + 1) B) (pos : 0 < m) :
    ∃ low < m, (∀ n, myHashMask n B (m + 1) ≠ m →
        myHashMask n (if m < B >>> 1 then B >>> 1 else B) m = myHashMask n B (m + 1)) ∧
      ∀ n, myHashMask n B (m + 1) = m → myHashMask n (if m < B >>> 1 then B >>> 1 else B) m = low := by
  obtain ⟨j, level, low, high, same⟩ := merge_level size pos
  have bit := Nat.two_pow_pos j
  refine ⟨m - 2 ^ j, by omega, fun n other => ?_, fun n merged => ?_⟩
  · rw [level, same, myHashMask_records_succ low high]
    rw [same, myHashMask_records_succ low high] at other
    split_ifs at other ⊢ with toLow <;> omega
  · rw [level]
    rw [same, myHashMask_records_succ low high] at merged
    have below := myHashMask_pow_lt low n
    split_ifs at merged with toLow <;> omega

end Merge

/-! ## The move of the last slot -/

section Move

variable {d : Nat → HashLink ρ} {Mo Mn : Nat → Nat} {m low e : Nat}
  (chained : Chained d Mo (fun i => i < m + 1 ∧ i ≠ e)) (eLt : e < m + 1)
  (keepHome : ∀ n, Mo n ≠ m → Mn n = Mo n) (mergeHome : ∀ n, Mo n = m → Mn n = low) (lowLt : low < m)
  (inRange : ∀ n, Mn n < m)

include keepHome mergeHome in
/-- A bucket other than `low` and `m` keeps its hash numbers. -/
theorem newHome_iff {b : Nat} (bLow : b ≠ low) (bLt : b < m) (n : Nat) : Mn n = b ↔ Mo n = b := by
  constructor
  · intro home
    by_cases merged : Mo n = m
    · exact absurd ((mergeHome n merged).symm.trans home) (Ne.symm bLow)
    · exact (keepHome n merged).symm.trans home
  · intro home
    exact (keepHome n (by omega)).trans home

include chained keepHome in
/-- With bucket `m` empty, no record changes its bucket. -/
theorem Chained.unmerged (empty : ∀ i, i < m + 1 ∧ i ≠ e → Mo (d i).hashNr ≠ m) :
    Chained d Mn (fun i => i < m + 1 ∧ i ≠ e) :=
  chained.rebucket (fun _ => Iff.rfl) fun i usedI => keepHome _ (empty i usedI)

include chained keepHome in
/-- The free slot is the last one: nothing moves, and bucket `m`, whose slot
is free, is empty. -/
theorem Chained.move_none (last : e = m) : Chained d Mn (· < m) := by
  have free : ¬(m < m + 1 ∧ m ≠ e) := fun used => used.2 last.symm
  refine (chained.unmerged keepHome fun i usedI => chained.not_home free usedI).rebucket
    (fun i => ⟨fun lt => ⟨by omega, by omega⟩, fun used => by obtain ⟨lt, ne⟩ := used; omega⟩) fun i _ => rfl

include chained eLt keepHome mergeHome inRange in
/-- The last record belongs at the free slot: it is of bucket `m`, which
merges into the bucket of the free slot, empty until now. -/
theorem Chained.move_to_empty (other : e ≠ m) (toEmpty : Mn (d m).hashNr = e) :
    Chained (setLink d e (d m)) Mn (· < m) := by
  have eLt' : e < m := by omega
  have usedM : m < m + 1 ∧ m ≠ e := ⟨by omega, Ne.symm other⟩
  have free : ¬(e < m + 1 ∧ e ≠ e) := fun used => used.2 rfl
  have lastOld : Mo (d m).hashNr = m := by
    by_contra notM
    exact chained.not_home free usedM ((keepHome _ notM).symm.trans toEmpty)
  have lowE : low = e := (mergeHome _ lastOld).symm.trans toEmpty
  obtain ⟨l, chain, members⟩ := chained m ⟨m, usedM, lastOld⟩
  obtain ⟨R, rfl⟩ := chain.eq_cons
  obtain ⟨mOut, distinct⟩ := List.nodup_cons.mp chain.nodup
  obtain ⟨mNext, rest⟩ := linked_cons.mp chain.linked
  have rOff : ∀ i ∈ R, i < m ∧ i ≠ e ∧ Mo (d i).hashNr = m := fun i mem => by
    obtain ⟨⟨iLt, iE⟩, home⟩ := (members i).mp (List.mem_cons_of_mem m mem)
    have iM : i ≠ m := fun same => mOut (same ▸ mem)
    exact ⟨by omega, iE, home⟩
  rintro b ⟨j, jLt, home⟩
  by_cases bE : b = e
  · -- bucket `e`: the last record at the bucket's own slot, then the rest of bucket `m`
    subst bE
    refine ⟨b :: R, ⟨rfl, ?_, List.nodup_cons.mpr ⟨fun mem => (rOff b mem).2.1 rfl, distinct⟩⟩, fun i => ?_⟩
    · rw [linked_cons]
      exact ⟨by rw [links, setLink_same]; exact mNext,
        rest.congr fun i mem => by rw [links, links, setLink_ne _ _ (rOff i mem).2.1]⟩
    by_cases iE : i = b
    · rw [iE, setLink_same]
      simp [eLt', toEmpty]
    rw [setLink_ne _ _ iE, List.mem_cons, or_iff_right iE]
    constructor
    · intro inR
      obtain ⟨iLt, -, iHome⟩ := rOff i inR
      exact ⟨iLt, lowE ▸ mergeHome _ iHome⟩
    · rintro ⟨iLt, iHome⟩
      -- bucket `e` was empty, so the record was of bucket `m`
      have merged : Mo (d i).hashNr = m := by
        by_contra notM
        exact chained.not_home free ⟨by omega, iE⟩ ((keepHome _ notM).symm.trans iHome)
      rcases List.mem_cons.mp ((members i).mpr ⟨⟨by omega, iE⟩, merged⟩) with isM | inR
      · omega
      · exact inR
  · have bLt : b < m := home ▸ inRange _
    refine chained.keep (S := fun i => i = e ∨ i = m) (fun i s => ?_)
      (newHome_iff keepHome mergeHome (lowE ▸ bE) bLt) ?_ ?_ ⟨j, jLt, home⟩
    · simp only [not_or] at s
      exact ⟨setLink_ne _ _ s.1, by omega⟩
    · rintro i (isE | isM) iLt
      · rw [isE, setLink_same, toEmpty]
        exact Ne.symm bE
      · exact absurd iLt (by omega)
    · rintro i (isE | isM) usedI
      · exact absurd isE usedI.2
      · rw [isM, lastOld]
        omega

include chained keepHome mergeHome inRange in
/-- When the last record's slot `pos` holds a record that belongs elsewhere,
the last record is of bucket `m`, and the record at `pos` of a bucket other
than `pos` and `m`, before and after. -/
theorem evict_buckets {pos : Nat} (home : Mn (d m).hashNr = pos) (other : e ≠ m)
    (wrong : pos ≠ Mn (d pos).hashNr) :
    Mo (d m).hashNr = m ∧ Mo (d pos).hashNr ≠ m ∧ Mo (d pos).hashNr ≠ pos ∧
      Mn (d pos).hashNr = Mo (d pos).hashNr := by
  have posLt : pos < m := home ▸ inRange _
  have usedM : m < m + 1 ∧ m ≠ e := ⟨by omega, Ne.symm other⟩
  have lastOld : Mo (d m).hashNr = m := by
    by_contra notM
    have oldPos : Mo (d m).hashNr = pos := (keepHome _ notM).symm.trans home
    have headPos := (chained.head_used usedM).2
    rw [oldPos] at headPos
    exact wrong ((keepHome _ (by omega)).trans headPos).symm
  have posLow : pos = low := home.symm.trans (mergeHome _ lastOld)
  have gM : Mo (d pos).hashNr ≠ m := fun same => wrong (posLow.trans (mergeHome _ same).symm)
  have gNew : Mn (d pos).hashNr = Mo (d pos).hashNr := keepHome _ gM
  exact ⟨lastOld, gM, fun same => wrong (gNew.trans same).symm, gNew⟩

include chained eLt keepHome mergeHome inRange in
/-- The last record belongs at a slot `pos` that holds a record of another
bucket `g`: that record moves to the free slot, relinked from its
predecessor `p` in the chain of `g`, and the last record, of bucket `m`,
takes `pos` at the head of the merged bucket. -/
theorem Chained.move_evict {pos p : Nat} (home : Mn (d m).hashNr = pos) (other : e ≠ m) (notEmpty : pos ≠ e)
    (wrong : pos ≠ Mn (d pos).hashNr) {W X : List Nat} (chainG : ChainAt d (Mo (d pos).hashNr) (W ++ pos :: X))
    (membersG : ∀ i, i ∈ W ++ pos :: X ↔ (i < m + 1 ∧ i ≠ e) ∧ Mo (d i).hashNr = Mo (d pos).hashNr)
    (last : W.getLast? = some p) {d' : Nat → HashLink ρ} (atPos : d' pos = d m) (atE : d' e = d pos)
    (atP : d' p = { d p with next := e }) (atOther : ∀ i, i ≠ pos → i ≠ e → i ≠ p → d' i = d i) :
    Chained d' Mn (· < m) := by
  have posLt : pos < m := home ▸ inRange _
  have usedM : m < m + 1 ∧ m ≠ e := ⟨by omega, Ne.symm other⟩
  -- the last record is of bucket `m`, which merges into bucket `pos`
  obtain ⟨lastOld, gM, gPos, gNew⟩ := evict_buckets chained keepHome mergeHome inRange home other wrong
  have posLow : pos = low := home.symm.trans (mergeHome _ lastOld)
  set g := Mo (d pos).hashNr with hg
  -- bucket `pos` was empty: its slot holds a record of bucket `g`
  have emptyPos : ∀ i, i < m + 1 ∧ i ≠ e → Mo (d i).hashNr ≠ pos := fun i usedI same => by
    have headPos := (chained.head_used usedI).2
    rw [same] at headPos
    exact gPos headPos
  obtain ⟨lm, chainM, membersM⟩ := chained m ⟨m, usedM, lastOld⟩
  obtain ⟨R, rfl⟩ := chainM.eq_cons
  obtain ⟨mOut, distinctR⟩ := List.nodup_cons.mp chainM.nodup
  obtain ⟨mNext, restR⟩ := linked_cons.mp chainM.linked
  have pMem : p ∈ W := List.mem_of_getLast? last
  obtain ⟨-, pHome⟩ := (membersG p).mp (List.mem_append_left _ pMem)
  obtain ⟨posOut, -⟩ := List.nodup_cons.mp (List.nodup_middle.mp chainG.nodup)
  have pPos : p ≠ pos := fun same => posOut (List.mem_append_left _ (same ▸ pMem))
  have pE : p ≠ e := ((membersG p).mp (List.mem_append_left _ pMem)).1.2
  have pNew : Mn (d p).hashNr = g := (keepHome _ (pHome ▸ gM)).trans pHome
  have eOutG : e ∉ W ++ X := fun mem =>
    ((membersG e).mp (((List.sublist_cons_self pos X).append_left W).subset mem)).1.2 rfl
  -- the rest of bucket `m`: records of bucket `m` off the slots written
  have rOff : ∀ i ∈ R, i < m ∧ i ≠ e ∧ i ≠ pos ∧ i ≠ p ∧ Mo (d i).hashNr = m := fun i mem => by
    obtain ⟨⟨iLt, iE⟩, iHome⟩ := (membersM i).mp (List.mem_cons_of_mem m mem)
    have iM : i ≠ m := fun same => mOut (same ▸ mem)
    refine ⟨by omega, iE, fun same => gM ?_, fun same => gM ?_, iHome⟩
    · rw [← iHome, same]
    · rw [← pHome, ← same, iHome]
  have hashOther : ∀ i, i ≠ pos → i ≠ e → (d' i).hashNr = (d i).hashNr := by
    intro i iPos iE
    by_cases iP : i = p
    · rw [iP, atP]
    · rw [atOther i iPos iE iP]
  rintro b ⟨j, jLt, homeJ⟩
  by_cases bPos : b = pos
  · -- bucket `pos`: the last record at the bucket's own slot, then the rest of bucket `m`
    rw [bPos]
    refine ⟨pos :: R, ⟨rfl, ?_, List.nodup_cons.mpr ⟨fun mem => (rOff pos mem).2.2.1 rfl, distinctR⟩⟩,
      fun i => ?_⟩
    · rw [linked_cons]
      refine ⟨by rw [links, atPos]; exact mNext, restR.congr fun i mem => ?_⟩
      obtain ⟨-, iE, iPos, iP, -⟩ := rOff i mem
      rw [links, links, atOther i iPos iE iP]
    by_cases iPos : i = pos
    · rw [iPos, atPos]
      simp [posLt, home]
    by_cases iE : i = e
    · rw [iE, atE, gNew]
      refine iff_of_false (fun mem => ?_) fun used => gPos used.2
      rcases List.mem_cons.mp mem with isPos | inR
      · exact notEmpty isPos.symm
      · exact (rOff e inR).2.1 rfl
    rw [hashOther i iPos iE, List.mem_cons, or_iff_right iPos]
    constructor
    · intro inR
      obtain ⟨iLt, -, -, -, iHome⟩ := rOff i inR
      exact ⟨iLt, posLow ▸ mergeHome _ iHome⟩
    · rintro ⟨iLt, iHome⟩
      have merged : Mo (d i).hashNr = m := by
        by_contra notM
        exact emptyPos i ⟨by omega, iE⟩ ((keepHome _ notM).symm.trans iHome)
      rcases List.mem_cons.mp ((membersM i).mpr ⟨⟨by omega, iE⟩, merged⟩) with isM | inR
      · omega
      · exact inR
  have bLt : b < m := homeJ ▸ inRange _
  have bLow : b ≠ low := fun same => bPos (same.trans posLow.symm)
  by_cases bG : b = g
  · -- bucket `g`: the free slot stands where `pos` stood
    rw [bG]
    refine ⟨W ++ e :: X, chainG.move_slot last (by simp [links, atP]) (by simp only [links, atE])
      (fun i mem iP => ?_) eOutG, fun i => ?_⟩
    · have iPos : i ≠ pos := fun same => posOut (same ▸ mem)
      have iE : i ≠ e := fun same => eOutG (same ▸ mem)
      simp only [links, atOther i iPos iE iP]
    by_cases iE : i = e
    · rw [iE, atE, gNew]
      simp
      omega
    by_cases iPos : i = pos
    · rw [iPos, atPos, home]
      exact iff_of_false (not_mem_move_slot posOut notEmpty) fun used => gPos used.2.symm
    have memIff : i ∈ W ++ e :: X ↔ i ∈ W ++ pos :: X := by simp [iE, iPos]
    rw [memIff, membersG i, hashOther i iPos iE, newHome_iff keepHome mergeHome (bG ▸ bLow) (bG ▸ bLt)]
    by_cases iM : i = m
    · rw [iM, lastOld]
      simp [Ne.symm gM]
    · constructor
      · rintro ⟨⟨iLt, -⟩, same⟩
        exact ⟨by omega, same⟩
      · rintro ⟨iLt, same⟩
        exact ⟨⟨by omega, iE⟩, same⟩
  · -- any other bucket keeps its chain
    refine chained.keep (S := fun i => i = pos ∨ i = e ∨ i = m ∨ i = p) (fun i s => ?_)
      (newHome_iff keepHome mergeHome bLow bLt) ?_ ?_ ⟨j, jLt, homeJ⟩
    · simp only [not_or] at s
      obtain ⟨iPos, iE, iM, iP⟩ := s
      exact ⟨atOther i iPos iE iP, by omega⟩
    · rintro i (isPos | isE | isM | isP) iLt
      · rw [isPos, atPos, home]
        exact Ne.symm bPos
      · rw [isE, atE, gNew]
        exact Ne.symm bG
      · exact absurd iLt (by omega)
      · rw [isP, atP]
        exact fun same => bG (same.symm.trans pNew)
    · rintro i (isPos | isE | isM | isP) usedI
      · rw [isPos]
        exact Ne.symm bG
      · exact absurd isE usedI.2
      · rw [isM, lastOld]
        omega
      · rw [isP, pHome]
        exact Ne.symm bG

include chained eLt keepHome in
/-- The last record is of a bucket `pos` other than `m`, whose slot holds a
record of its own: the last record moves to the free slot, relinked from
its predecessor `p` in the chain of `pos`. -/
theorem Chained.move_within {pos p : Nat} (home : Mn (d m).hashNr = pos) (other : e ≠ m)
    (stay : Mo (d m).hashNr ≠ m) {W X : List Nat} (chainP : ChainAt d pos (W ++ m :: X))
    (membersP' : ∀ i, i ∈ W ++ m :: X ↔ (i < m + 1 ∧ i ≠ e) ∧ Mo (d i).hashNr = pos)
    (last : W.getLast? = some p) {d' : Nat → HashLink ρ} (atE : d' e = d m) (atP : d' p = { d p with next := e })
    (atOther : ∀ i, i ≠ e → i ≠ p → d' i = d i) : Chained d' Mn (· < m) := by
  have usedM : m < m + 1 ∧ m ≠ e := ⟨by omega, Ne.symm other⟩
  -- bucket `m` is empty: its slot holds a record of bucket `pos`
  have emptyM : ∀ i, i < m + 1 ∧ i ≠ e → Mo (d i).hashNr ≠ m := fun i usedI same => by
    have headM := (chained.head_used usedI).2
    rw [same] at headM
    exact stay headM
  have chainedN : Chained d Mn (fun i => i < m + 1 ∧ i ≠ e) := chained.unmerged keepHome emptyM
  have membersP : ∀ i, i ∈ W ++ m :: X ↔ (i < m + 1 ∧ i ≠ e) ∧ Mn (d i).hashNr = pos := fun i => by
    rw [membersP' i]
    exact ⟨fun both => ⟨both.1, (keepHome _ (emptyM i both.1)).trans both.2⟩,
      fun both => ⟨both.1, (keepHome _ (emptyM i both.1)).symm.trans both.2⟩⟩
  have pMem : p ∈ W := List.mem_of_getLast? last
  obtain ⟨⟨pLt, pE⟩, pHome⟩ := (membersP p).mp (List.mem_append_left _ pMem)
  obtain ⟨mOut, -⟩ := List.nodup_cons.mp (List.nodup_middle.mp chainP.nodup)
  have eOut : e ∉ W ++ X := fun mem =>
    ((membersP e).mp (((List.sublist_cons_self m X).append_left W).subset mem)).1.2 rfl
  have hashOther : ∀ i, i ≠ e → (d' i).hashNr = (d i).hashNr := by
    intro i iE
    by_cases iP : i = p
    · rw [iP, atP]
    · rw [atOther i iE iP]
  rintro b ⟨j, jLt, homeJ⟩
  by_cases bPos : b = pos
  · -- bucket `pos`: the free slot stands where the last slot stood
    rw [bPos]
    refine ⟨W ++ e :: X, chainP.move_slot last (by simp [links, atP]) (by simp only [links, atE])
      (fun i mem iP => ?_) eOut, fun i => ?_⟩
    · simp only [links, atOther i (fun same => eOut (same ▸ mem)) iP]
    by_cases iE : i = e
    · rw [iE, atE, home]
      simp
      omega
    by_cases iM : i = m
    · rw [iM]
      exact iff_of_false (not_mem_move_slot mOut (Ne.symm other)) fun used => Nat.lt_irrefl m used.1
    have memIff : i ∈ W ++ e :: X ↔ i ∈ W ++ m :: X := by simp [iE, iM]
    rw [memIff, membersP i, hashOther i iE]
    constructor
    · rintro ⟨⟨iLt, -⟩, same⟩
      exact ⟨by omega, same⟩
    · rintro ⟨iLt, same⟩
      exact ⟨⟨by omega, iE⟩, same⟩
  · -- any other bucket keeps its chain
    refine chainedN.keep (S := fun i => i = e ∨ i = m ∨ i = p) (fun i s => ?_) (fun _ => Iff.rfl) ?_ ?_
      ⟨j, jLt, homeJ⟩
    · simp only [not_or] at s
      obtain ⟨iE, iM, iP⟩ := s
      exact ⟨atOther i iE iP, by omega⟩
    · rintro i (isE | isM | isP) iLt
      · rw [isE, atE, home]
        exact Ne.symm bPos
      · exact absurd iLt (by omega)
      · rw [isP, atP]
        exact fun same => bPos (same.symm.trans pHome)
    · rintro i (isE | isM | isP) usedI
      · exact absurd isE usedI.2
      · rw [isM, home]
        exact Ne.symm bPos
      · rw [isP, pHome]
        exact Ne.symm bPos

include chained eLt keepHome mergeHome inRange in
/-- Bucket `m` merges into bucket `pos`, whose slot keeps its record at the
head of the merged chain: the last record follows it at the free slot `e`,
then the path `T₁` of the last record's chain, whose last slot now leads to
the slots `T₂` that followed `pos`. -/
theorem Chained.move_merge {pos stop : Nat} {T₁ T₂ : List Nat} (home : Mn (d m).hashNr = pos) (other : e ≠ m)
    (notEmpty : pos ≠ e) (lastOld : Mo (d m).hashNr = m) (posNew : Mn (d pos).hashNr = pos)
    (path : Linked (links (setLink d e (d m))) stop (e :: T₁)) (after : Linked (links d) noRecord T₂)
    (posNext : links d pos = T₂.headD noRecord) (distinct : (T₁ ++ T₂).Nodup)
    (posOut : pos ∉ T₁ ++ T₂) (eOut : e ∉ T₁ ++ T₂)
    (members : ∀ i, i ∈ T₁ ++ T₂ ↔ (i < m + 1 ∧ i ≠ e) ∧ i ≠ pos ∧ i ≠ m ∧ Mn (d i).hashNr = pos) :
    Chained (setNext (setNext (setLink d e (d m)) ((e :: T₁).getLast (List.cons_ne_nil e T₁)) (d pos).next) pos e)
      Mn (· < m) := by
  set q := (e :: T₁).getLast (List.cons_ne_nil e T₁) with hq
  set d' := setNext (setNext (setLink d e (d m)) q (d pos).next) pos e with hd'
  have posLt : pos < m := home ▸ inRange _
  have posLow : pos = low := home.symm.trans (mergeHome _ lastOld)
  have qMem : q ∈ e :: T₁ := List.getLast_mem _
  have qPos : q ≠ pos := fun same => by
    rcases List.mem_cons.mp qMem with isE | inT
    · exact notEmpty (same.symm.trans isE)
    · exact posOut (List.mem_append_left _ (same ▸ inT))
  have qT₂ : q ∉ T₂ := fun mem => by
    rcases List.mem_cons.mp qMem with isE | inT
    · exact eOut (List.mem_append_right _ (isE ▸ mem))
    · exact (List.nodup_append.mp distinct).2.2 q inT q mem rfl
  -- what the placement wrote: the slot `pos`, the link of `q`, and the free slot
  have contentEq : content d' = content (setLink d e (d m)) := by rw [hd', content_setNext, content_setNext]
  have hashEq : ∀ i, (d' i).hashNr = (setLink d e (d m) i).hashNr := fun i =>
    congrArg Prod.fst (congrFun contentEq i)
  have atPos : d' pos = { d pos with next := e } := by
    rw [hd', setNext, setLink_same, setNext, setLink_ne _ _ (Ne.symm qPos), setLink_ne _ _ notEmpty]
  have linkQ : links d' q = (d pos).next := by rw [hd', links_setNext_ne _ _ qPos, links_setNext_same]
  have linkOther : ∀ i, i ≠ pos → i ≠ q → links d' i = links (setLink d e (d m)) i := fun i iPos iQ => by
    rw [hd', links_setNext_ne _ _ iPos, links_setNext_ne _ _ iQ]
  have hashE : Mn (d' e).hashNr = pos := by rw [hashEq, setLink_same, home]
  have hashOther : ∀ i, i ≠ e → (d' i).hashNr = (d i).hashNr := fun i iE => by rw [hashEq, setLink_ne _ _ iE]
  have mOut : m ∉ T₁ ++ T₂ := fun mem => ((members m).mp mem).2.2.1 rfl
  rintro b ⟨j, jLt, homeJ⟩
  by_cases bPos : b = pos
  · -- the merged bucket
    rw [bPos]
    refine ⟨pos :: e :: (T₁ ++ T₂), ⟨rfl, ?_, ?_⟩, fun i => ?_⟩
    · have eT₁ : e ∉ T₁ := fun mem => eOut (List.mem_append_left _ mem)
      have whole : e :: T₁ = (e :: T₁).dropLast ++ [q] := (List.dropLast_append_getLast _).symm
      have dropOff : ∀ i ∈ (e :: T₁).dropLast, i ≠ pos ∧ i ≠ q := fun i mem => by
        have nodupE : (e :: T₁).Nodup := List.nodup_cons.mpr ⟨eT₁, (List.nodup_append.mp distinct).1⟩
        rw [whole] at nodupE
        refine ⟨fun same => ?_, fun same => (List.nodup_append.mp nodupE).2.2 i mem q (by simp) same⟩
        have inE := List.dropLast_subset _ mem
        rcases List.mem_cons.mp inE with isE | inT
        · exact notEmpty (same.symm.trans isE)
        · exact posOut (List.mem_append_left _ (same ▸ inT))
      rw [linked_cons_cons, ← List.cons_append, linked_append]
      refine ⟨links_setNext_same _ _ _, ?_, after.congr fun i mem => ?_⟩
      · rw [whole] at path ⊢
        exact path.redirect (linkQ.trans posNext) fun i mem => linkOther i (dropOff i mem).1 (dropOff i mem).2
      · have iPos : i ≠ pos := fun same => posOut (List.mem_append_right _ (same ▸ mem))
        have iQ : i ≠ q := fun same => qT₂ (same ▸ mem)
        have iE : i ≠ e := fun same => eOut (List.mem_append_right _ (same ▸ mem))
        rw [linkOther i iPos iQ, links, links, setLink_ne _ _ iE]
    · exact List.nodup_cons.mpr ⟨fun mem => by
        rcases List.mem_cons.mp mem with isE | inT
        · exact notEmpty isE
        · exact posOut inT, List.nodup_cons.mpr ⟨eOut, distinct⟩⟩
    by_cases iPos : i = pos
    · rw [iPos, atPos]
      simp [posLt, posNew]
    by_cases iE : i = e
    · rw [iE, hashE]
      simp
      omega
    rw [hashOther i iE]
    simp only [List.mem_cons, iPos, iE, false_or]
    rw [members i]
    by_cases iM : i = m
    · subst iM
      exact iff_of_false (fun used => used.2.2.1 rfl) fun used => Nat.lt_irrefl _ used.1
    · constructor
      · rintro ⟨⟨iLt, -⟩, -, -, same⟩
        exact ⟨by omega, same⟩
      · rintro ⟨iLt, same⟩
        exact ⟨⟨by omega, iE⟩, iPos, iM, same⟩
  · -- any other bucket keeps its chain
    have bLt : b < m := homeJ ▸ inRange _
    have bLow : b ≠ low := fun same => bPos (same.trans posLow.symm)
    have offB : ∀ n, Mn n = pos → Mo n ≠ b := fun n same old =>
      bPos (((newHome_iff keepHome mergeHome bLow bLt n).mpr old).symm.trans same)
    have qHome : Mn (d' q).hashNr = pos := by
      rcases List.mem_cons.mp qMem with isE | inT
      · rw [isE, hashE]
      · rw [hashOther q fun same => eOut (List.mem_append_left _ (same ▸ inT))]
        exact ((members q).mp (List.mem_append_left _ inT)).2.2.2
    refine chained.keep (S := fun i => i = pos ∨ i = e ∨ i = m ∨ i = q) (fun i s => ?_)
      (newHome_iff keepHome mergeHome bLow bLt) ?_ ?_ ⟨j, jLt, homeJ⟩
    · simp only [not_or] at s
      obtain ⟨iPos, iE, iM, iQ⟩ := s
      refine ⟨?_, by omega⟩
      rw [hd', setNext, setLink_ne _ _ iPos, setNext, setLink_ne _ _ iQ, setLink_ne _ _ iE]
    · rintro i (isPos | isE | isM | isQ) iLt
      · rw [isPos, atPos]
        exact fun same => bPos (same.symm.trans posNew)
      · rw [isE, hashE]
        exact Ne.symm bPos
      · exact absurd iLt (by omega)
      · rw [isQ, qHome]
        exact Ne.symm bPos
    · rintro i (isPos | isE | isM | isQ) usedI
      · rw [isPos]
        exact offB _ posNew
      · exact absurd isE usedI.2
      · rw [isM, lastOld]
        omega
      · rw [isQ]
        have qE : q ≠ e := fun same => usedI.2 (isQ.trans same)
        exact offB _ (by rw [← hashOther q qE]; exact qHome)

include chained eLt keepHome mergeHome inRange in
/-- The branch of the move where the record at the last record's slot
belongs elsewhere: `movelink` walks its chain from its bucket's slot. -/
theorem moveLast_evict {fuel : Nat} (room : m + 1 < fuel) (other : e ≠ m) (notEmpty : Mn (d m).hashNr ≠ e)
    (wrong : Mn (d m).hashNr ≠ Mn (d (Mn (d m).hashNr)).hashNr) :
    Chained (movelink (Mn (d m).hashNr) e fuel (setLink (setLink d e (d (Mn (d m).hashNr))) (Mn (d m).hashNr) (d m))
      (Mn (d (Mn (d m).hashNr)).hashNr)) Mn (· < m) := by
  set pos := Mn (d m).hashNr with hPos
  have usedPos : pos < m + 1 ∧ pos ≠ e := ⟨by have := inRange (d m).hashNr; omega, notEmpty⟩
  obtain ⟨-, -, gPos, gNew⟩ := evict_buckets chained keepHome mergeHome inRange rfl other wrong
  obtain ⟨lg, chainG, membersG⟩ := chained _ ⟨pos, usedPos, rfl⟩
  obtain ⟨W, X, rfl⟩ := List.append_of_mem ((membersG pos).mpr ⟨usedPos, rfl⟩)
  obtain ⟨w, rfl⟩ := chainG.eq_cons_append (Ne.symm gPos)
  obtain ⟨posOut, -⟩ := List.nodup_cons.mp (List.nodup_middle.mp chainG.nodup)
  -- the path of `movelink`: the chain of the record's bucket up to `pos`
  have pathOff : ∀ i ∈ Mo (d pos).hashNr :: w, i ≠ pos ∧ i ≠ e := fun i mem =>
    ⟨fun same => posOut (List.mem_append_left _ (same ▸ mem)), ((membersG i).mp (List.mem_append_left _ mem)).1.2⟩
  have path : Linked (links (setLink (setLink d e (d pos)) pos (d m))) pos (Mo (d pos).hashNr :: w) :=
    (linked_append.mp chainG.linked).1.congr fun i mem => by
      rw [links, links, setLink_ne _ _ (pathOff i mem).1, setLink_ne _ _ (pathOff i mem).2]
  have pathShort : w.length < fuel := by
    have := length_le_of_nodup chainG.nodup fun i mem => ((membersG i).mp mem).1.1
    simp only [List.length_append, List.length_cons] at this
    omega
  rw [gNew, movelink_path w _ fuel path (fun mem => posOut (List.mem_append_left _ (List.mem_cons_of_mem _ mem)))
    pathShort]
  obtain ⟨pPos, pE⟩ := pathOff _ (List.getLast_mem (List.cons_ne_nil _ w))
  refine chained.move_evict eLt keepHome mergeHome inRange rfl other notEmpty wrong chainG membersG
    (List.getLast?_eq_some_getLast (List.cons_ne_nil _ w)) ?_ ?_ ?_ fun i iPos iE iP => ?_
  · rw [setNext, setLink_ne _ _ (Ne.symm pPos), setLink_same]
  · rw [setNext, setLink_ne _ _ (Ne.symm pE), setLink_ne _ _ (Ne.symm notEmpty), setLink_same]
  · rw [setNext, setLink_same, setLink_ne _ _ pPos, setLink_ne _ _ pE]
  · rw [setNext, setLink_ne _ _ iP, setLink_ne _ _ iPos, setLink_ne _ _ iE]

include chained eLt keepHome in
/-- The branch of the move where the last record's bucket is not `m`: it moves
to the free slot, and `movelink` walks its chain from the bucket's slot. -/
theorem moveLast_within {fuel : Nat} (room : m + 1 < fuel) (other : e ≠ m)
    (within : Mo (d m).hashNr = Mo (d (Mn (d m).hashNr)).hashNr ∧ Mo (d m).hashNr ≠ m) :
    Chained (movelink m e fuel (setLink d e (d m)) (Mn (d m).hashNr)) Mn (· < m) := by
  set pos := Mn (d m).hashNr with hPos
  have usedM : m < m + 1 ∧ m ≠ e := ⟨by omega, Ne.symm other⟩
  have lastHome : Mo (d m).hashNr = pos := (keepHome _ within.2).symm.trans hPos.symm
  have posM : m ≠ pos := fun same => within.2 (lastHome.trans same.symm)
  obtain ⟨lp, chainP, membersP⟩ := chained pos ⟨m, usedM, lastHome⟩
  obtain ⟨W, X, rfl⟩ := List.append_of_mem ((membersP m).mpr ⟨usedM, lastHome⟩)
  obtain ⟨w, rfl⟩ := chainP.eq_cons_append posM
  obtain ⟨mOut, -⟩ := List.nodup_cons.mp (List.nodup_middle.mp chainP.nodup)
  -- the path of `movelink`: the chain of bucket `pos` up to the last slot
  have pathOff : ∀ i ∈ pos :: w, i ≠ m ∧ i ≠ e := fun i mem =>
    ⟨fun same => mOut (List.mem_append_left _ (same ▸ mem)), ((membersP i).mp (List.mem_append_left _ mem)).1.2⟩
  have path : Linked (links (setLink d e (d m))) m (pos :: w) :=
    (linked_append.mp chainP.linked).1.congr fun i mem => by rw [links, links, setLink_ne _ _ (pathOff i mem).2]
  have pathShort : w.length < fuel := by
    have := length_le_of_nodup chainP.nodup fun i mem => ((membersP i).mp mem).1.1
    simp only [List.length_append, List.length_cons] at this
    omega
  rw [movelink_path w pos fuel path (fun mem => mOut (List.mem_append_left _ (List.mem_cons_of_mem _ mem)))
    pathShort]
  obtain ⟨pM, pE⟩ := pathOff _ (List.getLast_mem (List.cons_ne_nil pos w))
  refine chained.move_within eLt keepHome rfl other within.2 chainP membersP
    (List.getLast?_eq_some_getLast (List.cons_ne_nil pos w)) ?_ ?_ fun i iE iP => ?_
  · rw [setNext, setLink_ne _ _ (Ne.symm pE), setLink_same]
  · rw [setNext, setLink_same, setLink_ne _ _ pE]
  · rw [setNext, setLink_ne _ _ iP, setLink_ne _ _ iE]

include chained keepHome in
/-- Past the first branches of the move, the last record is of bucket `m`. -/
theorem merge_lastOld (other : e ≠ m)
    (within : ¬(Mo (d m).hashNr = Mo (d (Mn (d m).hashNr)).hashNr ∧ Mo (d m).hashNr ≠ m)) :
    Mo (d m).hashNr = m := by
  by_contra notM
  have oldPos : Mo (d m).hashNr = Mn (d m).hashNr := (keepHome _ notM).symm
  have headPos := (chained.head_used ⟨Nat.lt_succ_self m, Ne.symm other⟩).2
  rw [oldPos] at headPos
  exact within ⟨oldPos.trans headPos.symm, notM⟩

include chained eLt keepHome mergeHome inRange in
/-- The branch of the move where the last record and the record at its slot
`pos` are both of bucket `m`: `movelink` walks the chain of `m` from the free
slot, and `pos` heads the merged bucket. -/
theorem moveLast_mergeAfter {fuel : Nat} (room : m + 1 < fuel) (other : e ≠ m) (notEmpty : Mn (d m).hashNr ≠ e)
    (right : Mn (d m).hashNr = Mn (d (Mn (d m).hashNr)).hashNr)
    (within : ¬(Mo (d m).hashNr = Mo (d (Mn (d m).hashNr)).hashNr ∧ Mo (d m).hashNr ≠ m))
    (sameOld : Mo (d m).hashNr = Mo (d (Mn (d m).hashNr)).hashNr) :
    Chained (setNext (movelink (Mn (d m).hashNr) (d (Mn (d m).hashNr)).next fuel (setLink d e (d m)) e)
      (Mn (d m).hashNr) e) Mn (· < m) := by
  have lastOld := merge_lastOld chained keepHome other within
  set pos := Mn (d m).hashNr with hPos
  have posLt : pos < m := inRange _
  have posLow : pos = low := mergeHome _ lastOld
  have posOld : Mo (d pos).hashNr = m := sameOld.symm.trans lastOld
  have usedM : m < m + 1 ∧ m ≠ e := ⟨by omega, Ne.symm other⟩
  have usedPos : pos < m + 1 ∧ pos ≠ e := ⟨by omega, notEmpty⟩
  obtain ⟨lm, chainM, membersM⟩ := chained m ⟨m, usedM, lastOld⟩
  obtain ⟨R, rfl⟩ := chainM.eq_cons
  obtain ⟨mOut, distinctR⟩ := List.nodup_cons.mp chainM.nodup
  obtain ⟨mNext, restR⟩ := linked_cons.mp chainM.linked
  have posInR : pos ∈ R :=
    (List.mem_cons.mp ((membersM pos).mpr ⟨usedPos, posOld⟩)).resolve_left (by omega)
  obtain ⟨R₁, R₂, rfl⟩ := List.append_of_mem posInR
  have rE : ∀ i ∈ R₁ ++ pos :: R₂, i ≠ e := fun i mem => ((membersM i).mp (List.mem_cons_of_mem m mem)).1.2
  obtain ⟨posOut, distinct⟩ := List.nodup_cons.mp (List.nodup_middle.mp distinctR)
  obtain ⟨toPos, fromPos⟩ := linked_append.mp restR
  obtain ⟨posNext, after⟩ := linked_cons.mp fromPos
  -- the path of `movelink`: from the free slot, now the last record's, along the chain of `m` to `pos`
  have path : Linked (links (setLink d e (d m))) pos (e :: R₁) := by
    rw [linked_cons]
    refine ⟨?_, toPos.congr fun i mem => by rw [links, links, setLink_ne _ _ (rE i (by simp [mem]))]⟩
    rw [links, setLink_same]
    cases R₁ <;> exact mNext
  have pathShort : R₁.length < fuel := by
    have := length_le_of_nodup chainM.nodup fun i mem => ((membersM i).mp mem).1.1
    simp only [List.length_cons, List.length_append] at this
    omega
  rw [movelink_path R₁ e fuel path (fun mem => posOut (List.mem_append_left _ mem)) pathShort]
  refine chained.move_merge eLt keepHome mergeHome inRange rfl other notEmpty lastOld right.symm path after
    posNext distinct posOut (fun mem => rE e (by simp at mem ⊢; tauto) rfl) fun i => ⟨fun mem => ?_, ?_⟩
  · have inM : i ∈ m :: (R₁ ++ pos :: R₂) := by simp at mem ⊢; tauto
    obtain ⟨usedI, homeI⟩ := (membersM i).mp inM
    refine ⟨usedI, fun same => posOut (same ▸ mem), fun same => mOut ?_, posLow ▸ mergeHome _ homeI⟩
    rw [← same]
    simp at mem ⊢
    tauto
  · rintro ⟨usedI, iPos, iM, homeI⟩
    -- bucket `pos` was empty: its slot holds a record of bucket `m`
    have merged : Mo (d i).hashNr = m := by
      by_contra notM
      have oldPos : Mo (d i).hashNr = pos := (keepHome _ notM).symm.trans homeI
      have headPos := (chained.head_used usedI).2
      rw [oldPos] at headPos
      omega
    have inM := (membersM i).mpr ⟨usedI, merged⟩
    simp only [List.mem_cons, List.mem_append, iM, iPos, false_or] at inM
    simpa using inM

include chained eLt keepHome mergeHome inRange in
/-- The branch of the move where the last record is of bucket `m` and the
record at its slot `pos` heads bucket `pos`: `movelink` walks the chain of
`m` from the free slot to its end, which now leads on into bucket `pos`. -/
theorem moveLast_mergeJoin {fuel : Nat} (room : m + 1 < fuel) (bound : m < noRecord) (other : e ≠ m)
    (notEmpty : Mn (d m).hashNr ≠ e) (right : Mn (d m).hashNr = Mn (d (Mn (d m).hashNr)).hashNr)
    (within : ¬(Mo (d m).hashNr = Mo (d (Mn (d m).hashNr)).hashNr ∧ Mo (d m).hashNr ≠ m))
    (sameOld : ¬Mo (d m).hashNr = Mo (d (Mn (d m).hashNr)).hashNr) :
    Chained (setNext (movelink noRecord (d (Mn (d m).hashNr)).next fuel (setLink d e (d m)) e)
      (Mn (d m).hashNr) e) Mn (· < m) := by
  have lastOld := merge_lastOld chained keepHome other within
  set pos := Mn (d m).hashNr with hPos
  have posLt : pos < m := inRange _
  have posLow : pos = low := mergeHome _ lastOld
  have posNotM : Mo (d pos).hashNr ≠ m := fun same => sameOld (lastOld.trans same.symm)
  have posOld : Mo (d pos).hashNr = pos := (keepHome _ posNotM).symm.trans right.symm
  have usedM : m < m + 1 ∧ m ≠ e := ⟨by omega, Ne.symm other⟩
  have usedPos : pos < m + 1 ∧ pos ≠ e := ⟨by omega, notEmpty⟩
  obtain ⟨lm, chainM, membersM⟩ := chained m ⟨m, usedM, lastOld⟩
  obtain ⟨R, rfl⟩ := chainM.eq_cons
  obtain ⟨mOut, distinctR⟩ := List.nodup_cons.mp chainM.nodup
  obtain ⟨mNext, restR⟩ := linked_cons.mp chainM.linked
  obtain ⟨lp, chainP, membersP⟩ := chained pos ⟨pos, usedPos, posOld⟩
  obtain ⟨S, rfl⟩ := chainP.eq_cons
  obtain ⟨posOutS, distinctS⟩ := List.nodup_cons.mp chainP.nodup
  obtain ⟨posNext, after⟩ := linked_cons.mp chainP.linked
  have inR : ∀ i ∈ R, (i < m + 1 ∧ i ≠ e) ∧ Mo (d i).hashNr = m := fun i mem =>
    (membersM i).mp (List.mem_cons_of_mem m mem)
  have inS : ∀ i ∈ S, (i < m + 1 ∧ i ≠ e) ∧ Mo (d i).hashNr = pos := fun i mem =>
    (membersP i).mp (List.mem_cons_of_mem pos mem)
  have posOutR : pos ∉ R := fun mem => posNotM (inR pos mem).2
  -- the path of `movelink`: from the free slot, now the last record's, to the end of the chain of `m`
  have path : Linked (links (setLink d e (d m))) noRecord (e :: R) := by
    rw [linked_cons]
    refine ⟨by rw [links, setLink_same]; exact mNext, restR.congr fun i mem => ?_⟩
    rw [links, links, setLink_ne _ _ (inR i mem).1.2]
  have pathShort : R.length < fuel := by
    have := length_le_of_nodup chainM.nodup fun i mem => ((membersM i).mp mem).1.1
    simp only [List.length_cons] at this
    omega
  rw [movelink_path R e fuel path (fun mem => by have := (inR _ mem).1.1; omega) pathShort]
  have distinct : (R ++ S).Nodup := List.nodup_append.mpr ⟨distinctR, distinctS, fun a memA b memB same => by
    have homeA := (inR a memA).2
    rw [same, (inS b memB).2] at homeA
    omega⟩
  refine chained.move_merge eLt keepHome mergeHome inRange rfl other notEmpty lastOld right.symm path after
    posNext distinct (fun mem => ?_) (fun mem => ?_) fun i => ⟨fun mem => ?_, ?_⟩
  · rcases List.mem_append.mp mem with inRPos | inSPos
    · exact posOutR inRPos
    · exact posOutS inSPos
  · rcases List.mem_append.mp mem with inRE | inSE
    · exact (inR e inRE).1.2 rfl
    · exact (inS e inSE).1.2 rfl
  · rcases List.mem_append.mp mem with inRI | inSI
    · obtain ⟨usedI, homeI⟩ := inR i inRI
      exact ⟨usedI, fun same => posOutR (same ▸ inRI), fun same => mOut (same ▸ inRI), posLow ▸ mergeHome _ homeI⟩
    · obtain ⟨usedI, homeI⟩ := inS i inSI
      refine ⟨usedI, fun same => posOutS (same ▸ inSI), fun same => ?_, (keepHome _ (by omega)).trans homeI⟩
      rw [same, lastOld] at homeI
      omega
  · rintro ⟨usedI, iPos, iM, homeI⟩
    by_cases merged : Mo (d i).hashNr = m
    · have inM := (membersM i).mpr ⟨usedI, merged⟩
      exact List.mem_append_left _ ((List.mem_cons.mp inM).resolve_left iM)
    · have inP := (membersP i).mpr ⟨usedI, (keepHome _ merged).symm.trans homeI⟩
      exact List.mem_append_right _ ((List.mem_cons.mp inP).resolve_left iPos)

include chained eLt keepHome mergeHome inRange in
/-- The move of the last slot of `my_hash_delete` leaves the slots below `m`
chained by the buckets of `m` records. -/
theorem moveLast_chained {fuel : Nat} (room : m + 1 < fuel) (bound : m < noRecord) :
    Chained (moveLast Mn Mo m fuel d e) Mn (· < m) := by
  unfold moveLast
  by_cases last : e = m
  · rw [if_pos last]
    exact chained.move_none keepHome last
  rw [if_neg last]
  dsimp only
  by_cases toEmpty : Mn (d m).hashNr = e
  · rw [if_pos toEmpty]
    exact chained.move_to_empty eLt keepHome mergeHome inRange last toEmpty
  rw [if_neg toEmpty]
  by_cases wrong : Mn (d m).hashNr ≠ Mn (d (Mn (d m).hashNr)).hashNr
  · rw [if_pos wrong]
    exact moveLast_evict chained eLt keepHome mergeHome inRange room last toEmpty wrong
  rw [if_neg wrong]
  by_cases within : Mo (d m).hashNr = Mo (d (Mn (d m).hashNr)).hashNr ∧ Mo (d m).hashNr ≠ m
  · rw [if_pos within]
    exact moveLast_within chained eLt keepHome room last within
  rw [if_neg within]
  have right : Mn (d m).hashNr = Mn (d (Mn (d m).hashNr)).hashNr := not_not.mp wrong
  by_cases sameOld : Mo (d m).hashNr = Mo (d (Mn (d m).hashNr)).hashNr
  · rw [if_pos sameOld]
    exact moveLast_mergeAfter chained eLt keepHome mergeHome inRange room last toEmpty right within sameOld
  · rw [if_neg sameOld]
    exact moveLast_mergeJoin chained eLt keepHome mergeHome inRange room bound last toEmpty right within sameOld

/-- The slots below `m` after the record of slot `idx` moved to the free
slot `e` and the last record to `idx`: the values of the slots below `m + 1`
but `e`. -/
theorem perm_move_last {α : Type} {f f' : Nat → α} {m e idx : Nat} (eLt : e < m) (idxLt : idx < m)
    (place : ∀ i, f' i = if i = idx then f m else if i = e then f idx else f i) :
    ((List.range m).map f').Perm (((List.range (m + 1)).filter (· ≠ e)).map f) := by
  have split : (List.range (m + 1)).filter (· ≠ e) = (List.range m).filter (· ≠ e) ++ [m] := by
    rw [List.range_succ, List.filter_append]
    simp only [List.filter_cons, List.filter_nil, List.append_cancel_left_eq]
    simp only [decide_eq_true_eq, ne_eq, ite_eq_left_iff, not_not]
    omega
  rw [split, List.map_append, List.map_singleton]
  exact (perm_place idxLt eLt place).trans (List.perm_append_singleton _ _).symm

/-- The move of the last slot keeps the records of the slots below `m + 1`
but the free one. -/
theorem moveLast_contents {Mo Mn : Nat → Nat} {m e : Nat} (d : Nat → HashLink ρ) (fuel : Nat) (eLt : e < m + 1)
    (inRange : ∀ n, Mn n < m) :
    ((List.range m).map (content (moveLast Mn Mo m fuel d e))).Perm
      (((List.range (m + 1)).filter (· ≠ e)).map (content d)) := by
  unfold moveLast
  by_cases last : e = m
  · rw [if_pos last, last, filter_range_succ_ne]
  rw [if_neg last]
  dsimp only
  have eLt' : e < m := by omega
  -- the last record moved to the free slot
  have toFree : ∀ d' : Nat → HashLink ρ, content d' = content (setLink d e (d m)) →
      ((List.range m).map (content d')).Perm (((List.range (m + 1)).filter (· ≠ e)).map (content d)) :=
    fun d' same => perm_move_last eLt' eLt' fun i => by
      rw [same]
      by_cases iE : i = e
      · simp [iE, content]
      · simp [iE, content, setLink_ne _ _ iE]
  split_ifs with toEmpty wrong
  · exact toFree _ rfl
  · -- the record at `pos` moved to the free slot and the last record to `pos`
    rw [content_movelink]
    refine perm_move_last eLt' (inRange (d m).hashNr) fun i => ?_
    by_cases iPos : i = Mn (d m).hashNr
    · simp [iPos, content]
    · by_cases iE : i = e
      · simp [iE, content, setLink_ne _ _ (Ne.symm toEmpty), Ne.symm toEmpty]
      · simp [iPos, iE, content, setLink_ne _ _ iPos, setLink_ne _ _ iE]
  all_goals exact toFree _ (by simp only [content_movelink, content_setNext])

end Move

/-! ## The search of a stored record -/

section Found

variable [DecidableEq ρ] {h : Hash ρ} {record : ρ}

/-- From the bucket of a slot that holds the record, `chainSearch` finds the
first slot of the bucket's chain that holds it, and the slot before. -/
theorem chainSearch_of_stored (threaded : Threaded h) {s : Nat} (sLt : s < h.records)
    (found : (h.array s).data = record) :
    ∃ U pos V, ChainAt h.array (h.home s) (U ++ pos :: V) ∧
      (∀ i, i ∈ U ++ pos :: V ↔ i < h.records ∧ h.home i = h.home s) ∧ (h.array pos).data = record ∧
      chainSearch h.array record (h.records + 1) (h.home s) none = some (pos, U.getLast?) := by
  obtain ⟨t, chain, members, outside, short⟩ := threaded.bucket ⟨s, sLt, rfl⟩
  have some : (h.home s :: t).find? (fun i => (h.array i).data = record) ≠ none := fun none =>
    List.find?_eq_none.mp none s ((members s).mpr ⟨sLt, rfl⟩) (by simpa using found)
  obtain ⟨pos, hpos⟩ := Option.ne_none_iff_exists'.mp some
  obtain ⟨foundPos, U, V, split, before⟩ := List.find?_eq_some_iff_append.mp hpos
  rw [split] at chain members outside
  have posData : (h.array pos).data = record := by simpa using foundPos
  have noRec : noRecord ∉ U ++ pos :: V := fun mem => outside mem
  refine ⟨U, pos, V, chain, members, posData, ?_⟩
  rw [chainSearch_found posData (fun same => noRec (by simp [same])) U (h.home s) none (h.records + 1) chain.head
    chain.linked (fun mem => noRec (List.mem_append_left _ mem)) (fun i mem => by simpa using before i mem)
    (by have := congrArg List.length split; simp at this; omega), Option.or_none]

/-- From any stored slot, `chainSearch` of a record that is not stored finds
nothing. -/
theorem chainSearch_of_absent (threaded : Threaded h) {b : Nat} (bLt : b < h.records) (absent : record ∉ h.stored)
    (fuel : Nat) : chainSearch h.array record fuel b none = none := by
  obtain ⟨t, chain, members, outside, -⟩ := threaded.bucket ⟨b, bLt, rfl⟩
  obtain ⟨W, X, split⟩ := List.append_of_mem ((members b).mpr ⟨bLt, rfl⟩)
  rw [split] at chain members outside
  refine chainSearch_absent (b :: X) b none fuel rfl (linked_append.mp chain.linked).2
    (fun mem => outside (List.mem_append_right _ mem)) fun i mem same => absent ?_
  have iLt := ((members i).mp (List.mem_append_right _ mem)).1
  exact List.mem_map.mpr ⟨i, List.mem_range.mpr iLt, same⟩

end Found

/-! ## `my_hash_delete` -/

section Delete

variable {κ : Type} [DecidableEq ρ] {hd : HashDef κ} {key : ρ → κ} {h : Hash ρ} {record : ρ}

/-- From the bucket of a stored record's key, `chainSearch` finds the first
slot of the bucket's chain that holds the record, and the slot before. -/
theorem chainSearch_of_valid (valid : Valid hd key h) (stored : record ∈ h.stored) :
    ∃ U pos V, ChainAt h.array (myHashMask (recHashnr hd key record) h.blength h.records) (U ++ pos :: V) ∧
      (∀ i, i ∈ U ++ pos :: V ↔ i < h.records ∧ h.home i = myHashMask (recHashnr hd key record) h.blength h.records) ∧
      (h.array pos).data = record ∧
      chainSearch h.array record (h.records + 1) (myHashMask (recHashnr hd key record) h.blength h.records) none =
        some (pos, U.getLast?) := by
  obtain ⟨s, sMem, found⟩ := List.mem_map.mp stored
  have sLt := List.mem_range.mp sMem
  have start : myHashMask (recHashnr hd key record) h.blength h.records = h.home s := by
    rw [Hash.home, valid.hashNr_eq s sLt, found]
  rw [start]
  exact chainSearch_of_stored valid.toThreaded sLt found

/-- `my_hash_delete` of a record that is not stored returns `1` and leaves
the `HASH` as it was. -/
theorem myHashDelete_absent (valid : Valid hd key h) (absent : record ∉ h.stored) :
    myHashDelete hd key h record = (true, h) := by
  rw [myHashDelete_eq]
  by_cases empty : h.records = 0
  · rw [if_pos empty]
  rw [if_neg empty,
    chainSearch_of_absent valid.toThreaded (myHashMask_lt valid.size (Nat.pos_of_ne_zero empty) _) absent]

/-- `my_hash_delete` of a stored record returns `0`, keeps the index valid
and removes the record once. -/
theorem myHashDelete_removed (valid : Valid hd key h) (stored : record ∈ h.stored) :
    (myHashDelete hd key h record).1 = false ∧ Valid hd key (myHashDelete hd key h record).2 ∧
      (myHashDelete hd key h record).2.stored.Perm (h.stored.erase record) := by
  obtain ⟨U, pos, V, chain, members, posData, searched⟩ := chainSearch_of_valid valid stored
  have posLt := ((members pos).mp (by simp)).1
  obtain ⟨eLt, chained₁, contents₁⟩ := unlinkRecord_spec valid.chained chain members valid.size.1
  have oldContents := valid.content_hashNr
  have size := valid.size
  rw [myHashDelete_eq, if_neg (by omega), searched]
  dsimp only
  obtain ⟨N, B, arr⟩ := h
  obtain ⟨m, rfl⟩ : ∃ m, N = m + 1 := ⟨N - 1, by dsimp only at posLt; omega⟩
  dsimp only at *
  simp only [Nat.add_sub_cancel] at *
  set d := (unlinkRecord arr pos U.getLast?).1
  set e := (unlinkRecord arr pos U.getLast?).2
  have size' := sizeOk_pred size
  -- the slots below `m` after the move: the records but the deleted one
  have newContents : ((List.range m).map (content (moveLast (fun n => myHashMask n
      (if m < B >>> 1 then B >>> 1 else B) m) (fun n => myHashMask n B (m + 1)) m (m + 1 + 1) d e))).Perm
      (((List.range (m + 1)).filter (· ≠ e)).map (content d)) := by
    rcases Nat.eq_zero_or_pos m with rfl | mPos
    · have : e = 0 := by omega
      simp [this]
    · exact moveLast_contents d _ eLt fun n => myHashMask_lt size' mPos n
  refine ⟨trivial, ⟨⟨size', ?_⟩, hashNr_eq_of_perm newContents fun x mem =>
    oldContents x (contents₁.symm.mem_iff.mp (List.mem_cons_of_mem _ mem))⟩, ?_⟩
  · dsimp only
    rcases Nat.eq_zero_or_pos m with rfl | mPos
    · rintro b ⟨j, jLt, -⟩
      exact absurd jLt (Nat.not_lt_zero j)
    · obtain ⟨low, lowLt, keepHome, mergeHome⟩ := myHashMask_merge size mPos
      exact moveLast_chained chained₁ eLt keepHome mergeHome (fun n => myHashMask_lt size' mPos n)
        (Nat.lt_succ_self _) (by have := size.1; omega)
  · -- the stored records: the record, then those the move keeps
    have before : (((List.range (m + 1)).map (content arr)).map Prod.snd).Perm
        (record :: (((List.range (m + 1)).filter (· ≠ e)).map (content d)).map Prod.snd) := by
      simpa [content, posData] using contents₁.map Prod.snd
    rw [stored_eq_map_content, stored_eq_map_content]
    refine (newContents.map Prod.snd).trans (List.Perm.cons_inv (a := record) ?_)
    exact before.symm.trans (List.perm_cons_erase (by simpa [stored_eq_map_content] using stored))

end Delete

end MariaDB.MysysHash
