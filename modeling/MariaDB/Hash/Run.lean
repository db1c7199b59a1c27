import MariaDB.Hash.Update

set_option autoImplicit false

/- A caller's runs of `my_hash_insert`, `my_hash_delete` and
`my_hash_update` on a `HASH` from `my_hash_init2`, and the index of records
with keys that they implement. -/

namespace MariaDB.MysysHash

variable {ρ κ : Type}

/-! ## The index a `HASH` stands for -/

/-- A call on a `HASH`. `update record newKey` is the caller's change of the
record's key to `newKey`, then `my_hash_update` with the old key. -/
inductive HashCall (ρ κ : Type) where
  | insert (record : ρ)
  | delete (record : ρ)
  | update (record : ρ) (newKey : κ)

/-- What a `HASH` holds: its records, in no order, and the key of each. -/
structure IndexSpec (ρ κ : Type) where
  records : List ρ
  key : ρ → κ

namespace IndexSpec

variable [DecidableEq ρ] (hd : HashDef κ)

/-- The empty index of records with the keys `key`. -/
def init (key : ρ → κ) : IndexSpec ρ κ := ⟨[], key⟩

/-- The records whose key equals `k`. -/
def search (a : IndexSpec ρ κ) (k : κ) : List ρ := a.records.filter fun r => hd.strnncollEq (a.key r) k

/-- The calls on the index, `true` for a failure: with `HASH_UNIQUE` an
insert, or a change to a key, that another record has fails, and a delete
of a record not held fails. -/
def call (a : IndexSpec ρ κ) : HashCall ρ κ → Bool × IndexSpec ρ κ
  | .insert r =>
    if hd.unique && a.records.any (fun x => hd.strnncollEq (a.key x) (a.key r)) then (true, a)
    else (false, { a with records := r :: a.records })
  | .delete r => if r ∈ a.records then (false, { a with records := a.records.erase r }) else (true, a)
  | .update r k =>
    if hd.unique && a.records.any (fun x => x != r && hd.strnncollEq (a.key x) k) then (true, a)
    else (false, { a with key := Function.update a.key r k })

/-- The results of a run of calls, and the index after it. -/
def run (a : IndexSpec ρ κ) : List (HashCall ρ κ) → List Bool × IndexSpec ρ κ
  | [] => ([], a)
  | c :: cs => ((a.call hd c).1 :: ((a.call hd c).2.run cs).1, ((a.call hd c).2.run cs).2)

/-- The calls hash.c is made for: a record, which it identifies by its
pointer, is inserted while it is not held and below `NO_RECORD` records,
and its key changes while it is held. -/
def Admissible (a : IndexSpec ρ κ) : HashCall ρ κ → Prop
  | .insert r => r ∉ a.records ∧ a.records.length + 1 < noRecord
  | .delete _ => True
  | .update r _ => r ∈ a.records

instance (a : IndexSpec ρ κ) (c : HashCall ρ κ) : Decidable (a.Admissible c) := by
  cases c <;> unfold Admissible <;> infer_instance

/-- Each call of a run is admissible at the index it meets. -/
def AdmissibleRun (a : IndexSpec ρ κ) : List (HashCall ρ κ) → Prop
  | [] => True
  | c :: cs => a.Admissible c ∧ (a.call hd c).2.AdmissibleRun cs

instance decidableAdmissibleRun : (a : IndexSpec ρ κ) → (cs : List (HashCall ρ κ)) → Decidable (a.AdmissibleRun hd cs)
  | _, [] => isTrue trivial
  | a, c :: cs =>
    have := decidableAdmissibleRun (a.call hd c).2 cs
    inferInstanceAs (Decidable (a.Admissible c ∧ _))

end IndexSpec

/-! ## Runs of calls on a `HASH` -/

/-- A `HASH` and the keys its records have. -/
structure HashState (ρ κ : Type) where
  hash : Hash ρ
  key : ρ → κ

section Calls

variable [Inhabited ρ] [DecidableEq ρ] (hd : HashDef κ)

/-- `my_hash_init2` for records with the keys `key`. -/
def HashState.init (key : ρ → κ) : HashState ρ κ := ⟨myHashInit2, key⟩

/-- A call on the `HASH`. A caller whose `my_hash_update` fails puts the
record's old key back. -/
def hashCall (s : HashState ρ κ) : HashCall ρ κ → Bool × HashState ρ κ
  | .insert r => ((myHashInsert hd s.key s.hash r).1, ⟨(myHashInsert hd s.key s.hash r).2, s.key⟩)
  | .delete r => ((myHashDelete hd s.key s.hash r).1, ⟨(myHashDelete hd s.key s.hash r).2, s.key⟩)
  | .update r k =>
    let key := Function.update s.key r k
    let result := myHashUpdate hd key s.hash r (s.key r)
    (result.1, ⟨result.2, if result.1 then s.key else key⟩)

/-- The results of a run of calls, and the `HASH` after it. -/
def hashRun (s : HashState ρ κ) : List (HashCall ρ κ) → List Bool × HashState ρ κ
  | [] => ([], s)
  | c :: cs => ((hashCall hd s c).1 :: (hashRun (hashCall hd s c).2 cs).1, (hashRun (hashCall hd s c).2 cs).2)

end Calls

/-- A record inserted twice, which is not admissible, breaks the index: the
key change of the record rehomes one copy, and `my_hash_check` finds the
other in the bucket of the old key. -/
theorem hashRun_insert_twice :
    ¬(IndexSpec.init fun _ : Nat => (0 : Nat)).AdmissibleRun ⟨id, (· == ·), false⟩
        [.insert 0, .insert 0, .update 0 1] ∧
      myHashCheck ⟨id, (· == ·), false⟩
        (hashRun ⟨id, (· == ·), false⟩ (HashState.init fun _ : Nat => (0 : Nat)) [.insert 0, .insert 0, .update 0 1]).2.key
        (hashRun ⟨id, (· == ·), false⟩ (HashState.init fun _ : Nat => (0 : Nat))
          [.insert 0, .insert 0, .update 0 1]).2.hash = true :=
  ⟨by decide, by decide⟩

/-! ## A `HASH` implements the index -/

section Represents

variable {hd : HashDef κ}

/-- The number of records is the number of slots read. -/
theorem length_stored (h : Hash ρ) : h.stored.length = h.records := by
  simp [Hash.stored]

/-- The duplicate test of the index, on a `Bool` list scan. -/
theorem unique_any_iff (l : List ρ) (f : ρ → Bool) :
    (hd.unique && l.any f) = true ↔ hd.unique = true ∧ ∃ x ∈ l, f x = true := by
  simp [List.any_eq_true]

variable (hd) in
/-- A `HASH` that stands for an index: valid for the index's keys, and
holding its records, each once. -/
structure Represents (s : HashState ρ κ) (a : IndexSpec ρ κ) : Prop where
  valid : Valid hd s.key s.hash
  stored : s.hash.stored.Perm a.records
  key : s.key = a.key
  distinct : a.records.Nodup

theorem represents_init [Inhabited ρ] (key : ρ → κ) : Represents hd (HashState.init key) (IndexSpec.init key) :=
  ⟨myHashInit2_valid hd key, by simp [Hash.stored, HashState.init, myHashInit2, IndexSpec.init], rfl,
    List.nodup_nil⟩

variable [Inhabited ρ] [DecidableEq ρ] {s : HashState ρ κ} {a : IndexSpec ρ κ}

/-- A delete agrees with the index. -/
theorem Represents.delete (rep : Represents hd s a) (r : ρ) :
    (hashCall hd s (.delete r)).1 = (a.call hd (.delete r)).1 ∧
      Represents hd (hashCall hd s (.delete r)).2 (a.call hd (.delete r)).2 := by
  simp only [hashCall, IndexSpec.call]
  by_cases held : r ∈ a.records
  · obtain ⟨removed, valid, stored⟩ := myHashDelete_removed rep.valid (rep.stored.mem_iff.mpr held)
    rw [if_pos held, removed]
    exact ⟨rfl, valid, stored.trans (rep.stored.erase r), rep.key, rep.distinct.erase r⟩
  · rw [if_neg held, myHashDelete_absent rep.valid fun stored => held (rep.stored.mem_iff.mp stored)]
    exact ⟨rfl, rep⟩

variable (consistent : Consistent hd)
include consistent

/-- An admissible insert agrees with the index. -/
theorem Represents.insert (rep : Represents hd s a) {r : ρ} (admissible : a.Admissible (.insert r)) :
    (hashCall hd s (.insert r)).1 = (a.call hd (.insert r)).1 ∧
      Represents hd (hashCall hd s (.insert r)).2 (a.call hd (.insert r)).2 := by
  obtain ⟨absent, room⟩ := admissible
  have failedIff := myHashInsert_failed_iff rep.valid consistent r
  have sameTest : (hd.unique = true ∧ ∃ x ∈ s.hash.stored, hd.strnncollEq (s.key x) (s.key r) = true) ↔
      (hd.unique && a.records.any fun x => hd.strnncollEq (a.key x) (a.key r)) = true := by
    rw [unique_any_iff, rep.key]
    exact and_congr_right fun _ => exists_congr fun x => and_congr_left fun _ => rep.stored.mem_iff
  simp only [hashCall, IndexSpec.call]
  by_cases failed : (myHashInsert hd s.key s.hash r).1 = true
  · -- a duplicate: the `HASH` is as it was
    rw [if_pos (sameTest.mp (failedIff.mp failed)), failed, myHashInsert_failed r failed]
    exact ⟨rfl, rep⟩
  · have added : (myHashInsert hd s.key s.hash r).1 = false := by simpa using failed
    rw [if_neg fun dup => failed (failedIff.mpr (sameTest.mpr dup)), added]
    have room' : s.hash.records + 1 < noRecord := by rw [← length_stored, rep.stored.length_eq]; exact room
    obtain ⟨valid, stored⟩ := myHashInsert_added rep.valid room' added
    exact ⟨rfl, valid, stored.trans (rep.stored.cons r), rep.key, List.nodup_cons.mpr ⟨absent, rep.distinct⟩⟩

/-- An admissible key change agrees with the index. -/
theorem Represents.update (rep : Represents hd s a) {r : ρ} {k : κ} (admissible : a.Admissible (.update r k)) :
    (hashCall hd s (.update r k)).1 = (a.call hd (.update r k)).1 ∧
      Represents hd (hashCall hd s (.update r k)).2 (a.call hd (.update r k)).2 := by
  have stored : r ∈ s.hash.stored := rep.stored.mem_iff.mpr admissible
  have once : s.hash.stored.count r = 1 :=
    List.count_eq_one_of_mem ((rep.stored.nodup_iff).mpr rep.distinct) stored
  have failedIff := myHashUpdate_failed_iff rep.valid consistent stored k
  have sameTest : (hd.unique = true ∧ ∃ x ∈ s.hash.stored, x ≠ r ∧ hd.strnncollEq (s.key x) k = true) ↔
      (hd.unique && a.records.any fun x => x != r && hd.strnncollEq (a.key x) k) = true := by
    rw [unique_any_iff, rep.key]
    refine and_congr_right fun _ => exists_congr fun x => ?_
    rw [rep.stored.mem_iff]
    simp
  simp only [hashCall, IndexSpec.call]
  by_cases failed : (myHashUpdate hd (Function.update s.key r k) s.hash r (s.key r)).1 = true
  · -- a duplicate: the `HASH` is as it was and the caller puts the old key back
    rw [if_pos (sameTest.mp (failedIff.mp failed)), failed, if_pos rfl, myHashUpdate_failed _ failed]
    exact ⟨rfl, rep⟩
  · have updated : (myHashUpdate hd (Function.update s.key r k) s.hash r (s.key r)).1 = false := by
      simpa using failed
    rw [if_neg fun dup => failed (failedIff.mpr (sameTest.mpr dup)), updated, if_neg Bool.false_ne_true]
    obtain ⟨valid, kept⟩ := myHashUpdate_rekeyed rep.valid once k updated
    exact ⟨rfl, valid, kept.trans rep.stored, by rw [rep.key], rep.distinct⟩

/-- Every admissible call agrees with the index. -/
theorem Represents.call (rep : Represents hd s a) {c : HashCall ρ κ} (admissible : a.Admissible c) :
    (hashCall hd s c).1 = (a.call hd c).1 ∧ Represents hd (hashCall hd s c).2 (a.call hd c).2 := by
  cases c with
  | insert r => exact rep.insert consistent admissible
  | delete r => exact rep.delete r
  | update r k => exact rep.update consistent admissible

/-- An admissible run agrees with the index, call by call. -/
theorem Represents.run (rep : Represents hd s a) {cs : List (HashCall ρ κ)} (admissible : a.AdmissibleRun hd cs) :
    (hashRun hd s cs).1 = (a.run hd cs).1 ∧ Represents hd (hashRun hd s cs).2 (a.run hd cs).2 := by
  induction cs generalizing s a with
  | nil => exact ⟨rfl, rep⟩
  | cons c cs ih =>
    obtain ⟨first, rest⟩ := admissible
    obtain ⟨sameResult, rep'⟩ := rep.call consistent first
    obtain ⟨sameResults, repEnd⟩ := ih rep' rest
    simp only [hashRun, IndexSpec.run]
    exact ⟨by rw [sameResult, sameResults], repEnd⟩

end Represents

/-! ## What a caller observes -/

section Implements

variable (hd : HashDef κ)

/-- What a caller sees of a `HASH` that implements an index: `my_hash_check`
finds no error, the records are the index's, `blength` is a power of two
with `records < blength <= 2 * records` once a record is stored, and
`my_hash_first` then `my_hash_next` read the records with the key sought,
each once. -/
structure Implements (s : HashState ρ κ) (a : IndexSpec ρ κ) : Prop where
  check : myHashCheck hd s.key s.hash = false
  records : s.hash.records = a.records.length
  stored : s.hash.stored.Perm a.records
  key : s.key = a.key
  blength_pow : ∃ k, s.hash.blength = 2 ^ k
  records_lt : s.hash.records < s.hash.blength
  blength_le : s.hash.records = 0 ∨ s.hash.blength ≤ 2 * s.hash.records
  search : ∀ k, (searchRecords hd s.key s.hash k (s.hash.records + 1) (myHashFirst hd s.key s.hash k).2).Perm
    (a.search hd k)

variable {hd} {s : HashState ρ κ} {a : IndexSpec ρ κ}

/-- The bounds of `blength` a `HASH` keeps. -/
theorem SizeOk.blength {records blength : Nat} (size : SizeOk records blength) :
    (∃ k, blength = 2 ^ k) ∧ records < blength ∧ (records = 0 ∨ blength ≤ 2 * records) := by
  obtain ⟨-, ⟨rfl, rfl⟩ | ⟨k, rfl, low, high⟩⟩ := size
  · exact ⟨⟨0, rfl⟩, Nat.zero_lt_one, Or.inl rfl⟩
  · refine ⟨⟨k + 1, rfl⟩, high, Or.inr ?_⟩
    rw [Nat.pow_succ]
    omega

/-- A `HASH` that stands for an index implements it. -/
theorem Represents.implements (consistent : Consistent hd) (rep : Represents hd s a) : Implements hd s a := by
  obtain ⟨pow, below, above⟩ := rep.valid.size.blength
  refine ⟨myHashCheck_valid rep.valid, by rw [← length_stored, rep.stored.length_eq], rep.stored, rep.key, pow, below,
    above, fun k => ?_⟩
  have read := searchRecords_perm rep.valid consistent (k := k)
  rw [rep.key] at read ⊢
  exact read.trans (rep.stored.filter _)

end Implements


/-! ## Runs from `my_hash_init2` -/

section Run

variable [Inhabited ρ] [DecidableEq ρ] {hd : HashDef κ}

end Run

end MariaDB.MysysHash
