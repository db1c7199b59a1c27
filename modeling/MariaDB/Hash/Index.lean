import Mathlib.Data.List.Nodup
import Mathlib.Data.List.Perm.Basic
import Mathlib.Data.Nat.Bitwise
import Mathlib.Algebra.Group.Nat.Defs
import MariaDB.Hash.Basic
import MariaDB.Chain.Threaded

set_option autoImplicit false

/- The index a `HASH` is meant to be, and what the searches and
`my_hash_check` make of a valid one. Each bucket's used slots are threaded
by `next`, from the bucket's own slot on; `my_hash_mask` gives the bucket of
a hash number. -/

namespace MariaDB.MysysHash

open ThreadedChain

variable {ρ κ : Type}

/-- The `next` links of the slots. -/
def links (array : Nat → HashLink ρ) (i : Nat) : Nat := (array i).next

/-- The hash number and the record of a slot. -/
def content (array : Nat → HashLink ρ) (i : Nat) : Nat × ρ := ((array i).hashNr, (array i).data)

@[simp] theorem setLink_same (array : Nat → HashLink ρ) (i : Nat) (link : HashLink ρ) :
    setLink array i link i = link := by
  simp [setLink]

theorem setLink_ne (array : Nat → HashLink ρ) {i j : Nat} (link : HashLink ρ) (other : j ≠ i) :
    setLink array i link j = array j := by
  simp [setLink, other]

theorem links_setNext_same (array : Nat → HashLink ρ) (i next : Nat) : links (setNext array i next) i = next := by
  simp [links, setNext]

theorem links_setNext_ne (array : Nat → HashLink ρ) {i j : Nat} (next : Nat) (other : j ≠ i) :
    links (setNext array i next) j = links array j := by
  simp [links, setNext, setLink_ne array _ other]

/-- Writing a link keeps every slot's record and hash number. -/
@[simp] theorem content_setNext (array : Nat → HashLink ρ) (i next : Nat) :
    content (setNext array i next) = content array := by
  funext j
  by_cases same : j = i
  · subst same; simp [content, setNext]
  · simp [content, setNext, setLink_ne array _ same]

/-- `my_hash_rec_mask`: the bucket of the record in slot `i`. -/
def Hash.home (h : Hash ρ) (i : Nat) : Nat := myHashMask (h.array i).hashNr h.blength h.records

/-- The records stored, slot by slot. -/
def Hash.stored (h : Hash ρ) : List ρ := (List.range h.records).map fun i => (h.array i).data

/-- `l` is a chain from slot `b`: distinct slots, each linked to the next,
the last to `NO_RECORD`. -/
structure ChainAt (array : Nat → HashLink ρ) (b : Nat) (l : List Nat) : Prop where
  head : l.head? = some b
  linked : Linked (links array) noRecord l
  nodup : l.Nodup

/-- Writes off a chain's slots keep it. -/
theorem ChainAt.congr {array array' : Nat → HashLink ρ} {b : Nat} {l : List Nat} (chain : ChainAt array b l)
    (same : ∀ j ∈ l, array' j = array j) : ChainAt array' b l :=
  ⟨chain.head, chain.linked.congr fun j mem => by simp only [links, same j mem], chain.nodup⟩

/-- Every bucket that has a used slot has the chain of its used slots, from
its own slot on. `bucket` maps a hash number to its bucket, so a record that
moves to another slot keeps its bucket. -/
def Chained (array : Nat → HashLink ρ) (bucket : Nat → Nat) (used : Nat → Prop) : Prop :=
  ∀ b, (∃ i, used i ∧ bucket (array i).hashNr = b) →
    ∃ l, ChainAt array b l ∧ ∀ i, i ∈ l ↔ used i ∧ bucket (array i).hashNr = b

section Chains

variable {arr arr' : Nat → HashLink ρ} {M : Nat → Nat} {used used' : Nat → Prop}

/-- The own slot of a used slot's bucket is used and of that bucket: it
heads the bucket's chain. -/
theorem Chained.head_used (chained : Chained arr M used) {j : Nat} (usedJ : used j) :
    used (M (arr j).hashNr) ∧ M (arr (M (arr j).hashNr)).hashNr = M (arr j).hashNr := by
  obtain ⟨l, chain, members⟩ := chained _ ⟨j, usedJ, rfl⟩
  exact (members _).mp (List.mem_of_mem_head? chain.head)

/-- No used slot is of the bucket of a free slot. -/
theorem Chained.not_home (chained : Chained arr M used) {b : Nat} (free : ¬used b) {j : Nat} (usedJ : used j) :
    M (arr j).hashNr ≠ b := by
  rintro rfl
  exact free (chained.head_used usedJ).1

/-- A write off the slots `S` keeps the chain of each bucket `b` that no slot
of `S` is of, before the write or after it, when the hash numbers of `b`
stay those of `b`. -/
theorem Chained.keep (chained : Chained arr M used) {S : Nat → Prop}
    (same : ∀ i, ¬S i → arr' i = arr i ∧ (used' i ↔ used i)) {M' : Nat → Nat} {b : Nat}
    (sameBucket : ∀ n, M' n = b ↔ M n = b)
    (newOff : ∀ i, S i → used' i → M' (arr' i).hashNr ≠ b) (oldOff : ∀ i, S i → used i → M (arr i).hashNr ≠ b)
    (member : ∃ i, used' i ∧ M' (arr' i).hashNr = b) :
    ∃ l, ChainAt arr' b l ∧ ∀ i, i ∈ l ↔ used' i ∧ M' (arr' i).hashNr = b := by
  obtain ⟨j, usedJ, homeJ⟩ := member
  obtain ⟨sameJ, usedIff⟩ := same j fun s => newOff j s usedJ homeJ
  obtain ⟨l, chain, members⟩ := chained b ⟨j, usedIff.mp usedJ, (sameBucket _).mp (sameJ ▸ homeJ)⟩
  have off : ∀ i ∈ l, ¬S i := fun i mem s => oldOff i s ((members i).mp mem).1 ((members i).mp mem).2
  refine ⟨l, chain.congr fun i mem => (same i (off i mem)).1, fun i => ?_⟩
  by_cases s : S i
  · exact ⟨fun mem => absurd s (off i mem), fun both => absurd both.2 (newOff i s both.1)⟩
  · obtain ⟨sameI, usedI⟩ := same i s
    rw [members i, sameI, usedI, sameBucket]

/-- Chains stay when the used slots and the buckets of their records do. -/
theorem Chained.rebucket {M' : Nat → Nat} (chained : Chained arr M used) (usedIff : ∀ i, used' i ↔ used i)
    (same : ∀ i, used i → M' (arr i).hashNr = M (arr i).hashNr) : Chained arr M' used' := by
  rintro b ⟨j, usedJ, home⟩
  have usedJ := (usedIff j).mp usedJ
  obtain ⟨l, chain, members⟩ := chained b ⟨j, usedJ, (same j usedJ).symm.trans home⟩
  refine ⟨l, chain, fun i => ?_⟩
  rw [members i, usedIff i]
  exact ⟨fun both => ⟨both.1, (same i both.1).trans both.2⟩,
    fun both => ⟨both.1, (same i both.1).symm.trans both.2⟩⟩

/-- A chain starts at its bucket's slot. -/
theorem ChainAt.eq_cons {b : Nat} {l : List Nat} (chain : ChainAt arr b l) : ∃ t, l = b :: t := by
  obtain ⟨head, -, -⟩ := chain
  cases l with
  | nil => cases head
  | cons x t => cases head; exact ⟨t, rfl⟩

end Chains

/-- The sizes a `HASH` keeps: `blength` is 1 for no records, and otherwise
the power of two with `blength / 2 <= records < blength`; slot numbers stay
below `NO_RECORD`. -/
def SizeOk (records blength : Nat) : Prop :=
  records < noRecord ∧ ((records = 0 ∧ blength = 1) ∨ ∃ k, blength = 2 ^ (k + 1) ∧ 2 ^ k ≤ records ∧ records < 2 ^ (k + 1))

/-- The chains of a `HASH`: its sizes, and the slots below `records` chained
by bucket. -/
structure Threaded (h : Hash ρ) : Prop where
  size : SizeOk h.records h.blength
  chained : Chained h.array (fun n => myHashMask n h.blength h.records) (· < h.records)

variable (hd : HashDef κ) (key : ρ → κ)

/-- The index a `HASH` is meant to be: chained, and every stored slot holds
its record's hash number. -/
structure Valid (h : Hash ρ) : Prop extends Threaded h where
  hashNr_eq : ∀ i < h.records, (h.array i).hashNr = recHashnr hd key (h.array i).data

/-- Keys that `my_strnncoll` finds equal have one hash number. -/
def Consistent : Prop := ∀ k₁ k₂, hd.strnncollEq k₁ k₂ = true → hd.hashFunction k₁ = hd.hashFunction k₂

/-! ## The mask -/

theorem myHashMask_eq (hashnr k records : Nat) :
    myHashMask hashnr (2 ^ (k + 1)) records =
      if hashnr % 2 ^ (k + 1) < records then hashnr % 2 ^ (k + 1) else hashnr % 2 ^ k := by
  have half : 2 ^ (k + 1) >>> 1 = 2 ^ k := by
    rw [Nat.shiftRight_eq_div_pow, Nat.pow_succ, Nat.pow_one, Nat.mul_div_cancel _ (by decide)]
  rw [myHashMask, half, Nat.and_two_pow_sub_one_eq_mod, Nat.and_two_pow_sub_one_eq_mod]

theorem myHashMask_pow_lt {k records : Nat} (low : 2 ^ k ≤ records) (hashnr : Nat) :
    myHashMask hashnr (2 ^ (k + 1)) records < records := by
  rw [myHashMask_eq]
  split_ifs with below
  · exact below
  · exact lt_of_lt_of_le (Nat.mod_lt _ (Nat.two_pow_pos k)) low

theorem myHashMask_lt {records blength : Nat} (size : SizeOk records blength) (pos : 0 < records)
    (hashnr : Nat) : myHashMask hashnr blength records < records := by
  obtain ⟨-, ⟨rfl, -⟩ | ⟨k, rfl, low, -⟩⟩ := size
  · omega
  · exact myHashMask_pow_lt low hashnr

/-- `my_hash_init2` starts a valid index. -/
theorem myHashInit2_valid [Inhabited ρ] : Valid hd key (myHashInit2 : Hash ρ) where
  size := ⟨by simp [myHashInit2, noRecord], .inl ⟨rfl, rfl⟩⟩
  chained := fun _ ⟨_, below, _⟩ => absurd below (Nat.not_lt_zero _)
  hashNr_eq := fun _ below => absurd below (Nat.not_lt_zero _)

/-! ## Walking a chain -/

section Walk

variable {h : Hash ρ} {k : κ}

/-- A fuel of `fuel + 1` from a bound on the length of the walk. -/
theorem exists_succ_of_lt {n fuel : Nat} (room : n < fuel) : ∃ f, fuel = f + 1 :=
  Nat.exists_eq_add_one.mpr (by omega)

/-- The search loop from the head of a chain, once the first slot has been
checked, finds the first slot of the chain with the key. -/
theorem firstLoop_chain {idx : Nat} {t : List Nat} (linked : Linked (links h.array) noRecord (idx :: t))
    (outside : noRecord ∉ t) (fuel : Nat) (room : t.length < fuel) :
    firstLoop hd key h k fuel false idx = (idx :: t).find? fun i => hashcmp hd key (h.array i) k := by
  induction t generalizing idx fuel with
  | nil =>
    obtain ⟨fuel, rfl⟩ := exists_succ_of_lt room
    have stop : (h.array idx).next = noRecord := linked_singleton.mp linked
    cases found : hashcmp hd key (h.array idx) k <;> simp [firstLoop, found, stop]
  | cons j t ih =>
    obtain ⟨fuel, rfl⟩ := exists_succ_of_lt room
    obtain ⟨next, rest⟩ := linked_cons_cons.mp linked
    have more : (h.array idx).next ≠ noRecord := by
      rw [← links, next]; exact fun same => outside (by simp [same])
    cases found : hashcmp hd key (h.array idx) k
    · simp only [firstLoop, found, Bool.false_eq_true, false_and, if_false, if_neg more, List.find?_cons]
      rw [← links, next]
      exact ih rest (fun mem => outside (by simp [mem])) fuel (by simp at room; omega)
    · simp [firstLoop, found]

/-- `my_hash_next`'s loop along a chain finds the first slot with the key. -/
theorem nextLoop_chain {l : List Nat} (linked : Linked (links h.array) noRecord l) (outside : noRecord ∉ l)
    (fuel : Nat) (room : l.length ≤ fuel) :
    nextLoop hd key h k fuel (l.headD noRecord) = l.find? fun i => hashcmp hd key (h.array i) k := by
  induction l generalizing fuel with
  | nil => cases fuel <;> simp [nextLoop]
  | cons i l ih =>
    obtain ⟨fuel, rfl⟩ := exists_succ_of_lt room
    obtain ⟨next, rest⟩ := linked_cons.mp linked
    have real : i ≠ noRecord := fun same => outside (by simp [same])
    cases found : hashcmp hd key (h.array i) k
    · simp only [List.headD_cons, nextLoop, real, if_false, found, Bool.false_eq_true, List.find?_cons]
      rw [← links, next]
      exact ih rest (fun mem => outside (by simp [mem])) fuel (by simp at room; omega)
    · simp [nextLoop, found, real]

end Walk

/-- The records a caller reads with `my_hash_first` and then `my_hash_next`
until it returns `NULL`, from the search state `current`. -/
def searchRecords (h : Hash ρ) (k : κ) : Nat → Option Nat → List ρ
  | 0, _ => []
  | _ + 1, none => []
  | fuel + 1, some idx => (h.array idx).data :: searchRecords h k fuel (myHashNext hd key h k (some idx)).2

theorem searchRecords_none (h : Hash ρ) (k : κ) (fuel : Nat) : searchRecords hd key h k fuel none = [] := by
  cases fuel <;> rfl

section Walk

variable {h : Hash ρ} {k : κ}

/-- Along a chain, `my_hash_next` after each slot found reads the records of
the chain that have the key, in chain order. -/
theorem searchRecords_chain {l : List Nat} (linked : Linked (links h.array) noRecord l)
    (outside : noRecord ∉ l) (short : l.length ≤ h.records + 1) (fuel : Nat) (room : l.length ≤ fuel) :
    searchRecords hd key h k fuel (l.find? fun i => hashcmp hd key (h.array i) k) =
      (l.filter fun i => hashcmp hd key (h.array i) k).map fun i => (h.array i).data := by
  induction l generalizing fuel with
  | nil => simp [searchRecords_none]
  | cons i l ih =>
    obtain ⟨fuel, rfl⟩ := exists_succ_of_lt room
    obtain ⟨next, rest⟩ := linked_cons.mp linked
    have outside' : noRecord ∉ l := fun mem => outside (by simp [mem])
    have short' : l.length ≤ h.records + 1 := by simp at short; omega
    cases found : hashcmp hd key (h.array i) k
    · simp only [List.find?_cons, found, List.filter_cons, Bool.false_eq_true, if_false]
      exact ih rest outside' short' (fuel + 1) (by simp at room; omega)
    · have after : (h.array i).next = l.headD noRecord := next
      simp only [List.find?_cons, found, List.filter_cons, if_true, List.map_cons, searchRecords, myHashNext,
        after, nextLoop_chain hd key rest outside' (h.records + 1) short']
      rw [ih rest outside' short' fuel (by simp at room; omega)]

end Walk

/-! ## Searching an index -/

section Search

variable {hd key} {h : Hash ρ} {k : κ}

/-- A list of distinct slots below `n` is at most `n` long. -/
theorem length_le_of_nodup {l : List Nat} {n : Nat} (distinct : l.Nodup) (below : ∀ i ∈ l, i < n) :
    l.length ≤ n := by
  have sub : l ⊆ List.range n := fun i mem => List.mem_range.mpr (below i mem)
  simpa using distinct.length_le_of_subset sub

/-- The chain of a bucket of a threaded `HASH`: its stored slots, from the
bucket's own slot on. -/
theorem Threaded.bucket (threaded : Threaded h) {b : Nat} (used : ∃ i < h.records, h.home i = b) :
    ∃ t, ChainAt h.array b (b :: t) ∧ (∀ i, i ∈ b :: t ↔ i < h.records ∧ h.home i = b) ∧
      noRecord ∉ b :: t ∧ t.length < h.records := by
  obtain ⟨l, chain, members⟩ := threaded.chained b used
  obtain ⟨t, rfl⟩ := chain.eq_cons
  have below : ∀ i ∈ b :: t, i < h.records := fun i mem => ((members i).mp mem).1
  refine ⟨t, chain, members, fun mem => ?_, ?_⟩
  · have := threaded.size.1; have := below _ mem; omega
  · have := length_le_of_nodup chain.nodup below
    simp only [List.length_cons] at this
    omega

theorem firstLoop_true_of_home {idx : Nat} (home : h.home idx = idx) (fuel : Nat) :
    firstLoop hd key h k fuel true idx = firstLoop hd key h k fuel false idx := by
  cases fuel with
  | zero => rfl
  | succ fuel =>
    have own : myHashMask (h.array idx).hashNr h.blength h.records = idx := home
    simp only [firstLoop, own, ne_eq, not_true_eq_false, and_false, Bool.false_eq_true, if_false]

/-- `my_hash_first` and then `my_hash_next` until `NULL` read the stored
records of a used bucket that have the key, each once. -/
theorem searchRecords_bucket (threaded : Threaded h)
    (used : ∃ i < h.records, h.home i = myHashMask (hd.hashFunction k) h.blength h.records) :
    (searchRecords hd key h k (h.records + 1) (myHashFirst hd key h k).2).Perm
      (((List.range h.records).filter fun i =>
        h.home i = myHashMask (hd.hashFunction k) h.blength h.records ∧ hashcmp hd key (h.array i) k).map
          fun i => (h.array i).data) := by
  set b := myHashMask (hd.hashFunction k) h.blength h.records with hb
  -- the bucket's chain starts at its own slot and holds its slots
  obtain ⟨t, chain, members, outside, short⟩ := threaded.bucket used
  have own : h.home b = b := ((members b).mp (by simp)).2
  have first : (myHashFirst hd key h k).2 = firstLoop hd key h k (h.records + 1) false b := by
    have stored : h.records ≠ 0 := by obtain ⟨i, stored, -⟩ := used; omega
    simp [myHashFirst, myHashFirstFromHashValue, stored, ← hb, firstLoop_true_of_home own]
  rw [first, firstLoop_chain hd key chain.linked (fun mem => outside (by simp [mem])) _ (by omega),
    searchRecords_chain hd key chain.linked outside (by simp; omega) _ (by simp; omega)]
  apply List.Perm.map
  apply (List.perm_ext_iff_of_nodup (chain.nodup.filter _) (List.nodup_range.filter _)).mpr
  intro i
  simp only [List.mem_filter, List.mem_range, members, decide_eq_true_eq]
  tauto

/-- The search stops at once at the slot of an empty bucket that does not
hold the key. -/
theorem firstLoop_of_empty {b : Nat} (other : h.home b ≠ b) (absent : hashcmp hd key (h.array b) k = false)
    (fuel : Nat) : firstLoop hd key h k fuel true b = none := by
  cases fuel with
  | zero => rfl
  | succ fuel =>
    have other' : myHashMask (h.array b).hashNr h.blength h.records ≠ b := other
    simp [firstLoop, absent, other']

variable (valid : Valid hd key h) (consistent : Consistent hd)
include valid consistent

/-- A stored record with the key `k` is in the bucket of `k`'s hash number. -/
theorem home_of_hashcmp {i : Nat} (stored : i < h.records) (found : hashcmp hd key (h.array i) k = true) :
    h.home i = myHashMask (hd.hashFunction k) h.blength h.records := by
  have same := consistent _ _ found
  rw [Hash.home, valid.hashNr_eq i stored, recHashnr, same]

/-- `my_hash_first` and then `my_hash_next` until `NULL` read the stored
records whose key equals `k`, each once. -/
theorem searchRecords_perm :
    (searchRecords hd key h k (h.records + 1) (myHashFirst hd key h k).2).Perm
      (h.stored.filter fun r => hd.strnncollEq (key r) k) := by
  set b := myHashMask (hd.hashFunction k) h.blength h.records with hb
  have sameFilter : (List.range h.records).filter ((fun r => hd.strnncollEq (key r) k) ∘ fun i => (h.array i).data) =
      (List.range h.records).filter (fun i => h.home i = b ∧ hashcmp hd key (h.array i) k) := by
    apply List.filter_congr
    intro i mem
    by_cases found : hashcmp hd key (h.array i) k
    · have home := home_of_hashcmp valid consistent (List.mem_range.mp mem) found
      simp only [hashcmp] at found ⊢
      simp [found, home, hb]
    · simp only [hashcmp] at found ⊢
      simp [found]
  rw [Hash.stored, List.filter_map, sameFilter]
  by_cases used : ∃ i < h.records, h.home i = b
  · exact searchRecords_bucket valid.toThreaded used
  · -- an empty bucket: its slot holds a record of another bucket, which cannot have the key
    have notHere : ∀ i < h.records, hashcmp hd key (h.array i) k = false := by
      intro i stored
      by_contra found
      exact used ⟨i, stored, home_of_hashcmp valid consistent stored (by simpa using found)⟩
    have none : (myHashFirst hd key h k).2 = none := by
      by_cases empty : h.records = 0
      · simp [myHashFirst, myHashFirstFromHashValue, empty]
      have bLt : b < h.records := myHashMask_lt valid.size (Nat.pos_of_ne_zero empty) _
      simp [myHashFirst, myHashFirstFromHashValue, empty, ← hb,
        firstLoop_of_empty (fun own => used ⟨b, bLt, own⟩) (notHere b bLt)]
    rw [none, searchRecords_none, List.filter_eq_nil_iff.mpr (fun i mem => by simp [notHere i (List.mem_range.mp mem)])]
    rfl

end Search

/-! ## `my_hash_check` on a valid index -/

section Check

variable {hd key} {h : Hash ρ}

/-- The number of stored slots whose bucket is below `b`. -/
def slotsBelow (h : Hash ρ) (b : Nat) : Nat := (List.range h.records).countP fun j => h.home j < b

theorem countP_lt_succ (l : List Nat) (f : Nat → Nat) (b : Nat) :
    l.countP (fun j => f j < b + 1) = l.countP (fun j => f j < b) + l.countP (fun j => f j = b) := by
  induction l with
  | nil => rfl
  | cons j l ih =>
    simp only [List.countP_cons, ih, decide_eq_true_eq]
    by_cases same : f j = b
    · simp [same]; omega
    · by_cases below : f j < b
      · simp [below, same, show f j < b + 1 by omega]; omega
      · simp [below, same, show ¬f j < b + 1 by omega]

theorem checkChain_noRecord (i fuel found : Nat) : checkChain h i fuel noRecord found = (false, found) := by
  cases fuel <;> simp [checkChain]

/-- `my_hash_check`'s walk along the chain after a bucket's first slot counts
its slots and finds no error. -/
theorem checkChain_chain {i : Nat} {m : List Nat} (linked : Linked (links h.array) noRecord m)
    (inBucket : ∀ j ∈ m, j < h.records ∧ h.home j = i) (outside : noRecord ∉ m) (fuel found : Nat)
    (room : m.length ≤ fuel) (fits : found + m.length ≤ h.records) :
    checkChain h i fuel (m.headD noRecord) found = (false, found + m.length) := by
  induction m generalizing fuel found with
  | nil => exact checkChain_noRecord i fuel found
  | cons j m ih =>
    obtain ⟨fuel, rfl⟩ := exists_succ_of_lt room
    obtain ⟨next, rest⟩ := linked_cons.mp linked
    obtain ⟨stored, own⟩ := inBucket j (by simp)
    have own' : myHashMask (h.array j).hashNr h.blength h.records = i := own
    have real : j ≠ noRecord := fun same => outside (by simp [same])
    simp only [List.length_cons] at room fits
    have later := ih rest (fun j' mem => inBucket j' (by simp [mem])) (fun mem => outside (by simp [mem]))
      fuel (found + 1) (by omega) (by omega)
    have after : (h.array j).next = m.headD noRecord := next
    simp only [List.headD_cons, checkChain, real, false_or, show found < h.records + 1 by omega,
      not_true_eq_false, if_false, own', ne_eq, after, later, show ¬h.records ≤ j by omega, decide_false,
      Bool.false_or, List.length_cons]
    simp only [Prod.mk.injEq, true_and]
    omega

/-- The outer loop of `my_hash_check` over the slots from `i` on: no error,
and every stored slot counted. -/
theorem checkSlots_valid (valid : Valid hd key h) :
    ∀ n i, i + n = h.records → checkSlots hd key h n i (false, slotsBelow h i) = (false, slotsBelow h h.records) := by
  intro n
  induction n with
  | zero => intro i sum; simp only [Nat.add_zero] at sum; subst sum; rfl
  | succ n ih =>
    intro i sum
    have stored : i < h.records := by omega
    have hashOk : decide ((h.array i).hashNr ≠ recHashnr hd key (h.array i).data) = false := by
      simp [valid.hashNr_eq i stored]
    have next : slotsBelow h (i + 1) = slotsBelow h i + (List.range h.records).countP fun j => h.home j = i :=
      countP_lt_succ _ _ _
    have total : slotsBelow h (i + 1) ≤ h.records := by
      unfold slotsBelow
      exact (List.countP_le_length).trans (by simp)
    rw [checkSlots]
    by_cases own : myHashMask (h.array i).hashNr h.blength h.records = i
    · -- bucket `i` is used: its chain is walked and counted
      obtain ⟨t, chain, members, outside, short⟩ := valid.bucket ⟨i, stored, own⟩
      have length : t.length + 1 = (List.range h.records).countP fun j => h.home j = i := by
        rw [List.countP_eq_length_filter, ← List.length_cons]
        apply List.Perm.length_eq
        apply (List.perm_ext_iff_of_nodup chain.nodup (List.nodup_range.filter _)).mpr
        intro j
        simp [members]
      have after : (h.array i).next = t.headD noRecord := (linked_cons.mp chain.linked).1
      have walked : checkChain h i (h.records + 1) (h.array i).next (slotsBelow h i + 1) =
          (false, slotsBelow h (i + 1)) := by
        rw [after, checkChain_chain (linked_cons.mp chain.linked).2
          (fun j mem => (members j).mp (List.mem_cons_of_mem i mem)) (fun mem => outside (by simp [mem]))
          _ _ (by omega) (by omega), next, ← length]
        congr 1
        omega
      simp only [hashOk, own, if_true, Bool.false_or, walked]
      exact ih (i + 1) (by omega)
    · -- bucket `i` is empty: the slot belongs to another bucket
      have empty : (List.range h.records).countP (fun j => h.home j = i) = 0 := by
        rw [List.countP_eq_zero]
        intro j mem same
        obtain ⟨t, -, members, -, -⟩ := valid.bucket ⟨j, List.mem_range.mp mem, of_decide_eq_true same⟩
        exact own ((members i).mp (by simp)).2
      simp only [hashOk, own, if_false, Bool.false_or]
      rw [← Nat.add_zero (slotsBelow h i), ← empty, ← next]
      exact ih (i + 1) (by omega)

theorem slotsBelow_zero : slotsBelow h 0 = 0 := by
  simp [slotsBelow]

theorem slotsBelow_records (threaded : Threaded h) : slotsBelow h h.records = h.records := by
  unfold slotsBelow
  rw [List.countP_eq_length.mpr, List.length_range]
  intro j mem
  have pos : 0 < h.records := by simp at mem; omega
  exact decide_eq_true (myHashMask_lt threaded.size pos (h.array j).hashNr)

/-- `my_hash_check` finds nothing wrong in a valid index. -/
theorem myHashCheck_valid (valid : Valid hd key h) : myHashCheck hd key h = false := by
  have run := checkSlots_valid valid h.records 0 (Nat.zero_add _)
  rw [slotsBelow_zero, slotsBelow_records valid.toThreaded] at run
  simp [myHashCheck, run]

end Check

end MariaDB.MysysHash
