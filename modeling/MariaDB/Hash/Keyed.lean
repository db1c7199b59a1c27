import Mathlib.Data.List.Find
import Mathlib.Data.List.Nodup

set_option autoImplicit false

/- Lists of records with a key: the contents of a hash table with unique
keys, in the order a walk over the table visits them. A search by key, an
update in place of the record with a key and an insertion at the end keep
the keys distinct, and each search after one of them is read off the search
before it. `latest` is the last record of a list with a property, what a
table that each new record overwrites holds for that property. -/
namespace KeyedList

variable {α κ : Type} [DecidableEq κ]

/-- The record with key `k`. -/
def find (key : α → κ) (k : κ) (l : List α) : Option α := l.find? (fun x => key x = k)

/-- The record with key `k` replaced by its image under `f`, in place. -/
def modify (key : α → κ) (k : κ) (f : α → α) (l : List α) : List α :=
  l.map (fun x => if key x = k then f x else x)

/-- No two records share a key. -/
def Keyed (key : α → κ) (l : List α) : Prop := (l.map key).Nodup

/-- The last record with property `p`. -/
def latest (p : α → Bool) (l : List α) : Option α := l.reverse.find? p

section Find

variable {key : α → κ} {k : κ} {l : List α} {x : α}

@[simp] theorem find_nil : find key k [] = none := rfl

theorem key_of_find (h : find key k l = some x) : key x = k := by
  simpa using List.find?_some h

theorem mem_of_find (h : find key k l = some x) : x ∈ l := List.mem_of_find?_eq_some h

theorem find_eq_none_iff : find key k l = none ↔ ∀ y ∈ l, key y ≠ k := by
  simp [find, List.find?_eq_none]

theorem find_eq_some_iff (keyed : Keyed key l) : find key k l = some x ↔ x ∈ l ∧ key x = k := by
  constructor
  · intro h
    exact ⟨mem_of_find h, key_of_find h⟩
  · rintro ⟨hx, rfl⟩
    cases h : find key (key x) l with
    | none => exact absurd rfl ((find_eq_none_iff.mp h) x hx)
    | some y =>
      have hy := mem_of_find h
      rw [List.inj_on_of_nodup_map keyed hy hx (key_of_find h)]

theorem find_singleton (k : κ) (x : α) : find key k [x] = if key x = k then some x else none := by
  unfold find
  by_cases hx : key x = k <;> simp [hx]

theorem find_append_singleton (k : κ) (l : List α) (x : α) :
    find key k (l ++ [x]) = (find key k l).or (if key x = k then some x else none) := by
  unfold find
  rw [List.find?_append]
  by_cases hx : key x = k <;> simp [hx]

theorem find_modify {f : α → α} (hf : ∀ y, key (f y) = key y) (k k' : κ) (l : List α) :
    find key k' (modify key k f l) = if k = k' then (find key k l).map f else find key k' l := by
  -- the update keeps every key, so the search visits the same records
  have hpred : ((fun y => decide (key y = k')) ∘ fun y => if key y = k then f y else y) =
      fun y => decide (key y = k') := by
    funext y
    by_cases hy : key y = k <;> simp [hy, hf]
  unfold find modify
  rw [List.find?_map, hpred]
  split_ifs with hk
  · subst hk
    apply Option.map_congr
    intro y hy
    rw [if_pos (key_of_find hy)]
  · cases h : List.find? (fun y => decide (key y = k')) l with
    | none => rfl
    | some y =>
      have hne : key y ≠ k := fun hy => hk (hy.symm.trans (key_of_find h))
      rw [Option.map_some, if_neg hne]

theorem keyed_modify {f : α → α} (hf : ∀ y, key (f y) = key y) (keyed : Keyed key l) :
    Keyed key (modify key k f l) := by
  unfold Keyed modify
  rw [List.map_map]
  have hkey : key ∘ (fun y => if key y = k then f y else y) = key := by
    funext y
    by_cases hy : key y = k <;> simp [hy, hf]
  rw [hkey]
  exact keyed

theorem keyed_append_singleton (fresh : find key (key x) l = none) (keyed : Keyed key l) :
    Keyed key (l ++ [x]) := by
  unfold Keyed
  rw [List.map_append, List.nodup_append]
  refine ⟨keyed, List.nodup_singleton _, ?_⟩
  intro a ha b hb
  rw [List.map_singleton, List.mem_singleton] at hb
  obtain ⟨y, hy, rfl⟩ := List.mem_map.mp ha
  rw [hb]
  exact (find_eq_none_iff.mp fresh) y hy

omit [DecidableEq κ] in
theorem keyed_cons {y : α} : Keyed key (y :: l) ↔ key y ∉ l.map key ∧ Keyed key l := by
  unfold Keyed
  rw [List.map_cons, List.nodup_cons]

/-- In a keyed list the records with a key are the one `find` returns. -/
theorem filter_key_eq (keyed : Keyed key l) (k : κ) :
    l.filter (fun y => key y = k) = (find key k l).toList := by
  induction l with
  | nil => rfl
  | cons y l ih =>
    obtain ⟨fresh, keyed⟩ := keyed_cons.mp keyed
    by_cases hy : key y = k
    · -- no later record has the key
      have hrest : l.filter (fun y => key y = k) = [] := by
        apply List.filter_eq_nil_iff.mpr
        intro z hz hzk
        exact fresh (hy ▸ (of_decide_eq_true hzk) ▸ List.mem_map_of_mem hz)
      simp [find, hy, hrest]
    · rw [List.filter_cons, if_neg (by simpa using hy), ih keyed]
      unfold find
      simp [hy]

/-- The records other than the one with key `k`, then that one: the list
again, up to order. -/
theorem filter_ne_append_find_perm (keyed : Keyed key l) (k : κ) :
    (l.filter (fun y => key y ≠ k) ++ (find key k l).toList).Perm l := by
  rw [← filter_key_eq keyed]
  have hsplit := List.filter_append_perm (fun y => decide (key y ≠ k)) l
  have hcompl : l.filter (fun y => !decide (key y ≠ k)) = l.filter (fun y => decide (key y = k)) := by
    apply List.filter_congr
    intro y _
    simp
  rwa [hcompl] at hsplit

/-- Keyed lists with the same records, in any order, answer every search
alike. -/
theorem find_perm {l' : List α} (keyed : Keyed key l) (hp : l.Perm l') (k : κ) :
    find key k l = find key k l' := by
  have keyed' : Keyed key l' := (hp.map key).nodup_iff.mp keyed
  cases h : find key k l with
  | some x => exact ((find_eq_some_iff keyed').mpr ⟨hp.subset (mem_of_find h), key_of_find h⟩).symm
  | none =>
    symm
    apply find_eq_none_iff.mpr
    intro y hy
    exact find_eq_none_iff.mp h y (hp.symm.subset hy)

end Find

section Latest

variable {p : α → Bool} {l : List α} {x : α}

@[simp] theorem latest_nil : latest p [] = none := rfl

theorem latest_append_singleton (p : α → Bool) (l : List α) (x : α) :
    latest p (l ++ [x]) = if p x then some x else latest p l := by
  unfold latest
  rw [List.reverse_append, List.reverse_singleton, List.singleton_append, List.find?_cons]
  cases p x <;> rfl

theorem latest_singleton (p : α → Bool) (x : α) : latest p [x] = if p x then some x else none := by
  unfold latest
  rw [List.reverse_singleton, List.find?_cons]
  cases p x <;> rfl

theorem latest_append (p : α → Bool) (l l' : List α) :
    latest p (l ++ l') = (latest p l').or (latest p l) := by
  unfold latest
  rw [List.reverse_append, List.find?_append]

theorem latest_eq_none_iff : latest p l = none ↔ ∀ y ∈ l, p y = false := by
  simp [latest, List.find?_eq_none]

theorem latest_some (h : latest p l = some x) : p x = true ∧ x ∈ l :=
  ⟨List.find?_some h, List.mem_reverse.mp (List.mem_of_find?_eq_some h)⟩

/-- Two properties that agree on a list pick the same last record. -/
theorem latest_congr {q : α → Bool} (hpq : ∀ y ∈ l, p y = q y) : latest p l = latest q l := by
  unfold latest
  apply List.find?_congr
  intro y hy
  exact hpq y (List.mem_reverse.mp hy)

/-- In a keyed list the last record with a key is the one `find` returns. -/
theorem latest_key_eq_find {key : α → κ} (keyed : Keyed key l) (k : κ) :
    latest (fun y => key y = k) l = find key k l := by
  unfold latest
  rw [← List.getLast?_filter, filter_key_eq keyed]
  cases find key k l <;> rfl

/-- The records of each element of a keyed list, one element after the other,
where each record carries the key of its element: the last record with a
property that only records of key `k` have is the last of that element's. -/
theorem latest_flatMap {β : Type} {key : α → κ} {dom : β → κ} {f : α → List β}
    (keyed : Keyed key l) (hf : ∀ e ∈ l, ∀ y ∈ f e, dom y = key e) {p : β → Bool} {k : κ}
    (hp : ∀ y, p y = true → dom y = k) :
    latest p (l.flatMap f) = (find key k l).bind (fun e => latest p (f e)) := by
  induction l with
  | nil => rfl
  | cons e l ih =>
    obtain ⟨fresh, keyed⟩ := keyed_cons.mp keyed
    rw [List.flatMap_cons, latest_append]
    by_cases he : key e = k
    · -- the later elements have other keys, so none of their records has `p`
      have hnone : latest p (l.flatMap f) = none := by
        apply latest_eq_none_iff.mpr
        intro y hy
        obtain ⟨e', he', hy'⟩ := List.mem_flatMap.mp hy
        cases hpy : p y
        · rfl
        · have hkey : key e' = k := (hf e' (List.mem_cons_of_mem _ he') y hy').symm.trans (hp y hpy)
          exact absurd (he ▸ hkey ▸ List.mem_map_of_mem he') fresh
      rw [hnone, Option.none_or]
      unfold find
      simp [he]
    · have hnone : latest p (f e) = none := by
        apply latest_eq_none_iff.mpr
        intro y hy
        cases hpy : p y
        · rfl
        · exact absurd ((hf e List.mem_cons_self y hy).symm.trans (hp y hpy)) he
      rw [hnone, Option.or_none, ih keyed (fun e' he' => hf e' (List.mem_cons_of_mem _ he'))]
      unfold find
      simp [he]

/-- In a list without repetitions no record after the last one with a
property has it. -/
theorem latest_not_after (nodup : l.Nodup) {i j : Nat} (hi : i < l.length) (hj : j < l.length)
    (hij : i < j) (hlatest : latest p l = some l[i]) : p l[j] = false := by
  cases hpj : p l[j] with
  | false => rfl
  | true =>
    exfalso
    have hmem : l[j] ∈ l.drop (i + 1) := by
      have hk : j - (i + 1) < (l.drop (i + 1)).length := by
        rw [List.length_drop]
        omega
      have hget := List.getElem_mem hk
      have hindex : i + 1 + (j - (i + 1)) = j := by omega
      simp only [List.getElem_drop, hindex] at hget
      exact hget
    -- the last record with `p` lies after position `i`, so it is not `l[i]`
    cases hlater : latest p (l.drop (i + 1)) with
    | none => exact absurd hpj (by rw [(latest_eq_none_iff.mp hlater) l[j] hmem]; simp)
    | some z =>
      have hz : z ∈ l.drop (i + 1) := (latest_some hlater).2
      have hsplit : latest p l = (latest p (l.drop (i + 1))).or (latest p (l.take (i + 1))) := by
        conv_lhs => rw [← List.take_append_drop (i + 1) l]
        rw [latest_append]
      rw [hsplit, hlater, Option.some_or] at hlatest
      have hzi : z = l[i] := by
        cases hlatest
        rfl
      obtain ⟨k, hk, hkeq⟩ := List.getElem_of_mem hz
      rw [List.getElem_drop, hzi] at hkeq
      have := (nodup.getElem_inj_iff).mp hkeq
      omega

end Latest

end KeyedList
