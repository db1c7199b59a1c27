import Mathlib.Order.Lattice
import Mathlib.Tactic.Common

set_option autoImplicit false

/- `std::lower_bound` and `std::binary_search` as libstdc++ writes them. The
search keeps a first position and a length; each round it looks at the
middle element and either moves past it, when it is below the value, or
keeps the lower half. On a sorted list the first position ends at the first
element that is not below the value, and `binary_search` then tells whether
the value is an element. -/
namespace LowerBound

variable {α : Type} [LinearOrder α]

/-- `__lower_bound`: `while (len > 0) { half = len >> 1; middle = first + half;
if (*middle < val) { first = middle + 1; len = len - half - 1; } else len = half; }`,
returning `first`; `len` is fuel enough. -/
def loop (xs : List α) (val : α) : Nat → Nat → Nat → Nat
  | 0, first, _ => first
  | fuel + 1, first, len =>
    if 0 < len then
      match xs[first + len / 2]? with
      | some x =>
        if x < val then loop xs val fuel (first + len / 2 + 1) (len - len / 2 - 1)
        else loop xs val fuel first (len / 2)
      | none => loop xs val fuel first (len / 2)
    else first

/-- `std::lower_bound` over the positions `[first, first + len)` of `xs`. -/
def lowerBound (xs : List α) (val : α) (first len : Nat) : Nat := loop xs val len first len

/-- `std::binary_search(xs.begin(), xs.end(), val)`: the lower bound `i` of
`val`, then `i != last && !(val < *i)`. -/
def binarySearch (xs : List α) (val : α) : Bool :=
  match xs[lowerBound xs val 0 xs.length]? with
  | some x => !decide (val < x)
  | none => false

example : lowerBound [1, 3, 4, 4, 8] 4 0 5 = 2 := rfl

example : binarySearch [1, 3, 4, 4, 8] 8 = true := rfl

example : binarySearch [1, 3, 4, 4, 8] 5 = false := rfl

/-- What the search keeps over `[first, first + len)`: every element before
`first` is below `val`, and no element from `first + len` on is. -/
structure Inv (xs : List α) (val : α) (first len : Nat) : Prop where
  bounded : first + len ≤ xs.length
  below : ∀ i (h : i < xs.length), i < first → xs[i] < val
  above : ∀ i (h : i < xs.length), first + len ≤ i → ¬xs[i] < val

section Sorted

variable {xs : List α} {val : α}

/-- In a sorted list an element below `val` has only elements below `val`
before it. -/
theorem lt_of_le_index (hs : xs.Pairwise (· ≤ ·)) {i j : Nat} (hij : i ≤ j) (hj : j < xs.length)
    (h : xs[j] < val) : xs[i] < val := by
  rcases Nat.lt_or_eq_of_le hij with hlt | rfl
  · exact lt_of_le_of_lt (List.pairwise_iff_getElem.mp hs i j (by omega) hj hlt) h
  · exact h

/-- One round keeps the invariant and shortens the range. -/
theorem Inv.step (hs : xs.Pairwise (· ≤ ·)) {first len : Nat} (inv : Inv xs val first len)
    (hmid : first + len / 2 < xs.length) :
    (xs[first + len / 2] < val → Inv xs val (first + len / 2 + 1) (len - len / 2 - 1)) ∧
      (¬xs[first + len / 2] < val → Inv xs val first (len / 2)) := by
  obtain ⟨bounded, below, above⟩ := inv
  constructor
  · intro hlt
    refine ⟨by omega, fun i hi hle => ?_, fun i hi hle => above i hi (by omega)⟩
    exact lt_of_le_index hs (by omega) hmid hlt
  · intro hge
    refine ⟨by omega, below, fun i hi hle hlt => hge ?_⟩
    exact lt_of_le_index hs hle hi hlt

/-- The run lemma: from the invariant the search stops at the first element
that is not below `val`. -/
theorem loop_spec (hs : xs.Pairwise (· ≤ ·)) :
    ∀ (fuel first len : Nat), Inv xs val first len → len ≤ fuel →
      Inv xs val (loop xs val fuel first len) 0
  | 0, first, len, inv, hfuel => by
    have hlen : len = 0 := by omega
    subst hlen
    exact inv
  | fuel + 1, first, len, inv, hfuel => by
    by_cases hlen : 0 < len
    · have hmid : first + len / 2 < xs.length := by have := inv.bounded; omega
      have hstep := inv.step hs hmid
      simp only [loop, hlen, ↓reduceIte, List.getElem?_eq_getElem hmid]
      split_ifs with hlt
      · exact loop_spec hs fuel _ _ (hstep.1 hlt) (by omega)
      · exact loop_spec hs fuel _ _ (hstep.2 hlt) (by omega)
    · have hlen : len = 0 := by omega
      subst hlen
      simp only [loop, Nat.lt_irrefl, ↓reduceIte]
      exact inv

/-- `std::lower_bound` over `[first, first + len)`, where everything before
`first` is below `val` and the range reaches the end of the list: the number
of elements below `val`. -/
theorem lowerBound_spec (hs : xs.Pairwise (· ≤ ·)) {first : Nat} (hfirst : first ≤ xs.length)
    (hbelow : ∀ i (h : i < xs.length), i < first → xs[i] < val) :
    Inv xs val (lowerBound xs val first (xs.length - first)) 0 :=
  loop_spec hs _ _ _ ⟨by omega, hbelow, fun i hi hle => by omega⟩ (le_refl _)

/-- On a sorted list, the prefix before the lower bound is the list of the
elements below `val`. -/
theorem take_lowerBound (hs : xs.Pairwise (· ≤ ·)) {first : Nat} (hfirst : first ≤ xs.length)
    (hbelow : ∀ i (h : i < xs.length), i < first → xs[i] < val) :
    xs.take (lowerBound xs val first (xs.length - first)) = xs.filter (· < val) := by
  obtain ⟨bounded, below, above⟩ := lowerBound_spec hs hfirst hbelow
  set k := lowerBound xs val first (xs.length - first)
  have hsplit : xs.filter (· < val) = (xs.take k).filter (· < val) ++ (xs.drop k).filter (· < val) := by
    rw [← List.filter_append, List.take_append_drop]
  have htake : (xs.take k).filter (· < val) = xs.take k := by
    apply List.filter_eq_self.mpr
    intro x hx
    obtain ⟨i, hi, rfl⟩ := List.getElem_of_mem hx
    rw [List.length_take] at hi
    simp only [List.getElem_take, decide_eq_true_eq]
    exact below i (by omega) (by omega)
  have hdrop : (xs.drop k).filter (· < val) = [] := by
    apply List.filter_eq_nil_iff.mpr
    intro x hx
    obtain ⟨i, hi, rfl⟩ := List.getElem_of_mem hx
    rw [List.length_drop] at hi
    simp only [List.getElem_drop, decide_eq_true_eq]
    exact above (k + i) (by omega) (by omega)
  rw [hsplit, htake, hdrop, List.append_nil]

/-- On a sorted list `std::binary_search` finds exactly the elements. -/
theorem binarySearch_iff (hs : xs.Pairwise (· ≤ ·)) : binarySearch xs val = true ↔ val ∈ xs := by
  have hspec : Inv xs val (lowerBound xs val 0 (xs.length - 0)) 0 :=
    lowerBound_spec hs (Nat.zero_le xs.length) (fun i _ h => absurd h (Nat.not_lt_zero i))
  rw [Nat.sub_zero] at hspec
  unfold binarySearch
  obtain ⟨k, hk⟩ : ∃ k, lowerBound xs val 0 xs.length = k := ⟨_, rfl⟩
  rw [hk] at hspec ⊢
  obtain ⟨bounded, below, above⟩ := hspec
  constructor
  · intro h
    cases hx : xs[k]? with
    | none =>
      rw [hx] at h
      cases h
    | some x =>
      rw [hx] at h
      obtain ⟨hkl, hxk⟩ := List.getElem?_eq_some_iff.mp hx
      have hnot : ¬x < val := hxk ▸ above k hkl (by omega)
      have hnot' : ¬val < x := by simpa using h
      have hxv : x = val := le_antisymm (not_lt.mp hnot') (not_lt.mp hnot)
      rw [← hxv]
      exact List.mem_of_getElem? hx
  · intro hmem
    obtain ⟨j, hj, hxj⟩ := List.getElem_of_mem hmem
    have hkj : k ≤ j := by
      by_contra hlt
      exact lt_irrefl val (hxj ▸ below j hj (by omega))
    have hkl : k < xs.length := by omega
    rw [List.getElem?_eq_getElem hkl]
    have hle : xs[k] ≤ val := by
      rcases Nat.lt_or_eq_of_le hkj with hlt | rfl
      · rw [← hxj]
        exact List.pairwise_iff_getElem.mp hs k j hkl hj hlt
      · exact le_of_eq hxj
    simp only [Bool.not_eq_true', decide_eq_false_iff_not, not_lt]
    exact hle

end Sorted

end LowerBound
