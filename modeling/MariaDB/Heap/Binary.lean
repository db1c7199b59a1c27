import Mathlib.Order.Interval.Finset.Nat

set_option autoImplicit false

/- Binary heaps stored from index 1: the children of `i` are `2 i` and
`2 i + 1`, its parent is `i / 2`. The entries are ordered by a total
preorder `le`, and a heap has every parent at or before its children. The
sifts move a hole along a path and keep every pair the hole does not touch
in order; `UpOrder`, `HoleOrder` and `DownOrder` say what each direction
needs of the hole, for the pairs whose parent is at least `k`: all of them
for `k = 1`, the subtrees below `k` while a heap is built bottom up. -/
namespace BinaryHeap

open Function

section Order

variable {α : Type} (le : α → α → Prop)

/-- The pairs whose parent is at least `k` are in order. -/
def HeapFrom (a : Nat → α) (n k : Nat) : Prop :=
  ∀ i, 2 ≤ i → i ≤ n → k ≤ i / 2 → le (a (i / 2)) (a i)

/-- Every parent is at or before its children. -/
def IsHeap (a : Nat → α) (n : Nat) : Prop := HeapFrom le a n 1

/-- The pairs whose parent is at least `k` and that do not touch the hole
are in order. -/
def OrderedExcept (a : Nat → α) (n k hole : Nat) : Prop :=
  ∀ i, 2 ≤ i → i ≤ n → k ≤ i / 2 → i ≠ hole → i / 2 ≠ hole → le (a (i / 2)) (a i)

/-- A hole: the pairs off it are in order, and its children are at or
after its parent. -/
structure HoleOrder (a : Nat → α) (n k hole : Nat) : Prop where
  except : OrderedExcept le a n k hole
  grand : k ≤ hole / 2 → ∀ c, c / 2 = hole → c ≤ n → le (a (hole / 2)) (a c)

/-- What a sift up with `e` needs of the hole: `e` at or before its children. -/
structure UpOrder (a : Nat → α) (n hole : Nat) (e : α) : Prop extends HoleOrder le a n 1 hole where
  below : ∀ c, c / 2 = hole → c ≤ n → le e (a c)

/-- What a sift down with `e` needs of the hole: `e` at or after its parent. -/
structure DownOrder (a : Nat → α) (n k hole : Nat) (e : α) : Prop extends HoleOrder le a n k hole where
  above : k ≤ hole / 2 → le (a (hole / 2)) e

/-- `c` is a child of the hole at or before every other child. -/
def IsBest (a : Nat → α) (n hole c : Nat) : Prop :=
  c / 2 = hole ∧ c ≤ n ∧ ∀ d, d / 2 = hole → d ≤ n → le (a c) (a d)

variable {le} {a : Nat → α} {n k hole c : Nat} {e : α}

theorem HeapFrom.mono {k' : Nat} (h : HeapFrom le a n k) (hk : k ≤ k') : HeapFrom le a n k' :=
  fun i hi hin hki => h i hi hin (by omega)

theorem HeapFrom.of_le_count {n' : Nat} (h : HeapFrom le a n k) (hn : n' ≤ n) : HeapFrom le a n' k :=
  fun i hi hin hki => h i hi (by omega) hki

/-- The entry in the hole is not read by a sift up. -/
theorem UpOrder.update_hole (o : UpOrder le a n hole e) (h1 : 1 ≤ hole) (x : α) : UpOrder le (update a hole x) n hole e := by
  refine ⟨⟨?_, ?_⟩, ?_⟩
  · intro i hi hin hki hih hph
    rw [update_of_ne hih, update_of_ne hph]
    exact o.except i hi hin hki hih hph
  · intro h1 c hc hcn
    rw [update_of_ne (show hole / 2 ≠ hole by omega), update_of_ne (show c ≠ hole by omega)]
    exact o.grand h1 c hc hcn
  · intro c hc hcn
    rw [update_of_ne (show c ≠ hole by omega)]
    exact o.below c hc hcn

/-- Moving the best child `c` up into the hole leaves a hole at `c`. -/
theorem HoleOrder.sink (o : HoleOrder le a n k hole) (h1 : 1 ≤ hole) (hc : IsBest le a n hole c) :
    HoleOrder le (update a hole (a c)) n k c := by
  obtain ⟨hch, hcn, hbest⟩ := hc
  have hgt : hole < c := by omega
  constructor
  · intro i hi hin hki hic hpic
    by_cases hih : i = hole
    · -- the pair of the hole and its parent: the grand order
      subst hih
      rw [update_self, update_of_ne (show i / 2 ≠ i by omega)]
      exact o.grand hki c hch hcn
    · rw [update_of_ne hih]
      by_cases hph : i / 2 = hole
      · rw [hph, update_self]
        exact hbest i hph hin
      · rw [update_of_ne hph]
        exact o.except i hi hin hki hih hph
  · intro hkc g hg hgn
    rw [hch, update_self, update_of_ne (show g ≠ hole by omega)]
    have hpair := o.except g (by omega) hgn (by omega) (by omega) (by omega)
    rwa [hg] at hpair

/-- A sift up that stops at the hole leaves a heap. -/
theorem UpOrder.finish (o : UpOrder le a n hole e) (hstop : 2 ≤ hole → le (a (hole / 2)) e) :
    IsHeap le (update a hole e) n := by
  intro i hi hin _
  by_cases hih : i = hole
  · subst hih
    rw [update_self, update_of_ne (show i / 2 ≠ i by omega)]
    exact hstop hi
  · rw [update_of_ne hih]
    by_cases hph : i / 2 = hole
    · rw [hph, update_self]
      exact o.below i hph hin
    · rw [update_of_ne hph]
      exact o.except i hi hin (by omega) hih hph

/-- A sift down that stops at the hole leaves the pairs from `k` in order. -/
theorem DownOrder.finish (o : DownOrder le a n k hole e) (hk : k ≤ hole)
    (hstop : ∀ c, c / 2 = hole → c ≤ n → le e (a c)) : HeapFrom le (update a hole e) n k := by
  intro i hi hin hki
  by_cases hih : i = hole
  · subst hih
    rw [update_self, update_of_ne (show i / 2 ≠ i by omega)]
    exact o.above hki
  · rw [update_of_ne hih]
    by_cases hph : i / 2 = hole
    · rw [hph, update_self]
      exact hstop i hph hin
    · rw [update_of_ne hph]
      exact o.except i hi hin hki hih hph

/-- A hole without children takes a sift up with any entry. -/
theorem HoleOrder.toUpOrder_of_leaf (o : HoleOrder le a n 1 hole) (hleaf : n < 2 * hole) : UpOrder le a n hole e :=
  ⟨o, fun c hc hcn => absurd hcn (by omega)⟩

/-- A heap on `n` entries, with an entry added after them, is a hole at the end. -/
theorem IsHeap.upOrder_last (h : IsHeap le a n) : UpOrder le a (n + 1) (n + 1) e := by
  refine ⟨⟨fun i hi hin hki hih _ => h i hi (by omega) hki, fun _ c hc hcn => absurd hcn (by omega)⟩,
    fun c hc hcn => absurd hcn (by omega)⟩

/-- A bottom-up build at `k`, with the pairs below `k` in order, is a sift
down from the hole `k` with its own entry. -/
theorem HeapFrom.downOrder (h : HeapFrom le a n (k + 1)) (hk : 1 ≤ k) : DownOrder le a n k k (a k) :=
  ⟨⟨fun i hi hin hki hik hpk => h i hi hin (by omega), fun hkk => absurd hkk (by omega)⟩,
    fun hkk => absurd hkk (by omega)⟩

variable [IsTrans α le]

theorem le_trans' {x y z : α} (hxy : le x y) (hyz : le y z) : le x z := IsTrans.trans _ _ _ hxy hyz

/-- An entry at or before the best child is at or before every child. -/
theorem IsBest.le_all (hc : IsBest le a n hole c) (he : le e (a c)) : ∀ d, d / 2 = hole → d ≤ n → le e (a d) :=
  fun d hd hdn => le_trans' he (hc.2.2 d hd hdn)

/-- A heap whose entries are replaced, or whose order changes, only at `hole`
is a hole there: the hole's children stay after its parent through it. -/
theorem IsHeap.holeOrder_of_agree {le' : α → α → Prop} {b : Nat → α} {n' : Nat} (h : IsHeap le a n) (hn : n' ≤ n)
    (hagree : ∀ i j, 1 ≤ i → i ≤ n' → 1 ≤ j → j ≤ n' → i ≠ hole → j ≠ hole → (le' (b i) (b j) ↔ le (a i) (a j))) :
    HoleOrder le' b n' 1 hole := by
  constructor
  · intro i hi hin hki hih hph
    rw [hagree (i / 2) i (by omega) (by omega) (by omega) hin hph hih]
    exact h i hi (by omega) hki
  · intro h1 c hc hcn
    have hpair := h c (by omega) (by omega) (by omega)
    have hup := h hole (by omega) (by omega) h1
    rw [hc] at hpair
    rw [hagree (hole / 2) c (by omega) (by omega) (by omega) hcn (by omega) (by omega)]
    exact le_trans' hup hpair

variable [Std.Total le]

omit [IsTrans α le] in
theorem le_of_not_le {x y : α} (h : ¬le x y) : le y x := (Std.Total.total x y).resolve_left h

/-- Every entry of a heap is at or after the first. -/
theorem IsHeap.top_le (h : IsHeap le a n) : ∀ i, 1 ≤ i → i ≤ n → le (a 1) (a i) := by
  intro i
  induction i using Nat.strong_induction_on with
  | _ i ih =>
    intro hi hin
    by_cases h1 : i = 1
    · subst h1
      exact refl_of le (a 1)
    · have hp : le (a (i / 2)) (a i) := h i (by omega) hin (by omega)
      exact le_trans' (ih (i / 2) (by omega) (by omega) (by omega)) hp

omit [IsTrans α le] in
theorem DownOrder.move (o : DownOrder le a n k hole e) (h1 : 1 ≤ hole) (hc : IsBest le a n hole c)
    (hb : ¬le e (a c)) : DownOrder le (update a hole (a c)) n k c e := by
  refine ⟨o.sink h1 hc, fun _ => ?_⟩
  rw [hc.1, update_self]
  exact le_of_not_le hb

theorem UpOrder.move (o : UpOrder le a n hole e) (h2 : 2 ≤ hole) (hn : hole ≤ n) (hb : ¬le (a (hole / 2)) e) :
    UpOrder le (update a hole (a (hole / 2))) n (hole / 2) e := by
  have hq : hole / 2 < hole := by omega
  -- the parent of the hole is at or before the hole's old children, through the parent
  have hup : 1 ≤ hole / 2 / 2 → le (a (hole / 2 / 2)) (a (hole / 2)) := fun h1 =>
    o.except (hole / 2) (by omega) (by omega) h1 (by omega) (by omega)
  refine ⟨⟨?_, ?_⟩, ?_⟩
  · intro i hi hin hki hiq hpiq
    by_cases hih : i = hole
    · exact absurd (congrArg (· / 2) hih) hpiq
    · rw [update_of_ne hih]
      by_cases hph : i / 2 = hole
      · rw [hph, update_self]
        exact o.grand (by omega) i hph hin
      · rw [update_of_ne hph]
        exact o.except i hi hin hki hih hph
  · intro h1 d hd hdn
    rw [update_of_ne (show hole / 2 / 2 ≠ hole by omega)]
    by_cases hdh : d = hole
    · subst hdh
      rw [update_self]
      exact hup h1
    · rw [update_of_ne hdh]
      have hpair := o.except d (by omega) hdn (by omega) hdh (by omega)
      rw [hd] at hpair
      exact le_trans' (hup h1) hpair
  · intro d hd hdn
    by_cases hdh : d = hole
    · subst hdh
      rw [update_self]
      exact le_of_not_le hb
    · rw [update_of_ne hdh]
      have hpair := o.except d (by omega) hdn (by omega) hdh (by omega)
      rw [hd] at hpair
      exact le_trans' (le_of_not_le hb) hpair

end Order

section Contents

variable {α : Type} {a : Nat → α} {n h p : Nat} {e : α}

/-- The entries at positions `1 .. n`. -/
def contents (a : Nat → α) (n : Nat) : Multiset α := (Finset.Icc 1 n).val.map a

theorem contents_congr {b : Nat → α} (hab : ∀ i, 1 ≤ i → i ≤ n → a i = b i) : contents a n = contents b n := by
  apply Multiset.map_congr rfl
  intro i hi
  rw [Finset.mem_val, Finset.mem_Icc] at hi
  exact hab i hi.1 hi.2

/-- Positions of `1 .. n` holding the same entry of repeat-free contents are equal. -/
theorem contents_injOn (h : (contents a n).Nodup) :
    ∀ i j, 1 ≤ i → i ≤ n → 1 ≤ j → j ≤ n → a i = a j → i = j := by
  intro i j hi hin hj hjn hij
  apply Multiset.inj_on_of_nodup_map h i (by simp; omega) j (by simp; omega) hij

theorem contents_succ (a : Nat → α) (n : Nat) : contents a (n + 1) = a (n + 1) ::ₘ contents a n := by
  have hIcc : Finset.Icc 1 (n + 1) = insert (n + 1) (Finset.Icc 1 n) := by
    ext i
    simp only [Finset.mem_Icc, Finset.mem_insert]
    omega
  rw [contents, hIcc, Finset.insert_val_of_notMem (by simp), Multiset.map_cons]
  rfl

/-- Entries exchanged between two positions of `1 .. n` keep the contents. -/
theorem contents_comp_swap (hh : 1 ≤ h ∧ h ≤ n) (hp : 1 ≤ p ∧ p ≤ n) :
    contents (a ∘ Equiv.swap h p) n = contents a n := by
  have hperm : (Finset.Icc 1 n).map (Equiv.swap h p).toEmbedding = Finset.Icc 1 n := by
    apply Finset.map_perm
    intro i hi
    rw [Set.mem_ofPred_eq] at hi
    rw [Finset.mem_coe, Finset.mem_Icc]
    rcases Equiv.swap_apply_ne_self_iff.mp hi with ⟨_, rfl | rfl⟩
    · exact hh
    · exact hp
  conv_rhs => rw [contents, ← hperm]
  rw [contents, Finset.map_val, Multiset.map_map]
  rfl

/-- Moving the entry at `p` into the hole `h`, and the hole to `p`, keeps the
contents with the hole's entry counted. -/
theorem contents_move (hh : 1 ≤ h ∧ h ≤ n) (hp : 1 ≤ p ∧ p ≤ n) (hne : h ≠ p) :
    contents (update (update a h (a p)) p e) n = contents (update a h e) n := by
  have hfun : update (update a h (a p)) p e = update a h e ∘ Equiv.swap h p := by
    funext i
    simp only [Function.comp_apply]
    by_cases hip : i = p
    · subst hip
      rw [update_self, Equiv.swap_apply_right, update_self]
    · by_cases hih : i = h
      · subst hih
        rw [update_of_ne hip, update_self, Equiv.swap_apply_left, update_of_ne (Ne.symm hne)]
      · rw [update_of_ne hip, update_of_ne hih, Equiv.swap_apply_of_ne_of_ne hih hip, update_of_ne hih]
  rw [hfun, contents_comp_swap hh hp]

/-- The last entry moved into `h` and the count lowered: the contents lose the
entry at `h`. -/
theorem contents_remove (hh : 1 ≤ h ∧ h ≤ n + 1) :
    a h ::ₘ contents (update a h (a (n + 1))) n = contents a (n + 1) := by
  by_cases hlast : h = n + 1
  · subst hlast
    rw [update_eq_self, contents_succ]
  · have hswap := contents_move (a := a) (e := a h) (n := n + 1) hh ⟨by omega, le_rfl⟩ hlast
    rw [update_eq_self, contents_succ, update_self] at hswap
    rw [← hswap, contents_congr (b := update (update a h (a (n + 1))) (n + 1) (a h))]
    intro i _ hi
    rw [update_of_ne (show i ≠ n + 1 by omega)]

end Contents

end BinaryHeap
