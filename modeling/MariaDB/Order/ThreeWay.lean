import Mathlib.Algebra.Order.Ring.Nat
import Mathlib.Data.List.DropRight
import Mathlib.Data.List.TakeDrop

set_option autoImplicit false

/- Three-way comparisons, and lists compared as if padded to a common length.
A comparison function returns an integer whose sign says how its arguments
are ordered; `Compares r x y` says that `r` does so for `x` and `y` under `<`.
A comparison that extends the shorter of two lists with copies of a fill
element compares the lists `pad w n`; two padded lists are equal exactly when
the lists agree once their trailing fill elements are removed. -/
namespace ThreeWay

variable {α : Type}

/-- `r` orders `x` and `y` as `<` does: negative, zero or positive as `x < y`,
`x = y` or `y < x`. -/
def Compares [LT α] (r : Int) (x y : α) : Prop :=
  (r < 0 ↔ x < y) ∧ (r = 0 ↔ x = y) ∧ (0 < r ↔ y < x)

section Compares

variable [LT α] {r s t : Int} {x y : α}

theorem Compares.neg_iff (h : Compares r x y) : r < 0 ↔ x < y := h.1

theorem Compares.eq_zero_iff (h : Compares r x y) : r = 0 ↔ x = y := h.2.1

theorem Compares.pos_iff (h : Compares r x y) : 0 < r ↔ y < x := h.2.2

/-- Swapping the arguments negates the comparison. -/
theorem Compares.neg (h : Compares r x y) : Compares (-r) y x := by
  refine ⟨?_, ?_, ?_⟩
  · rw [← h.pos_iff]
    omega
  · rw [eq_comm (a := y), ← h.eq_zero_iff]
    omega
  · rw [← h.neg_iff]
    omega

/-- Two comparisons of the same arguments in opposite orders have opposite signs. -/
theorem Compares.sign_eq_neg (h : Compares r x y) (h' : Compares s y x) : r.sign = -s.sign := by
  rcases lt_trichotomy r 0 with hr | hr | hr
  · have hs : 0 < s := h'.pos_iff.mpr (h.neg_iff.mp hr)
    rw [Int.sign_eq_neg_one_of_neg hr, Int.sign_eq_one_of_pos hs]
  · have hs : s = 0 := h'.eq_zero_iff.mpr (h.eq_zero_iff.mp hr).symm
    rw [hr, hs]
    rfl
  · have hs : s < 0 := h'.neg_iff.mpr (h.pos_iff.mp hr)
    rw [Int.sign_eq_one_of_pos hr, Int.sign_eq_neg_one_of_neg hs]
    rfl

/-- Two comparisons of the same arguments have the same sign. -/
theorem Compares.sign_eq (h : Compares r x y) (h' : Compares s x y) : r.sign = s.sign := by
  rw [h.sign_eq_neg h'.neg, Int.sign_neg, Int.neg_neg]

theorem compares_refl [Std.Irrefl (α := α) (· < ·)] (x : α) : Compares 0 x x := by
  have irr : ¬x < x := Std.Irrefl.irrefl x
  refine ⟨?_, ?_, ?_⟩ <;> simp [irr]

theorem compares_of_lt [Std.Asymm (α := α) (· < ·)] (hxy : x < y) : Compares (-1) x y := by
  have hne : x ≠ y := by
    rintro rfl
    exact Std.Asymm.asymm x x hxy hxy
  refine ⟨?_, ?_, ?_⟩
  · simp only [hxy, iff_true]
    omega
  · simp only [hne, iff_false]
    omega
  · simp only [Std.Asymm.asymm x y hxy, iff_false]
    omega

theorem compares_of_gt [Std.Asymm (α := α) (· < ·)] (hyx : y < x) : Compares 1 x y := by
  simpa using (compares_of_lt hyx).neg

end Compares

/-! ## Lists under the lexicographic order -/

section Lists

variable [LT α] {r s t : Int} {a b : α} {xs ys zs : List α}

theorem compares_nil_cons : Compares (-1) [] (b :: ys) := by
  refine ⟨?_, ?_, ?_⟩ <;> simp [List.nil_lt_cons, List.not_lt_nil]

theorem compares_cons_nil : Compares 1 (a :: xs) [] := by
  simpa using (compares_nil_cons : Compares (-1) [] (a :: xs)).neg

/-- Lists with equal heads compare as their tails do. -/
theorem Compares.cons [Std.Irrefl (α := α) (· < ·)] (h : Compares r xs ys) :
    Compares r (a :: xs) (a :: ys) := by
  have irr : ¬a < a := Std.Irrefl.irrefl a
  refine ⟨?_, ?_, ?_⟩
  · simp only [List.cons_lt_cons_iff, irr, true_and, false_or, h.neg_iff]
  · simp only [List.cons.injEq, true_and, h.eq_zero_iff]
  · simp only [List.cons_lt_cons_iff, irr, true_and, false_or, h.pos_iff]

/-- Lists whose heads differ compare as their heads do. -/
theorem Compares.cons_of_ne (h : Compares r a b) (hne : a ≠ b) : Compares r (a :: xs) (b :: ys) := by
  refine ⟨?_, ?_, ?_⟩
  · simp only [List.cons_lt_cons_iff, hne, false_and, or_false, h.neg_iff]
  · simp only [List.cons.injEq, hne, false_and, h.eq_zero_iff]
  · simp only [List.cons_lt_cons_iff, Ne.symm hne, false_and, or_false, h.pos_iff]

/-- A comparison that is a three-way comparison of lists is a total preorder:
its non-positive results are transitive. -/
theorem Compares.nonpos_trans [LE α] [Std.IsLinearOrder α] [Std.LawfulOrderLT α]
    (hxy : Compares r xs ys) (hyz : Compares s ys zs) (hxz : Compares t xs zs) (hr : r ≤ 0)
    (hs : s ≤ 0) : t ≤ 0 := by
  have hxy' : xs ≤ ys := List.not_lt.mp fun h => by
    have := hxy.pos_iff.mpr h
    omega
  have hyz' : ys ≤ zs := List.not_lt.mp fun h => by
    have := hyz.pos_iff.mpr h
    omega
  have hxz' : ¬zs < xs := List.not_lt.mpr (List.le_trans hxy' hyz')
  rw [← hxz.pos_iff] at hxz'
  omega

end Lists

/-! ## Trailing elements -/

section Trailing

variable {p q : α → Bool} {l xs ys : List α}

theorem rdropWhile_append_of_forall (h : ∀ y ∈ ys, p y = true) :
    (xs ++ ys).rdropWhile p = xs.rdropWhile p := by
  have hrev : ∀ y ∈ ys.reverse, p y = true := fun y hy => h y (List.mem_reverse.mp hy)
  simp only [List.rdropWhile, List.reverse_append, List.dropWhile_append_of_pos hrev]

/-- Removing the trailing `p`s removes every trailing element that a weaker
`q` holds of too. -/
theorem rdropWhile_rdropWhile_of_imp (h : ∀ x, p x = true → q x = true) :
    (l.rdropWhile p).rdropWhile q = l.rdropWhile q := by
  conv =>
    rhs
    rw [← List.rdropWhile_append_rtakeWhile (p := p) (l := l)]
  rw [rdropWhile_append_of_forall]
  intro y hy
  exact h y (List.mem_rtakeWhile_imp hy)

theorem rdropWhile_map {β : Type} (f : β → α) (l : List β) :
    (l.map f).rdropWhile p = (l.rdropWhile (p ∘ f)).map f := by
  simp only [List.rdropWhile, ← List.map_reverse, List.dropWhile_map]

/-- Dropping one trailing element that `p` holds of removes nothing more. -/
theorem rdropWhile_take_succ {e : Nat} (hl : e < l.length) (hp : p l[e] = true) :
    (l.take e).rdropWhile p = (l.take (e + 1)).rdropWhile p := by
  rw [← List.take_concat_get' l e hl, List.rdropWhile_concat_pos _ _ _ hp]

/-- A prefix that ends in an element `p` does not hold of keeps everything. -/
theorem rdropWhile_take_succ_of_not {e : Nat} (hl : e < l.length) (hp : p l[e] = false) :
    (l.take (e + 1)).rdropWhile p = l.take (e + 1) := by
  rw [← List.take_concat_get' l e hl, List.rdropWhile_concat, hp]
  rfl

end Trailing

/-! ## Padding -/

section Padding

variable {w x : α} {n : Nat} {xs ys : List α}

/-- `xs` extended with copies of `w` to length `n`. -/
def pad (w : α) (n : Nat) (xs : List α) : List α := xs ++ List.replicate (n - xs.length) w

@[simp] theorem pad_cons : pad w (n + 1) (x :: xs) = x :: pad w n xs := by
  simp [pad]

@[simp] theorem pad_nil_succ : pad w (n + 1) [] = w :: pad w n [] := by
  simp [pad, List.replicate_succ]

theorem length_pad (h : xs.length ≤ n) : (pad w n xs).length = n := by
  simp only [pad, List.length_append, List.length_replicate]
  omega

/-- Padding further pads the original list. -/
theorem pad_pad {m : Nat} (h : xs.length ≤ n) (hm : n ≤ m) : pad w m (pad w n xs) = pad w m xs := by
  simp only [pad, List.append_assoc, List.replicate_append_replicate, List.length_append,
    List.length_replicate]
  congr 2
  omega

theorem pad_append_replicate {k : Nat} (h : xs.length + k ≤ n) :
    pad w n (xs ++ List.replicate k w) = pad w n xs := by
  simp only [pad, List.append_assoc, List.replicate_append_replicate, List.length_append,
    List.length_replicate]
  congr 2
  omega

theorem eq_rdropWhile_append_replicate [DecidableEq α] (xs : List α) :
    xs = xs.rdropWhile (· == w) ++
      List.replicate (xs.length - (xs.rdropWhile (· == w)).length) w := by
  have hsplit := (List.rdropWhile_append_rtakeWhile (p := (· == w)) (l := xs)).symm
  have hrep : xs.rtakeWhile (· == w) =
      List.replicate (xs.length - (xs.rdropWhile (· == w)).length) w := by
    rw [List.eq_replicate_iff]
    constructor
    · have hlen := congrArg List.length hsplit
      rw [List.length_append] at hlen
      omega
    · intro b hb
      simpa using List.mem_rtakeWhile_imp hb
  conv =>
    lhs
    rw [hsplit]
  rw [hrep]

theorem rdropWhile_pad [DecidableEq α] : (pad w n xs).rdropWhile (· == w) = xs.rdropWhile (· == w) := by
  apply rdropWhile_append_of_forall
  intro z hz
  rw [(List.mem_replicate.mp hz).2]
  exact beq_self_eq_true w

theorem pad_rdropWhile [DecidableEq α] (hx : xs.length ≤ n) :
    pad w n (xs.rdropWhile (· == w)) = pad w n xs := by
  have hle : (xs.rdropWhile (· == w)).length ≤ xs.length := (List.rdropWhile_prefix _ xs).length_le
  conv =>
    rhs
    rw [eq_rdropWhile_append_replicate (w := w) xs]
  rw [pad_append_replicate]
  omega

/-- Two lists padded with `w` to a common length are equal exactly when they
agree once their trailing `w`s are removed. -/
theorem pad_eq_pad_iff [DecidableEq α] (hx : xs.length ≤ n) (hy : ys.length ≤ n) :
    pad w n xs = pad w n ys ↔ xs.rdropWhile (· == w) = ys.rdropWhile (· == w) := by
  constructor
  · intro h
    have hstrip := congrArg (List.rdropWhile (· == w)) h
    rwa [rdropWhile_pad, rdropWhile_pad] at hstrip
  · intro h
    rw [← pad_rdropWhile hx, ← pad_rdropWhile hy, h]

end Padding

end ThreeWay
