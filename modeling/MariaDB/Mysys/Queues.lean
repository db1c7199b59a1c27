import MariaDB.Heap.Binary

set_option autoImplicit false

/-!
The priority queue of mysys (queues.c): a binary heap of element pointers in
`root[1 .. elements]`, ordered by `compare` on the keys of the elements and
reversed when `max_at_top` is -1, which can keep each element's position in
the element itself.
-/

namespace MariaDB.Queues

open BinaryHeap Function

/-- A comparison function whose sign orders its arguments as a total preorder:
`compare a b < 0` puts `a` strictly before `b`. -/
structure TotalPreorderCompare {κ : Type} (compare : κ → κ → Int32) : Prop where
  neg_iff_pos : ∀ a b, compare a b < 0 ↔ 0 < compare b a
  trans : ∀ a b c, compare a b ≤ 0 → compare b c ≤ 0 → compare a c ≤ 0

/-- QUEUE of queues.h, with the memory of the queued elements it reads and
writes: the key of each element (at `offset_to_key`, read by `compare` with
`first_cmp_arg`) and the position slot at `offset_to_queue_pos - 1`. -/
structure Queue (α κ : Type) where
  root : Nat → α
  elements : Nat
  maxElements : Nat
  maxAtTop : Int32
  compare : κ → κ → Int32
  offsetToQueuePos : Nat
  autoExtent : Nat
  key : α → κ
  queuePos : α → Nat

variable {α κ : Type}

namespace Queue

/-- `compare(first_cmp_arg, x + offset_to_key, y + offset_to_key) * max_at_top`,
a product of `int`s. -/
def cmp (q : Queue α κ) (x y : α) : Int32 := q.compare (q.key x) (q.key y) * q.maxAtTop

/-- The queue's order, `x` may stand above `y`: `compare`'s order, reversed when
`max_at_top` is -1. -/
def Before (q : Queue α κ) (x y : α) : Prop :=
  if q.maxAtTop = -1 then q.compare (q.key y) (q.key x) ≤ 0 else q.compare (q.key x) (q.key y) ≤ 0

/-- The queue with its array and its elements' stored positions replaced: all
that the sifts write. -/
def withSlots (q : Queue α κ) (root : Nat → α) (queuePos : α → Nat) : Queue α κ :=
  { q with root := root, queuePos := queuePos }

/-- queue_top. -/
def queueTop (q : Queue α κ) : α := q.root 1

/-- queue_set_max_at_top. -/
def queueSetMaxAtTop (q : Queue α κ) (setArg : Bool) : Queue α κ :=
  { q with maxAtTop := if setArg then -1 else 1 }

/-- init_queue once its array is allocated: `root` is that array's content. -/
def initQueue (root : Nat → α) (key : α → κ) (queuePos : α → Nat) (maxElements : Nat) (maxAtTop : Bool)
    (compare : κ → κ → Int32) (offsetToQueuePos autoExtent : Nat) : Queue α κ :=
  queueSetMaxAtTop
    { root := root, elements := 0, maxElements := maxElements, maxAtTop := 1, compare := compare,
      offsetToQueuePos := offsetToQueuePos, autoExtent := autoExtent, key := key, queuePos := queuePos } maxAtTop

variable [DecidableEq α]

/-- `root[idx]= x`, then the position stored in `x` when the queue keeps them. -/
def place (q : Queue α κ) (idx : Nat) (x : α) : Queue α κ :=
  q.withSlots (update q.root idx x) (if q.offsetToQueuePos ≠ 0 then update q.queuePos x idx else q.queuePos)

/-- insert_at: the element climbs from `idx` while it is strictly before its parent. -/
def insertAt (q : Queue α κ) (element : α) (idx : Nat) : Queue α κ :=
  if 0 < idx / 2 ∧ q.cmp element (q.root (idx / 2)) < 0 then
    (q.place idx (q.root (idx / 2))).insertAt element (idx / 2)
  else q.place idx element
termination_by idx
decreasing_by omega

/-- The child the loops of _downheap and queue_replace follow: the right one
when it exists and is strictly before the left one. -/
def nextIndex (q : Queue α κ) (elements idx : Nat) : Nat :=
  if idx + idx < elements ∧ 0 < q.cmp (q.root (idx + idx)) (q.root (idx + idx + 1)) then idx + idx + 1
  else idx + idx

omit [DecidableEq α] in
theorem nextIndex_bounds (q : Queue α κ) (elements idx : Nat) :
    idx + idx ≤ q.nextIndex elements idx ∧ q.nextIndex elements idx ≤ idx + idx + 1 := by
  unfold nextIndex
  split <;> omega

/-- The loop of _downheap, over the count `elements` read before it. It tests
`0 < idx` besides `idx <= half_queue`: no caller passes index 0, at which the
source's loop would not advance. -/
def downheapLoop (q : Queue α κ) (element : α) (elements idx : Nat) : Queue α κ :=
  if 0 < idx ∧ idx ≤ elements / 2 then
    if 0 ≤ q.cmp (q.root (q.nextIndex elements idx)) element then q.place idx element
    else (q.place idx (q.root (q.nextIndex elements idx))).downheapLoop element elements (q.nextIndex elements idx)
  else q.place idx element
termination_by elements + 1 - idx
decreasing_by
  have := q.nextIndex_bounds elements idx
  omega

/-- _downheap: the element at `idx` sinks while a child is strictly before it. -/
def downheap (q : Queue α κ) (idx : Nat) : Queue α κ := q.downheapLoop (q.root idx) q.elements idx

/-- queue_replace_top. -/
def queueReplaceTop (q : Queue α κ) : Queue α κ := q.downheap 1

/-- The loop of queue_fix: _downheap at `i`, then at every index below it. -/
def fixLoop (q : Queue α κ) : Nat → Queue α κ
  | 0 => q
  | i + 1 => (q.downheap (i + 1)).fixLoop i

/-- queue_fix. -/
def queueFix (q : Queue α κ) : Queue α κ := q.fixLoop (q.elements / 2)

/-- The loop of queue_replace: while `first` it stops where the element is at
or before the better child; after that the hole sinks to a leaf without
comparing. It returns the queue and the index insert_at starts from. -/
def replaceLoop (q : Queue α κ) (element : α) (elements : Nat) (first : Bool) (idx : Nat) : Queue α κ × Nat :=
  if 0 < idx ∧ idx ≤ elements / 2 then
    if first = true ∧ 0 ≤ q.cmp (q.root (q.nextIndex elements idx)) element then (q.place idx element, idx)
    else (q.place idx (q.root (q.nextIndex elements idx))).replaceLoop element elements false (q.nextIndex elements idx)
  else (q, idx)
termination_by elements + 1 - idx
decreasing_by
  have := q.nextIndex_bounds elements idx
  omega

/-- queue_replace. -/
def queueReplace (q : Queue α κ) (idx : Nat) : Queue α κ :=
  match q.replaceLoop (q.root idx) q.elements true idx with
  | (q', idx') => q'.insertAt (q.root idx) idx'

/-- queue_insert. -/
def queueInsert (q : Queue α κ) (element : α) : Queue α κ :=
  { q with elements := q.elements + 1 }.insertAt element (q.elements + 1)

/-- resize_queue, with whether my_realloc succeeds given; `none` is the error
return, which leaves the queue as it was. -/
def resizeQueue (q : Queue α κ) (maxElements : Nat) (reallocOk : Bool) : Option (Queue α κ) :=
  if q.maxElements = maxElements then some q
  else if reallocOk then some { q with elements := min q.elements maxElements, maxElements := maxElements }
  else none

/-- queue_insert_safe: the return code and the queue after it. -/
def queueInsertSafe (q : Queue α κ) (element : α) (reallocOk : Bool) : Int × Queue α κ :=
  if q.elements = q.maxElements then
    if q.autoExtent = 0 then (2, q)
    else
      match q.resizeQueue (q.maxElements + q.autoExtent) reallocOk with
      | none => (1, q)
      | some q' => (0, q'.queueInsert element)
  else (0, q.queueInsert element)

/-- queue_remove: the queue after it and the removed element. -/
def queueRemove (q : Queue α κ) (idx : Nat) : Queue α κ × α :=
  ({ q with root := update q.root idx (q.root q.elements), elements := q.elements - 1 }.queueReplace idx, q.root idx)

/-- What the queue's comparison needs: a total preorder, a `max_at_top` that
queue_set_max_at_top stores, and no `int` overflow of the product with it. -/
structure OrderSpec (q : Queue α κ) : Prop where
  compare : TotalPreorderCompare q.compare
  maxAtTop : q.maxAtTop = 1 ∨ q.maxAtTop = -1
  noOverflow : q.maxAtTop = -1 → ∀ a b, q.compare a b ≠ Int32.minValue

omit [DecidableEq α] in
/-- The order's assumptions read only `compare` and `max_at_top`. -/
theorem OrderSpec.of_eq {q q' : Queue α κ} (ho : q.OrderSpec) (hc : q'.compare = q.compare)
    (hm : q'.maxAtTop = q.maxAtTop) : q'.OrderSpec :=
  ⟨hc ▸ ho.compare, hm ▸ ho.maxAtTop, hm ▸ hc ▸ ho.noOverflow⟩

omit [DecidableEq α] in
theorem OrderSpec.withSlots {q : Queue α κ} (ho : q.OrderSpec) (root : Nat → α) (queuePos : α → Nat) :
    (q.withSlots root queuePos).OrderSpec :=
  ho.of_eq rfl rfl

/-- A queue between calls: within its bound, no element twice, in heap order,
and every element knowing its position when the queue keeps them. -/
structure Valid (q : Queue α κ) : Prop where
  full : q.elements ≤ q.maxElements
  nodup : (contents q.root q.elements).Nodup
  heap : IsHeap q.Before q.root q.elements
  pos : q.offsetToQueuePos ≠ 0 → ∀ i, 1 ≤ i → i ≤ q.elements → q.queuePos (q.root i) = i

end Queue

section Order

variable {κ : Type} {compare : κ → κ → Int32}

theorem TotalPreorderCompare.total (h : TotalPreorderCompare compare) (a b : κ) :
    compare a b ≤ 0 ∨ compare b a ≤ 0 := by
  by_cases hab : compare a b ≤ 0
  · exact Or.inl hab
  · exact Or.inr (Int32.le_of_lt ((h.neg_iff_pos b a).mpr (Int32.not_le.mp hab)))

theorem TotalPreorderCompare.toInt_neg_iff (h : TotalPreorderCompare compare) (a b : κ) :
    (compare a b).toInt < 0 ↔ 0 < (compare b a).toInt := by
  have hab := h.neg_iff_pos a b
  rwa [Int32.lt_iff_toInt_lt, Int32.lt_iff_toInt_lt, Int32.toInt_zero] at hab

end Order

namespace Queue

variable {α κ : Type} (q : Queue α κ)

theorem before_isTrans (h : TotalPreorderCompare q.compare) : IsTrans α q.Before := by
  constructor
  intro x y z hxy hyz
  unfold Before at *
  split_ifs at * with hm
  · exact h.trans _ _ _ hyz hxy
  · exact h.trans _ _ _ hxy hyz

theorem before_total (h : TotalPreorderCompare q.compare) : Std.Total q.Before := by
  constructor
  intro x y
  unfold Before
  split_ifs with hm
  · exact h.total (q.key y) (q.key x)
  · exact h.total (q.key x) (q.key y)

/-- The product with `max_at_top` as a mathematical integer. -/
theorem toInt_cmp (ho : q.OrderSpec) (x y : α) :
    (q.cmp x y).toInt =
      if q.maxAtTop = -1 then -(q.compare (q.key x) (q.key y)).toInt else (q.compare (q.key x) (q.key y)).toInt := by
  have hlo := Int32.le_toInt (q.compare (q.key x) (q.key y))
  have hhi := Int32.toInt_lt (q.compare (q.key x) (q.key y))
  rw [cmp, Int32.toInt_mul]
  rcases ho.maxAtTop with hm | hm
  · rw [if_neg (by rw [hm]; decide), hm, Int32.toInt_one, Int.mul_one]
    exact Int.bmod_eq_of_le (by omega) (by omega)
  · have hmin : (q.compare (q.key x) (q.key y)).toInt ≠ -2 ^ 31 := by
      rw [← Int32.toInt_minValue]
      exact fun heq => ho.noOverflow hm _ _ (Int32.toInt_inj.mp heq)
    rw [if_pos hm, hm, show (-1 : Int32).toInt = -1 by decide, Int.mul_neg_one]
    exact Int.bmod_eq_of_le (by omega) (by omega)

theorem before_iff_toInt (x y : α) :
    q.Before x y ↔
      if q.maxAtTop = -1 then (q.compare (q.key y) (q.key x)).toInt ≤ 0 else (q.compare (q.key x) (q.key y)).toInt ≤ 0 := by
  unfold Before
  split_ifs <;> rw [Int32.le_iff_toInt_le, Int32.toInt_zero]

section Tests

variable {q} (ho : q.OrderSpec) (x y : α)
include ho

/-- insert_at's test: the element climbs past a parent it is not after. -/
theorem cmp_neg_iff : q.cmp x y < 0 ↔ ¬q.Before y x := by
  have hxy := ho.compare.toInt_neg_iff (q.key x) (q.key y)
  have hyx := ho.compare.toInt_neg_iff (q.key y) (q.key x)
  rw [Int32.lt_iff_toInt_lt, Int32.toInt_zero, toInt_cmp q ho, before_iff_toInt]
  split_ifs <;> omega

/-- The stop test of the downward loops: the child is not before the element. -/
theorem cmp_nonneg_iff : 0 ≤ q.cmp x y ↔ q.Before y x := by
  rw [← Int32.not_lt, cmp_neg_iff ho, not_not]

theorem before_of_cmp_pos (h : 0 < q.cmp x y) : q.Before y x :=
  (cmp_nonneg_iff ho x y).mp (Int32.le_of_lt h)

theorem before_of_not_cmp_pos (h : ¬0 < q.cmp x y) : q.Before x y := by
  have hxy := ho.compare.toInt_neg_iff (q.key x) (q.key y)
  have hyx := ho.compare.toInt_neg_iff (q.key y) (q.key x)
  rw [Int32.lt_iff_toInt_lt, Int32.toInt_zero, toInt_cmp q ho] at h
  rw [before_iff_toInt]
  split_ifs at h ⊢ <;> omega

end Tests

variable {q}

theorem nextIndex_isBest (ho : q.OrderSpec) {elements idx : Nat} (hh : idx ≤ elements / 2) :
    IsBest q.Before q.root elements idx (q.nextIndex elements idx) := by
  have := q.before_total ho.compare
  have hb := q.nextIndex_bounds elements idx
  refine ⟨by omega, ?_, ?_⟩
  · unfold nextIndex
    split <;> omega
  · intro d hd hdn
    unfold nextIndex
    split_ifs with hr
    · -- the right child is taken when it is strictly before the left one
      rcases (show d = idx + idx ∨ d = idx + idx + 1 by omega) with rfl | rfl
      · exact before_of_cmp_pos ho _ _ hr.2
      · exact refl_of q.Before _
    · rcases (show d = idx + idx ∨ d = idx + idx + 1 by omega) with rfl | rfl
      · exact refl_of q.Before _
      · exact before_of_not_cmp_pos ho _ _ (fun hpos => hr ⟨by omega, hpos⟩)

variable [DecidableEq α]

theorem place_root (idx : Nat) (x : α) : (q.place idx x).root = update q.root idx x := rfl

theorem place_queuePos (hoff : q.offsetToQueuePos ≠ 0) (idx : Nat) (x : α) :
    (q.place idx x).queuePos = update q.queuePos x idx := if_pos hoff

theorem insertAt_of_not_climb {e : α} {idx : Nat} (h : ¬(0 < idx / 2 ∧ q.cmp e (q.root (idx / 2)) < 0)) :
    q.insertAt e idx = q.place idx e := by
  rw [insertAt, if_neg h]

theorem insertAt_of_climb {e : α} {idx : Nat} (h : 0 < idx / 2 ∧ q.cmp e (q.root (idx / 2)) < 0) :
    q.insertAt e idx = (q.place idx (q.root (idx / 2))).insertAt e (idx / 2) := by
  rw [insertAt, if_pos h]

theorem queueInsert_of_not_climb {e : α}
    (h : ¬(0 < (q.elements + 1) / 2 ∧ q.cmp e (q.root ((q.elements + 1) / 2)) < 0)) :
    q.queueInsert e = { q with elements := q.elements + 1 }.place (q.elements + 1) e :=
  insertAt_of_not_climb (q := { q with elements := q.elements + 1 }) h

theorem queueInsert_of_climb {e : α}
    (h : 0 < (q.elements + 1) / 2 ∧ q.cmp e (q.root ((q.elements + 1) / 2)) < 0) :
    q.queueInsert e = ({ q with elements := q.elements + 1 }.place (q.elements + 1)
      (q.root ((q.elements + 1) / 2))).insertAt e ((q.elements + 1) / 2) :=
  insertAt_of_climb (q := { q with elements := q.elements + 1 }) h

section Init

variable (root : Nat → α) (key : α → κ) (queuePos : α → Nat) (maxElements : Nat) (maxAtTop : Bool)
  (compare : κ → κ → Int32) (offsetToQueuePos autoExtent : Nat)

omit [DecidableEq α] in
theorem initQueue_valid :
    (initQueue root key queuePos maxElements maxAtTop compare offsetToQueuePos autoExtent).Valid := by
  have h0 : (initQueue root key queuePos maxElements maxAtTop compare offsetToQueuePos autoExtent).elements = 0 := rfl
  refine ⟨by rw [h0]; exact Nat.zero_le _, by rw [h0]; simp [contents], ?_, ?_⟩
  · intro i hi hin
    omega
  · intro _ i hi hin
    omega

omit [DecidableEq α] in
/-- init_queue with either `max_at_top` gives a queue whose order meets the
assumptions, for a total preorder that never answers `INT_MIN` when the product
with -1 is taken. -/
theorem initQueue_orderSpec (hc : TotalPreorderCompare compare)
    (hmin : maxAtTop = true → ∀ a b, compare a b ≠ Int32.minValue) :
    (initQueue root key queuePos maxElements maxAtTop compare offsetToQueuePos autoExtent).OrderSpec := by
  refine ⟨hc, ?_, fun hm => hmin ?_⟩
  · cases maxAtTop
    · exact Or.inl rfl
    · exact Or.inr rfl
  · cases maxAtTop
    · exact absurd hm (show (1 : Int32) ≠ -1 by decide)
    · rfl

end Init

end Queue

end MariaDB.Queues
