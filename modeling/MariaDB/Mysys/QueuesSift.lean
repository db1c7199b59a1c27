import MariaDB.Mysys.Queues

set_option autoImplicit false

/-!
The sifts of the mysys queue: insert_at, the loop of _downheap and the two
phases of queue_replace, each from a hole whose invariant says what the
direction needs, to a finished heap whose elements know their positions.
-/

namespace MariaDB.Queues

open BinaryHeap Function

namespace Queue

variable {α κ : Type} {q : Queue α κ}

/-- A sift in progress: slot `hole` is free and `e` belongs in it; with `e`
there the slots `1 .. n` hold `m`, no element twice, and every slot but the
hole holds an element that knows its position. -/
structure Sifting (q : Queue α κ) (n hole : Nat) (e : α) (m : Multiset α) : Prop where
  contents : contents (update q.root hole e) n = m
  nodup : m.Nodup
  pos : q.offsetToQueuePos ≠ 0 → ∀ i, 1 ≤ i → i ≤ n → i ≠ hole → q.queuePos (q.root i) = i

/-- A finished sift from `q`: only the array and the positions changed, the
slots `1 .. n` hold `m` in order from `k` down and know their positions. -/
structure Settled (q r : Queue α κ) (n k : Nat) (m : Multiset α) : Prop where
  shape : r = q.withSlots r.root r.queuePos
  contents : contents r.root n = m
  heap : HeapFrom q.Before r.root n k
  pos : q.offsetToQueuePos ≠ 0 → ∀ i, 1 ≤ i → i ≤ n → r.queuePos (r.root i) = i

theorem Settled.of_withSlots {r : Queue α κ} {root : Nat → α} {queuePos : α → Nat} {n k : Nat} {m : Multiset α}
    (h : Settled (q.withSlots root queuePos) r n k m) : Settled q r n k m :=
  ⟨h.shape, h.contents, h.heap, h.pos⟩

section Sifting

variable {n hole : Nat} {e : α} {m : Multiset α} (hs : q.Sifting n hole e m)
include hs

theorem Sifting.root_ne {i j : Nat} (hi : 1 ≤ i ∧ i ≤ n) (hj : 1 ≤ j ∧ j ≤ n) (hih : i ≠ hole) (hjh : j ≠ hole)
    (hij : i ≠ j) : q.root i ≠ q.root j := by
  have hinj := contents_injOn (hs.contents ▸ hs.nodup)
  intro heq
  apply hij
  apply hinj i j hi.1 hi.2 hj.1 hj.2
  rw [update_of_ne hih, update_of_ne hjh, heq]

theorem Sifting.root_ne_elem (hh : 1 ≤ hole ∧ hole ≤ n) {i : Nat} (hi : 1 ≤ i ∧ i ≤ n) (hih : i ≠ hole) :
    q.root i ≠ e := by
  have hinj := contents_injOn (hs.contents ▸ hs.nodup)
  intro heq
  apply hih
  apply hinj i hole hi.1 hi.2 hh.1 hh.2
  rw [update_of_ne hih, update_self, heq]

end Sifting

variable [DecidableEq α]

section Place

variable {n hole : Nat} {e : α} {m : Multiset α} (hs : q.Sifting n hole e m)
include hs

/-- One step of a sift: the element at `p` moves into the hole. -/
theorem Sifting.move {p : Nat} (hh : 1 ≤ hole ∧ hole ≤ n) (hp : 1 ≤ p ∧ p ≤ n) (hne : p ≠ hole) :
    (q.place hole (q.root p)).Sifting n p e m := by
  refine ⟨?_, hs.nodup, ?_⟩
  · rw [place_root, contents_move hh hp (Ne.symm hne), hs.contents]
  · intro hoff i hi hin hip
    rw [place_queuePos (q := q) hoff, place_root]
    by_cases hih : i = hole
    · rw [hih, update_self, update_self]
    · rw [update_of_ne hih, update_of_ne (hs.root_ne ⟨hi, hin⟩ hp hih hne hip)]
      exact hs.pos hoff i hi hin hih

theorem Sifting.place_self (hh : 1 ≤ hole ∧ hole ≤ n) : (q.place hole e).Sifting n hole e m := by
  refine ⟨by rw [place_root, update_idem, hs.contents], hs.nodup, ?_⟩
  intro hoff i hi hin hih
  rw [place_queuePos (q := q) hoff, place_root, update_of_ne hih, update_of_ne (hs.root_ne_elem hh ⟨hi, hin⟩ hih)]
  exact hs.pos hoff i hi hin hih

/-- The end of a sift: the element goes into the hole. -/
theorem Sifting.settled {k : Nat} (hfresh : ∀ i, 1 ≤ i → i ≤ n → i ≠ hole → q.root i ≠ e)
    (hheap : HeapFrom q.Before (update q.root hole e) n k) : Settled q (q.place hole e) n k m := by
  refine ⟨rfl, hs.contents, hheap, ?_⟩
  intro hoff i hi hin
  rw [place_queuePos (q := q) hoff, place_root]
  by_cases hih : i = hole
  · rw [hih, update_self, update_self]
  · rw [update_of_ne hih, update_of_ne (hfresh i hi hin hih)]
    exact hs.pos hoff i hi hin hih

end Place

/-- insert_at from a hole whose pairs off it are in order and whose element is
at or before the hole's children. -/
theorem insertAt_spec (ho : q.OrderSpec) {n idx : Nat} {e : α} {m : Multiset α}
    (hu : UpOrder q.Before q.root n idx e) (hs : q.Sifting n idx e m) (hidx : 1 ≤ idx ∧ idx ≤ n) :
    Settled q (q.insertAt e idx) n 1 m := by
  induction idx using Nat.strong_induction_on generalizing q with
  | _ idx ih =>
    have := q.before_isTrans ho.compare
    have := q.before_total ho.compare
    by_cases hup : 0 < idx / 2 ∧ q.cmp e (q.root (idx / 2)) < 0
    · rw [insertAt_of_climb hup]
      -- the parent moves down into the hole
      have hb : ¬q.Before (q.root (idx / 2)) e := (cmp_neg_iff ho _ _).mp hup.2
      apply Settled.of_withSlots
      exact ih (idx / 2) (by omega) (ho.withSlots _ _) (hu.move (by omega) hidx.2 hb) (hs.move hidx ⟨hup.1, by omega⟩ (by omega))
        ⟨hup.1, by omega⟩
    · rw [insertAt_of_not_climb hup]
      apply hs.settled (fun i hi hin hih => hs.root_ne_elem hidx ⟨hi, hin⟩ hih)
      apply hu.finish
      intro h2
      rw [← cmp_nonneg_iff ho, ← Int32.not_lt]
      exact fun hlt => hup ⟨by omega, hlt⟩

/-- The loop of _downheap from a hole whose element is at or after its parent,
over the pairs from `k` down. -/
theorem downheapLoop_spec (ho : q.OrderSpec) {n k idx : Nat} {e : α} {m : Multiset α}
    (hd : DownOrder q.Before q.root n k idx e) (hs : q.Sifting n idx e m) (hk : 1 ≤ k) (hki : k ≤ idx)
    (hn : idx ≤ n) : Settled q (q.downheapLoop e n idx) n k m := by
  fun_induction q.downheapLoop e n idx with
  | case1 q idx hc hstop =>
    have := q.before_isTrans ho.compare
    apply hs.settled (fun i hi hin hih => hs.root_ne_elem ⟨by omega, hn⟩ ⟨hi, hin⟩ hih)
    exact hd.finish hki ((nextIndex_isBest ho hc.2).le_all ((cmp_nonneg_iff ho _ _).mp hstop))
  | case2 q idx hc hstop ih =>
    have := q.before_total ho.compare
    have hbest := nextIndex_isBest ho hc.2
    have hb := q.nextIndex_bounds n idx
    apply Settled.of_withSlots
    exact ih (ho.withSlots _ _) (hd.move (by omega) hbest (fun h => hstop ((cmp_nonneg_iff ho _ _).mpr h)))
      (hs.move ⟨by omega, hn⟩ ⟨by omega, hbest.2.1⟩ (by omega)) (by omega) hbest.2.1
  | case3 q idx hc =>
    -- past the middle the hole has no children
    apply hs.settled (fun i hi hin hih => hs.root_ne_elem ⟨by omega, hn⟩ ⟨hi, hin⟩ hih)
    exact hd.finish hki (fun c hc' hcn => absurd hcn (by omega))

/-- The loop of queue_replace followed by its insert_at, from a hole whose
pairs off it are in order, for either value of `first`. -/
theorem replaceLoop_spec (ho : q.OrderSpec) (first : Bool) {n idx : Nat} {e : α} {m : Multiset α}
    (hh : HoleOrder q.Before q.root n 1 idx) (hs : q.Sifting n idx e m) (h1 : 1 ≤ idx) (hn : idx ≤ n) :
    Settled q ((q.replaceLoop e n first idx).1.insertAt e (q.replaceLoop e n first idx).2) n 1 m := by
  fun_induction q.replaceLoop e n first idx with
  | case1 q first idx hc hstop =>
    -- the element is at or before the better child: it can only climb
    have := q.before_isTrans ho.compare
    have hup : UpOrder q.Before q.root n idx e :=
      ⟨hh, (nextIndex_isBest ho hc.2).le_all ((cmp_nonneg_iff ho _ _).mp hstop.2)⟩
    apply Settled.of_withSlots
    exact insertAt_spec (ho.withSlots _ _) (hup.update_hole h1 e) (hs.place_self ⟨h1, hn⟩) ⟨h1, hn⟩
  | case2 q first idx hc hstop ih =>
    have hbest := nextIndex_isBest ho hc.2
    have hb := q.nextIndex_bounds n idx
    apply Settled.of_withSlots
    exact ih (ho.withSlots _ _) (hh.sink h1 hbest) (hs.move ⟨h1, hn⟩ ⟨by omega, hbest.2.1⟩ (by omega)) (by omega)
      hbest.2.1
  | case3 q first idx hc =>
    exact insertAt_spec ho (hh.toUpOrder_of_leaf (by omega)) hs ⟨h1, hn⟩

omit [DecidableEq α] in
theorem Sifting.of_eq {q' : Queue α κ} {n hole : Nat} {e : α} {m : Multiset α} (hs : q.Sifting n hole e m)
    (hroot : q'.root = q.root) (hpos : q'.queuePos = q.queuePos) (hoff : q'.offsetToQueuePos = q.offsetToQueuePos) :
    q'.Sifting n hole e m :=
  ⟨hroot ▸ hs.contents, hs.nodup, hoff ▸ hroot ▸ hpos ▸ hs.pos⟩

omit [DecidableEq α] in
/-- A finished sift over the queue's own count leaves a valid queue with the
same comparison. -/
theorem Settled.result {r : Queue α κ} {n : Nat} {m : Multiset α} (h : Settled q r n 1 m) (ho : q.OrderSpec)
    (hn : q.elements = n) (hfull : n ≤ q.maxElements) (hm : m.Nodup) :
    r.OrderSpec ∧ r.Valid ∧ BinaryHeap.contents r.root r.elements = m := by
  have hshape := h.shape
  rw [hshape]
  subst hn
  exact ⟨ho.withSlots _ _, ⟨hfull, h.contents ▸ hm, h.heap, h.pos⟩, h.contents⟩

/-- queue_replace from a hole at `idx` holding its own element. -/
theorem queueReplace_settled (ho : q.OrderSpec) {idx : Nat} {m : Multiset α}
    (hh : HoleOrder q.Before q.root q.elements 1 idx) (hs : q.Sifting q.elements idx (q.root idx) m)
    (hidx : 1 ≤ idx ∧ idx ≤ q.elements) : Settled q (q.queueReplace idx) q.elements 1 m :=
  replaceLoop_spec ho true hh hs hidx.1 hidx.2

/-- queue_replace from the slot just past the end, as queue_remove of the last
element calls it: in a heap that element does not climb. -/
theorem queueReplace_past_end (ho : q.OrderSpec) {idx : Nat} {m : Multiset α} (hidx : idx = q.elements + 1)
    (hs : q.Sifting q.elements idx (q.root idx) m) (hheap : IsHeap q.Before q.root idx)
    (hfresh : ∀ i, 1 ≤ i → i ≤ q.elements → q.root i ≠ q.root idx) : Settled q (q.queueReplace idx) q.elements 1 m := by
  have hstay : ¬(0 < idx / 2 ∧ q.cmp (q.root idx) (q.root (idx / 2)) < 0) := by
    rintro ⟨hp, hlt⟩
    exact (cmp_neg_iff ho _ _).mp hlt (hheap idx (by omega) le_rfl hp)
  unfold queueReplace
  rw [replaceLoop, if_neg (by omega)]
  dsimp only
  rw [insertAt_of_not_climb hstay]
  apply hs.settled (fun i hi hin _ => hfresh i hi hin)
  rw [update_eq_self]
  exact hheap.of_le_count (by omega)

omit [DecidableEq α] in
/-- A valid queue is a finished sift with every slot's element its own. -/
theorem Valid.sifting (hv : q.Valid) (idx : Nat) : q.Sifting q.elements idx (q.root idx) (contents q.root q.elements) := by
  refine ⟨by rw [update_eq_self], hv.nodup, ?_⟩
  intro hoff i hi hin _
  exact hv.pos hoff i hi hin

end Queue

end MariaDB.Queues
