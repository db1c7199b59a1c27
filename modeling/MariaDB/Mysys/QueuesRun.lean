import Mathlib.Tactic.Abel
import MariaDB.Mysys.QueuesSift

set_option autoImplicit false

/-!
The calls of the mysys queue and runs of them: each call keeps a queue valid
and changes its elements by what it inserts and removes.
-/

namespace MariaDB.Queues

open BinaryHeap Function

namespace Queue

variable {α κ : Type} [DecidableEq α] {q : Queue α κ}

section Calls

variable (ho : q.OrderSpec) (hv : q.Valid)
include ho hv

/-- Changing the key of the element at `idx` leaves a hole there. -/
theorem Valid.holeOrder_key {idx : Nat} (hidx : 1 ≤ idx ∧ idx ≤ q.elements) (k : κ) :
    HoleOrder { q with key := update q.key (q.root idx) k }.Before q.root q.elements 1 idx := by
  have := q.before_isTrans ho.compare
  apply hv.heap.holeOrder_of_agree le_rfl
  intro i j hi hin hj hjn hih hjh
  have hs := hv.sifting idx
  simp only [Before, update_of_ne (hs.root_ne_elem hidx ⟨hi, hin⟩ hih), update_of_ne (hs.root_ne_elem hidx ⟨hj, hjn⟩ hjh)]

theorem queueInsert_spec {x : α} (hroom : q.elements < q.maxElements) (hnew : x ∉ contents q.root q.elements) :
    (q.queueInsert x).OrderSpec ∧ (q.queueInsert x).Valid ∧
      contents (q.queueInsert x).root (q.queueInsert x).elements = x ::ₘ contents q.root q.elements := by
  have hs : Sifting { q with elements := q.elements + 1 } (q.elements + 1) (q.elements + 1) x
      (x ::ₘ contents q.root q.elements) := by
    refine ⟨?_, Multiset.nodup_cons.mpr ⟨hnew, hv.nodup⟩, ?_⟩
    · rw [contents_succ, update_self]
      congr 1
      apply contents_congr
      intro i _ hin
      rw [update_of_ne (by omega)]
    · intro hoff i hi hin hih
      exact hv.pos hoff i hi (by omega)
  have hset := insertAt_spec (q := { q with elements := q.elements + 1 }) (ho.of_eq rfl rfl) hv.heap.upOrder_last hs
    ⟨by omega, le_rfl⟩
  exact hset.result (ho.of_eq rfl rfl) rfl (show q.elements + 1 ≤ q.maxElements by omega) hs.nodup

/-- queue_replace after the key of the element at `idx` changed. -/
theorem queueReplace_spec {idx : Nat} (hidx : 1 ≤ idx ∧ idx ≤ q.elements) (k : κ) :
    Settled { q with key := update q.key (q.root idx) k } ({ q with key := update q.key (q.root idx) k }.queueReplace idx)
      q.elements 1 (contents q.root q.elements) :=
  queueReplace_settled (q := { q with key := update q.key (q.root idx) k }) (ho.of_eq rfl rfl)
    (hv.holeOrder_key ho hidx k) ((hv.sifting idx).of_eq rfl rfl rfl) hidx

/-- queue_replace_top after the key of the top element changed. -/
theorem queueReplaceTop_spec (h1 : 1 ≤ q.elements) (k : κ) :
    Settled { q with key := update q.key (q.root 1) k } { q with key := update q.key (q.root 1) k }.queueReplaceTop
      q.elements 1 (contents q.root q.elements) := by
  have hd : DownOrder { q with key := update q.key (q.root 1) k }.Before q.root q.elements 1 1 (q.root 1) :=
    ⟨hv.holeOrder_key ho ⟨le_rfl, h1⟩ k, fun h => absurd h (by omega)⟩
  unfold queueReplaceTop downheap
  exact downheapLoop_spec (q := { q with key := update q.key (q.root 1) k }) (ho.of_eq rfl rfl) hd
    ((hv.sifting 1).of_eq rfl rfl rfl) le_rfl le_rfl h1

theorem queueRemove_spec {idx : Nat} (hidx : 1 ≤ idx ∧ idx ≤ q.elements) :
    (q.queueRemove idx).1.OrderSpec ∧ (q.queueRemove idx).1.Valid ∧
      (q.queueRemove idx).2 ::ₘ contents (q.queueRemove idx).1.root (q.queueRemove idx).1.elements =
        contents q.root q.elements := by
  have := q.before_isTrans ho.compare
  -- the queue after root[idx]= root[elements--]
  obtain ⟨q1, hq1⟩ : ∃ q1 : Queue α κ,
      q1 = { q with root := update q.root idx (q.root q.elements), elements := q.elements - 1 } := ⟨_, rfl⟩
  have hroot : q1.root = update q.root idx (q.root q.elements) := by rw [hq1]
  have helems : q1.elements = q.elements - 1 := by rw [hq1]
  have hbefore : q1.Before = q.Before := by rw [hq1]; rfl
  have hmax : q1.maxElements = q.maxElements := by rw [hq1]
  have hord : q1.OrderSpec := by rw [hq1]; exact ho.of_eq rfl rfl
  have hm := contents_remove (a := q.root) (n := q.elements - 1) ⟨hidx.1, by omega⟩
  rw [show q.elements - 1 + 1 = q.elements by omega] at hm
  have hnodup : (contents (update q.root idx (q.root q.elements)) (q.elements - 1)).Nodup := by
    have h := hv.nodup
    rw [← hm] at h
    exact (Multiset.nodup_cons.mp h).2
  have hs : q1.Sifting q1.elements idx (q1.root idx) (contents (update q.root idx (q.root q.elements)) (q.elements - 1)) := by
    refine ⟨by rw [update_eq_self, hroot, helems], hnodup, ?_⟩
    intro hoff i hi hin hih
    rw [hroot, update_of_ne hih, show q1.queuePos = q.queuePos by rw [hq1]]
    exact hv.pos (by rw [hq1] at hoff; exact hoff) i hi (by omega)
  have hset : Settled q1 (q1.queueReplace idx) q1.elements 1
      (contents (update q.root idx (q.root q.elements)) (q.elements - 1)) := by
    by_cases hlast : idx = q.elements
    · apply queueReplace_past_end hord (by omega) hs
      · rw [hroot, hbefore, hlast, update_eq_self]
        exact hv.heap
      · intro i hi hin
        rw [hroot, update_self, update_of_ne (by omega)]
        intro heq
        have := contents_injOn hv.nodup i q.elements hi (by omega) (by omega) le_rfl heq
        omega
    · apply queueReplace_settled hord _ hs ⟨hidx.1, by omega⟩
      rw [hroot, hbefore, helems]
      apply hv.heap.holeOrder_of_agree (Nat.sub_le _ _)
      intro i j hi hin hj hjn hih hjh
      rw [update_of_ne hih, update_of_ne hjh]
  have hfull := hv.full
  obtain ⟨h1, h2, h3⟩ := hset.result hord rfl (by rw [helems, hmax]; omega) hnodup
  have hq : (q.queueRemove idx).1 = q1.queueReplace idx := by rw [hq1]; rfl
  rw [hq]
  exact ⟨h1, h2, by rw [h3]; exact hm⟩

omit hv in
/-- queue_fix's loop from `i`, with the subtrees below `i` already heaps. -/
theorem fixLoop_spec {m : Multiset α} (hm : m.Nodup) :
    ∀ i (r : Queue α κ), i ≤ q.elements → Settled q r q.elements (i + 1) m → Settled q (r.fixLoop i) q.elements 1 m
  | 0, _, _, hr => hr
  | i + 1, r, hi, hr => by
    rw [hr.shape, fixLoop]
    apply fixLoop_spec hm i _ (by omega)
    apply Settled.of_withSlots
    have hs : (q.withSlots r.root r.queuePos).Sifting q.elements (i + 1) (r.root (i + 1)) m :=
      ⟨by rw [withSlots, update_eq_self]; exact hr.contents, hm, fun hoff j hj hjn _ => hr.pos hoff j hj hjn⟩
    exact downheapLoop_spec (ho.withSlots _ _) (hr.heap.downOrder (by omega)) hs (by omega) le_rfl
      (show i + 1 ≤ q.elements by omega)

/-- queue_fix after every key may have changed. -/
theorem queueFix_spec (key : α → κ) :
    Settled { q with key := key } { q with key := key }.queueFix q.elements 1 (contents q.root q.elements) := by
  have hstart : Settled { q with key := key } { q with key := key } q.elements (q.elements / 2 + 1)
      (contents q.root q.elements) :=
    ⟨rfl, rfl, fun i hi hin hki => absurd hki (by omega), fun hoff i hi hin => hv.pos hoff i hi hin⟩
  exact fixLoop_spec (q := { q with key := key }) (ho.of_eq rfl rfl) hv.nodup (q.elements / 2) _
    (Nat.div_le_self _ _) hstart

theorem queueInsertSafe_spec {x : α} {reallocOk : Bool} (hnew : x ∉ contents q.root q.elements) :
    (q.queueInsertSafe x reallocOk).2.OrderSpec ∧ (q.queueInsertSafe x reallocOk).2.Valid ∧
      contents (q.queueInsertSafe x reallocOk).2.root (q.queueInsertSafe x reallocOk).2.elements =
        (if (q.queueInsertSafe x reallocOk).1 = 0 then {x} else 0) + contents q.root q.elements := by
  by_cases hfull : q.elements = q.maxElements
  · by_cases hext : q.autoExtent = 0
    · have hres : q.queueInsertSafe x reallocOk = (2, q) := by
        rw [queueInsertSafe, if_pos hfull, if_pos hext]
      rw [hres]
      dsimp only
      exact ⟨ho, hv, by rw [if_neg (by decide), zero_add]⟩
    cases reallocOk
    · have hres : q.queueInsertSafe x false = (1, q) := by
        rw [queueInsertSafe, if_pos hfull, if_neg hext, resizeQueue, if_neg (by omega), if_neg (by decide)]
      rw [hres]
      dsimp only
      exact ⟨ho, hv, by rw [if_neg (by decide), zero_add]⟩
    · -- the array grows by auto_extent and keeps every element
      have hres : q.queueInsertSafe x true = (0, { q with maxElements := q.maxElements + q.autoExtent }.queueInsert x) := by
        rw [queueInsertSafe, if_pos hfull, if_neg hext, resizeQueue, if_neg (by omega), if_pos rfl,
          Nat.min_eq_left (by omega)]
      have hv' : Valid { q with maxElements := q.maxElements + q.autoExtent } :=
        ⟨show q.elements ≤ q.maxElements + q.autoExtent by omega, hv.nodup, hv.heap, hv.pos⟩
      obtain ⟨h1, h2, h3⟩ := queueInsert_spec (q := { q with maxElements := q.maxElements + q.autoExtent })
        (ho.of_eq rfl rfl) hv' (show q.elements < q.maxElements + q.autoExtent by omega) hnew
      rw [hres]
      exact ⟨h1, h2, by rw [h3, if_pos rfl, Multiset.singleton_add]⟩
  · have hres : q.queueInsertSafe x reallocOk = (0, q.queueInsert x) := by
      rw [queueInsertSafe, if_neg hfull]
    obtain ⟨h1, h2, h3⟩ := queueInsert_spec ho hv (Nat.lt_of_le_of_ne hv.full hfull) hnew
    rw [hres]
    exact ⟨h1, h2, by rw [h3, if_pos rfl, Multiset.singleton_add]⟩

end Calls

/-- A call of the queue's interface, with the change of keys the caller makes
before it. -/
inductive Op (α κ : Type)
  | insert (element : α)
  | insertSafe (element : α) (reallocOk : Bool)
  | remove (idx : Nat)
  | replaceTop (key : κ)
  | replace (idx : Nat) (key : κ)
  | fix (key : α → κ)

/-- The queue after a call. -/
def step (q : Queue α κ) : Op α κ → Queue α κ
  | .insert x => q.queueInsert x
  | .insertSafe x reallocOk => (q.queueInsertSafe x reallocOk).2
  | .remove idx => (q.queueRemove idx).1
  | .replaceTop k => { q with key := update q.key (q.root 1) k }.queueReplaceTop
  | .replace idx k => { q with key := update q.key (q.root idx) k }.queueReplace idx
  | .fix key => { q with key := key }.queueFix

/-- The element a call puts in the queue. -/
def added (q : Queue α κ) : Op α κ → Multiset α
  | .insert x => {x}
  | .insertSafe x reallocOk => if (q.queueInsertSafe x reallocOk).1 = 0 then {x} else 0
  | _ => 0

/-- The element a call hands back out of the queue. -/
def removed (q : Queue α κ) : Op α κ → Multiset α
  | .remove idx => {(q.queueRemove idx).2}
  | _ => 0

/-- The calls a caller may make: queue_insert below `max_elements`, an index
inside the queue for queue_remove and queue_replace, queue_replace_top on a
queue that is not empty, and no element inserted while it is in the queue. -/
def Allowed (q : Queue α κ) : Op α κ → Prop
  | .insert x => q.elements < q.maxElements ∧ x ∉ contents q.root q.elements
  | .insertSafe x _ => x ∉ contents q.root q.elements
  | .remove idx => 1 ≤ idx ∧ idx ≤ q.elements
  | .replaceTop _ => 1 ≤ q.elements
  | .replace idx _ => 1 ≤ idx ∧ idx ≤ q.elements
  | .fix _ => True

/-- The queue after a sequence of calls. -/
def run (q : Queue α κ) : List (Op α κ) → Queue α κ
  | [] => q
  | op :: ops => (q.step op).run ops

def RunAllowed (q : Queue α κ) : List (Op α κ) → Prop
  | [] => True
  | op :: ops => q.Allowed op ∧ (q.step op).RunAllowed ops

def runAdded (q : Queue α κ) : List (Op α κ) → Multiset α
  | [] => 0
  | op :: ops => q.added op + (q.step op).runAdded ops

def runRemoved (q : Queue α κ) : List (Op α κ) → Multiset α
  | [] => 0
  | op :: ops => q.removed op + (q.step op).runRemoved ops

/-- One call keeps the queue valid, and its elements change by what the call
adds and removes. -/
theorem step_spec (ho : q.OrderSpec) (hv : q.Valid) {op : Op α κ} (ha : q.Allowed op) :
    (q.step op).OrderSpec ∧ (q.step op).Valid ∧
      contents (q.step op).root (q.step op).elements + q.removed op = contents q.root q.elements + q.added op := by
  cases op with
  | insert x =>
    obtain ⟨h1, h2, h3⟩ := queueInsert_spec ho hv ha.1 ha.2
    refine ⟨h1, h2, ?_⟩
    simp only [step, removed, added, add_zero]
    rw [h3, add_comm, Multiset.singleton_add]
  | insertSafe x reallocOk =>
    obtain ⟨h1, h2, h3⟩ := queueInsertSafe_spec ho hv ha
    refine ⟨h1, h2, ?_⟩
    simp only [step, removed, added, add_zero]
    rw [h3, add_comm]
  | remove idx =>
    obtain ⟨h1, h2, h3⟩ := queueRemove_spec ho hv ha
    refine ⟨h1, h2, ?_⟩
    simp only [step, removed, added, add_zero]
    rw [add_comm, Multiset.singleton_add, h3]
  | replaceTop k =>
    obtain ⟨h1, h2, h3⟩ := (queueReplaceTop_spec ho hv ha k).result (ho.of_eq rfl rfl) rfl hv.full hv.nodup
    refine ⟨h1, h2, ?_⟩
    simp only [step, removed, added, add_zero]
    exact h3
  | replace idx k =>
    obtain ⟨h1, h2, h3⟩ := (queueReplace_spec ho hv ha k).result (ho.of_eq rfl rfl) rfl hv.full hv.nodup
    refine ⟨h1, h2, ?_⟩
    simp only [step, removed, added, add_zero]
    exact h3
  | fix key =>
    obtain ⟨h1, h2, h3⟩ := (queueFix_spec ho hv key).result (ho.of_eq rfl rfl) rfl hv.full hv.nodup
    refine ⟨h1, h2, ?_⟩
    simp only [step, removed, added, add_zero]
    exact h3

/-- Every allowed run keeps the queue valid; what it holds at the end, with
what the run removed, is what it held at the start with what the run added. -/
theorem run_spec : ∀ (ops : List (Op α κ)) (q : Queue α κ), q.OrderSpec → q.Valid → q.RunAllowed ops →
    (q.run ops).OrderSpec ∧ (q.run ops).Valid ∧
      contents (q.run ops).root (q.run ops).elements + q.runRemoved ops = contents q.root q.elements + q.runAdded ops
  | [], q, ho, hv, _ => ⟨ho, hv, by rw [run, runRemoved, runAdded]⟩
  | op :: ops, q, ho, hv, ⟨ha, hrest⟩ => by
    obtain ⟨h1, h2, h3⟩ := step_spec ho hv ha
    obtain ⟨h4, h5, h6⟩ := run_spec ops (q.step op) h1 h2 hrest
    refine ⟨h4, h5, ?_⟩
    rw [run, runRemoved, runAdded]
    calc contents ((q.step op).run ops).root ((q.step op).run ops).elements + (q.removed op + (q.step op).runRemoved ops)
        = (contents ((q.step op).run ops).root ((q.step op).run ops).elements + (q.step op).runRemoved ops) +
            q.removed op := by abel
      _ = (contents (q.step op).root (q.step op).elements + q.removed op) + (q.step op).runAdded ops := by
        rw [h6]
        abel
      _ = contents q.root q.elements + (q.added op + (q.step op).runAdded ops) := by
        rw [h3, add_assoc]

/-- The queue's invariant over every allowed run: it stays valid (heap order,
no element twice, every element knowing its position), it holds what was
inserted and not removed, and queue_top is first in the queue's order. -/
theorem queue_run_invariant (q : Queue α κ) (ops : List (Op α κ)) (ho : q.OrderSpec) (hv : q.Valid)
    (ha : q.RunAllowed ops) :
    (q.run ops).Valid ∧
      contents (q.run ops).root (q.run ops).elements + q.runRemoved ops = contents q.root q.elements + q.runAdded ops ∧
      ∀ i, 1 ≤ i → i ≤ (q.run ops).elements → (q.run ops).Before (q.run ops).queueTop ((q.run ops).root i) := by
  obtain ⟨hend, hvalid, hcontents⟩ := run_spec ops q ho hv ha
  have := (q.run ops).before_isTrans hend.compare
  have := (q.run ops).before_total hend.compare
  exact ⟨hvalid, hcontents, hvalid.heap.top_le⟩

theorem queue_run_invariant_bool :
    ∃ (q : Queue Nat Bool) (ops : List (Op Nat Bool)), q.OrderSpec ∧ q.Valid ∧ q.RunAllowed ops ∧ ops.length = 2 ∧
      (q.run ops).Valid ∧
      contents (q.run ops).root (q.run ops).elements + q.runRemoved ops = contents q.root q.elements + q.runAdded ops ∧
      ∀ i, 1 ≤ i → i ≤ (q.run ops).elements → (q.run ops).Before (q.run ops).queueTop ((q.run ops).root i) := by
  have ho := initQueue_orderSpec (fun _ => 0) (fun x => decide (x = 3)) (fun _ => 0) 4 true
    (fun a b : Bool => if a = b then 0 else if a then 1 else -1) 1 2 ⟨by decide, by decide⟩ (fun _ => by decide)
  have hv := initQueue_valid (fun _ => 0) (fun x => decide (x = 3)) (fun _ => 0) 4 true
    (fun a b : Bool => if a = b then 0 else if a then 1 else -1) 1 2
  refine ⟨_, [.insert 3, .fix (fun x => decide (x = 5))], ho, hv, ?ha, rfl, queue_run_invariant _ _ ho hv ?ha⟩
  exact ⟨⟨by decide, by simp [contents, initQueue, queueSetMaxAtTop]⟩, trivial, trivial⟩

/-- With `max_at_top` -1, a comparison that answers `INT_MIN` overflows the
product: after inserting `x` and then `y` with `y` strictly before `x`, `y` is
on top although the order puts `x` above it. -/
theorem queueInsert_overflow (hc : TotalPreorderCompare q.compare) (hm : q.maxAtTop = -1) (h0 : q.elements = 0)
    {x y : α} (hmin : q.compare (q.key y) (q.key x) = Int32.minValue) :
    ¬IsHeap ((q.queueInsert x).queueInsert y).Before ((q.queueInsert x).queueInsert y).root
      ((q.queueInsert x).queueInsert y).elements := by
  have hfirst : q.queueInsert x = { q with elements := 1 }.place 1 x := by
    rw [queueInsert_of_not_climb (by rw [h0]; exact fun h => absurd h.1 (by decide)), h0]
  have hpos : 0 < q.compare (q.key x) (q.key y) := (hc.neg_iff_pos (q.key y) (q.key x)).mp (by rw [hmin]; decide)
  rw [hfirst, queueInsert_of_climb ?climb, insertAt_of_not_climb ?stay]
  · -- the root holds `y` and its child `x`, which the order puts above `y`
    intro hheap
    have htop := hheap 2 le_rfl (by simp [place, withSlots]) le_rfl
    simp [Before, place, withSlots, hm] at htop
    exact absurd htop (Int32.not_le.mpr hpos)
  case climb =>
    simp only [cmp, place, withSlots, Nat.reduceAdd, Nat.reduceDiv, update_self, hmin, hm]
    decide
  case stay =>
    rintro ⟨hidx, -⟩
    simp [place, withSlots] at hidx

/-- `queue_set_max_at_top(queue, 1)` stores -1, and a comparison answering
`INT_MIN` for the later element: after `queue_insert(x)` and
`queue_insert(y)` the heap is out of order. -/
theorem queueInsert_overflow_breaks_heap :
    ∃ q : Queue Nat Bool, TotalPreorderCompare q.compare ∧ q.maxAtTop = -1 ∧ q.Valid ∧
      q.elements + 2 ≤ q.maxElements ∧
      ¬IsHeap (q.run [.insert 1, .insert 2]).Before (q.run [.insert 1, .insert 2]).root
        (q.run [.insert 1, .insert 2]).elements := by
  refine ⟨initQueue (fun _ => 0) (fun x => decide (x = 1)) (fun _ => 0) 4 true
    (fun a b : Bool => if a = b then 0 else if a then 1 else Int32.minValue) 0 0, ⟨by decide, by decide⟩, rfl,
    initQueue_valid _ _ _ _ _ _ _ _, by decide, ?_⟩
  exact queueInsert_overflow ⟨by decide, by decide⟩ rfl rfl (x := 1) (y := 2) (by decide)

end Queue

end MariaDB.Queues
