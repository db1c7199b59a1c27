import Mathlib.Data.List.Chain

set_option autoImplicit false

/- Lists threaded through an array: each cell holds the index of the next
cell of its list, and the last cell holds a `stop` index. A hash table that
chains its buckets through its own slots keeps one such list per bucket. -/

namespace ThreadedChain

variable {α : Type} (next : α → α) (stop : α)

/-- The cells of `l` in order: each cell's `next` is the cell after it, and
the last cell's is `stop`. -/
def Linked (l : List α) : Prop := (l ++ [stop]).IsChain fun a b => next a = b

variable {next stop}

@[simp] theorem linked_nil : Linked next stop [] := by
  simp [Linked]

@[simp] theorem linked_singleton {a : α} : Linked next stop [a] ↔ next a = stop := by
  simp [Linked]

@[simp] theorem linked_cons_cons {a b : α} {l : List α} :
    Linked next stop (a :: b :: l) ↔ next a = b ∧ Linked next stop (b :: l) := by
  simp [Linked]

theorem linked_cons {a : α} {l : List α} :
    Linked next stop (a :: l) ↔ next a = l.headD stop ∧ Linked next stop l := by
  cases l <;> simp

/-- A list cut in two: the first part leads to the head of the second. -/
theorem linked_append {l₁ l₂ : List α} :
    Linked next stop (l₁ ++ l₂) ↔ Linked next (l₂.headD stop) l₁ ∧ Linked next stop l₂ := by
  induction l₁ with
  | nil => simp
  | cons a l₁ ih =>
    rw [List.cons_append, linked_cons, linked_cons, ih, and_assoc]
    cases l₁ <;> simp

theorem linked_concat {l : List α} {a : α} :
    Linked next stop (l ++ [a]) ↔ Linked next a l ∧ next a = stop := by
  rw [linked_append, List.headD_cons, linked_singleton]

/-- The last cell links to `stop`. -/
theorem Linked.last {l : List α} (linked : Linked next stop l) : ∀ a ∈ l.getLast?, next a = stop := by
  intro a mem
  obtain ⟨front, rfl⟩ := List.getLast?_eq_some_iff.mp mem
  exact (linked_concat.mp linked).2

/-- Only the links of the list's own cells matter. -/
theorem Linked.congr {next' : α → α} {l : List α} (linked : Linked next stop l)
    (same : ∀ a ∈ l, next' a = next a) : Linked next' stop l := by
  induction l with
  | nil => exact linked_nil
  | cons a l ih =>
    rw [linked_cons] at linked ⊢
    exact ⟨(same a (by simp)).trans linked.1, ih linked.2 fun b mem => same b (by simp [mem])⟩

/-- The last cell pointed at another `stop`. -/
theorem Linked.redirect {next' : α → α} {stop' a : α} {l : List α} (linked : Linked next stop (l ++ [a]))
    (atLast : next' a = stop') (same : ∀ b ∈ l, next' b = next b) : Linked next' stop' (l ++ [a]) :=
  linked_concat.mpr ⟨(linked_concat.mp linked).1.congr same, atLast⟩

/-- A cell's link is a cell of the list or `stop`. -/
theorem Linked.next_mem {l : List α} (linked : Linked next stop l) {a : α} (mem : a ∈ l) :
    next a ∈ l ∨ next a = stop := by
  induction l with
  | nil => cases mem
  | cons b l ih =>
    rw [linked_cons] at linked
    rcases List.mem_cons.mp mem with rfl | mem
    · cases l with
      | nil => exact Or.inr linked.1
      | cons c l => exact Or.inl (by simp [linked.1])
    · exact (ih linked.2 mem).imp (List.mem_cons_of_mem b) id

end ThreadedChain
