import Mathlib.Tactic.Common

set_option autoImplicit false

/- Bisection over a half-open range of indices `[lo, hi)`: the loop halves the
gap while it is wider than one, keeping the predicate true at `lo` and false at
`hi` unless `hi` is the end of the range. On a predicate that holds on a prefix
of the range it finds the last index of that prefix. -/
namespace Bisect

variable (p : Nat → Bool)

/-- `while (hi - lo > 1) { mid = (lo + hi) / 2; if (p mid) lo = mid; else hi = mid; }`,
returning `lo`; `hi - lo` is fuel enough. -/
def loop : Nat → Nat → Nat → Nat
  | 0, lo, _ => lo
  | fuel + 1, lo, hi =>
    if 1 < hi - lo then
      if p ((lo + hi) / 2) then loop fuel ((lo + hi) / 2) hi else loop fuel lo ((lo + hi) / 2)
    else lo

/-- The invariant of the loop over `[0, top)`. -/
def Inv (top lo hi : Nat) : Prop :=
  lo < hi ∧ hi ≤ top ∧ p lo = true ∧ (hi < top → p hi = false)

/-- A predicate true on a prefix of the indices. -/
def Prefix : Prop := ∀ i j, i ≤ j → p j = true → p i = true

variable {p}

theorem inv_mid_of_true {top lo hi : Nat} (inv : Inv p top lo hi)
    (h : p ((lo + hi) / 2) = true) : Inv p top ((lo + hi) / 2) hi := by
  obtain ⟨_, le, _, upper⟩ := inv
  exact ⟨by omega, le, h, upper⟩

theorem inv_mid_of_false {top lo hi : Nat} (inv : Inv p top lo hi) (wide : 1 < hi - lo)
    (h : p ((lo + hi) / 2) = false) : Inv p top lo ((lo + hi) / 2) := by
  obtain ⟨_, le, plo, _⟩ := inv
  exact ⟨by omega, by omega, plo, fun _ => h⟩

/-- The run lemma: from the invariant, with enough fuel, the loop stops at an
index where `p` holds and the next index is the end or fails `p`. -/
theorem loop_spec {top : Nat} :
    ∀ (fuel lo hi : Nat), Inv p top lo hi → hi - lo ≤ fuel + 1 →
      p (loop p fuel lo hi) = true ∧ loop p fuel lo hi < top ∧
        (loop p fuel lo hi + 1 < top → p (loop p fuel lo hi + 1) = false)
  | 0, lo, hi, inv, gap => by
    obtain ⟨lt, le, plo, upper⟩ := inv
    have next : hi = lo + 1 := by omega
    subst next
    simp only [loop]
    exact ⟨plo, by omega, upper⟩
  | fuel + 1, lo, hi, inv, gap => by
    by_cases wide : 1 < hi - lo
    · -- the midpoint lies strictly inside, so either half is narrower
      by_cases h : p ((lo + hi) / 2) = true
      · simp only [loop, wide, ↓reduceIte, h]
        exact loop_spec fuel _ hi (inv_mid_of_true inv h) (by omega)
      · have h : p ((lo + hi) / 2) = false := by simpa using h
        simp only [loop, wide, ↓reduceIte, h]
        exact loop_spec fuel lo _ (inv_mid_of_false inv wide h) (by omega)
    · obtain ⟨lt, le, plo, upper⟩ := inv
      have next : hi = lo + 1 := by omega
      subst next
      simp only [loop, wide, ↓reduceIte]
      exact ⟨plo, by omega, upper⟩

end Bisect
