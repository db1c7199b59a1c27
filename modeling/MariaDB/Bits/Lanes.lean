import Mathlib.Data.Nat.Digits.Defs

set_option autoImplicit false

/- A number as a row of `w`-bit lanes, the lowest first: `Nat.ofDigits (2 ^ w) ds`.
Adding a constant to every lane, masking every lane with a constant and
multiplying by a constant act on each lane alone ("SIMD within a register"),
as long as no lane overflows; the bits of a lane are then bits of the number,
and its value is a quotient and remainder of the number. -/
namespace Lanes

variable {w : Nat}

/-- The `n` lowest `w`-bit lanes of `x`, the lowest first. -/
def lanes (w : Nat) : Nat → Nat → List Nat
  | 0, _ => []
  | n + 1, x => x % 2 ^ w :: lanes w n (x / 2 ^ w)

@[simp] theorem lanes_zero (x : Nat) : lanes w 0 x = [] := rfl

theorem lanes_succ (n x : Nat) : lanes w (n + 1) x = x % 2 ^ w :: lanes w n (x / 2 ^ w) := rfl

@[simp] theorem length_lanes (n x : Nat) : (lanes w n x).length = n := by
  induction n generalizing x with
  | zero => rfl
  | succ n ih => rw [lanes_succ, List.length_cons, ih]

/-- Lane `k` of `x` is a quotient and remainder of `x`. -/
theorem getD_lanes {n x k : Nat} (hk : k < n) : (lanes w n x).getD k 0 = x / 2 ^ (w * k) % 2 ^ w := by
  induction n generalizing x k with
  | zero => omega
  | succ n ih =>
    rw [lanes_succ]
    cases k with
    | zero => simp
    | succ k =>
      rw [List.getD_cons_succ, ih (by omega), Nat.div_div_eq_div_mul, ← Nat.pow_add, Nat.mul_succ,
        Nat.add_comm w]

/-- The lanes of `x` denote `x` modulo the width of the row. -/
theorem ofDigits_lanes (n x : Nat) : Nat.ofDigits (2 ^ w) (lanes w n x) = x % 2 ^ (w * n) := by
  induction n generalizing x with
  | zero => simp [Nat.mod_one]
  | succ n ih =>
    rw [lanes_succ, Nat.ofDigits_cons, ih, Nat.mul_succ, Nat.add_comm (w * n), Nat.pow_add, Nat.mod_mul]

/-- The lanes of a row of lanes are that row. -/
theorem lanes_ofDigits {ds : List Nat} (small : ∀ d ∈ ds, d < 2 ^ w) :
    lanes w ds.length (Nat.ofDigits (2 ^ w) ds) = ds := by
  induction ds with
  | nil => rfl
  | cons d ds ih =>
    have hd := small d List.mem_cons_self
    have rest := ih fun e he => small e (List.mem_cons_of_mem d he)
    rw [List.length_cons, lanes_succ, Nat.ofDigits_cons, Nat.add_mul_mod_self_left,
      Nat.mod_eq_of_lt hd, Nat.add_mul_div_left _ _ (Nat.two_pow_pos w), Nat.div_eq_of_lt hd,
      Nat.zero_add, rest]

/-- A row of lanes fits in `w` bits a lane. -/
theorem ofDigits_lt {ds : List Nat} (small : ∀ d ∈ ds, d < 2 ^ w) (pos : 0 < w) :
    Nat.ofDigits (2 ^ w) ds < 2 ^ (w * ds.length) := by
  rw [Nat.pow_mul]
  exact Nat.ofDigits_lt_base_pow_length (Nat.one_lt_two_pow (by omega)) small

/-! ## Lane-wise operations -/

theorem zipWith_replicate_right {α β γ : Type} (f : α → β → γ) (l : List α) (c : β) :
    List.zipWith f l (List.replicate l.length c) = l.map (f · c) := by
  induction l with
  | nil => rfl
  | cons a l ih => rw [List.length_cons, List.replicate_succ, List.zipWith_cons_cons, ih, List.map_cons]

/-- Adding `c` to every lane; the sum of each lane may exceed the lane. -/
theorem ofDigits_add_replicate (b : Nat) (ds : List Nat) (c : Nat) :
    Nat.ofDigits b ds + Nat.ofDigits b (List.replicate ds.length c) = Nat.ofDigits b (ds.map (· + c)) := by
  rw [Nat.ofDigits_add_ofDigits_eq_ofDigits_zipWith_of_length_eq (List.length_replicate).symm,
    zipWith_replicate_right]

/-- Multiplying by `c` multiplies every lane. -/
theorem ofDigits_mul_right (b : Nat) (ds : List Nat) (c : Nat) :
    Nat.ofDigits b ds * c = Nat.ofDigits b (ds.map (· * c)) := by
  rw [Nat.mul_comm, Nat.mul_ofDigits]
  congr 1
  exact List.map_congr_left fun d _ => Nat.mul_comm c d

/-- The lowest lane and the rest of a row are masked apart. -/
theorem two_pow_mul_add_and {a c : Nat} (x y : Nat) (ha : a < 2 ^ w) (hc : c < 2 ^ w) :
    (2 ^ w * x + a) &&& (2 ^ w * y + c) = 2 ^ w * (x &&& y) + (a &&& c) := by
  apply Nat.eq_of_testBit_eq
  intro j
  rw [Nat.testBit_and, Nat.testBit_two_pow_mul_add _ ha, Nat.testBit_two_pow_mul_add _ hc,
    Nat.testBit_two_pow_mul_add _ (Nat.and_lt_two_pow _ hc), Nat.testBit_and, Nat.testBit_and]
  split <;> rfl

/-- Masking every lane with `c`. -/
theorem ofDigits_and_replicate {ds : List Nat} (small : ∀ d ∈ ds, d < 2 ^ w) {c : Nat} (hc : c < 2 ^ w) :
    Nat.ofDigits (2 ^ w) ds &&& Nat.ofDigits (2 ^ w) (List.replicate ds.length c) =
      Nat.ofDigits (2 ^ w) (ds.map (· &&& c)) := by
  induction ds with
  | nil => simp
  | cons d ds ih =>
    have hd := small d List.mem_cons_self
    rw [List.length_cons, List.replicate_succ, Nat.ofDigits_cons, Nat.ofDigits_cons, Nat.add_comm d,
      Nat.add_comm c, two_pow_mul_add_and _ _ hd hc, ih fun e he => small e (List.mem_cons_of_mem d he),
      List.map_cons, Nat.ofDigits_cons, Nat.add_comm]

/-! ## Bits of a lane -/

/-- Bit `t` of lane `k` is bit `w * k + t` of the row. -/
theorem testBit_ofDigits {ds : List Nat} (small : ∀ d ∈ ds, d < 2 ^ w) (k : Nat) {t : Nat} (ht : t < w) :
    (Nat.ofDigits (2 ^ w) ds).testBit (w * k + t) = (ds.getD k 0).testBit t := by
  induction ds generalizing k with
  | nil => simp
  | cons d ds ih =>
    have hd := small d List.mem_cons_self
    rw [Nat.ofDigits_cons, Nat.add_comm, Nat.testBit_two_pow_mul_add _ hd]
    cases k with
    | zero => simp [ht]
    | succ k =>
      rw [if_neg (by rw [Nat.mul_succ]; omega), show w * (k + 1) + t - w = w * k + t by rw [Nat.mul_succ]; omega,
        ih (fun e he => small e (List.mem_cons_of_mem d he)) k, List.getD_cons_succ]

end Lanes
