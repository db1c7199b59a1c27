set_option autoImplicit false

/- Sign-magnitude integer arithmetic. An integer is a magnitude with a sign;
its product, truncated quotient and truncated remainder are those of the
magnitudes, given the sign of the product, of the quotient and of the
dividend. Code that multiplies or divides signed integers through their
unsigned absolute values rests on these three facts. -/
namespace SignMagnitude

/-- The integer with magnitude `m`, negative when `neg` holds. -/
def signed (neg : Bool) (m : Nat) : Int := if neg then -(m : Int) else m

@[simp] theorem signed_false (m : Nat) : signed false m = m := rfl

@[simp] theorem signed_true (m : Nat) : signed true m = -(m : Int) := rfl

theorem eq_signed (z : Int) : z = signed (decide (z < 0)) z.natAbs := by
  by_cases neg : z < 0
  · simp only [neg, decide_true, signed_true]
    omega
  · simp only [neg, decide_false, signed_false]
    omega

theorem mul_eq_signed (x y : Int) :
    x * y = signed (decide (x < 0) != decide (y < 0)) (x.natAbs * y.natAbs) := by
  conv =>
    lhs
    rw [eq_signed x, eq_signed y]
  cases decide (x < 0) <;> cases decide (y < 0) <;>
    simp only [signed_false, signed_true, Bool.false_bne, Bool.true_bne, Bool.not_false, Bool.not_true, Int.neg_mul,
      Int.mul_neg, Int.neg_neg, Int.natCast_mul]

theorem tdiv_eq_signed (x y : Int) :
    x.tdiv y = signed (decide (x < 0) != decide (y < 0)) (x.natAbs / y.natAbs) := by
  conv =>
    lhs
    rw [eq_signed x, eq_signed y]
  cases decide (x < 0) <;> cases decide (y < 0) <;>
    simp only [signed_false, signed_true, Bool.false_bne, Bool.true_bne, Bool.not_false, Bool.not_true, Int.neg_tdiv,
      Int.tdiv_neg, Int.neg_neg, Int.ofNat_tdiv]

theorem tmod_eq_signed (x y : Int) : x.tmod y = signed (decide (x < 0)) (x.natAbs % y.natAbs) := by
  conv =>
    lhs
    rw [eq_signed x, eq_signed y]
  cases decide (x < 0) <;> cases decide (y < 0) <;>
    simp only [signed_false, signed_true, Int.neg_tmod, Int.tmod_neg, Int.ofNat_tmod]

end SignMagnitude
