import Mathlib.Algebra.Group.Int.Defs
import Mathlib.Algebra.Group.Nat.Defs

set_option autoImplicit false

/- The `int` of C on the targets the code is built for: 32 bits, two's
complement. A cast of a wider exact value to `int` keeps its residue modulo
`2^32`, read in `[-2^31, 2^31)`; a value already in that range is unchanged. -/
namespace TwosComplement

/-- `(int) x` of an exact value `x`. -/
def cInt (x : Int) : Int := x.bmod (2 ^ 32)

theorem cInt_of_lt {x : Int} (h0 : -2 ^ 31 ≤ x) (h1 : x < 2 ^ 31) : cInt x = x :=
  Int.bmod_eq_of_le (by omega) (by omega)

end TwosComplement
