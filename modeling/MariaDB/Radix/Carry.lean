import Mathlib.Data.List.Basic

set_option autoImplicit false

/- Schoolbook addition and subtraction of numerals in a base `b`, digits most
significant first. The loops run from the last digit back and pass a carry or a
borrow of one from each digit to the one before it. -/
namespace Radix

variable (b : Nat)

/-- One digit of `x + y + carry` and the carry out. -/
def addDigit (x y carry : Nat) : Nat × Nat :=
  if b ≤ x + y + carry then (x + y + carry - b, 1) else (x + y + carry, 0)

/-- One digit of `x - y - borrow` and the borrow out. -/
def subDigit (x y borrow : Nat) : Nat × Nat :=
  if x < y + borrow then (x + b - y - borrow, 1) else (x - y - borrow, 0)

/-- Two digit strings of one length added from the last digit back: the digits
and the carry out of the first. -/
def addDigits : List Nat → List Nat → Nat → List Nat × Nat
  | x :: xs, y :: ys, carry =>
    let (out, carry) := addDigits xs ys carry
    let (d, carry) := addDigit b x y carry
    (d :: out, carry)
  | _, _, carry => ([], carry)

/-- Two digit strings of one length subtracted from the last digit back: the
digits and the borrow out of the first. -/
def subDigits : List Nat → List Nat → Nat → List Nat × Nat
  | x :: xs, y :: ys, borrow =>
    let (out, borrow) := subDigits xs ys borrow
    let (d, borrow) := subDigit b x y borrow
    (d :: out, borrow)
  | _, _, borrow => ([], borrow)

variable {b}

@[simp] theorem addDigits_nil (ys : List Nat) (carry : Nat) : addDigits b [] ys carry = ([], carry) :=
  rfl

@[simp] theorem addDigits_cons_nil (x : Nat) (xs : List Nat) (carry : Nat) :
    addDigits b (x :: xs) [] carry = ([], carry) := rfl

@[simp] theorem subDigits_nil (ys : List Nat) (borrow : Nat) : subDigits b [] ys borrow = ([], borrow) :=
  rfl

@[simp] theorem subDigits_cons_nil (x : Nat) (xs : List Nat) (borrow : Nat) :
    subDigits b (x :: xs) [] borrow = ([], borrow) := rfl

end Radix
