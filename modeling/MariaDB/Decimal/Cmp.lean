import MariaDB.Decimal.Basic

set_option autoImplicit false

/- `decimal_cmp` of strings/decimal.c. Two decimals of one sign are compared by
the first part of `do_sub`, which decides whether `from2` is the larger in
magnitude (`carry`) and returns early in comparison mode (`to == 0`). -/
namespace MariaDB.Decimal

/-- `while (buf1 <= end1 && buf2 <= end2 && *buf1 == *buf2)` and the tests after
it: `some carry` at the first difference or when one side runs out, `none` when
both run out together. -/
def wordsCarry : List Nat → List Nat → Option Bool
  | a :: as, b :: bs => if a = b then wordsCarry as bs else some (a < b)
  | _ :: _, [] => some false
  | [], _ :: _ => some true
  | [], [] => none

/-- The words of `do_sub` from the first nonzero integer word to the last nonzero
word: the leading zero words are skipped, then the trailing zero words trimmed. -/
def significantWords (d : DecimalT) : List Nat :=
  let int := (d.buf.take (roundUp d.intg)).dropWhile (· = 0)
  let fracWords := (d.buf.drop (roundUp d.intg)).take (roundUp d.frac)
  ((int ++ fracWords).reverse.dropWhile (· = 0)).reverse

/-- `let carry:=1 if from2 > from1` in `do_sub`: `some carry`, or `none` for
equal magnitudes. -/
def subCarry (d1 d2 : DecimalT) : Option Bool :=
  let int1 := ((d1.buf.take (roundUp d1.intg)).dropWhile (· = 0)).length
  let int2 := ((d2.buf.take (roundUp d2.intg)).dropWhile (· = 0)).length
  if int1 < int2 then some true
  else if int1 = int2 then wordsCarry (significantWords d1) (significantWords d2)
  else some false

/-- `decimal_cmp`: `do_sub(from1, from2, 0)` for equal signs. -/
def decimalCmp (d1 d2 : DecimalT) : Int :=
  if d1.sign = d2.sign then
    match subCarry d1 d2 with
    | none => 0
    | some carry => if carry = d1.sign then 1 else -1
  else if d1.sign then -1 else 1

end MariaDB.Decimal
