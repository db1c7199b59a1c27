import MariaDB.Decimal.CmpOrder
import MariaDB.Decimal.Bin
import MariaDB.Radix.Carry

set_option autoImplicit false

/- `decimal_add` and `decimal_sub` of strings/decimal.c. Operands of one sign
are added by `do_add`, of different signs subtracted by `do_sub` (and the other
way round for `decimal_sub`). Both align the word strings at the point and
write the result from its last word back: the fraction words only one operand
has, then the words both have with a carry or a borrow, then the integer words
only the larger has. `do_add` makes room for a carry out of the top word
beforehand; `do_sub` first finds the operand of the larger magnitude with the
comparison of `decimal_cmp` and swaps the operands to subtract the smaller. -/
namespace MariaDB.Decimal

/-- `decimal_result_size(from1, from2, op, param)`. -/
def decimalResultSize (from1 from2 : DecimalT) (op : Char) (param : Nat) : Nat :=
  match op with
  | '-' => roundUp (max from1.intg from2.intg) + roundUp (max from1.frac from2.frac)
  | '+' => roundUp (max from1.intg from2.intg + 1) + roundUp (max from1.frac from2.frac)
  | '*' => roundUp (from1.intg + from2.intg) + roundUp from1.frac + roundUp from2.frac
  | '/' => roundUp (from1.intg + from2.intg + 1 + from1.frac + from2.frac + param)
  | _ => 0

/-- `frac_max[]`: the largest words of one to eight fraction digits. -/
def fracMax : List Nat :=
  [900000000, 990000000, 999000000, 999900000, 999990000, 999999000, 999999900, 999999990]

/-- `max_decimal(precision, frac, to)`: the largest number of `precision`
digits, `frac` of them after the point. -/
def maxDecimal (precision frac : Nat) (toDec : DecimalT) : DecimalT :=
  let intpart := precision - frac
  let intBuf := (if intpart % 9 ≠ 0 then [10 ^ (intpart % 9) - 1] else []) ++
    List.replicate (intpart / 9) digMax
  let fracBuf := List.replicate (frac / 9) digMax ++
    (if frac % 9 ≠ 0 then [fracMax.getD (frac % 9 - 1) 0] else [])
  { toDec with
    sign := false
    intg := intpart
    frac := frac
    buf := intBuf ++ fracBuf }

/-- The `n` words of a buffer from the word `i` on, which the pointer loops walk
from the last one back. -/
def slice (buf : List Nat) (i n : Nat) : List Nat := (buf.drop i).take n

/-! ## `do_add` -/

/-- `do_add(from1, from2, to)`. The words written from `to->buf+intg0+frac0`
down are listed most significant first; the word `to->buf[0]` is cleared when
an extra word is taken for the carry. -/
def doAdd (from1 from2 toDec : DecimalT) : DecimalT × DecError :=
  let intg1 := roundUp from1.intg
  let intg2 := roundUp from2.intg
  let frac1 := roundUp from1.frac
  let frac2 := roundUp from2.frac
  -- is there a need for extra word because of carry ?
  let x := if intg2 < intg1 then getWord from1.buf 0
    else if intg1 < intg2 then getWord from2.buf 0
    else getWord from1.buf 0 + getWord from2.buf 0
  let extra := decide (digMax - 1 < x)
  let (intg0, frac0, error) :=
    fixIntgFracError toDec.len (max intg1 intg2 + if extra then 1 else 0) (max frac1 frac2)
  if error = .overflow then (maxDecimal (toDec.len * 9) 0 toDec, error)
  else
    let (toFrac, frac1, frac2, intg1, intg2) :=
      if error ≠ .ok then
        (min (max from1.frac from2.frac) (frac0 * 9), min frac1 frac0, min frac2 frac0,
          min intg1 intg0, min intg2 intg0)
      else (max from1.frac from2.frac, frac1, frac2, intg1, intg2)
    -- `buf1` walks the operand with the longer fraction, `buf2` the other
    let (big, bigIntg, bigFrac, small, smallIntg, smallFrac) :=
      if frac2 < frac1 then (from1.buf, intg1, frac1, from2.buf, intg2, frac2)
      else (from2.buf, intg2, frac2, from1.buf, intg1, frac1)
    -- part 1 - MY_MAX(frac) ... min (frac)
    let part1 := slice big (bigIntg + smallFrac) (bigFrac - smallFrac)
    -- part 2 - MY_MIN(frac) ... MY_MIN(intg)
    let (part2, carry) := Radix.addDigits digBase
      (slice big (bigIntg - smallIntg) (min bigIntg smallIntg + smallFrac))
      (slice small (smallIntg - bigIntg) (min bigIntg smallIntg + smallFrac)) 0
    -- part 3 - MY_MIN(intg) ... MY_MAX(intg)
    let top := if intg2 < intg1 then slice from1.buf 0 (intg1 - intg2)
      else slice from2.buf 0 (intg2 - intg1)
    let (part3, carry) := Radix.addDigits digBase top (List.replicate top.length 0) carry
    let written := (if carry ≠ 0 then [1] else []) ++ part3 ++ part2 ++ part1
    let front := if extra then setWord toDec.buf 0 0 else toDec.buf
    ({ toDec with
        sign := from1.sign
        intg := intg0 * 9
        frac := toFrac
        buf := front.take (intg0 + frac0 - written.length) ++ written }, error)

/-! ## `do_sub` -/

/-- `end1` of `do_sub` once the trailing zero words are passed, as a count of
fraction words: it is negative where zero integer words are passed too. -/
def trimmedFrac (d : DecimalT) : Int :=
  (roundUp d.frac : Int) - ((intWords d ++ fracWords d).reverse.takeWhile (· = 0)).length

/-- `while (carry && buf1 > start1) SUB(*--buf0, *--buf1, 0, carry)` and the copy
`while (buf1 > start1) *--buf0=*--buf1` after it: the borrow taken up the words
of the minuend above the subtrahend. -/
def borrowWords : List Nat → Nat → List Nat × Nat
  | w :: ws, borrow =>
    let (out, borrow) := borrowWords ws borrow
    if borrow ≠ 0 then
      let (d, borrow) := Radix.subDigit digBase w 0 borrow
      (d :: out, borrow)
    else (w :: out, 0)
  | [], borrow => ([], borrow)

/-- Parts 1 to 3 of `do_sub`: the words written from `to->buf+intg1+frac0`
down, most significant first, for the minuend `buf1` and the subtrahend `buf2`
whose significant words start at `start1` and `start2`. -/
def subWritten (buf1 buf2 : List Nat) (start1 start2 intg1 intg2 : Nat) (frac1 frac2 : Int)
    (frac0 : Nat) : List Nat :=
  let stop1 : Int := start1 + intg1
  let stop2 : Int := start2 + intg2
  -- part 1 - MY_MAX(frac) ... min (frac); `end1`, `end2` are where it stops
  let (part1, borrow, end1, end2) : List Nat × Nat × Int × Int :=
    if frac2 < frac1 then
      (slice buf1 (stop1 + frac2).toNat (frac1 - frac2).toNat ++
          List.replicate (frac0 - frac1).toNat 0, 0, stop1 + frac2, stop2 + frac2)
    else
      let (ws, borrow) := Radix.subDigits digBase (List.replicate (frac2 - frac1).toNat 0)
        (slice buf2 (stop2 + frac1).toNat (frac2 - frac1).toNat) 0
      (ws ++ List.replicate (frac0 - frac2).toNat 0, borrow, stop1 + frac1, stop2 + frac1)
  -- part 2 - MY_MIN(frac) ... intg2
  let n := end2 - start2
  let (part2, borrow) := Radix.subDigits digBase (slice buf1 (end1 - n).toNat n.toNat)
    (slice buf2 start2 n.toNat) borrow
  -- part 3 - intg2 ... intg1
  let part3 := (borrowWords (slice buf1 start1 (end1 - n - start1).toNat) borrow).1
  part3 ++ part2 ++ part1

/-- `do_sub(from1, from2, to)` with a destination. The last loop clears the
words of `to` above those written. -/
def doSub (from1 from2 toDec : DecimalT) : DecimalT × DecError :=
  match subCarry from1 from2 with
  | none => (toDec.makeZero, .ok)
  | some carry =>
    let frac0 := max (roundUp from1.frac) (roundUp from2.frac)
    -- the leading zero words are skipped
    let start1 := ((from1.buf.take (roundUp from1.intg)).takeWhile (· = 0)).length
    let start2 := ((from2.buf.take (roundUp from2.intg)).takeWhile (· = 0)).length
    let intg1 := roundUp from1.intg - start1
    let intg2 := roundUp from2.intg - start2
    let (frac1, frac2) : Int × Int :=
      if intg1 = intg2 then (trimmedFrac from1, trimmedFrac from2)
      else (roundUp from1.frac, roundUp from2.frac)
    -- ensure that always from1 > from2 (and intg1 >= intg2)
    let (from1, from2, start1, start2, intg1, intg2, frac1, frac2, sign) :=
      if carry then (from2, from1, start2, start1, intg2, intg1, frac2, frac1, !from1.sign)
      else (from1, from2, start1, start2, intg1, intg2, frac1, frac2, from1.sign)
    let (intg1, frac0, error) := fixIntgFracError toDec.len intg1 frac0
    let (toFrac, frac1, frac2, intg2) :=
      if error ≠ .ok then
        (min (max from1.frac from2.frac) (frac0 * 9), min frac1 frac0, min frac2 frac0,
          min intg2 intg1)
      else (max from1.frac from2.frac, frac1, frac2, intg2)
    let written := subWritten from1.buf from2.buf start1 start2 intg1 intg2 frac1 frac2 frac0
    ({ toDec with
        sign := sign
        intg := intg1 * 9
        frac := toFrac
        buf := (List.replicate (intg1 + frac0 - written.length) 0 ++ written).drop
          (written.length - (intg1 + frac0)) }, error)

/-! ## `decimal_add` and `decimal_sub` -/

/-- `decimal_add(from1, from2, to)`. -/
def decimalAdd (from1 from2 toDec : DecimalT) : DecimalT × DecError :=
  if from1.sign = from2.sign then doAdd from1 from2 toDec else doSub from1 from2 toDec

/-- `decimal_sub(from1, from2, to)`. -/
def decimalSub (from1 from2 toDec : DecimalT) : DecimalT × DecError :=
  if from1.sign = from2.sign then doSub from1 from2 toDec else doAdd from1 from2 toDec

/-- `999999999 - (-1)` into a buffer of `decimal_result_size(a, b, '-')` words:
the signs differ, so `decimal_sub` adds the magnitudes in `do_add`, whose carry
needs a second word, and the result is `max_decimal` with `E_DEC_OVERFLOW`
although the size function promised room. A difference that is zero, as in
`1.5 + (-1.5)`, is `decimal_make_zero`'s zero, with no fraction digits. -/
theorem decimalSub_resultSize_overflow :
    (⟨9, 0, 1, false, [999999999]⟩ : DecimalT).WellFormed ∧
      (⟨1, 0, 1, true, [1]⟩ : DecimalT).WellFormed ∧
      decimalResultSize ⟨9, 0, 1, false, [999999999]⟩ ⟨1, 0, 1, true, [1]⟩ '-' 0 = 1 ∧
      decimalSub ⟨9, 0, 1, false, [999999999]⟩ ⟨1, 0, 1, true, [1]⟩ ⟨0, 0, 1, false, []⟩ =
        (⟨9, 0, 1, false, [999999999]⟩, .overflow) ∧
      (⟨9, 0, 1, false, [999999999]⟩ : DecimalT).value -
          (⟨1, 0, 1, true, [1]⟩ : DecimalT).value = 1000000000 ∧
      decimalAdd ⟨1, 1, 2, false, [1, 500000000]⟩ ⟨1, 1, 2, true, [1, 500000000]⟩
          ⟨0, 0, 2, false, []⟩ = (⟨1, 0, 2, false, [0]⟩, .ok) := by
  refine ⟨⟨by decide, by decide, by decide, by decide, by decide⟩,
    ⟨by decide, by decide, by decide, by decide, by decide⟩, by decide, by decide, ?_, by decide⟩
  simp [DecimalT.value, DecimalT.words, wordsValue_def, roundUp_def, digBase_def]
  norm_num

end MariaDB.Decimal
