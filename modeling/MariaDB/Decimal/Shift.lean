import MariaDB.Decimal.Round

set_option autoImplicit false

/- `decimal_shift` of strings/decimal.c: multiplying a decimal by `10^shift`
in its own buffer. Digit positions count from the first digit of the buffer;
`digits_bounds` finds the first and past the last digit that is not zero. A
shift that is not a whole number of words is done first inside the words by
`do_mini_left_shift` or `do_mini_right_shift`, whichever has room; whole words
are then moved, and the words between the digits and the new point are
cleared. A result too long for the buffer is first rounded to fit. -/
namespace MariaDB.Decimal

/-! ## `digits_bounds` -/

/-- The loop `for (; *buf_beg < powers10[i--]; start++)` over the first word
that is not zero: the leading zero digits of `w` below `10^i`. -/
def skipLeadDigits (w : Nat) : Nat → Nat → Nat
  | 0, start => if w < 1 then start + 1 else start
  | i + 1, start => if w < 10 ^ (i + 1) then skipLeadDigits w i (start + 1) else start

/-- The loop `for (; *buf_end % powers10[i++] == 0; stop--)` over the last
word that is not zero, which ends within its nine digits. -/
def skipTrailDigits (w : Nat) : Nat → Nat → Nat → Nat
  | 0, _, stop => stop
  | fuel + 1, i, stop => if w % 10 ^ i = 0 then skipTrailDigits w fuel (i + 1) (stop - 1) else stop

/-- `digits_bounds(from, &start, &end)`: the position of the first digit that
is not zero and the position past the last one; `(0, 0)` for a zero. -/
def digitsBounds (d : DecimalT) : Nat × Nat :=
  let words := d.buf.take (roundUp d.intg + roundUp d.frac)
  let bufEnd := roundUp d.intg + roundUp d.frac
  let bufBeg := (words.takeWhile (· = 0)).length
  if bufEnd ≤ bufBeg then (0, 0)
  else
    let start :=
      if bufBeg = 0 ∧ d.intg ≠ 0 then
        let i := (d.intg - 1) % 9 + 1
        skipLeadDigits (getWord d.buf 0) (i - 1) (9 - i)
      else skipLeadDigits (getWord d.buf bufBeg) 8 (bufBeg * 9)
    -- the last word that is not zero, at or after `buf_beg`
    let last := bufEnd - 1 - ((words.reverse.takeWhile (· = 0)).length)
    let stop :=
      if last = bufEnd - 1 ∧ d.frac ≠ 0 then
        let i := (d.frac - 1) % 9 + 1
        skipTrailDigits (getWord d.buf last) 9 (9 - i + 1) (last * 9 + i)
      else skipTrailDigits (getWord d.buf last) 9 1 ((last + 1) * 9)
    (start, stop)

/-! ## The mini shifts -/

/-- The loop of `do_mini_left_shift` from the word `from` to `end`: each word
takes its low digits up by `shift` and the top digits of the next word. -/
def miniLeftWords (shift : Nat) (buf : List Nat) (from' : Nat) : Nat → List Nat
  | 0 => setWord buf from' (getWord buf from' % 10 ^ (9 - shift) * 10 ^ shift)
  | n + 1 =>
    let w := getWord buf from' % 10 ^ (9 - shift) * 10 ^ shift +
      getWord buf (from' + 1) / 10 ^ (9 - shift)
    miniLeftWords shift (setWord buf from' w) (from' + 1) n

/-- `do_mini_left_shift(dec, shift, beg, last)`. -/
def doMiniLeftShift (buf : List Nat) (shift beg last : Nat) : List Nat :=
  let from' := roundUp (beg + 1) - 1
  let endDigit := roundUp last - 1
  let buf := if beg % 9 < shift then
      setWord buf (from' - 1) (getWord buf from' / 10 ^ (9 - shift))
    else buf
  miniLeftWords shift buf from' (endDigit - from')

/-- The loop of `do_mini_right_shift` from the word `from` down to `end`: each
word takes its high digits down by `shift` and the low digits of the word
before. -/
def miniRightWords (shift : Nat) (buf : List Nat) (from' : Nat) : Nat → List Nat
  | 0 => setWord buf from' (getWord buf from' / 10 ^ shift)
  | n + 1 =>
    let w := getWord buf from' / 10 ^ shift +
      getWord buf (from' - 1) % 10 ^ shift * 10 ^ (9 - shift)
    miniRightWords shift (setWord buf from' w) (from' - 1) n

/-- `do_mini_right_shift(dec, shift, beg, last)`. -/
def doMiniRightShift (buf : List Nat) (shift beg last : Nat) : List Nat :=
  let from' := roundUp last - 1
  let endDigit := roundUp (beg + 1) - 1
  let buf := if 9 - ((last - 1) % 9 + 1) < shift then
      setWord buf (from' + 1) (getWord buf from' % 10 ^ shift * 10 ^ (9 - shift))
    else buf
  miniRightWords shift buf from' (from' - endDigit)

/-! ## The word moves -/

/-- `for(; to <= barier; to++) *to= *(to + d_shift)`, `n` words from `to` on. -/
def moveWordsDown (buf : List Nat) (dShift : Nat) (toWord : Nat) : Nat → List Nat
  | 0 => buf
  | n + 1 =>
    moveWordsDown (setWord buf toWord (getWord buf (toWord + dShift))) dShift (toWord + 1) n

/-- `for(; to >= barier; to--) *to= *(to - d_shift)`, `n` words from `to` down. -/
def moveWordsUp (buf : List Nat) (dShift : Nat) (toWord : Nat) : Nat → List Nat
  | 0 => buf
  | n + 1 =>
    moveWordsUp (setWord buf toWord (getWord buf (toWord - dShift))) dShift (toWord - 1) n

/-! ## `decimal_shift` -/

/-- The end of `decimal_shift` once the digits are aligned in their words: the
words between the digits and the new point cleared, and the new `intg` and
`frac`. `beg`, `end` and `newPoint` are digit positions. -/
def shiftFinish (d : DecimalT) (buf : List Nat) (beg endDigit newPoint : Int)
    (digitsInt digitsFrac : Nat) (err : DecError) : DecimalT × DecError :=
  let beg := (beg + 1 + 8) / 9 - 1
  let endDigit := (endDigit + 8) / 9 - 1
  let newPoint := if newPoint ≠ 0 then (newPoint + 8) / 9 - 1 else newPoint
  let buf :=
    if endDigit < newPoint then zeroWords buf (endDigit + 1).toNat (newPoint - endDigit).toNat
    else zeroWords buf newPoint.toNat (beg - newPoint).toNat
  ({ d with
      buf := buf.take (roundUp digitsInt + roundUp digitsFrac)
      intg := digitsInt
      frac := digitsFrac }, err)

/-- `decimal_shift` past the fitting: the shift inside the words, left or right
as there is room, then the move of whole words. -/
def shiftDigits (d : DecimalT) (shift : Int) (beg endDigit newPoint : Int) (digitsInt digitsFrac : Nat)
    (err : DecError) : DecimalT × DecError :=
  let len : Int := d.len
  let (buf, beg, endDigit, newPoint, shift') : List Nat × Int × Int × Int × Int :=
    if shift % 9 ≠ 0 then
      let (lMiniShift, rMiniShift, doLeft) :=
        if 0 < shift then
          let l := shift % 9
          (l, 9 - l, decide (l ≤ beg))
        else
          let r := (-shift) % 9
          (9 - r, r, !decide (r ≤ len * 9 - endDigit))
      if doLeft then
        (doMiniLeftShift d.buf lMiniShift.toNat beg.toNat endDigit.toNat, beg - lMiniShift,
          endDigit - lMiniShift, newPoint - lMiniShift, shift - lMiniShift)
      else
        (doMiniRightShift d.buf rMiniShift.toNat beg.toNat endDigit.toNat, beg + rMiniShift,
          endDigit + rMiniShift, newPoint + rMiniShift, shift + rMiniShift)
    else (d.buf, beg, endDigit, newPoint, shift)
  if shift % 9 ≠ 0 ∧ shift' = 0 ∧ newPoint - digitsInt < 9 then
    -- already shifted as it should be
    ({ d with
        buf := buf.take (roundUp digitsInt + roundUp digitsFrac)
        intg := digitsInt
        frac := digitsFrac }, err)
  else
    let newFront := newPoint - digitsInt
    if 9 ≤ newFront ∨ newFront < 0 then
      if 0 < newFront then
        -- move left
        let dShift := newFront / 9
        let toWord := (beg + 1 + 8) / 9 - 1 - dShift
        let barier := (endDigit + 8) / 9 - 1 - dShift
        let buf := moveWordsDown buf dShift.toNat toWord.toNat (barier - toWord + 1).toNat
        let buf := zeroWords buf (barier + 1).toNat dShift.toNat
        shiftFinish d buf (beg - dShift * 9) (endDigit - dShift * 9) (newPoint - dShift * 9)
          digitsInt digitsFrac err
      else
        -- move right
        let dShift := (1 - newFront) / 9
        let toWord := (endDigit + 8) / 9 - 1 + dShift
        let barier := (beg + 1 + 8) / 9 - 1 + dShift
        let buf := moveWordsUp buf dShift.toNat toWord.toNat (toWord - barier + 1).toNat
        let buf := zeroWords buf (barier - dShift).toNat dShift.toNat
        shiftFinish d buf (beg + dShift * 9) (endDigit + dShift * 9) (newPoint + dShift * 9)
          digitsInt digitsFrac err
    else shiftFinish d buf beg endDigit newPoint digitsInt digitsFrac err

/-- `decimal_shift(dec, shift)`. -/
def decimalShift (d : DecimalT) (shift : Int) : DecimalT × DecError :=
  if shift = 0 then (d, .ok)
  else
    let (beg, endDigit) := digitsBounds d
    if beg = endDigit then (d.makeZero, .ok)
    else
      let point : Int := roundUp d.intg * 9
      let newPoint := point + shift
      let digitsInt := (newPoint - beg).toNat
      let digitsFrac := (endDigit - newPoint).toNat
      let newFracLen := roundUp digitsFrac
      let newLen := roundUp digitsInt + newFracLen
      if d.len < newLen then
        let lack := newLen - d.len
        -- lack more then we have in fraction
        if newFracLen < lack then (d, .overflow)
        else
          -- cut off fraction part to allow new number to fit in our buffer
          let newFracLen := newFracLen - lack
          let diff : Int := digitsFrac - newFracLen * 9
          let d := (decimalRound d d true (endDigit - point - diff) .halfUp).1
          let endDigit := endDigit - diff
          if endDigit ≤ beg then (d.makeZero, .truncated)
          else shiftDigits d shift beg endDigit newPoint digitsInt (newFracLen * 9) .truncated
      else shiftDigits d shift beg endDigit newPoint digitsInt digitsFrac .ok

end MariaDB.Decimal
