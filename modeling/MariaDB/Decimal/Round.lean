import MariaDB.Decimal.Integer

set_option autoImplicit false

/- `decimal_round` of strings/decimal.c, in the buffer of `to`. The operand is
copied into `to` (unless `to` is `from`), the word holding the last kept digit
is rounded, either at a word boundary or inside the word, and a carry out of it
runs up the words; a carry out of the top word moves every word one place up to
make room for a new top word `1`. Past the kept words the buffer is cleared to
`to->len`, and `intg` grows when the first word gains a digit. -/
namespace MariaDB.Decimal

/-- `decimal_round_mode`. -/
inductive DecimalRoundMode where
  | truncate
  | halfEven
  | halfUp
  | ceiling
  | floor
  deriving Repr, DecidableEq

/-- `round_digit`: the digit above which the cut-off digits round the kept
ones up (`10`: never; `0`: whenever a digit is cut off). -/
def roundDigit (mode : DecimalRoundMode) (sign : Bool) : Nat :=
  match mode with
  | .halfUp | .halfEven => 5
  | .ceiling => if sign then 10 else 0
  | .floor => if sign then 0 else 10
  | .truncate => 10

/-- `q` rounded to a multiple of `10^-scale` as the mode says: half away from
zero, half to even, toward zero, toward `+∞` or toward `-∞`. -/
def roundToScale (mode : DecimalRoundMode) (q : ℚ) (scale : Int) : ℚ :=
  let s := q * 10 ^ scale
  let n : Int := match mode with
    | .truncate => truncate s
    | .halfUp => if 0 ≤ s then ⌊s + 1 / 2⌋ else ⌈s - 1 / 2⌉
    | .halfEven =>
      if s - ⌊s⌋ < 1 / 2 then ⌊s⌋
      else if 1 / 2 < s - ⌊s⌋ then ⌊s⌋ + 1
      else if ⌊s⌋ % 2 = 0 then ⌊s⌋ else ⌊s⌋ + 1
    | .ceiling => ⌈s⌉
    | .floor => ⌊s⌋
  n / 10 ^ scale

/-! ## The loops over the buffer -/

/-- The copy `while (buf0 < p0) *(--p1) = *(--p0)` of the first `n` words. -/
def copyWords (src dst : List Nat) : Nat → List Nat
  | 0 => dst
  | n + 1 => copyWords src (setWord dst n (getWord src n)) n

/-- `n` words from `start` on set to zero. -/
def zeroWords (buf : List Nat) (start : Nat) : Nat → List Nat
  | 0 => buf
  | n + 1 => zeroWords (setWord buf start 0) (start + 1) n

/-- `while (carry && --buf1 >= to->buf) ADD(*buf1, *buf1, 0, carry)` from the
word `i`: the buffer, the word the carry stopped in, and whether it is left
over past the first word. -/
def propagateCarry (buf : List Nat) : Nat → List Nat × Nat × Bool
  | 0 => (buf, 0, true)
  | i + 1 =>
    let (w, carry) := addWord (getWord buf i) 0 1
    let buf := setWord buf i w
    if carry ≠ 0 then propagateCarry buf i else (buf, i, false)

/-- `for (buf1=to->buf+top; buf1 > to->buf; buf1--) buf1[0]=buf1[-1]`. -/
def shiftWordsUp (buf : List Nat) : Nat → List Nat
  | 0 => buf
  | j + 1 => shiftWordsUp (setWord buf (j + 1) (getWord buf j)) j

/-- The scan `for (;;)` down from the word `i` for one that is not zero. -/
def scanNonzero (buf : List Nat) : Nat → Option Nat
  | 0 => if getWord buf 0 ≠ 0 then some 0 else none
  | i + 1 => if getWord buf (i + 1) ≠ 0 then some (i + 1) else scanNonzero buf i

/-- The decimal `decimal_round` leaves: the words in use of the buffer. -/
def roundResult (toDec : DecimalT) (buf : List Nat) (intg frac : Nat) (sign : Bool) :
    DecimalT :=
  { toDec with
    buf := buf.take (roundUp intg + roundUp frac)
    intg := intg
    frac := frac
    sign := sign }

/-! ## `decimal_round` -/

/-- At a word boundary (`scale == frac0*DIG_PER_DEC1`), `do_inc`: whether the
words cut off after the word `i1` round it up. -/
def roundsUpAtBoundary (buf : List Nat) (i1 frac0 frac1 intg0 : Int) (mode : DecimalRoundMode)
    (roundDigit : Nat) : Bool :=
  match roundDigit with
  | 0 => (List.range (frac1 - frac0).toNat).any fun k => getWord buf (i1 + 1 + k).toNat ≠ 0
  | 5 =>
    let x := getWord buf (i1 + 1).toNat / digMask
    5 < x || (x == 5 && (mode == .halfUp || (0 < frac0 + intg0 && getWord buf i1.toNat % 2 == 1)))
  | _ => false

/-- Inside a word, `*buf1=powers10[pos]*(x-y)`: the word `w` with its last
`pos + 1` digits cut off and the kept ones rounded by the first of them. -/
def roundInWord (w pos : Nat) (mode : DecimalRoundMode) (roundDigit : Nat) : Nat :=
  let x := w / 10 ^ pos
  let y := x % 10
  let x := if roundDigit < y ∨ (roundDigit = 5 ∧ y = 5 ∧ (mode = .halfUp ∨ x / 10 % 2 = 1))
    then x + 10 else x
  10 ^ pos * (x - y)

/-- The end of `decimal_round` once the word `i1` is rounded: the carry out of
it, or the scan for a word that is not zero; the words past the kept ones
cleared; and the `999.9 -> 1000` check on the first digit. -/
def roundFinish (toDec : DecimalT) (buf : List Nat) (i1 intg : Nat) (frac0 frac1 intg0 scale : Int)
    (error : DecError) : DecimalT × DecError :=
  let len : Int := toDec.len
  let carried : Option (List Nat × Nat × Nat × Int × Int × Int × DecError) :=
    if digBase ≤ getWord buf i1 then
      let buf := setWord buf i1 (getWord buf i1 - digBase)
      let (buf, stop, carry) := propagateCarry buf i1
      if carry then
        -- shifting the number to create space for new digit
        let (frac0, scale, error) :=
          if len ≤ frac0 + intg0 then (frac0 - 1, (frac0 - 1) * 9, DecError.truncated)
          else (frac0, scale, error)
        let buf := setWord (shiftWordsUp buf (intg0 + max frac0 0).toNat) 0 1
        some (buf, 0, intg + 1, intg0 + 1, frac0, scale, error)
      else some (buf, stop, intg, intg0, frac0, scale, error)
    else (scanNonzero buf i1).map fun i => (buf, i, intg, intg0, frac0, scale, error)
  match carried with
  | none =>
    -- making 'zero' with the proper scale
    let buf := zeroWords buf 0 (frac0 + 1).toNat
    (roundResult toDec buf 1 (max scale 0).toNat false, .ok)
  | some (buf, i1, intg, intg0, frac0, scale, error) =>
    let buf := if frac0 < frac1 then
        let start := if scale = 0 ∧ intg0 = 0 then 1 else intg0 + frac0
        zeroWords buf start.toNat (len - start).toNat
      else buf
    let firstDig := intg % 9
    let intg := if firstDig ≠ 0 ∧ 10 ^ firstDig ≤ getWord buf i1 then intg + 1 else intg
    (roundResult toDec buf intg (max scale 0).toNat toDec.sign, error)

/-- `decimal_round(from, to, scale, mode)`; `inPlace` is `to == from`, and then
`toDec` is not read. -/
def decimalRound (fromDec toDec : DecimalT) (inPlace : Bool) (scale : Int)
    (mode : DecimalRoundMode) : DecimalT × DecError :=
  let toDec := if inPlace then fromDec else toDec
  let roundDigit := roundDigit mode fromDec.sign
  let frac0 : Int := if 0 < scale then roundUp scale.toNat else scale.tdiv 9
  let frac1 : Int := roundUp fromDec.frac
  let intg0 : Int := roundUp fromDec.intg
  let len : Int := toDec.len
  let (frac0, scale, error) :=
    if len < frac0 + intg0 then (len - intg0, (len - intg0) * 9, DecError.truncated)
    else (frac0, scale, DecError.ok)
  if scale + fromDec.intg < 0 then (toDec.makeZero, .ok)
  else
    let (buf, intg) :=
      if inPlace then (fromDec.buf, fromDec.intg)
      else (copyWords fromDec.buf toDec.buf (intg0 + max frac1 frac0).toNat,
        (min intg0 len).toNat * 9)
    let toDec := { toDec with sign := fromDec.sign }
    if frac1 < frac0 then
      let buf := zeroWords buf (intg0 + frac1).toNat (frac0 - frac1).toNat
      (roundResult toDec buf intg scale.toNat toDec.sign, error)
    else if fromDec.frac ≤ scale then (roundResult toDec buf intg scale.toNat toDec.sign, error)
    else
      let i1 := intg0 + frac0 - 1
      if scale = frac0 * 9 then
        if roundsUpAtBoundary buf i1 frac0 frac1 intg0 mode roundDigit then
          if 0 < frac0 + intg0 then
            roundFinish toDec (setWord buf i1.toNat (getWord buf i1.toNat + 1)) i1.toNat intg
              frac0 frac1 intg0 scale error
          -- no word is kept: a new first word `DIG_BASE` carries at once
          else roundFinish toDec (setWord buf 0 digBase) 0 intg frac0 frac1 intg0 scale error
        else if frac0 + intg0 = 0 then (toDec.makeZero, .ok)
        else roundFinish toDec buf i1.toNat intg frac0 frac1 intg0 scale error
      else
        let pos := (frac0 * 9 - scale - 1).toNat
        roundFinish toDec (setWord buf i1.toNat (roundInWord (getWord buf i1.toNat) pos mode roundDigit))
          i1.toNat intg frac0 frac1 intg0 scale error

/-- Eighteen nines in a buffer of two words, rounded half up to a multiple of
`10^9`: the carry out of the top word makes a third word, which the check
`frac0+intg0 >= len` does not see, as `frac0` is `-1`; the words are moved up
into `to->buf[2]`, past the buffer, and a decimal of 19 digits in three words
is reported with `E_DEC_OK`. Its third word is the old second word, which is
never cleared, so the value read is not the rounded one either. -/
theorem decimalRound_carry_past_buffer :
    (⟨18, 0, 2, false, [999999999, 999999999]⟩ : DecimalT).WellFormed ∧
      decimalRound ⟨18, 0, 2, false, [999999999, 999999999]⟩ ⟨0, 0, 2, false, []⟩ false (-9)
          .halfUp = (⟨19, 0, 2, false, [1, 0, 999999999]⟩, .ok) ∧
      ¬(⟨19, 0, 2, false, [1, 0, 999999999]⟩ : DecimalT).WellFormed ∧
      (⟨19, 0, 2, false, [1, 0, 999999999]⟩ : DecimalT).value = 1000000000999999999 ∧
      roundToScale .halfUp (⟨18, 0, 2, false, [999999999, 999999999]⟩ : DecimalT).value (-9) =
        1000000000000000000 := by
  refine ⟨⟨by decide, by decide, by decide, by decide, by decide⟩, by decide, ?_, ?_, ?_⟩
  · intro wf
    have fits := wf.fits
    simp at fits
  · simp [DecimalT.value, DecimalT.words, wordsValue_def, roundUp_def, digBase_def, Nat.ofDigits]
  · have floor : ⌊(999999999999999999 : ℚ) * 10 ^ (-9 : Int) + 1 / 2⌋ = 1000000000 := by
      rw [Int.floor_eq_iff]
      norm_num
    simp only [roundToScale, DecimalT.value, DecimalT.words]
    norm_num [wordsValue_def, roundUp_def, digBase_def, Nat.ofDigits, floor]

end MariaDB.Decimal
