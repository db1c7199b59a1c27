import MariaDB.Decimal.Bin
import MariaDB.Decimal.Shift
import MariaDB.Decimal.Strtoll10

set_option autoImplicit false

/- The text form of a decimal: `decimal2string` and `internal_str2dec` of
strings/decimal.c; `string2decimal` is `internal_str2dec` with `fixed` off.
The printer writes the fraction digits forward from the top of each word and
the integer digits backward from the bottom of each; the parser builds the
integer words from the point leftward and the fraction words rightward,
scaling the last one up to nine digits. -/
namespace MariaDB.Decimal

/-- `decimal_string_size(dec)`. -/
def decimalStringSize (d : DecimalT) : Nat :=
  (if d.intg ≠ 0 then d.intg else 1) + d.frac + (if 0 < d.frac then 1 else 0) + 2

/-! ## `decimal2string` -/

/-- `'0'+(uchar)y`. -/
def digitChar (y : Nat) : UInt8 := UInt8.ofNat ('0'.toNat + y % 256)

/-- The inner fraction loop of `decimal2string`: `i` digits off the top of
`x`, each taken with `DIG_MASK` before `x` moves up by ten. -/
def leadDigitChars : Nat → Nat → List UInt8
  | 0, _ => []
  | i + 1, x =>
    let y := x / digMask
    digitChar y :: leadDigitChars i ((x - y * digMask) * 10)

@[simp] theorem leadDigitChars_zero (x : Nat) : leadDigitChars 0 x = [] := rfl

/-- The inner integer loop of `decimal2string`: the low `i` digits of `x`,
written backward, so the digit computed last stands first. -/
def lowDigitChars : Nat → Nat → List UInt8
  | 0, _ => []
  | i + 1, x =>
    let y := x / 10
    lowDigitChars i y ++ [digitChar (x - y * 10)]

@[simp] theorem lowDigitChars_zero (x : Nat) : lowDigitChars 0 x = [] := rfl

theorem lowDigitChars_succ (i x : Nat) :
    lowDigitChars (i + 1) x = lowDigitChars i (x / 10) ++ [digitChar (x - x / 10 * 10)] := rfl

/-- The fraction loop of `decimal2string` over the words after the integer
part: `frac` digits, at most nine from each word. -/
def fracDigitChars : Nat → List Nat → List UInt8
  | frac, w :: ws =>
    if 0 < frac then leadDigitChars (min frac 9) w ++ fracDigitChars (frac - 9) ws else []
  | _, [] => []

theorem fracDigitChars_cons (frac w : Nat) (ws : List Nat) :
    fracDigitChars frac (w :: ws) =
      if 0 < frac then leadDigitChars (min frac 9) w ++ fracDigitChars (frac - 9) ws else [] := rfl

@[simp] theorem fracDigitChars_nil (frac : Nat) : fracDigitChars frac [] = [] := rfl

/-- The integer loop of `decimal2string` over the integer words from the last
one back: `intg` digits, the first word giving the digits left over. -/
def intDigitChars : Nat → List Nat → List UInt8
  | intg, w :: ws =>
    if 0 < intg then intDigitChars (intg - 9) ws ++ lowDigitChars (min intg 9) w else []
  | _, [] => []

theorem intDigitChars_cons (intg w : Nat) (ws : List Nat) :
    intDigitChars intg (w :: ws) =
      if 0 < intg then intDigitChars (intg - 9) ws ++ lowDigitChars (min intg 9) w else [] := rfl

@[simp] theorem intDigitChars_nil (intg : Nat) : intDigitChars intg [] = [] := rfl

/-- The start of `decimal2string`: `remove_leading_zeroes`, and for a decimal
with no digit left the single zero word `tmp`, printed as one integer digit. -/
def decimal2stringStart (d : DecimalT) : List Nat × Nat :=
  let (buf0, intg) := removeLeadingZeroes d
  if intg + d.frac = 0 then ([0], 1) else (buf0, intg)

/-- The widths of `decimal2string` for a decimal with `intg` digits left
before the point and `frac` after it: the digit counts printed, the places
`intg_len` and `frac_len` they take, the new `*to_len`, and the result code. -/
def decimal2stringWidths (sign : Bool) (intg frac toLen fixedPrecision fixedDecimals : Nat) :
    Nat × Nat × Nat × Nat × Nat × DecError :=
  let sign := if sign then 1 else 0
  let fixedIntg := if fixedPrecision ≠ 0 then fixedPrecision - fixedDecimals else 0
  let intgLen := if fixedPrecision ≠ 0 then fixedIntg else intg
  let intgLen := if intgLen = 0 then 1 else intgLen
  let fracLen := if fixedPrecision ≠ 0 then fixedDecimals else frac
  let len := sign + intgLen + (if frac ≠ 0 then 1 else 0) + fracLen
  if fixedPrecision ≠ 0 then
    let (frac', error) :=
      if fixedDecimals < frac then (fixedDecimals, DecError.truncated) else (frac, .ok)
    let (intg, error) := if fixedIntg < intg then (fixedIntg, DecError.overflow) else (intg, error)
    (intg, frac', intgLen, fracLen, len, error)
  -- `len > --*to_len`: one byte is kept for the terminating zero
  else if toLen - 1 < len then
    let j := len - (toLen - 1)
    let error := if frac ≠ 0 ∧ j ≤ frac + 1 then DecError.truncated else .overflow
    let j := if frac ≠ 0 ∧ frac + 1 ≤ j then j - 1 else j
    let (intg, frac) := if frac < j then (intg - (j - frac), 0) else (intg, frac - j)
    (intg, frac, intgLen, frac, sign + intgLen + (if frac ≠ 0 then 1 else 0) + frac, error)
  else (intg, frac, intgLen, fracLen, len, .ok)

/-- The characters `decimal2string` writes from the words `buf0`: the sign,
`intg` digits right-aligned in `intgLen` places, and after a point `frac`
digits left-aligned in `fracLen` places, the places left filled by `filler`. -/
def decimal2stringChars (sign : Bool) (buf0 : List Nat) (intg frac intgLen fracLen : Nat)
    (filler : UInt8) : List UInt8 :=
  let minus := if sign then ['-'.toUInt8] else []
  let fracPart := if frac ≠ 0 then
      '.'.toUInt8 :: fracDigitChars frac (buf0.drop (roundUp intg)) ++
        List.replicate (fracLen - frac) filler
    else []
  -- the `0` before the point takes one place of the fill
  let fill := intgLen - intg - (if intg = 0 then 1 else 0)
  let intPart := List.replicate fill filler ++
    if intg ≠ 0 then intDigitChars intg (buf0.take (roundUp intg)).reverse else ['0'.toUInt8]
  minus ++ intPart ++ fracPart

/-- `decimal2string(from, to, &to_len, fixed_precision, fixed_decimals,
filler)` with `*to_len = toLen`: the characters written before the terminating
zero, the new `*to_len`, and the result code. -/
def decimal2string (d : DecimalT) (toLen fixedPrecision fixedDecimals : Nat) (filler : UInt8) :
    List UInt8 × Nat × DecError :=
  let (buf0, intg) := decimal2stringStart d
  let (intg, frac, intgLen, fracLen, len, error) :=
    decimal2stringWidths d.sign intg d.frac toLen fixedPrecision fixedDecimals
  (decimal2stringChars d.sign buf0 intg frac intgLen fracLen filler, len, error)

/-! ## `internal_str2dec` -/

/-- The integer loop of `internal_str2dec`, over the digits from the point
leftward: `x` gathers the `i`-th of them times `powers10[i]`, and each full word
goes before the words built so far, as `*--buf= x` puts it. -/
def intWordsLoop : List UInt8 → Nat → Nat → List Nat → List Nat
  | [], x, i, words => if 0 < i then x :: words else words
  | c :: cs, x, i, words =>
    let x := x + digitValue c * 10 ^ i
    if i + 1 = 9 then intWordsLoop cs 0 0 (x :: words) else intWordsLoop cs x (i + 1) words

theorem intWordsLoop_nil (x i : Nat) (words : List Nat) :
    intWordsLoop [] x i words = if 0 < i then x :: words else words := rfl

theorem intWordsLoop_cons (c : UInt8) (cs : List UInt8) (x i : Nat) (words : List Nat) :
    intWordsLoop (c :: cs) x i words =
      if i + 1 = 9 then intWordsLoop cs 0 0 ((x + digitValue c * 10 ^ i) :: words)
      else intWordsLoop cs (x + digitValue c * 10 ^ i) (i + 1) words := rfl

/-- The fraction loop of `internal_str2dec`, left to right: nine digits a word,
the last word scaled by `powers10[DIG_PER_DEC1-i]`. -/
def fracWordsLoop : List UInt8 → Nat → Nat → List Nat
  | [], x, i => if 0 < i then [x * 10 ^ (9 - i)] else []
  | c :: cs, x, i =>
    let x := digitValue c + x * 10
    if i + 1 = 9 then x :: fracWordsLoop cs 0 0 else fracWordsLoop cs x (i + 1)

theorem fracWordsLoop_nil (x i : Nat) : fracWordsLoop [] x i = if 0 < i then [x * 10 ^ (9 - i)] else [] := rfl

theorem fracWordsLoop_cons (c : UInt8) (cs : List UInt8) (x i : Nat) :
    fracWordsLoop (c :: cs) x i =
      if i + 1 = 9 then (digitValue c + x * 10) :: fracWordsLoop cs 0 0
      else fracWordsLoop cs (digitValue c + x * 10) (i + 1) := rfl

/-- The leading zeros trimmed off a long integer part; the last digit stays. -/
def trimLeadingZeros : List UInt8 → List UInt8
  | c :: d :: cs => if c = '0'.toUInt8 then trimLeadingZeros (d :: cs) else c :: d :: cs
  | cs => cs

/-- The digit counts `internal_str2dec` keeps of `intg` and `frac` read: for
`fixed` those of `to`, or `none` for `E_DEC_OOM`; otherwise what
`FIX_INTG_FRAC_ERROR` leaves room for in `to->len` words. -/
def str2decLimits (toDec : DecimalT) (fixed : Bool) (intg frac : Nat) :
    Option (Nat × Nat × DecError) :=
  if fixed then
    let (frac, error) := if toDec.frac < frac then (toDec.frac, DecError.truncated) else (frac, .ok)
    let (intg, error) := if toDec.intg < intg then (toDec.intg, DecError.overflow) else (intg, error)
    if toDec.len < roundUp intg + roundUp frac then none else some (intg, frac, error)
  else
    let (intg1, frac1, error) := fixIntgFracError toDec.len (roundUp intg) (roundUp frac)
    if error = .ok then some (intg, frac, error)
    else some (if error = .overflow then intg1 * 9 else intg, frac1 * 9, error)

/-- The sign of `internal_str2dec`, at the first character `c` after the
spaces: a `-` or a `+` is read off. -/
def str2decSign (c : UInt8) (cs : List UInt8) : Bool × List UInt8 :=
  (c = '-'.toUInt8, if c = '-'.toUInt8 ∨ c = '+'.toUInt8 then cs else c :: cs)

/-- The digits of `internal_str2dec` after the sign: the integer digits, with a
long run of leading zeros trimmed, the fraction digits after a point, and
what follows them. -/
def str2decDigits (rest : List UInt8) : List UInt8 × List UInt8 × List UInt8 :=
  let intDigits := rest.takeWhile latin1IsDigit
  let rest := rest.drop intDigits.length
  -- keep `CAST(CONCAT(REPEAT('0',90),'1') AS DECIMAL(10))` from overflowing
  let intDigits := if 9 < intDigits.length ∧ intDigits.take 2 = ['0'.toUInt8, '0'.toUInt8]
    then trimLeadingZeros intDigits else intDigits
  let point := rest.head? = some '.'.toUInt8
  let fracDigits := if point then (rest.drop 1).takeWhile latin1IsDigit else []
  let rest := if point then (rest.drop 1).drop fracDigits.length else rest
  (intDigits, fracDigits, rest)

/-- The words `internal_str2dec` builds from the last `intg` integer digits and
the first `frac` fraction digits. -/
def str2decWords (intDigits fracDigits : List UInt8) (intg frac : Nat) : List Nat :=
  intWordsLoop (intDigits.reverse.take intg) 0 0 [] ++ fracWordsLoop (fracDigits.take frac) 0 0

/-- `endp+1 < end_of_string && (*endp == 'e' || *endp == 'E')`: an exponent
may follow the digits. -/
def str2decExponent : List UInt8 → Bool
  | e :: _ :: _ => e == 'e'.toUInt8 || e == 'E'.toUInt8
  | _ => false

/-- `INT_MAX`. -/
def intMax : Int := 2 ^ 31 - 1

/-- `INT_MIN`. -/
def intMin : Int := -2 ^ 31

/-- The end of `internal_str2dec`: a zero read is never negative. -/
def str2decFinish (toDec : DecimalT) (endp : Nat) (error : DecError) : DecimalT × Nat × DecError :=
  ({ toDec with sign := toDec.sign && !decimalIsZero toDec }, endp, error)

/-- The exponent of `internal_str2dec`: `my_strtoll10` on the characters
`exp` after the `e` at offset `endp`, and `decimal_shift` of the mantissa
`toDec` read with `error`. An exponent out of range gives zero, with
`E_DEC_OVERFLOW` for a huge positive one and a mantissa that is not zero. -/
def str2decExponentPart (toDec : DecimalT) (endp : Nat) (error : DecError) (exp : List UInt8) :
    DecimalT × Nat × DecError :=
  let (exponent, read, strError) := myStrtoll10 exp
  -- no digit: the exponent is not read
  if read = 0 then str2decFinish toDec endp error
  else
    let endExp := endp + 1 + read
    if 0 < strError then
      if strError = myErrnoErange then
        -- skip all remaining digits
        let endExp := endExp + ((exp.drop read).takeWhile latin1IsDigit).length
        let error := if exponent = -1 ∧ decimalIsZero toDec = false then .overflow else error
        (toDec.makeZero, endExp, error)
      else (toDec.makeZero, endExp, .badNum)
    else if intMax / 2 < exponent ∨ (strError = 0 ∧ exponent < 0) then
      (toDec.makeZero, endExp, if decimalIsZero toDec = false then .overflow else error)
    else if exponent < intMin.tdiv 2 ∧ error ≠ .overflow then (toDec.makeZero, endExp, .truncated)
    else if error ≠ .overflow then
      let (toDec, error) := decimalShift toDec exponent
      str2decFinish toDec endExp error
    else str2decFinish toDec endExp error

/-- `internal_str2dec(from, to, &end, fixed)` on the characters `str` from
`from` to `*end`: the decimal, the offset `*end` is left at, and the result
code. A fatal error leaves `to` zero. The result is always `some`. -/
def internalStr2dec (str : List UInt8) (toDec : DecimalT) (fixed : Bool) :
    Option (DecimalT × Nat × DecError) :=
  match str.dropWhile latin1IsSpace with
  | [] => some (toDec.makeZero, str.length, .badNum)
  | c :: cs =>
    let (sign, rest) := str2decSign c cs
    let (intDigits, fracDigits, rest) := str2decDigits rest
    let endp := str.length - rest.length
    if intDigits.length + fracDigits.length = 0 then some (toDec.makeZero, endp, .badNum)
    else
      match str2decLimits toDec fixed intDigits.length fracDigits.length with
      | none => some (toDec.makeZero, endp, .oom)
      | some (intg, frac, error) =>
        let toDec := { toDec with
          intg := intg, frac := frac, sign := sign,
          buf := str2decWords intDigits fracDigits intg frac }
        if str2decExponent rest then some (str2decExponentPart toDec endp error (rest.drop 1))
        else some (str2decFinish toDec endp error)

/-- `string2decimal(from, to, end)`. -/
def string2decimal (str : List UInt8) (toDec : DecimalT) : Option (DecimalT × Nat × DecError) :=
  internalStr2dec str toDec false

/-- `1.0000000001e1` read into a buffer of two words: the mantissa does not
fit, so `FIX_INTG_FRAC_ERROR` drops its last digit with `E_DEC_TRUNCATED`; the
exponent then replaces that code with the `E_DEC_OK` of `decimal_shift`, and
`10` is returned as exact, where the text is `10.000000001`. -/
theorem string2decimal_exponent_drops_truncation :
    string2decimal ("1.0000000001e1".toList.map Char.toUInt8) ⟨0, 0, 2, false, []⟩ =
        some (⟨2, 0, 2, false, [10]⟩, 14, .ok) ∧
      (⟨2, 0, 2, false, [10]⟩ : DecimalT).value ≠ 10000000001 / 10 ^ 10 * 10 ^ 1 := by
  refine ⟨by decide, ?_⟩
  simp only [DecimalT.value, DecimalT.words, roundUp_def]
  norm_num [wordsValue_def, Nat.ofDigits]

end MariaDB.Decimal
