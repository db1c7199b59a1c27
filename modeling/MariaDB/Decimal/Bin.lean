import MariaDB.Decimal.Basic
import MariaDB.Bytes.MyIsamPack

set_option autoImplicit false

/- The binary storage format of DECIMAL(precision, scale): `decimal2bin` and
`bin2decimal` of strings/decimal.c. Full words take four bytes, a partial word
of `d` digits `dig2bytes[d]` bytes, all big-endian; a negative number has every
byte inverted, and the top bit of the first byte is flipped last. -/
namespace MariaDB.Decimal

open BigEndian

/-- `x ^ mask` for the sign mask of the code, `-1` when `mask` holds and `0`
otherwise. -/
def maskXor (mask : Bool) (x : Int) : Int := if mask then ~~~x else x

/-- `(uchar) mask`. -/
def maskByte (mask : Bool) : UInt8 := if mask then 255 else 0

/-- `orig_to[0]^= 0x80`. -/
def flipTop : List UInt8 → List UInt8
  | b :: bs => (b ^^^ 0x80) :: bs
  | [] => []

/-- `while (frac1x < lim && dig2bytes[frac1x] == i) frac1x++;` Here `lim ≤ 9`,
so nine rounds of fuel run the loop to its end. -/
def widenFrac (i lim : Nat) : Nat → Nat → Nat
  | 0, x => x
  | fuel + 1, x => if x < lim ∧ dig2bytes x = i then widenFrac i lim fuel (x + 1) else x

/-- `decimal2bin(from, to, precision, frac)`: the bytes written to `to`, in
order, and the result code. -/
def decimal2bin (d : DecimalT) (precision frac : Nat) : List UInt8 × DecError :=
  let intg := precision - frac
  let intg0 := intg / 9
  let frac0 := frac / 9
  let intg0x := intg % 9
  let frac0x := frac % 9
  let frac1 := d.frac / 9
  let frac1x := d.frac % 9
  let isize0 := intg0 * 4 + dig2bytes intg0x
  let fsize0 := frac0 * 4 + dig2bytes frac0x
  let fsize1 := frac1 * 4 + dig2bytes frac1x
  let (buf1, fromIntg) := removeLeadingZeroes d
  -- a zero without fraction bytes: `mask= 0; intg= 1; buf1= &mask;`
  let zero := fromIntg + fsize1 = 0
  let mask := if zero then false else d.sign
  let intg := if zero then 1 else intg
  let buf1 := if zero then [0] else buf1
  let intg1 := fromIntg / 9
  let intg1x := fromIntg % 9
  let isize1 := intg1 * 4 + dig2bytes intg1x
  -- more integer digits than the type has: keep the low ones; fewer: pad
  let overflow := intg < fromIntg
  let buf1 := if overflow then
      buf1.drop (intg1 + (if 0 < intg1x then 1 else 0) - (intg0 + if 0 < intg0x then 1 else 0))
    else buf1
  let intg1 := if overflow then intg0 else intg1
  let intg1x := if overflow then intg0x else intg1x
  let intPad := if overflow then [] else List.replicate (isize0 - isize1) (maskByte mask)
  -- the fraction is cut or widened by comparing byte sizes, not digit counts
  let truncated := fsize0 < fsize1
  let (frac1, frac1x, fsize0') :=
    if truncated then (frac0, frac0x, fsize0)
    else if fsize1 < fsize0 ∧ 0 < frac1x then
      if frac0 = frac1 then (frac1, frac0x, fsize1) else (frac1 + 1, 0, fsize0)
    else (frac1, frac1x, fsize0)
  let error := if truncated then DecError.truncated else if overflow then .overflow else .ok
  let intPart := if 0 < intg1x then
      miIntStore (dig2bytes intg1x) (maskXor mask ((buf1.headD 0 % 10 ^ intg1x : Nat) : Int))
    else []
  let buf1 := if 0 < intg1x then buf1.drop 1 else buf1
  let words := (List.range (intg1 + frac1)).flatMap fun k =>
    miIntStore 4 (maskXor mask (buf1.getD k 0 : Int))
  let buf1 := buf1.drop (intg1 + frac1)
  let fracPart := if 0 < frac1x then
      let i := dig2bytes frac1x
      let lim := if frac1 < frac0 then 9 else frac0x
      let frac1x := widenFrac i lim 9 frac1x
      miIntStore i (maskXor mask ((buf1.headD 0 / 10 ^ (9 - frac1x) : Nat) : Int))
    else []
  let written := intPad ++ intPart ++ words ++ fracPart
  -- the trailing pad stops at `to_end= orig_to + orig_fsize0 + orig_isize0`
  let fracPad := if fsize1 < fsize0' then
      List.replicate (min (fsize0' - fsize1) (isize0 + fsize0 - written.length)) (maskByte mask)
    else []
  (flipTop (written ++ fracPad), error)

/-- `FIX_INTG_FRAC_ERROR(len, intg1, frac1, error)`: the word counts that fit
`len` words, and the code that says what was lost. -/
def fixIntgFracError (len intg1 frac1 : Nat) : Nat × Nat × DecError :=
  if len < intg1 + frac1 then
    if len < intg1 then (len, 0, .overflow) else (intg1, len - intg1, .truncated)
  else (intg1, frac1, .ok)

/-- A full word as `bin2decimal` reads and checks it: `((uint32)*buf) > DIG_MAX`
rejects it. -/
def readWord (mask : Bool) (src : List UInt8) : Option Nat :=
  let w := maskXor mask (miSintKorr 4 src)
  if digMax < (w % 2 ^ 32).toNat then none else some (w % 2 ^ 32).toNat

/-- The full integer words; a zero word before any kept word is dropped and
takes its nine digits off `to->intg`. -/
def readIntWords (mask : Bool) : Nat → List UInt8 → List Nat → Nat →
    Option (List UInt8 × List Nat × Nat)
  | 0, src, words, intg => some (src, words, intg)
  | n + 1, src, words, intg => do
    let w ← readWord mask src
    if words ≠ [] ∨ w ≠ 0 then readIntWords mask n (src.drop 4) (words ++ [w]) intg
    else readIntWords mask n (src.drop 4) words (intg - 9)

/-- The full fraction words. -/
def readFracWords (mask : Bool) : Nat → List UInt8 → List Nat → Option (List UInt8 × List Nat)
  | 0, src, words => some (src, words)
  | n + 1, src, words => do
    let w ← readWord mask src
    readFracWords mask n (src.drop 4) (words ++ [w])

/-- `bin2decimal(from, to, precision, scale)` into a `to` of `len` words: the
decimal read and the result code. Every failed check is `goto err`, which
returns zero and `E_DEC_BAD_NUM`. -/
def bin2decimal (bin : List UInt8) (precision scale len : Nat) : DecimalT × DecError :=
  let intg := precision - scale
  let intg0 := intg / 9
  let frac0 := scale / 9
  let intg0x := intg % 9
  let frac0x := scale % 9
  -- `mask=(*from & 0x80) ? 0 : -1`, read before the copy is flipped
  let mask := bin.headD 0 &&& 0x80 = 0
  let src := flipTop (bin.take (decimalBinSize precision scale))
  let (intg1, frac1, error) := fixIntgFracError len (intg0 + if 0 < intg0x then 1 else 0)
    (frac0 + if 0 < frac0x then 1 else 0)
  let (skip, intg0, intg0x, frac0, frac0x) :=
    if error = .ok then (0, intg0, intg0x, frac0, frac0x)
    else if intg1 < intg0 + (if 0 < intg0x then 1 else 0) then
      (dig2bytes intg0x + 4 * (intg0 - intg1), intg1, 0, 0, 0)
    else (0, intg0, intg0x, frac1, 0)
  let src := src.drop skip
  let toIntg := intg0 * 9 + intg0x
  let toFrac := frac0 * 9 + frac0x
  let read : Option (List Nat × Nat) := do
    -- the partial first word is checked against `powers10[intg0x+1]`
    let (src, words, toIntg) ← if 0 < intg0x then
        let i := dig2bytes intg0x
        let w := maskXor mask (miSintKorr i src)
        if 10 ^ (intg0x + 1) ≤ (w % 2 ^ 64).toNat then none
        else if w ≠ 0 then some (src.drop i, [w.toNat], toIntg)
        else some (src.drop i, [], toIntg - intg0x)
      else some (src, [], toIntg)
    let (src, words, toIntg) ← readIntWords mask intg0 src words toIntg
    let (src, words) ← readFracWords mask frac0 src words
    -- the partial last word is scaled up in 32-bit arithmetic before its check
    let words ← if 0 < frac0x then
        let v := (maskXor mask (miSintKorr (dig2bytes frac0x) src) * 10 ^ (9 - frac0x)) % 2 ^ 32
        if digMax < v.toNat then none else some (words ++ [v.toNat])
      else some words
    pure (words, toIntg)
  let zero : DecimalT := { intg := 1, frac := 0, len := len, sign := false, buf := [0] }
  match read with
  | none => (zero, .badNum)
  | some (words, toIntg) =>
    -- no digits at all: `decimal_make_zero`
    if toIntg = 0 ∧ toFrac = 0 then (zero, error)
    else ({ intg := toIntg, frac := toFrac, len := len, sign := mask, buf := words }, error)

/-- `0.12` into DECIMAL(1,1): its two fraction digits take the one byte that a
one-digit fraction takes, so `fsize0 < fsize1` does not see the lost digit.
`decimal2bin` stores the two digits `12` with `E_DEC_OK`, and `bin2decimal`
scales them to `12 * 10^8`, above `DIG_MAX`, and rejects the bytes. -/
theorem decimal2bin_ok_unreadable :
    let d : DecimalT := ⟨1, 2, 9, false, [0, 120000000]⟩
    d.WellFormed ∧ d.NoNegativeZero ∧ decimal2bin d 1 1 = ([0x8C], .ok) ∧
      bin2decimal [0x8C] 1 1 (decimalSize 1 1) = (⟨1, 0, 1, false, [0]⟩, .badNum) := by
  refine ⟨⟨?_, ?_, ?_, ?_, ?_⟩, ?_, ?_, ?_⟩ <;> decide

/-- `-0.001` into DECIMAL(3,1) keeps none of its digits: the bytes hold a
negative zero, and `bin2decimal` takes the sign from the first byte without
clearing it for the all-zero result. -/
theorem bin2decimal_negative_zero :
    let d : DecimalT := ⟨1, 3, 9, true, [0, 1000000]⟩
    let r := (bin2decimal (decimal2bin d 3 1).1 3 1 (decimalSize 3 1)).1
    d.WellFormed ∧ d.NoNegativeZero ∧ r.sign = true ∧ decimalIsZero r = true := by
  refine ⟨⟨?_, ?_, ?_, ?_, ?_⟩, ?_, ?_, ?_⟩ <;> decide

end MariaDB.Decimal
