import Mathlib.Tactic.IntervalCases
import MariaDB.Bytes.BigEndian

set_option autoImplicit false

/- The `decimal_t` of strings/decimal.c. A decimal is a sign, `intg` decimal
digits before the point and `frac` after it, stored in words of
`DIG_PER_DEC1 = 9` digits (`dec1`, base `DIG_BASE = 10^9`), most significant
first. `buf` lists the words in use (`ROUND_UP(intg) + ROUND_UP(frac)` of
them); `len` is the capacity of the buffer in words, which bounds what a
result may occupy. -/
namespace MariaDB.Decimal

/-- `DIG_BASE`. -/
def digBase : Nat := 1000000000

theorem digBase_def : digBase = 1000000000 := rfl

/-- `DIG_MAX`. -/
def digMax : Nat := digBase - 1

/-- `DIG_MASK`. -/
def digMask : Nat := 100000000

/-- The result codes `E_DEC_OK` .. `E_DEC_OOM` of include/decimal.h. -/
inductive DecError where
  | ok
  | truncated
  | overflow
  | divZero
  | badNum
  | oom
  deriving Repr, DecidableEq

structure DecimalT where
  intg : Nat
  frac : Nat
  len : Nat
  sign : Bool
  buf : List Nat
  deriving Repr, DecidableEq

/-- `ROUND_UP`: the number of words that hold `x` digits. -/
def roundUp (x : Nat) : Nat := (x + 8) / 9

theorem roundUp_def (x : Nat) : roundUp x = (x + 8) / 9 := rfl

/-- `dig2bytes[]`: the bytes the binary format gives a group of `d` digits. -/
def dig2bytes : Nat → Nat
  | 0 => 0
  | 1 => 1
  | 2 => 1
  | 3 => 2
  | 4 => 2
  | 5 => 3
  | 6 => 3
  | 7 => 4
  | 8 => 4
  | 9 => 4
  | _ => 0

/-- `decimal_make_zero`. -/
def DecimalT.makeZero (d : DecimalT) : DecimalT :=
  { d with buf := [0], intg := 1, frac := 0, sign := false }

/-- The words in use. -/
def DecimalT.words (d : DecimalT) : List Nat :=
  d.buf.take (roundUp d.intg + roundUp d.frac)

/-- `decimal_is_zero`. -/
def decimalIsZero (d : DecimalT) : Bool :=
  d.words.all (· == 0)

/-- `decimal_size`. -/
def decimalSize (precision scale : Nat) : Nat :=
  roundUp (precision - scale) + roundUp scale

/-- `decimal_bin_size`. -/
def decimalBinSize (precision scale : Nat) : Nat :=
  let intg := precision - scale
  (intg / 9) * 4 + dig2bytes (intg % 9) + (scale / 9) * 4 + dig2bytes (scale % 9)

theorem decimalBinSize_def (precision scale : Nat) :
    decimalBinSize precision scale = (precision - scale) / 9 * 4 + dig2bytes ((precision - scale) % 9) +
      scale / 9 * 4 + dig2bytes (scale % 9) := rfl

/-! ## `remove_leading_zeroes` -/

/-- The loop over leading zero words: the first step takes the `i` digits of
the partial first word, every later one a full word. -/
def skipZeroWords : Nat → Nat → List Nat → List Nat × Nat
  | intg, i, w :: ws =>
    if 0 < intg ∧ w = 0 then skipZeroWords (intg - i) 9 ws else (w :: ws, intg)
  | intg, _, [] => ([], intg)

/-- The loop `for (i= (intg - 1) % 9; *buf0 < powers10[i--]; intg--)` over the
first nonzero word `w`. -/
def countLeadDigits (w : Nat) : Nat → Nat → Nat
  | 0, intg => if w < 1 then intg - 1 else intg
  | i + 1, intg => if w < 10 ^ (i + 1) then countLeadDigits w i (intg - 1) else intg

/-- `remove_leading_zeroes`: the words from the first nonzero integer word on,
and the number of integer digits left. -/
def removeLeadingZeroes (d : DecimalT) : List Nat × Nat :=
  -- `i` is unused when `intg = 0`, where C computes it as 0
  let (buf0, intg) := skipZeroWords d.intg ((d.intg - 1) % 9 + 1) d.buf
  if 0 < intg then (buf0, countLeadDigits (buf0.headD 0) ((intg - 1) % 9) intg)
  else (buf0, 0)

/-! ## Word buffers

The functions that work in place read and write the words of a buffer by
index. A read past the words of the list is zero; a write past them grows the
list, so that a store past the end of a buffer shows in what is left. -/

/-- `buf[i]`. -/
def getWord (buf : List Nat) (i : Nat) : Nat := buf.getD i 0

/-- `buf[i]= w`. -/
def setWord (buf : List Nat) (i w : Nat) : List Nat :=
  buf.take i ++ List.replicate (i - buf.length) 0 ++ w :: buf.drop (i + 1)

/-- `ADD(to, from1, from2, carry)`: the word and the carry out. -/
def addWord (from1 from2 carry : Nat) : Nat × Nat :=
  let a := from1 + from2 + carry
  if digBase ≤ a then (a - digBase, 1) else (a, 0)

/-! ## What a decimal denotes -/

/-- A word string read in base `10^9`, most significant word first. -/
def wordsValue (ws : List Nat) : Nat := Nat.ofDigits digBase ws.reverse

theorem wordsValue_def (ws : List Nat) : wordsValue ws = Nat.ofDigits digBase ws.reverse := rfl

/-- The rational number a decimal denotes. -/
def DecimalT.value (d : DecimalT) : ℚ :=
  (if d.sign then -1 else 1) * (wordsValue d.words : ℚ) / (digBase : ℚ) ^ roundUp d.frac

/-- The integer part, as a natural number. -/
def DecimalT.intPart (d : DecimalT) : Nat := wordsValue (d.buf.take (roundUp d.intg))

theorem DecimalT.intPart_def (d : DecimalT) : d.intPart = wordsValue (d.buf.take (roundUp d.intg)) := rfl

/-- A well-formed `decimal_t`: exactly the words in use, each a base-`10^9`
digit, the first integer word holding no more digits than `intg` leaves it
and the last fraction word no digits beyond `frac` (decimal.h: `intg` and
`frac` are the numbers of decimal digits before and after the point), inside a
buffer of `len` words. -/
structure DecimalT.WellFormed (d : DecimalT) : Prop where
  length_buf : d.buf.length = roundUp d.intg + roundUp d.frac
  fits : d.buf.length ≤ d.len
  word_lt : ∀ w ∈ d.buf, w < digBase
  head_lt : 0 < d.intg % 9 → d.buf.headD 0 < 10 ^ (d.intg % 9)
  last_dvd : 0 < d.frac % 9 → 10 ^ (9 - d.frac % 9) ∣ d.buf.getLastD 0

/-- A decimal whose zero is unsigned: `sign` set only with some nonzero word. -/
def DecimalT.NoNegativeZero (d : DecimalT) : Prop :=
  d.sign = true → decimalIsZero d = false

instance (d : DecimalT) : Decidable d.NoNegativeZero :=
  inferInstanceAs (Decidable (_ → _))

/-! ## Small facts -/

@[simp] theorem wordsValue_nil : wordsValue [] = 0 := rfl

@[simp] theorem wordsValue_singleton (w : Nat) : wordsValue [w] = w := by
  rw [wordsValue_def, List.reverse_singleton, Nat.ofDigits_singleton]

theorem wordsValue_append (as bs : List Nat) :
    wordsValue (as ++ bs) = wordsValue as * digBase ^ bs.length + wordsValue bs := by
  rw [wordsValue_def, List.reverse_append, Nat.ofDigits_append, List.length_reverse, wordsValue_def,
    wordsValue_def]
  ring

theorem wordsValue_append_singleton (ws : List Nat) (w : Nat) :
    wordsValue (ws ++ [w]) = wordsValue ws * digBase + w := by
  rw [wordsValue_append, List.length_singleton, pow_one, wordsValue_singleton]

theorem wordsValue_cons (w : Nat) (ws : List Nat) :
    wordsValue (w :: ws) = w * digBase ^ ws.length + wordsValue ws := by
  rw [← List.singleton_append, wordsValue_append, wordsValue_singleton]

theorem wordsValue_lt {ws : List Nat} (h : ∀ w ∈ ws, w < digBase) :
    wordsValue ws < digBase ^ ws.length := by
  rw [wordsValue_def, ← List.length_reverse]
  exact Nat.ofDigits_lt_base_pow_length (by decide) (by simpa using h)

@[simp] theorem wordsValue_replicate_zero (n : Nat) : wordsValue (List.replicate n 0) = 0 := by
  induction n with
  | zero => rfl
  | succ n ih => rw [List.replicate_succ', wordsValue_append_singleton, ih]; rfl

/-- Leading zero words add nothing to a word string's value. -/
theorem wordsValue_replicate_append (m : Nat) (ws : List Nat) :
    wordsValue (List.replicate m 0 ++ ws) = wordsValue ws := by
  rw [wordsValue_append, wordsValue_replicate_zero, Nat.zero_mul, Nat.zero_add]

theorem dig2bytes_le_four (d : Nat) : dig2bytes d ≤ 4 := by
  unfold dig2bytes
  split <;> omega

end MariaDB.Decimal
