import Mathlib.Algebra.Group.Nat.Defs
import Mathlib.Tactic.Common

set_option autoImplicit false

/- UTF-8 in its shortest form, for every natural number below `2^21`: the
formulas of `String.utf8EncodeChar` taken beyond the Unicode scalar values,
so that surrogates and the four-byte forms above U+10FFFF have bytes too.
A byte string is the encoding of a number exactly when its lead byte gives
the length, the other bytes are continuation bytes and the number is not
short enough for a shorter form. -/
namespace Utf8

/-! ## Bit fields -/

theorem shiftLeft_or_eq_add {a b i : Nat} (hb : b < 2 ^ i) : a <<< i ||| b = a * 2 ^ i + b := by
  rw [← Nat.shiftLeft_add_eq_or_of_lt hb, Nat.shiftLeft_eq]

theorem or_shiftLeft_eq_add {a b i : Nat} (hb : b < 2 ^ i) : b ||| a <<< i = a * 2 ^ i + b := by
  rw [Nat.or_comm, shiftLeft_or_eq_add hb]

theorem shiftLeft_or_shiftLeft_eq {a b i j k : Nat} (hb : b < 2 ^ i) (hk : k = i + j) :
    a <<< k ||| b <<< j = (a * 2 ^ i + b) <<< j := by
  subst hk
  rw [Nat.shiftLeft_add, ← Nat.shiftLeft_or_distrib, shiftLeft_or_eq_add hb]

/-! ## The encoding -/

/-- The number of bytes of the shortest form, as `Char.utf8Size` counts them. -/
def size (v : Nat) : Nat := if v ≤ 0x7f then 1 else if v ≤ 0x7ff then 2 else if v ≤ 0xffff then 3 else 4

/-- The shortest form of `v`, by the formulas of `String.utf8EncodeChar`. -/
def encode (v : Nat) : List UInt8 :=
  if v ≤ 0x7f then [UInt8.ofNat v]
  else if v ≤ 0x7ff then [UInt8.ofNat (v / 64 % 0x20 + 0xc0), UInt8.ofNat (v % 0x40 + 0x80)]
  else if v ≤ 0xffff then
    [UInt8.ofNat (v / 4096 % 0x10 + 0xe0), UInt8.ofNat (v / 64 % 0x40 + 0x80), UInt8.ofNat (v % 0x40 + 0x80)]
  else
    [UInt8.ofNat (v / 262144 % 0x08 + 0xf0), UInt8.ofNat (v / 4096 % 0x40 + 0x80),
      UInt8.ofNat (v / 64 % 0x40 + 0x80), UInt8.ofNat (v % 0x40 + 0x80)]

theorem encode_char (c : Char) : encode c.toNat = String.utf8EncodeChar c := rfl

theorem length_encode (v : Nat) : (encode v).length = size v := by
  unfold encode size
  split_ifs <;> rfl

/-- A continuation byte, `10xxxxxx`. -/
def IsCont (b : UInt8) : Prop := 0x80 ≤ b.toNat ∧ b.toNat < 0xc0

instance (b : UInt8) : Decidable (IsCont b) := inferInstanceAs (Decidable (_ ∧ _))

/-- The length of the character a byte starts, by the ranges of the lead bytes
in the syntax of RFC 3629 (section 4): 0 for a byte that starts none. -/
def leadLength (c : UInt8) : Nat :=
  if c.toNat < 0x80 then 1 else if c.toNat < 0xc2 then 0 else if c.toNat < 0xe0 then 2
  else if c.toNat < 0xf0 then 3 else if c.toNat < 0xf5 then 4 else 0

/-- Fewer bytes are left than the lead byte announces, or none at all. -/
def TooShort : List UInt8 → Prop
  | [] => True
  | c :: rest => rest.length + 1 < leadLength c

/-- The number of bytes a reader needs to see before it can decide. -/
def needed : List UInt8 → Nat
  | [] => 1
  | c :: _ => leadLength c

theorem encode_one {v : Nat} (h : v ≤ 0x7f) : encode v = [UInt8.ofNat v] := by
  rw [encode, if_pos h]

theorem encode_two {v : Nat} (lo : 0x7f < v) (hi : v ≤ 0x7ff) :
    encode v = [UInt8.ofNat (0xc0 + v / 64), UInt8.ofNat (0x80 + v % 64)] := by
  rw [encode, if_neg (by omega), if_pos hi]
  simp only [List.cons.injEq, and_true]
  refine ⟨?_, ?_⟩ <;> congr 1 <;> omega

theorem encode_three {v : Nat} (lo : 0x7ff < v) (hi : v ≤ 0xffff) :
    encode v = [UInt8.ofNat (0xe0 + v / 4096), UInt8.ofNat (0x80 + v / 64 % 64), UInt8.ofNat (0x80 + v % 64)] := by
  rw [encode, if_neg (by omega), if_neg (by omega), if_pos hi]
  simp only [List.cons.injEq, and_true]
  refine ⟨?_, ?_, ?_⟩ <;> congr 1 <;> omega

theorem encode_four {v : Nat} (lo : 0xffff < v) (hi : v < 0x200000) :
    encode v = [UInt8.ofNat (0xf0 + v / 262144), UInt8.ofNat (0x80 + v / 4096 % 64),
      UInt8.ofNat (0x80 + v / 64 % 64), UInt8.ofNat (0x80 + v % 64)] := by
  rw [encode, if_neg (by omega), if_neg (by omega), if_neg (by omega)]
  simp only [List.cons.injEq, and_true]
  refine ⟨?_, ?_, ?_, ?_⟩ <;> congr 1 <;> omega

/-! ## Reading the number back -/

section
variable {b0 b1 b2 b3 : UInt8}

theorem encode_of_two (lead : 0xc2 ≤ b0.toNat ∧ b0.toNat < 0xe0) (c1 : IsCont b1) :
    encode ((b0.toNat - 0xc0) * 64 + (b1.toNat - 0x80)) = [b0, b1] := by
  obtain ⟨lo1, hi1⟩ := c1
  rw [encode_two (by omega) (by omega)]
  simp only [List.cons.injEq, and_true]
  refine ⟨?_, ?_⟩ <;> apply UInt8.toNat_inj.mp <;> simp only [UInt8.toNat_ofNat'] <;> omega

theorem encode_of_three (lead : 0xe0 ≤ b0.toNat ∧ b0.toNat < 0xf0) (c1 : IsCont b1) (c2 : IsCont b2)
    (long : 0x7ff < (b0.toNat - 0xe0) * 4096 + (b1.toNat - 0x80) * 64 + (b2.toNat - 0x80)) :
    encode ((b0.toNat - 0xe0) * 4096 + (b1.toNat - 0x80) * 64 + (b2.toNat - 0x80)) = [b0, b1, b2] := by
  obtain ⟨lo1, hi1⟩ := c1
  obtain ⟨lo2, hi2⟩ := c2
  rw [encode_three long (by omega)]
  simp only [List.cons.injEq, and_true]
  refine ⟨?_, ?_, ?_⟩ <;> apply UInt8.toNat_inj.mp <;> simp only [UInt8.toNat_ofNat'] <;> omega

theorem encode_of_four (lead : 0xf0 ≤ b0.toNat ∧ b0.toNat < 0xf8) (c1 : IsCont b1) (c2 : IsCont b2)
    (c3 : IsCont b3)
    (long : 0xffff < (b0.toNat - 0xf0) * 262144 + (b1.toNat - 0x80) * 4096 + (b2.toNat - 0x80) * 64 +
      (b3.toNat - 0x80)) :
    encode ((b0.toNat - 0xf0) * 262144 + (b1.toNat - 0x80) * 4096 + (b2.toNat - 0x80) * 64 + (b3.toNat - 0x80)) =
      [b0, b1, b2, b3] := by
  obtain ⟨lo1, hi1⟩ := c1
  obtain ⟨lo2, hi2⟩ := c2
  obtain ⟨lo3, hi3⟩ := c3
  rw [encode_four long (by omega)]
  simp only [List.cons.injEq, and_true]
  refine ⟨?_, ?_, ?_, ?_⟩ <;> apply UInt8.toNat_inj.mp <;> simp only [UInt8.toNat_ofNat'] <;> omega

end

end Utf8
