import Mathlib.Tactic.IntervalCases
import MariaDB.Bits.Lanes
import MariaDB.Bits.Words
import MariaDB.Bytes.MyIsamPack

set_option autoImplicit false

/- The 7-bit ASCII fast paths of strings/ctype-ascii.h: the eight bytes of a
64-bit word upper-cased at once, "SIMD within a register", and the
case-insensitive comparison of the first four or eight bytes of two strings
built on it. The macros are right only on bytes below 0x80: then no byte of
their sums and products carries into the next, and each byte of the word is
upper-cased on its own. -/
namespace MariaDB.Ctype

open BigEndian Lanes Words

/-! ## The macros -/

/-- `MY_ASCII_20_IS_SET_IF_NOT_LETTER_MAGIC(i)`: bit 0x20 of a byte is set for
the non-letters of 0x40..0x5F and 0x60..0x7F. -/
def myAscii20IsSetIfNotLetterMagic (i : UInt64) : UInt64 :=
  (((i + 0x1F1F1F1F1F1F1F1F) &&& 0x1F1F1F1F1F1F1F1F) * 5) >>> 2

/-- `MY_ASCII_20_IS_SET_IF_RANGE_60_7F_OR_E0_FF(i)`. -/
def myAscii20IsSetIfRange607fOrE0ff (i : UInt64) : UInt64 := (i >>> 1) &&& i

/-- `MY_ASCII_20_IF_IS_LOWER_LETTER(i)`: 0x20 in the bytes that are `a`..`z`. -/
def myAscii20IfIsLowerLetter (i : UInt64) : UInt64 :=
  myAscii20IsSetIfRange607fOrE0ff i &&& ~~~(myAscii20IsSetIfNotLetterMagic i) &&& 0x2020202020202020

/-- `MY_ASCII_TOUPPER_MAGIC(i)`. -/
def myAsciiToupperMagic (i : UInt64) : UInt64 := i ^^^ myAscii20IfIsLowerLetter i

/-- `my_ascii_to_upper_magic_uint64(i)`. -/
def myAsciiToUpperMagicUint64 (i : UInt64) : UInt64 := myAsciiToupperMagic i

/-- `my_strcoll_ascii_toupper_4bytes(a, b)`: the first four bytes of `a` in the
high half of one word and those of `b` in the low half. -/
def myStrcollAsciiToupper4bytes (a b : List UInt8) : Int :=
  let abn : UInt64 := ((miUintKorr 4 a).toUInt64 <<< 32) ||| (miUintKorr 4 b).toUInt64
  let abn := myAsciiToUpperMagicUint64 abn
  if (abn >>> 32).toUInt32 = abn.toUInt32 then 0
  else if (abn >>> 32).toUInt32 < abn.toUInt32 then -1 else 1

/-- `my_strcoll_ascii_toupper_8bytes(a, b)`. -/
def myStrcollAsciiToupper8bytes (a b : List UInt8) : Int :=
  let an := myAsciiToUpperMagicUint64 (miUintKorr 8 a).toUInt64
  let bn := myAsciiToUpperMagicUint64 (miUintKorr 8 b).toUInt64
  if an = bn then 0 else if an < bn then -1 else 1

theorem myAscii20IsSetIfNotLetterMagic_def (i : UInt64) :
    myAscii20IsSetIfNotLetterMagic i = (((i + 0x1F1F1F1F1F1F1F1F) &&& 0x1F1F1F1F1F1F1F1F) * 5) >>> 2 := rfl

theorem myAsciiToUpperMagicUint64_def (i : UInt64) :
    myAsciiToUpperMagicUint64 i =
      i ^^^ ((i >>> 1) &&& i &&& ~~~(myAscii20IsSetIfNotLetterMagic i) &&& 0x2020202020202020) := rfl

theorem myStrcollAsciiToupper4bytes_def (a b : List UInt8) :
    myStrcollAsciiToupper4bytes a b =
      let abn := myAsciiToUpperMagicUint64 (((miUintKorr 4 a).toUInt64 <<< 32) ||| (miUintKorr 4 b).toUInt64)
      if (abn >>> 32).toUInt32 = abn.toUInt32 then 0
      else if (abn >>> 32).toUInt32 < abn.toUInt32 then -1 else 1 := rfl

theorem myStrcollAsciiToupper8bytes_def (a b : List UInt8) :
    myStrcollAsciiToupper8bytes a b =
      if myAsciiToUpperMagicUint64 (miUintKorr 8 a).toUInt64 = myAsciiToUpperMagicUint64 (miUintKorr 8 b).toUInt64
      then 0
      else if myAsciiToUpperMagicUint64 (miUintKorr 8 a).toUInt64 <
          myAsciiToUpperMagicUint64 (miUintKorr 8 b).toUInt64 then -1
      else 1 := rfl

/-! ## Upper-casing one byte -/

/-- ASCII upper-casing of one byte: `a`..`z` (0x61..0x7A) become `A`..`Z`, and
every other byte stays. -/
def asciiToupper (c : Nat) : Nat := if 0x61 ≤ c ∧ c ≤ 0x7A then c - 0x20 else c

/-- The byte string upper-cased byte by byte. -/
def asciiToupperBytes (s : List UInt8) : List UInt8 := s.map fun c => UInt8.ofNat (asciiToupper c.toNat)

/-- Byte `k` of a 64-bit word, the lowest first. -/
def wordByte (i : UInt64) (k : Nat) : Nat := i.toNat / 2 ^ (8 * k) % 2 ^ 8

theorem asciiToupperBytes_append (xs ys : List UInt8) :
    asciiToupperBytes (xs ++ ys) = asciiToupperBytes xs ++ asciiToupperBytes ys := List.map_append

@[simp] theorem length_asciiToupperBytes (s : List UInt8) : (asciiToupperBytes s).length = s.length :=
  List.length_map _

theorem asciiToupper_le (c : Nat) : asciiToupper c ≤ c := by
  unfold asciiToupper
  split <;> omega

@[simp] theorem asciiToupper_zero : asciiToupper 0 = 0 := rfl

theorem toNat_asciiToupper_byte (c : UInt8) : (UInt8.ofNat (asciiToupper c.toNat)).toNat = asciiToupper c.toNat := by
  have below := c.toNat_lt
  have le := asciiToupper_le c.toNat
  rw [UInt8.toNat_ofNat', Nat.mod_eq_of_lt (by omega)]

/-- The lanes of an upper-cased byte string. -/
theorem asciiToupperBytes_lanes (s : List UInt8) :
    (asciiToupperBytes s).reverse.map UInt8.toNat = (s.reverse.map UInt8.toNat).map asciiToupper := by
  simp only [asciiToupperBytes, List.map_reverse, List.map_map]
  congr 2
  funext c
  exact toNat_asciiToupper_byte c

/-- The truth table of the magic on one byte below 0x80: a bit other than
0x20 never changes. -/
theorem testBit_asciiToupper_of_ne :
    ∀ d, d < 0x80 → ∀ t, t < 8 → t ≠ 5 → (asciiToupper d).testBit t = d.testBit t := by
  decide

/-- The truth table of the magic on one byte below 0x80: bit 0x20 is cleared
when bits 0x40 and 0x20 are set (0x60..0x7F) and bit 0x80 of
`((d + 0x1F) & 0x1F) * 5` is clear, which is when `d` is a letter. -/
theorem testBit_asciiToupper_five : ∀ d, d < 0x80 →
    (asciiToupper d).testBit 5 =
      (d.testBit 5 ^^ (d.testBit 6 && d.testBit 5 && !(((d + 0x1F) &&& 0x1F) * 5).testBit 7)) := by
  decide

/-! ## The magic lane by lane -/

section Lanes

variable {i : UInt64} {ds : List Nat}

/-- Every lane of the constant is `c`. -/
theorem toNat_repeated_byte (c : Nat) (hc : c < 2 ^ 8) :
    (UInt64.ofNat (Nat.ofDigits (2 ^ 8) (List.replicate 8 c))).toNat = Nat.ofDigits (2 ^ 8) (List.replicate 8 c) := by
  have small : ∀ d ∈ List.replicate 8 c, d < 2 ^ 8 := fun d hd => (List.eq_of_mem_replicate hd) ▸ hc
  have below := ofDigits_lt small (by decide)
  rw [List.length_replicate] at below
  exact UInt64.toNat_ofNat_of_lt' below

theorem mask_1F_eq : (0x1F1F1F1F1F1F1F1F : UInt64) = UInt64.ofNat (Nat.ofDigits (2 ^ 8) (List.replicate 8 0x1F)) := by
  decide

theorem mask_20_eq : (0x2020202020202020 : UInt64) = UInt64.ofNat (Nat.ofDigits (2 ^ 8) (List.replicate 8 0x20)) := by
  decide

/-- The magic product, lane by lane: each lane is `((d + 0x1F) & 0x1F) * 5`,
at most 155, so no lane carries. -/
theorem toNat_myAscii20IsSetIfNotLetterMagic (len : ds.length = 8) (ascii : ∀ d ∈ ds, d < 0x80)
    (hi : i.toNat = Nat.ofDigits (2 ^ 8) ds) :
    (myAscii20IsSetIfNotLetterMagic i).toNat =
      Nat.ofDigits (2 ^ 8) (ds.map fun d => ((d + 0x1F) &&& 0x1F) * 5) >>> 2 := by
  have sums : ∀ d ∈ ds.map (· + 0x1F), d < 2 ^ 8 := by
    simp only [List.mem_map]
    rintro _ ⟨d, hd, rfl⟩
    have := ascii d hd
    omega
  have products : ∀ d ∈ ((ds.map (· + 0x1F)).map (· &&& 0x1F)).map (· * 5), d < 2 ^ 8 := by
    intro d hd
    obtain ⟨e, he, rfl⟩ := List.mem_map.mp hd
    obtain ⟨f, -, rfl⟩ := List.mem_map.mp he
    have : f &&& 0x1F ≤ 0x1F := Nat.and_le_right
    omega
  have width (l : List Nat) (hl : l.length = 8) (small : ∀ d ∈ l, d < 2 ^ 8) :
      Nat.ofDigits (2 ^ 8) l < 2 ^ 64 := by
    have := ofDigits_lt small (by decide)
    rwa [hl] at this
  have sum : (i + 0x1F1F1F1F1F1F1F1F).toNat = Nat.ofDigits (2 ^ 8) (ds.map (· + 0x1F)) := by
    have rows : List.replicate 8 0x1F = List.replicate ds.length 0x1F := by rw [len]
    rw [UInt64.toNat_add, hi, mask_1F_eq, toNat_repeated_byte _ (by decide), rows, ofDigits_add_replicate,
      Nat.mod_eq_of_lt (width _ (by rw [List.length_map, len]) sums)]
  have mask : ((i + 0x1F1F1F1F1F1F1F1F) &&& 0x1F1F1F1F1F1F1F1F).toNat =
      Nat.ofDigits (2 ^ 8) ((ds.map (· + 0x1F)).map (· &&& 0x1F)) := by
    have rows : List.replicate 8 0x1F = List.replicate (ds.map (· + 0x1F)).length 0x1F := by
      rw [List.length_map, len]
    rw [UInt64.toNat_and, sum, mask_1F_eq, toNat_repeated_byte _ (by decide), rows,
      ofDigits_and_replicate sums (by decide)]
  have product : (((i + 0x1F1F1F1F1F1F1F1F) &&& 0x1F1F1F1F1F1F1F1F) * 5).toNat =
      Nat.ofDigits (2 ^ 8) (((ds.map (· + 0x1F)).map (· &&& 0x1F)).map (· * 5)) := by
    rw [UInt64.toNat_mul, mask, show (5 : UInt64).toNat = 5 from rfl, ofDigits_mul_right,
      Nat.mod_eq_of_lt (width _ (by simp only [List.length_map, len]) products)]
  rw [myAscii20IsSetIfNotLetterMagic_def, UInt64.toNat_shiftRight, product, List.map_map, List.map_map]
  rfl

/-- `my_ascii_to_upper_magic_uint64` upper-cases every lane of a word whose
lanes are below 0x80. -/
theorem toNat_myAsciiToUpperMagicUint64 (len : ds.length = 8) (ascii : ∀ d ∈ ds, d < 0x80)
    (hi : i.toNat = Nat.ofDigits (2 ^ 8) ds) :
    (myAsciiToUpperMagicUint64 i).toNat = Nat.ofDigits (2 ^ 8) (ds.map asciiToupper) := by
  have bytes : ∀ d ∈ ds, d < 2 ^ 8 := fun d hd => Nat.lt_trans (ascii d hd) (by decide)
  have upper : ∀ d ∈ ds.map asciiToupper, d < 2 ^ 8 := by
    simp only [List.mem_map]
    rintro _ ⟨d, hd, rfl⟩
    exact lt_of_le_of_lt (asciiToupper_le d) (bytes d hd)
  have products : ∀ d ∈ ds.map (fun d => ((d + 0x1F) &&& 0x1F) * 5), d < 2 ^ 8 := by
    simp only [List.mem_map]
    rintro _ ⟨d, -, rfl⟩
    have : (d + 0x1F) &&& 0x1F ≤ 0x1F := Nat.and_le_right
    omega
  have magic := toNat_myAscii20IsSetIfNotLetterMagic len ascii hi
  apply Nat.eq_of_testBit_eq
  intro j
  by_cases high : 64 ≤ j
  · have result : (Nat.ofDigits (2 ^ 8) (ds.map asciiToupper)).testBit j = false := by
      apply Nat.testBit_lt_two_pow
      have below := ofDigits_lt upper (by decide)
      rw [List.length_map, len] at below
      exact lt_of_lt_of_le below (Nat.pow_le_pow_right (by decide) high)
    rw [← wordBit_def, wordBit_of_le high, result]
  · obtain ⟨k, t, ht, rfl⟩ : ∃ k t, t < 8 ∧ j = 8 * k + t :=
      ⟨j / 8, j % 8, Nat.mod_lt _ (by decide), (Nat.div_add_mod j 8).symm⟩
    have hk : k < ds.length := by omega
    have lane := ascii ds[k] (List.getElem_mem hk)
    have upperLane : (ds.map asciiToupper).getD k 0 = asciiToupper ds[k] := by
      rw [List.getD_eq_getElem _ _ (by rw [List.length_map]; exact hk), List.getElem_map]
    have inLane : ∀ s, s < 8 → i.toNat.testBit (8 * k + s) = ds[k].testBit s := fun s hs => by
      rw [hi, testBit_ofDigits bytes k hs, List.getD_eq_getElem _ _ hk]
    have mask : ∀ s, s < 8 → wordBit 0x2020202020202020 (8 * k + s) = (0x20 : Nat).testBit s := fun s hs => by
      rw [mask_20_eq, wordBit_def, toNat_repeated_byte _ (by decide), testBit_ofDigits (fun d hd => by
        rw [List.eq_of_mem_replicate hd]; decide) k hs, List.getD_eq_getElem _ _ (by simp; omega),
        List.getElem_replicate]
    rw [testBit_ofDigits upper k ht, upperLane, ← wordBit_def, myAsciiToUpperMagicUint64_def]
    simp only [wordBit_xor, wordBit_and, wordBit_not, decide_eq_true (by omega : 8 * k + t < 64), Bool.true_and]
    rw [mask t ht, wordBit_def, inLane t ht]
    by_cases five : t = 5
    · -- the one bit the macro can change: read bits 6 and 5 of the lane and bit 7 of its product
      subst five
      rw [wordBit_shiftRight (by decide), wordBit_def, wordBit_def, magic, Nat.testBit_shiftRight,
        show (1 : UInt64).toNat + (8 * k + 5) = 8 * k + 6 from by simp; omega,
        show 2 + (8 * k + 5) = 8 * k + 7 by omega, inLane 6 (by decide),
        testBit_ofDigits products k (by decide), List.getD_eq_getElem _ _ (by rw [List.length_map]; exact hk),
        List.getElem_map, testBit_asciiToupper_five _ lane, show (0x20 : Nat).testBit 5 = true by decide,
        Bool.and_true]
    · have clear : (0x20 : Nat).testBit t = false := by
        interval_cases t <;> first | decide | omega
      rw [clear, Bool.and_false, Bool.xor_false, testBit_asciiToupper_of_ne _ lane t ht five]

/-- Byte `k` of the word is byte `k` upper-cased, when every byte of the word
is below 0x80. -/
theorem wordByte_myAsciiToUpperMagicUint64 (ascii : ∀ k < 8, wordByte i k < 0x80) {k : Nat} (hk : k < 8) :
    wordByte (myAsciiToUpperMagicUint64 i) k = asciiToupper (wordByte i k) := by
  have len : (lanes 8 8 i.toNat).length = 8 := length_lanes 8 _
  have hi : i.toNat = Nat.ofDigits (2 ^ 8) (lanes 8 8 i.toNat) := by
    rw [ofDigits_lanes, Nat.mod_eq_of_lt i.toNat_lt]
  have lane : ∀ k < 8, (lanes 8 8 i.toNat).getD k 0 = wordByte i k := fun k hk => getD_lanes hk
  have ascii' : ∀ d ∈ lanes 8 8 i.toNat, d < 0x80 := by
    intro d hd
    obtain ⟨k, hk, rfl⟩ := List.getElem_of_mem hd
    rw [length_lanes] at hk
    rw [← List.getD_eq_getElem _ 0, lane k hk]
    exact ascii k hk
  have upper : ∀ d ∈ (lanes 8 8 i.toNat).map asciiToupper, d < 2 ^ 8 := by
    simp only [List.mem_map]
    rintro _ ⟨d, hd, rfl⟩
    have := asciiToupper_le d
    have := ascii' d hd
    omega
  have back := lanes_ofDigits upper
  rw [List.length_map, len] at back
  have mapped := List.getD_map (lanes 8 8 i.toNat) 0 (n := k) asciiToupper
  rw [asciiToupper_zero] at mapped
  rw [wordByte, toNat_myAsciiToUpperMagicUint64 len ascii' hi, ← getD_lanes (n := 8) hk, back, mapped,
    lane k hk]

/-- Eight bytes below 0x80, read big-endian, upper-cased. -/
theorem toNat_myAsciiToUpperMagicUint64_ofBytes {bs : List UInt8} (len : bs.length = 8)
    (ascii : ∀ c ∈ bs, c < 0x80) :
    (myAsciiToUpperMagicUint64 (ofBytes bs).toUInt64).toNat = ofBytes (asciiToupperBytes bs) := by
  have lanesLen : (bs.reverse.map UInt8.toNat).length = 8 := by
    rw [List.length_map, List.length_reverse, len]
  have ascii' : ∀ d ∈ bs.reverse.map UInt8.toNat, d < 0x80 := by
    simp only [List.mem_map, List.mem_reverse]
    rintro _ ⟨c, hc, rfl⟩
    exact UInt8.lt_iff_toNat_lt.mp (ascii c hc)
  have below : ofBytes bs < UInt64.size := by
    have := ofBytes_lt bs
    rw [len] at this
    exact this
  have hi : (ofBytes bs).toUInt64.toNat = Nat.ofDigits (2 ^ 8) (bs.reverse.map UInt8.toNat) := by
    rw [Nat.toUInt64_eq, UInt64.toNat_ofNat_of_lt' below, ofBytes_eq_ofDigits]
  rw [toNat_myAsciiToUpperMagicUint64 lanesLen ascii' hi, ofBytes_eq_ofDigits, asciiToupperBytes_lanes]

end Lanes

/-! ## The comparisons -/

/-- `my_strcoll_ascii_toupper_8bytes` is the sign of the comparison of the
upper-cased first eight bytes. -/
theorem myStrcollAsciiToupper8bytes_eq {a b : List UInt8} (ha : 8 ≤ a.length) (hb : 8 ≤ b.length)
    (asciiA : ∀ c ∈ a.take 8, c < 0x80) (asciiB : ∀ c ∈ b.take 8, c < 0x80) :
    myStrcollAsciiToupper8bytes a b =
      cmpResult (memcmp (asciiToupperBytes (a.take 8)) (asciiToupperBytes (b.take 8))) := by
  have la : (a.take 8).length = 8 := by rw [List.length_take]; omega
  have lb : (b.take 8).length = 8 := by rw [List.length_take]; omega
  have upperA := toNat_myAsciiToUpperMagicUint64_ofBytes la asciiA
  have upperB := toNat_myAsciiToUpperMagicUint64_ofBytes lb asciiB
  have lengths : (asciiToupperBytes (a.take 8)).length = (asciiToupperBytes (b.take 8)).length := by
    rw [length_asciiToupperBytes, length_asciiToupperBytes, la, lb]
  rw [myStrcollAsciiToupper8bytes_def, miUintKorr_def, miUintKorr_def, memcmp_eq_compare_ofBytes lengths,
    cmpResult_compare_eq_ite, ← upperA, ← upperB]
  simp only [UInt64.toNat_inj, UInt64.lt_iff_toNat_lt]

/-- The word `my_strcoll_ascii_toupper_4bytes` builds is the first four bytes
of `a` and of `b`, read big-endian as one. -/
theorem miUintKorr_four_shiftLeft_or (a b : List UInt8) (lb : (b.take 4).length = 4) :
    ((miUintKorr 4 a).toUInt64 <<< 32) ||| (miUintKorr 4 b).toUInt64 = (ofBytes (a.take 4 ++ b.take 4)).toUInt64 := by
  have ha : ofBytes (a.take 4) < 2 ^ 32 :=
    calc ofBytes (a.take 4) < 256 ^ (a.take 4).length := ofBytes_lt _
      _ ≤ 256 ^ 4 := Nat.pow_le_pow_right (by decide) (List.length_take_le 4 a)
      _ = 2 ^ 32 := by norm_num
  have hb : ofBytes (b.take 4) < 2 ^ 32 := by
    have below := ofBytes_lt (b.take 4)
    rw [lb] at below
    norm_num at below ⊢
    exact below
  have whole : ofBytes (a.take 4 ++ b.take 4) = ofBytes (a.take 4) * 2 ^ 32 + ofBytes (b.take 4) := by
    rw [ofBytes_append, lb]
    norm_num
  apply UInt64.toNat_inj.mp
  rw [UInt64.toNat_or, UInt64.toNat_shiftLeft, miUintKorr_def, miUintKorr_def, Nat.toUInt64_eq, Nat.toUInt64_eq,
    Nat.toUInt64_eq, UInt64.toNat_ofNat_of_lt' (by simp only [UInt64.size]; omega),
    UInt64.toNat_ofNat_of_lt' (by simp only [UInt64.size]; omega),
    UInt64.toNat_ofNat_of_lt' (by rw [whole]; simp only [UInt64.size]; omega),
    show (32 : UInt64).toNat % 64 = 32 from rfl,
    Nat.mod_eq_of_lt (show ofBytes (a.take 4) <<< 32 < 2 ^ 64 by rw [Nat.shiftLeft_eq]; omega),
    ← Nat.shiftLeft_add_eq_or_of_lt hb, Nat.shiftLeft_eq, whole]

/-- `my_strcoll_ascii_toupper_4bytes` is the sign of the comparison of the
upper-cased first four bytes. -/
theorem myStrcollAsciiToupper4bytes_eq {a b : List UInt8} (ha : 4 ≤ a.length) (hb : 4 ≤ b.length)
    (asciiA : ∀ c ∈ a.take 4, c < 0x80) (asciiB : ∀ c ∈ b.take 4, c < 0x80) :
    myStrcollAsciiToupper4bytes a b =
      cmpResult (memcmp (asciiToupperBytes (a.take 4)) (asciiToupperBytes (b.take 4))) := by
  have la : (a.take 4).length = 4 := by rw [List.length_take]; omega
  have lb : (b.take 4).length = 4 := by rw [List.length_take]; omega
  have lua : (asciiToupperBytes (a.take 4)).length = 4 := by rw [length_asciiToupperBytes, la]
  have lub : (asciiToupperBytes (b.take 4)).length = 4 := by rw [length_asciiToupperBytes, lb]
  have ascii : ∀ c ∈ a.take 4 ++ b.take 4, c < 0x80 := by
    intro c hc
    rcases List.mem_append.mp hc with inA | inB
    · exact asciiA c inA
    · exact asciiB c inB
  have upper := toNat_myAsciiToUpperMagicUint64_ofBytes (by rw [List.length_append, la, lb]) ascii
  rw [asciiToupperBytes_append, ofBytes_append (asciiToupperBytes _), lub] at upper
  have highBelow : ofBytes (asciiToupperBytes (a.take 4)) < 2 ^ 32 := by
    have below := ofBytes_lt (asciiToupperBytes (a.take 4))
    rw [lua] at below
    norm_num at below ⊢
    exact below
  have lowBelow : ofBytes (asciiToupperBytes (b.take 4)) < 2 ^ 32 := by
    have below := ofBytes_lt (asciiToupperBytes (b.take 4))
    rw [lub] at below
    norm_num at below ⊢
    exact below
  -- the upper-cased word holds the upper-cased bytes of `a` in its high half and those of `b` below
  have high : ((myAsciiToUpperMagicUint64 (ofBytes (a.take 4 ++ b.take 4)).toUInt64) >>> 32).toUInt32.toNat =
      ofBytes (asciiToupperBytes (a.take 4)) := by
    rw [UInt64.toNat_toUInt32, UInt64.toNat_shiftRight, upper, show (32 : UInt64).toNat % 64 = 32 from rfl,
      Nat.shiftRight_eq_div_pow]
    norm_num
    omega
  have low : (myAsciiToUpperMagicUint64 (ofBytes (a.take 4 ++ b.take 4)).toUInt64).toUInt32.toNat =
      ofBytes (asciiToupperBytes (b.take 4)) := by
    rw [UInt64.toNat_toUInt32, upper]
    norm_num
    omega
  rw [myStrcollAsciiToupper4bytes_def, miUintKorr_four_shiftLeft_or a b lb,
    memcmp_eq_compare_ofBytes (lua.trans lub.symm), cmpResult_compare_eq_ite, ← high, ← low]
  simp only [UInt32.toNat_inj, UInt32.lt_iff_toNat_lt]

/-- On bytes below 0x80, `my_ascii_to_upper_magic_uint64` upper-cases each byte
of the word on its own, and the two comparisons built on it give the sign of
the comparison of the upper-cased first four or eight bytes. -/
theorem myAsciiToUpperMagic_bytes_and_strcoll :
    (∀ i : UInt64, (∀ k < 8, wordByte i k < 0x80) →
        ∀ k < 8, wordByte (myAsciiToUpperMagicUint64 i) k = asciiToupper (wordByte i k)) ∧
    (∀ a b : List UInt8, 4 ≤ a.length → 4 ≤ b.length → (∀ c ∈ a.take 4, c < 0x80) → (∀ c ∈ b.take 4, c < 0x80) →
        myStrcollAsciiToupper4bytes a b =
          cmpResult (memcmp (asciiToupperBytes (a.take 4)) (asciiToupperBytes (b.take 4)))) ∧
    (∀ a b : List UInt8, 8 ≤ a.length → 8 ≤ b.length → (∀ c ∈ a.take 8, c < 0x80) → (∀ c ∈ b.take 8, c < 0x80) →
        myStrcollAsciiToupper8bytes a b =
          cmpResult (memcmp (asciiToupperBytes (a.take 8)) (asciiToupperBytes (b.take 8)))) :=
  ⟨fun _ ascii _ hk => wordByte_myAsciiToUpperMagicUint64 ascii hk,
    fun _ _ ha hb asciiA asciiB => myStrcollAsciiToupper4bytes_eq ha hb asciiA asciiB,
    fun _ _ ha hb asciiA asciiB => myStrcollAsciiToupper8bytes_eq ha hb asciiA asciiB⟩

/-- "abCD" and "ABcd" compare equal. -/
theorem myAsciiToUpperMagic_bytes_and_strcoll_mixed_case :
    myStrcollAsciiToupper4bytes [0x61, 0x62, 0x43, 0x44] [0x41, 0x42, 0x63, 0x64] = 0 := by
  rw [myAsciiToUpperMagic_bytes_and_strcoll.2.1 _ _ (by decide) (by decide) (by simp) (by simp)]
  decide

end MariaDB.Ctype
