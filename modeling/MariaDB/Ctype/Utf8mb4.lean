import MariaDB.Ctype.Unicode
import MariaDB.Unicode.Utf8

set_option autoImplicit false

/- The utf8mb4 codec of strings/ctype-utf8.c against the shortest form of
UTF-8. The decoder reads exactly the shortest forms of the numbers up to
U+10FFFF, surrogates included, and asks for more bytes exactly when the lead
byte announces more than are left. The encoder writes the shortest form, but
it accepts every number below 0x200000 where the decoder stops at U+10FFFF:
it writes F4 90 80 80 .. F7 BF BF BF for U+110000 .. U+1FFFFF, which the
decoder rejects. -/
namespace MariaDB.Ctype

open Utf8

/-! ## Bytes -/

theorem isContinuationByte_iff (b : UInt8) : isContinuationByte b = true ↔ IsCont b := by
  have byNat : ∀ n < 256, isContinuationByte (UInt8.ofNat n) = true ↔ 0x80 ≤ n ∧ n < 0xc0 := by
    decide +kernel
  have := byNat b.toNat b.toNat_lt
  rwa [UInt8.ofNat_toNat] at this

theorem toNat_xor_cont {b : UInt8} (h : IsCont b) : (b ^^^ 0x80).toNat = b.toNat - 0x80 := by
  have byNat : ∀ n < 256, 0x80 ≤ n → n < 0xc0 → n ^^^ 0x80 = n - 0x80 := by
    decide +kernel
  rw [UInt8.toNat_xor]
  exact byNat b.toNat b.toNat_lt h.1 h.2

theorem toNat_and_mask (b m : UInt8) (k : Nat) (hm : m.toNat = 2 ^ k - 1) : (b &&& m).toNat = b.toNat % 2 ^ k := by
  rw [UInt8.toNat_and, hm, Nat.and_two_pow_sub_one_eq_mod]

/-! ## The codes -/

section
variable {b0 b1 b2 b3 : UInt8}

theorem utf8mb2Code_eq (lead : 0xc0 ≤ b0.toNat ∧ b0.toNat < 0xe0) (c1 : IsCont b1) :
    utf8mb2Code b0 b1 = (b0.toNat - 0xc0) * 64 + (b1.toNat - 0x80) := by
  have low : b1.toNat - 0x80 < 2 ^ 6 := by
    have := c1.2
    omega
  rw [utf8mb2Code, toNat_xor_cont c1, shiftLeft_or_eq_add low, toNat_and_mask b0 0x1f 5 rfl]
  omega

theorem utf8mb3Code_eq (lead : 0xe0 ≤ b0.toNat ∧ b0.toNat < 0xf0) (c1 : IsCont b1) (c2 : IsCont b2) :
    utf8mb3Code b0 b1 b2 = (b0.toNat - 0xe0) * 4096 + (b1.toNat - 0x80) * 64 + (b2.toNat - 0x80) := by
  have mid : b1.toNat - 0x80 < 2 ^ 6 := by
    have := c1.2
    omega
  have low : b2.toNat - 0x80 < 2 ^ 6 := by
    have := c2.2
    omega
  rw [utf8mb3Code, toNat_xor_cont c1, toNat_xor_cont c2, toNat_and_mask b0 0x0f 4 rfl,
    shiftLeft_or_shiftLeft_eq (k := 12) (j := 6) mid rfl, shiftLeft_or_eq_add low]
  omega

theorem utf8mb4Code_eq (lead : 0xf0 ≤ b0.toNat ∧ b0.toNat < 0xf8) (c1 : IsCont b1) (c2 : IsCont b2)
    (c3 : IsCont b3) :
    utf8mb4Code b0 b1 b2 b3 =
      (b0.toNat - 0xf0) * 262144 + (b1.toNat - 0x80) * 4096 + (b2.toNat - 0x80) * 64 + (b3.toNat - 0x80) := by
  have high : b1.toNat - 0x80 < 2 ^ 6 := by
    have := c1.2
    omega
  have mid : b2.toNat - 0x80 < 2 ^ 6 := by
    have := c2.2
    omega
  have low : b3.toNat - 0x80 < 2 ^ 6 := by
    have := c3.2
    omega
  rw [utf8mb4Code, toNat_xor_cont c1, toNat_xor_cont c2, toNat_xor_cont c3, toNat_and_mask b0 0x07 3 rfl,
    shiftLeft_or_shiftLeft_eq (k := 18) (j := 12) high rfl, shiftLeft_or_shiftLeft_eq (k := 12) (j := 6) mid rfl,
    shiftLeft_or_eq_add low]
  omega

end

theorem isUtf8mb3Step2_iff (b0 b1 b2 : UInt8) :
    isUtf8mb3Step2 b0 b1 b2 = true ↔ IsCont b1 ∧ IsCont b2 ∧ (0xe1 ≤ b0.toNat ∨ 0xa0 ≤ b1.toNat) := by
  simp only [isUtf8mb3Step2, Bool.and_eq_true, Bool.or_eq_true, isContinuationByte_iff, decide_eq_true_eq,
    ge_iff_le, UInt8.le_iff_toNat_le, UInt8.reduceToNat, and_assoc]

theorem isUtf8mb4Step2_iff (b0 b1 b2 b3 : UInt8) :
    isUtf8mb4Step2 b0 b1 b2 b3 = true ↔ IsCont b1 ∧ IsCont b2 ∧ IsCont b3 ∧
      (0xf1 ≤ b0.toNat ∨ 0x90 ≤ b1.toNat) ∧ (b0.toNat ≤ 0xf3 ∨ b1.toNat ≤ 0x8f) := by
  simp only [isUtf8mb4Step2, Bool.and_eq_true, Bool.or_eq_true, isContinuationByte_iff, decide_eq_true_eq,
    ge_iff_le, UInt8.le_iff_toNat_le, UInt8.reduceToNat, and_assoc]

/-! ## The decoder -/

section
variable {c b1 b2 b3 : UInt8} (rest : List UInt8)

theorem myMbWcUtf8mb4Quick_one (lead : c.toNat < 0x80) : myMbWcUtf8mb4Quick (c :: rest) = (1, c.toNat) := by
  simp -iota only [myMbWcUtf8mb4Quick_cons, UInt8.lt_iff_toNat_lt, UInt8.reduceToNat]
  rw [if_pos lead]

theorem myMbWcUtf8mb4Quick_two (lead : 0xc2 ≤ c.toNat ∧ c.toNat < 0xe0) (c1 : IsCont b1) :
    myMbWcUtf8mb4Quick (c :: b1 :: rest) = (2, (c.toNat - 0xc0) * 64 + (b1.toNat - 0x80)) := by
  simp -iota only [myMbWcUtf8mb4Quick_cons, UInt8.lt_iff_toNat_lt, UInt8.reduceToNat]
  rw [if_neg (by omega), if_neg (by omega), if_pos lead.2]
  dsimp only
  rw [(isContinuationByte_iff b1).mpr c1, Bool.not_true, if_neg Bool.false_ne_true,
    utf8mb2Code_eq ⟨by omega, lead.2⟩ c1]

theorem myMbWcUtf8mb4Quick_three (lead : 0xe0 ≤ c.toNat ∧ c.toNat < 0xf0) (c1 : IsCont b1) (c2 : IsCont b2)
    (long : 0xe1 ≤ c.toNat ∨ 0xa0 ≤ b1.toNat) :
    myMbWcUtf8mb4Quick (c :: b1 :: b2 :: rest) =
      (3, (c.toNat - 0xe0) * 4096 + (b1.toNat - 0x80) * 64 + (b2.toNat - 0x80)) := by
  simp -iota only [myMbWcUtf8mb4Quick_cons, UInt8.lt_iff_toNat_lt, UInt8.reduceToNat]
  rw [if_neg (by omega), if_neg (by omega), if_neg (by omega), if_pos lead.2]
  dsimp only
  rw [(isUtf8mb3Step2_iff c b1 b2).mpr ⟨c1, c2, long⟩, Bool.not_true, if_neg Bool.false_ne_true,
    utf8mb3Code_eq lead c1 c2]

theorem myMbWcUtf8mb4Quick_four (lead : 0xf0 ≤ c.toNat ∧ c.toNat < 0xf5) (c1 : IsCont b1) (c2 : IsCont b2)
    (c3 : IsCont b3) (long : 0xf1 ≤ c.toNat ∨ 0x90 ≤ b1.toNat) (top : c.toNat ≤ 0xf3 ∨ b1.toNat ≤ 0x8f) :
    myMbWcUtf8mb4Quick (c :: b1 :: b2 :: b3 :: rest) =
      (4, (c.toNat - 0xf0) * 262144 + (b1.toNat - 0x80) * 4096 + (b2.toNat - 0x80) * 64 + (b3.toNat - 0x80)) := by
  simp -iota only [myMbWcUtf8mb4Quick_cons, UInt8.lt_iff_toNat_lt, UInt8.reduceToNat]
  rw [if_neg (by omega), if_neg (by omega), if_neg (by omega), if_neg (by omega), if_pos lead.2]
  dsimp only
  rw [(isUtf8mb4Step2_iff c b1 b2 b3).mpr ⟨c1, c2, c3, long, top⟩, Bool.not_true, if_neg Bool.false_ne_true,
    utf8mb4Code_eq ⟨lead.1, by omega⟩ c1 c2 c3]

end

/-- Everything `my_mb_wc_utf8mb4_quick` can return: a request for the bytes
the lead byte announces, the shortest form of a number up to U+10FFFF with its
length, or `MY_CS_ILSEQ`. -/
theorem myMbWcUtf8mb4Quick_cases (s : List UInt8) :
    (TooShort s ∧ myMbWcUtf8mb4Quick s = (myCsToosmallN (needed s), 0)) ∨
      (¬TooShort s ∧ ∃ wc rest, wc ≤ 0x10ffff ∧ s = encode wc ++ rest ∧
        myMbWcUtf8mb4Quick s = ((size wc : Int), wc)) ∨
      (¬TooShort s ∧ myMbWcUtf8mb4Quick s = (myCsIlseq, 0)) := by
  rcases s with _ | ⟨c, rest⟩
  · exact Or.inl ⟨trivial, rfl⟩
  have := c.toNat_lt
  simp -iota only [myMbWcUtf8mb4Quick_cons, UInt8.lt_iff_toNat_lt, UInt8.reduceToNat]
  split_ifs with ascii low two three four
  · refine Or.inr (Or.inl ⟨?_, c.toNat, rest, by omega, ?_, ?_⟩)
    · simp only [TooShort, leadLength, if_pos ascii]
      omega
    · rw [encode_one (by omega), UInt8.ofNat_toNat, List.singleton_append]
    · rw [size, if_pos (by omega)]
      rfl
  · refine Or.inr (Or.inr ⟨?_, rfl⟩)
    simp only [TooShort, leadLength, if_neg ascii, if_pos low]
    omega
  · have lead : leadLength c = 2 := by
      rw [leadLength, if_neg ascii, if_neg low, if_pos two]
    rcases rest with _ | ⟨b1, rest⟩
    · refine Or.inl ⟨?_, ?_⟩
      · simp only [TooShort, lead, List.length_nil]
        omega
      · simp only [needed, lead]
    by_cases c1 : IsCont b1
    · have v := utf8mb2Code_eq ⟨by omega, two⟩ c1
      obtain ⟨lo1, hi1⟩ := c1
      refine Or.inr (Or.inl ⟨?_, (c.toNat - 0xc0) * 64 + (b1.toNat - 0x80), rest, by omega, ?_, ?_⟩)
      · simp only [TooShort, lead, List.length_cons]
        omega
      · rw [encode_of_two ⟨by omega, two⟩ ⟨lo1, hi1⟩]
        rfl
      · have cont : isContinuationByte b1 = true := (isContinuationByte_iff b1).mpr ⟨lo1, hi1⟩
        dsimp only
        rw [cont, Bool.not_true, if_neg Bool.false_ne_true, v, size, if_neg (by omega), if_pos (by omega)]
        rfl
    · refine Or.inr (Or.inr ⟨?_, ?_⟩)
      · simp only [TooShort, lead, List.length_cons]
        omega
      · have cont : isContinuationByte b1 = false := by
          rw [← Bool.not_eq_true, isContinuationByte_iff]
          exact c1
        dsimp only
        rw [cont, Bool.not_false, if_pos rfl]
  · have lead : leadLength c = 3 := by
      rw [leadLength, if_neg ascii, if_neg low, if_neg two, if_pos three]
    rcases rest with _ | ⟨b1, _ | ⟨b2, rest⟩⟩
    · refine Or.inl ⟨?_, ?_⟩
      · simp only [TooShort, lead, List.length_nil]
        omega
      · simp only [needed, lead]
    · refine Or.inl ⟨?_, ?_⟩
      · simp only [TooShort, lead, List.length_cons, List.length_nil]
        omega
      · simp only [needed, lead]
    dsimp only
    by_cases valid : IsCont b1 ∧ IsCont b2 ∧ (0xe1 ≤ c.toNat ∨ 0xa0 ≤ b1.toNat)
    · obtain ⟨c1, c2, short⟩ := valid
      have v := utf8mb3Code_eq ⟨by omega, three⟩ c1 c2
      have step : isUtf8mb3Step2 c b1 b2 = true := (isUtf8mb3Step2_iff c b1 b2).mpr ⟨c1, c2, short⟩
      obtain ⟨lo1, hi1⟩ := c1
      obtain ⟨lo2, hi2⟩ := c2
      have long : 0x7ff < (c.toNat - 0xe0) * 4096 + (b1.toNat - 0x80) * 64 + (b2.toNat - 0x80) := by omega
      refine Or.inr (Or.inl ⟨?_, (c.toNat - 0xe0) * 4096 + (b1.toNat - 0x80) * 64 + (b2.toNat - 0x80), rest,
        by omega, ?_, ?_⟩)
      · simp only [TooShort, lead, List.length_cons]
        omega
      · rw [encode_of_three ⟨by omega, three⟩ ⟨lo1, hi1⟩ ⟨lo2, hi2⟩ long]
        rfl
      · rw [step, Bool.not_true, if_neg Bool.false_ne_true, v, size, if_neg (by omega), if_neg (by omega),
          if_pos (by omega)]
        rfl
    · refine Or.inr (Or.inr ⟨?_, ?_⟩)
      · simp only [TooShort, lead, List.length_cons]
        omega
      · have step : isUtf8mb3Step2 c b1 b2 = false := by
          rw [← Bool.not_eq_true, isUtf8mb3Step2_iff]
          exact valid
        rw [step, Bool.not_false, if_pos rfl]
  · have lead : leadLength c = 4 := by
      rw [leadLength, if_neg ascii, if_neg low, if_neg two, if_neg three, if_pos four]
    rcases rest with _ | ⟨b1, _ | ⟨b2, _ | ⟨b3, rest⟩⟩⟩
    · refine Or.inl ⟨?_, ?_⟩
      · simp only [TooShort, lead, List.length_nil]
        omega
      · simp only [needed, lead]
    · refine Or.inl ⟨?_, ?_⟩
      · simp only [TooShort, lead, List.length_cons, List.length_nil]
        omega
      · simp only [needed, lead]
    · refine Or.inl ⟨?_, ?_⟩
      · simp only [TooShort, lead, List.length_cons, List.length_nil]
        omega
      · simp only [needed, lead]
    dsimp only
    by_cases valid : IsCont b1 ∧ IsCont b2 ∧ IsCont b3 ∧ (0xf1 ≤ c.toNat ∨ 0x90 ≤ b1.toNat) ∧
        (c.toNat ≤ 0xf3 ∨ b1.toNat ≤ 0x8f)
    · obtain ⟨c1, c2, c3, short, top⟩ := valid
      have v := @utf8mb4Code_eq c b1 b2 b3 ⟨by omega, by omega⟩ c1 c2 c3
      have step : isUtf8mb4Step2 c b1 b2 b3 = true := (isUtf8mb4Step2_iff c b1 b2 b3).mpr ⟨c1, c2, c3, short, top⟩
      obtain ⟨lo1, hi1⟩ := c1
      obtain ⟨lo2, hi2⟩ := c2
      obtain ⟨lo3, hi3⟩ := c3
      have long : 0xffff < (c.toNat - 0xf0) * 262144 + (b1.toNat - 0x80) * 4096 + (b2.toNat - 0x80) * 64 +
          (b3.toNat - 0x80) := by omega
      refine Or.inr (Or.inl ⟨?_, (c.toNat - 0xf0) * 262144 + (b1.toNat - 0x80) * 4096 + (b2.toNat - 0x80) * 64 +
        (b3.toNat - 0x80), rest, by omega, ?_, ?_⟩)
      · simp only [TooShort, lead, List.length_cons]
        omega
      · rw [encode_of_four ⟨by omega, by omega⟩ ⟨lo1, hi1⟩ ⟨lo2, hi2⟩ ⟨lo3, hi3⟩ long]
        rfl
      · rw [step, Bool.not_true, if_neg Bool.false_ne_true, v, size, if_neg (by omega), if_neg (by omega),
          if_neg (by omega)]
        rfl
    · refine Or.inr (Or.inr ⟨?_, ?_⟩)
      · simp only [TooShort, lead, List.length_cons]
        omega
      · have step : isUtf8mb4Step2 c b1 b2 b3 = false := by
          rw [← Bool.not_eq_true, isUtf8mb4Step2_iff]
          exact valid
        rw [step, Bool.not_false, if_pos rfl]
  · refine Or.inr (Or.inr ⟨?_, rfl⟩)
    simp only [TooShort, leadLength, if_neg ascii, if_neg low, if_neg two, if_neg three, if_neg four]
    omega


theorem toNat_ofNat_of_lt {n : Nat} (h : n < 256) : (UInt8.ofNat n).toNat = n := by
  rw [UInt8.toNat_ofNat']
  omega

theorem isCont_ofNat {n : Nat} (lo : 0x80 ≤ n) (hi : n < 0xc0) : IsCont (UInt8.ofNat n) := by
  rw [IsCont, toNat_ofNat_of_lt (by omega)]
  exact ⟨lo, hi⟩

/-- The decoder reads the shortest form of every number up to U+10FFFF,
surrogates included, whatever follows it. -/
theorem myMbWcUtf8mb4Quick_encode {wc : Nat} (h : wc ≤ 0x10ffff) (rest : List UInt8) :
    myMbWcUtf8mb4Quick (encode wc ++ rest) = ((size wc : Int), wc) := by
  by_cases one : wc ≤ 0x7f
  · have t0 := toNat_ofNat_of_lt (n := wc) (by omega)
    rw [encode_one one, List.singleton_append, myMbWcUtf8mb4Quick_one rest (by omega), t0, size, if_pos one]
    rfl
  by_cases two : wc ≤ 0x7ff
  · have t0 := toNat_ofNat_of_lt (n := 0xc0 + wc / 64) (by omega)
    have t1 := toNat_ofNat_of_lt (n := 0x80 + wc % 64) (by omega)
    rw [encode_two (by omega) two, List.cons_append, List.cons_append, List.nil_append,
      myMbWcUtf8mb4Quick_two rest (by omega) (isCont_ofNat (by omega) (by omega))]
    have sz : size wc = 2 := by rw [size, if_neg one, if_pos two]
    refine Prod.ext (by rw [sz]; rfl) ?_
    dsimp only
    omega
  by_cases three : wc ≤ 0xffff
  · have t0 := toNat_ofNat_of_lt (n := 0xe0 + wc / 4096) (by omega)
    have t1 := toNat_ofNat_of_lt (n := 0x80 + wc / 64 % 64) (by omega)
    have t2 := toNat_ofNat_of_lt (n := 0x80 + wc % 64) (by omega)
    rw [encode_three (by omega) three, List.cons_append, List.cons_append, List.cons_append, List.nil_append,
      myMbWcUtf8mb4Quick_three rest (by omega) (isCont_ofNat (by omega) (by omega))
        (isCont_ofNat (by omega) (by omega)) (by omega)]
    have sz : size wc = 3 := by rw [size, if_neg one, if_neg two, if_pos three]
    refine Prod.ext (by rw [sz]; rfl) ?_
    dsimp only
    omega
  · have t0 := toNat_ofNat_of_lt (n := 0xf0 + wc / 262144) (by omega)
    have t1 := toNat_ofNat_of_lt (n := 0x80 + wc / 4096 % 64) (by omega)
    have t2 := toNat_ofNat_of_lt (n := 0x80 + wc / 64 % 64) (by omega)
    have t3 := toNat_ofNat_of_lt (n := 0x80 + wc % 64) (by omega)
    rw [encode_four (by omega) (by omega), List.cons_append, List.cons_append, List.cons_append, List.cons_append,
      List.nil_append,
      myMbWcUtf8mb4Quick_four rest (by omega) (isCont_ofNat (by omega) (by omega))
        (isCont_ofNat (by omega) (by omega)) (isCont_ofNat (by omega) (by omega)) (by omega) (by omega)]
    have sz : size wc = 4 := by rw [size, if_neg one, if_neg two, if_neg three]
    refine Prod.ext (by rw [sz]; rfl) ?_
    dsimp only
    omega

/-- `my_charlen_utf8mb4` returns the length `my_mb_wc_utf8mb4` reads, or the
same error. -/
theorem myCharlenUtf8mb4_eq (s : List UInt8) : myCharlenUtf8mb4 s = (myMbWcUtf8mb4Quick s).1 := by
  rcases s with _ | ⟨c, _ | ⟨b1, _ | ⟨b2, _ | ⟨b3, rest⟩⟩⟩⟩ <;>
    simp only [myCharlenUtf8mb4, myValidMbcharlenUtf8mb3, myMbWcUtf8mb4Quick_nil, myMbWcUtf8mb4Quick_cons,
      UInt8.lt_iff_toNat_lt,
      UInt8.reduceToNat] <;>
    split_ifs <;> first | rfl | omega

theorem size_pos (v : Nat) : 0 < size v := by
  unfold size
  split_ifs <;> omega

/-- A positive length is read off the shortest form of a number up to
U+10FFFF. -/
theorem myMbWcUtf8mb4Quick_pos {s : List UInt8} (pos : 0 < (myMbWcUtf8mb4Quick s).1) :
    (myMbWcUtf8mb4Quick s).2 ≤ 0x10ffff ∧ ∃ rest, s = encode (myMbWcUtf8mb4Quick s).2 ++ rest := by
  rcases myMbWcUtf8mb4Quick_cases s with ⟨-, result⟩ | ⟨-, wc, rest, top, split, result⟩ | ⟨-, result⟩
  · rw [result, myCsToosmallN] at pos
    omega
  · rw [result]
    exact ⟨top, rest, split⟩
  · rw [result, myCsIlseq] at pos
    omega

/-- The decoder asks for more bytes exactly when the lead byte announces more
than are left, and then for as many as it announces. -/
theorem myMbWcUtf8mb4Quick_short (s : List UInt8) :
    ((myMbWcUtf8mb4Quick s).1 < 0 ↔ TooShort s) ∧
      (TooShort s → myMbWcUtf8mb4Quick s = (myCsToosmallN (needed s), 0)) := by
  rcases myMbWcUtf8mb4Quick_cases s with ⟨short, result⟩ | ⟨long, wc, rest, -, -, result⟩ | ⟨long, result⟩
  · refine ⟨⟨fun _ => short, fun _ => ?_⟩, fun _ => result⟩
    rw [result, myCsToosmallN]
    omega
  · have := size_pos wc
    rw [result]
    exact ⟨⟨fun neg => absurd neg (by omega), fun short => absurd short long⟩, fun short => absurd short long⟩
  · rw [result, myCsIlseq]
    exact ⟨⟨fun neg => absurd neg (by decide), fun short => absurd short long⟩, fun short => absurd short long⟩

/-- Any other input is `MY_CS_ILSEQ`. -/
theorem myMbWcUtf8mb4Quick_ilseq {s : List UInt8} (long : ¬TooShort s)
    (none : ¬∃ wc rest, wc ≤ 0x10ffff ∧ s = encode wc ++ rest) : myMbWcUtf8mb4Quick s = (myCsIlseq, 0) := by
  rcases myMbWcUtf8mb4Quick_cases s with ⟨short, -⟩ | ⟨-, wc, rest, top, split, -⟩ | ⟨-, result⟩
  · exact absurd short long
  · exact absurd ⟨wc, rest, top, split⟩ none
  · exact result

/-! ## The encoder -/

theorem lowBits (w : Nat) : 0x80 ||| (w &&& 0x3f) = 0x80 + w % 64 := by
  have split := shiftLeft_or_eq_add (a := 2) (Nat.mod_lt w (show 0 < 2 ^ 6 by decide))
  rw [show (0x3f : Nat) = 2 ^ 6 - 1 from rfl, Nat.and_two_pow_sub_one_eq_mod]
  exact split

theorem wcMbUtf8mb4Bytes_two {w : Nat} (hw : w < 0x1000) :
    wcMbUtf8mb4Bytes 2 w = [UInt8.ofNat (0xc0 + w / 64), UInt8.ofNat (0x80 + w % 64)] := by
  have high : w >>> 6 < 2 ^ 6 := by
    rw [Nat.shiftRight_eq_div_pow]
    omega
  simp only [wcMbUtf8mb4Bytes_eq_two, wcMbUtf8mb4Bytes_one, List.singleton_append, lowBits]
  rw [show (0xc0 : Nat) = 3 <<< 6 from rfl, or_shiftLeft_eq_add high, Nat.shiftRight_eq_div_pow]
  rfl

theorem wcMbUtf8mb4Bytes_three {w : Nat} (hw : w < 0x20000) :
    wcMbUtf8mb4Bytes 3 w =
      [UInt8.ofNat (0xe0 + w / 4096), UInt8.ofNat (0x80 + w / 64 % 64), UInt8.ofNat (0x80 + w % 64)] := by
  have high : w >>> 6 < 2 ^ 11 := by
    rw [Nat.shiftRight_eq_div_pow]
    omega
  have next : (w >>> 6) ||| 0x800 = 0x800 + w / 64 := by
    rw [show (0x800 : Nat) = 1 <<< 11 from rfl, or_shiftLeft_eq_add high, Nat.shiftRight_eq_div_pow]
    omega
  rw [wcMbUtf8mb4Bytes_eq_three, next, lowBits, wcMbUtf8mb4Bytes_two (by omega)]
  simp only [List.cons_append, List.nil_append, List.cons.injEq, and_true]
  refine ⟨?_, ?_⟩ <;> congr 1 <;> omega

theorem wcMbUtf8mb4Bytes_four {w : Nat} (hw : w < 0x200000) :
    wcMbUtf8mb4Bytes 4 w =
      [UInt8.ofNat (0xf0 + w / 262144), UInt8.ofNat (0x80 + w / 4096 % 64), UInt8.ofNat (0x80 + w / 64 % 64),
        UInt8.ofNat (0x80 + w % 64)] := by
  have high : w >>> 6 < 2 ^ 16 := by
    rw [Nat.shiftRight_eq_div_pow]
    omega
  have next : (w >>> 6) ||| 0x10000 = 0x10000 + w / 64 := by
    rw [show (0x10000 : Nat) = 1 <<< 16 from rfl, or_shiftLeft_eq_add high, Nat.shiftRight_eq_div_pow]
    omega
  rw [wcMbUtf8mb4Bytes_eq_four, next, lowBits, wcMbUtf8mb4Bytes_three (by omega)]
  simp only [List.cons_append, List.nil_append, List.cons.injEq, and_true]
  refine ⟨?_, ?_, ?_⟩ <;> congr 1 <;> omega

/-- The bytes of the `switch` are the shortest form, for every number the
encoder takes. -/
theorem wcMbUtf8mb4Bytes_size {wc : Nat} (h : wc < 0x200000) : wcMbUtf8mb4Bytes (size wc) wc = encode wc := by
  unfold size
  split_ifs with one two three
  · simp [encode_one one]
  · rw [wcMbUtf8mb4Bytes_two (by omega), encode_two (by omega) two]
  · rw [wcMbUtf8mb4Bytes_three (by omega), encode_three (by omega) three]
  · rw [wcMbUtf8mb4Bytes_four h, encode_four (by omega) h]

/-- Below `0x200000` the encoder writes the shortest form, or asks for its
length when the room is short; with no room at all it asks for one byte. -/
theorem myWcMbUtf8mb4_eq {wc : Nat} (h : wc < 0x200000) (room : Nat) :
    myWcMbUtf8mb4 wc room =
      if room = 0 then (myCsToosmall, [])
      else if room < size wc then (myCsToosmallN (size wc), []) else ((size wc : Int), encode wc) := by
  have count : (if wc < 0x80 then 1 else if wc < 0x800 then 2 else if wc < 0x10000 then 3
      else if wc < 0x200000 then 4 else 0) = size wc := by
    unfold size
    split_ifs <;> omega
  have pos : size wc ≠ 0 := by
    unfold size
    split_ifs <;> omega
  simp only [myWcMbUtf8mb4, count, if_neg pos, wcMbUtf8mb4Bytes_size h]

/-- The encoder gives bytes to U+110000, above the last code point, and the
decoder rejects them; and with no room it asks for one byte where the three
bytes of U+0800 are needed. -/
theorem myWcMbUtf8mb4_above_max :
    myWcMbUtf8mb4 0x110000 4 = (4, [0xf4, 0x90, 0x80, 0x80]) ∧
      myMbWcUtf8mb4Quick [0xf4, 0x90, 0x80, 0x80] = (myCsIlseq, 0) ∧
      myWcMbUtf8mb4 0x800 0 = (myCsToosmall, []) ∧ myCsToosmall ≠ myCsToosmallN 3 := by
  refine ⟨?_, by decide, by decide, by decide⟩
  rw [myWcMbUtf8mb4_eq (by decide)]
  decide

/-- The utf8mb4 conversions on U+0000 .. U+10FFFF: the encoder writes the
shortest form or asks for room, the decoder and `my_charlen_utf8mb4` read
it back, a positive length is only ever read off such a form, the decoder asks
for more bytes exactly when the lead byte announces more than are left, and
answers `MY_CS_ILSEQ` to everything else. -/
theorem utf8mb4_shortest_form :
    (∀ wc, wc ≤ 0x10ffff → ∀ room, myWcMbUtf8mb4 wc room =
        if room = 0 then (myCsToosmall, [])
        else if room < size wc then (myCsToosmallN (size wc), []) else ((size wc : Int), encode wc)) ∧
      (∀ wc, wc ≤ 0x10ffff → ∀ rest, myMbWcUtf8mb4Quick (encode wc ++ rest) = ((size wc : Int), wc) ∧
        myCharlenUtf8mb4 (encode wc ++ rest) = size wc) ∧
      (∀ s, 0 < (myMbWcUtf8mb4Quick s).1 →
        (myMbWcUtf8mb4Quick s).2 ≤ 0x10ffff ∧ ∃ rest, s = encode (myMbWcUtf8mb4Quick s).2 ++ rest) ∧
      (∀ s, ((myMbWcUtf8mb4Quick s).1 < 0 ↔ TooShort s) ∧
        (TooShort s → myMbWcUtf8mb4Quick s = (myCsToosmallN (needed s), 0))) ∧
      (∀ s, ¬TooShort s → (¬∃ wc rest, wc ≤ 0x10ffff ∧ s = encode wc ++ rest) →
        myMbWcUtf8mb4Quick s = (myCsIlseq, 0)) := by
  refine ⟨fun wc h room => myWcMbUtf8mb4_eq (by omega) room, fun wc h rest => ?_,
    fun _ pos => myMbWcUtf8mb4Quick_pos pos, myMbWcUtf8mb4Quick_short, fun _ long none => myMbWcUtf8mb4Quick_ilseq long none⟩
  have read := myMbWcUtf8mb4Quick_encode h rest
  rw [myCharlenUtf8mb4_eq, read]
  exact ⟨rfl, rfl⟩

end MariaDB.Ctype
