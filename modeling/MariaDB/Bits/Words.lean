import Mathlib.Data.List.GetD
import MariaDB.Bytes.LittleEndian

set_option autoImplicit false

/- Finite sets of natural numbers held in lists of 64-bit words. Word `k`
holds the members `64 * k` to `64 * k + 63`, member `64 * k + j` as its bit
`j`. Read as one number, base `2 ^ 64` with the first word least
significant, the list holds member `i` exactly when bit `i` of the number is
set; an operation done word by word is then the same operation on every
member, and a test of every word a test of every member. -/
namespace Words

open LittleEndian (toBytes ofBytes)

/-- Bit `j` of a word. -/
def wordBit (w : UInt64) (j : Nat) : Bool := w.toNat.testBit j

theorem wordBit_def (w : UInt64) (j : Nat) : wordBit w j = w.toNat.testBit j := rfl

/-- The number the words denote, the first word least significant. -/
def value : List UInt64 → Nat
  | [] => 0
  | w :: ws => w.toNat + 2 ^ 64 * value ws

/-- Whether the words hold member `i`. -/
def bit (ws : List UInt64) (i : Nat) : Bool := (value ws).testBit i

/-- The word whose bits below `k` are set, `(1 << k) - 1`. -/
def lowMask (k : Nat) : UInt64 := ((1 : UInt64) <<< k.toUInt64) - 1

section WordBits

variable {w v : UInt64} {j k : Nat}

@[simp] theorem wordBit_and : wordBit (w &&& v) j = (wordBit w j && wordBit v j) := by
  simp [wordBit_def]

@[simp] theorem wordBit_or : wordBit (w ||| v) j = (wordBit w j || wordBit v j) := by
  simp [wordBit_def]

@[simp] theorem wordBit_xor : wordBit (w ^^^ v) j = (wordBit w j ^^ wordBit v j) := by
  simp [wordBit_def]

@[simp] theorem wordBit_zero : wordBit 0 j = false := by
  simp [wordBit_def]

@[simp] theorem wordBit_not : wordBit (~~~w) j = (decide (j < 64) && !wordBit w j) := by
  have hnot : (~~~w).toNat = 2 ^ 64 - (w.toNat + 1) := by
    rw [UInt64.toNat_not, UInt64.size]
    omega
  rw [wordBit_def, hnot, Nat.testBit_two_pow_sub_succ w.toNat_lt, wordBit_def]

theorem wordBit_shiftRight {s : UInt64} (hs : s.toNat < 64) : wordBit (w >>> s) j = wordBit w (s.toNat + j) := by
  rw [wordBit_def, UInt64.toNat_shiftRight, Nat.mod_eq_of_lt hs, Nat.testBit_shiftRight, wordBit_def]

theorem wordBit_of_le (h : 64 ≤ j) : wordBit w j = false :=
  Nat.testBit_lt_two_pow (lt_of_lt_of_le w.toNat_lt (Nat.pow_le_pow_right (by decide) h))

theorem toNat_shiftLeft_one (hk : k < 64) : ((1 : UInt64) <<< k.toUInt64).toNat = 2 ^ k := by
  have hpow : 2 ^ k < 2 ^ 64 := Nat.pow_lt_pow_right (by decide) hk
  simp [UInt64.toNat_shiftLeft, UInt64.toNat_ofNat, Nat.mod_eq_of_lt hk, Nat.one_shiftLeft]
  exact hpow

theorem toNat_lowMask (hk : k < 64) : (lowMask k).toNat = 2 ^ k - 1 := by
  have hshift := toNat_shiftLeft_one hk
  have hle : (1 : UInt64) ≤ (1 : UInt64) <<< k.toUInt64 := by
    rw [UInt64.le_iff_toNat_le, hshift]
    exact Nat.one_le_two_pow
  rw [lowMask, UInt64.toNat_sub_of_le _ _ hle, hshift]
  rfl

@[simp] theorem wordBit_lowMask (hk : k < 64) : wordBit (lowMask k) j = decide (j < k) := by
  rw [wordBit_def, toNat_lowMask hk, Nat.testBit_two_pow_sub_one]

@[simp] theorem wordBit_shiftLeft_one (hk : k < 64) :
    wordBit ((1 : UInt64) <<< k.toUInt64) j = decide (k = j) := by
  rw [wordBit_def, toNat_shiftLeft_one hk, Nat.testBit_two_pow]

/-- Two words are equal when their 64 bits are. -/
theorem word_ext (h : ∀ j < 64, wordBit w j = wordBit v j) : w = v := by
  apply UInt64.toNat_inj.mp
  apply Nat.eq_of_testBit_eq
  intro j
  by_cases hj : j < 64
  · exact h j hj
  · rw [← wordBit_def, ← wordBit_def, wordBit_of_le (by omega), wordBit_of_le (by omega)]

theorem word_eq_iff : w = v ↔ ∀ j < 64, wordBit w j = wordBit v j :=
  ⟨fun h _ _ => h ▸ rfl, word_ext⟩

theorem eq_zero_iff : w = 0 ↔ ∀ j < 64, wordBit w j = false := by
  simp [word_eq_iff]

/-- A word masked by a single bit is zero exactly when that bit is clear. -/
theorem and_shiftLeft_one_eq_zero_iff (hk : k < 64) :
    w &&& (1 : UInt64) <<< k.toUInt64 = 0 ↔ wordBit w k = false := by
  rw [eq_zero_iff]
  simp only [wordBit_and, wordBit_shiftLeft_one hk]
  constructor
  · intro h
    simpa using h k hk
  · intro h j _
    by_cases hkj : k = j
    · subst hkj
      simp [h]
    · simp [hkj]

theorem eq_allOnes_iff : w = ~~~0 ↔ ∀ j < 64, wordBit w j = true := by
  rw [word_eq_iff]
  apply forall_congr'
  intro j
  apply imp_congr_right
  intro hj
  rw [wordBit_not, wordBit_zero, decide_eq_true hj, Bool.not_false, Bool.and_true]

end WordBits

section Value

variable {w : UInt64} {ws : List UInt64} {i : Nat}

@[simp] theorem value_nil : value [] = 0 := rfl

@[simp] theorem value_cons (w : UInt64) (ws : List UInt64) :
    value (w :: ws) = w.toNat + 2 ^ 64 * value ws := rfl

theorem value_lt (ws : List UInt64) : value ws < 2 ^ (64 * ws.length) := by
  induction ws with
  | nil => simp
  | cons w ws ih =>
    have hw := w.toNat_lt
    rw [value_cons, List.length_cons]
    calc w.toNat + 2 ^ 64 * value ws
        < 2 ^ 64 * (value ws + 1) := by omega
      _ ≤ 2 ^ 64 * 2 ^ (64 * ws.length) := Nat.mul_le_mul_left _ ih
      _ = 2 ^ (64 * (ws.length + 1)) := by rw [Nat.mul_succ, Nat.pow_add, Nat.mul_comm]

/-- Equal-length word lists that denote the same number are equal. -/
theorem value_inj {vs : List UInt64} (hlen : ws.length = vs.length) (h : value ws = value vs) :
    ws = vs := by
  induction ws generalizing vs with
  | nil => exact (List.length_eq_zero_iff.mp hlen.symm).symm
  | cons w ws ih =>
    obtain ⟨v, vs, rfl⟩ := List.exists_cons_of_length_eq_add_one hlen.symm
    have hw := w.toNat_lt
    have hv := v.toNat_lt
    rw [value_cons, value_cons] at h
    have hlow : w.toNat = v.toNat := by omega
    have hhigh : value ws = value vs := by omega
    rw [UInt64.toNat_inj.mp hlow, ih (by simpa using hlen) hhigh]

@[simp] theorem bit_nil : bit [] i = false := by
  simp [bit]

theorem bit_cons : bit (w :: ws) i = if i < 64 then wordBit w i else bit ws (i - 64) := by
  rw [bit, value_cons, Nat.add_comm, Nat.testBit_two_pow_mul_add _ w.toNat_lt]
  rfl

@[simp] theorem bit_cons_of_lt (h : i < 64) : bit (w :: ws) i = wordBit w i := by
  rw [bit_cons, if_pos h]

@[simp] theorem bit_cons_add : bit (w :: ws) (i + 64) = bit ws i := by
  rw [bit_cons, if_neg (by omega), Nat.add_sub_cancel]

theorem bit_of_le (h : 64 * ws.length ≤ i) : bit ws i = false :=
  Nat.testBit_lt_two_pow (lt_of_lt_of_le (value_lt ws) (Nat.pow_le_pow_right (by decide) h))

/-- Equal-length word lists holding the same members are equal. -/
theorem ext_bit {vs : List UInt64} (hlen : ws.length = vs.length) (h : ∀ i, bit ws i = bit vs i) :
    ws = vs :=
  value_inj hlen (Nat.eq_of_testBit_eq h)

@[simp] theorem bit_singleton : bit [w] i = wordBit w i := by
  rw [bit_cons]
  split_ifs with h
  · rfl
  · rw [bit_nil, wordBit_of_le (by omega)]

theorem bit_append {vs : List UInt64} :
    bit (ws ++ vs) i = if i < 64 * ws.length then bit ws i else bit vs (i - 64 * ws.length) := by
  induction ws generalizing i with
  | nil => simp
  | cons w ws ih =>
    rw [List.cons_append, bit_cons, bit_cons, ih]
    by_cases h : i < 64
    · have hlt : i < 64 * (ws.length + 1) := by omega
      simp [h, hlt]
    · have hsub : i - 64 - 64 * ws.length = i - 64 * (ws.length + 1) := by omega
      simp only [h, ↓reduceIte, List.length_cons, hsub]
      split_ifs <;> first | rfl | omega

/-- Member `i` is bit `i % 64` of word `i / 64`. -/
theorem bit_eq_getD : bit ws i = wordBit (ws.getD (i / 64) 0) (i % 64) := by
  induction ws generalizing i with
  | nil => simp
  | cons w ws ih =>
    rw [bit_cons]
    split_ifs with h
    · rw [Nat.div_eq_of_lt h, Nat.mod_eq_of_lt h]
      rfl
    · obtain ⟨q, hq⟩ : ∃ q, i / 64 = q + 1 := ⟨i / 64 - 1, by omega⟩
      rw [ih, hq, List.getD_cons_succ]
      have hdiv : (i - 64) / 64 = q := by omega
      have hmod : (i - 64) % 64 = i % 64 := by omega
      rw [hdiv, hmod]

@[simp] theorem bit_replicate_zero (n : Nat) : bit (List.replicate n 0) i = false := by
  induction n generalizing i with
  | zero => simp
  | succ n ih => simp [List.replicate_succ, bit_cons, ih]

@[simp] theorem bit_replicate_allOnes (n : Nat) :
    bit (List.replicate n (~~~0)) i = decide (i < 64 * n) := by
  induction n generalizing i with
  | zero => simp
  | succ n ih =>
    rw [List.replicate_succ, bit_cons, ih]
    by_cases h : i < 64
    · have hlt : i < 64 * (n + 1) := by omega
      rw [if_pos h, wordBit_not, wordBit_zero]
      simp [h, hlt]
    · simp only [h, ↓reduceIte, decide_eq_decide]
      omega

theorem bit_take (k : Nat) : bit (ws.take k) i = (decide (i < 64 * k) && bit ws i) := by
  induction ws generalizing i k with
  | nil => simp
  | cons w ws ih =>
    cases k with
    | zero => simp
    | succ k =>
      rw [List.take_succ_cons, bit_cons, bit_cons, ih]
      by_cases h : i < 64
      · simp [h]; omega
      · simp only [h, ↓reduceIte]
        congr 1
        simp only [decide_eq_decide]
        omega

theorem bit_drop (k : Nat) : bit (ws.drop k) i = bit ws (i + 64 * k) := by
  induction ws generalizing i k with
  | nil => simp
  | cons w ws ih =>
    cases k with
    | zero => simp
    | succ k =>
      rw [List.drop_succ_cons, ih, bit_cons, if_neg (by omega),
        show i + 64 * (k + 1) - 64 = i + 64 * k by omega]

/-- A word-by-word operation acts on each member, over the words of the
shorter list, as its bitwise counterpart. -/
theorem bit_zipWith {vs : List UInt64} {f : UInt64 → UInt64 → UInt64} {g : Bool → Bool → Bool}
    (hf : ∀ a b j, j < 64 → wordBit (f a b) j = g (wordBit a j) (wordBit b j)) :
    bit (List.zipWith f ws vs) i =
      (decide (i < 64 * min ws.length vs.length) && g (bit ws i) (bit vs i)) := by
  induction ws generalizing vs i with
  | nil => simp
  | cons w ws ih =>
    cases vs with
    | nil => simp
    | cons v vs =>
      rw [List.zipWith_cons_cons, bit_cons, bit_cons, bit_cons, ih, List.length_cons,
        List.length_cons]
      by_cases h : i < 64
      · have hlt : i < 64 * (min ws.length vs.length + 1) := by omega
        simp [h, hlt, hf w v i h]
      · simp only [h, ↓reduceIte]
        congr 1
        simp only [decide_eq_decide]
        omega

theorem bit_zipWith_of_length_eq {vs : List UInt64} {f : UInt64 → UInt64 → UInt64}
    {g : Bool → Bool → Bool} (hf : ∀ a b j, j < 64 → wordBit (f a b) j = g (wordBit a j) (wordBit b j))
    (hg : g false false = false) (hlen : ws.length = vs.length) :
    bit (List.zipWith f ws vs) i = g (bit ws i) (bit vs i) := by
  rw [bit_zipWith hf, hlen, Nat.min_self]
  by_cases h : i < 64 * vs.length
  · simp [h]
  · rw [decide_eq_false h, Bool.false_and, bit_of_le (by omega), bit_of_le (by omega), hg]

/-- A word-by-word map acts on each member of the words it covers. -/
theorem bit_map {f : UInt64 → UInt64} {g : Bool → Bool}
    (hf : ∀ a j, j < 64 → wordBit (f a) j = g (wordBit a j)) :
    bit (ws.map f) i = (decide (i < 64 * ws.length) && g (bit ws i)) := by
  induction ws generalizing i with
  | nil => simp
  | cons w ws ih =>
    rw [List.map_cons, bit_cons, bit_cons, ih, List.length_cons]
    by_cases h : i < 64
    · simp only [h, ↓reduceIte, hf w i h]
      have : i < 64 * (ws.length + 1) := by omega
      simp [this]
    · simp only [h, ↓reduceIte]
      congr 1
      simp only [decide_eq_decide]
      omega

theorem bit_modify {k : Nat} (f : UInt64 → UInt64) (hk : k < ws.length) :
    bit (ws.modify k f) i = if i / 64 = k then wordBit (f (ws.getD k 0)) (i % 64) else bit ws i := by
  by_cases h : i / 64 = k
  · subst h
    rw [if_pos rfl, bit_eq_getD, List.getD_eq_getElem?_getD, List.getElem?_modify,
      List.getD_eq_getElem?_getD, List.getElem?_eq_getElem hk]
    simp
  · rw [if_neg h, bit_eq_getD, bit_eq_getD, List.getD_eq_getElem?_getD, List.getD_eq_getElem?_getD,
      List.getElem?_modify]
    simp [Ne.symm h]

/-- A change of one word that acts on each of its bits by `g`. -/
theorem bit_modify_of_wordBit {k : Nat} {f : UInt64 → UInt64} {g : Nat → Bool → Bool}
    (hf : ∀ a j, j < 64 → wordBit (f a) j = g j (wordBit a j)) (hk : k < ws.length) :
    bit (ws.modify k f) i = if i / 64 = k then g (i % 64) (bit ws i) else bit ws i := by
  rw [bit_modify f hk]
  split_ifs with h
  · rw [hf _ _ (Nat.mod_lt _ (by decide)), bit_eq_getD, h]
  · rfl

theorem all_eq_zero_iff : ws.all (· == 0) = true ↔ ∀ i, bit ws i = false := by
  induction ws with
  | nil => simp
  | cons w ws ih =>
    rw [List.all_cons, Bool.and_eq_true, ih, beq_iff_eq, eq_zero_iff]
    constructor
    · rintro ⟨hw, hws⟩ i
      rw [bit_cons]
      split_ifs with h
      · exact hw i h
      · exact hws _
    · intro h
      refine ⟨fun j hj => ?_, fun i => ?_⟩
      · simpa [bit_cons, hj] using h j
      · simpa [bit_cons] using h (i + 64)

theorem all_eq_allOnes_iff : ws.all (· == ~~~0) = true ↔ ∀ i < 64 * ws.length, bit ws i = true := by
  induction ws with
  | nil => simp
  | cons w ws ih =>
    rw [List.all_cons, Bool.and_eq_true, ih, beq_iff_eq, eq_allOnes_iff]
    constructor
    · rintro ⟨hw, hws⟩ i hi
      rw [bit_cons]
      split_ifs with h
      · exact hw i h
      · exact hws _ (by simp at hi; omega)
    · intro h
      refine ⟨fun j hj => ?_, fun i hi => ?_⟩
      · simpa [bit_cons, hj] using h j (by simp; omega)
      · simpa [bit_cons] using h (i + 64) (by simp; omega)

theorem any_ne_zero_iff : ws.any (· != 0) = true ↔ ∃ i, bit ws i = true := by
  have hall : ws.any (· != 0) = !ws.all (· == 0) := by
    rw [List.all_eq_not_any_not, Bool.not_not]
    rfl
  rw [hall, Bool.not_eq_true', ← Bool.not_eq_true, all_eq_zero_iff]
  simp

end Value

section LowestBit

/-- The position of the lowest set bit among the first `width` bits of `x`,
`width` when there is none. -/
def lowestBit : Nat → Nat → Nat
  | 0, _ => 0
  | width + 1, x => if x % 2 = 1 then 0 else lowestBit width (x / 2) + 1

@[simp] theorem lowestBit_zero (x : Nat) : lowestBit 0 x = 0 := rfl

theorem lowestBit_succ (width x : Nat) :
    lowestBit (width + 1) x = if x % 2 = 1 then 0 else lowestBit width (x / 2) + 1 := rfl

variable {width x j : Nat}

theorem testBit_of_lt_lowestBit (h : j < lowestBit width x) : x.testBit j = false := by
  induction width generalizing x j with
  | zero => simp at h
  | succ width ih =>
    rw [lowestBit_succ] at h
    split_ifs at h with hx
    · omega
    · cases j with
      | zero => simpa [Nat.testBit_zero] using hx
      | succ j => rw [Nat.testBit_succ]; exact ih (by omega)

theorem testBit_lowestBit (h : ∃ j < width, x.testBit j = true) :
    x.testBit (lowestBit width x) = true := by
  induction width generalizing x with
  | zero => obtain ⟨j, hj, -⟩ := h; omega
  | succ width ih =>
    rw [lowestBit_succ]
    split_ifs with hx
    · simpa [Nat.testBit_zero] using hx
    · rw [Nat.testBit_succ]
      apply ih
      obtain ⟨j, hj, hbit⟩ := h
      cases j with
      | zero => simp [Nat.testBit_zero, hx] at hbit
      | succ j => exact ⟨j, by omega, by rwa [Nat.testBit_succ] at hbit⟩

end LowestBit

section Bytes

/-- The bytes of the words, each least significant byte first, as a
little-endian machine holds them in memory. -/
def bytes (ws : List UInt64) : List UInt8 := ws.flatMap (fun w => toBytes 8 w.toNat)

/-- The words that `k` groups of eight little-endian bytes read back as. -/
def readWords : Nat → List UInt8 → List UInt64
  | 0, _ => []
  | k + 1, bs => UInt64.ofNat (ofBytes (bs.take 8)) :: readWords k (bs.drop 8)

@[simp] theorem readWords_zero (bs : List UInt8) : readWords 0 bs = [] := rfl

theorem readWords_succ (k : Nat) (bs : List UInt8) :
    readWords (k + 1) bs = UInt64.ofNat (ofBytes (bs.take 8)) :: readWords k (bs.drop 8) := rfl

variable {ws : List UInt64}

@[simp] theorem bytes_nil : bytes [] = [] := rfl

@[simp] theorem bytes_cons (w : UInt64) (ws : List UInt64) :
    bytes (w :: ws) = toBytes 8 w.toNat ++ bytes ws := rfl

@[simp] theorem length_bytes : (bytes ws).length = 8 * ws.length := by
  induction ws with
  | nil => rfl
  | cons w ws ih => simp [ih]; ring

@[simp] theorem length_readWords (k : Nat) (bs : List UInt8) : (readWords k bs).length = k := by
  induction k generalizing bs with
  | zero => rfl
  | succ k ih => simp [readWords_succ, ih]

theorem ofBytes_bytes : ofBytes (bytes ws) = value ws := by
  induction ws with
  | nil => rfl
  | cons w ws ih =>
    rw [bytes_cons, LittleEndian.ofBytes_append, LittleEndian.length_toBytes, ih,
      LittleEndian.ofBytes_toBytes_of_lt (by simpa using w.toNat_lt), value_cons]
    norm_num

theorem value_readWords (k : Nat) (bs : List UInt8) : value (readWords k bs) = ofBytes (bs.take (8 * k)) := by
  induction k generalizing bs with
  | zero => rfl
  | succ k ih =>
    have hlt : ofBytes (bs.take 8) < 2 ^ 64 := by
      have hbound := LittleEndian.ofBytes_lt_two_pow (bs.take 8)
      rw [List.length_take] at hbound
      exact lt_of_lt_of_le hbound (Nat.pow_le_pow_right (by decide) (by omega))
    rw [readWords_succ, value_cons, ih, UInt64.toNat_ofNat', Nat.mod_eq_of_lt hlt,
      show 8 * (k + 1) = 8 + 8 * k by ring, List.take_add, LittleEndian.ofBytes_append]
    by_cases hb : 8 ≤ bs.length
    · rw [List.length_take, Nat.min_eq_left hb]
      norm_num
    · rw [List.drop_of_length_le (by omega), List.take_nil, LittleEndian.ofBytes_nil]
      simp

end Bytes

end Words
