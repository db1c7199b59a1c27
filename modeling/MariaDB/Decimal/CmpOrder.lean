import Mathlib.Data.List.TakeWhile
import Mathlib.Tactic.FieldSimp
import Mathlib.Tactic.Positivity
import MariaDB.Decimal.Cmp

set_option autoImplicit false

/- `decimal_cmp` is the order of the values. Past the leading zero words of
its integer part a decimal is `B ^ k * 0.w₁w₂…` with `B = 10^9`, `k` its
significant integer words and `w₁w₂…` the significant words of `do_sub`; two
decimals with fewer significant integer words are the smaller, and with as
many, `do_sub`'s lockstep walk compares the fractions `0.w₁w₂…` word by word. -/
namespace MariaDB.Decimal

open BigEndian

/-! ## Word strings read as fractions -/

/-- A word string read as the fraction `0.w₁w₂…` in base `10^9`. -/
def fracValue (ws : List Nat) : ℚ := wordsValue ws / (digBase : ℚ) ^ ws.length

theorem digBase_pos : (0 : ℚ) < digBase := by norm_num [digBase_def]

@[simp] theorem fracValue_nil : fracValue [] = 0 := by simp [fracValue]

theorem fracValue_cons (w : Nat) (ws : List Nat) :
    fracValue (w :: ws) = (w + fracValue ws) / digBase := by
  have pos := digBase_pos
  rw [fracValue, fracValue, wordsValue_cons, List.length_cons]
  field_simp
  push_cast
  ring

theorem fracValue_nonneg (ws : List Nat) : 0 ≤ fracValue ws := by
  unfold fracValue
  positivity

theorem fracValue_lt_one {ws : List Nat} (h : ∀ w ∈ ws, w < digBase) : fracValue ws < 1 := by
  have lt : (wordsValue ws : ℚ) < (digBase : ℚ) ^ ws.length := by exact_mod_cast wordsValue_lt h
  rw [fracValue, div_lt_one (pow_pos digBase_pos _)]
  exact lt

/-- Trailing zero words add nothing to a fraction. -/
theorem fracValue_append_zeros (ws : List Nat) (n : Nat) :
    fracValue (ws ++ List.replicate n 0) = fracValue ws := by
  have pos := digBase_pos
  rw [fracValue, fracValue, wordsValue_append, wordsValue_replicate_zero, List.length_append,
    List.length_replicate]
  field_simp
  push_cast
  ring

/-- A word string with a last word that is not zero reads as a positive fraction. -/
theorem fracValue_pos_of_last {ws : List Nat} (ne : ws ≠ []) (last : ws.getLastD 1 ≠ 0) : 0 < fracValue ws := by
  obtain ⟨init, w, rfl⟩ := (List.eq_nil_or_concat' ws).resolve_left ne
  rw [List.getLastD_concat] at last
  rw [fracValue, wordsValue_append_singleton]
  apply div_pos _ (pow_pos digBase_pos _)
  have : 0 < wordsValue init * digBase + w := by omega
  exact_mod_cast this

/-! ## The lockstep walk of `do_sub` -/

/-- What `wordsCarry` reports of an order: `some true` where the second
string is the larger, `none` where they are equal. -/
def carryOf : Ordering → Option Bool
  | .lt => some true
  | .eq => none
  | .gt => some false

/-- Base-`10^9` words with no zero word at the end, as `do_sub` leaves them
once it has trimmed the trailing zero words. -/
structure SignificantWords (ws : List Nat) : Prop where
  word_lt : ∀ w ∈ ws, w < digBase
  last_ne : ws.getLastD 1 ≠ 0

theorem SignificantWords.tail {w : Nat} {ws : List Nat} (h : SignificantWords (w :: ws)) :
    SignificantWords ws where
  word_lt := fun v mem => h.word_lt v (List.mem_cons_of_mem w mem)
  last_ne := by
    have last := h.last_ne
    cases ws with
    | nil => decide
    | cons b bs =>
      rw [List.getLastD_cons, List.getLastD_cons] at last
      rw [List.getLastD_cons]
      exact last

theorem SignificantWords.head_lt {w : Nat} {ws : List Nat} (h : SignificantWords (w :: ws)) :
    w < digBase :=
  h.word_lt w List.mem_cons_self

theorem SignificantWords.fracValue_pos {w : Nat} {ws : List Nat} (h : SignificantWords (w :: ws)) :
    0 < fracValue (w :: ws) :=
  fracValue_pos_of_last (List.cons_ne_nil w ws) h.last_ne

/-- Fractions that start with one word compare as what follows it. -/
theorem compare_fracValue_cons (w : Nat) (as bs : List Nat) :
    compare (fracValue (w :: as)) (fracValue (w :: bs)) = compare (fracValue as) (fracValue bs) := by
  have pos := digBase_pos
  rw [fracValue_cons, fracValue_cons]
  apply compare_eq_of_iff
  · rw [div_lt_div_iff_of_pos_right pos, add_lt_add_iff_left]
  · rw [div_left_inj' pos.ne', add_right_inj]

/-- A fraction whose first word is the smaller is the smaller, whatever follows. -/
theorem fracValue_lt_of_head_lt {a b : Nat} {as bs : List Nat} (lt : a < b)
    (words : ∀ w ∈ as, w < digBase) : fracValue (a :: as) < fracValue (b :: bs) := by
  have pos := digBase_pos
  have below := fracValue_lt_one words
  have nonneg := fracValue_nonneg bs
  have next : (a : ℚ) + 1 ≤ b := by exact_mod_cast lt
  rw [fracValue_cons, fracValue_cons, div_lt_div_iff_of_pos_right pos]
  linarith

/-- `wordsCarry` compares the fractions of two significant word strings. -/
theorem wordsCarry_eq {s₁ s₂ : List Nat} (h₁ : SignificantWords s₁) (h₂ : SignificantWords s₂) :
    wordsCarry s₁ s₂ = carryOf (compare (fracValue s₁) (fracValue s₂)) := by
  -- the walk and the induction both go one word of each string at a time
  induction s₁ generalizing s₂ with
  | nil =>
    cases s₂ with
    | nil => simp [wordsCarry, carryOf]
    | cons b bs =>
      rw [fracValue_nil, compare_lt_iff_lt.mpr h₂.fracValue_pos]
      rfl
  | cons a as ih =>
    cases s₂ with
    | nil =>
      rw [fracValue_nil, compare_gt_iff_gt.mpr h₁.fracValue_pos]
      rfl
    | cons b bs =>
      rcases lt_trichotomy a b with lt | rfl | gt
      · rw [wordsCarry, if_neg lt.ne, compare_lt_iff_lt.mpr
          (fracValue_lt_of_head_lt lt h₁.tail.word_lt)]
        simp [carryOf, lt]
      · rw [wordsCarry, if_pos rfl, ih h₁.tail h₂.tail, compare_fracValue_cons]
      · rw [wordsCarry, if_neg gt.ne', compare_gt_iff_gt.mpr
          (fracValue_lt_of_head_lt gt h₂.tail.word_lt)]
        simp [carryOf, Nat.lt_asymm gt]

/-! ## The words `do_sub` compares -/

/-- The integer words of `do_sub` past the leading zero words. -/
def intWords (d : DecimalT) : List Nat := (d.buf.take (roundUp d.intg)).dropWhile (· = 0)

/-- The fraction words of a decimal. -/
def fracWords (d : DecimalT) : List Nat := (d.buf.drop (roundUp d.intg)).take (roundUp d.frac)

/-- The value of a decimal without its sign. -/
def DecimalT.magnitude (d : DecimalT) : ℚ := wordsValue d.words / (digBase : ℚ) ^ roundUp d.frac

theorem DecimalT.value_eq (d : DecimalT) :
    d.value = (if d.sign then -1 else 1) * d.magnitude := by
  rw [DecimalT.value, DecimalT.magnitude, mul_div_assoc]

theorem significantWords_eq (d : DecimalT) :
    significantWords d = ((intWords d ++ fracWords d).reverse.dropWhile (· = 0)).reverse := rfl

/-- Leading zero words: a list is its zeros and what `dropWhile` leaves. -/
theorem eq_replicate_append_dropWhile (l : List Nat) :
    ∃ m, l = List.replicate m 0 ++ l.dropWhile (· = 0) := by
  refine ⟨(l.takeWhile (· = 0)).length, ?_⟩
  have zeros : l.takeWhile (· = 0) = List.replicate (l.takeWhile (· = 0)).length 0 := by
    rw [List.eq_replicate_iff]
    refine ⟨rfl, fun b mem => ?_⟩
    simpa using List.mem_takeWhile_imp mem
  rw [← zeros, List.takeWhile_append_dropWhile]

/-- Trailing zero words: a list is what the trimming leaves and its zeros. -/
theorem eq_trimmed_append_replicate (l : List Nat) :
    ∃ m, l = (l.reverse.dropWhile (· = 0)).reverse ++ List.replicate m 0 := by
  obtain ⟨m, split⟩ := eq_replicate_append_dropWhile l.reverse
  refine ⟨m, ?_⟩
  conv_lhs => rw [← List.reverse_reverse l, split]
  rw [List.reverse_append, List.reverse_replicate]

/-- What is left past the leading zero words starts with a word that is not
zero. -/
theorem dropWhile_zero_head {l ws : List Nat} {w : Nat} (h : l.dropWhile (· = 0) = w :: ws) :
    w ≠ 0 := by
  have head := List.head_dropWhile_not (fun x : Nat => decide (x = 0)) (l := l)
    (by rw [h]; exact List.cons_ne_nil w ws)
  simp only [h, List.head_cons, decide_eq_false_iff_not] at head
  exact head

/-- The trimmed words end in a word that is not zero. -/
theorem getLastD_trimmed (l : List Nat) : (l.reverse.dropWhile (· = 0)).reverse.getLastD 1 ≠ 0 := by
  rw [List.getLastD_eq_getLast?, List.getLast?_reverse]
  cases h : (l.reverse.dropWhile (· = 0)) with
  | nil => simp
  | cons w ws => simpa using dropWhile_zero_head h

theorem significantWords_significant {d : DecimalT} (wf : d.WellFormed) :
    SignificantWords (significantWords d) where
  word_lt := by
    intro w mem
    apply wf.word_lt
    have inTrimmed : w ∈ intWords d ++ fracWords d := by
      rw [significantWords_eq, List.mem_reverse] at mem
      exact List.mem_reverse.mp ((List.dropWhile_sublist _).subset mem)
    rcases List.mem_append.mp inTrimmed with int | frac
    · exact List.mem_of_mem_take ((List.dropWhile_sublist _).subset int)
    · exact List.mem_of_mem_drop (List.mem_of_mem_take frac)
  last_ne := getLastD_trimmed _

/-! ## The magnitude of a decimal -/

/-- A word string with a word that is not zero has a positive value. -/
theorem wordsValue_pos {ws : List Nat} (h : ∃ w ∈ ws, w ≠ 0) : 0 < wordsValue ws := by
  induction ws with
  | nil => simp at h
  | cons w ws ih =>
    rw [wordsValue_cons]
    by_cases zero : w = 0
    · have rest : ∃ v ∈ ws, v ≠ 0 := by
        obtain ⟨v, mem, ne⟩ := h
        rcases List.mem_cons.mp mem with rfl | mem
        · exact absurd zero ne
        · exact ⟨v, mem, ne⟩
      have := ih rest
      omega
    · have : 0 < w * digBase ^ ws.length := Nat.mul_pos (Nat.pos_of_ne_zero zero)
        (Nat.pow_pos (by decide))
      omega

theorem fracWords_length {d : DecimalT} (wf : d.WellFormed) :
    (fracWords d).length = roundUp d.frac := by
  simp only [fracWords, List.length_take, List.length_drop, wf.length_buf]
  omega

/-- The words in use are the integer words and the fraction words. -/
theorem words_eq {d : DecimalT} (wf : d.WellFormed) :
    d.words = d.buf.take (roundUp d.intg) ++ fracWords d := by
  have rest : (d.buf.drop (roundUp d.intg)).length ≤ roundUp d.frac := by
    rw [List.length_drop, wf.length_buf]
    omega
  rw [DecimalT.words, List.take_of_length_le (le_of_eq wf.length_buf), fracWords,
    List.take_of_length_le rest, List.take_append_drop]

/-- Past its leading zero words, a decimal is its significant integer words
and its fraction words read as a fraction, scaled by as many words. -/
theorem DecimalT.magnitude_eq_fracValue {d : DecimalT} (wf : d.WellFormed) :
    d.magnitude = (digBase : ℚ) ^ (intWords d).length * fracValue (intWords d ++ fracWords d) := by
  obtain ⟨j, lead⟩ := eq_replicate_append_dropWhile (d.buf.take (roundUp d.intg))
  have value : wordsValue d.words = wordsValue (intWords d ++ fracWords d) := by
    rw [words_eq wf, lead, List.append_assoc, wordsValue_replicate_append]
    rfl
  have pos := digBase_pos
  rw [DecimalT.magnitude, value, fracValue, List.length_append, fracWords_length wf, pow_add]
  field_simp

/-- The trailing zero words `do_sub` trims change nothing either. -/
theorem DecimalT.magnitude_eq {d : DecimalT} (wf : d.WellFormed) :
    d.magnitude = (digBase : ℚ) ^ (intWords d).length * fracValue (significantWords d) := by
  obtain ⟨m, trail⟩ := eq_trimmed_append_replicate (intWords d ++ fracWords d)
  rw [d.magnitude_eq_fracValue wf, significantWords_eq]
  conv_lhs => rw [trail]
  rw [fracValue_append_zeros]

theorem DecimalT.magnitude_nonneg (d : DecimalT) : 0 ≤ d.magnitude := by
  unfold DecimalT.magnitude
  positivity

/-- A decimal is below `B` to the power of its significant integer words. -/
theorem DecimalT.magnitude_lt {d : DecimalT} (wf : d.WellFormed) :
    d.magnitude < (digBase : ℚ) ^ (intWords d).length := by
  have below := fracValue_lt_one (significantWords_significant wf).word_lt
  have pos := pow_pos digBase_pos (intWords d).length
  rw [d.magnitude_eq wf]
  calc (digBase : ℚ) ^ (intWords d).length * fracValue (significantWords d)
      < (digBase : ℚ) ^ (intWords d).length * 1 := by gcongr
    _ = (digBase : ℚ) ^ (intWords d).length := mul_one _

/-- A decimal with a significant integer word is at least `B` to the power of
the others: that word is not zero. -/
theorem DecimalT.pow_le_magnitude {d : DecimalT} (wf : d.WellFormed) (ne : intWords d ≠ []) :
    (digBase : ℚ) ^ ((intWords d).length - 1) ≤ d.magnitude := by
  obtain ⟨w, ws, split⟩ := List.exists_cons_of_ne_nil ne
  have one : (1 : ℚ) ≤ w := by exact_mod_cast Nat.one_le_iff_ne_zero.mpr (dropWhile_zero_head split)
  have pos := digBase_pos
  have rest := fracValue_nonneg (ws ++ fracWords d)
  have cancel : (digBase : ℚ) ^ (ws.length + 1) * ((w + fracValue (ws ++ fracWords d)) / digBase) =
      (digBase : ℚ) ^ ws.length * (w + fracValue (ws ++ fracWords d)) := by
    rw [pow_succ]
    field_simp
  rw [d.magnitude_eq_fracValue wf, split, List.cons_append, fracValue_cons, List.length_cons,
    Nat.add_sub_cancel, cancel]
  calc (digBase : ℚ) ^ ws.length = (digBase : ℚ) ^ ws.length * 1 := (mul_one _).symm
    _ ≤ (digBase : ℚ) ^ ws.length * (w + fracValue (ws ++ fracWords d)) := by gcongr; linarith

/-- Fewer significant integer words make the smaller magnitude. -/
theorem DecimalT.magnitude_lt_of_intWords {d₁ d₂ : DecimalT} (wf₁ : d₁.WellFormed)
    (wf₂ : d₂.WellFormed) (fewer : (intWords d₁).length < (intWords d₂).length) :
    d₁.magnitude < d₂.magnitude := by
  have ne : intWords d₂ ≠ [] := List.ne_nil_of_length_pos (by omega)
  have one : (1 : ℚ) ≤ digBase := by norm_num [digBase_def]
  calc d₁.magnitude < (digBase : ℚ) ^ (intWords d₁).length := d₁.magnitude_lt wf₁
    _ ≤ (digBase : ℚ) ^ ((intWords d₂).length - 1) := pow_le_pow_right₀ one (by omega)
    _ ≤ d₂.magnitude := d₂.pow_le_magnitude wf₂ ne

/-- `do_sub`'s carry is the order of the magnitudes. -/
theorem subCarry_eq {d₁ d₂ : DecimalT} (wf₁ : d₁.WellFormed) (wf₂ : d₂.WellFormed) :
    subCarry d₁ d₂ = carryOf (compare d₁.magnitude d₂.magnitude) := by
  change (if (intWords d₁).length < (intWords d₂).length then some true
    else if (intWords d₁).length = (intWords d₂).length then
      wordsCarry (significantWords d₁) (significantWords d₂)
    else some false) = _
  split_ifs with fewer same
  · rw [compare_lt_iff_lt.mpr (DecimalT.magnitude_lt_of_intWords wf₁ wf₂ fewer)]
    rfl
  · -- as many integer words: the scale is the same and the fractions decide
    have scale := pow_pos digBase_pos (intWords d₁).length
    rw [wordsCarry_eq (significantWords_significant wf₁) (significantWords_significant wf₂),
      d₁.magnitude_eq wf₁, d₂.magnitude_eq wf₂, ← same]
    congr 1
    apply compare_eq_of_iff
    · rw [mul_lt_mul_iff_right₀ scale]
    · rw [mul_right_inj' scale.ne']
  · rw [compare_gt_iff_gt.mpr (DecimalT.magnitude_lt_of_intWords wf₂ wf₁ (by omega))]
    rfl

/-- A decimal whose zero is unsigned has a positive magnitude when it is
negative. -/
theorem DecimalT.NoNegativeZero.magnitude_pos {d : DecimalT} (noNegZero : d.NoNegativeZero)
    (neg : d.sign = true) : 0 < d.magnitude := by
  have notZero := noNegZero neg
  simp only [decimalIsZero, List.all_eq_false, beq_iff_eq] at notZero
  have value : (0 : ℚ) < wordsValue d.words := by exact_mod_cast wordsValue_pos notZero
  exact div_pos value (pow_pos digBase_pos _)

theorem decimalCmp_eq_cmpResult {a b : DecimalT} (wa : a.WellFormed) (wb : b.WellFormed)
    (za : a.NoNegativeZero) (zb : b.NoNegativeZero) :
    decimalCmp a b = cmpResult (compare a.value b.value) := by
  have ma := a.magnitude_nonneg
  have mb := b.magnitude_nonneg
  rw [a.value_eq, b.value_eq, cmpResult_compare]
  unfold decimalCmp
  cases sa : a.sign <;> cases sb : b.sign <;>
    simp only [Bool.false_eq_true, Bool.true_eq_false, ↓reduceIte, one_mul, neg_one_mul,
      neg_lt_neg_iff, subCarry_eq wa wb]
  · -- two non-negative decimals: the carry says which is the larger
    rcases lt_trichotomy a.magnitude b.magnitude with lt | eq | gt
    · simp [compare_lt_iff_lt.mpr lt, carryOf, lt]
    · simp [eq, carryOf]
    · simp [compare_gt_iff_gt.mpr gt, carryOf, gt, not_lt.mpr gt.le]
  · -- `b` is negative, so it is below every non-negative `a`
    have pos := zb.magnitude_pos sb
    rw [if_neg (by linarith), if_pos (by linarith)]
  · have pos := za.magnitude_pos sa
    rw [if_pos (by linarith)]
  · -- two negative decimals: the larger magnitude is the smaller value
    rcases lt_trichotomy a.magnitude b.magnitude with lt | eq | gt
    · simp [compare_lt_iff_lt.mpr lt, carryOf, lt, not_lt.mpr lt.le]
    · simp [eq, carryOf]
    · simp [compare_gt_iff_gt.mpr gt, carryOf, gt]

/-- `1.5` written with a leading zero integer word and written with a trailing
zero fraction word compare equal. -/
theorem decimalCmp_one_and_a_half :
    (⟨10, 9, 3, false, [0, 1, 500000000]⟩ : DecimalT).WellFormed ∧
      (⟨1, 18, 3, false, [1, 500000000, 0]⟩ : DecimalT).WellFormed ∧
      (⟨10, 9, 3, false, [0, 1, 500000000]⟩ : DecimalT).NoNegativeZero ∧
      (⟨1, 18, 3, false, [1, 500000000, 0]⟩ : DecimalT).NoNegativeZero ∧
      decimalCmp ⟨10, 9, 3, false, [0, 1, 500000000]⟩ ⟨1, 18, 3, false, [1, 500000000, 0]⟩ =
        cmpResult (compare (⟨10, 9, 3, false, [0, 1, 500000000]⟩ : DecimalT).value
          (⟨1, 18, 3, false, [1, 500000000, 0]⟩ : DecimalT).value) :=
  ⟨⟨by decide, by decide, by decide, by decide, by decide⟩,
    ⟨by decide, by decide, by decide, by decide, by decide⟩, by decide, by decide,
    decimalCmp_eq_cmpResult ⟨by decide, by decide, by decide, by decide, by decide⟩
      ⟨by decide, by decide, by decide, by decide, by decide⟩ (by decide) (by decide)⟩

end MariaDB.Decimal
