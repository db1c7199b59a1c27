import Mathlib.Data.Finset.Max
import MariaDB.Mysys.MyBitmap

set_option autoImplicit false

/- What the queries of mysys/my_bitmap.c return on well-formed maps, stated
over the sets the maps denote. The searches return the least member of a
set, or `MY_BIT_NONE` when it is empty; each of their loops is specified by
the least position whose bit it looks for, and the word it stops in is found
by `my_find_first_bit`. -/
namespace MariaDB.Bitmap

open Words

/-- The least member of `s`, `MY_BIT_NONE` when `s` is empty. -/
def leastOrNone (s : Finset Nat) : Nat := if h : s.Nonempty then s.min' h else myBitNone

section Least

variable {P : Nat → Prop} {r k : Nat}

theorem leastOrNone_of_isLeast {s : Finset Nat} (h : IsLeast (s : Set Nat) r) : leastOrNone s = r := by
  have hne : s.Nonempty := ⟨r, h.1⟩
  rw [leastOrNone, dif_pos hne]
  exact le_antisymm (Finset.min'_le _ _ h.1) (Finset.le_min' _ _ _ fun j hj => h.2 hj)

/-- A search that returns the least position satisfying `P`, and
`MY_BIT_NONE` when there is none, returns the least member of the set of
those positions. -/
theorem eq_leastOrNone {s : Finset Nat} {result : Nat} (hs : ∀ j, j ∈ s ↔ P j)
    (hsome : ∀ r, IsLeast {j | P j} r → result = r) (hnone : (∀ j, ¬P j) → result = myBitNone) :
    result = leastOrNone s := by
  by_cases hne : s.Nonempty
  · have hleast := Finset.isLeast_min' s hne
    rw [leastOrNone_of_isLeast hleast]
    apply hsome
    refine ⟨(hs _).mp hleast.1, fun j hj => hleast.2 ((hs j).mpr hj)⟩
  · rw [leastOrNone, dif_neg hne]
    apply hnone
    intro j hj
    exact hne ⟨j, (hs j).mpr hj⟩

/-- The least position past the first `k` ones, counted from `k`. -/
theorem isLeast_shift (h : IsLeast {j | P j} r) (hk : k ≤ r) : IsLeast {j | P (j + k)} (r - k) := by
  refine ⟨?_, fun j hj => ?_⟩
  · show P (r - k + k)
    rw [Nat.sub_add_cancel hk]
    exact h.1
  · have hle := h.2 hj
    omega

/-- The least position below `k` stays least for a property that agrees
below `k`. -/
theorem isLeast_restrict {Q : Nat → Prop} (h : IsLeast {j | P j} r) (hr : r < k)
    (hPQ : ∀ j < k, P j ↔ Q j) : IsLeast {j | Q j} r := by
  refine ⟨(hPQ r hr).mp h.1, fun j hj => ?_⟩
  by_cases hjk : j < k
  · exact h.2 ((hPQ j hjk).mpr hj)
  · omega

end Least

/-! ### The searches -/

section Search

variable {w : UInt64} {ws : List UInt64} {r : Nat}

theorem myFindFirstBit_of_isLeast (h : IsLeast {j | wordBit w j = true} r) : myFindFirstBit w = r := by
  obtain ⟨hr, hmin⟩ := h
  have hr64 : r < 64 := by
    by_contra hge
    rw [Set.mem_ofPred_eq, wordBit_of_le (not_lt.mp hge)] at hr
    exact Bool.false_ne_true hr
  have hne : w ≠ 0 := by
    rintro rfl
    simp at hr
  rw [myFindFirstBit, if_neg hne]
  have hlow : w.toNat.testBit (lowestBit 64 w.toNat) = true := testBit_lowestBit ⟨r, hr64, hr⟩
  rcases Nat.lt_trichotomy (lowestBit 64 w.toNat) r with hlt | heq | hgt
  · exact absurd (hmin hlow) (not_le.mpr hlt)
  · exact heq
  · have hclear : w.toNat.testBit r = false := testBit_of_lt_lowestBit hgt
    exact absurd hr (by rw [Set.mem_ofPred_eq, wordBit_def, hclear]; exact Bool.false_ne_true)

/-- A word that is not zero has a set bit. -/
theorem exists_wordBit_of_ne_zero (hw : w ≠ 0) : ∃ j < 64, wordBit w j = true := by
  by_contra hnone
  push Not at hnone
  exact hw (eq_zero_iff.mpr fun j hj => by simpa using hnone j hj)

/-- The loop of `bitmap_get_first_set` stops at the first word that is not
zero, at its lowest set bit. -/
theorem firstSetLoop_of_isLeast (h : IsLeast {j | bit ws j = true} r) (i : Nat) :
    firstSetLoop ws i = r + 64 * i := by
  induction ws generalizing r i with
  | nil =>
    obtain ⟨hr, -⟩ := h
    simp at hr
  | cons w ws ih =>
    rw [firstSetLoop]
    split_ifs with hw
    · obtain ⟨j, hj, hbit⟩ := exists_wordBit_of_ne_zero hw
      have hr64 : r < 64 := lt_of_le_of_lt (h.2 (show bit (w :: ws) j = true by simpa [hj] using hbit)) hj
      have hword : IsLeast {j | wordBit w j = true} r :=
        isLeast_restrict h hr64 fun j hj => by simp [hj]
      rw [myFindFirstBit_of_isLeast hword, myBitmapMapBits, Nat.mul_comm]
    · have hzero := eq_zero_iff.mp (not_not.mp hw)
      have hr64 : 64 ≤ r := by
        by_contra hlt
        have hr := h.1
        rw [Set.mem_ofPred_eq, bit_cons_of_lt (by omega), hzero r (by omega)] at hr
        exact Bool.false_ne_true hr
      have hrest : IsLeast {j | bit ws j = true} (r - 64) := by
        simpa using isLeast_shift h hr64
      rw [ih hrest (i + 1)]
      omega

theorem firstSetLoop_of_forall (h : ∀ j, bit ws j = false) (i : Nat) : firstSetLoop ws i = myBitNone := by
  induction ws generalizing i with
  | nil => rfl
  | cons w ws ih =>
    have hzero : w = 0 := eq_zero_iff.mpr fun j hj => by simpa [hj] using h j
    rw [firstSetLoop, if_neg (not_not.mpr hzero)]
    exact ih (fun j => by simpa using h (j + 64)) (i + 1)

/-- The loop of `bitmap_get_next_set` over the later words is the loop of
`bitmap_get_first_set` from the word after `bitmap_bit`'s. -/
theorem nextSetLoop_eq (ws : List UInt64) (b : Nat) : nextSetLoop ws b = firstSetLoop ws (b / 64 + 1) := by
  induction ws generalizing b with
  | nil => rfl
  | cons w ws ih =>
    rw [nextSetLoop, firstSetLoop, ih, myBitmapMapBits]
    have hdiv : (b + 64) / 64 = b / 64 + 1 := by omega
    rw [hdiv]

theorem firstClearLoop_cons_cons (mask w x : UInt64) (xs : List UInt64) (i : Nat) :
    firstClearLoop mask (w :: x :: xs) i =
      if w ≠ ~~~0 then myFindFirstBit (~~~w) + i * myBitmapMapBits
      else firstClearLoop mask (x :: xs) (i + 1) := rfl

/-- The loop of `bitmap_get_first_clear` stops at the first word before the
last that is not all ones, or at the last one, at its lowest clear bit; the
bits of `mask`, which the last word's clear bits are read through, are all
the bits from some position up. -/
theorem firstClearLoop_of_isLeast {mask last : UInt64}
    (hmask : ∀ j k, j ≤ k → k < 64 → wordBit mask j = true → wordBit mask k = true)
    {init : List UInt64}
    (h : IsLeast {j | j < 64 * (init.length + 1) ∧ bit (init ++ [last ||| mask]) j = false} r)
    (i : Nat) : firstClearLoop mask (init ++ [last]) i = r + 64 * i := by
  induction init generalizing r i with
  | nil =>
    obtain ⟨⟨hr64, hr⟩, hmin⟩ := h
    simp only [List.length_nil, zero_add, mul_one, List.nil_append, bit_singleton, wordBit_or,
      Bool.or_eq_false_iff] at hr64 hr
    have hne : (last ||| mask) ≠ ~~~0 := by
      intro heq
      have hall := eq_allOnes_iff.mp heq r hr64
      rw [wordBit_or, hr.1, hr.2] at hall
      exact Bool.false_ne_true hall
    have hword : IsLeast {j | wordBit (~~~last) j = true} r := by
      refine ⟨by simp [hr64, hr.1], fun j hj => ?_⟩
      simp only [Set.mem_ofPred_eq, wordBit_not, Bool.and_eq_true, decide_eq_true_eq,
        Bool.not_eq_true'] at hj
      by_contra hlt
      have hmaskj : wordBit mask j = true := by
        by_contra hm
        exact hlt (hmin ⟨by simp; omega, by simp [hj.2, hm]⟩)
      rw [hmask j r (by omega) hr64 hmaskj] at hr
      exact Bool.false_ne_true hr.2.symm
    rw [List.nil_append, firstClearLoop, if_neg hne, myFindFirstBit_of_isLeast hword,
      myBitmapMapBits, Nat.mul_comm]
  | cons w init ih =>
    obtain ⟨x, xs, hxs⟩ : ∃ x xs, init ++ [last] = x :: xs := List.exists_cons_of_ne_nil (by simp)
    rw [List.cons_append, hxs, firstClearLoop_cons_cons, ← hxs]
    split_ifs with hw
    · obtain ⟨j, hj, hbit⟩ : ∃ j < 64, wordBit w j = false := by
        by_contra hnone
        push Not at hnone
        exact hw (eq_allOnes_iff.mpr fun j hj => by simpa using hnone j hj)
      have hr64 : r < 64 := lt_of_le_of_lt (h.2 ⟨by simp; omega, by simpa [hj] using hbit⟩) hj
      have hword : IsLeast {j | wordBit (~~~w) j = true} r := by
        apply isLeast_restrict h hr64
        intro j hj
        have hlt : j < 64 * (init.length + 1 + 1) := by omega
        simp [hj, hlt]
      rw [myFindFirstBit_of_isLeast hword, myBitmapMapBits, Nat.mul_comm]
    · have hones := eq_allOnes_iff.mp (not_not.mp hw)
      have hr64 : 64 ≤ r := by
        by_contra hlt
        have hr := h.1.2
        rw [List.cons_append, bit_cons_of_lt (by omega), hones r (by omega)] at hr
        exact Bool.false_ne_true hr.symm
      have hrest : IsLeast {j | j < 64 * (init.length + 1) ∧ bit (init ++ [last ||| mask]) j = false}
          (r - 64) := by
        have hshift := isLeast_shift h hr64
        have hbound : ∀ j, j + 64 < 64 * (init.length + 1 + 1) ↔ j < 64 * (init.length + 1) :=
          fun j => by omega
        simpa only [List.length_cons, List.cons_append, bit_cons_add, hbound] using hshift
      rw [ih hrest (i + 1)]
      omega

theorem firstClearLoop_of_forall {mask last : UInt64} {init : List UInt64}
    (h : ∀ j < 64 * (init.length + 1), bit (init ++ [last ||| mask]) j = true) (i : Nat) :
    firstClearLoop mask (init ++ [last]) i = myBitNone := by
  induction init generalizing i with
  | nil =>
    have hones : (last ||| mask) = ~~~0 := eq_allOnes_iff.mpr fun j hj => by simpa [hj] using h j (by simpa)
    rw [List.nil_append, firstClearLoop, if_pos hones]
  | cons w init ih =>
    obtain ⟨x, xs, hxs⟩ : ∃ x xs, init ++ [last] = x :: xs := List.exists_cons_of_ne_nil (by simp)
    have hones : w = ~~~0 := eq_allOnes_iff.mpr fun j hj => by simpa [hj] using h j (by simp; omega)
    rw [List.cons_append, hxs, firstClearLoop_cons_cons, if_neg (not_not.mpr hones), ← hxs]
    exact ih (fun j hj => by simpa using h (j + 64) (by simp; omega)) (i + 1)

end Search

/-! ### The searches over a map -/

section MapSearch

variable {map : MyBitmap}

/-- The bits of `last_bit_mask` are the positions of a word from some
position up. -/
theorem wordBit_lastBitMask_mono {n : Nat} (hn : 0 < n) :
    ∀ j k, j ≤ k → k < 64 → wordBit (lastBitMask n) j = true → wordBit (lastBitMask n) k = true := by
  intro j k hjk hk hj
  rw [wordBit_lastBitMask hn (by omega), decide_eq_true_iff] at hj
  rw [wordBit_lastBitMask hn hk, decide_eq_true_iff]
  omega

/-- The bits the loop of `bitmap_get_first_clear` looks for, the clear bits
of the words with the unused ones set, are the bits below `n_bits` that are
clear. -/
theorem clear_iff (hv : Valid map) (j : Nat) :
    (j < 64 * (map.initWords.length + 1) ∧
        bit (map.initWords ++ [map.lastWord ||| lastBitMask map.nBits]) j = false) ↔
      j < map.nBits ∧ bit map.bitmap j = false := by
  have hb := lastWordIdx_bounds hv.nBits_pos
  rw [hv.length_initWords, bit_append, hv.length_initWords]
  by_cases hj : j < 64 * lastWordIdx map.nBits
  · rw [if_pos hj, MyBitmap.initWords, bit_take, decide_eq_true hj, Bool.true_and]
    constructor
    · exact fun h => ⟨by omega, h.2⟩
    · exact fun h => ⟨by omega, h.2⟩
  · rw [if_neg hj, bit_singleton, wordBit_or]
    by_cases hj' : j - 64 * lastWordIdx map.nBits < 64
    · rw [wordBit_lastBitMask hv.nBits_pos hj', ← bit_lastWord hj',
        show 64 * lastWordIdx map.nBits + (j - 64 * lastWordIdx map.nBits) = j by omega,
        Bool.or_eq_false_iff, decide_eq_false_iff_not, not_le]
      constructor
      · exact fun h => ⟨h.2.2, h.2.1⟩
      · exact fun h => ⟨by omega, h.2, h.1⟩
    · constructor
      · intro h
        omega
      · intro h
        omega

theorem bitmapGetFirstSet_eq (hv : Valid map) : bitmapGetFirstSet map = leastOrNone map.toFinset := by
  apply eq_leastOrNone (P := fun j => bit map.bitmap j = true) (fun j => hv.mem_toFinset_iff)
  · intro r hr
    rw [bitmapGetFirstSet, hv.words_eq, firstSetLoop_of_isLeast hr 0, Nat.mul_zero, Nat.add_zero]
  · intro hnone
    rw [bitmapGetFirstSet, hv.words_eq]
    exact firstSetLoop_of_forall (fun j => by simpa using hnone j) 0

theorem bitmapGetFirstClear_eq (hv : Valid map) :
    bitmapGetFirstClear map = leastOrNone (Finset.range map.nBits \ map.toFinset) := by
  have hwords : map.words = map.initWords ++ [map.lastWord] := by rw [hv.words_eq, hv.initWords_append]
  have hs : ∀ j, j ∈ Finset.range map.nBits \ map.toFinset ↔ j < map.nBits ∧ bit map.bitmap j = false := by
    intro j
    simp [hv.mem_toFinset_iff]
  apply eq_leastOrNone hs
  · intro r hr
    have hloop : IsLeast {j | j < 64 * (map.initWords.length + 1) ∧
        bit (map.initWords ++ [map.lastWord ||| lastBitMask map.nBits]) j = false} r := by
      simpa only [clear_iff hv] using hr
    rw [bitmapGetFirstClear, hwords,
      firstClearLoop_of_isLeast (wordBit_lastBitMask_mono hv.nBits_pos) hloop 0, Nat.mul_zero,
      Nat.add_zero]
  · intro hnone
    rw [bitmapGetFirstClear, hwords]
    apply firstClearLoop_of_forall
    intro j hj
    by_contra hbit
    exact hnone j ((clear_iff hv j).mp ⟨hj, by simpa using hbit⟩)

/-- The bits of the word `bitmap_get_next_set` starts in, from `bitmap_bit`
up. -/
theorem wordBit_firstWord (c : Nat) {j : Nat} (hj : j < 64) :
    wordBit (map.bitmap.getD (c / 64) 0 &&& firstBitMaskInv c) j =
      (bit map.bitmap (64 * (c / 64) + j) && decide (c % 64 ≤ j)) := by
  rw [wordBit_and, wordBit_firstBitMaskInv c hj, bit_eq_getD]
  congr 3 <;> omega

theorem bitmapGetNextSet_eq (hv : Valid map) (b : Nat) :
    bitmapGetNextSet map b = leastOrNone (map.toFinset.filter ((b + 1) % 2 ^ 32 ≤ ·)) := by
  generalize hc : (b + 1) % 2 ^ 32 = c
  have hs : ∀ j, j ∈ map.toFinset.filter (c ≤ ·) ↔ c ≤ j ∧ bit map.bitmap j = true := by
    intro j
    rw [Finset.mem_filter, hv.mem_toFinset_iff, and_comm]
  have hmem : ∀ j, bit map.bitmap j = true → j < map.nBits := fun j hj => by
    by_contra hge
    rw [hv.bit_of_le (not_lt.mp hge)] at hj
    exact Bool.false_ne_true hj
  have hsplit : c = 64 * (c / 64) + c % 64 := (Nat.div_add_mod c 64).symm
  -- the bits of the words after `bitmap_bit`'s word
  have hlater : ∀ j, bit (map.words.drop (c / 64 + 1)) j = bit map.bitmap (j + 64 * (c / 64 + 1)) := by
    intro j
    rw [bit_drop, hv.words_eq]
  apply eq_leastOrNone hs
  · intro r hr
    have hcr : c ≤ r := hr.1.1
    simp only [bitmapGetNextSet, hc]
    rw [if_neg (by have := hmem r hr.1.2; omega)]
    simp only [and_mapBits]
    split_ifs with hfirst hhit
    · -- the bit at `bitmap_bit` is set, and is the least one from there
      have hbit := (and_shiftLeft_one_eq_zero_iff (Nat.mod_lt c (by decide))).not.mp hhit
      rw [Bool.not_eq_false, wordBit_firstWord c (Nat.mod_lt c (by decide)), ← hsplit] at hbit
      simp only [le_refl, decide_true, Bool.and_true] at hbit
      exact le_antisymm hcr (hr.2 ⟨le_refl c, hbit⟩)
    · -- the least set bit of the first word from `bitmap_bit` up
      obtain ⟨j, hj, hjbit⟩ := exists_wordBit_of_ne_zero hfirst
      rw [wordBit_firstWord c hj, Bool.and_eq_true, decide_eq_true_eq] at hjbit
      have hrj : r ≤ 64 * (c / 64) + j := hr.2 ⟨by omega, hjbit.1⟩
      have hword : IsLeast {j | wordBit (map.bitmap.getD (c / 64) 0 &&& firstBitMaskInv c) j = true}
          (r - 64 * (c / 64)) := by
        apply isLeast_restrict (isLeast_shift hr (show 64 * (c / 64) ≤ r by omega))
          (show r - 64 * (c / 64) < 64 by omega)
        intro k hk
        rw [wordBit_firstWord c hk, Bool.and_eq_true, decide_eq_true_eq, Nat.add_comm k]
        constructor
        · exact fun h => ⟨h.2, by omega⟩
        · exact fun h => ⟨by omega, h.1⟩
      rw [myFindFirstBit_of_isLeast hword, myBitmapMapBits]
      omega
    · -- no set bit left in the first word: the later words
      have hzero := eq_zero_iff.mp (not_not.mp hfirst)
      have hr64 : 64 * (c / 64 + 1) ≤ r := by
        by_contra hlt
        have hk : r - 64 * (c / 64) < 64 := by omega
        have hword := hzero _ hk
        rw [wordBit_firstWord c hk, show 64 * (c / 64) + (r - 64 * (c / 64)) = r by omega, hr.1.2,
          Bool.true_and, decide_eq_false_iff_not] at hword
        omega
      have hloop : IsLeast {j | bit (map.words.drop (c / 64 + 1)) j = true} (r - 64 * (c / 64 + 1)) := by
        apply isLeast_restrict (isLeast_shift hr hr64) (Nat.lt_succ_self _)
        intro k _
        rw [hlater]
        constructor
        · exact And.right
        · exact fun h => ⟨by omega, h⟩
      rw [nextSetLoop_eq, firstSetLoop_of_isLeast hloop]
      omega
  · intro hnone
    simp only [bitmapGetNextSet, hc]
    by_cases hge : c ≥ map.nBits
    · rw [if_pos hge]
    · have hfirst : map.bitmap.getD (c / 64) 0 &&& firstBitMaskInv c = 0 := by
        apply eq_zero_iff.mpr
        intro j hj
        rw [wordBit_firstWord c hj]
        by_contra hbit
        rw [Bool.not_eq_false, Bool.and_eq_true, decide_eq_true_eq] at hbit
        exact hnone _ ⟨by omega, hbit.1⟩
      rw [if_neg hge, if_neg (not_not.mpr hfirst), nextSetLoop_eq]
      apply firstSetLoop_of_forall
      intro j
      rw [hlater]
      by_contra hbit
      exact hnone (j + 64 * (c / 64 + 1)) ⟨by omega, by simpa using hbit⟩

/-- For a `bitmap_bit` below `MY_BIT_NONE` the search finds the least member
above it. -/
theorem bitmapGetNextSet_of_lt (hv : Valid map) {b : Nat} (hb : b + 1 < 2 ^ 32) :
    bitmapGetNextSet map b = leastOrNone (map.toFinset.filter (b < ·)) := by
  rw [bitmapGetNextSet_eq hv, Nat.mod_eq_of_lt hb]
  rfl

/-- `bitmap_bit++` wraps `MY_BIT_NONE` to 0, so the search from it starts
over at the first member. -/
theorem bitmapGetNextSet_myBitNone (hv : Valid map) :
    bitmapGetNextSet map myBitNone = bitmapGetFirstSet map := by
  rw [bitmapGetNextSet_eq hv, bitmapGetFirstSet_eq hv, myBitNone]
  congr 1
  apply Finset.filter_true_of_mem
  intro j _
  omega

end MapSearch

/-! ### Tests of whole maps -/

section MapTests

variable {map a b : MyBitmap}

/-- The words before the last hold the bits below the last word's. -/
theorem bit_initWords (i : Nat) :
    bit map.initWords i = (decide (i < 64 * lastWordIdx map.nBits) && bit map.bitmap i) :=
  bit_take _

theorem bitmapIsClearAll_iff (hv : Valid map) : bitmapIsClearAll map = true ↔ map.toFinset = ∅ := by
  rw [bitmapIsClearAll, hv.words_eq, all_eq_zero_iff, Finset.eq_empty_iff_forall_notMem]
  simp only [hv.mem_toFinset_iff, Bool.not_eq_true]

theorem bitmapIsSetAll_iff (hv : Valid map) :
    bitmapIsSetAll map = true ↔ map.toFinset = Finset.range map.nBits := by
  have hb := lastWordIdx_bounds hv.nBits_pos
  rw [bitmapIsSetAll, Bool.and_eq_true, all_eq_allOnes_iff, hv.length_initWords, beq_iff_eq,
    eq_allOnes_iff, Finset.ext_iff]
  simp only [hv.mem_toFinset_iff, Finset.mem_range, bit_initWords, Bool.and_eq_true,
    decide_eq_true_eq, wordBit_or]
  constructor
  · rintro ⟨hinit, hlast⟩ i
    constructor
    · intro hi
      by_contra hge
      rw [hv.bit_of_le (not_lt.mp hge)] at hi
      exact Bool.false_ne_true hi
    · intro hi
      by_cases hiL : i < 64 * lastWordIdx map.nBits
      · exact (hinit i hiL).2
      · have hj : i - 64 * lastWordIdx map.nBits < 64 := by omega
        have hword := hlast _ hj
        rw [wordBit_lastBitMask hv.nBits_pos hj, decide_eq_false (by omega), Bool.or_false,
          ← bit_lastWord hj, show 64 * lastWordIdx map.nBits + (i - 64 * lastWordIdx map.nBits) = i by omega]
          at hword
        exact hword
  · intro h
    refine ⟨fun i hi => ⟨hi, (h i).mpr (by omega)⟩, fun j hj => ?_⟩
    rw [wordBit_lastBitMask hv.nBits_pos hj, ← bit_lastWord hj]
    by_cases hle : map.nBits ≤ 64 * lastWordIdx map.nBits + j
    · simp [hle]
    · rw [(h _).mpr (by omega), Bool.true_or]

/-- The loop of `bitmap_is_subset` and `bitmap_is_overlapping` finds a word
pair with a bit of `f` exactly when some member has that bit of `g`. -/
theorem anyWordPair_iff (ha : Valid a) (hb : Valid b) (hn : a.nBits = b.nBits)
    {f : UInt64 → UInt64 → UInt64} {g : Bool → Bool → Bool}
    (hf : ∀ x y j, j < 64 → wordBit (f x y) j = g (wordBit x j) (wordBit y j)) (hg : g false false = false) :
    anyWordPair f a b = true ↔ ∃ i, g (bit a.bitmap i) (bit b.bitmap i) = true := by
  have hlen : a.bitmap.length = b.bitmap.length := by rw [ha.length_bitmap, hb.length_bitmap, hn]
  rw [anyWordPair, any_ne_zero_iff, ha.words_eq]
  simp only [bit_zipWith_of_length_eq hf hg hlen]

theorem bitmapIsSubset_iff (ha : Valid a) (hb : Valid b) (hn : a.nBits = b.nBits) :
    bitmapIsSubset a b = true ↔ a.toFinset ⊆ b.toFinset := by
  rw [bitmapIsSubset, Bool.not_eq_true', ← Bool.not_eq_true,
    anyWordPair_iff ha hb hn (g := fun x y => x && !y) (fun x y j hj => by simp [hj]) rfl]
  simp only [Finset.subset_iff, ha.mem_toFinset_iff, hb.mem_toFinset_iff, not_exists,
    Bool.and_eq_true, Bool.not_eq_true']
  constructor
  · intro h i hi
    by_contra hbit
    exact h i ⟨hi, by simpa using hbit⟩
  · intro h i hi
    rw [h hi.1] at hi
    exact Bool.false_ne_true hi.2.symm

theorem bitmapIsOverlapping_iff (ha : Valid a) (hb : Valid b) (hn : a.nBits = b.nBits) :
    bitmapIsOverlapping a b = true ↔ (a.toFinset ∩ b.toFinset).Nonempty := by
  rw [bitmapIsOverlapping, anyWordPair_iff ha hb hn (g := fun x y => x && y) (fun x y j _ => by simp) rfl]
  simp only [Finset.Nonempty, Finset.mem_inter, ha.mem_toFinset_iff, hb.mem_toFinset_iff,
    Bool.and_eq_true]

/-- What `bitmap_union_is_set_all` computes: the union covers every word
before the last, and misses a bit of the last one. -/
theorem bitmapUnionIsSetAll_iff (ha : Valid a) (hb : Valid b) (hn : a.nBits = b.nBits) :
    bitmapUnionIsSetAll a b = true ↔
      (∀ i < 64 * lastWordIdx a.nBits, i ∈ a.toFinset ∪ b.toFinset) ∧
        ∃ i, 64 * lastWordIdx a.nBits ≤ i ∧ i < a.nBits ∧ i ∉ a.toFinset ∪ b.toFinset := by
  have hbd := lastWordIdx_bounds ha.nBits_pos
  have hmin : min a.initWords.length b.bitmap.length = lastWordIdx a.nBits := by
    rw [ha.length_initWords, hb.length_eq, hn]
    omega
  have hzip : ∀ i, bit (List.zipWith (· ||| ·) a.initWords b.bitmap) i =
      (decide (i < 64 * lastWordIdx a.nBits) && (bit a.bitmap i || bit b.bitmap i)) := by
    intro i
    rw [bit_zipWith (f := fun x y => x ||| y) (g := fun x y => x || y) (fun x y j _ => wordBit_or),
      hmin, bit_initWords]
    cases decide (i < 64 * lastWordIdx a.nBits) <;> rfl
  have hlastb : b.bitmap.getD (lastWordIdx a.nBits) 0 = b.lastWord := by rw [MyBitmap.lastWord, hn]
  have hmem : ∀ i, i ∈ a.toFinset ∪ b.toFinset ↔ (bit a.bitmap i || bit b.bitmap i) = true := by
    intro i
    rw [Finset.mem_union, ha.mem_toFinset_iff, hb.mem_toFinset_iff, Bool.or_eq_true]
  -- the words before the last
  have hinit : (List.zipWith (· ||| ·) a.initWords b.bitmap).all (· == ~~~0) = true ↔
      ∀ i < 64 * lastWordIdx a.nBits, i ∈ a.toFinset ∪ b.toFinset := by
    rw [all_eq_allOnes_iff, List.length_zipWith, hmin]
    simp only [hzip, hmem, Bool.and_eq_true, decide_eq_true_eq]
    exact forall₂_congr fun i hi => ⟨And.right, fun h => ⟨hi, h⟩⟩
  -- the last word, with the unused bits set by the mask
  have hlast : (a.lastWord ||| b.lastWord ||| lastBitMask a.nBits) ≠ ~~~0 ↔
      ∃ i, 64 * lastWordIdx a.nBits ≤ i ∧ i < a.nBits ∧ i ∉ a.toFinset ∪ b.toFinset := by
    rw [ne_eq, eq_allOnes_iff]
    simp only [not_forall, hmem, wordBit_or, Bool.or_eq_true, not_or, Bool.not_eq_true]
    constructor
    · rintro ⟨j, hj, ⟨ha', hb'⟩, hm⟩
      rw [wordBit_lastBitMask ha.nBits_pos hj, decide_eq_false_iff_not] at hm
      rw [← bit_lastWord hj] at ha'
      rw [← bit_lastWord hj, ← hn] at hb'
      exact ⟨64 * lastWordIdx a.nBits + j, by omega, by omega, ha', hb'⟩
    · rintro ⟨i, hi, hin, hbit⟩
      have hj : i - 64 * lastWordIdx a.nBits < 64 := by omega
      have hi' : i = 64 * lastWordIdx a.nBits + (i - 64 * lastWordIdx a.nBits) := by omega
      refine ⟨i - 64 * lastWordIdx a.nBits, hj, ⟨?_, ?_⟩, ?_⟩
      · rw [← bit_lastWord hj, ← hi', hbit.1]
      · rw [← bit_lastWord hj, ← hn, ← hi', hbit.2]
      · rw [wordBit_lastBitMask ha.nBits_pos hj, decide_eq_false_iff_not]
        omega
  rw [bitmapUnionIsSetAll, Bool.and_eq_true, hinit, bne_iff_ne, hlastb, hlast]

/-- `bitmap_is_prefix(map, k)` for `0 < k <= n_bits`: the members are the
bits below `k`. -/
theorem bitmapIsPrefix_iff (hv : Valid map) {k : Nat} (hk0 : 0 < k) (hk : k ≤ map.nBits) :
    bitmapIsPrefix map k = true ↔ map.toFinset = Finset.range k := by
  have hb := lastWordIdx_bounds hv.nBits_pos
  have hlen := hv.length_eq
  have htarget : map.toFinset = Finset.range k ↔ ∀ i, bit map.bitmap i = decide (i < k) := by
    rw [Finset.ext_iff]
    apply forall_congr'
    intro i
    rw [hv.mem_toFinset_iff, Finset.mem_range]
    by_cases hi : i < k
    · simp [hi]
    · simp [hi]
  -- the three loops of the code, each a statement about bits
  have hfull : (map.bitmap.take (k / 64)).all (· == ~~~0) = true ↔
      ∀ i < 64 * (k / 64), bit map.bitmap i = true := by
    rw [all_eq_allOnes_iff, List.length_take, Nat.min_eq_left (by omega)]
    simp only [bit_take, Bool.and_eq_true, decide_eq_true_eq]
    exact forall₂_congr fun i hi => ⟨And.right, fun h => ⟨hi, h⟩⟩
  have hpart : map.bitmap.getD (k / 64) 0 = lowMask (k % 64) ↔
      ∀ j < 64, bit map.bitmap (64 * (k / 64) + j) = decide (j < k % 64) := by
    rw [word_eq_iff]
    apply forall₂_congr
    intro j hj
    rw [wordBit_lowMask (Nat.mod_lt k (by decide)), bit_eq_getD,
      show (64 * (k / 64) + j) / 64 = k / 64 by omega, show (64 * (k / 64) + j) % 64 = j by omega]
  have hrest : ∀ r, (map.words.drop r).all (· == 0) = true ↔
      ∀ i, 64 * r ≤ i → bit map.bitmap i = false := by
    intro r
    rw [all_eq_zero_iff, hv.words_eq]
    simp only [bit_drop]
    constructor
    · intro h i hi
      have hbit := h (i - 64 * r)
      rwa [Nat.sub_add_cancel hi] at hbit
    · intro h i
      exact h _ (by omega)
  rw [bitmapIsPrefix, if_neg (by omega), htarget]
  simp only [and_mapBits]
  simp only [show myBitmapMapBits = 64 from rfl, Bool.and_eq_true, Bool.or_eq_true, beq_iff_eq,
    hfull, hpart, hrest]
  by_cases hmod : k % 64 = 0
  · -- the prefix ends at a word boundary
    simp only [hmod, ne_eq, not_true_eq_false, ↓reduceIte, true_or, and_true]
    constructor
    · rintro ⟨hlow, hhigh⟩ i
      by_cases hi : i < k
      · rw [hlow i (by omega), decide_eq_true hi]
      · rw [hhigh i (by omega), decide_eq_false hi]
    · intro h
      exact ⟨fun i hi => by rw [h, decide_eq_true (by omega)],
        fun i hi => by rw [h, decide_eq_false (by omega)]⟩
  · simp only [hmod, ne_eq, not_false_eq_true, ↓reduceIte, false_or]
    constructor
    · rintro ⟨⟨hlow, hmid⟩, hhigh⟩ i
      by_cases hi : i < 64 * (k / 64)
      · rw [hlow i hi, decide_eq_true (by omega)]
      · by_cases hi' : i < 64 * (k / 64 + 1)
        · rw [show i = 64 * (k / 64) + (i - 64 * (k / 64)) by omega, hmid _ (by omega)]
          simp only [decide_eq_decide]
          omega
        · rw [hhigh i (by omega), decide_eq_false (by omega)]
    · intro h
      refine ⟨⟨fun i hi => by rw [h, decide_eq_true (by omega)], fun j hj => ?_⟩,
        fun i hi => by rw [h, decide_eq_false (by omega)]⟩
      rw [h]
      simp only [decide_eq_decide]
      omega

/-- `bitmap_union_is_set_all` on maps of one bit: for `{0}` and `{}`, whose
union is every bit, it returns false; for `{}` and `{}` it returns true. -/
theorem bitmapUnionIsSetAll_inverted :
    Valid ⟨[1], 1⟩ ∧ Valid ⟨[0], 1⟩ ∧
      (⟨[1], 1⟩ : MyBitmap).toFinset ∪ (⟨[0], 1⟩ : MyBitmap).toFinset = Finset.range 1 ∧
      bitmapUnionIsSetAll ⟨[1], 1⟩ ⟨[0], 1⟩ = false ∧
      (⟨[0], 1⟩ : MyBitmap).toFinset ∪ (⟨[0], 1⟩ : MyBitmap).toFinset ≠ Finset.range 1 ∧
      bitmapUnionIsSetAll ⟨[0], 1⟩ ⟨[0], 1⟩ = true :=
  ⟨⟨by decide, by decide, by decide, by decide⟩, ⟨by decide, by decide, by decide, by decide⟩,
    by decide, by decide, by decide, by decide⟩

theorem meetAt_cons (m : MyBitmap) (maps : List MyBitmap) (k : Nat) (cur : UInt64) :
    meetAt (m :: maps) k cur = meetAt maps k (cur &&& m.bitmap.getD k 0) := rfl

/-- The words `bitmap_exists_intersection` ands together hold a bit exactly
when the starting word and every map's word at `k` do. -/
theorem meetAt_ne_zero_iff (maps : List MyBitmap) (k : Nat) (cur : UInt64) :
    meetAt maps k cur ≠ 0 ↔
      ∃ j < 64, wordBit cur j = true ∧ ∀ m ∈ maps, bit m.bitmap (64 * k + j) = true := by
  induction maps generalizing cur with
  | nil => simp [meetAt, eq_zero_iff]
  | cons m maps ih =>
    rw [meetAt_cons, ih]
    apply exists_congr
    intro j
    constructor
    · rintro ⟨hj, hcur, hall⟩
      rw [wordBit_and, Bool.and_eq_true] at hcur
      refine ⟨hj, hcur.1, ?_⟩
      intro m' hm'
      rcases List.mem_cons.mp hm' with rfl | hm'
      · rw [bit_eq_getD, show (64 * k + j) / 64 = k by omega, show (64 * k + j) % 64 = j by omega]
        exact hcur.2
      · exact hall m' hm'
    · rintro ⟨hj, hcur, hall⟩
      have hm := hall m List.mem_cons_self
      rw [bit_eq_getD, show (64 * k + j) / 64 = k by omega, show (64 * k + j) % 64 = j by omega] at hm
      exact ⟨hj, by rw [wordBit_and, hcur, hm]; rfl, fun m' hm' => hall m' (List.mem_cons_of_mem m hm')⟩

/-- `bitmap_exists_intersection` for `start_bit <= end_bit`: some bit from
`start_bit` to `end_bit` is in every map. -/
theorem bitmapExistsIntersection_iff (maps : List MyBitmap) {startBit endBit : Nat}
    (hse : startBit ≤ endBit) :
    bitmapExistsIntersection maps startBit endBit = true ↔
      ∃ i, startBit ≤ i ∧ i ≤ endBit ∧ ∀ m ∈ maps, bit m.bitmap i = true := by
  have hidx : lastWordIdx (endBit + 1) = endBit / 64 := by
    rw [lastWordIdx_eq (by omega)]
    omega
  have hlastRes : ∀ j < 64, wordBit (~~~(lastBitMask (endBit + 1))) j = decide (64 * (endBit / 64) + j ≤ endBit) := by
    intro j hj
    rw [wordBit_not, wordBit_lastBitMask (by omega) hj, hidx, decide_eq_true hj, Bool.true_and]
    by_cases hle : 64 * (endBit / 64) + j ≤ endBit
    · rw [decide_eq_true hle, decide_eq_false (by omega)]
      rfl
    · rw [decide_eq_false hle, decide_eq_true (by omega)]
      rfl
  simp only [bitmapExistsIntersection, Nat.div_div_eq_div_mul, Bool.or_eq_true, List.any_eq_true,
    List.mem_range'_1, bne_iff_ne, meetAt_ne_zero_iff]
  constructor
  · rintro (⟨k, hk, j, hj, hcur, hall⟩ | ⟨j, hj, hcur, hall⟩)
    · refine ⟨64 * k + j, ?_, by omega, hall⟩
      split_ifs at hcur with hks
      · rw [wordBit_firstBitMaskInv _ hj, decide_eq_true_eq] at hcur
        omega
      · omega
    · refine ⟨64 * (endBit / 64) + j, ?_, ?_, hall⟩
      · split_ifs at hcur with hks
        · rw [wordBit_and, wordBit_firstBitMaskInv _ hj, Bool.and_eq_true, decide_eq_true_eq] at hcur
          omega
        · omega
      · split_ifs at hcur
        · rw [wordBit_and, hlastRes j hj, Bool.and_eq_true, decide_eq_true_eq] at hcur
          exact hcur.1
        · rwa [hlastRes j hj, decide_eq_true_eq] at hcur
  · rintro ⟨i, hsi, hie, hall⟩
    have hi : i = 64 * (i / 64) + i % 64 := (Nat.div_add_mod i 64).symm
    have hj : i % 64 < 64 := Nat.mod_lt i (by decide)
    by_cases hlt : i / 64 < endBit / 64
    · refine Or.inl ⟨i / 64, by omega, i % 64, hj, ?_, fun m hm => by rw [← hi]; exact hall m hm⟩
      split_ifs with hks
      · rw [wordBit_firstBitMaskInv _ hj, decide_eq_true_eq]
        omega
      · rw [wordBit_not, wordBit_zero, decide_eq_true hj]
        rfl
    · refine Or.inr ⟨i % 64, hj, ?_, fun m hm => by rw [show 64 * (endBit / 64) + i % 64 = i by omega]; exact hall m hm⟩
      split_ifs with hks
      · rw [wordBit_and, hlastRes _ hj, wordBit_firstBitMaskInv _ hj, Bool.and_eq_true,
          decide_eq_true_eq, decide_eq_true_eq]
        omega
      · rw [hlastRes _ hj, decide_eq_true_eq]
        omega

end MapTests

/-- The read-only queries of my_bitmap.c on well-formed maps, over the sets
the maps denote. Two of them differ from a plain reading: the search from
`MY_BIT_NONE` wraps to the first member, and `bitmap_union_is_set_all` tests
the last word the wrong way round. -/
theorem myBitmap_queries_spec {map a b : MyBitmap} (hv : Valid map) (ha : Valid a) (hb : Valid b)
    (hn : a.nBits = b.nBits) :
    bitmapGetFirstSet map = leastOrNone map.toFinset ∧
      bitmapGetFirstClear map = leastOrNone (Finset.range map.nBits \ map.toFinset) ∧
      (∀ c, c + 1 < 2 ^ 32 → bitmapGetNextSet map c = leastOrNone (map.toFinset.filter (c < ·))) ∧
      bitmapGetNextSet map myBitNone = bitmapGetFirstSet map ∧
      (bitmapIsClearAll map = true ↔ map.toFinset = ∅) ∧
      (bitmapIsSetAll map = true ↔ map.toFinset = Finset.range map.nBits) ∧
      (∀ k, 0 < k → k ≤ map.nBits → (bitmapIsPrefix map k = true ↔ map.toFinset = Finset.range k)) ∧
      (bitmapIsSubset a b = true ↔ a.toFinset ⊆ b.toFinset) ∧
      (bitmapIsOverlapping a b = true ↔ (a.toFinset ∩ b.toFinset).Nonempty) ∧
      (bitmapUnionIsSetAll a b = true ↔
        (∀ i < 64 * lastWordIdx a.nBits, i ∈ a.toFinset ∪ b.toFinset) ∧
          ∃ i, 64 * lastWordIdx a.nBits ≤ i ∧ i < a.nBits ∧ i ∉ a.toFinset ∪ b.toFinset) ∧
      (∀ (maps : List MyBitmap) (startBit endBit : Nat), startBit ≤ endBit →
        (bitmapExistsIntersection maps startBit endBit = true ↔
          ∃ i, startBit ≤ i ∧ i ≤ endBit ∧ ∀ m ∈ maps, bit m.bitmap i = true)) :=
  ⟨bitmapGetFirstSet_eq hv, bitmapGetFirstClear_eq hv, fun _ hc => bitmapGetNextSet_of_lt hv hc,
    bitmapGetNextSet_myBitNone hv, bitmapIsClearAll_iff hv, bitmapIsSetAll_iff hv,
    fun _ hk0 hk => bitmapIsPrefix_iff hv hk0 hk, bitmapIsSubset_iff ha hb hn, bitmapIsOverlapping_iff ha hb hn,
    bitmapUnionIsSetAll_iff ha hb hn, fun maps _ _ hse => bitmapExistsIntersection_iff maps hse⟩

/-- The queries on `{0, 2}` and `{1, 2}`, two maps of three bits. -/
theorem myBitmap_queries_spec_three_bits :
    Valid ⟨[5], 3⟩ ∧ Valid ⟨[6], 3⟩ ∧
      bitmapGetFirstClear ⟨[5], 3⟩ = leastOrNone (Finset.range 3 \ (⟨[5], 3⟩ : MyBitmap).toFinset) :=
  have ha : Valid ⟨[5], 3⟩ := ⟨by decide, by decide, by decide, by decide⟩
  have hb : Valid ⟨[6], 3⟩ := ⟨by decide, by decide, by decide, by decide⟩
  ⟨ha, hb, (@myBitmap_queries_spec ⟨[5], 3⟩ ⟨[5], 3⟩ ⟨[6], 3⟩ ha ha hb rfl).2.1⟩

end MariaDB.Bitmap
