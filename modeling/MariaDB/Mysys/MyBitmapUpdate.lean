import Mathlib.Order.Interval.Finset.Nat
import MariaDB.Mysys.MyBitmapQuery

set_option autoImplicit false

/- What the updates of mysys/my_bitmap.c do to the sets that well-formed
maps denote, and that they keep maps well formed; and that export and import
move the bits through the same bytes on either byte order. Each update is
specified by the bits of the words it leaves, from which its set and its
well-formedness follow. -/
namespace MariaDB.Bitmap

open Words
open LittleEndian (toBytes ofBytes)

section Shape

variable {map a b : MyBitmap}

@[simp] theorem nBits_bitmapSetBit (k : Nat) : (bitmapSetBit map k).nBits = map.nBits := rfl

@[simp] theorem nBits_bitmapSetPrefix (k : Nat) : (bitmapSetPrefix map k).nBits = map.nBits := rfl

@[simp] theorem nBits_bitmapIntersect : (bitmapIntersect a b).nBits = a.nBits := by
  simp only [bitmapIntersect]
  split <;> rfl

@[simp] theorem nBits_combineWords (f : UInt64 → UInt64 → UInt64) :
    (combineWords f a b).nBits = a.nBits := rfl

@[simp] theorem nBits_bitmapInvert : (bitmapInvert map).nBits = map.nBits := rfl

@[simp] theorem nBits_bitmapCopy : (bitmapCopy a b).nBits = a.nBits := rfl

/-- A map with the `n_bits` and the number of words of a well-formed one, and
no bit set from `n_bits` on, is well formed. -/
theorem Valid.of_shape {m : MyBitmap} (hv : Valid map) (hn : m.nBits = map.nBits)
    (hlen : m.bitmap.length = map.bitmap.length) (h : ∀ i, map.nBits ≤ i → bit m.bitmap i = false) :
    Valid m := by
  apply Valid.of_bit
  · rw [hn]
    exact hv.nBits_pos
  · rw [hn]
    exact hv.nBits_lt
  · rw [hlen, hn]
    exact hv.length_bitmap
  · intro i hi
    exact h i (hn ▸ hi)

theorem Valid.decide_mem_toFinset (hv : Valid map) (i : Nat) :
    decide (i ∈ map.toFinset) = bit map.bitmap i := by
  rw [Bool.eq_iff_iff, decide_eq_true_iff, hv.mem_toFinset_iff]

/-- Clearing the unused bits of the last word of an `n_bits` map: the
`*map->last_word_ptr &= ~map->last_word_mask` that ends several updates. -/
theorem bit_clearUnused {ws : List UInt64} {n : Nat} (hn : 0 < n) (hk : lastWordIdx n < ws.length)
    (i : Nat) :
    bit (ws.modify (lastWordIdx n) (· &&& ~~~(lastBitMask n))) i =
      if i / 64 = lastWordIdx n then (bit ws i && decide (i < n)) else bit ws i := by
  have hf : ∀ (w : UInt64) j, j < 64 →
      wordBit (w &&& ~~~(lastBitMask n)) j = (wordBit w j && !decide (n ≤ 64 * lastWordIdx n + j)) := by
    intro w j hj
    rw [wordBit_and, wordBit_not, wordBit_lastBitMask hn hj, decide_eq_true hj, Bool.true_and]
  rw [bit_modify_of_wordBit (g := fun j x => x && !decide (n ≤ 64 * lastWordIdx n + j)) hf hk]
  split_ifs with hi
  · have hidx : 64 * lastWordIdx n + i % 64 = i := by omega
    simp only [hidx, ← decide_not, Nat.not_le]
  · rfl

/-- Clearing the unused bits of words that hold `p` below `n_bits` leaves
exactly `p` below `n_bits`. -/
theorem bit_clearUnused_eq {ws : List UInt64} {n : Nat} {p : Nat → Bool} (hn : 0 < n)
    (hlen : ws.length = lastWordIdx n + 1) (h : ∀ i, i < n → bit ws i = p i) (i : Nat) :
    bit (ws.modify (lastWordIdx n) (· &&& ~~~(lastBitMask n))) i = (decide (i < n) && p i) := by
  have hb := lastWordIdx_bounds hn
  rw [bit_clearUnused hn (by omega)]
  by_cases hi : i < n
  · rw [h i hi, decide_eq_true hi, Bool.true_and]
    split_ifs <;> simp only [Bool.and_true]
  · rw [decide_eq_false hi, Bool.false_and]
    split_ifs
    · rw [Bool.and_false]
    · exact bit_of_le (by omega)

end Shape

section SetBit

variable {map : MyBitmap}

theorem bit_bitmapSetBit {k : Nat} (hk : k < 64 * map.bitmap.length) (i : Nat) :
    bit (bitmapSetBit map k).bitmap i = (bit map.bitmap i || decide (i = k)) := by
  have hk64 : k % 64 < 64 := Nat.mod_lt _ (by decide)
  have hf : ∀ (w : UInt64) j, j < 64 →
      wordBit (w ||| (1 : UInt64) <<< (k % 64).toUInt64) j = (wordBit w j || decide (k % 64 = j)) := by
    intro w j _
    rw [wordBit_or, wordBit_shiftLeft_one hk64]
  simp only [bitmapSetBit, and_mapBits]
  simp only [show myBitmapMapBits = 64 from rfl]
  rw [bit_modify_of_wordBit (g := fun j x => x || decide (k % 64 = j)) hf (by omega)]
  split_ifs with hi
  · congr 1
    simp only [decide_eq_decide]
    omega
  · have hne : i ≠ k := fun h => hi (h ▸ rfl)
    rw [decide_eq_false hne, Bool.or_false]

/-- `bitmap_set_bit` adds its bit to the set. -/
theorem bitmapSetBit_spec (hv : Valid map) {k : Nat} (hk : k < map.nBits) :
    Valid (bitmapSetBit map k) ∧ (bitmapSetBit map k).toFinset = insert k map.toFinset := by
  have hb := lastWordIdx_bounds hv.nBits_pos
  have hbit := @bit_bitmapSetBit map k (by rw [hv.length_eq]; omega)
  have hvalid : Valid (bitmapSetBit map k) := by
    apply hv.of_shape (nBits_bitmapSetBit k) (List.length_modify ..)
    intro i hi
    rw [hbit, hv.bit_of_le hi, decide_eq_false (by omega), Bool.false_or]
  refine ⟨hvalid, ?_⟩
  ext i
  rw [hvalid.mem_toFinset_iff, hbit, Finset.mem_insert, hv.mem_toFinset_iff, Bool.or_eq_true,
    decide_eq_true_eq, or_comm]

end SetBit

section Updates

variable {map a b : MyBitmap}

theorem bit_bitmapSetPrefix (k i : Nat) :
    bit (bitmapSetPrefix map k).bitmap i = decide (i < min k map.nBits) := by
  generalize hp : min k map.nBits = p
  simp only [bitmapSetPrefix, hp, and_mapBits]
  simp only [show myBitmapMapBits = 64 from rfl]
  by_cases hmod : p % 64 = 0
  · -- whole words of ones only
    simp only [hmod, ne_eq, not_true_eq_false, ↓reduceIte]
    rw [bit_append, List.length_replicate]
    split_ifs with hi
    · rw [bit_replicate_allOnes, decide_eq_true hi, decide_eq_true (by omega)]
    · rw [bit_replicate_zero, decide_eq_false (by omega)]
  · -- whole words of ones, then the low `p % 64` bits of one more
    simp only [hmod, ne_eq, not_false_eq_true, ↓reduceIte]
    rw [bit_append, List.length_append, List.length_replicate, List.length_singleton]
    split_ifs with hi
    · rw [bit_append, List.length_replicate]
      split_ifs with hi'
      · rw [bit_replicate_allOnes, decide_eq_true hi', decide_eq_true (by omega)]
      · rw [bit_singleton, wordBit_lowMask (Nat.mod_lt _ (by decide))]
        simp only [decide_eq_decide]
        omega
    · rw [bit_replicate_zero, decide_eq_false (by omega)]

theorem length_bitmapSetPrefix (hv : Valid map) (k : Nat) :
    (bitmapSetPrefix map k).bitmap.length = map.bitmap.length := by
  have hb := lastWordIdx_bounds hv.nBits_pos
  rw [hv.length_eq]
  simp only [bitmapSetPrefix, and_mapBits]
  simp only [show myBitmapMapBits = 64 from rfl]
  split_ifs with hmod
  · simp only [List.length_append, List.length_replicate, List.length_singleton]
    omega
  · simp only [List.length_append, List.length_replicate]
    omega

/-- `bitmap_set_prefix(map, k)` leaves the bits below `min(k, n_bits)`. -/
theorem bitmapSetPrefix_spec (hv : Valid map) (k : Nat) :
    Valid (bitmapSetPrefix map k) ∧ (bitmapSetPrefix map k).toFinset = Finset.range (min k map.nBits) := by
  constructor
  · apply hv.of_shape (nBits_bitmapSetPrefix k) (length_bitmapSetPrefix hv k)
    intro i hi
    rw [bit_bitmapSetPrefix, decide_eq_false (by omega)]
  · ext i
    rw [mem_toFinset, nBits_bitmapSetPrefix, bit_bitmapSetPrefix, decide_eq_true_eq, Finset.mem_range]
    omega

theorem bit_bitmapIntersect (ha : Valid a) (hb : Valid b) (i : Nat) :
    bit (bitmapIntersect a b).bitmap i = (bit a.bitmap i && bit b.bitmap i) := by
  have hba := lastWordIdx_bounds ha.nBits_pos
  have hbb := lastWordIdx_bounds hb.nBits_pos
  have hla := ha.length_eq
  have hlb := hb.length_eq
  simp only [bitmapIntersect, noWordsInMap_eq ha.nBits_pos, noWordsInMap_eq hb.nBits_pos]
  generalize hc : List.zipWith (· &&& ·)
    (a.bitmap.take (min (lastWordIdx a.nBits + 1) (lastWordIdx b.nBits + 1))) b.bitmap = common
  -- the words both maps have, anded
  have hclen : common.length = min (lastWordIdx a.nBits + 1) (lastWordIdx b.nBits + 1) := by
    rw [← hc, List.length_zipWith, List.length_take]
    omega
  have hcbit : ∀ j, bit common j =
      (decide (j < 64 * min (lastWordIdx a.nBits + 1) (lastWordIdx b.nBits + 1)) &&
        (bit a.bitmap j && bit b.bitmap j)) := by
    intro j
    have hmin : min (min (min (lastWordIdx a.nBits + 1) (lastWordIdx b.nBits + 1)) a.bitmap.length)
        b.bitmap.length = min (lastWordIdx a.nBits + 1) (lastWordIdx b.nBits + 1) := by
      omega
    rw [← hc, bit_zipWith (g := (· && ·)) fun _ _ _ _ => wordBit_and, bit_take, List.length_take, hmin,
      Bool.and_assoc]
    cases decide (j < 64 * min (lastWordIdx a.nBits + 1) (lastWordIdx b.nBits + 1)) <;> rfl
  split_ifs with hle
  · -- `map2` is no longer: its last word masked, `map`'s further words zeroed
    rw [bit_append, List.length_modify, hclen, Nat.add_sub_cancel,
      bit_clearUnused hb.nBits_pos (by omega), hcbit]
    split_ifs with hi hidx
    · rw [decide_eq_true (by omega), Bool.true_and]
      by_cases hin : i < b.nBits
      · rw [decide_eq_true hin, Bool.and_true]
      · rw [decide_eq_false hin, Bool.and_false, hb.bit_of_le (by omega), Bool.and_false]
    · rw [decide_eq_true (by omega), Bool.true_and]
    · rw [bit_replicate_zero, hb.bit_of_le (by omega), Bool.and_false]
  · rw [hcbit]
    by_cases hi : i < 64 * min (lastWordIdx a.nBits + 1) (lastWordIdx b.nBits + 1)
    · rw [decide_eq_true hi, Bool.true_and]
    · rw [decide_eq_false hi, Bool.false_and, ha.bit_of_le (by omega), Bool.false_and]

theorem length_bitmapIntersect (ha : Valid a) (hb : Valid b) :
    (bitmapIntersect a b).bitmap.length = a.bitmap.length := by
  have hla := ha.length_eq
  simp only [bitmapIntersect, noWordsInMap_eq ha.nBits_pos, noWordsInMap_eq hb.nBits_pos]
  split_ifs with hle
  · simp only [List.length_append, List.length_modify, List.length_zipWith, List.length_take,
      List.length_replicate, hb.length_eq]
    omega
  · simp only [List.length_zipWith, List.length_take, hb.length_eq]
    omega

/-- `bitmap_intersect(map, map2)` leaves the members of both. -/
theorem bitmapIntersect_spec (ha : Valid a) (hb : Valid b) :
    Valid (bitmapIntersect a b) ∧ (bitmapIntersect a b).toFinset = a.toFinset ∩ b.toFinset := by
  have hvalid : Valid (bitmapIntersect a b) := by
    apply ha.of_shape nBits_bitmapIntersect (length_bitmapIntersect ha hb)
    intro i hi
    rw [bit_bitmapIntersect ha hb, ha.bit_of_le hi, Bool.false_and]
  refine ⟨hvalid, ?_⟩
  ext i
  rw [hvalid.mem_toFinset_iff, bit_bitmapIntersect ha hb, Finset.mem_inter, ha.mem_toFinset_iff,
    hb.mem_toFinset_iff, Bool.and_eq_true]

/-- The word loop of `bitmap_subtract`, `bitmap_union` and `bitmap_xor` on two
maps of one `n_bits`, for an operation that acts on each bit by `g`. -/
theorem bit_combineWords {f : UInt64 → UInt64 → UInt64} {g : Bool → Bool → Bool}
    (hf : ∀ x y j, j < 64 → wordBit (f x y) j = g (wordBit x j) (wordBit y j)) (hg : g false false = false)
    (ha : Valid a) (hb : Valid b) (hn : a.nBits = b.nBits) (i : Nat) :
    bit (combineWords f a b).bitmap i = g (bit a.bitmap i) (bit b.bitmap i) := by
  rw [combineWords, ha.words_eq]
  exact bit_zipWith_of_length_eq hf hg (by rw [ha.length_eq, hb.length_eq, hn])

theorem combineWords_spec {f : UInt64 → UInt64 → UInt64} {g : Bool → Bool → Bool}
    (hf : ∀ x y j, j < 64 → wordBit (f x y) j = g (wordBit x j) (wordBit y j)) (hg : g false false = false)
    (ha : Valid a) (hb : Valid b) (hn : a.nBits = b.nBits) :
    Valid (combineWords f a b) ∧ ∀ i, i ∈ (combineWords f a b).toFinset ↔
      g (decide (i ∈ a.toFinset)) (decide (i ∈ b.toFinset)) = true := by
  have hbit := bit_combineWords hf hg ha hb hn
  have hvalid : Valid (combineWords f a b) := by
    apply ha.of_shape (nBits_combineWords f)
    · rw [combineWords, ha.words_eq, List.length_zipWith, ha.length_eq, hb.length_eq, hn, Nat.min_self]
    · intro i hi
      rw [hbit, ha.bit_of_le hi, hb.bit_of_le (hn ▸ hi), hg]
  refine ⟨hvalid, fun i => ?_⟩
  rw [hvalid.mem_toFinset_iff, hbit, ha.decide_mem_toFinset, hb.decide_mem_toFinset]

/-- `bitmap_subtract(map, map2)` on maps of one `n_bits` leaves the members of
`map` that `map2` lacks. -/
theorem bitmapSubtract_spec (ha : Valid a) (hb : Valid b) (hn : a.nBits = b.nBits) :
    Valid (bitmapSubtract a b) ∧ (bitmapSubtract a b).toFinset = a.toFinset \ b.toFinset := by
  have hf : ∀ x y j, j < 64 → wordBit (x &&& ~~~y) j = (wordBit x j && !wordBit y j) := by
    intro x y j hj
    rw [wordBit_and, wordBit_not, decide_eq_true hj, Bool.true_and]
  obtain ⟨hvalid, hmem⟩ := combineWords_spec (g := fun x y => x && !y) hf rfl ha hb hn
  refine ⟨hvalid, ?_⟩
  ext i
  rw [bitmapSubtract, hmem, Finset.mem_sdiff, Bool.and_eq_true, Bool.not_eq_true', decide_eq_true_eq,
    decide_eq_false_iff_not]

/-- `bitmap_union(map, map2)` on maps of one `n_bits` leaves the members of either. -/
theorem bitmapUnion_spec (ha : Valid a) (hb : Valid b) (hn : a.nBits = b.nBits) :
    Valid (bitmapUnion a b) ∧ (bitmapUnion a b).toFinset = a.toFinset ∪ b.toFinset := by
  obtain ⟨hvalid, hmem⟩ := combineWords_spec (g := (· || ·)) (fun _ _ _ _ => wordBit_or) rfl ha hb hn
  refine ⟨hvalid, ?_⟩
  ext i
  rw [bitmapUnion, hmem, Finset.mem_union, Bool.or_eq_true, decide_eq_true_eq, decide_eq_true_eq]

/-- `bitmap_xor(map, map2)` on maps of one `n_bits` leaves the members of
exactly one. -/
theorem bitmapXor_spec (ha : Valid a) (hb : Valid b) (hn : a.nBits = b.nBits) :
    Valid (bitmapXor a b) ∧ (bitmapXor a b).toFinset = symmDiff a.toFinset b.toFinset := by
  obtain ⟨hvalid, hmem⟩ := combineWords_spec (g := (· ^^ ·)) (fun _ _ _ _ => wordBit_xor) rfl ha hb hn
  refine ⟨hvalid, ?_⟩
  ext i
  rw [bitmapXor, hmem, Finset.mem_symmDiff]
  by_cases hia : i ∈ a.toFinset <;> by_cases hib : i ∈ b.toFinset <;> simp [hia, hib]

theorem bit_bitmapInvert (hv : Valid map) (i : Nat) :
    bit (bitmapInvert map).bitmap i = (decide (i < map.nBits) && !bit map.bitmap i) := by
  have hb := lastWordIdx_bounds hv.nBits_pos
  have hflip : ∀ (x : UInt64) j, j < 64 → wordBit (x ^^^ ~~~0) j = !wordBit x j := by
    intro x j hj
    rw [wordBit_xor, wordBit_not, wordBit_zero, decide_eq_true hj, Bool.not_false, Bool.true_and,
      Bool.xor_true]
  simp only [bitmapInvert]
  rw [bit_append, List.length_map, hv.length_initWords, bit_map hflip, hv.length_initWords,
    bit_initWords]
  split_ifs with hi
  · -- a word before the last: every bit flipped
    simp only [decide_eq_true hi, decide_eq_true (show i < map.nBits by omega), Bool.true_and]
  · -- the last word: its used bits flipped
    rw [bit_singleton]
    by_cases hj : i - 64 * lastWordIdx map.nBits < 64
    · have hidx : 64 * lastWordIdx map.nBits + (i - 64 * lastWordIdx map.nBits) = i := by omega
      rw [wordBit_xor, wordBit_and, wordBit_not, wordBit_not, wordBit_zero,
        wordBit_lastBitMask hv.nBits_pos hj, ← bit_lastWord hj, hidx, decide_eq_true hj]
      by_cases hin : i < map.nBits
      · rw [decide_eq_false (show ¬map.nBits ≤ i by omega), decide_eq_true hin]
        simp
      · rw [hv.bit_of_le (show map.nBits ≤ i by omega), decide_eq_true (show map.nBits ≤ i by omega),
          decide_eq_false hin]
        rfl
    · rw [wordBit_of_le (by omega), decide_eq_false (by omega), Bool.false_and]

/-- `bitmap_invert` leaves the positions below `n_bits` the map lacks. -/
theorem bitmapInvert_spec (hv : Valid map) :
    Valid (bitmapInvert map) ∧ (bitmapInvert map).toFinset = Finset.range map.nBits \ map.toFinset := by
  have hvalid : Valid (bitmapInvert map) := by
    apply hv.of_shape nBits_bitmapInvert
    · simp only [bitmapInvert, List.length_append, List.length_map, List.length_singleton,
        hv.length_initWords, hv.length_eq]
    · intro i hi
      rw [bit_bitmapInvert hv, decide_eq_false (by omega), Bool.false_and]
  refine ⟨hvalid, ?_⟩
  ext i
  rw [hvalid.mem_toFinset_iff, bit_bitmapInvert hv, Finset.mem_sdiff, Finset.mem_range,
    hv.mem_toFinset_iff, Bool.and_eq_true, decide_eq_true_eq, Bool.not_eq_true', Bool.not_eq_true]

theorem bit_bitmapCopy (ha : Valid a) (hb : Valid b) (i : Nat) :
    bit (bitmapCopy a b).bitmap i =
      (decide (i < a.nBits) && if i < b.nBits then bit b.bitmap i else bit a.bitmap i) := by
  have hba := lastWordIdx_bounds ha.nBits_pos
  have hbb := lastWordIdx_bounds hb.nBits_pos
  have hla := ha.length_eq
  have hlb := hb.length_eq
  simp only [bitmapCopy, noWordsInMap_eq ha.nBits_pos, noWordsInMap_eq hb.nBits_pos, Nat.add_sub_cancel]
  generalize hm : min (lastWordIdx a.nBits + 1) (lastWordIdx b.nBits) = m
  -- the first `m` words of `map2`, then `map`'s
  have h0 : ∀ j, bit (b.bitmap.take m ++ a.bitmap.drop m) j =
      if j < 64 * m then bit b.bitmap j else bit a.bitmap j := by
    intro j
    rw [bit_append, List.length_take, bit_take, bit_drop, show min m b.bitmap.length = m by omega]
    split_ifs with hj
    · rw [decide_eq_true hj, Bool.true_and]
    · rw [show j - 64 * m + 64 * m = j by omega]
  have h0len : (b.bitmap.take m ++ a.bitmap.drop m).length = lastWordIdx a.nBits + 1 := by
    simp only [List.length_append, List.length_take, List.length_drop]
    omega
  generalize b.bitmap.take m ++ a.bitmap.drop m = c0 at h0 h0len
  -- the used bits of `map2`'s last word are copied when it has no more words
  apply bit_clearUnused_eq ha.nBits_pos
  · split_ifs <;> simp only [List.length_modify, h0len]
  · intro j hj
    by_cases hle : lastWordIdx b.nBits + 1 ≤ lastWordIdx a.nBits + 1
    · rw [if_pos hle]
      have hmb : m = lastWordIdx b.nBits := by omega
      subst hmb
      have hf : ∀ (x : UInt64) k, k < 64 →
          wordBit ((b.bitmap.getD (lastWordIdx b.nBits) 0 &&& ~~~lastBitMask b.nBits) |||
            (x &&& lastBitMask b.nBits)) k =
            ((bit b.bitmap (64 * lastWordIdx b.nBits + k) &&
              !decide (b.nBits ≤ 64 * lastWordIdx b.nBits + k)) ||
              (wordBit x k && decide (b.nBits ≤ 64 * lastWordIdx b.nBits + k))) := by
        intro x k hk
        rw [wordBit_or, wordBit_and, wordBit_and, wordBit_not, wordBit_lastBitMask hb.nBits_pos hk,
          bit_lastWord hk, MyBitmap.lastWord, decide_eq_true hk, Bool.true_and]
      rw [bit_modify_of_wordBit (g := fun k x =>
        ((bit b.bitmap (64 * lastWordIdx b.nBits + k) && !decide (b.nBits ≤ 64 * lastWordIdx b.nBits + k)) ||
          (x && decide (b.nBits ≤ 64 * lastWordIdx b.nBits + k)))) hf (by omega), h0]
      by_cases hidx : j / 64 = lastWordIdx b.nBits
      · -- the last word of `map2`: its used bits copied, the others kept
        have hk : 64 * lastWordIdx b.nBits + j % 64 = j := by omega
        rw [if_pos hidx, if_neg (show ¬j < 64 * lastWordIdx b.nBits by omega), hk]
        by_cases hjb : j < b.nBits
        · rw [if_pos hjb, decide_eq_false (show ¬b.nBits ≤ j by omega)]
          simp
        · rw [if_neg hjb, decide_eq_true (show b.nBits ≤ j by omega)]
          simp
      · rw [if_neg hidx]
        by_cases hjm : j < 64 * lastWordIdx b.nBits
        · rw [if_pos hjm, if_pos (show j < b.nBits by omega)]
        · rw [if_neg hjm, if_neg (show ¬j < b.nBits by omega)]
    · rw [if_neg hle, h0, if_pos (show j < 64 * m by omega), if_pos (show j < b.nBits by omega)]

theorem length_bitmapCopy (ha : Valid a) (hb : Valid b) :
    (bitmapCopy a b).bitmap.length = a.bitmap.length := by
  simp only [bitmapCopy, noWordsInMap_eq ha.nBits_pos, noWordsInMap_eq hb.nBits_pos, Nat.add_sub_cancel]
  split_ifs <;>
  · simp only [List.length_modify, List.length_append, List.length_take, List.length_drop, ha.length_eq,
      hb.length_eq]
    omega

/-- `bitmap_copy(map, map2)` leaves the members of `map2` below both sizes and
those of `map` from `map2`'s size up to its own. -/
theorem bitmapCopy_spec (ha : Valid a) (hb : Valid b) :
    Valid (bitmapCopy a b) ∧
      (bitmapCopy a b).toFinset =
        b.toFinset ∩ Finset.range (min a.nBits b.nBits) ∪ a.toFinset ∩ Finset.Ico b.nBits a.nBits := by
  have hvalid : Valid (bitmapCopy a b) := by
    apply ha.of_shape nBits_bitmapCopy (length_bitmapCopy ha hb)
    intro i hi
    rw [bit_bitmapCopy ha hb, decide_eq_false (by omega), Bool.false_and]
  refine ⟨hvalid, ?_⟩
  ext i
  rw [hvalid.mem_toFinset_iff, bit_bitmapCopy ha hb, Finset.mem_union, Finset.mem_inter, Finset.mem_inter,
    Finset.mem_range, Finset.mem_Ico, ha.mem_toFinset_iff, hb.mem_toFinset_iff]
  by_cases hia : i < a.nBits <;> by_cases hib : i < b.nBits <;> simp [hia, hib, Nat.le_of_not_lt]

theorem leastOrNone_mem {s : Finset Nat} (h : leastOrNone s ≠ myBitNone) : leastOrNone s ∈ s := by
  unfold leastOrNone at h ⊢
  split_ifs at h ⊢ with hne
  · exact Finset.min'_mem s hne
  · exact absurd rfl h

/-- `bitmap_set_next` returns the least position below `n_bits` the map lacks,
`MY_BIT_NONE` when there is none, and adds what it returns to the set. -/
theorem bitmapSetNext_spec (hv : Valid map) :
    (bitmapSetNext map).2 = leastOrNone (Finset.range map.nBits \ map.toFinset) ∧
      Valid (bitmapSetNext map).1 ∧
      (bitmapSetNext map).1.toFinset =
        if (bitmapSetNext map).2 = myBitNone then map.toFinset
        else insert (bitmapSetNext map).2 map.toFinset := by
  have hclear := bitmapGetFirstClear_eq hv
  by_cases hnone : bitmapGetFirstClear map = myBitNone
  · have hpair : bitmapSetNext map = (map, myBitNone) := by
      simp [bitmapSetNext, hnone]
    rw [hpair]
    exact ⟨by rw [← hnone, hclear], hv, (if_pos rfl).symm⟩
  · have hpair : bitmapSetNext map = (bitmapSetBit map (bitmapGetFirstClear map), bitmapGetFirstClear map) := by
      simp [bitmapSetNext, hnone]
    have hmem := leastOrNone_mem (hclear ▸ hnone)
    rw [← hclear, Finset.mem_sdiff, Finset.mem_range] at hmem
    obtain ⟨hvalid, hset⟩ := bitmapSetBit_spec hv hmem.1
    rw [hpair]
    exact ⟨hclear, hvalid, by rw [if_neg hnone]; exact hset⟩

end Updates

section ExportImport

variable {map a d : MyBitmap}

theorem noBytesInExportMap_bounds (hv : Valid map) :
    8 * lastWordIdx map.nBits < noBytesInExportMap map.nBits ∧
      noBytesInExportMap map.nBits ≤ 8 * lastWordIdx map.nBits + 8 ∧
      map.nBits ≤ 8 * noBytesInExportMap map.nBits := by
  have hb := lastWordIdx_bounds hv.nBits_pos
  unfold noBytesInExportMap
  omega

theorem length_bitmapExport (hv : Valid map) : (bitmapExport map).length = noBytesInExportMap map.nBits := by
  have hb := noBytesInExportMap_bounds hv
  rw [bitmapExport, List.length_take, length_bytes, hv.length_eq]
  omega

/-- Bit `i` of the exported bytes, read as one little-endian number, is
member `i`. -/
theorem testBit_ofBytes_bitmapExport (hv : Valid map) (i : Nat) :
    (ofBytes (bitmapExport map)).testBit i = bit map.bitmap i := by
  have hb := noBytesInExportMap_bounds hv
  rw [bitmapExport, LittleEndian.testBit_ofBytes_take, ofBytes_bytes]
  by_cases hi : i < 8 * noBytesInExportMap map.nBits
  · rw [decide_eq_true hi, Bool.true_and]
    rfl
  · rw [decide_eq_false hi, Bool.false_and, hv.bit_of_le (by omega)]

/-- Bit `j` of byte `i` of the export is member `8 * i + j`. -/
theorem testBit_bitmapExport (hv : Valid map) (i : Nat) {j : Nat} (hj : j < 8) :
    ((bitmapExport map).getD i 0).toNat.testBit j = decide (8 * i + j ∈ map.toFinset) := by
  rw [← LittleEndian.testBit_ofBytes _ i hj, testBit_ofBytes_bitmapExport hv, hv.decide_mem_toFinset]

theorem lastWordLength_eq (hv : Valid map) :
    lastWordLength map.nBits = noBytesInExportMap map.nBits - 8 * lastWordIdx map.nBits := by
  have hb := noBytesInExportMap_bounds hv
  have hmod : (noBytesInExportMap map.nBits + 7) &&& 7 = (noBytesInExportMap map.nBits + 7) % 8 :=
    Nat.and_two_pow_sub_one_eq_mod _ 3
  rw [lastWordLength, hmod]
  omega

/-- The big-endian export writes the bytes the little-endian one copies: the
words before the last whole, and `1 + ((no_bytes_in_export_map + 7) & 7)`
bytes of the last. -/
theorem bitmapExportBigEndian_eq (hv : Valid map) : bitmapExportBigEndian map = bitmapExport map := by
  have hb := noBytesInExportMap_bounds hv
  have hinit : map.initWords.flatMap (fun w => toBytes 8 w.toNat) = bytes map.initWords := rfl
  have hbytes : bytes map.bitmap = bytes map.initWords ++ toBytes 8 map.lastWord.toNat := by
    rw [← hv.initWords_append, bytes, List.flatMap_append, List.flatMap_singleton]
    rfl
  have hfront : (bytes map.initWords).take (noBytesInExportMap map.nBits) = bytes map.initWords :=
    List.take_of_length_le (by rw [length_bytes, hv.length_initWords]; omega)
  rw [bitmapExportBigEndian, bitmapExport, hinit, hbytes, List.take_append, hfront, length_bytes,
    hv.length_initWords, lastWordLength_eq hv]

theorem bit_bitmapImport (ha : Valid a) (hd : Valid d) (hn : d.nBits = a.nBits) (i : Nat) :
    bit (bitmapImport d (bitmapExport a)).bitmap i = bit a.bitmap i := by
  have hb := noBytesInExportMap_bounds ha
  have hlb := lastWordIdx_bounds ha.nBits_pos
  have hlen : d.bitmap.length = lastWordIdx a.nBits + 1 := by rw [hd.length_eq, hn]
  simp only [bitmapImport, hn, hlen]
  -- the exported bytes, then the words' own bytes past them
  have hwords : ∀ j, j < a.nBits →
      bit (readWords (lastWordIdx a.nBits + 1) ((bitmapExport a).take (noBytesInExportMap a.nBits) ++
        (bytes d.bitmap).drop (noBytesInExportMap a.nBits))) j = bit a.bitmap j := by
    intro j hj
    have htake : (bitmapExport a).take (noBytesInExportMap a.nBits) = bitmapExport a :=
      List.take_of_length_le (by rw [length_bitmapExport ha])
    rw [bit, value_readWords, LittleEndian.testBit_ofBytes_take, decide_eq_true (by omega), Bool.true_and,
      LittleEndian.testBit_ofBytes_append, htake, length_bitmapExport ha, if_pos (by omega),
      testBit_ofBytes_bitmapExport ha]
  rw [bit_clearUnused_eq ha.nBits_pos (by rw [length_readWords]) hwords]
  by_cases hi : i < a.nBits
  · rw [decide_eq_true hi, Bool.true_and]
  · rw [decide_eq_false hi, Bool.false_and, ha.bit_of_le (by omega)]

/-- `bitmap_import` of what `bitmap_export` wrote, into a map of the same
`n_bits`, gives back the map. -/
theorem bitmapImport_bitmapExport (ha : Valid a) (hd : Valid d) (hn : d.nBits = a.nBits) :
    bitmapImport d (bitmapExport a) = a := by
  apply MyBitmap.ext
  · apply ext_bit
    · simp only [bitmapImport, List.length_modify, length_readWords, hd.length_eq, ha.length_eq, hn]
    · exact bit_bitmapImport ha hd hn
  · exact hn

theorem bit_bitmapImportBigEndian (ha : Valid a) (hn : d.nBits = a.nBits) (i : Nat) :
    bit (bitmapImportBigEndian d (bitmapExport a)).bitmap i = bit a.bitmap i := by
  have hb := noBytesInExportMap_bounds ha
  have hlb := lastWordIdx_bounds ha.nBits_pos
  have hlength := lastWordLength_eq ha
  simp only [bitmapImportBigEndian, hn]
  rw [bit_append, length_readWords]
  split_ifs with hi
  · -- a word before the last, read whole
    rw [bit, value_readWords, LittleEndian.testBit_ofBytes_take, decide_eq_true (by omega), Bool.true_and,
      testBit_ofBytes_bitmapExport ha]
  · -- the last word, from its first `length` bytes and zeros
    rw [bit_singleton]
    by_cases hj : i - 64 * lastWordIdx a.nBits < 64
    · have hidx : 64 * lastWordIdx a.nBits + (i - 64 * lastWordIdx a.nBits) = i := by omega
      have hbuff : ofBytes (((bitmapExport a).drop (8 * lastWordIdx a.nBits)).take (lastWordLength a.nBits))
          < 2 ^ 64 := by
        have hbound := LittleEndian.ofBytes_lt_two_pow
          (((bitmapExport a).drop (8 * lastWordIdx a.nBits)).take (lastWordLength a.nBits))
        rw [List.length_take] at hbound
        exact lt_of_lt_of_le hbound (Nat.pow_le_pow_right (by decide) (by omega))
      rw [wordBit_and, wordBit_not, wordBit_lastBitMask ha.nBits_pos hj, hidx, decide_eq_true hj,
        Bool.true_and, LittleEndian.ofBytes_append_replicate_zero, wordBit_def, UInt64.toNat_ofNat',
        Nat.mod_eq_of_lt hbuff, LittleEndian.testBit_ofBytes_take, LittleEndian.testBit_ofBytes_drop,
        testBit_ofBytes_bitmapExport ha, show i - 64 * lastWordIdx a.nBits + 8 * (8 * lastWordIdx a.nBits) = i
          by omega]
      by_cases hin : i < a.nBits
      · rw [decide_eq_true (show i - 64 * lastWordIdx a.nBits < 8 * lastWordLength a.nBits by omega),
          decide_eq_false (show ¬a.nBits ≤ i by omega)]
        simp
      · rw [ha.bit_of_le (show a.nBits ≤ i by omega), decide_eq_true (show a.nBits ≤ i by omega)]
        simp
    · rw [wordBit_of_le (by omega), ha.bit_of_le (by omega)]

/-- `bitmap_import` of what `bitmap_export` wrote on a big-endian machine,
into any map of the same `n_bits`, gives back the map. -/
theorem bitmapImportBigEndian_bitmapExportBigEndian (ha : Valid a) (hn : d.nBits = a.nBits) :
    bitmapImportBigEndian d (bitmapExportBigEndian a) = a := by
  rw [bitmapExportBigEndian_eq ha]
  apply MyBitmap.ext
  · apply ext_bit
    · simp only [bitmapImportBigEndian, List.length_append, length_readWords, List.length_singleton,
        ha.length_eq, hn]
    · exact bit_bitmapImportBigEndian ha hn
  · exact hn

end ExportImport

/-- On well-formed maps the updates of `my_bitmap.c` are the set operations
they are named for, restricted to the first map's `n_bits`, and leave
well-formed maps; export writes the members as bits of bytes on either byte
order, and import reads them back. -/
theorem myBitmap_mutators_correct (a b : MyBitmap) (ha : Valid a) (hb : Valid b) (k : Nat) :
    (Valid (bitmapSetPrefix a k) ∧ (bitmapSetPrefix a k).toFinset = Finset.range (min k a.nBits)) ∧
    (Valid (bitmapIntersect a b) ∧ (bitmapIntersect a b).toFinset = a.toFinset ∩ b.toFinset) ∧
    (a.nBits = b.nBits →
      (Valid (bitmapSubtract a b) ∧ (bitmapSubtract a b).toFinset = a.toFinset \ b.toFinset) ∧
      (Valid (bitmapUnion a b) ∧ (bitmapUnion a b).toFinset = a.toFinset ∪ b.toFinset) ∧
      (Valid (bitmapXor a b) ∧ (bitmapXor a b).toFinset = symmDiff a.toFinset b.toFinset)) ∧
    (Valid (bitmapInvert a) ∧ (bitmapInvert a).toFinset = Finset.range a.nBits \ a.toFinset) ∧
    (Valid (bitmapCopy a b) ∧
      (bitmapCopy a b).toFinset =
        b.toFinset ∩ Finset.range (min a.nBits b.nBits) ∪ a.toFinset ∩ Finset.Ico b.nBits a.nBits) ∧
    ((bitmapSetNext a).2 = leastOrNone (Finset.range a.nBits \ a.toFinset) ∧
      Valid (bitmapSetNext a).1 ∧
      (bitmapSetNext a).1.toFinset =
        if (bitmapSetNext a).2 = myBitNone then a.toFinset else insert (bitmapSetNext a).2 a.toFinset) ∧
    (bitmapExportBigEndian a = bitmapExport a ∧
      (bitmapExport a).length = noBytesInExportMap a.nBits ∧
      ∀ i j, j < 8 → ((bitmapExport a).getD i 0).toNat.testBit j = decide (8 * i + j ∈ a.toFinset)) ∧
    ∀ d : MyBitmap, Valid d → d.nBits = a.nBits →
      bitmapImport d (bitmapExport a) = a ∧ bitmapImportBigEndian d (bitmapExportBigEndian a) = a :=
  ⟨bitmapSetPrefix_spec ha k, bitmapIntersect_spec ha hb,
    fun hn => ⟨bitmapSubtract_spec ha hb hn, bitmapUnion_spec ha hb hn, bitmapXor_spec ha hb hn⟩,
    bitmapInvert_spec ha, bitmapCopy_spec ha hb, bitmapSetNext_spec ha,
    ⟨bitmapExportBigEndian_eq ha, length_bitmapExport ha, fun i _ hj => testBit_bitmapExport ha i hj⟩,
    fun _ hd hn => ⟨bitmapImport_bitmapExport ha hd hn, bitmapImportBigEndian_bitmapExportBigEndian ha hn⟩⟩

theorem myBitmap_mutators_correct_union :
    Valid ⟨[5], 3⟩ ∧ Valid ⟨[6], 3⟩ ∧
      (bitmapUnion ⟨[5], 3⟩ ⟨[6], 3⟩).toFinset = (⟨[5], 3⟩ : MyBitmap).toFinset ∪ (⟨[6], 3⟩ : MyBitmap).toFinset :=
  have ha : Valid ⟨[5], 3⟩ := ⟨by decide, by decide, by decide, by decide⟩
  have hb : Valid ⟨[6], 3⟩ := ⟨by decide, by decide, by decide, by decide⟩
  ⟨ha, hb, ((myBitmap_mutators_correct _ _ ha hb 0).2.2.1 rfl).2.1.2⟩

end MariaDB.Bitmap
