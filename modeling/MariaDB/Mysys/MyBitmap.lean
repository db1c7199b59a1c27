import Mathlib.Data.Finset.Filter
import Mathlib.Data.Finset.Range
import MariaDB.Bits.Words

set_option autoImplicit false

/- The bitmaps of mysys/my_bitmap.c and include/my_bitmap.h. A `MY_BITMAP` is
an array of 64-bit words and the number of bits it holds; member `i` is bit
`i % 64` of word `i / 64`, and the unused bits of the last word are kept
zero. `last_word_ptr` and `last_bit_mask` are what `create_last_bit_mask`
computes from `n_bits`, so they are computed here where the code reads them.
A loop `while (p <= end)` over the words from `map->bitmap` to
`map->last_word_ptr` visits `MyBitmap.words`, a loop `while (p < end)` the
words before the last, `MyBitmap.initWords`. Counts and bit positions are
`uint` in the source; they stay below `2 ^ 32` because `n_bits` is a
`uint32`, and are natural numbers here, with the one wrap-around the code
can reach (`bitmap_bit++` in `bitmap_get_next_set`) written out. -/
namespace MariaDB.Bitmap

open Words
open LittleEndian (toBytes ofBytes)

/-- `MY_BIT_NONE`, `~(uint) 0`. -/
def myBitNone : Nat := 2 ^ 32 - 1

/-- `my_bitmap_map_bits`, the bits of a `ulonglong`. -/
def myBitmapMapBits : Nat := 64

/-- The words of a `MY_BITMAP` and its `n_bits`. -/
@[ext]
structure MyBitmap where
  bitmap : List UInt64
  nBits : Nat
  deriving DecidableEq, Repr

/-- `no_words_in_map`. -/
def noWordsInMap (nBits : Nat) : Nat := (nBits + (myBitmapMapBits - 1)) / myBitmapMapBits

/-- `no_bytes_in_export_map`. -/
def noBytesInExportMap (nBits : Nat) : Nat := (nBits + 7) / 8

/-- Where `last_word_ptr` points: `bitmap + MY_MAX(no_words_in_map(map), 1) - 1`. -/
def lastWordIdx (nBits : Nat) : Nat := max (noWordsInMap nBits) 1 - 1

/-- `last_bit_mask(bits)`: the bits of the last word beyond `bits`, none
when `bits` fills it. -/
def lastBitMask (bits : Nat) : UInt64 :=
  let bitsInLastMap := bits &&& (myBitmapMapBits - 1)
  if bitsInLastMap ≠ 0 then ~~~(lowMask bitsInLastMap) else 0

/-- `first_bit_mask_inv(bits)`: the bits of a word from `bits & 63` up. -/
def firstBitMaskInv (bits : Nat) : UInt64 :=
  ~~~(lowMask (bits &&& (myBitmapMapBits - 1)))

namespace MyBitmap

/-- `*map->last_word_ptr`. -/
def lastWord (map : MyBitmap) : UInt64 := map.bitmap.getD (lastWordIdx map.nBits) 0

/-- The words from `map->bitmap` to `map->last_word_ptr`. -/
def words (map : MyBitmap) : List UInt64 := map.bitmap.take (lastWordIdx map.nBits + 1)

/-- The words before `map->last_word_ptr`. -/
def initWords (map : MyBitmap) : List UInt64 := map.bitmap.take (lastWordIdx map.nBits)

end MyBitmap

/-! ### Single bits and whole maps (my_bitmap.h) -/

/-- `bitmap_is_set`. -/
def bitmapIsSet (map : MyBitmap) (bit : Nat) : Bool :=
  (map.bitmap.getD (bit / myBitmapMapBits) 0 &&&
    (1 : UInt64) <<< (bit &&& (myBitmapMapBits - 1)).toUInt64) != 0

/-- `bitmap_set_bit`. -/
def bitmapSetBit (map : MyBitmap) (bit : Nat) : MyBitmap :=
  let mask : UInt64 := (1 : UInt64) <<< (bit &&& (myBitmapMapBits - 1)).toUInt64
  { map with bitmap := map.bitmap.modify (bit / myBitmapMapBits) (· ||| mask) }

/-- `bitmap_clear_all`: `my_bitmap_buffer_size(map)` bytes of zeros. -/
def bitmapClearAll (map : MyBitmap) : MyBitmap :=
  { map with bitmap := List.replicate (noWordsInMap map.nBits) 0 }

/-- `bitmap_set_all`: every word but the last all ones, the last one
`~last_bit_mask`. -/
def bitmapSetAll (map : MyBitmap) : MyBitmap :=
  if map.nBits ≠ 0 then
    { map with bitmap := List.replicate (noWordsInMap map.nBits - 1) (~~~0) ++
        [~~~(lastBitMask map.nBits)] }
  else map

/-- `create_last_bit_mask`: the unused bits of the last word cleared. -/
def createLastBitMask (map : MyBitmap) : MyBitmap :=
  if map.nBits > 0 then
    { map with bitmap := map.bitmap.modify (lastWordIdx map.nBits) (· &&& ~~~(lastBitMask map.nBits)) }
  else map

/-- `my_bitmap_init` over a buffer `buf` of `bitmap_buffer_size(n_bits)` bytes. -/
def myBitmapInit (buf : List UInt64) (nBits : Nat) : MyBitmap :=
  bitmapClearAll (createLastBitMask ⟨buf, nBits⟩)

/-! ### Queries -/

/-- `bitmap_is_prefix`: the words below `prefix_size / 64` all ones, the
next one the low `prefix_size & 63` bits if there are such bits, and every
later word up to the last zero. -/
def bitmapIsPrefix (map : MyBitmap) (prefixSize : Nat) : Bool :=
  if prefixSize = 0 then true
  else
    let endIdx := prefixSize / myBitmapMapBits
    let prefixBits := prefixSize &&& (myBitmapMapBits - 1)
    let restIdx := if prefixBits ≠ 0 then endIdx + 1 else endIdx
    (map.bitmap.take endIdx).all (· == ~~~0) &&
      (prefixBits == 0 || map.bitmap.getD endIdx 0 == lowMask prefixBits) &&
      (map.words.drop restIdx).all (· == 0)

/-- `bitmap_is_set_all`. -/
def bitmapIsSetAll (map : MyBitmap) : Bool :=
  map.initWords.all (· == ~~~0) && (map.lastWord ||| lastBitMask map.nBits) == ~~~0

/-- `bitmap_is_clear_all`. -/
def bitmapIsClearAll (map : MyBitmap) : Bool := map.words.all (· == 0)

/-- The loop of `bitmap_is_subset` and `bitmap_is_overlapping`: whether a
word of `map1`, combined by `f` with the word of `map2` at its position, is
not zero. -/
def anyWordPair (f : UInt64 → UInt64 → UInt64) (map1 map2 : MyBitmap) : Bool :=
  (List.zipWith f map1.words map2.bitmap).any (· != 0)

/-- `bitmap_is_subset`: no word of `map1` has a bit its word in `map2` lacks. -/
def bitmapIsSubset (map1 map2 : MyBitmap) : Bool :=
  !anyWordPair (fun m1 m2 => m1 &&& ~~~m2) map1 map2

/-- `bitmap_is_overlapping`. -/
def bitmapIsOverlapping (map1 map2 : MyBitmap) : Bool :=
  anyWordPair (· &&& ·) map1 map2

/-- `bitmap_union_is_set_all`, whose last test is `!=`. -/
def bitmapUnionIsSetAll (map1 map2 : MyBitmap) : Bool :=
  (List.zipWith (· ||| ·) map1.initWords map2.bitmap).all (· == ~~~0) &&
    (map1.lastWord ||| map2.bitmap.getD (lastWordIdx map1.nBits) 0 ||| lastBitMask map1.nBits) != ~~~0

/-- `cur_res &= bitmap_array[j]->bitmap[i]` over the maps; the loop stops
early once `cur_res` is zero, which leaves it zero. -/
def meetAt (bitmapArray : List MyBitmap) (i : Nat) (curRes : UInt64) : UInt64 :=
  bitmapArray.foldl (fun cur m => cur &&& m.bitmap.getD i 0) curRes

/-- `bitmap_exists_intersection`: the words from `start_bit`'s to the one
before `end_bit`'s, the first one from `start_bit` up, then `end_bit`'s word
up to `end_bit`. -/
def bitmapExistsIntersection (bitmapArray : List MyBitmap) (startBit endBit : Nat) : Bool :=
  let startIdx := startBit / 8 / 8
  let endIdx := endBit / 8 / 8
  let firstMap := firstBitMaskInv startBit
  let lastRes := ~~~(lastBitMask (endBit + 1))
  let lastRes := if startIdx = endIdx then lastRes &&& firstMap else lastRes
  (List.range' startIdx (endIdx - startIdx)).any
      (fun i => meetAt bitmapArray i (if i = startIdx then firstMap else ~~~0) != 0) ||
    meetAt bitmapArray endIdx lastRes != 0

/-- `my_count_bits_uint32`: neighbouring bits, pairs and nibbles added in
place, then the four byte counts summed by one multiplication. -/
def myCountBitsUint32 (v : UInt32) : UInt32 :=
  let v := v - ((v >>> 1) &&& (0x55555555 : UInt32))
  let v := (v &&& (0x33333333 : UInt32)) + ((v >>> 2) &&& (0x33333333 : UInt32))
  (((v + (v >>> 4)) &&& (0xF0F0F0F : UInt32)) * 0x1010101) >>> 24

/-- `my_count_bits`: the counts of the two halves of a word. -/
def myCountBits (x : UInt64) : Nat :=
  (myCountBitsUint32 x.toUInt32).toNat + (myCountBitsUint32 (x >>> 32).toUInt32).toNat

/-- `bitmap_bits_set`. -/
def bitmapBitsSet (map : MyBitmap) : Nat := (map.words.map myCountBits).sum

/-- `my_find_first_bit`: the position of the lowest set bit, 64 for zero. -/
def myFindFirstBit (n : UInt64) : Nat := if n = 0 then 64 else lowestBit 64 n.toNat

/-- The loop of `bitmap_get_first_set` from the word at position `i`. -/
def firstSetLoop : List UInt64 → Nat → Nat
  | [], _ => myBitNone
  | w :: ws, i => if w ≠ 0 then myFindFirstBit w + i * myBitmapMapBits else firstSetLoop ws (i + 1)

/-- `bitmap_get_first_set`. -/
def bitmapGetFirstSet (map : MyBitmap) : Nat := firstSetLoop map.words 0

/-- The loop of `bitmap_get_first_clear` from the word at position `i`: a
word before the last that is not all ones, or the last one unless it is all
ones once its unused bits are set. -/
def firstClearLoop (lastBitMask : UInt64) : List UInt64 → Nat → Nat
  | [], _ => myBitNone
  | [w], i =>
    if (w ||| lastBitMask) = ~~~0 then myBitNone else myFindFirstBit (~~~w) + i * myBitmapMapBits
  | w :: ws, i =>
    if w ≠ ~~~0 then myFindFirstBit (~~~w) + i * myBitmapMapBits
    else firstClearLoop lastBitMask ws (i + 1)

/-- `bitmap_get_first_clear`. -/
def bitmapGetFirstClear (map : MyBitmap) : Nat := firstClearLoop (lastBitMask map.nBits) map.words 0

/-- The loop of `bitmap_get_next_set` over the words after the first one:
`bitmap_bit += 64` and a set bit found at `bitmap_bit & ~63`. -/
def nextSetLoop : List UInt64 → Nat → Nat
  | [], _ => myBitNone
  | w :: ws, bitmapBit =>
    let bitmapBit := bitmapBit + 64
    if w ≠ 0 then myFindFirstBit w + bitmapBit / myBitmapMapBits * myBitmapMapBits
    else nextSetLoop ws bitmapBit

/-- `bitmap_get_next_set`: `bitmap_bit++` as a `uint`, then the bits of its
word from it up, with the shortcut for `bitmap_bit` itself, then the later
words. -/
def bitmapGetNextSet (map : MyBitmap) (bitmapBit : Nat) : Nat :=
  let bitmapBit := (bitmapBit + 1) % 2 ^ 32
  if bitmapBit ≥ map.nBits then myBitNone
  else
    let wordPos := bitmapBit / 64
    let firstWord := map.bitmap.getD wordPos 0 &&& firstBitMaskInv bitmapBit
    if firstWord ≠ 0 then
      if firstWord &&& (1 : UInt64) <<< (bitmapBit &&& (myBitmapMapBits - 1)).toUInt64 ≠ 0 then bitmapBit
      else myFindFirstBit firstWord + bitmapBit / myBitmapMapBits * myBitmapMapBits
    else nextSetLoop (map.words.drop (wordPos + 1)) bitmapBit

/-! ### Updates -/

/-- `bitmap_set_prefix`: `prefix_size` cut to `n_bits`, that many bits set
from the first word on, and every word after them up to the last zero. -/
def bitmapSetPrefix (map : MyBitmap) (prefixSize : Nat) : MyBitmap :=
  let prefixSize := min prefixSize map.nBits
  let full := List.replicate (prefixSize / myBitmapMapBits) (~~~0)
  let prefixBits := prefixSize &&& (myBitmapMapBits - 1)
  let front := if prefixBits ≠ 0 then full ++ [lowMask prefixBits] else full
  { map with bitmap := front ++ List.replicate (lastWordIdx map.nBits + 1 - front.length) 0 }

/-- `bitmap_intersect`: the words both maps have anded; when `map2` has no
more words than `map`, its last word's unused bits cleared and `map`'s
further words zeroed. -/
def bitmapIntersect (map map2 : MyBitmap) : MyBitmap :=
  let len := noWordsInMap map.nBits
  let len2 := noWordsInMap map2.nBits
  let common := List.zipWith (· &&& ·) (map.bitmap.take (min len len2)) map2.bitmap
  if len2 ≤ len then
    { map with bitmap := common.modify (len2 - 1) (· &&& ~~~(lastBitMask map2.nBits)) ++
        List.replicate (len - len2) 0 }
  else { map with bitmap := common }

/-- The loop `while (to <= end) *to++ OP= *from++` of `bitmap_subtract`,
`bitmap_union` and `bitmap_xor`, with `OP` as `f`. -/
def combineWords (f : UInt64 → UInt64 → UInt64) (map map2 : MyBitmap) : MyBitmap :=
  { map with bitmap := List.zipWith f map.words map2.bitmap }

/-- `bitmap_subtract`. -/
def bitmapSubtract (map map2 : MyBitmap) : MyBitmap := combineWords (fun dst src => dst &&& ~~~src) map map2

/-- `bitmap_union`. -/
def bitmapUnion (map map2 : MyBitmap) : MyBitmap := combineWords (· ||| ·) map map2

/-- `bitmap_xor`. -/
def bitmapXor (map map2 : MyBitmap) : MyBitmap := combineWords (· ^^^ ·) map map2

/-- `bitmap_invert`: every word before the last flipped, the last one
flipped in its used bits only. -/
def bitmapInvert (map : MyBitmap) : MyBitmap :=
  { map with bitmap := map.initWords.map (· ^^^ ~~~0) ++
      [map.lastWord ^^^ (~~~0 &&& ~~~(lastBitMask map.nBits))] }

/-- `bitmap_copy`: `MY_MIN(len, len2 - 1)` words copied; when `map2` has no
more words than `map`, its last word's used bits copied into the next word;
then `map`'s unused bits cleared. -/
def bitmapCopy (map map2 : MyBitmap) : MyBitmap :=
  let len := noWordsInMap map.nBits
  let len2 := noWordsInMap map2.nBits
  let n := min len (len2 - 1)
  let copied := map2.bitmap.take n ++ map.bitmap.drop n
  let copied :=
    if len2 ≤ len then
      copied.modify n (fun dst => (map2.bitmap.getD n 0 &&& ~~~(lastBitMask map2.nBits)) |||
        (dst &&& lastBitMask map2.nBits))
    else copied
  { map with bitmap := copied.modify (lastWordIdx map.nBits) (· &&& ~~~(lastBitMask map.nBits)) }

/-- `bitmap_set_next`: the first clear bit, set if there is one. -/
def bitmapSetNext (map : MyBitmap) : MyBitmap × Nat :=
  let bitFound := bitmapGetFirstClear map
  if bitFound ≠ myBitNone then (bitmapSetBit map bitFound, bitFound) else (map, bitFound)

/-! ### Export and import

On a little-endian machine the words are their bytes in memory, least
significant first, and `memcpy` moves those; on a big-endian one the code
writes each word with `int8store` and reads it with `uint8korr`, which are
little-endian too, and the last word only in part. -/

/-- `bitmap_export` on a little-endian machine. -/
def bitmapExport (map : MyBitmap) : List UInt8 := (bytes map.bitmap).take (noBytesInExportMap map.nBits)

/-- `bitmap_import` on a little-endian machine: the first
`no_bytes_in_export_map` bytes of the words' memory replaced, then the
unused bits of the last word cleared. -/
def bitmapImport (map : MyBitmap) (fromBytes : List UInt8) : MyBitmap :=
  let nb := noBytesInExportMap map.nBits
  let memory := fromBytes.take nb ++ (bytes map.bitmap).drop nb
  let words := readWords map.bitmap.length memory
  { map with bitmap := words.modify (lastWordIdx map.nBits) (· &&& ~~~(lastBitMask map.nBits)) }

/-- The number of bytes of the last word that the big-endian export writes
and its import reads back: `1 + ((no_bytes_in_export_map(map) + 7) & 7)`. -/
def lastWordLength (nBits : Nat) : Nat := 1 + ((noBytesInExportMap nBits + 7) &&& 7)

/-- `bitmap_export` on a big-endian machine. -/
def bitmapExportBigEndian (map : MyBitmap) : List UInt8 :=
  map.initWords.flatMap (fun w => toBytes 8 w.toNat) ++
    (toBytes 8 map.lastWord.toNat).take (lastWordLength map.nBits)

/-- `bitmap_import` on a big-endian machine: the words before the last read
eight bytes each, the last one from a zeroed buffer of eight bytes into
which its bytes are copied. -/
def bitmapImportBigEndian (map : MyBitmap) (fromBytes : List UInt8) : MyBitmap :=
  let k := lastWordIdx map.nBits
  let length := lastWordLength map.nBits
  let buff := (fromBytes.drop (8 * k)).take length ++ List.replicate (8 - length) 0
  { map with bitmap := readWords k fromBytes ++
      [UInt64.ofNat (ofBytes buff) &&& ~~~(lastBitMask map.nBits)] }

/-! ### The sets bitmaps denote -/

/-- The members of a bitmap: the bits below `n_bits` that `bitmap_is_set`
reports. -/
def MyBitmap.toFinset (map : MyBitmap) : Finset Nat :=
  (Finset.range map.nBits).filter (fun i => bitmapIsSet map i)

/-- What `DBUG_ASSERT_BITMAP` checks of a bitmap, with `n_bits` a `uint32`:
at least one bit, one word for every 64 bits, and the unused bits of the
last word zero. -/
structure Valid (map : MyBitmap) : Prop where
  nBits_pos : 0 < map.nBits
  nBits_lt : map.nBits < 2 ^ 32
  length_bitmap : map.bitmap.length = noWordsInMap map.nBits
  lastWord_and : map.lastWord &&& lastBitMask map.nBits = 0

/-! ### The layout of the words -/

section Layout

variable {n i j : Nat}

theorem and_mapBits (k : Nat) : k &&& (myBitmapMapBits - 1) = k % 64 :=
  Nat.and_two_pow_sub_one_eq_mod k 6

theorem lastWordIdx_eq (hn : 0 < n) : lastWordIdx n = (n - 1) / 64 := by
  have hw : 1 ≤ noWordsInMap n := by
    unfold noWordsInMap myBitmapMapBits
    omega
  rw [lastWordIdx, Nat.max_eq_left hw]
  unfold noWordsInMap myBitmapMapBits
  omega

theorem noWordsInMap_eq (hn : 0 < n) : noWordsInMap n = lastWordIdx n + 1 := by
  rw [lastWordIdx_eq hn]
  unfold noWordsInMap myBitmapMapBits
  omega

/-- The last word holds the bits from `64 * lastWordIdx n` to `n - 1`. -/
theorem lastWordIdx_bounds (hn : 0 < n) : 64 * lastWordIdx n < n ∧ n ≤ 64 * lastWordIdx n + 64 := by
  rw [lastWordIdx_eq hn]
  omega

theorem wordBit_lastBitMask (hn : 0 < n) (hj : j < 64) :
    wordBit (lastBitMask n) j = decide (n ≤ 64 * lastWordIdx n + j) := by
  have hidx := lastWordIdx_eq hn
  unfold lastBitMask
  simp only [and_mapBits]
  split_ifs with h
  · rw [wordBit_not, wordBit_lowMask (Nat.mod_lt _ (by decide)), Bool.eq_iff_iff]
    simp only [Bool.and_eq_true, decide_eq_true_eq, Bool.not_eq_true', decide_eq_false_iff_not]
    omega
  · rw [wordBit_zero, Bool.eq_iff_iff]
    simp only [Bool.false_eq_true, decide_eq_true_eq, false_iff, not_le]
    omega

theorem wordBit_firstBitMaskInv (b : Nat) (hj : j < 64) :
    wordBit (firstBitMaskInv b) j = decide (b % 64 ≤ j) := by
  rw [firstBitMaskInv, and_mapBits, wordBit_not, wordBit_lowMask (Nat.mod_lt _ (by decide)),
    Bool.eq_iff_iff]
  simp only [Bool.and_eq_true, decide_eq_true_eq, Bool.not_eq_true', decide_eq_false_iff_not]
  omega

/-- Bit `j` of the last word is bit `64 * lastWordIdx n + j` of the map. -/
theorem bit_lastWord {map : MyBitmap} (hj : j < 64) :
    bit map.bitmap (64 * lastWordIdx map.nBits + j) = wordBit map.lastWord j := by
  rw [bit_eq_getD, MyBitmap.lastWord]
  congr 2 <;> omega

end Layout

/-! ### Members and well-formed maps -/

/-- `bitmap_is_set` reads the bit of the map. -/
theorem bitmapIsSet_eq (map : MyBitmap) (i : Nat) : bitmapIsSet map i = bit map.bitmap i := by
  have hj : i % 64 < 64 := Nat.mod_lt _ (by decide)
  rw [bitmapIsSet, and_mapBits, show myBitmapMapBits = 64 from rfl, bit_eq_getD, Bool.eq_iff_iff,
    bne_iff_ne, ne_eq, and_shiftLeft_one_eq_zero_iff hj, Bool.not_eq_false]

theorem mem_toFinset {map : MyBitmap} {i : Nat} :
    i ∈ map.toFinset ↔ i < map.nBits ∧ bit map.bitmap i = true := by
  simp [MyBitmap.toFinset, bitmapIsSet_eq]

/-- The test of `DBUG_ASSERT_BITMAP` on the last word says that every bit
from `n_bits` up is clear. -/
theorem lastWord_and_eq_zero_iff {map : MyBitmap} (hn : 0 < map.nBits)
    (hlen : map.bitmap.length = noWordsInMap map.nBits) :
    map.lastWord &&& lastBitMask map.nBits = 0 ↔ ∀ i, map.nBits ≤ i → bit map.bitmap i = false := by
  have hb := lastWordIdx_bounds hn
  rw [noWordsInMap_eq hn] at hlen
  rw [eq_zero_iff]
  constructor
  · intro h i hi
    by_cases hi' : 64 * map.bitmap.length ≤ i
    · exact bit_of_le hi'
    · have hsplit : i = 64 * lastWordIdx map.nBits + i % 64 := by omega
      have hmask := wordBit_lastBitMask hn (Nat.mod_lt i (show 0 < 64 by decide))
      have hword := h (i % 64) (Nat.mod_lt _ (by decide))
      rw [hsplit, bit_lastWord (Nat.mod_lt _ (by decide))]
      rw [wordBit_and, hmask, decide_eq_true (by omega), Bool.and_true] at hword
      exact hword
  · intro h j hj
    rw [wordBit_and, wordBit_lastBitMask hn hj, ← bit_lastWord hj]
    by_cases hle : map.nBits ≤ 64 * lastWordIdx map.nBits + j
    · rw [h _ hle, Bool.false_and]
    · rw [decide_eq_false hle, Bool.and_false]

namespace Valid

variable {map : MyBitmap} {i : Nat}

theorem of_bit (hpos : 0 < map.nBits) (hlt : map.nBits < 2 ^ 32)
    (hlen : map.bitmap.length = noWordsInMap map.nBits)
    (h : ∀ i, map.nBits ≤ i → bit map.bitmap i = false) : Valid map :=
  ⟨hpos, hlt, hlen, (lastWord_and_eq_zero_iff hpos hlen).mpr h⟩

theorem bit_of_le (hv : Valid map) (h : map.nBits ≤ i) : bit map.bitmap i = false :=
  (lastWord_and_eq_zero_iff hv.nBits_pos hv.length_bitmap).mp hv.lastWord_and i h

theorem mem_toFinset_iff (hv : Valid map) : i ∈ map.toFinset ↔ bit map.bitmap i = true := by
  rw [mem_toFinset]
  constructor
  · exact And.right
  · intro h
    refine ⟨?_, h⟩
    by_contra hle
    rw [hv.bit_of_le (not_lt.mp hle)] at h
    exact Bool.false_ne_true h

theorem length_eq (hv : Valid map) : map.bitmap.length = lastWordIdx map.nBits + 1 := by
  rw [hv.length_bitmap, noWordsInMap_eq hv.nBits_pos]

theorem words_eq (hv : Valid map) : map.words = map.bitmap :=
  List.take_of_length_le (by rw [hv.length_eq])

theorem length_initWords (hv : Valid map) : map.initWords.length = lastWordIdx map.nBits := by
  simp [MyBitmap.initWords, hv.length_eq]

theorem initWords_append (hv : Valid map) : map.initWords ++ [map.lastWord] = map.bitmap := by
  have hlen := hv.length_eq
  rw [MyBitmap.initWords, MyBitmap.lastWord, List.getD_eq_getElem _ _ (by omega),
    List.take_concat_get', List.take_of_length_le (by omega)]

end Valid

end MariaDB.Bitmap
