import Mathlib.Data.List.Basic
import Mathlib.Data.Int.Order.Basic
import MariaDB.Radix.TwosComplement

set_option autoImplicit false

/- The quicksort of mysys/mf_qsort.c. The array is the list of its `count`
elements; a pointer into it is a position, an `Int` because `high_ptr` may end
one element before `low`. `size` enters only where the source works in bytes:
the element count of a range, and the casts of pointer differences to `int`
that decide which partitions are left to sort. Reading or writing outside the
array, running out of fuel or overflowing the stack of ranges give `none`. -/
namespace MariaDB.Qsort

open TwosComplement (cInt)

variable {α : Type}

/-- `STACK_SIZE`: `8 * sizeof(unsigned long int)` ranges on an LP64 target. -/
def stackSize : Nat := 64

/-- `THRESHOLD_FOR_INSERT_SORT`. -/
def thresholdForInsertSort : Nat := 10

/-- The element at position `i`, which C reads at `base + i * size`; `none`
outside `[base, base + count * size)`. -/
def elem (arr : List α) (i : Int) : Option α := if 0 ≤ i then arr[i.toNat]? else none

/-- `SWAP(A, B, size, swap_ptrs)`: both of its branches exchange the `size`
bytes of two elements. -/
def swap (arr : List α) (i j : Int) : Option (List α) := do
  let a ← elem arr i
  let b ← elem arr j
  pure ((arr.set i.toNat b).set j.toNat a)

/-- The main loop's state: the range `[low, high]` it sorts and the ranges
pushed on its stack, top first (`stack[0]`, which only the last `POP` reads,
is not in the list). -/
structure State (α : Type) where
  arr : List α
  low : Int
  high : Int
  stack : List (Int × Int)

/-- What one pass of the main loop leads to: another pass, or the end of the
sort once `POP` has taken `stack[0]`. -/
inductive Next (α : Type) where
  | next (s : State α)
  | done (arr : List α)

/-- `POP(low, high)` and the loop test `stack_ptr > stack`. -/
def pop (arr : List α) : List (Int × Int) → Next α
  | [] => .done arr
  | (low, high) :: stack => .next ⟨arr, low, high, stack⟩

/-- `PUSH(LOW, HIGH)` of a range, then the pass over `[low, high]`; writing
past `stack[STACK_SIZE - 1]` is `none`. -/
def push (arr : List α) (low high : Int) (range : Int × Int) (stack : List (Int × Int)) :
    Option (Next α) :=
  if stack.length + 1 < stackSize then some (.next ⟨arr, low, high, range :: stack⟩) else none

/-- `count = ((size_t) (high - low) / size) + 1`: the difference is
`(high - low) * size` bytes read as a `size_t`. -/
def rangeCount (size : Nat) (low high : Int) : Nat := ((high - low) * size % 2 ^ 64).toNat / size + 1

section Quicksort

variable (cmp : α → α → Int)

/-- `CMP(A, B)` on the elements at two positions. -/
def cmpAt (arr : List α) (i j : Int) : Option Int := do
  let a ← elem arr i
  let b ← elem arr j
  pure (cmp a b)

/-- `MEDIAN(low, mid, high)`: the median of three elements to the middle one. -/
def median (arr : List α) (low mid high : Int) : Option (List α) := do
  let arr ← if (← cmpAt cmp arr high low) < 0 then swap arr high low else pure arr
  if (← cmpAt cmp arr mid low) < 0 then swap arr mid low
  else if (← cmpAt cmp arr high mid) < 0 then swap arr mid high
  else pure arr

/-- `for (ptr = low_ptr; ptr > low && CMP(ptr - size, ptr) > 0; ptr -= size)
SWAP(ptr, ptr - size, size, ptr_cmp);` -/
def insertDown (low : Int) : Nat → List α → Int → Option (List α)
  | 0, _, _ => none
  | fuel + 1, arr, ptr =>
    if low < ptr then do
      if 0 < (← cmpAt cmp arr (ptr - 1) ptr) then insertDown low fuel (← swap arr ptr (ptr - 1)) (ptr - 1)
      else pure arr
    else pure arr

/-- The insertion sort of a short range: `for (low_ptr = low + size;
low_ptr <= high; low_ptr += size)` around `insertDown`. -/
def insertSort (low high : Int) : Nat → List α → Int → Option (List α)
  | 0, _, _ => none
  | fuel + 1, arr, lowPtr =>
    if lowPtr ≤ high then do insertSort low high fuel (← insertDown cmp low fuel arr lowPtr) (lowPtr + 1)
    else pure arr

/-- `while (CMP(low_ptr, pivot) < 0) low_ptr += size;` -/
def scanUp (pivot : α) (arr : List α) : Nat → Int → Option Int
  | 0, _ => none
  | fuel + 1, lowPtr => do
    if cmp (← elem arr lowPtr) pivot < 0 then scanUp pivot arr fuel (lowPtr + 1) else pure lowPtr

/-- `while (CMP(pivot, high_ptr) < 0) high_ptr -= size;` -/
def scanDown (pivot : α) (arr : List α) : Nat → Int → Option Int
  | 0, _ => none
  | fuel + 1, highPtr => do
    if cmp pivot (← elem arr highPtr) < 0 then scanDown pivot arr fuel (highPtr - 1) else pure highPtr

/-- The partition loop `do { ... } while (low_ptr <= high_ptr);` around the
copy `pivot`: the array and the two pointers after it. -/
def partition (pivot : α) : Nat → List α → Int → Int → Option (List α × Int × Int)
  | 0, _, _, _ => none
  | fuel + 1, arr, lowPtr, highPtr => do
    let lowPtr ← scanUp cmp pivot arr fuel lowPtr
    let highPtr ← scanDown cmp pivot arr fuel highPtr
    if lowPtr < highPtr then
      let arr ← swap arr lowPtr highPtr
      if lowPtr + 1 ≤ highPtr - 1 then partition pivot fuel arr (lowPtr + 1) (highPtr - 1)
      else pure (arr, lowPtr + 1, highPtr - 1)
    else if lowPtr = highPtr then pure (arr, lowPtr + 1, highPtr - 1)
    else pure (arr, lowPtr, highPtr)

/-- The median steps before a partition, the ninther of nine elements above
40 elements and the median of three below: the array and where the two scans
start. -/
def choosePivot (arr : List α) (low high : Int) (count : Nat) : Option (List α × Int × Int) := do
  let mid := low + (count / 2 : Nat)
  if 40 < count then
    let step : Int := (count / 8 : Nat)
    let arr ← median cmp arr low (low + step) (low + step * 2)
    let arr ← median cmp arr (mid - step) mid (mid + step)
    let arr ← median cmp arr (high - 2 * step) (high - step) high
    let arr ← median cmp arr (low + step) mid (high - step)
    pure (arr, low, high)
  else
    let arr ← median cmp arr low mid high
    pure (arr, low + 1, high - 1)

/-- What follows a partition of `[low, high]` that ended at `low_ptr` and
`high_ptr`: a part is skipped when the `int` cast of its byte length is not
positive, and of two parts the larger is pushed. -/
def nextRange (size : Nat) (arr : List α) (low high lowPtr highPtr : Int) (stack : List (Int × Int)) :
    Option (Next α) :=
  if cInt ((highPtr - low) * size) ≤ 0 then
    if cInt ((high - lowPtr) * size) ≤ 0 then some (pop arr stack)
    else some (.next ⟨arr, lowPtr, high, stack⟩)
  else if cInt ((high - lowPtr) * size) ≤ 0 then some (.next ⟨arr, low, highPtr, stack⟩)
  else if high - lowPtr < highPtr - low then push arr lowPtr high (low, highPtr) stack
  else push arr low highPtr (lowPtr, high) stack

/-- One pass of the main loop over `[low, high]`. -/
def step (size fuel : Nat) (s : State α) : Option (Next α) := do
  let count := rangeCount size s.low s.high
  if count < thresholdForInsertSort then
    let arr ← insertSort cmp s.low s.high fuel s.arr (s.low + 1)
    pure (pop arr s.stack)
  else
    let (arr, lowPtr, highPtr) ← choosePivot cmp s.arr s.low s.high count
    let pivot ← elem arr (s.low + (count / 2 : Nat))
    let (arr, lowPtr, highPtr) ← partition cmp pivot fuel arr lowPtr highPtr
    nextRange size arr s.low s.high lowPtr highPtr s.stack

/-- The main loop `do { ... } while (stack_ptr > stack);`. -/
def sortLoop (size : Nat) : Nat → State α → Option (List α)
  | 0, _ => none
  | fuel + 1, s => do
    match ← step cmp size fuel s with
    | .next s => sortLoop size fuel s
    | .done arr => pure arr

/-- `my_qsort(base, count, size, cmp)` on the `count` elements of `arr`. The
pivot copy is `my_alloca((int) size)`: where the cast changes `size` the
buffer has another size (a negative `int` becomes a huge `size_t`), and the
`memcpy` of a pivot into it is undefined, which is `none` here. -/
def myQsort (size fuel : Nat) (arr : List α) : Option (List α) :=
  if arr.length ≤ 1 then some arr
  else if cInt size ≠ size then none
  else sortLoop cmp size fuel ⟨arr, 0, arr.length - 1, []⟩

end Quicksort

example : myQsort (fun a b : Int => a - b) 4 1000 [1, 0, 3, 2, 5, 4, 7, 6, 9, 8] =
    some [0, 1, 2, 3, 4, 5, 6, 7, 8, 9] := by
  decide +kernel

/-- `my_qsort2(base, count, size, cmp, cmp_argument)`: the same sort, every
comparison being `cmp(cmp_argument, a, b)`. -/
def myQsort2 {β : Type} (cmp : β → α → α → Int) (cmpArgument : β) (size fuel : Nat) (arr : List α) :
    Option (List α) :=
  myQsort (cmp cmpArgument) size fuel arr

/-! ## Passes over equal elements

Where a partition meets elements equal to its pivot, both scans stop at once
and each swap exchanges two equal elements, so the array does not change and
the two pointers meet in the middle of the range. -/

section Equal

variable {cmp : α → α → Int} {arr : List α}

theorem set_of_elem {i : Int} {a : α} (h : elem arr i = some a) : arr.set i.toNat a = arr := by
  unfold elem at h
  split_ifs at h
  obtain ⟨hlt, rfl⟩ := List.getElem?_eq_some_iff.mp h
  exact List.set_getElem_self hlt

/-- A swap of two equal elements leaves the array as it is. -/
theorem swap_self {i j : Int} {a : α} (hi : elem arr i = some a) (hj : elem arr j = some a) :
    swap arr i j = some arr := by
  simp only [swap, hi, hj, Option.bind_eq_bind, Option.bind_some, set_of_elem hi, set_of_elem hj]
  rfl

theorem cmpAt_of_elem {i j : Int} {a b : α} (hi : elem arr i = some a) (hj : elem arr j = some b) :
    cmpAt cmp arr i j = some (cmp a b) := by
  simp only [cmpAt, hi, hj, Option.bind_eq_bind, Option.bind_some]
  rfl

/-- `MEDIAN` of three elements already in order swaps nothing. -/
theorem median_of_le {p q r : Int} {a b c : α} (hp : elem arr p = some a) (hq : elem arr q = some b)
    (hr : elem arr r = some c) (hca : 0 ≤ cmp c a) (hba : 0 ≤ cmp b a) (hcb : 0 ≤ cmp c b) :
    median cmp arr p q r = some arr := by
  simp only [median, Option.bind_eq_bind, cmpAt_of_elem hr hp, Option.bind_some, Int.not_lt.mpr hca,
    ↓reduceIte, Option.pure_def, cmpAt_of_elem hq hp, Int.not_lt.mpr hba, cmpAt_of_elem hr hq, Int.not_lt.mpr hcb]

/-- The scan up passes a block of elements below the pivot and stops at the
first one that is not. -/
theorem scanUp_block {pivot w : α} {lo b : Int}
    (hbelow : ∀ t, lo ≤ t → t < b → ∃ a, elem arr t = some a ∧ cmp a pivot < 0)
    (hstop : elem arr b = some w) (hw : 0 ≤ cmp w pivot) :
    ∀ (fuel : Nat) (lowPtr : Int), lo ≤ lowPtr → lowPtr ≤ b → b < lowPtr + fuel →
      scanUp cmp pivot arr fuel lowPtr = some b := by
  intro fuel
  induction fuel with
  | zero => intro lowPtr _ hle hfuel; omega
  | succ fuel ih =>
    intro lowPtr hlo hle hfuel
    unfold scanUp
    rcases Int.lt_or_eq_of_le hle with hlt | rfl
    · obtain ⟨a, ha, hlt'⟩ := hbelow lowPtr hlo hlt
      simp only [ha, Option.bind_eq_bind, Option.bind_some, hlt', ↓reduceIte]
      exact ih (lowPtr + 1) (by omega) (by omega) (by push_cast at hfuel; omega)
    · simp [hstop, Int.not_lt.mpr hw]

theorem scanUp_stop {pivot w : α} {lowPtr : Int} (hstop : elem arr lowPtr = some w)
    (hw : 0 ≤ cmp w pivot) (fuel : Nat) :
    scanUp cmp pivot arr (fuel + 1) lowPtr = some lowPtr := by
  simp [scanUp, hstop, Int.not_lt.mpr hw]

theorem scanDown_stop {pivot w : α} {highPtr : Int} (hstop : elem arr highPtr = some w)
    (hw : 0 ≤ cmp pivot w) (fuel : Nat) :
    scanDown cmp pivot arr (fuel + 1) highPtr = some highPtr := by
  simp [scanDown, hstop, Int.not_lt.mpr hw]

/-- A partition from `lowPtr` to `highPtr` over a block of elements below the
pivot followed by elements equal to it: the scan up passes the block, then the
two pointers step towards each other one swap of equal elements at a time. -/
theorem partition_block {pivot : α} (hpp : cmp pivot pivot = 0) :
    ∀ (fuel : Nat) (lo b highPtr lowPtr : Int),
      (∀ t, lo ≤ t → t < b → ∃ a, elem arr t = some a ∧ cmp a pivot < 0) →
      (∀ t, b ≤ t → t ≤ highPtr → elem arr t = some pivot) →
      lo ≤ lowPtr → lowPtr ≤ b → b ≤ highPtr → highPtr - lowPtr + 2 ≤ fuel →
      partition cmp pivot fuel arr lowPtr highPtr =
        some (arr, (b + highPtr) / 2 + 1, (b + highPtr + 1) / 2 - 1) := by
  intro fuel
  induction fuel with
  | zero => intro lo b highPtr lowPtr _ _ _ hle hb hfuel; omega
  | succ fuel ih =>
    intro lo b highPtr lowPtr hbelow hv hlo hle hb hfuel
    have hup : scanUp cmp pivot arr fuel lowPtr = some b :=
      scanUp_block hbelow (hv b le_rfl hb) (le_of_eq hpp.symm) fuel lowPtr hlo hle
        (by push_cast at hfuel; omega)
    obtain ⟨f, rfl⟩ : ∃ f, fuel = f + 1 := Nat.exists_eq_add_one.mpr (by omega)
    have hdown : scanDown cmp pivot arr (f + 1) highPtr = some highPtr :=
      scanDown_stop (hv highPtr hb le_rfl) (le_of_eq hpp.symm) f
    rw [partition]
    simp only [hup, hdown, Option.bind_eq_bind, Option.bind_some]
    rcases Int.lt_or_eq_of_le hb with hlt | rfl
    · -- the first swap exchanges two copies of the pivot
      simp only [hlt, ↓reduceIte, swap_self (hv b le_rfl hb) (hv highPtr hb le_rfl),
        Option.bind_some]
      split_ifs with hnext
      · rw [ih (b + 1) (b + 1) (highPtr - 1) (b + 1) (fun t h1 h2 => absurd h2 (by omega))
          (fun t h1 h2 => hv t (by omega) (by omega)) le_rfl le_rfl hnext
          (by push_cast at hfuel ⊢; omega)]
        simp only [Option.some.injEq, Prod.mk.injEq, true_and]
        omega
      · simp only [Option.pure_def, Option.some.injEq, Prod.mk.injEq, true_and]
        omega
    · simp only [lt_irrefl, ↓reduceIte, Option.pure_def, Option.some.injEq, Prod.mk.injEq, true_and]
      omega

/-- A round of the partition loop where both scans stop at once swaps the two
elements and goes on one place further in from each end. -/
theorem partition_swap {pivot a b : α} {lowPtr highPtr : Int} (fuel : Nat)
    (ha : elem arr lowPtr = some a) (hb : elem arr highPtr = some b)
    (hup : 0 ≤ cmp a pivot) (hdown : 0 ≤ cmp pivot b) (inside : lowPtr + 1 ≤ highPtr - 1) :
    partition cmp pivot (fuel + 2) arr lowPtr highPtr =
      (swap arr lowPtr highPtr).bind fun arr => partition cmp pivot (fuel + 1) arr (lowPtr + 1) (highPtr - 1) := by
  rw [partition]
  simp only [scanUp_stop ha hup fuel, scanDown_stop hb hdown fuel, Option.bind_eq_bind, Option.bind_some,
    show lowPtr < highPtr by omega, ↓reduceIte, inside]

/-- Rounds over elements equal to the pivot swap equal elements: after `t` of
them the array is as it was and each pointer has moved `t` places in. -/
theorem partition_equal_run {pivot : α} (hpp : cmp pivot pivot = 0) :
    ∀ (t fuel : Nat) (lowPtr highPtr : Int),
      (∀ i : Nat, i < t → elem arr (lowPtr + i) = some pivot ∧ elem arr (highPtr - i) = some pivot) →
      lowPtr + t ≤ highPtr - t →
      partition cmp pivot (fuel + t + 1) arr lowPtr highPtr =
        partition cmp pivot (fuel + 1) arr (lowPtr + t) (highPtr - t) := by
  intro t
  induction t with
  | zero =>
    intro fuel lowPtr highPtr _ _
    simp only [Int.natCast_zero, Int.add_zero, Int.sub_zero]
  | succ t ih =>
    intro fuel lowPtr highPtr hv hinside
    obtain ⟨hlow, hhigh⟩ := hv 0 (by omega)
    simp only [Int.natCast_zero, Int.add_zero, Int.sub_zero] at hlow hhigh
    have hstop : 0 ≤ cmp pivot pivot := le_of_eq hpp.symm
    -- the first round swaps two copies of the pivot; the other `t` rounds start one place in
    have hrest : ∀ i : Nat, i < t →
        elem arr (lowPtr + 1 + i) = some pivot ∧ elem arr (highPtr - 1 - i) = some pivot := by
      intro i hi
      obtain ⟨h1, h2⟩ := hv (i + 1) (by omega)
      rw [show lowPtr + 1 + (i : Int) = lowPtr + ((i + 1 : Nat) : Int) by omega,
        show highPtr - 1 - (i : Int) = highPtr - ((i + 1 : Nat) : Int) by omega]
      exact ⟨h1, h2⟩
    rw [show fuel + (t + 1) + 1 = fuel + t + 2 by omega,
      partition_swap (fuel + t) hlow hhigh hstop hstop (by omega), swap_self hlow hhigh, Option.bind_some,
      ih fuel (lowPtr + 1) (highPtr - 1) hrest (by omega),
      show lowPtr + 1 + (t : Int) = lowPtr + ((t + 1 : Nat) : Int) by omega,
      show highPtr - 1 - (t : Int) = highPtr - ((t + 1 : Nat) : Int) by omega]

end Equal

/-! ## Parts of `2^32` bytes

`(int) (high_ptr - low)` and `(int) (high - low_ptr)` are the byte lengths of
the two parts modulo `2^32`. With one-byte elements, `2^33 + 2` of them, the
first partition over an array of zeros with one 1 moves the 1 to the upper
half and ends in the middle with two parts of `2^32` bytes: both casts give
0, both parts are skipped as empty, and the sort stops. -/

section Bytes

/-- An array with an element that `R` does not put before the next one is not
in order under `R`. -/
theorem not_pairwise_of_elem {arr : List α} {R : α → α → Prop} {i : Int} {a b : α} (ha : elem arr i = some a)
    (hb : elem arr (i + 1) = some b) (hab : ¬R a b) : ¬arr.Pairwise R := by
  unfold elem at ha hb
  split_ifs at ha hb with h0 h1
  obtain ⟨hi, rfl⟩ := List.getElem?_eq_some_iff.mp ha
  obtain ⟨hj, rfl⟩ := List.getElem?_eq_some_iff.mp hb
  intro hsorted
  exact hab (List.pairwise_iff_getElem.mp hsorted _ _ hi hj (by omega))

theorem elem_set_replicate {n j : Nat} (v w : α) {i : Int} (hi0 : 0 ≤ i) (hi : i < n) (hj : j < n) :
    elem ((List.replicate n v).set j w) i = some (if i = j then w else v) := by
  unfold elem
  rw [if_pos hi0, List.getElem?_set, List.length_replicate, List.getElem?_replicate, if_pos hj,
    if_pos (by omega : i.toNat < n)]
  by_cases same : i = j
  · rw [if_pos (by omega : j = i.toNat), if_pos same]
  · rw [if_neg (by omega : ¬j = i.toNat), if_neg same]

variable {n j : Nat}

theorem elem_one {i : Int} (hj : j < n) (hi : i = j) : elem ((List.replicate n (0 : Int)).set j 1) i = some 1 := by
  rw [elem_set_replicate 0 1 (by omega) (by omega) hj, if_pos hi]

theorem elem_zero {i : Int} (hj : j < n) (hi0 : 0 ≤ i) (hi : i < n) (other : i ≠ j) :
    elem ((List.replicate n (0 : Int)).set j 1) i = some 0 := by
  rw [elem_set_replicate 0 1 hi0 hi hj, if_neg other]

/-- A swap of the one with a zero, from either side, moves the one. -/
theorem swap_one {k : Nat} {lo hi : Int} (hj : j < n) (hk : k < n) (other : k ≠ j) (hlo : lo = j) (hhi : hi = k) :
    swap ((List.replicate n (0 : Int)).set j 1) lo hi = some ((List.replicate n 0).set k 1) ∧
      swap ((List.replicate n (0 : Int)).set j 1) hi lo = some ((List.replicate n 0).set k 1) := by
  subst hlo hhi
  have hone := elem_one hj rfl
  have hzero := elem_zero (i := k) hj (by omega) (by omega) (by omega)
  constructor
  · simp only [swap, hone, hzero, Option.bind_eq_bind, Option.bind_some, Int.toNat_natCast, List.set_set,
      List.set_replicate_self, Option.pure_def]
  · simp only [swap, hone, hzero, Option.bind_eq_bind, Option.bind_some, Int.toNat_natCast, Option.pure_def]
    rw [List.set_comm 1 0 other, List.set_set, List.set_replicate_self]

/-- `MEDIAN` of three zeros swaps nothing. -/
theorem median_zeros {p q r : Int} (hj : j < n) (hp : 0 ≤ p ∧ p < n ∧ p ≠ j) (hq : 0 ≤ q ∧ q < n ∧ q ≠ j)
    (hr : 0 ≤ r ∧ r < n ∧ r ≠ j) :
    median (fun a b : Int => a - b) ((List.replicate n (0 : Int)).set j 1) p q r =
      some ((List.replicate n 0).set j 1) :=
  median_of_le (elem_zero hj hp.1 hp.2.1 hp.2.2) (elem_zero hj hq.1 hq.2.1 hq.2.2)
    (elem_zero hj hr.1 hr.2.1 hr.2.2) (by decide) (by decide) (by decide)

/-- `MEDIAN` with the one first and zeros in the middle and last swaps the one
to the last place. -/
theorem median_one_low {k : Nat} {low mid high : Int} (hj : j < n) (hk : k < n) (other : k ≠ j)
    (hlow : low = j) (hhigh : high = k) (hmid : 0 ≤ mid ∧ mid < n ∧ mid ≠ j ∧ mid ≠ k) :
    median (fun a b : Int => a - b) ((List.replicate n (0 : Int)).set j 1) low mid high =
      some ((List.replicate n 0).set k 1) := by
  have hfirst : elem ((List.replicate n (0 : Int)).set j 1) high = some 0 :=
    elem_zero hj (by omega) (by omega) (by omega)
  -- after the swap the one is last and the first two are zeros
  have hlast : elem ((List.replicate n (0 : Int)).set k 1) high = some 1 := elem_one hk hhigh
  have hlow' : elem ((List.replicate n (0 : Int)).set k 1) low = some 0 :=
    elem_zero hk (by omega) (by omega) (by omega)
  have hmid' : elem ((List.replicate n (0 : Int)).set k 1) mid = some 0 :=
    elem_zero hk hmid.1 hmid.2.1 hmid.2.2.2
  simp only [median, cmpAt_of_elem hfirst (elem_one hj hlow), Option.bind_eq_bind, Option.bind_some,
    (swap_one hj hk other hlow hhigh).2, cmpAt_of_elem hmid' hlow', cmpAt_of_elem hlast hmid',
    show (0 : Int) - 1 < 0 by decide, show ¬(0 : Int) - 0 < 0 by decide, show ¬(1 : Int) - 0 < 0 by decide,
    ↓reduceIte, Option.pure_def]

/-- The four `MEDIAN`s of the first pass: the first moves the one from the
start to `low + 2 * step`, the other three see only zeros. -/
theorem choosePivot_bytes :
    choosePivot (fun a b : Int => a - b) ((List.replicate (2 ^ 33 + 2) 0).set 0 1) 0 (2 ^ 33 + 1) (2 ^ 33 + 2) =
      some ((List.replicate (2 ^ 33 + 2) 0).set (2 ^ 31) 1, 0, 2 ^ 33 + 1) := by
  unfold choosePivot
  rw [if_pos (by decide), show ((2 ^ 33 + 2) / 8 : Nat) = 2 ^ 30 by omega,
    show ((2 ^ 33 + 2) / 2 : Nat) = 2 ^ 32 + 1 by omega]
  simp only [-Nat.reducePow]
  have first := @median_one_low (2 ^ 33 + 2) 0 (2 ^ 31) 0 (0 + ((2 ^ 30 : Nat) : Int)) (0 + ((2 ^ 30 : Nat) : Int) * 2)
    (by omega) (by omega) (by omega) (by omega) (by omega) ⟨by omega, by omega, by omega, by omega⟩
  have second := @median_zeros (2 ^ 33 + 2) (2 ^ 31) (0 + ((2 ^ 32 + 1 : Nat) : Int) - ((2 ^ 30 : Nat) : Int))
    (0 + ((2 ^ 32 + 1 : Nat) : Int)) (0 + ((2 ^ 32 + 1 : Nat) : Int) + ((2 ^ 30 : Nat) : Int)) (by omega)
    ⟨by omega, by omega, by omega⟩ ⟨by omega, by omega, by omega⟩ ⟨by omega, by omega, by omega⟩
  have third := @median_zeros (2 ^ 33 + 2) (2 ^ 31) (2 ^ 33 + 1 - 2 * ((2 ^ 30 : Nat) : Int))
    (2 ^ 33 + 1 - ((2 ^ 30 : Nat) : Int)) (2 ^ 33 + 1) (by omega)
    ⟨by omega, by omega, by omega⟩ ⟨by omega, by omega, by omega⟩ ⟨by omega, by omega, by omega⟩
  have fourth := @median_zeros (2 ^ 33 + 2) (2 ^ 31) (0 + ((2 ^ 30 : Nat) : Int))
    (0 + ((2 ^ 32 + 1 : Nat) : Int)) (2 ^ 33 + 1 - ((2 ^ 30 : Nat) : Int)) (by omega)
    ⟨by omega, by omega, by omega⟩ ⟨by omega, by omega, by omega⟩ ⟨by omega, by omega, by omega⟩
  rw [first, Option.bind_eq_bind, Option.bind_some, second, Option.bind_some, third, Option.bind_some, fourth,
    Option.bind_some]
  rfl

/-- The partition around the pivot 0: it ends in the middle, at
`low_ptr = 2^32 + 1` and `high_ptr = 2^32`, with the one in the upper part. -/
theorem partition_bytes :
    partition (fun a b : Int => a - b) 0 (2 ^ 34 - 1) ((List.replicate (2 ^ 33 + 2) 0).set (2 ^ 31) 1) 0
        (2 ^ 33 + 1) =
      some ((List.replicate (2 ^ 33 + 2) 0).set (2 ^ 33 + 1 - 2 ^ 31) 1, 2 ^ 32 + 1, 2 ^ 32) := by
  have hpp : (fun a b : Int => a - b) 0 0 = 0 := rfl
  -- `2^31` rounds swap zeros at both ends
  have hends : ∀ i : Nat, i < 2 ^ 31 →
      elem ((List.replicate (2 ^ 33 + 2) (0 : Int)).set (2 ^ 31) 1) (0 + i) = some 0 ∧
        elem ((List.replicate (2 ^ 33 + 2) (0 : Int)).set (2 ^ 31) 1) (2 ^ 33 + 1 - i) = some 0 :=
    fun i hi => ⟨elem_zero (by omega) (by omega) (by omega) (by omega),
      elem_zero (by omega) (by omega) (by omega) (by omega)⟩
  rw [show 2 ^ 34 - 1 = (2 ^ 34 - 2 ^ 31 - 2) + 2 ^ 31 + 1 by omega,
    partition_equal_run hpp (2 ^ 31) _ 0 (2 ^ 33 + 1) hends (by omega),
    show 2 ^ 34 - 2 ^ 31 - 2 + 1 = (2 ^ 34 - 2 ^ 31 - 3) + 2 by omega]
  -- then the scans stop at the one and at a zero, and the swap moves the one up
  have hone : elem ((List.replicate (2 ^ 33 + 2) (0 : Int)).set (2 ^ 31) 1) (0 + ((2 ^ 31 : Nat) : Int)) = some 1 :=
    elem_one (by omega) (by omega)
  have hzero : elem ((List.replicate (2 ^ 33 + 2) (0 : Int)).set (2 ^ 31) 1) (2 ^ 33 + 1 - ((2 ^ 31 : Nat) : Int)) =
      some 0 :=
    elem_zero (by omega) (by omega) (by omega) (by omega)
  have hswap : swap ((List.replicate (2 ^ 33 + 2) (0 : Int)).set (2 ^ 31) 1) (0 + ((2 ^ 31 : Nat) : Int))
      (2 ^ 33 + 1 - ((2 ^ 31 : Nat) : Int)) = some ((List.replicate (2 ^ 33 + 2) 0).set (2 ^ 33 + 1 - 2 ^ 31) 1) :=
    (swap_one (by omega) (by omega) (by omega) (by omega) (by omega)).1
  rw [partition_swap (2 ^ 34 - 2 ^ 31 - 3) hone hzero (by decide) (by decide) (by omega), hswap, Option.bind_some]
  -- the rest of the range is zeros, which the pointers cross one swap at a time
  rw [partition_block hpp _ (0 + ((2 ^ 31 : Nat) : Int) + 1) (0 + ((2 ^ 31 : Nat) : Int) + 1)
    (2 ^ 33 + 1 - ((2 ^ 31 : Nat) : Int) - 1) _ (fun t h1 h2 => absurd h2 (by omega))
    (fun t h1 h2 => elem_zero (by omega) (by omega) (by omega) (by omega)) le_rfl le_rfl (by omega) (by omega)]
  have hlow : (0 + ((2 ^ 31 : Nat) : Int) + 1 + (2 ^ 33 + 1 - ((2 ^ 31 : Nat) : Int) - 1)) / 2 + 1 = 2 ^ 32 + 1 := by
    omega
  have hhigh : (0 + ((2 ^ 31 : Nat) : Int) + 1 + (2 ^ 33 + 1 - ((2 ^ 31 : Nat) : Int) - 1) + 1) / 2 - 1 = 2 ^ 32 := by
    omega
  rw [hlow, hhigh]

/-- The first pass: after the partition both casts are 0, and `POP` takes
`stack[0]`. -/
theorem step_bytes :
    step (fun a b : Int => a - b) 1 (2 ^ 34 - 1) ⟨(List.replicate (2 ^ 33 + 2) 0).set 0 1, 0, 2 ^ 33 + 1, []⟩ =
      some (.done ((List.replicate (2 ^ 33 + 2) 0).set (2 ^ 33 + 1 - 2 ^ 31) 1)) := by
  have hcount : rangeCount 1 0 (2 ^ 33 + 1) = 2 ^ 33 + 2 := by
    unfold rangeCount
    omega
  have hpivot : elem ((List.replicate (2 ^ 33 + 2) (0 : Int)).set (2 ^ 31) 1) (0 + ((2 ^ 33 + 2) / 2 : Nat)) = some 0 :=
    elem_zero (by omega) (by omega) (by omega) (by omega)
  unfold step
  simp only [-Nat.reducePow]
  rw [hcount, if_neg (by decide), choosePivot_bytes]
  rw [Option.bind_eq_bind, Option.bind_some, hpivot, Option.bind_eq_bind, Option.bind_some,
    partition_bytes, Option.bind_some]
  -- both parts are `2^32` bytes long, which `(int)` reads as 0
  rw [nextRange, if_pos (by decide), if_pos (by decide), pop]

end Bytes

/-- `my_qsort` of `2^33 + 2` one-byte elements, a one followed by zeros,
returns them out of order: its only partition leaves two parts of `2^32`
bytes, and `(int)` reads both as empty. -/
theorem myQsort_skips_parts_of_int_size :
    myQsort (fun a b : Int => a - b) 1 (2 ^ 34) (1 :: List.replicate (2 ^ 33 + 1) 0) =
        some ((List.replicate (2 ^ 33 + 2) 0).set (2 ^ 33 + 1 - 2 ^ 31) 1) ∧
      ¬((List.replicate (2 ^ 33 + 2) (0 : Int)).set (2 ^ 33 + 1 - 2 ^ 31) 1).Pairwise (fun a b => a - b ≤ 0) := by
  have hinput : 1 :: List.replicate (2 ^ 33 + 1) (0 : Int) = (List.replicate (2 ^ 33 + 2) 0).set 0 1 := by
    rw [show 2 ^ 33 + 2 = 2 ^ 33 + 1 + 1 from rfl, List.replicate_succ (n := 2 ^ 33 + 1), List.set_cons_zero]
  have hlen : ((List.replicate (2 ^ 33 + 2) (0 : Int)).set 0 1).length = 2 ^ 33 + 2 := by
    rw [List.length_set, List.length_replicate]
  constructor
  · rw [hinput, myQsort, if_neg (by rw [hlen]; omega), if_neg (by decide), hlen,
      show ((2 ^ 33 + 2 : Nat) : Int) - 1 = 2 ^ 33 + 1 by omega, show 2 ^ 34 = 2 ^ 34 - 1 + 1 from rfl, sortLoop,
      step_bytes, Option.bind_eq_bind, Option.bind_some]
    rfl
  · -- the one is followed by a zero
    exact not_pairwise_of_elem (elem_one (by omega) rfl) (elem_zero (by omega) (by omega) (by omega) (by omega))
      (by decide)

end MariaDB.Qsort
