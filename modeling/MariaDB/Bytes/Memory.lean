import Mathlib.Algebra.Order.Ring.Nat
import Mathlib.Data.List.Basic
import Mathlib.Data.List.GetD

set_option autoImplicit false

/- Byte memory as a function from addresses to bytes, and the C idioms that
write it: `memcpy` of `n` bytes from a source, and the loop
`for (s= 0; s < limit; s+= step) memcpy(base + s, src, n)` that repeats a
pattern. A write is described by the bytes it changes: `copy` changes the
`n` bytes from `dst` and no other. -/
namespace Memory

/-- `memcpy(dst, src, n)` into `mem`: byte `k` of the source lands at `dst + k`. -/
def copy (mem : Nat → UInt8) (dst : Nat) (src : Nat → UInt8) (n : Nat) : Nat → UInt8 :=
  fun a => if dst ≤ a ∧ a < dst + n then src (a - dst) else mem a

theorem copy_apply (mem : Nat → UInt8) (dst : Nat) (src : Nat → UInt8) (n a : Nat) :
    copy mem dst src n a = if dst ≤ a ∧ a < dst + n then src (a - dst) else mem a := rfl

/-- A byte string as a source; what lies past its end is not modelled and
reads as zero. -/
def bytes (l : List UInt8) : Nat → UInt8 := fun k => l.getD k 0

theorem bytes_apply (l : List UInt8) (k : Nat) : bytes l k = l.getD k 0 := rfl

theorem copy_inside (mem : Nat → UInt8) {dst : Nat} (src : Nat → UInt8) {n a : Nat}
    (lower : dst ≤ a) (upper : a < dst + n) : copy mem dst src n a = src (a - dst) := by
  simp only [copy_apply, lower, upper, and_self, ↓reduceIte]

theorem copy_outside (mem : Nat → UInt8) {dst : Nat} (src : Nat → UInt8) {n a : Nat}
    (outside : a < dst ∨ dst + n ≤ a) : copy mem dst src n a = mem a := by
  have absent : ¬(dst ≤ a ∧ a < dst + n) := by omega
  simp only [copy_apply, absent, ↓reduceIte]

@[simp] theorem copy_zero (mem : Nat → UInt8) (dst : Nat) (src : Nat → UInt8) : copy mem dst src 0 = mem := by
  funext a
  exact copy_outside mem src (by omega)

/-- `memcpy` reads only the `n` bytes it copies. -/
theorem copy_congr_src (mem : Nat → UInt8) (dst : Nat) {src src' : Nat → UInt8} {n : Nat}
    (same : ∀ k < n, src k = src' k) : copy mem dst src n = copy mem dst src' n := by
  funext a
  by_cases inside : dst ≤ a ∧ a < dst + n
  · rw [copy_inside _ _ inside.1 inside.2, copy_inside _ _ inside.1 inside.2, same _ (by omega)]
  · rw [copy_outside _ _ (by omega), copy_outside _ _ (by omega)]

theorem bytes_append_of_lt {l : List UInt8} (rest : List UInt8) {k : Nat} (h : k < l.length) :
    bytes (l ++ rest) k = bytes l k := by
  simp only [bytes_apply, List.getD_append _ _ _ _ h]

/-- A `memcpy` that starts past a prefix the memory already holds leaves the
memory as the whole one does. -/
theorem copy_skip (mem : Nat → UInt8) (dst : Nat) (src : Nat → UInt8) {n k : Nat} (hk : k ≤ n)
    (held : ∀ i < k, mem (dst + i) = src i) :
    copy mem (dst + k) (fun i => src (k + i)) (n - k) = copy mem dst src n := by
  funext a
  by_cases inside : dst ≤ a ∧ a < dst + n
  · rw [copy_inside _ _ inside.1 inside.2]
    by_cases skipped : a < dst + k
    · rw [copy_outside _ _ (.inl skipped), show a = dst + (a - dst) by omega, held _ (by omega),
        Nat.add_sub_cancel_left]
    · rw [copy_inside _ _ (by omega) (by omega)]
      congr 1
      omega
  · rw [copy_outside _ _ (by omega), copy_outside _ _ (by omega)]

/-- The `n` bytes from `addr`. -/
def read (mem : Nat → UInt8) (addr n : Nat) : List UInt8 := (List.range n).map fun i => mem (addr + i)

theorem read_def (mem : Nat → UInt8) (addr n : Nat) : read mem addr n = (List.range n).map fun i => mem (addr + i) :=
  rfl

/-- The bytes a `memcpy` of a byte string wrote read back as the string. -/
theorem read_copy_bytes (mem : Nat → UInt8) (dst : Nat) (l : List UInt8) :
    read (copy mem dst (bytes l) l.length) dst l.length = l := by
  rw [read_def]
  apply List.ext_getElem (by rw [List.length_map, List.length_range])
  intro i lhs rhs
  simp only [List.getElem_map, List.getElem_range]
  rw [copy_inside _ _ (by omega) (by omega), Nat.add_sub_cancel_left, bytes_apply, List.getD_eq_getElem _ _ rhs]

/-- A sequence of `memcpy`s of byte strings, each `(dst, bytes)`, in order. -/
def copyAll (mem : Nat → UInt8) (writes : List (Nat × List UInt8)) : Nat → UInt8 :=
  writes.foldl (fun mem write => copy mem write.1 (bytes write.2) write.2.length) mem

@[simp] theorem copyAll_nil (mem : Nat → UInt8) : copyAll mem [] = mem := rfl

@[simp] theorem copyAll_cons (mem : Nat → UInt8) (write : Nat × List UInt8) (writes : List (Nat × List UInt8)) :
    copyAll mem (write :: writes) = copyAll (copy mem write.1 (bytes write.2) write.2.length) writes := rfl

/-! ## A repeated pattern -/

/-- `mem` with the `count` bytes from `base` replaced by the pattern `src` of
`period` bytes repeated. -/
def repeatPattern (mem : Nat → UInt8) (base count : Nat) (src : Nat → UInt8) (period : Nat) : Nat → UInt8 :=
  fun a => if base ≤ a ∧ a < base + count then src ((a - base) % period) else mem a

theorem repeatPattern_apply (mem : Nat → UInt8) (base count : Nat) (src : Nat → UInt8) (period a : Nat) :
    repeatPattern mem base count src period a =
      if base ≤ a ∧ a < base + count then src ((a - base) % period) else mem a := rfl

@[simp] theorem repeatPattern_zero (mem : Nat → UInt8) (base : Nat) (src : Nat → UInt8) (period : Nat) :
    repeatPattern mem base 0 src period = mem := by
  funext a
  have absent : ¬(base ≤ a ∧ a < base + 0) := by omega
  simp only [repeatPattern_apply, absent, ↓reduceIte]

theorem repeatPattern_inside (mem : Nat → UInt8) {base count : Nat} (src : Nat → UInt8) (period : Nat) {a : Nat}
    (lower : base ≤ a) (upper : a < base + count) :
    repeatPattern mem base count src period a = src ((a - base) % period) := by
  simp only [repeatPattern_apply, lower, upper, and_self, ↓reduceIte]

theorem repeatPattern_outside (mem : Nat → UInt8) {base count : Nat} (src : Nat → UInt8) (period : Nat) {a : Nat}
    (outside : a < base ∨ base + count ≤ a) : repeatPattern mem base count src period a = mem a := by
  have absent : ¬(base ≤ a ∧ a < base + count) := by omega
  simp only [repeatPattern_apply, absent, ↓reduceIte]

/-- The pattern is read only within its period. -/
theorem repeatPattern_congr_src (mem : Nat → UInt8) (base count : Nat) {src src' : Nat → UInt8} {period : Nat}
    (pos : 0 < period) (same : ∀ k < period, src k = src' k) :
    repeatPattern mem base count src period = repeatPattern mem base count src' period := by
  funext a
  by_cases inside : base ≤ a ∧ a < base + count
  · rw [repeatPattern_inside _ _ _ inside.1 inside.2, repeatPattern_inside _ _ _ inside.1 inside.2,
      same _ (Nat.mod_lt _ pos)]
  · rw [repeatPattern_outside _ _ _ (by omega), repeatPattern_outside _ _ _ (by omega)]

/-- One more copy of the pattern, at a multiple of its period, extends the
repetition by one period. -/
theorem copy_repeatPattern {period : Nat} (pos : 0 < period) (mem : Nat → UInt8) (base k : Nat)
    (src : Nat → UInt8) :
    copy (repeatPattern mem base (k * period) src period) (base + k * period) src period =
      repeatPattern mem base ((k + 1) * period) src period := by
  funext a
  by_cases fresh : base + k * period ≤ a ∧ a < base + k * period + period
  · have phase : (a - base) % period = a - (base + k * period) := by
      have split : a - base = a - (base + k * period) + k * period := by omega
      rw [split, Nat.add_mul_mod_self_right, Nat.mod_eq_of_lt (by omega)]
    rw [copy_inside _ _ fresh.1 fresh.2]
    simp only [repeatPattern_apply, show base ≤ a ∧ a < base + (k + 1) * period by rw [Nat.succ_mul]; omega,
      and_self, ↓reduceIte, phase]
  · rw [copy_outside _ _ (by omega)]
    simp only [repeatPattern_apply, Nat.succ_mul]
    split_ifs <;> first | rfl | omega

/-! ## The copy loop -/

/-- `for (; s < limit; s+= step) memcpy(base + s, src, n);` run for at most
`fuel` rounds: the memory and `s` when the condition fails, `none` when the
rounds run out first. -/
def copyLoop (base limit step n : Nat) (src : Nat → UInt8) : Nat → Nat → (Nat → UInt8) → Option ((Nat → UInt8) × Nat)
  | 0, _, _ => none
  | fuel + 1, s, mem =>
    if s < limit then copyLoop base limit step n src fuel (s + step) (copy mem (base + s) src n)
    else some (mem, s)

theorem copyLoop_succ (base limit step n : Nat) (src : Nat → UInt8) (fuel s : Nat) (mem : Nat → UInt8) :
    copyLoop base limit step n src (fuel + 1) s mem =
      if s < limit then copyLoop base limit step n src fuel (s + step) (copy mem (base + s) src n)
      else some (mem, s) := rfl

/-- A step of zero never leaves the loop: every fuel runs out. -/
theorem copyLoop_step_zero (base limit n : Nat) (src : Nat → UInt8) {s : Nat} (running : s < limit) :
    ∀ fuel mem, copyLoop base limit 0 n src fuel s mem = none := by
  intro fuel
  induction fuel with
  | zero => intro mem; rfl
  | succ fuel ih =>
    intro mem
    rw [copyLoop_succ, if_pos running, Nat.add_zero, ih]

/-- The rounds of the loop, `⌈limit / period⌉`, are at most `limit`. -/
theorem ceilDiv_le_self {period : Nat} (pos : 0 < period) (limit : Nat) : (limit + period - 1) / period ≤ limit := by
  rcases Nat.eq_zero_or_pos limit with rfl | some
  · rw [Nat.div_eq_of_lt (by omega)]
  · apply Nat.div_le_of_le_mul
    have more : limit - 1 ≤ period * (limit - 1) := Nat.le_mul_of_pos_left _ pos
    have split : period * limit = period * (limit - 1) + period := by
      rw [← Nat.mul_succ]; congr 1; omega
    omega

/-- The rounds reach `limit`. -/
theorem le_ceilDiv_mul {period : Nat} (pos : 0 < period) (limit : Nat) :
    limit ≤ (limit + period - 1) / period * period := by
  have split := Nat.div_add_mod (limit + period - 1) period
  have low := Nat.mod_lt (limit + period - 1) pos
  rw [Nat.mul_comm] at split
  omega

/-- When the period divides `limit`, the rounds end at `limit`. -/
theorem ceilDiv_mul_of_dvd {period limit : Nat} (pos : 0 < period) (divides : period ∣ limit) :
    (limit + period - 1) / period * period = limit := by
  obtain ⟨t, rfl⟩ := divides
  rw [show period * t + period - 1 = period * t + (period - 1) by omega, Nat.mul_add_div pos,
    Nat.div_eq_of_lt (by omega), Nat.add_zero, Nat.mul_comm]

/-- The run of the loop that copies a whole pattern each round: started at
round `k`, it stops at the first multiple of the period that reaches `limit`,
having repeated the pattern up to there. -/
theorem copyLoop_repeat {period : Nat} (pos : 0 < period) (base limit : Nat) (src : Nat → UInt8) (mem : Nat → UInt8) :
    ∀ fuel k, k ≤ (limit + period - 1) / period → (limit + period - 1) / period - k < fuel →
      copyLoop base limit period period src fuel (k * period) (repeatPattern mem base (k * period) src period) =
        some (repeatPattern mem base ((limit + period - 1) / period * period) src period,
          (limit + period - 1) / period * period) := by
  intro fuel
  induction fuel with
  | zero => intro k _ enough; omega
  | succ fuel ih =>
    intro k below enough
    rw [copyLoop_succ]
    by_cases running : k * period < limit
    · -- one more round: `k` is below the last multiple
      have more : k + 1 ≤ (limit + period - 1) / period := by
        rw [Nat.le_div_iff_mul_le pos]; rw [Nat.succ_mul]; omega
      rw [if_pos running, copy_repeatPattern pos, ← Nat.succ_mul]
      exact ih (k + 1) more (by omega)
    · -- `k * period` reaches `limit`: it is the last multiple
      have last : k = (limit + period - 1) / period := by
        apply le_antisymm below
        have swap : period * k = k * period := Nat.mul_comm period k
        rw [Nat.div_le_iff_le_mul_add_pred pos]; omega
      rw [if_neg running, ← last]

end Memory
