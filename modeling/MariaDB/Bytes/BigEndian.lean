import Mathlib.Data.List.Induction
import Mathlib.Data.Nat.Digits.Defs

set_option autoImplicit false

/- Fixed-width big-endian byte fields and unsigned byte-wise comparison.
A field of `width` bytes holds a natural number modulo `256 ^ width`, most
significant byte first; `memcmp` orders two byte strings of one length by
their first differing byte, read as an unsigned number. -/
namespace BigEndian

/-- Lexicographic order of a two-digit number in radix `m`. -/
theorem compare_mul_add (q₁ q₂ r₁ r₂ m : Nat) (h₁ : r₁ < m) (h₂ : r₂ < m) :
    compare (q₁ * m + r₁) (q₂ * m + r₂) = (compare q₁ q₂).then (compare r₁ r₂) := by
  rcases Nat.lt_trichotomy q₁ q₂ with lt | rfl | gt
  · have step : (q₁ + 1) * m ≤ q₂ * m := Nat.mul_le_mul_right m lt
    have below : q₁ * m + r₁ < q₂ * m + r₂ := by rw [Nat.succ_mul] at step; omega
    rw [Nat.compare_eq_lt.mpr below, Nat.compare_eq_lt.mpr lt]
    rfl
  · rw [Nat.compare_eq_eq.mpr rfl, Ordering.eq_then]
    rcases Nat.lt_trichotomy r₁ r₂ with lt | rfl | gt
    · rw [Nat.compare_eq_lt.mpr lt, Nat.compare_eq_lt.mpr (by omega)]
    · rw [Nat.compare_eq_eq.mpr rfl, Nat.compare_eq_eq.mpr rfl]
    · rw [Nat.compare_eq_gt.mpr gt, Nat.compare_eq_gt.mpr (by omega)]
  · have step : (q₂ + 1) * m ≤ q₁ * m := Nat.mul_le_mul_right m gt
    have above : q₂ * m + r₂ < q₁ * m + r₁ := by rw [Nat.succ_mul] at step; omega
    rw [Nat.compare_eq_gt.mpr above, Nat.compare_eq_gt.mpr gt]
    rfl

/-- Two comparisons agree when their strict orders and their equalities do. -/
theorem compare_eq_of_iff {α β : Type*} [LinearOrder α] [LinearOrder β] {a₁ a₂ : α} {b₁ b₂ : β}
    (lt : a₁ < a₂ ↔ b₁ < b₂) (eq : a₁ = a₂ ↔ b₁ = b₂) : compare a₁ a₂ = compare b₁ b₂ := by
  rcases lt_trichotomy b₁ b₂ with below | same | above
  · rw [compare_lt_iff_lt.mpr below, compare_lt_iff_lt.mpr (lt.mpr below)]
  · rw [compare_eq_iff_eq.mpr same, compare_eq_iff_eq.mpr (eq.mpr same)]
  · have not_below : ¬ a₁ < a₂ := fun h => lt_asymm (lt.mp h) above
    have differ : a₂ ≠ a₁ := fun h => ne_of_gt above (eq.mp h.symm)
    rw [compare_gt_iff_gt.mpr above, compare_gt_iff_gt.mpr
      (lt_of_le_of_ne (not_lt.mp not_below) differ)]

/-! ## Fields -/

@[simp] theorem toNat_ofNat_mod (x : Nat) : (UInt8.ofNat (x % 256)).toNat = x % 256 := by
  rw [UInt8.toNat_ofNat']
  exact Nat.mod_eq_of_lt (Nat.lt_of_lt_of_le (Nat.mod_lt x (by norm_num)) (by norm_num))

/-- The `width` low bytes of `x`, most significant first. -/
def toBytes : Nat → Nat → List UInt8
  | 0, _ => []
  | width + 1, x => toBytes width (x / 256) ++ [UInt8.ofNat (x % 256)]

/-- The natural number that a big-endian byte string denotes. -/
def ofBytes (bytes : List UInt8) : Nat :=
  bytes.foldl (fun acc byte => acc * 256 + byte.toNat) 0

@[simp] theorem toBytes_zero (x : Nat) : toBytes 0 x = [] := rfl

theorem toBytes_succ (width x : Nat) :
    toBytes (width + 1) x = toBytes width (x / 256) ++ [UInt8.ofNat (x % 256)] := rfl

@[simp] theorem length_toBytes (width x : Nat) : (toBytes width x).length = width := by
  induction width generalizing x with
  | zero => rfl
  | succ width ih => simp only [toBytes_succ, List.length_append, ih, List.length_singleton]

@[simp] theorem ofBytes_nil : ofBytes [] = 0 := rfl

theorem ofBytes_append_singleton (bytes : List UInt8) (byte : UInt8) :
    ofBytes (bytes ++ [byte]) = ofBytes bytes * 256 + byte.toNat := by
  simp only [ofBytes, List.foldl_append, List.foldl_cons, List.foldl_nil]

theorem ofBytes_lt (bytes : List UInt8) : ofBytes bytes < 256 ^ bytes.length := by
  induction bytes using List.reverseRecOn with
  | nil => simp
  | append_singleton bytes byte ih =>
    have low := byte.toNat_lt
    rw [ofBytes_append_singleton, List.length_append, List.length_singleton, pow_succ]
    have step : (ofBytes bytes + 1) * 256 ≤ 256 ^ bytes.length * 256 :=
      Nat.mul_le_mul_right 256 ih
    rw [Nat.succ_mul] at step
    omega

theorem ofBytes_toBytes (width x : Nat) : ofBytes (toBytes width x) = x % 256 ^ width := by
  induction width generalizing x with
  | zero => simp [Nat.mod_one]
  | succ width ih =>
    rw [toBytes_succ, ofBytes_append_singleton, ih, toNat_ofNat_mod, pow_succ,
      Nat.mul_comm (256 ^ width), Nat.mod_mul]
    ring

theorem ofBytes_toBytes_of_lt {width x : Nat} (h : x < 256 ^ width) :
    ofBytes (toBytes width x) = x := by
  rw [ofBytes_toBytes, Nat.mod_eq_of_lt h]

/-- A big-endian byte string is the row of its bytes as 8-bit lanes, the last
byte the lowest lane. -/
theorem ofBytes_eq_ofDigits (bytes : List UInt8) :
    ofBytes bytes = Nat.ofDigits (2 ^ 8) (bytes.reverse.map UInt8.toNat) := by
  induction bytes using List.reverseRecOn with
  | nil => rfl
  | append_singleton bytes byte ih =>
    rw [ofBytes_append_singleton, ih, List.reverse_append, List.reverse_singleton, List.singleton_append,
      List.map_cons, Nat.ofDigits_cons]
    omega

theorem ofBytes_append (xs ys : List UInt8) : ofBytes (xs ++ ys) = ofBytes xs * 256 ^ ys.length + ofBytes ys := by
  rw [ofBytes_eq_ofDigits, ofBytes_eq_ofDigits, ofBytes_eq_ofDigits, List.reverse_append, List.map_append,
    Nat.ofDigits_append, List.length_map, List.length_reverse]
  ac_rfl

/-- A byte string is the field of its own value. -/
theorem toBytes_ofBytes (bytes : List UInt8) : toBytes bytes.length (ofBytes bytes) = bytes := by
  induction bytes using List.reverseRecOn with
  | nil => rfl
  | append_singleton bytes byte ih =>
    have low := byte.toNat_lt
    have quotient : (ofBytes bytes * 256 + byte.toNat) / 256 = ofBytes bytes := by omega
    have remainder : (ofBytes bytes * 256 + byte.toNat) % 256 = byte.toNat := by omega
    rw [List.length_append, List.length_singleton, toBytes_succ, ofBytes_append_singleton, quotient, ih,
      remainder, UInt8.ofNat_toNat]

/-- Bits above the field do not reach it. -/
theorem toBytes_mod (width x : Nat) : toBytes width (x % 256 ^ width) = toBytes width x := by
  induction width generalizing x with
  | zero => rfl
  | succ width ih =>
    rw [toBytes_succ, toBytes_succ, pow_succ, Nat.mul_comm (256 ^ width),
      Nat.mod_mul_right_div_self, ih, Nat.mod_mul_right_mod]

/-- A wide field is its high part followed by its low `low` bytes. -/
theorem toBytes_add (high low x : Nat) :
    toBytes (high + low) x = toBytes high (x / 256 ^ low) ++ toBytes low x := by
  induction low generalizing x with
  | zero => simp
  | succ low ih =>
    rw [← Nat.add_assoc, toBytes_succ, ih, toBytes_succ, List.append_assoc, Nat.div_div_eq_div_mul,
      pow_succ', Nat.mul_comm]

/-- A field of `high + low` bytes holding `a * 256 ^ low + b` is `a` followed by
`b`. -/
theorem toBytes_mul_add (high low a b : Nat) (hb : b < 256 ^ low) :
    toBytes (high + low) (a * 256 ^ low + b) = toBytes high a ++ toBytes low b := by
  have pos : 0 < 256 ^ low := Nat.pow_pos (by norm_num)
  rw [toBytes_add, ← toBytes_mod low, Nat.mul_add_mod_self_right, toBytes_mod,
    Nat.add_comm, Nat.add_mul_div_right _ _ pos, Nat.div_eq_of_lt hb, Nat.zero_add]

/-! ## Unsigned comparison -/

/-- The `-1`, `0` or `1` by which a C comparison function reports an order. -/
def cmpResult : Ordering → Int
  | .lt => -1
  | .eq => 0
  | .gt => 1

theorem cmpResult_compare {α : Type} [LinearOrder α] (x y : α) :
    cmpResult (compare x y) = if x < y then -1 else if y < x then 1 else 0 := by
  rcases lt_trichotomy x y with lt | rfl | gt
  · rw [compare_lt_iff_lt.mpr lt, if_pos lt]
    rfl
  · rw [compare_eq_iff_eq.mpr rfl, if_neg (lt_irrefl x), if_neg (lt_irrefl x)]
    rfl
  · rw [compare_gt_iff_gt.mpr gt, if_neg (lt_asymm gt), if_pos gt]
    rfl

/-- The C idiom `a == b ? 0 : a < b ? -1 : 1`. -/
theorem cmpResult_compare_eq_ite {α : Type} [LinearOrder α] (x y : α) :
    cmpResult (compare x y) = if x = y then 0 else if x < y then -1 else 1 := by
  rw [cmpResult_compare]
  rcases lt_trichotomy x y with lt | rfl | gt
  · rw [if_pos lt, if_neg (ne_of_lt lt), if_pos lt]
  · simp
  · rw [if_neg (not_lt_of_gt gt), if_pos gt, if_neg (ne_of_gt gt), if_neg (not_lt_of_gt gt)]

/-- `memcmp` over two byte strings of one length: the unsigned order of the
first differing byte, or `eq`. -/
def memcmp : List UInt8 → List UInt8 → Ordering
  | a :: as, b :: bs => (compare a.toNat b.toNat).then (memcmp as bs)
  | _, _ => .eq

@[simp] theorem memcmp_nil_left (bs : List UInt8) : memcmp [] bs = .eq := by
  cases bs <;> rfl

@[simp] theorem memcmp_cons (a b : UInt8) (as bs : List UInt8) :
    memcmp (a :: as) (b :: bs) = (compare a.toNat b.toNat).then (memcmp as bs) := rfl

theorem memcmp_append {as bs cs ds : List UInt8} (h : as.length = cs.length) :
    memcmp (as ++ bs) (cs ++ ds) = (memcmp as cs).then (memcmp bs ds) := by
  induction as generalizing cs with
  | nil =>
    rw [List.length_nil, eq_comm, List.length_eq_zero_iff] at h
    subst h
    simp
  | cons a as ih =>
    cases cs with
    | nil => simp at h
    | cons c cs =>
      simp only [List.length_cons, Nat.add_right_cancel_iff] at h
      rw [List.cons_append, List.cons_append, memcmp_cons, memcmp_cons, ih h, Ordering.then_assoc]

theorem memcmp_toBytes (width x y : Nat) :
    memcmp (toBytes width x) (toBytes width y) = compare (x % 256 ^ width) (y % 256 ^ width) := by
  induction width generalizing x y with
  | zero => simp [Nat.mod_one]
  | succ width ih =>
    have split (z : Nat) : z % 256 ^ (width + 1) = z / 256 % 256 ^ width * 256 + z % 256 := by
      rw [pow_succ, Nat.mul_comm (256 ^ width), Nat.mod_mul]
      ring
    rw [toBytes_succ, toBytes_succ, memcmp_append (by simp), ih, split x, split y,
      compare_mul_add _ _ _ _ _ (Nat.mod_lt x (by norm_num)) (Nat.mod_lt y (by norm_num))]
    simp only [memcmp_cons, memcmp_nil_left, Ordering.then_eq, toNat_ofNat_mod]

/-- Byte strings of one length compare as the numbers they denote. -/
theorem memcmp_eq_compare_ofBytes {as bs : List UInt8} (h : as.length = bs.length) :
    memcmp as bs = compare (ofBytes as) (ofBytes bs) := by
  have below_as := ofBytes_lt as
  have below_bs := ofBytes_lt bs
  calc memcmp as bs = memcmp (toBytes as.length (ofBytes as)) (toBytes bs.length (ofBytes bs)) := by
        rw [toBytes_ofBytes, toBytes_ofBytes]
    _ = compare (ofBytes as) (ofBytes bs) := by
        rw [h, memcmp_toBytes, Nat.mod_eq_of_lt (h ▸ below_as), Nat.mod_eq_of_lt below_bs]

/-- Two fields side by side compare as their first fields, then as their second. -/
theorem memcmp_toBytes_append {w₁ w₂ a₁ a₂ b₁ b₂ : Nat} (ha₁ : a₁ < 256 ^ w₁) (ha₂ : a₂ < 256 ^ w₁)
    (hb₁ : b₁ < 256 ^ w₂) (hb₂ : b₂ < 256 ^ w₂) :
    memcmp (toBytes w₁ a₁ ++ toBytes w₂ b₁) (toBytes w₁ a₂ ++ toBytes w₂ b₂) =
      (compare a₁ a₂).then (compare b₁ b₂) := by
  rw [memcmp_append (by simp), memcmp_toBytes, memcmp_toBytes, Nat.mod_eq_of_lt ha₁,
    Nat.mod_eq_of_lt ha₂, Nat.mod_eq_of_lt hb₁, Nat.mod_eq_of_lt hb₂]

/-! ## Signed magnitudes -/

/-- A magnitude with a sign bit: `-x` when `neg` holds. -/
def signed (neg : Bool) (x : Nat) : Int := if neg then -(x : Int) else x

@[simp] theorem signed_false (x : Nat) : signed false x = x := rfl

@[simp] theorem signed_true (x : Nat) : signed true x = -(x : Int) := rfl

/-- Signed values compare as their magnitudes do, whenever the magnitudes of two
encodings compare alike and agree on zero; for the first magnitude that
follows from the comparison. -/
theorem compare_signed_congr {x₁ x₂ y₁ y₂ : Nat} (n₁ n₂ : Bool)
    (same : compare x₁ x₂ = compare y₁ y₂) (zero₂ : x₂ = 0 ↔ y₂ = 0) :
    compare (signed n₁ x₁) (signed n₂ x₂) = compare (signed n₁ y₁) (signed n₂ y₂) := by
  have below : x₁ < x₂ ↔ y₁ < y₂ := by rw [← Nat.compare_eq_lt, ← Nat.compare_eq_lt, same]
  have equal : x₁ = x₂ ↔ y₁ = y₂ := by rw [← Nat.compare_eq_eq, ← Nat.compare_eq_eq, same]
  rcases lt_trichotomy (signed n₁ y₁) (signed n₂ y₂) with lt | eq | gt
  · rw [Int.compare_eq_lt.mpr lt, Int.compare_eq_lt]
    cases n₁ <;> cases n₂ <;> simp only [signed_false, signed_true] at lt ⊢ <;>
      omega
  · rw [Int.compare_eq_eq.mpr eq, Int.compare_eq_eq]
    cases n₁ <;> cases n₂ <;> simp only [signed_false, signed_true] at eq ⊢ <;>
      omega
  · rw [Int.compare_eq_gt.mpr gt, Int.compare_eq_gt]
    cases n₁ <;> cases n₂ <;> simp only [signed_false, signed_true] at gt ⊢ <;>
      omega

/-! ## Digit groups

A number written in radix `r` and cut into groups of `ds` digits, most
significant group first, each group in a field of `width d` bytes. -/

section Groups

variable (r : Nat) (width : Nat → Nat)

/-- The low `ds.sum` radix-`r` digits of `x`, one field per group. -/
def groupBytes : List Nat → Nat → List UInt8
  | [], _ => []
  | d :: ds, x => toBytes (width d) (x / r ^ ds.sum % r ^ d) ++ groupBytes ds x

@[simp] theorem groupBytes_nil (x : Nat) : groupBytes r width [] x = [] := rfl

theorem groupBytes_cons (d : Nat) (ds : List Nat) (x : Nat) :
    groupBytes r width (d :: ds) x =
      toBytes (width d) (x / r ^ ds.sum % r ^ d) ++ groupBytes r width ds x := rfl

@[simp] theorem length_groupBytes (ds : List Nat) (x : Nat) :
    (groupBytes r width ds x).length = (ds.map width).sum := by
  induction ds with
  | nil => rfl
  | cons d ds ih => simp [groupBytes_cons, ih]

variable {r width}

end Groups

end BigEndian
