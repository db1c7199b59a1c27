import Mathlib.Tactic.Ring

set_option autoImplicit false

/- Fixed-width little-endian byte fields. A field of `width` bytes holds a
natural number modulo `256 ^ width`, least significant byte first; reading
a field back is the sum of its bytes, the `i`-th weighted by `256 ^ i`. -/
namespace LittleEndian

/-- The `width` low bytes of `x`, least significant first. -/
def toBytes : Nat → Nat → List UInt8
  | 0, _ => []
  | width + 1, x => UInt8.ofNat (x % 256) :: toBytes width (x / 256)

/-- The natural number a little-endian byte string denotes. -/
def ofBytes : List UInt8 → Nat
  | [] => 0
  | b :: bs => b.toNat + 256 * ofBytes bs

@[simp] theorem toBytes_zero (x : Nat) : toBytes 0 x = [] := rfl

theorem toBytes_succ (width x : Nat) :
    toBytes (width + 1) x = UInt8.ofNat (x % 256) :: toBytes width (x / 256) := rfl

@[simp] theorem ofBytes_nil : ofBytes [] = 0 := rfl

@[simp] theorem ofBytes_cons (b : UInt8) (bs : List UInt8) :
    ofBytes (b :: bs) = b.toNat + 256 * ofBytes bs := rfl

@[simp] theorem length_toBytes (width x : Nat) : (toBytes width x).length = width := by
  induction width generalizing x with
  | zero => rfl
  | succ width ih => simp [toBytes_succ, ih]

/-- A field read back is its value modulo `256 ^ width`. -/
theorem ofBytes_toBytes (width x : Nat) : ofBytes (toBytes width x) = x % 256 ^ width := by
  induction width generalizing x with
  | zero => simp [Nat.mod_one]
  | succ width ih =>
    have hbyte : (UInt8.ofNat (x % 256)).toNat = x % 256 := by
      rw [UInt8.toNat_ofNat', Nat.mod_mod_of_dvd _ (by decide)]
    rw [toBytes_succ, ofBytes_cons, ih, hbyte, pow_succ', Nat.mod_mul]

/-- A field read back is its value when the value fits. -/
theorem ofBytes_toBytes_of_lt {width x : Nat} (h : x < 256 ^ width) : ofBytes (toBytes width x) = x := by
  rw [ofBytes_toBytes, Nat.mod_eq_of_lt h]

theorem ofBytes_append (xs ys : List UInt8) :
    ofBytes (xs ++ ys) = ofBytes xs + 256 ^ xs.length * ofBytes ys := by
  induction xs with
  | nil => simp
  | cons x xs ih =>
    rw [List.cons_append, ofBytes_cons, ofBytes_cons, ih, List.length_cons, pow_succ]
    ring

theorem ofBytes_lt (bs : List UInt8) : ofBytes bs < 256 ^ bs.length := by
  induction bs with
  | nil => simp
  | cons b bs ih =>
    have hb := b.toNat_lt
    rw [ofBytes_cons, List.length_cons, pow_succ']
    calc b.toNat + 256 * ofBytes bs
        < 256 * (ofBytes bs + 1) := by omega
      _ ≤ 256 * 256 ^ bs.length := Nat.mul_le_mul_left _ ih

/-- Bit `j` of byte `i` is bit `8 * i + j` of the number. -/
theorem testBit_ofBytes (bs : List UInt8) (i : Nat) {j : Nat} (hj : j < 8) :
    (ofBytes bs).testBit (8 * i + j) = (bs.getD i 0).toNat.testBit j := by
  induction bs generalizing i with
  | nil => simp
  | cons b bs ih =>
    have hsplit : ofBytes (b :: bs) = 2 ^ 8 * ofBytes bs + b.toNat := by
      rw [ofBytes_cons]
      ring
    rw [hsplit, Nat.testBit_two_pow_mul_add _ (by simpa using b.toNat_lt)]
    cases i with
    | zero => simp [hj]
    | succ i =>
      rw [if_neg (by omega), show 8 * (i + 1) + j - 8 = 8 * i + j by omega, ih, List.getD_cons_succ]

theorem ofBytes_lt_two_pow (bs : List UInt8) : ofBytes bs < 2 ^ (8 * bs.length) := by
  rw [Nat.pow_mul]
  exact ofBytes_lt bs

theorem testBit_ofBytes_of_le (bs : List UInt8) {i : Nat} (h : 8 * bs.length ≤ i) :
    (ofBytes bs).testBit i = false :=
  Nat.testBit_lt_two_pow (lt_of_lt_of_le (ofBytes_lt_two_pow bs) (Nat.pow_le_pow_right (by decide) h))

/-- The bits of two fields side by side. -/
theorem testBit_ofBytes_append (xs ys : List UInt8) (i : Nat) :
    (ofBytes (xs ++ ys)).testBit i =
      if i < 8 * xs.length then (ofBytes xs).testBit i else (ofBytes ys).testBit (i - 8 * xs.length) := by
  rw [ofBytes_append, Nat.add_comm, show 256 ^ xs.length = 2 ^ (8 * xs.length) by rw [Nat.pow_mul],
    Nat.testBit_two_pow_mul_add _ (ofBytes_lt_two_pow xs)]

/-- The first `k` bytes hold the bits below `8 * k`. -/
theorem testBit_ofBytes_take (bs : List UInt8) (k i : Nat) :
    (ofBytes (bs.take k)).testBit i = (decide (i < 8 * k) && (ofBytes bs).testBit i) := by
  by_cases hk : k ≤ bs.length
  · conv_rhs => rw [← List.take_append_drop k bs]
    rw [testBit_ofBytes_append, List.length_take, Nat.min_eq_left hk]
    by_cases hi : i < 8 * k
    · rw [if_pos hi, decide_eq_true hi, Bool.true_and]
    · rw [if_neg hi, decide_eq_false hi, Bool.false_and]
      exact testBit_ofBytes_of_le _ (by rw [List.length_take]; omega)
  · rw [List.take_of_length_le (by omega)]
    by_cases hi : i < 8 * k
    · rw [decide_eq_true hi, Bool.true_and]
    · rw [decide_eq_false hi, Bool.false_and, testBit_ofBytes_of_le _ (by omega)]

/-- The bytes from `k` on hold the bits from `8 * k` on. -/
theorem testBit_ofBytes_drop (bs : List UInt8) (k i : Nat) :
    (ofBytes (bs.drop k)).testBit i = (ofBytes bs).testBit (i + 8 * k) := by
  conv_rhs => rw [← List.take_append_drop k bs]
  rw [testBit_ofBytes_append, List.length_take]
  by_cases hk : k ≤ bs.length
  · rw [Nat.min_eq_left hk, if_neg (by omega), Nat.add_sub_cancel]
  · rw [List.drop_of_length_le (by omega), ofBytes_nil, Nat.zero_testBit, if_neg (by omega),
      Nat.zero_testBit]

/-- Zero bytes after a field do not change it. -/
theorem ofBytes_append_replicate_zero (bs : List UInt8) (k : Nat) :
    ofBytes (bs ++ List.replicate k 0) = ofBytes bs := by
  have hzero : ofBytes (List.replicate k 0) = 0 := by
    induction k with
    | zero => rfl
    | succ k ih => rw [List.replicate_succ, ofBytes_cons, ih]; rfl
  rw [ofBytes_append, hzero, Nat.mul_zero, Nat.add_zero]

end LittleEndian
