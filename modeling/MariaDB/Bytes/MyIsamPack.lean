import MariaDB.Bytes.BigEndian

set_option autoImplicit false

/- The big-endian store and load macros of include/myisampack.h. A store keeps
the low bytes of its argument however wide the C expression is, so it is the
argument modulo `2 ^ (8 * n)`; a signed load sign-extends its top byte. -/
namespace MariaDB

open BigEndian

/-- `mi_int1store` .. `mi_int6store`: the low `n` bytes of `x`, most
significant first. -/
def miIntStore (n : Nat) (x : Int) : List UInt8 := toBytes n (x % 2 ^ (8 * n)).toNat

theorem miIntStore_def (n : Nat) (x : Int) : miIntStore n x = toBytes n (x % 2 ^ (8 * n)).toNat := rfl

/-- `mi_uint1korr` .. `mi_uint6korr`: the first `n` bytes as an unsigned number. -/
def miUintKorr (n : Nat) (bytes : List UInt8) : Nat := ofBytes (bytes.take n)

theorem miUintKorr_def (n : Nat) (bytes : List UInt8) : miUintKorr n bytes = ofBytes (bytes.take n) := rfl

/-- `mi_sint1korr` .. `mi_sint4korr`: the first `n` bytes read as a
two's-complement number. -/
def miSintKorr (n : Nat) (bytes : List UInt8) : Int :=
  let u := miUintKorr n bytes
  if 2 ^ (8 * n - 1) ≤ u then (u : Int) - 2 ^ (8 * n) else u

@[simp] theorem miIntStore_zero (x : Int) : miIntStore 0 x = [] := rfl

@[simp] theorem length_miIntStore (n : Nat) (x : Int) : (miIntStore n x).length = n := by
  simp [miIntStore_def]

theorem pow_eight_mul (n : Nat) : (2 : Int) ^ (8 * n) = ((256 ^ n : Nat) : Int) := by
  rw [pow_mul]
  norm_num

/-- A store of a value that fits is its plain field. -/
theorem miIntStore_of_lt {n x : Nat} (h : x < 256 ^ n) : miIntStore n x = toBytes n x := by
  have fits : (x : Int) % 2 ^ (8 * n) = x := by
    rw [pow_eight_mul]
    exact Int.emod_eq_of_lt (by omega) (by exact_mod_cast h)
  rw [miIntStore_def, fits, Int.toNat_natCast]

/-- A store of a negative value that fits is its complement to `256 ^ n`. -/
theorem miIntStore_neg {n x : Nat} (pos : 0 < x) (h : x ≤ 256 ^ n) :
    miIntStore n (-(x : Int)) = toBytes n (256 ^ n - x) := by
  have fits : -(x : Int) % 2 ^ (8 * n) = ((256 ^ n - x : Nat) : Int) := by
    rw [pow_eight_mul, ← Int.add_mul_emod_self_left _ _ 1, Int.mul_one]
    have shifted : -(x : Int) + ((256 ^ n : Nat) : Int) = ((256 ^ n - x : Nat) : Int) := by
      omega
    rw [shifted]
    exact Int.emod_eq_of_lt (by omega) (by omega)
  rw [miIntStore_def, fits, Int.toNat_natCast]

theorem miUintKorr_append {n : Nat} (bytes rest : List UInt8) (h : bytes.length = n) :
    miUintKorr n (bytes ++ rest) = ofBytes bytes := by
  rw [miUintKorr, List.take_append_of_le_length (by omega), List.take_of_length_le (by omega)]

theorem miUintKorr_toBytes (n x : Nat) (rest : List UInt8) :
    miUintKorr n (toBytes n x ++ rest) = x % 256 ^ n := by
  rw [miUintKorr_append _ _ (length_toBytes n x), ofBytes_toBytes]

@[simp] theorem miUintKorr_toBytes_self (n x : Nat) : miUintKorr n (toBytes n x) = x % 256 ^ n := by
  rw [miUintKorr, List.take_of_length_le (by simp), ofBytes_toBytes]

/-- A field whose value leaves the sign bit clear reads back as itself. -/
theorem miSintKorr_toBytes {n x : Nat} (rest : List UInt8) (h : x < 2 ^ (8 * n - 1)) :
    miSintKorr n (toBytes n x ++ rest) = x := by
  have fits : x < 256 ^ n := by
    have : 2 ^ (8 * n - 1) ≤ 256 ^ n := by
      rw [show (256 : Nat) = 2 ^ 8 by norm_num, ← pow_mul]
      exact Nat.pow_le_pow_right (by norm_num) (by omega)
    omega
  simp only [miSintKorr, miUintKorr_toBytes, Nat.mod_eq_of_lt fits]
  rw [if_neg (by omega)]

end MariaDB
