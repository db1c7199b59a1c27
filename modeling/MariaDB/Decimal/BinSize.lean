import Mathlib.Algebra.BigOperators.Group.List.Defs
import Mathlib.Algebra.Group.Action.Defs
import MariaDB.Decimal.Bin

set_option autoImplicit false

/- The extent of the binary DECIMAL format. `decimal2bin` writes exactly
`decimal_bin_size(precision, scale)` bytes whichever path it takes (the
`DBUG_ASSERT(to == orig_to + orig_fsize0 + orig_isize0)` that ends it), and
`bin2decimal` reads nothing past them. -/
namespace MariaDB.Decimal

/-! ## Byte counts -/

theorem dig2bytes_mono {a b : Nat} (h : a ≤ b) (hb : b < 9) : dig2bytes a ≤ dig2bytes b := by
  have table : ∀ b < 9, ∀ a ≤ b, dig2bytes a ≤ dig2bytes b := by decide
  exact table b hb a h

/-- More digits never take fewer bytes: the `isize1 ≤ isize0` that makes the
leading pad `isize0 - isize1` exact. -/
theorem digitBytes_mono {n m : Nat} (h : n ≤ m) :
    n / 9 * 4 + dig2bytes (n % 9) ≤ m / 9 * 4 + dig2bytes (m % 9) := by
  have lastGroup := dig2bytes_le_four (n % 9)
  rcases Nat.lt_or_ge (n / 9) (m / 9) with fewer | same
  · omega
  · have words : n / 9 = m / 9 := le_antisymm (Nat.div_le_div_right h) same
    have digits : n % 9 ≤ m % 9 := by omega
    rw [words]
    exact Nat.add_le_add_left (dig2bytes_mono digits (Nat.mod_lt _ (by decide))) _

theorem eq_zero_of_decimalBinSize_eq_zero {precision scale : Nat}
    (h : decimalBinSize precision scale = 0) : precision = 0 ∧ scale = 0 := by
  have empty : ∀ x < 9, dig2bytes x = 0 → x = 0 := by decide
  rw [decimalBinSize_def] at h
  have intg := empty _ (Nat.mod_lt (precision - scale) (by decide)) (by omega)
  have frac := empty _ (Nat.mod_lt scale (by decide)) (by omega)
  omega

/-! ## What `decimal2bin` writes -/

theorem length_flipTop (l : List UInt8) : (flipTop l).length = l.length := by
  cases l <;> rfl

/-- A partial word: `dig2bytes[x]` bytes, and none for `x = 0`. -/
theorem length_ite_miIntStore (x : Nat) (v : Int) :
    (if 0 < x then miIntStore (dig2bytes x) v else []).length = dig2bytes x := by
  split
  · exact length_miIntStore _ _
  · next noDigits => rw [Nat.eq_zero_of_not_pos noDigits]; rfl

theorem length_flatMap_miIntStore (n : Nat) (f : Nat → Int) :
    ((List.range n).flatMap fun k => miIntStore 4 (f k)).length = 4 * n := by
  simp only [List.length_flatMap, length_miIntStore, List.map_const', List.length_range,
    List.sum_replicate, smul_eq_mul, Nat.mul_comm]

/-- `decimal2bin` writes `isize0 + fsize0` bytes on every path: with or
without overflow of the integer part, with the fraction cut, widened or
padded, and for a zero. -/
theorem length_decimal2bin (d : DecimalT) (precision frac : Nat) :
    (decimal2bin d precision frac).1.length = decimalBinSize precision frac := by
  unfold decimal2bin
  rw [decimalBinSize_def]
  generalize removeLeadingZeroes d = r
  obtain ⟨buf, fromIntg⟩ := r
  dsimp only
  simp only [length_flipTop, List.length_append, length_ite_miIntStore, length_flatMap_miIntStore]
  simp only [apply_ite List.length, List.length_nil, List.length_replicate]
  -- what the cases need of the byte counts: the integer part fits when it
  -- does not overflow, and a group of no digits takes no bytes
  have fits : fromIntg ≤ precision - frac →
      fromIntg / 9 * 4 + dig2bytes (fromIntg % 9) ≤
        (precision - frac) / 9 * 4 + dig2bytes ((precision - frac) % 9) :=
    digitBytes_mono
  have noBytes : dig2bytes 0 = 0 := rfl
  have fracNone : d.frac % 9 = 0 → dig2bytes (d.frac % 9) = 0 := fun h => by rw [h]; rfl
  have intgNone : fromIntg % 9 = 0 → dig2bytes (fromIntg % 9) = 0 := fun h => by rw [h]; rfl
  have valuePartial := dig2bytes_le_four (d.frac % 9)
  have typePartial := dig2bytes_le_four (frac % 9)
  -- one case per path: zero, overflow, and the three ways the fraction goes
  split_ifs <;> simp only [noBytes] at * <;> omega

/-! ## What `bin2decimal` reads -/

theorem headD_take {α : Type} {n : Nat} (l : List α) (d : α) (pos : 0 < n) :
    (l.take n).headD d = l.headD d := by
  cases l <;> cases n <;> simp_all

/-- DECIMAL(0,0) has no digits: nothing is read and the result is zero. -/
theorem bin2decimal_no_digits (bin : List UInt8) (len : Nat) :
    bin2decimal bin 0 0 len = (⟨1, 0, len, false, [0]⟩, .ok) := by
  simp [bin2decimal, fixIntgFracError, readIntWords, readFracWords]

/-- `bin2decimal` reads its `decimal_bin_size` bytes: the sign mask comes from
the first of them, and the copy it decodes is cut to them. -/
theorem bin2decimal_take (bin : List UInt8) (precision scale len : Nat) :
    bin2decimal (bin.take (decimalBinSize precision scale)) precision scale len =
      bin2decimal bin precision scale len := by
  rcases Nat.eq_zero_or_pos (decimalBinSize precision scale) with empty | pos
  · obtain ⟨rfl, rfl⟩ := eq_zero_of_decimalBinSize_eq_zero empty
    rw [bin2decimal_no_digits, bin2decimal_no_digits]
  · unfold bin2decimal
    rw [List.take_take, Nat.min_self, headD_take _ _ pos]

theorem decimal2bin_extent_decimalBinSize (precision scale : Nat) :
    (∀ d : DecimalT, (decimal2bin d precision scale).1.length = decimalBinSize precision scale) ∧
      ∀ (bin : List UInt8) (len : Nat),
        bin2decimal (bin.take (decimalBinSize precision scale)) precision scale len =
          bin2decimal bin precision scale len :=
  ⟨fun d => length_decimal2bin d precision scale, fun bin len => bin2decimal_take bin precision scale len⟩

end MariaDB.Decimal
