import MariaDB.Decimal.Bin
import MariaDB.Decimal.Cmp

set_option autoImplicit false

/- The order of the binary DECIMAL format against `decimal_cmp`. Keys of an
index are compared with `memcmp`, so the bytes of two decimals should compare
as the decimals do. -/
namespace MariaDB.Decimal

open BigEndian

/-- `0.12` and `0.2` into DECIMAL(1,1), both with `E_DEC_OK`: the first is
stored as the digits `12` in the byte of one digit, so its bytes sort above
those of `0.2` although `decimal_cmp` puts it below. -/
theorem decimal2bin_memcmp_inverted :
    let a : DecimalT := ⟨1, 2, 9, false, [0, 120000000]⟩
    let b : DecimalT := ⟨1, 1, 9, false, [0, 200000000]⟩
    a.WellFormed ∧ b.WellFormed ∧ a.NoNegativeZero ∧ b.NoNegativeZero ∧
      decimal2bin a 1 1 = ([0x8C], .ok) ∧ decimal2bin b 1 1 = ([0x82], .ok) ∧
      memcmp (decimal2bin a 1 1).1 (decimal2bin b 1 1).1 = .gt ∧ decimalCmp a b = -1 := by
  refine ⟨⟨?_, ?_, ?_, ?_, ?_⟩, ⟨?_, ?_, ?_, ?_, ?_⟩, ?_, ?_, ?_, ?_, ?_, ?_⟩ <;> decide

end MariaDB.Decimal
