import MariaDB.Bytes.BigEndian
import MariaDB.Unicode.Utf8

set_option autoImplicit false

/- The compressed integers of InnoDB's mach0data.inl. A number below `2^32`
takes one to five bytes, the count of leading one bits of the first byte
giving the length; a 64-bit number is its high half compressed and the low
half in four bytes, or in the "much compressed" form a marker byte `0xFF`
and both halves compressed. The buffer `b` is the list of the bytes from
`b` on; a reader returns the value and the bytes it takes, `none` past the
end of the buffer. -/
namespace MariaDB.Innobase

open BigEndian

/-- `mach_write_compressed(b, n)`: the bytes written. `mach_write_to_1` ..
`mach_write_to_4` store the low bytes, most significant first. -/
def machWriteCompressed (n : Nat) : List UInt8 :=
  if n < 0x80 then toBytes 1 n
  else if n < 0x4000 then toBytes 2 (n ||| 0x8000)
  else if n < 0x200000 then toBytes 3 (n ||| 0xC00000)
  else if n < 0x10000000 then toBytes 4 (n ||| 0xE0000000)
  else toBytes 1 0xF0 ++ toBytes 4 n

/-- `mach_get_compressed_size`. -/
def machGetCompressedSize (n : Nat) : Nat :=
  if n < 0x80 then 1
  else if n < 0x4000 then 2
  else if n < 0x200000 then 3
  else if n < 0x10000000 then 4
  else 5

/-- `mach_read_from_1` .. `mach_read_from_4`: the first `k` bytes, most
significant first. -/
def machReadFrom (b : List UInt8) (k : Nat) : Option Nat :=
  if k ≤ b.length then some (ofBytes (b.take k)) else none

/-- The body `mach_read_compressed` and `mach_read_next_compressed` share:
the value and the bytes it takes. -/
def readCompressed (b : List UInt8) : Option (Nat × Nat) := do
  let val ← machReadFrom b 1
  if val < 0x80 then pure (val, 1)
  else if val < 0xC0 then pure ((← machReadFrom b 2) &&& 0x3FFF, 2)
  else if val < 0xE0 then pure ((← machReadFrom b 3) &&& 0x1FFFFF, 3)
  else if val < 0xF0 then pure ((← machReadFrom b 4) &&& 0xFFFFFFF, 4)
  else pure ((← machReadFrom (b.drop 1) 4), 5)

/-- `mach_read_compressed(b)`. -/
def machReadCompressed (b : List UInt8) : Option Nat := (readCompressed b).map Prod.fst

/-- `mach_read_next_compressed(&b)`: the value and how far `b` moves. -/
def machReadNextCompressed (b : List UInt8) : Option (Nat × Nat) := readCompressed b

/-- `mach_u64_write_compressed(b, n)`: the high half compressed, then
`mach_write_to_4` of the low half. -/
def machU64WriteCompressed (n : UInt64) : List UInt8 :=
  machWriteCompressed (n.toNat >>> 32) ++ toBytes 4 n.toNat

/-- `mach_u64_read_next_compressed(&b)`. -/
def machU64ReadNextCompressed (b : List UInt8) : Option (Nat × Nat) := do
  let (val, size) ← machReadNextCompressed b
  let low ← machReadFrom (b.drop size) 4
  pure (val <<< 32 ||| low, size + 4)

/-- `mach_u64_write_much_compressed(b, n)`: a number below `2^32`
compressed, any other the byte `0xFF` and both halves compressed. -/
def machU64WriteMuchCompressed (n : UInt64) : List UInt8 :=
  if n.toNat >>> 32 = 0 then machWriteCompressed n.toNat
  else 0xFF :: (machWriteCompressed (n.toNat >>> 32) ++ machWriteCompressed (n.toNat &&& 0xFFFFFFFF))

/-- `mach_u64_read_much_compressed(b)`. -/
def machU64ReadMuchCompressed (b : List UInt8) : Option Nat :=
  match b with
  | [] => none
  | first :: rest =>
    if first ≠ 0xFF then machReadCompressed b
    else do
      let (high, size) ← machReadNextCompressed rest
      let low ← machReadCompressed (rest.drop size)
      pure (high <<< 32 ||| low)

/-- `mach_read_next_much_compressed(&b)`: the five forms of
`mach_read_next_compressed`, with `0xF0` alone leading four bytes and `0xFF`
leading two compressed halves. -/
def machReadNextMuchCompressed (b : List UInt8) : Option (Nat × Nat) := do
  let val ← machReadFrom b 1
  if val < 0x80 then pure (val, 1)
  else if val < 0xC0 then pure ((← machReadFrom b 2) &&& 0x3FFF, 2)
  else if val < 0xE0 then pure ((← machReadFrom b 3) &&& 0x1FFFFF, 3)
  else if val < 0xF0 then pure ((← machReadFrom b 4) &&& 0xFFFFFFF, 4)
  else if val = 0xF0 then pure ((← machReadFrom (b.drop 1) 4), 5)
  else
    let (high, size) ← machReadNextCompressed (b.drop 1)
    let (low, size') ← machReadNextCompressed (b.drop (1 + size))
    pure (high <<< 32 ||| low, 1 + size + size')

example : machWriteCompressed 300 = [0x81, 0x2C] := by decide

example : machReadNextCompressed [0xC1, 0x00, 0x00, 7] = some (0x10000, 3) := by decide

/-! ## Reading back -/

section RoundTrip

open Utf8 (or_shiftLeft_eq_add shiftLeft_or_eq_add)

theorem machReadFrom_toBytes (w x : Nat) (rest : List UInt8) :
    machReadFrom (toBytes w x ++ rest) w = some (x % 256 ^ w) := by
  simp [machReadFrom, ofBytes_toBytes]

/-- The first byte of a field of `w + 1` bytes. -/
theorem machReadFrom_first {w : Nat} (hw : 0 < w) (x : Nat) (rest : List UInt8) :
    machReadFrom (toBytes w x ++ rest) 1 = some (x / 256 ^ (w - 1) % 256) := by
  obtain ⟨v, rfl⟩ : ∃ v, w = v + 1 := ⟨w - 1, by omega⟩
  rw [Nat.add_comm, toBytes_add, List.append_assoc, machReadFrom_toBytes]
  simp

theorem and_low_bits (x k : Nat) : x &&& (2 ^ k - 1) = x % 2 ^ k := Nat.and_two_pow_sub_one_eq_mod x k

@[simp] theorem length_machWriteCompressed (n : Nat) :
    (machWriteCompressed n).length = machGetCompressedSize n := by
  unfold machWriteCompressed machGetCompressedSize
  split_ifs <;> simp

theorem machGetCompressedSize_pos (n : Nat) : 1 ≤ machGetCompressedSize n ∧ machGetCompressedSize n ≤ 5 := by
  unfold machGetCompressedSize
  split_ifs <;> omega

/-- The length code a first byte gives, with the bits the other bytes add. -/
theorem readCompressed_machWriteCompressed {n : Nat} (hn : n < 2 ^ 32) (rest : List UInt8) :
    ∃ val, machReadFrom (machWriteCompressed n ++ rest) 1 = some val ∧ val ≤ 0xF0 ∧
      readCompressed (machWriteCompressed n ++ rest) = some (n, machGetCompressedSize n) := by
  unfold machWriteCompressed machGetCompressedSize
  split_ifs with h1 h2 h3 h4
  · -- `0nnnnnnn`
    have hfirst := machReadFrom_first (by decide : 0 < 1) n rest
    simp only [Nat.sub_self, pow_zero, Nat.div_one, Nat.mod_eq_of_lt (show n < 256 by omega)] at hfirst
    refine ⟨n, hfirst, by omega, ?_⟩
    simp [readCompressed, hfirst, h1]
  · -- `10nnnnnn nnnnnnnn`: the tag bits lie above the 14 bits of `n`
    have htag : n ||| 0x8000 = 2 * 2 ^ 14 + n := by
      rw [show (0x8000 : Nat) = 2 <<< 14 by decide, or_shiftLeft_eq_add (by omega)]
    have hfirst := machReadFrom_first (by decide : 0 < 2) (n ||| 0x8000) rest
    have hall := machReadFrom_toBytes 2 (n ||| 0x8000) rest
    rw [htag] at hfirst hall ⊢
    have hbyte : (2 * 2 ^ 14 + n) / 256 ^ (2 - 1) % 256 = 128 + n / 256 := by omega
    have hmask : (2 * 2 ^ 14 + n) % 256 ^ 2 &&& 0x3FFF = n := by
      rw [show (0x3FFF : Nat) = 2 ^ 14 - 1 by norm_num, and_low_bits]
      omega
    rw [hbyte] at hfirst
    refine ⟨_, hfirst, by omega, ?_⟩
    simp only [readCompressed, hfirst, hall, hmask, Option.bind_eq_bind, Option.bind_some]
    simp [show ¬128 + n / 256 < 128 by omega, show 128 + n / 256 < 192 by omega]
  · -- `110nnnnn` and two more bytes
    have htag : n ||| 0xC00000 = 6 * 2 ^ 21 + n := by
      rw [show (0xC00000 : Nat) = 6 <<< 21 by decide, or_shiftLeft_eq_add (by omega)]
    have hfirst := machReadFrom_first (by decide : 0 < 3) (n ||| 0xC00000) rest
    have hall := machReadFrom_toBytes 3 (n ||| 0xC00000) rest
    rw [htag] at hfirst hall ⊢
    have hbyte : (6 * 2 ^ 21 + n) / 256 ^ (3 - 1) % 256 = 192 + n / 65536 := by omega
    have hmask : (6 * 2 ^ 21 + n) % 256 ^ 3 &&& 0x1FFFFF = n := by
      rw [show (0x1FFFFF : Nat) = 2 ^ 21 - 1 by norm_num, and_low_bits]
      omega
    rw [hbyte] at hfirst
    refine ⟨_, hfirst, by omega, ?_⟩
    simp only [readCompressed, hfirst, hall, hmask, Option.bind_eq_bind, Option.bind_some]
    simp [show ¬192 + n / 65536 < 128 by omega, show ¬192 + n / 65536 < 192 by omega,
      show 192 + n / 65536 < 224 by omega]
  · -- `1110nnnn` and three more bytes
    have htag : n ||| 0xE0000000 = 14 * 2 ^ 28 + n := by
      rw [show (0xE0000000 : Nat) = 14 <<< 28 by decide, or_shiftLeft_eq_add (by omega)]
    have hfirst := machReadFrom_first (by decide : 0 < 4) (n ||| 0xE0000000) rest
    have hall := machReadFrom_toBytes 4 (n ||| 0xE0000000) rest
    rw [htag] at hfirst hall ⊢
    have hbyte : (14 * 2 ^ 28 + n) / 256 ^ (4 - 1) % 256 = 224 + n / 16777216 := by omega
    have hmask : (14 * 2 ^ 28 + n) % 256 ^ 4 &&& 0xFFFFFFF = n := by
      rw [show (0xFFFFFFF : Nat) = 2 ^ 28 - 1 by norm_num, and_low_bits]
      omega
    rw [hbyte] at hfirst
    refine ⟨_, hfirst, by omega, ?_⟩
    simp only [readCompressed, hfirst, hall, hmask, Option.bind_eq_bind, Option.bind_some]
    simp [show ¬224 + n / 16777216 < 128 by omega, show ¬224 + n / 16777216 < 192 by omega,
      show ¬224 + n / 16777216 < 224 by omega, show 224 + n / 16777216 < 240 by omega]
  · -- `11110000` and the four bytes of `n`
    have hfirst := machReadFrom_first (by decide : 0 < 1) 0xF0 (toBytes 4 n ++ rest)
    have hall := machReadFrom_toBytes 4 n rest
    simp only [List.append_assoc, Nat.sub_self, pow_zero, Nat.div_one] at hfirst ⊢
    refine ⟨_, hfirst, by omega, ?_⟩
    simp [readCompressed, hfirst, hall]
    omega

theorem machReadFrom_one (first : UInt8) (tail : List UInt8) :
    machReadFrom (first :: tail) 1 = some first.toNat := by
  simp [machReadFrom, ofBytes]

/-- On a first byte up to `0xF0` the much compressed reader is the plain one. -/
theorem machReadNextMuchCompressed_of_first {b : List UInt8} {val : Nat} (h : machReadFrom b 1 = some val)
    (hval : val ≤ 0xF0) : machReadNextMuchCompressed b = readCompressed b := by
  simp only [machReadNextMuchCompressed, readCompressed, h, Option.bind_eq_bind, Option.bind_some]
  split_ifs <;> first | rfl | omega

/-- The first byte of a compressed number is at most `0xF0`, so it is never
the marker `0xFF` of the much compressed form. -/
theorem machWriteCompressed_first {n : Nat} (hn : n < 2 ^ 32) :
    ∃ first tail, machWriteCompressed n = first :: tail ∧ first.toNat ≤ 0xF0 := by
  obtain ⟨val, hfirst, hval, -⟩ := readCompressed_machWriteCompressed hn []
  match hw : machWriteCompressed n with
  | [] =>
    have := length_machWriteCompressed n
    rw [hw] at this
    have := machGetCompressedSize_pos n
    simp at *
    omega
  | first :: tail =>
    rw [hw, List.append_nil, machReadFrom_one, Option.some.injEq] at hfirst
    exact ⟨first, tail, rfl, hfirst ▸ hval⟩

theorem high_lt (n : UInt64) : n.toNat >>> 32 < 2 ^ 32 := by
  have := n.toNat_lt
  rw [Nat.shiftRight_eq_div_pow]
  omega

/-- The two halves put back together. -/
theorem high_or_low (n : UInt64) : (n.toNat >>> 32) <<< 32 ||| n.toNat % 2 ^ 32 = n.toNat := by
  rw [shiftLeft_or_eq_add (Nat.mod_lt _ (by norm_num)), Nat.shiftRight_eq_div_pow]
  omega

theorem machU64ReadNextCompressed_write (n : UInt64) (rest : List UInt8) :
    machU64ReadNextCompressed (machU64WriteCompressed n ++ rest) =
      some (n.toNat, (machU64WriteCompressed n).length) := by
  obtain ⟨_, -, -, hhigh⟩ := readCompressed_machWriteCompressed (high_lt n) (toBytes 4 n.toNat ++ rest)
  have hdrop : (machWriteCompressed (n.toNat >>> 32) ++ (toBytes 4 n.toNat ++ rest)).drop
      (machGetCompressedSize (n.toNat >>> 32)) = toBytes 4 n.toNat ++ rest := by
    rw [← length_machWriteCompressed, List.drop_left]
  simp only [machU64ReadNextCompressed, machU64WriteCompressed, machReadNextCompressed, List.append_assoc,
    hhigh, hdrop, machReadFrom_toBytes, Option.bind_eq_bind, Option.bind_some, List.length_append,
    length_machWriteCompressed, length_toBytes]
  rw [show (256 : Nat) ^ 4 = 2 ^ 32 by norm_num, high_or_low]
  rfl

theorem length_machU64WriteCompressed (n : UInt64) :
    5 ≤ (machU64WriteCompressed n).length ∧ (machU64WriteCompressed n).length ≤ 9 := by
  have := machGetCompressedSize_pos (n.toNat >>> 32)
  simp only [machU64WriteCompressed, List.length_append, length_machWriteCompressed, length_toBytes]
  omega

theorem low_eq (n : UInt64) : n.toNat &&& 0xFFFFFFFF = n.toNat % 2 ^ 32 := by
  rw [show (0xFFFFFFFF : Nat) = 2 ^ 32 - 1 by norm_num, and_low_bits]

/-- Both much compressed readers read back what the much compressed writer
wrote; the one that moves `b` moves past all of it. -/
theorem machU64ReadMuchCompressed_write (n : UInt64) (rest : List UInt8) :
    machU64ReadMuchCompressed (machU64WriteMuchCompressed n ++ rest) = some n.toNat ∧
      machReadNextMuchCompressed (machU64WriteMuchCompressed n ++ rest) =
        some (n.toNat, (machU64WriteMuchCompressed n).length) := by
  unfold machU64WriteMuchCompressed
  split_ifs with hhigh
  · -- below `2^32`: one compressed number, whose first byte is not `0xFF`
    have hn : n.toNat < 2 ^ 32 := by
      rw [Nat.shiftRight_eq_div_pow] at hhigh
      have := n.toNat_lt
      omega
    obtain ⟨val, hfirst, hval, hread⟩ := readCompressed_machWriteCompressed hn rest
    obtain ⟨first, tail, hw, hle⟩ := machWriteCompressed_first hn
    have hne : first ≠ 0xFF := fun h => by rw [h] at hle; exact absurd hle (by decide)
    refine ⟨?_, ?_⟩
    · rw [hw, List.cons_append, machU64ReadMuchCompressed, if_pos hne, machReadCompressed,
        ← List.cons_append, ← hw, hread]
      rfl
    · rw [machReadNextMuchCompressed_of_first hfirst hval, hread, length_machWriteCompressed]
  · -- the marker, then the high and the low half compressed
    obtain ⟨_, -, -, hhigh'⟩ := readCompressed_machWriteCompressed (high_lt n)
      (machWriteCompressed (n.toNat &&& 0xFFFFFFFF) ++ rest)
    have hlow : n.toNat &&& 0xFFFFFFFF < 2 ^ 32 := by rw [low_eq]; exact Nat.mod_lt _ (by norm_num)
    obtain ⟨_, -, -, hlow'⟩ := readCompressed_machWriteCompressed hlow rest
    have hdrop : (machWriteCompressed (n.toNat >>> 32) ++ (machWriteCompressed (n.toNat &&& 0xFFFFFFFF) ++
        rest)).drop (machGetCompressedSize (n.toNat >>> 32)) =
        machWriteCompressed (n.toNat &&& 0xFFFFFFFF) ++ rest := by
      rw [← length_machWriteCompressed, List.drop_left]
    have hvalue : (n.toNat >>> 32) <<< 32 ||| (n.toNat &&& 0xFFFFFFFF) = n.toNat := by
      rw [low_eq, high_or_low]
    refine ⟨?_, ?_⟩
    · simp only [List.cons_append, List.append_assoc, machU64ReadMuchCompressed, ne_eq, not_true_eq_false,
        ↓reduceIte, machReadNextCompressed, hhigh', hdrop, machReadCompressed, hlow', Option.bind_eq_bind,
        Option.bind_some, Option.map_some, hvalue]
      rfl
    · have hdrop' : ((0xFF : UInt8) :: (machWriteCompressed (n.toNat >>> 32) ++
          (machWriteCompressed (n.toNat &&& 0xFFFFFFFF) ++ rest))).drop
          (1 + machGetCompressedSize (n.toNat >>> 32)) = machWriteCompressed (n.toNat &&& 0xFFFFFFFF) ++ rest := by
        rw [Nat.add_comm, List.drop_succ_cons, hdrop]
      simp only [List.cons_append, List.append_assoc, machReadNextMuchCompressed, machReadFrom_one,
        Option.bind_eq_bind, Option.bind_some, List.drop_succ_cons, List.drop_zero, machReadNextCompressed,
        hhigh', hdrop', hlow', hvalue, List.length_cons, List.length_append, length_machWriteCompressed]
      simp only [UInt8.reduceToNat]
      simp
      omega

theorem length_machU64WriteMuchCompressed (n : UInt64) :
    1 ≤ (machU64WriteMuchCompressed n).length ∧ (machU64WriteMuchCompressed n).length ≤ 11 := by
  have hhigh := machGetCompressedSize_pos (n.toNat >>> 32)
  have hlow := machGetCompressedSize_pos (n.toNat &&& 0xFFFFFFFF)
  have hall := machGetCompressedSize_pos n.toNat
  unfold machU64WriteMuchCompressed
  split_ifs <;> simp only [List.length_cons, List.length_append, length_machWriteCompressed] <;> omega

end RoundTrip

/-- The compressed forms of `mach0data.inl` read back: a number below `2^32`
takes `mach_get_compressed_size(n)` bytes whose first is at most `0xF0`, and
the 64-bit forms take 5 to 9 and 1 to 11 bytes; each reader returns the
number, and each `_next_` reader moves past exactly the bytes written. -/
theorem machCompressed_round_trip :
    (∀ n < 2 ^ 32, ∀ rest : List UInt8,
      (machWriteCompressed n).length = machGetCompressedSize n ∧
      (∃ first tail, machWriteCompressed n = first :: tail ∧ first.toNat ≤ 0xF0) ∧
      machReadCompressed (machWriteCompressed n ++ rest) = some n ∧
      machReadNextCompressed (machWriteCompressed n ++ rest) = some (n, machGetCompressedSize n)) ∧
    (∀ (n : UInt64) (rest : List UInt8),
      5 ≤ (machU64WriteCompressed n).length ∧ (machU64WriteCompressed n).length ≤ 9 ∧
      machU64ReadNextCompressed (machU64WriteCompressed n ++ rest) =
        some (n.toNat, (machU64WriteCompressed n).length)) ∧
    (∀ (n : UInt64) (rest : List UInt8),
      1 ≤ (machU64WriteMuchCompressed n).length ∧ (machU64WriteMuchCompressed n).length ≤ 11 ∧
      machU64ReadMuchCompressed (machU64WriteMuchCompressed n ++ rest) = some n.toNat ∧
      machReadNextMuchCompressed (machU64WriteMuchCompressed n ++ rest) =
        some (n.toNat, (machU64WriteMuchCompressed n).length)) := by
  refine ⟨fun n hn rest => ?_, fun n rest => ?_, fun n rest => ?_⟩
  · obtain ⟨_, -, -, hread⟩ := readCompressed_machWriteCompressed hn rest
    refine ⟨length_machWriteCompressed n, machWriteCompressed_first hn, ?_, hread⟩
    rw [machReadCompressed, hread]
    rfl
  · exact ⟨(length_machU64WriteCompressed n).1, (length_machU64WriteCompressed n).2,
      machU64ReadNextCompressed_write n rest⟩
  · exact ⟨(length_machU64WriteMuchCompressed n).1, (length_machU64WriteMuchCompressed n).2,
      machU64ReadMuchCompressed_write n rest⟩

theorem machCompressed_round_trip_three_hundred :
    (300 : Nat) < 2 ^ 32 ∧ machReadCompressed (machWriteCompressed 300 ++ []) = some 300 :=
  ⟨by norm_num, (machCompressed_round_trip.1 300 (by norm_num) []).2.2.1⟩

end MariaDB.Innobase
