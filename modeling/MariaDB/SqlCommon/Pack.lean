import Mathlib.Order.Lattice.Nat
import MariaDB.Bytes.LittleEndian

set_option autoImplicit false

/- The length-encoded integers of sql-common/pack.c, the client protocol's
packing of lengths: a value below 251 is one byte, 251 stands for SQL NULL,
and 252, 253 and 254 lead a 2-, 3- and 8-byte little-endian value. A reader
returns the value and how many bytes it moved the packet pointer; the plain
readers read past a short buffer, which is `none` here, and the safe reader's
`*packet = NULL` is `none` too. -/
namespace MariaDB.Pack

open LittleEndian

/-- `NULL_LENGTH`: `(unsigned long) ~0`, as a `my_ulonglong`. -/
def nullLength : UInt64 := 18446744073709551615

/-- The `width` bytes after the first one, or `none` past the buffer. -/
def readAfter (packet : List UInt8) (width : Nat) : Option UInt64 :=
  if width + 1 ≤ packet.length then some (UInt64.ofNat (ofBytes ((packet.drop 1).take width))) else none

/-- `net_field_length_ll`: the value and the bytes it advanced over. The
source asserts that a first byte above 253 is 254, and reads eight bytes
for both. -/
def netFieldLengthLl (packet : List UInt8) : Option (UInt64 × Nat) :=
  match packet with
  | [] => none
  | pos :: _ =>
    if pos.toNat < 251 then some (pos.toNat.toUInt64, 1)
    else if pos.toNat = 251 then some (nullLength, 1)
    else if pos.toNat = 252 then (readAfter packet 2).map (·, 3)
    else if pos.toNat = 253 then (readAfter packet 3).map (·, 4)
    else (readAfter packet 8).map (·, 9)

/-- `safe_net_field_length_ll(packet, packet_len)`, with `packet_len` the
length of the buffer. -/
def safeNetFieldLengthLl (packet : List UInt8) (packetLen : Nat) : Option (UInt64 × Nat) :=
  if packetLen < 1 then none
  else
    match packet with
    | [] => none
    | pos :: _ =>
      if pos.toNat < 251 then some (pos.toNat.toUInt64, 1)
      else if pos.toNat = 251 then some (nullLength, 1)
      else if pos.toNat = 252 then
        if packetLen < 3 then none else (readAfter packet 2).map (·, 3)
      else if pos.toNat = 253 then
        if packetLen < 4 then none else (readAfter packet 3).map (·, 4)
      else if packetLen < 9 ∨ pos.toNat ≠ 254 then none
      else (readAfter packet 8).map (·, 9)

/-- `net_store_length`: the bytes written; `int2store`, `int3store` and
`int8store` store the low bytes of `length`. -/
def netStoreLength (length : UInt64) : List UInt8 :=
  if length < 251 then [length.toUInt8]
  else if length < 65536 then 252 :: toBytes 2 length.toNat
  else if length < 16777216 then 253 :: toBytes 3 length.toNat
  else 254 :: toBytes 8 length.toNat

/-- `safe_net_store_length`: `NULL` when `packet_len` bytes do not hold the
encoding. -/
def safeNetStoreLength (packetLen : Nat) (length : UInt64) : Option (List UInt8) :=
  if length < 251 then
    if packetLen < 1 then none else some [length.toUInt8]
  else if length < 65536 then
    if packetLen < 3 then none else some (252 :: toBytes 2 length.toNat)
  else if length < 16777216 then
    if packetLen < 4 then none else some (253 :: toBytes 3 length.toNat)
  else if packetLen < 9 then none
  else some (254 :: toBytes 8 length.toNat)

/-- `net_length_size`. -/
def netLengthSize (num : UInt64) : Nat :=
  if num < 251 then 1
  else if num < 65536 then 3
  else if num < 16777216 then 4
  else 9

example : netStoreLength 300 = [252, 44, 1] := by decide

example : netFieldLengthLl [253, 1, 2, 3, 99] = some (197121, 4) := by decide

/-- The encoding of each size class, with the bound that puts `n` in it. -/
theorem netStoreLength_cases (n : UInt64) :
    (n.toNat < 251 ∧ netStoreLength n = [n.toUInt8] ∧ netLengthSize n = 1) ∨
    (251 ≤ n.toNat ∧ n.toNat < 65536 ∧ netStoreLength n = 252 :: toBytes 2 n.toNat ∧ netLengthSize n = 3) ∨
    (65536 ≤ n.toNat ∧ n.toNat < 16777216 ∧ netStoreLength n = 253 :: toBytes 3 n.toNat ∧
      netLengthSize n = 4) ∨
    (16777216 ≤ n.toNat ∧ netStoreLength n = 254 :: toBytes 8 n.toNat ∧ netLengthSize n = 9) := by
  simp only [netStoreLength, netLengthSize, UInt64.lt_iff_toNat_lt, UInt64.reduceToNat]
  split_ifs with h1 h2 h3
  · exact Or.inl ⟨h1, rfl, rfl⟩
  · exact Or.inr (Or.inl ⟨by omega, h2, rfl, rfl⟩)
  · exact Or.inr (Or.inr (Or.inl ⟨by omega, h3, rfl, rfl⟩))
  · exact Or.inr (Or.inr (Or.inr ⟨by omega, rfl, rfl⟩))

@[simp] theorem length_netStoreLength (n : UInt64) : (netStoreLength n).length = netLengthSize n := by
  rcases netStoreLength_cases n with ⟨-, hs, hn⟩ | ⟨-, -, hs, hn⟩ | ⟨-, -, hs, hn⟩ | ⟨-, hs, hn⟩ <;>
    simp [hs, hn]

/-- The format: `bytes` is one length-encoded integer, of value `v`. -/
def Encodes (v : UInt64) : List UInt8 → Prop
  | [] => False
  | lead :: bs =>
    if lead.toNat < 251 then bs = [] ∧ v = lead.toNat.toUInt64
    else if lead.toNat = 251 then bs = [] ∧ v = nullLength
    else if lead.toNat = 252 then bs.length = 2 ∧ v = UInt64.ofNat (ofBytes bs)
    else if lead.toNat = 253 then bs.length = 3 ∧ v = UInt64.ofNat (ofBytes bs)
    else lead.toNat = 254 ∧ bs.length = 8 ∧ v = UInt64.ofNat (ofBytes bs)

/-- `net_store_length` writes an encoding of its argument. -/
theorem encodes_netStoreLength (n : UInt64) : Encodes n (netStoreLength n) := by
  have hn := n.toNat_lt
  rcases netStoreLength_cases n with ⟨hlt, hs, -⟩ | ⟨hge, hlt, hs, -⟩ | ⟨hge, hlt, hs, -⟩ | ⟨hge, hs, -⟩
  · have hbyte : n.toUInt8.toNat = n.toNat := by
      rw [UInt64.toNat_toUInt8]
      omega
    simp [hs, Encodes, hbyte, hlt]
  · simp [hs, Encodes, ofBytes_toBytes_of_lt (show n.toNat < 256 ^ 2 by norm_num; omega)]
  · simp [hs, Encodes, ofBytes_toBytes_of_lt (show n.toNat < 256 ^ 3 by norm_num; omega)]
  · simp [hs, Encodes, ofBytes_toBytes_of_lt (show n.toNat < 256 ^ 8 by norm_num; omega)]

/-- `net_field_length_ll` decodes an encoding, whatever follows it, and moves
past exactly its bytes. -/
theorem netFieldLengthLl_of_encodes {v : UInt64} {bytes : List UInt8} (h : Encodes v bytes)
    (rest : List UInt8) : netFieldLengthLl (bytes ++ rest) = some (v, bytes.length) := by
  match bytes with
  | [] => exact absurd h id
  | lead :: bs =>
    have hread : ∀ w, bs.length = w → readAfter (lead :: (bs ++ rest)) w = some (UInt64.ofNat (ofBytes bs)) := by
      intro w hw
      simp [readAfter, ← hw]
    simp only [Encodes] at h
    split_ifs at h with h1 h2 h3 h4
    · obtain ⟨rfl, rfl⟩ := h
      simp [netFieldLengthLl, h1]
    · obtain ⟨rfl, rfl⟩ := h
      simp [netFieldLengthLl, h2]
    · obtain ⟨hlen, rfl⟩ := h
      simp [netFieldLengthLl, hread 2 hlen, h3, hlen]
    · obtain ⟨hlen, rfl⟩ := h
      simp [netFieldLengthLl, hread 3 hlen, h4, hlen]
    · obtain ⟨-, hlen, rfl⟩ := h
      simp [netFieldLengthLl, hread 8 hlen, h1, h2, h3, h4, hlen]

/-- The value after the lead byte, read inside the buffer, and the bytes it
was read from. -/
theorem readAfter_eq_some {lead : UInt8} {tail : List UInt8} {w : Nat} {x : UInt64}
    (h : readAfter (lead :: tail) w = some x) :
    w ≤ tail.length ∧ (tail.take w).length = w ∧ x = UInt64.ofNat (ofBytes (tail.take w)) := by
  unfold readAfter at h
  split_ifs at h with hlen
  simp only [List.length_cons] at hlen
  simp only [Option.some.injEq, List.drop_succ_cons, List.drop_zero] at h
  exact ⟨by omega, by simp; omega, h.symm⟩

/-- What the safe reader accepts it has read inside the buffer, and the bytes
it moved past are one encoding of the value it returns. -/
theorem safeNetFieldLengthLl_encodes (s : List UInt8) {v : UInt64} {k : Nat}
    (h : safeNetFieldLengthLl s s.length = some (v, k)) : k ≤ s.length ∧ Encodes v (s.take k) := by
  match s with
  | [] => simp [safeNetFieldLengthLl] at h
  | pos :: tail =>
    simp only [safeNetFieldLengthLl, List.length_cons] at h
    split_ifs at h with h0 h1 h2 h3 h4 h5 h6 h7
    · simp only [Option.some.injEq, Prod.mk.injEq] at h
      obtain ⟨rfl, rfl⟩ := h
      simp [Encodes, h1]
    · simp only [Option.some.injEq, Prod.mk.injEq] at h
      obtain ⟨rfl, rfl⟩ := h
      simp [Encodes, h2]
    · obtain ⟨x, hx, hxk⟩ := Option.map_eq_some_iff.mp h
      simp only [Prod.mk.injEq] at hxk
      obtain ⟨rfl, rfl⟩ := hxk
      obtain ⟨hw, hlen, rfl⟩ := readAfter_eq_some hx
      simp [Encodes, h3, hlen]
      omega
    · obtain ⟨x, hx, hxk⟩ := Option.map_eq_some_iff.mp h
      simp only [Prod.mk.injEq] at hxk
      obtain ⟨rfl, rfl⟩ := hxk
      obtain ⟨hw, hlen, rfl⟩ := readAfter_eq_some hx
      simp [Encodes, h5, hlen]
      omega
    · obtain ⟨x, hx, hxk⟩ := Option.map_eq_some_iff.mp h
      simp only [Prod.mk.injEq] at hxk
      obtain ⟨rfl, rfl⟩ := hxk
      obtain ⟨hw, hlen, rfl⟩ := readAfter_eq_some hx
      simp only [not_or, not_lt, not_not] at h7
      simp [Encodes, h7.2, hlen]
      omega

/-- `safe_net_store_length` fails exactly when the buffer is shorter than
`net_length_size(n)`, and otherwise writes what `net_store_length` writes. -/
theorem safeNetStoreLength_eq (packetLen : Nat) (n : UInt64) :
    safeNetStoreLength packetLen n =
      if packetLen < netLengthSize n then none else some (netStoreLength n) := by
  simp only [safeNetStoreLength, netStoreLength, netLengthSize]
  split_ifs <;> rfl

/-- The writer, the two stores and the safe reader of length-encoded
integers: what `net_store_length` writes is `net_length_size(n)` bytes that
`net_field_length_ll` reads back, `safe_net_store_length` fails exactly on a
buffer too short for them, and the safe reader either fails or consumes one
encoding inside the buffer. -/
theorem lengthEncodedInteger_round_trip :
    (∀ (n : UInt64) (rest : List UInt8), (netStoreLength n).length = netLengthSize n ∧
        netFieldLengthLl (netStoreLength n ++ rest) = some (n, netLengthSize n)) ∧
    (∀ (packetLen : Nat) (n : UInt64),
        safeNetStoreLength packetLen n = if packetLen < netLengthSize n then none else some (netStoreLength n)) ∧
    (∀ s : List UInt8, safeNetFieldLengthLl s s.length = none ∨
        ∃ v k, safeNetFieldLengthLl s s.length = some (v, k) ∧ k ≤ s.length ∧ Encodes v (s.take k)) := by
  refine ⟨fun n rest => ⟨length_netStoreLength n, ?_⟩, safeNetStoreLength_eq, fun s => ?_⟩
  · rw [← length_netStoreLength n]
    exact netFieldLengthLl_of_encodes (encodes_netStoreLength n) rest
  · cases h : safeNetFieldLengthLl s s.length with
    | none => exact Or.inl rfl
    | some r =>
      obtain ⟨v, k⟩ := r
      exact Or.inr ⟨v, k, rfl, safeNetFieldLengthLl_encodes s h⟩

end MariaDB.Pack
