set_option autoImplicit false

/- The Unicode conversions of a `CHARSET_INFO` (include/m_ctype.h) for the
character sets the JSON functions work in: utf8mb3 and utf8mb4 of
strings/ctype-utf8.c and strings/ctype-utf8.h, and the UTF-16 codec of
strings/ctype-ucs2.c and strings/ctype-utf16.h that JSON escapes use. A
conversion reads from the current position to the end of its buffer, or writes
into the room left in one, and returns a length or one of the `MY_CS_*` codes. -/
namespace MariaDB.Ctype

/-- `MY_CS_ILSEQ`: no character at these bytes. -/
def myCsIlseq : Int := 0

/-- `MY_CS_ILUNI`: the character set has no bytes for this character. -/
def myCsIluni : Int := 0

/-- `MY_CS_TOOSMALLN(n)`: `n` bytes are needed and fewer are left. -/
def myCsToosmallN (n : Nat) : Int := -100 - n

/-- `MY_CS_TOOSMALL`. -/
def myCsToosmall : Int := myCsToosmallN 1

/-- The two conversions of a `CHARSET_INFO` that the JSON code calls:
`mb_wc` reads one character off the bytes left, giving its length and code
point, and `wc_mb` writes one into `room` bytes, giving the length and the
bytes. A result of zero or less leaves the code point unread. -/
structure CharsetInfo where
  mbWc : List UInt8 → Int × Nat
  wcMb : Nat → Nat → Int × List UInt8

/-! ## UTF-8 -/

/-- `IS_CONTINUATION_BYTE`. -/
def isContinuationByte (c : UInt8) : Bool := (c ^^^ 0x80) < 0x40

/-- `IS_UTF8MB3_STEP2`: the tail of a three-byte head, with no overlong form. -/
def isUtf8mb3Step2 (b0 b1 b2 : UInt8) : Bool :=
  isContinuationByte b1 && isContinuationByte b2 && (b0 ≥ 0xe1 || b1 ≥ 0xa0)

/-- `IS_UTF8MB4_STEP2`: the tail of a four-byte head, within U+10000..U+10FFFF. -/
def isUtf8mb4Step2 (b0 b1 b2 b3 : UInt8) : Bool :=
  isContinuationByte b1 && isContinuationByte b2 && isContinuationByte b3 &&
    (b0 ≥ 0xf1 || b1 ≥ 0x90) && (b0 ≤ 0xf3 || b1 ≤ 0x8F)

/-- `UTF8MB2_CODE`. -/
def utf8mb2Code (b0 b1 : UInt8) : Nat := ((b0 &&& 0x1f).toNat <<< 6) ||| (b1 ^^^ 0x80).toNat

/-- `UTF8MB3_CODE`. -/
def utf8mb3Code (b0 b1 b2 : UInt8) : Nat :=
  ((b0 &&& 0x0f).toNat <<< 12) ||| ((b1 ^^^ 0x80).toNat <<< 6) ||| (b2 ^^^ 0x80).toNat

/-- `UTF8MB4_CODE`. -/
def utf8mb4Code (b0 b1 b2 b3 : UInt8) : Nat :=
  ((b0 &&& 0x07).toNat <<< 18) ||| ((b1 ^^^ 0x80).toNat <<< 12) |||
    ((b2 ^^^ 0x80).toNat <<< 6) ||| (b3 ^^^ 0x80).toNat

/-- `my_mb_wc_utf8mb3_quick`. -/
def myMbWcUtf8mb3Quick : List UInt8 → Int × Nat
  | [] => (myCsToosmall, 0)
  | c :: rest =>
    if c < 0x80 then (1, c.toNat)
    else if c < 0xc2 then (myCsIlseq, 0)
    else if c < 0xe0 then
      match rest with
      | b1 :: _ => if !isContinuationByte b1 then (myCsIlseq, 0) else (2, utf8mb2Code c b1)
      | [] => (myCsToosmallN 2, 0)
    else if c < 0xf0 then
      match rest with
      | b1 :: b2 :: _ =>
        if !isUtf8mb3Step2 c b1 b2 then (myCsIlseq, 0) else (3, utf8mb3Code c b1 b2)
      | _ => (myCsToosmallN 3, 0)
    else (myCsIlseq, 0)

/-- `my_mb_wc_utf8mb4_quick`. -/
def myMbWcUtf8mb4Quick : List UInt8 → Int × Nat
  | [] => (myCsToosmall, 0)
  | c :: rest =>
    if c < 0x80 then (1, c.toNat)
    else if c < 0xc2 then (myCsIlseq, 0)
    else if c < 0xe0 then
      match rest with
      | b1 :: _ => if !isContinuationByte b1 then (myCsIlseq, 0) else (2, utf8mb2Code c b1)
      | [] => (myCsToosmallN 2, 0)
    else if c < 0xf0 then
      match rest with
      | b1 :: b2 :: _ =>
        if !isUtf8mb3Step2 c b1 b2 then (myCsIlseq, 0) else (3, utf8mb3Code c b1 b2)
      | _ => (myCsToosmallN 3, 0)
    else if c < 0xf5 then
      match rest with
      | b1 :: b2 :: b3 :: _ =>
        if !isUtf8mb4Step2 c b1 b2 b3 then (myCsIlseq, 0) else (4, utf8mb4Code c b1 b2 b3)
      | _ => (myCsToosmallN 4, 0)
    else (myCsIlseq, 0)

@[simp] theorem myMbWcUtf8mb4Quick_nil : myMbWcUtf8mb4Quick [] = (myCsToosmall, 0) := rfl

theorem myMbWcUtf8mb4Quick_cons (c : UInt8) (rest : List UInt8) :
    myMbWcUtf8mb4Quick (c :: rest) =
      if c < 0x80 then (1, c.toNat)
      else if c < 0xc2 then (myCsIlseq, 0)
      else if c < 0xe0 then
        match rest with
        | b1 :: _ => if !isContinuationByte b1 then (myCsIlseq, 0) else (2, utf8mb2Code c b1)
        | [] => (myCsToosmallN 2, 0)
      else if c < 0xf0 then
        match rest with
        | b1 :: b2 :: _ =>
          if !isUtf8mb3Step2 c b1 b2 then (myCsIlseq, 0) else (3, utf8mb3Code c b1 b2)
        | _ => (myCsToosmallN 3, 0)
      else if c < 0xf5 then
        match rest with
        | b1 :: b2 :: b3 :: _ =>
          if !isUtf8mb4Step2 c b1 b2 b3 then (myCsIlseq, 0) else (4, utf8mb4Code c b1 b2 b3)
        | _ => (myCsToosmallN 4, 0)
      else (myCsIlseq, 0) := rfl

/-- `my_valid_mbcharlen_utf8mb3`, called with the lead byte `c` of the bytes
left (the caller has checked that one is left). -/
def myValidMbcharlenUtf8mb3 (c : UInt8) (rest : List UInt8) : Int :=
  if c < 0x80 then 1
  else if c < 0xc2 then myCsIlseq
  else if c < 0xe0 then
    match rest with
    | b1 :: _ => if !isContinuationByte b1 then myCsIlseq else 2
    | [] => myCsToosmallN 2
  else
    match rest with
    | b1 :: b2 :: _ => if !isUtf8mb3Step2 c b1 b2 then myCsIlseq else 3
    | _ => myCsToosmallN 3

/-- `my_charlen_utf8mb4`. -/
def myCharlenUtf8mb4 : List UInt8 → Int
  | [] => myCsToosmall
  | c :: rest =>
    if c < 0xf0 then myValidMbcharlenUtf8mb3 c rest
    else if c < 0xf5 then
      match rest with
      | b1 :: b2 :: b3 :: _ => if !isUtf8mb4Step2 c b1 b2 b3 then myCsIlseq else 4
      | _ => myCsToosmallN 4
    else myCsIlseq

/-- `my_uni_utf8mb3`: at most three bytes, so nothing beyond the BMP. -/
def myUniUtf8mb3 (wc room : Nat) : Int × List UInt8 :=
  if wc < 0x80 then
    if room = 0 then (myCsToosmall, []) else (1, [UInt8.ofNat wc])
  else if wc < 0x800 then
    if room < 2 then (myCsToosmallN 2, [])
    else (2, [UInt8.ofNat (0xC0 ||| (wc >>> 6)), UInt8.ofNat (0x80 ||| (wc &&& 0x3F))])
  else if wc < 0x10000 then
    if room < 3 then (myCsToosmallN 3, [])
    else (3, [UInt8.ofNat (0xE0 ||| (wc >>> 12)), UInt8.ofNat (0x80 ||| ((wc >>> 6) &&& 0x3f)),
      UInt8.ofNat (0x80 ||| (wc &&& 0x3f))])
  else (myCsIluni, [])

/-- The `switch (count)` of `my_wc_mb_utf8mb4`, which falls through from the
last byte to the first, shifting six bits off at each case. -/
def wcMbUtf8mb4Bytes : Nat → Nat → List UInt8
  | 4, wc => wcMbUtf8mb4Bytes 3 ((wc >>> 6) ||| 0x10000) ++ [UInt8.ofNat (0x80 ||| (wc &&& 0x3f))]
  | 3, wc => wcMbUtf8mb4Bytes 2 ((wc >>> 6) ||| 0x800) ++ [UInt8.ofNat (0x80 ||| (wc &&& 0x3f))]
  | 2, wc => wcMbUtf8mb4Bytes 1 ((wc >>> 6) ||| 0xc0) ++ [UInt8.ofNat (0x80 ||| (wc &&& 0x3f))]
  | _, wc => [UInt8.ofNat wc]

/-- The cases of the `switch` as equations, unfolded once here for the lemmas below. -/
theorem wcMbUtf8mb4Bytes_steps (wc : Nat) :
    wcMbUtf8mb4Bytes 4 wc = wcMbUtf8mb4Bytes 3 ((wc >>> 6) ||| 0x10000) ++ [UInt8.ofNat (0x80 ||| (wc &&& 0x3f))] ∧
      wcMbUtf8mb4Bytes 3 wc = wcMbUtf8mb4Bytes 2 ((wc >>> 6) ||| 0x800) ++ [UInt8.ofNat (0x80 ||| (wc &&& 0x3f))] ∧
      wcMbUtf8mb4Bytes 2 wc = wcMbUtf8mb4Bytes 1 ((wc >>> 6) ||| 0xc0) ++ [UInt8.ofNat (0x80 ||| (wc &&& 0x3f))] ∧
      wcMbUtf8mb4Bytes 1 wc = [UInt8.ofNat wc] := by
  refine ⟨?_, ?_, ?_, ?_⟩ <;> rw [wcMbUtf8mb4Bytes] <;> omega

theorem wcMbUtf8mb4Bytes_eq_four (wc : Nat) :
    wcMbUtf8mb4Bytes 4 wc = wcMbUtf8mb4Bytes 3 ((wc >>> 6) ||| 0x10000) ++ [UInt8.ofNat (0x80 ||| (wc &&& 0x3f))] :=
  (wcMbUtf8mb4Bytes_steps wc).1

theorem wcMbUtf8mb4Bytes_eq_three (wc : Nat) :
    wcMbUtf8mb4Bytes 3 wc = wcMbUtf8mb4Bytes 2 ((wc >>> 6) ||| 0x800) ++ [UInt8.ofNat (0x80 ||| (wc &&& 0x3f))] :=
  (wcMbUtf8mb4Bytes_steps wc).2.1

theorem wcMbUtf8mb4Bytes_eq_two (wc : Nat) :
    wcMbUtf8mb4Bytes 2 wc = wcMbUtf8mb4Bytes 1 ((wc >>> 6) ||| 0xc0) ++ [UInt8.ofNat (0x80 ||| (wc &&& 0x3f))] :=
  (wcMbUtf8mb4Bytes_steps wc).2.2.1

@[simp] theorem wcMbUtf8mb4Bytes_one (wc : Nat) : wcMbUtf8mb4Bytes 1 wc = [UInt8.ofNat wc] :=
  (wcMbUtf8mb4Bytes_steps wc).2.2.2

/-- `my_wc_mb_utf8mb4`. -/
def myWcMbUtf8mb4 (wc room : Nat) : Int × List UInt8 :=
  if room = 0 then (myCsToosmall, [])
  else
    let count := if wc < 0x80 then 1 else if wc < 0x800 then 2 else if wc < 0x10000 then 3
      else if wc < 0x200000 then 4 else 0
    if count = 0 then (myCsIluni, [])
    else if room < count then (myCsToosmallN count, [])
    else (count, wcMbUtf8mb4Bytes count wc)

/-- The conversions of utf8mb3. -/
def utf8mb3 : CharsetInfo := ⟨myMbWcUtf8mb3Quick, myUniUtf8mb3⟩

/-- The conversions of utf8mb4. -/
def utf8mb4 : CharsetInfo := ⟨myMbWcUtf8mb4Quick, myWcMbUtf8mb4⟩

/-! ## UTF-16 -/

/-- `MY_UTF16_HIGH_HEAD`. -/
def myUtf16HighHead (x : UInt8) : Bool := (x &&& 0xFC) = 0xD8

/-- `MY_UTF16_LOW_HEAD`. -/
def myUtf16LowHead (x : UInt8) : Bool := (x &&& 0xFC) = 0xDC

/-- `MY_UTF16_SURROGATE`. -/
def myUtf16Surrogate (x : Nat) : Bool := (x &&& 0xF800) = 0xD800

/-- `MY_UTF16_WC2`. -/
def myUtf16Wc2 (a b : UInt8) : Nat := (a.toNat <<< 8) + b.toNat

/-- `MY_UTF16_WC4`. -/
def myUtf16Wc4 (a b c d : UInt8) : Nat :=
  ((a.toNat &&& 3) <<< 18) + (b.toNat <<< 10) + ((c.toNat &&& 3) <<< 8) + d.toNat + 0x10000

/-- `my_utf16_uni`, that is `my_mb_wc_utf16_quick`: a big-endian code unit, or
a surrogate pair. -/
def myUtf16Uni : List UInt8 → Int × Nat
  | s0 :: s1 :: rest =>
    if myUtf16HighHead s0 then
      match rest with
      | s2 :: s3 :: _ => if !myUtf16LowHead s2 then (myCsIlseq, 0) else (4, myUtf16Wc4 s0 s1 s2 s3)
      | _ => (myCsToosmallN 4, 0)
    else if myUtf16LowHead s0 then (myCsIlseq, 0)
    else (2, myUtf16Wc2 s0 s1)
  | _ => (myCsToosmallN 2, 0)

/-- `my_uni_utf16`: one code unit, or a surrogate pair beyond the BMP. -/
def myUniUtf16 (wc room : Nat) : Int × List UInt8 :=
  if wc ≤ 0xFFFF then
    if room < 2 then (myCsToosmallN 2, [])
    else if myUtf16Surrogate wc then (myCsIluni, [])
    else (2, [UInt8.ofNat (wc >>> 8), UInt8.ofNat (wc &&& 0xFF)])
  else if wc ≤ 0x10FFFF then
    if room < 4 then (myCsToosmallN 4, [])
    else
      let wc := wc - 0x10000
      (4, [UInt8.ofNat (wc >>> 18) ||| 0xD8, UInt8.ofNat (wc >>> 10) &&& 0xFF,
        UInt8.ofNat ((wc >>> 8) &&& 3) ||| 0xDC, UInt8.ofNat wc &&& 0xFF])
  else (myCsIluni, [])

end MariaDB.Ctype
