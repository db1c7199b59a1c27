import Mathlib.Data.List.Basic
import Mathlib.Tactic.Ring
import MariaDB.Radix.TwosComplement

set_option autoImplicit false

/- The base64 codec of mysys/base64.c. The encoder writes four characters
for every three bytes, '=' for the bytes past the end and a newline before
every group that would pass 76 characters on a line. The decoder reads groups
of four characters through a small state machine, skipping spaces anywhere,
taking '=' only as the third or fourth character of a group and nothing but
'=' after it. The lengths the callers allocate are computed in `int`. -/
namespace MariaDB.Base64

open TwosComplement (cInt cInt_of_lt)

/-! ## Lengths

The lengths are `int`s: a sum that overflows is read as the comment of
`my_base64_encode_max_arg_length` reads it, through `cInt`. -/

/-- `my_base64_encode_max_arg_length`. -/
def myBase64EncodeMaxArgLength : Int := 0x5EC0D4C6

/-- `my_base64_needed_encoded_length`, in `int` arithmetic. -/
def myBase64NeededEncodedLength (lengthOfData : Int) : Int :=
  let nbBase64Chars := cInt ((cInt (lengthOfData + 2)).tdiv 3 * 4)
  cInt (cInt (nbBase64Chars + (cInt (nbBase64Chars - 1)).tdiv 76) + 1)

example : myBase64NeededEncodedLength 1589695686 = 2147483646 := by decide

example : myBase64NeededEncodedLength 1589695687 = -2147483645 := by decide

/-- Up to `my_base64_encode_max_arg_length` no `int` step overflows: four
characters a group of three bytes, a newline a line of 76 and the NUL. -/
theorem myBase64NeededEncodedLength_eq {n : Nat} (hn : (n : Int) ≤ myBase64EncodeMaxArgLength) :
    myBase64NeededEncodedLength n = ((4 * ((n + 2) / 3) + (4 * ((n + 2) / 3) - 4) / 76 + 1 : Nat) : Int) := by
  unfold myBase64EncodeMaxArgLength at hn
  rcases Nat.eq_zero_or_pos n with rfl | hpos
  · decide
  obtain ⟨g, hg⟩ : ∃ g, g = (n + 2) / 3 := ⟨_, rfl⟩
  have hq : ((n : Int) + 2).tdiv 3 = g := by
    rw [Int.tdiv_eq_ediv_of_nonneg (by omega)]
    omega
  have e1 : cInt ((n : Int) + 2) = n + 2 := cInt_of_lt (by omega) (by omega)
  have e2 : cInt ((g : Int) * 4) = g * 4 := cInt_of_lt (by omega) (by omega)
  have e3 : cInt ((g : Int) * 4 - 1) = g * 4 - 1 := cInt_of_lt (by omega) (by omega)
  have hr : ((g : Int) * 4 - 1).tdiv 76 = (g * 4 - 1) / 76 := Int.tdiv_eq_ediv_of_nonneg (by omega)
  have e4 : cInt ((g : Int) * 4 + (g * 4 - 1) / 76) = g * 4 + (g * 4 - 1) / 76 :=
    cInt_of_lt (by omega) (by omega)
  have e5 : cInt ((g : Int) * 4 + (g * 4 - 1) / 76 + 1) = g * 4 + (g * 4 - 1) / 76 + 1 :=
    cInt_of_lt (by omega) (by omega)
  simp only [myBase64NeededEncodedLength, e1, hq, e2, e3, hr, e4, e5]
  rw [← hg]
  omega

/-- `my_base64_decode_max_arg_length`. -/
def myBase64DecodeMaxArgLength : Int := 0x7FFFFFFF

/-- `my_base64_needed_decoded_length`: the sum is taken in `longlong` and
cast back to `int` before the division. -/
def myBase64NeededDecodedLength (lengthOfEncodedData : Int) : Int :=
  (cInt (lengthOfEncodedData + 3)).tdiv 4 * 3

/-! ## Encoding -/

/-- `base64_table`. -/
def base64Table : List UInt8 :=
  "ABCDEFGHIJKLMNOPQRSTUVWXYZabcdefghijklmnopqrstuvwxyz0123456789+/".toList.map
    (fun ch => ch.toNat.toUInt8)

/-- `base64_table[(c >> k) & 0x3f]`. -/
def base64Char (c k : Nat) : UInt8 := base64Table.getD ((c >>> k) &&& 0x3f) 0

/-- The loop of `my_base64_encode` from byte `s0` on, `len` characters
written since the last newline: one group of four characters a pass. Past
the end of the source a byte adds nothing to `c` and its character is '='. -/
def myBase64EncodeLoop (len : Nat) : List UInt8 → List UInt8
  | [] => []
  | s0 :: rest =>
    let newline : List UInt8 := if len = 76 then [0x0a] else []
    let len := if len = 76 then 0 else len
    let c := ((s0.toNat <<< 8) + (rest.getD 0 0).toNat) <<< 8 + (rest.getD 1 0).toNat
    newline ++ [base64Char c 18, base64Char c 12,
        if rest.length < 1 then 0x3d else base64Char c 6,
        if rest.length < 2 then 0x3d else base64Char c 0] ++
      myBase64EncodeLoop (len + 4) (rest.drop 2)
termination_by s => s.length

/-- `my_base64_encode`: the characters and the terminating NUL it writes. -/
def myBase64Encode (src : List UInt8) : List UInt8 := myBase64EncodeLoop 0 src ++ [0]

/-! ## Decoding -/

/-- `from_base64_table`: -2 for a space, -1 for a byte outside base64. -/
def fromBase64Table : List Int :=
[
  -1, -1, -1, -1, -1, -1, -1, -1, -1, -2, -2, -2, -2, -2, -1, -1,
  -1, -1, -1, -1, -1, -1, -1, -1, -1, -1, -1, -1, -1, -1, -1, -1,
  -2, -1, -1, -1, -1, -1, -1, -1, -1, -1, -1, 62, -1, -1, -1, 63,
  52, 53, 54, 55, 56, 57, 58, 59, 60, 61, -1, -1, -1, -1, -1, -1,
  -1, 0, 1, 2, 3, 4, 5, 6, 7, 8, 9, 10, 11, 12, 13, 14,
  15, 16, 17, 18, 19, 20, 21, 22, 23, 24, 25, -1, -1, -1, -1, -1,
  -1, 26, 27, 28, 29, 30, 31, 32, 33, 34, 35, 36, 37, 38, 39, 40,
  41, 42, 43, 44, 45, 46, 47, 48, 49, 50, 51, -1, -1, -1, -1, -1,
  -1, -1, -1, -1, -1, -1, -1, -1, -1, -1, -1, -1, -1, -1, -1, -1,
  -1, -1, -1, -1, -1, -1, -1, -1, -1, -1, -1, -1, -1, -1, -1, -1,
  -2, -1, -1, -1, -1, -1, -1, -1, -1, -1, -1, -1, -1, -1, -1, -1,
  -1, -1, -1, -1, -1, -1, -1, -1, -1, -1, -1, -1, -1, -1, -1, -1,
  -1, -1, -1, -1, -1, -1, -1, -1, -1, -1, -1, -1, -1, -1, -1, -1,
  -1, -1, -1, -1, -1, -1, -1, -1, -1, -1, -1, -1, -1, -1, -1, -1,
  -1, -1, -1, -1, -1, -1, -1, -1, -1, -1, -1, -1, -1, -1, -1, -1,
  -1, -1, -1, -1, -1, -1, -1, -1, -1, -1, -1, -1, -1, -1, -1, -1]

/-- The entry of `from_base64_table` for byte `ch`. -/
def fromBase64 (ch : UInt8) : Int := fromBase64Table.getD ch.toNat (-1)

/-- A byte that `from_base64_table` marks as a space. -/
def isSpace (ch : UInt8) : Bool := fromBase64 ch == -2

/-- `MY_BASE64_DECODER`, with `src` the input from the current position to
`end`. `c` collects at most 24 bits, so `uint` arithmetic never wraps. -/
structure Base64Decoder where
  src : List UInt8
  c : Nat
  error : Bool
  state : Nat
  mark : Nat

/-- `my_base64_decoder_skip_spaces`: `true` at the end of the input, where a
group begun is an error. -/
def myBase64DecoderSkipSpaces (decoder : Base64Decoder) : Base64Decoder × Bool :=
  let src := decoder.src.dropWhile isSpace
  match src with
  | [] => ({ decoder with src := [], error := if 0 < decoder.state then true else decoder.error }, true)
  | _ => ({ decoder with src := src }, false)

/-- `my_base64_add`: shift in the six bits of the next character, `true` with
`error` set for a character outside base64. -/
def myBase64Add (decoder : Base64Decoder) : Base64Decoder × Bool :=
  match decoder.src with
  | [] => (decoder, true)
  | ch :: rest =>
    let c := decoder.c <<< 6
    let res := fromBase64 ch
    if res < 0 then ({ decoder with src := rest, c := c, error := true }, true)
    else ({ decoder with src := rest, c := c + res.toNat }, false)

/-- `my_base64_decoder_getch`. Where the source steps `src` back, the
decoder's `src` is the input from the character just read. -/
def myBase64DecoderGetch (decoder : Base64Decoder) : Base64Decoder × Bool :=
  match myBase64DecoderSkipSpaces decoder with
  | (decoder, true) => (decoder, true)
  | (decoder, false) =>
    let before := decoder.src
    match myBase64Add decoder with
    | (decoder, false) =>
      -- after '=' only '=' is valid
      if decoder.mark ≠ 0 then ({ decoder with error := true, src := before }, true)
      else ({ decoder with state := decoder.state + 1 }, false)
    | (decoder, true) =>
      match decoder.state with
      | 0 | 1 => ({ decoder with src := before }, true)
      | 2 | 3 =>
        if before.head? = some 0x3d then
          ({ decoder with error := false, mark := decoder.mark + 1, state := decoder.state + 1 }, false)
        else ({ decoder with src := before }, true)
      | _ => (decoder, true)

/-- `n` calls of `my_base64_decoder_getch` joined by `||`: the first that
returns `true` ends the chain. -/
def myBase64DecoderGetchN : Nat → Base64Decoder → Base64Decoder × Bool
  | 0, decoder => (decoder, false)
  | n + 1, decoder =>
    match myBase64DecoderGetch decoder with
    | (decoder, true) => (decoder, true)
    | (decoder, false) => myBase64DecoderGetchN n decoder

theorem myBase64DecoderGetchN_succ (n : Nat) (decoder : Base64Decoder) :
    myBase64DecoderGetchN (n + 1) decoder =
      match myBase64DecoderGetch decoder with
      | (decoder, true) => (decoder, true)
      | (decoder, false) => myBase64DecoderGetchN n decoder := rfl

/-- `MY_BASE64_DECODE_ALLOW_MULTIPLE_CHUNKS`. -/
def myBase64DecodeAllowMultipleChunks : Nat := 1

/-- The three bytes `my_base64_decode` stores from `c`. -/
def groupBytesOf (c : Nat) : List UInt8 :=
  [UInt8.ofNat ((c >>> 16) &&& 0xff), UInt8.ofNat ((c >>> 8) &&& 0xff), UInt8.ofNat (c &&& 0xff)]

/-- The `for (;;)` loop of `my_base64_decode`, for at most `fuel` groups:
`out` holds the bytes from `dst` to `d`, and `written` how many bytes from
`dst` have been written. -/
def myBase64DecodeLoop (flags : Nat) :
    Nat → Base64Decoder → List UInt8 → Nat → Base64Decoder × List UInt8 × Nat
  | 0, decoder, out, written => (decoder, out, written)
  | fuel + 1, decoder, out, written =>
    match myBase64DecoderGetchN 4 { decoder with c := 0, state := 0 } with
    | (decoder, true) => (decoder, out, written)
    | (decoder, false) =>
      let out := out ++ groupBytesOf decoder.c
      let written := max written out.length
      if decoder.mark ≠ 0 then
        let out := out.take (out.length - decoder.mark)
        if flags &&& myBase64DecodeAllowMultipleChunks = 0 then (decoder, out, written)
        else myBase64DecodeLoop flags fuel { decoder with mark := 0 } out written
      else myBase64DecodeLoop flags fuel decoder out written

theorem myBase64DecodeLoop_succ (flags fuel : Nat) (decoder : Base64Decoder) (out : List UInt8) (written : Nat) :
    myBase64DecodeLoop flags (fuel + 1) decoder out written =
      match myBase64DecoderGetchN 4 { decoder with c := 0, state := 0 } with
      | (decoder, true) => (decoder, out, written)
      | (decoder, false) =>
        if decoder.mark ≠ 0 then
          if flags &&& myBase64DecodeAllowMultipleChunks = 0 then
            (decoder, (out ++ groupBytesOf decoder.c).take ((out ++ groupBytesOf decoder.c).length - decoder.mark),
              max written (out ++ groupBytesOf decoder.c).length)
          else myBase64DecodeLoop flags fuel { decoder with mark := 0 }
            ((out ++ groupBytesOf decoder.c).take ((out ++ groupBytesOf decoder.c).length - decoder.mark))
            (max written (out ++ groupBytesOf decoder.c).length)
        else myBase64DecodeLoop flags fuel decoder (out ++ groupBytesOf decoder.c)
          (max written (out ++ groupBytesOf decoder.c).length) := rfl

/-- What `my_base64_decode` returns, the offset `*end_ptr` is set to, the
bytes from `dst` to `d`, and how many bytes from `dst` it writes. -/
structure DecodeResult where
  result : Int
  endOffset : Nat
  bytes : List UInt8
  written : Nat

/-- `my_base64_decode`. A loop pass reads at least four characters, so
`length + 1` passes reach its end. -/
def myBase64Decode (src : List UInt8) (flags : Nat) : DecodeResult :=
  let (decoder, out, written) := myBase64DecodeLoop flags (src.length + 1) ⟨src, 0, false, 0, 0⟩ [] 0
  -- any non-space character left is an error
  let (decoder, atEnd) := myBase64DecoderSkipSpaces { decoder with state := 0 }
  let error := if atEnd then decoder.error else true
  ⟨if error then -1 else cInt out.length, src.length - decoder.src.length, out, written⟩

/-! ## Base64 text -/

/-- The input without its spaces, which the decoder skips wherever they stand. -/
def strip (s : List UInt8) : List UInt8 := s.filter (fun ch => !isSpace ch)

/-- A base64 character. -/
def IsData (ch : UInt8) : Prop := 0 ≤ fromBase64 ch

instance (ch : UInt8) : Decidable (IsData ch) := inferInstanceAs (Decidable (0 ≤ fromBase64 ch))

/-- The six bits a character adds to `c`: none for '='. -/
def sextet (ch : UInt8) : Nat := (fromBase64 ch).toNat

/-- The number the four characters of a group spell. -/
def groupValue (a b c d : UInt8) : Nat :=
  ((sextet a * 64 + sextet b) * 64 + sextet c) * 64 + sextet d

/-- Base64 text without its spaces: groups of four characters, '=' only as
the last one or two characters of a group, and a group with '=' only last
unless `multi` (`MY_BASE64_DECODE_ALLOW_MULTIPLE_CHUNKS`) is set. -/
inductive Base64Text (multi : Bool) : List UInt8 → Prop
  | nil : Base64Text multi []
  | full {a b c d : UInt8} {rest : List UInt8} : IsData a → IsData b → IsData c → IsData d →
      Base64Text multi rest → Base64Text multi (a :: b :: c :: d :: rest)
  | pad1 {a b c : UInt8} {rest : List UInt8} : IsData a → IsData b → IsData c →
      (multi = true ∨ rest = []) → Base64Text multi rest → Base64Text multi (a :: b :: c :: 0x3d :: rest)
  | pad2 {a b : UInt8} {rest : List UInt8} : IsData a → IsData b → (multi = true ∨ rest = []) →
      Base64Text multi rest → Base64Text multi (a :: b :: 0x3d :: 0x3d :: rest)

/-- The number of '=' closing a group of four characters, if the group is
well formed. -/
def groupMarks (a b c d : UInt8) : Option Nat :=
  if IsData a ∧ IsData b then
    if IsData c then
      if IsData d then some 0 else if d = 0x3d then some 1 else none
    else if c = 0x3d ∧ d = 0x3d then some 2 else none
  else none

/-- The bytes base64 text stands for, `none` if it is not base64 text. -/
def decodeText (multi : Bool) : List UInt8 → Option (List UInt8)
  | [] => some []
  | a :: b :: c :: d :: rest =>
    match groupMarks a b c d with
    | none => none
    | some m =>
      let bytes := (groupBytesOf (groupValue a b c d)).take (3 - m)
      if m = 0 ∨ multi = true then (decodeText multi rest).map (bytes ++ ·)
      else if rest = [] then some bytes else none
  | _ => none

@[simp] theorem decodeText_nil (multi : Bool) : decodeText multi [] = some [] := rfl

theorem decodeText_four (multi : Bool) (a b c d : UInt8) (rest : List UInt8) :
    decodeText multi (a :: b :: c :: d :: rest) =
      match groupMarks a b c d with
      | none => none
      | some m =>
        if m = 0 ∨ multi = true then
          (decodeText multi rest).map ((groupBytesOf (groupValue a b c d)).take (3 - m) ++ ·)
        else if rest = [] then some ((groupBytesOf (groupValue a b c d)).take (3 - m)) else none := rfl

/-- Base64 text without line breaks: four characters for every three bytes,
'=' for each byte the last group lacks. -/
def encodeGroups : List UInt8 → List UInt8
  | [] => []
  | [a] =>
    let v := a.toNat * 65536
    [base64Char v 18, base64Char v 12, 0x3d, 0x3d]
  | [a, b] =>
    let v := a.toNat * 65536 + b.toNat * 256
    [base64Char v 18, base64Char v 12, base64Char v 6, 0x3d]
  | a :: b :: c :: rest =>
    let v := a.toNat * 65536 + b.toNat * 256 + c.toNat
    [base64Char v 18, base64Char v 12, base64Char v 6, base64Char v 0] ++ encodeGroups rest

@[simp] theorem encodeGroups_nil : encodeGroups [] = [] := rfl

theorem encodeGroups_one (a : UInt8) :
    encodeGroups [a] = [base64Char (a.toNat * 65536) 18, base64Char (a.toNat * 65536) 12, 0x3d, 0x3d] := rfl

theorem encodeGroups_two (a b : UInt8) :
    encodeGroups [a, b] =
      [base64Char (a.toNat * 65536 + b.toNat * 256) 18, base64Char (a.toNat * 65536 + b.toNat * 256) 12,
        base64Char (a.toNat * 65536 + b.toNat * 256) 6, 0x3d] := rfl

theorem encodeGroups_three (a b c : UInt8) (rest : List UInt8) :
    encodeGroups (a :: b :: c :: rest) =
      [base64Char (a.toNat * 65536 + b.toNat * 256 + c.toNat) 18,
        base64Char (a.toNat * 65536 + b.toNat * 256 + c.toNat) 12,
        base64Char (a.toNat * 65536 + b.toNat * 256 + c.toNat) 6,
        base64Char (a.toNat * 65536 + b.toNat * 256 + c.toNat) 0] ++ encodeGroups rest := rfl

theorem fromBase64_pad : fromBase64 0x3d = -1 := rfl

theorem not_isData_pad : ¬IsData 0x3d := by
  rw [IsData, fromBase64_pad]
  omega

theorem sextet_pad : sextet 0x3d = 0 := rfl

theorem IsData.ne_pad {ch : UInt8} (h : IsData ch) : ch ≠ 0x3d := by
  rintro rfl
  exact not_isData_pad h

theorem groupMarks_eq_some_iff {a b c d : UInt8} {m : Nat} :
    groupMarks a b c d = some m ↔
      (m = 0 ∧ IsData a ∧ IsData b ∧ IsData c ∧ IsData d) ∨
        (m = 1 ∧ IsData a ∧ IsData b ∧ IsData c ∧ d = 0x3d) ∨
          (m = 2 ∧ IsData a ∧ IsData b ∧ c = 0x3d ∧ d = 0x3d) := by
  unfold groupMarks
  split_ifs with hab hc hd hpad hpads
  · simp [hab, hc, hd, hc.ne_pad, hd.ne_pad, eq_comm]
  · simp [hab, hc, hpad, hc.ne_pad, not_isData_pad, eq_comm]
  · simp [hab, hd, hpad]
  · simp [hab, hpads, not_isData_pad, eq_comm]
  · simp only [hab, hc, true_and, false_and, and_false, false_or, false_iff]
    rintro ⟨-, hpad, hpad'⟩
    exact hpads ⟨hpad, hpad'⟩
  · simp only [false_iff]
    rintro (⟨-, ha, hb, -⟩ | ⟨-, ha, hb, -⟩ | ⟨-, ha, hb, -⟩) <;> exact hab ⟨ha, hb⟩

theorem base64Text_cons_iff {multi : Bool} {a b c d : UInt8} {rest : List UInt8} :
    Base64Text multi (a :: b :: c :: d :: rest) ↔
      ∃ m, groupMarks a b c d = some m ∧ (m = 0 ∨ multi = true ∨ rest = []) ∧
        Base64Text multi rest := by
  constructor
  · intro h
    cases h with
    | full ha hb hc hd hrest =>
      exact ⟨0, groupMarks_eq_some_iff.mpr (.inl ⟨rfl, ha, hb, hc, hd⟩), .inl rfl, hrest⟩
    | pad1 ha hb hc hlast hrest =>
      exact ⟨1, groupMarks_eq_some_iff.mpr (.inr (.inl ⟨rfl, ha, hb, hc, rfl⟩)), .inr hlast, hrest⟩
    | pad2 ha hb hlast hrest =>
      exact ⟨2, groupMarks_eq_some_iff.mpr (.inr (.inr ⟨rfl, ha, hb, rfl, rfl⟩)), .inr hlast, hrest⟩
  · rintro ⟨m, hm, hlast, hrest⟩
    rcases groupMarks_eq_some_iff.mp hm with ⟨rfl, ha, hb, hc, hd⟩ | ⟨rfl, ha, hb, hc, rfl⟩ |
        ⟨rfl, ha, hb, rfl, rfl⟩
    · exact .full ha hb hc hd hrest
    · exact .pad1 ha hb hc (hlast.resolve_left (by decide)) hrest
    · exact .pad2 ha hb (hlast.resolve_left (by decide)) hrest

/-- The text `decodeText` reads is exactly base64 text. -/
theorem decodeText_isSome_iff (multi : Bool) (t : List UInt8) :
    (decodeText multi t).isSome ↔ Base64Text multi t := by
  fun_induction decodeText multi t with
  | case1 => exact ⟨fun _ => .nil, fun _ => rfl⟩
  | case2 a b c d rest hm =>
    simp only [Option.isSome_none, Bool.false_eq_true, base64Text_cons_iff, hm, reduceCtorEq,
      false_and, exists_false]
  | case3 a b c d rest m hm bytes hcont ih =>
    rw [Option.isSome_map, ih, base64Text_cons_iff]
    constructor
    · intro hrest
      exact ⟨m, hm, hcont.elim .inl (fun h => .inr (.inl h)), hrest⟩
    · rintro ⟨m', hm', -, hrest⟩
      exact hrest
  | case4 a b c d m hm bytes hcont =>
    simp only [Option.isSome_some, true_iff]
    exact base64Text_cons_iff.mpr ⟨m, hm, .inr (.inr rfl), .nil⟩
  | case5 a b c d rest m hm hcont hnil =>
    simp only [Option.isSome_none, Bool.false_eq_true, false_iff, base64Text_cons_iff, hm,
      Option.some.injEq, not_exists, not_and]
    rintro m' rfl hlast -
    rcases hlast with hzero | hmulti | hrest
    · exact hcont (.inl hzero)
    · exact hcont (.inr hmulti)
    · exact hnil hrest
  | case6 t hnil hgroup =>
    simp only [Option.isSome_none, Bool.false_eq_true, false_iff]
    intro h
    cases h with
    | nil => exact hnil rfl
    | full => exact hgroup _ _ _ _ _ rfl
    | pad1 => exact hgroup _ _ _ _ _ rfl
    | pad2 => exact hgroup _ _ _ _ _ rfl

/-- What `n` calls of `my_base64_decoder_getch` take from text without
spaces, from state `state` with `c` and `mark` collected so far: the value
and marks collected and the text left, `none` where a call fails. -/
def scanGroup : Nat → Nat → Nat → Nat → List UInt8 → Option (Nat × Nat × List UInt8)
  | 0, _, c, mark, t => some (c, mark, t)
  | _ + 1, _, _, _, [] => none
  | n + 1, state, c, mark, ch :: t =>
    if IsData ch ∧ mark = 0 then scanGroup n (state + 1) (c * 64 + sextet ch) mark t
    else if ch = 0x3d ∧ (state = 2 ∨ state = 3) then scanGroup n (state + 1) (c * 64) (mark + 1) t
    else none

@[simp] theorem scanGroup_zero (state c mark : Nat) (t : List UInt8) :
    scanGroup 0 state c mark t = some (c, mark, t) := rfl

@[simp] theorem scanGroup_succ_nil (n state c mark : Nat) : scanGroup (n + 1) state c mark [] = none := rfl

theorem scanGroup_succ_cons (n state c mark : Nat) (ch : UInt8) (t : List UInt8) :
    scanGroup (n + 1) state c mark (ch :: t) =
      if IsData ch ∧ mark = 0 then scanGroup n (state + 1) (c * 64 + sextet ch) mark t
      else if ch = 0x3d ∧ (state = 2 ∨ state = 3) then scanGroup n (state + 1) (c * 64) (mark + 1) t
      else none := rfl

/-! ## Spaces -/

section Spaces

variable {ch : UInt8} {l t : List UInt8}

@[simp] theorem strip_nil : strip [] = [] := rfl

theorem strip_cons_of_isSpace (h : isSpace ch = true) : strip (ch :: l) = strip l := by
  simp [strip, h]

theorem strip_cons_of_not_isSpace (h : isSpace ch = false) : strip (ch :: l) = ch :: strip l := by
  simp [strip, h]

theorem IsData.not_isSpace (h : IsData ch) : isSpace ch = false := by
  unfold IsData at h
  simp only [isSpace, beq_eq_false_iff_ne]
  omega

theorem dropWhile_isSpace_eq_nil (h : strip l = []) : l.dropWhile isSpace = [] := by
  induction l with
  | nil => rfl
  | cons x l ih =>
    cases hx : isSpace x
    · rw [strip_cons_of_not_isSpace hx] at h
      exact absurd h (List.cons_ne_nil _ _)
    · rw [strip_cons_of_isSpace hx] at h
      rw [List.dropWhile_cons_of_pos hx]
      exact ih h

theorem dropWhile_isSpace_eq_cons (h : strip l = ch :: t) :
    ∃ rest, l.dropWhile isSpace = ch :: rest ∧ strip rest = t := by
  induction l with
  | nil => exact absurd h (List.cons_ne_nil _ _).symm
  | cons x l ih =>
    cases hx : isSpace x
    · rw [strip_cons_of_not_isSpace hx, List.cons.injEq] at h
      obtain ⟨rfl, rfl⟩ := h
      exact ⟨l, List.dropWhile_cons_of_neg (by simp [hx]), rfl⟩
    · rw [strip_cons_of_isSpace hx] at h
      rw [List.dropWhile_cons_of_pos hx]
      exact ih h

end Spaces

/-! ## The decoder, one character at a time -/

section Getch

variable {d : Base64Decoder} {ch : UInt8} {t : List UInt8}

theorem shiftLeft_six (x : Nat) : x <<< 6 = x * 64 := Nat.shiftLeft_eq x 6

theorem skipSpaces_of_strip_eq_nil (h : strip d.src = []) :
    myBase64DecoderSkipSpaces d =
      ({ d with src := [], error := if 0 < d.state then true else d.error }, true) := by
  simp only [myBase64DecoderSkipSpaces, dropWhile_isSpace_eq_nil h]

theorem skipSpaces_of_strip_eq_cons (h : strip d.src = ch :: t) :
    ∃ rest, strip rest = t ∧ myBase64DecoderSkipSpaces d = ({ d with src := ch :: rest }, false) := by
  obtain ⟨rest, hdrop, hrest⟩ := dropWhile_isSpace_eq_cons h
  refine ⟨rest, hrest, ?_⟩
  simp only [myBase64DecoderSkipSpaces, hdrop]

theorem getch_of_strip_eq_nil (h : strip d.src = []) :
    myBase64DecoderGetch d =
      ({ d with src := [], error := if 0 < d.state then true else d.error }, true) := by
  simp only [myBase64DecoderGetch, skipSpaces_of_strip_eq_nil h]

/-- A base64 character before any '=' is taken. -/
theorem getch_data (h : strip d.src = ch :: t) (hch : IsData ch) (hm : d.mark = 0) :
    ∃ rest, strip rest = t ∧ myBase64DecoderGetch d =
      ({ d with src := rest, c := d.c * 64 + sextet ch, state := d.state + 1 }, false) := by
  obtain ⟨rest, hrest, hskip⟩ := skipSpaces_of_strip_eq_cons h
  refine ⟨rest, hrest, ?_⟩
  have hres : ¬fromBase64 ch < 0 := not_lt.mpr hch
  simp only [myBase64DecoderGetch, hskip, myBase64Add, hres, if_false, hm, ne_eq, not_true,
    shiftLeft_six, sextet]

/-- '=' is taken as the third or fourth character of a group. -/
theorem getch_pad (h : strip d.src = 0x3d :: t) (hs : d.state = 2 ∨ d.state = 3) :
    ∃ rest, strip rest = t ∧ myBase64DecoderGetch d =
      ({ d with src := rest, c := d.c * 64, error := false, mark := d.mark + 1
                state := d.state + 1 }, false) := by
  obtain ⟨rest, hrest, hskip⟩ := skipSpaces_of_strip_eq_cons h
  refine ⟨rest, hrest, ?_⟩
  have hres : fromBase64 0x3d < 0 := by decide
  rcases hs with hs | hs <;>
    simp [myBase64DecoderGetch, hskip, myBase64Add, hres, hs, shiftLeft_six]

/-- Any other character fails the call with `error` set. -/
theorem getch_error (h : strip d.src = ch :: t) (hdata : IsData ch → d.mark ≠ 0)
    (hpad : ch = 0x3d → d.state ≠ 2 ∧ d.state ≠ 3) :
    (myBase64DecoderGetch d).2 = true ∧ (myBase64DecoderGetch d).1.error = true := by
  obtain ⟨rest, -, hskip⟩ := skipSpaces_of_strip_eq_cons h
  by_cases hch : IsData ch
  · have hres : ¬fromBase64 ch < 0 := not_lt.mpr hch
    simp [myBase64DecoderGetch, hskip, myBase64Add, hres, hdata hch]
  · have hres : fromBase64 ch < 0 := lt_of_not_ge hch
    simp only [myBase64DecoderGetch, hskip, myBase64Add, hres, if_true]
    split
    · exact ⟨rfl, rfl⟩
    · exact ⟨rfl, rfl⟩
    · split_ifs with hhead
      · simp only [List.head?_cons, Option.some.injEq] at hhead
        exact absurd (by assumption) (hpad hhead).1
      · exact ⟨rfl, rfl⟩
    · split_ifs with hhead
      · simp only [List.head?_cons, Option.some.injEq] at hhead
        exact absurd (by assumption) (hpad hhead).2
      · exact ⟨rfl, rfl⟩
    · exact ⟨rfl, rfl⟩

/-- One call of `my_base64_decoder_getch` against one step of `scanGroup`:
it takes the character `scanGroup` takes, or it fails where `scanGroup`
does, with `error` set unless it met the end in state 0. -/
theorem getch_step (n : Nat) (he : d.error = false) :
    (∃ d', myBase64DecoderGetch d = (d', false) ∧ d'.error = false ∧ d'.state = d.state + 1 ∧
        scanGroup (n + 1) d.state d.c d.mark (strip d.src) =
          scanGroup n d'.state d'.c d'.mark (strip d'.src)) ∨
      ((myBase64DecoderGetch d).2 = true ∧ scanGroup (n + 1) d.state d.c d.mark (strip d.src) = none ∧
        (strip d.src ≠ [] ∨ 0 < d.state → (myBase64DecoderGetch d).1.error = true)) := by
  cases hs : strip d.src with
  | nil =>
    right
    rw [getch_of_strip_eq_nil hs]
    refine ⟨rfl, rfl, ?_⟩
    rintro (h | h)
    · exact absurd rfl h
    · simp [h]
  | cons ch t =>
    by_cases hdata : IsData ch ∧ d.mark = 0
    · obtain ⟨rest, hrest, hget⟩ := getch_data hs hdata.1 hdata.2
      left
      refine ⟨_, hget, he, rfl, ?_⟩
      simp only [scanGroup_succ_cons, if_pos hdata, hrest]
    · by_cases hpad : ch = 0x3d ∧ (d.state = 2 ∨ d.state = 3)
      · obtain ⟨rfl, hstate⟩ := hpad
        obtain ⟨rest, hrest, hget⟩ := getch_pad hs hstate
        left
        refine ⟨_, hget, rfl, rfl, ?_⟩
        simp only [scanGroup_succ_cons, if_neg hdata, hstate, and_self, if_true, hrest]
      · right
        have herr := getch_error hs (fun h hm => hdata ⟨h, hm⟩)
          (fun h => ⟨fun h2 => hpad ⟨h, .inl h2⟩, fun h3 => hpad ⟨h, .inr h3⟩⟩)
        refine ⟨herr.1, ?_, fun _ => herr.2⟩
        simp only [scanGroup_succ_cons, if_neg hdata, if_neg hpad]

/-- `n` calls of `my_base64_decoder_getch` joined by `||` take what
`scanGroup` takes; where it fails they return `true`, with `error` set
unless the first call met the end in state 0. -/
theorem getchN_spec (n : Nat) (d : Base64Decoder) (he : d.error = false) :
    match scanGroup n d.state d.c d.mark (strip d.src) with
    | some (c, mark, t) => ∃ d', myBase64DecoderGetchN n d = (d', false) ∧ strip d'.src = t ∧
        d'.c = c ∧ d'.error = false ∧ d'.mark = mark
    | none => (myBase64DecoderGetchN n d).2 = true ∧
        (strip d.src ≠ [] ∨ 0 < d.state → (myBase64DecoderGetchN n d).1.error = true) := by
  induction n generalizing d with
  | zero => exact ⟨d, rfl, rfl, rfl, he, rfl⟩
  | succ n ih =>
    rcases getch_step n he with ⟨d', hget, he', hstate, hscan⟩ | ⟨hget, hscan, herr⟩
    · -- the call took a character: the rest of the chain runs from `d'`
      have ih := ih d' he'
      have hrun : myBase64DecoderGetchN (n + 1) d = myBase64DecoderGetchN n d' := by
        simp only [myBase64DecoderGetchN_succ, hget]
      rw [hscan, hrun]
      cases hsc : scanGroup n d'.state d'.c d'.mark (strip d'.src) with
      | none =>
        rw [hsc] at ih
        exact ⟨ih.1, fun _ => ih.2 (.inr (by omega))⟩
      | some r =>
        obtain ⟨c, m, t⟩ := r
        rw [hsc] at ih
        exact ih
    · rcases hg : myBase64DecoderGetch d with ⟨d', b⟩
      rw [hg] at hget herr
      subst hget
      have hrun : myBase64DecoderGetchN (n + 1) d = (d', true) := by
        simp only [myBase64DecoderGetchN_succ, hg]
      rw [hscan, hrun]
      exact ⟨rfl, herr⟩

end Getch

/-- Four calls from a fresh group take four characters exactly when they
form a group `groupMarks` accepts, collecting the value they spell. -/
theorem scanGroup_four (a b c e : UInt8) (t : List UInt8) :
    scanGroup 4 0 0 0 (a :: b :: c :: e :: t) =
      (groupMarks a b c e).map (fun m => (groupValue a b c e, m, t)) := by
  simp only [scanGroup_succ_cons, groupMarks, groupValue]
  by_cases ha : IsData a <;> by_cases hb : IsData b <;> simp [ha, hb]
  by_cases hc : IsData c
  · by_cases hd : IsData e
    · simp [hc, hd]
    · by_cases hpad : e = 0x3d <;> simp [hc, hd, hpad, sextet_pad, not_isData_pad]
  · by_cases hpad : c = 0x3d
    · subst hpad
      by_cases hd : IsData e
      · simp [hd.ne_pad, not_isData_pad]
      · by_cases hpad' : e = 0x3d <;> simp [hpad', not_isData_pad, sextet_pad]
    · simp [hc, hpad]

theorem scanGroup_four_of_length_lt {t : List UInt8} (ht : t.length < 4) :
    scanGroup 4 0 0 0 t = none := by
  match t, ht with
  | [], _ => rfl
  | [a], _ => simp [scanGroup_succ_cons]
  | [a, b], _ => simp [scanGroup_succ_cons]
  | [a, b, c], _ => simp [scanGroup_succ_cons]

theorem scanGroup_four_eq_some {t t' : List UInt8} {v m : Nat}
    (h : scanGroup 4 0 0 0 t = some (v, m, t')) :
    ∃ a b c e, t = a :: b :: c :: e :: t' ∧ groupMarks a b c e = some m ∧ v = groupValue a b c e := by
  match t, h with
  | a :: b :: c :: e :: t, h =>
    rw [scanGroup_four] at h
    cases hg : groupMarks a b c e with
    | none =>
      rw [hg] at h
      cases h
    | some m' =>
      rw [hg, Option.map_some, Option.some.injEq, Prod.mk.injEq, Prod.mk.injEq] at h
      obtain ⟨rfl, rfl, rfl⟩ := h
      exact ⟨a, b, c, e, rfl, hg, rfl⟩
  | [], h | [_], h | [_, _], h | [_, _, _], h =>
    rw [scanGroup_four_of_length_lt (by simp)] at h
    cases h

theorem decodeText_eq_none_of_scanGroup {multi : Bool} {t : List UInt8} (hne : t ≠ [])
    (h : scanGroup 4 0 0 0 t = none) : decodeText multi t = none := by
  match t, hne, h with
  | a :: b :: c :: e :: t, _, h =>
    rw [scanGroup_four, Option.map_eq_none_iff] at h
    simp [decodeText_four, h]
  | [_], _, _ | [_, _], _, _ | [_, _, _], _, _ => rfl

theorem groupMarks_le {a b c e : UInt8} {m : Nat} (h : groupMarks a b c e = some m) : m ≤ 2 := by
  rcases groupMarks_eq_some_iff.mp h with ⟨rfl, -⟩ | ⟨rfl, -⟩ | ⟨rfl, -⟩ <;> omega

theorem length_groupBytesOf (v : Nat) : (groupBytesOf v).length = 3 := rfl

/-! ## The decoding loop -/

section Loop

variable {flags : Nat} {d d' : Base64Decoder} {out : List UInt8} {written : Nat}

theorem decodeLoop_of_getchN_true {fuel : Nat}
    (h : myBase64DecoderGetchN 4 { d with c := 0, state := 0 } = (d', true)) :
    myBase64DecodeLoop flags (fuel + 1) d out written = (d', out, written) := by
  simp only [myBase64DecodeLoop_succ, h]

/-- The bytes of a group with `mark` '=' signs, as the loop keeps them. -/
theorem take_append_groupBytesOf (out : List UInt8) (v : Nat) {m : Nat} (hm : m ≤ 3) :
    (out ++ groupBytesOf v).take ((out ++ groupBytesOf v).length - m) =
      out ++ (groupBytesOf v).take (3 - m) := by
  rw [List.length_append, length_groupBytesOf, List.take_append, List.take_of_length_le (by omega)]
  congr 2
  omega

/-- A group that lets the text go on, or ends it, decodes to its bytes ahead
of the rest. -/
theorem decodeText_group_cons {multi : Bool} {a b c e : UInt8} {m : Nat} (t : List UInt8)
    (hg : groupMarks a b c e = some m) (hcont : m = 0 ∨ multi = true ∨ t = []) :
    decodeText multi (a :: b :: c :: e :: t) =
      (decodeText multi t).map ((groupBytesOf (groupValue a b c e)).take (3 - m) ++ ·) := by
  rcases hcont with hcont | hcont | rfl
  · simp [decodeText_four, hg, hcont]
  · simp [decodeText_four, hg, hcont]
  · cases multi <;> simp [decodeText_four, hg]

/-- A group with '=' ends the text unless several chunks are allowed. -/
theorem decodeText_group_last {a b c e : UInt8} {m : Nat} (t : List UInt8)
    (hg : groupMarks a b c e = some m) (hm : m ≠ 0) :
    decodeText false (a :: b :: c :: e :: t) =
      if t = [] then some ((groupBytesOf (groupValue a b c e)).take (3 - m)) else none := by
  simp [decodeText_four, hg, hm]

/-- What the loop of `my_base64_decode` leaves when run from a group
boundary with `out` and `written` as it starts and `t` the text ahead
without its spaces: at most three bytes written a group, and either `t`
decoded onto `out` with nothing but spaces left, or a stop that the final
check turns into an error. -/
def LoopResult (multi : Bool) (t out : List UInt8) (written : Nat)
    (r : Base64Decoder × List UInt8 × Nat) : Prop :=
  r.2.1.length ≤ r.2.2 ∧ r.2.2 ≤ written + 3 * (t.length / 4) ∧
    match decodeText multi t with
    | some bytes => r.1.error = false ∧ strip r.1.src = [] ∧ r.2.1 = out ++ bytes
    | none => r.1.error = true ∨ strip r.1.src ≠ []

/-- A group read and the loop going on: what it leaves after the group is
what it leaves from before the group. -/
theorem LoopResult.group {multi : Bool} {a b c e : UInt8} {t out bytes : List UInt8}
    {written written' : Nat} {r : Base64Decoder × List UInt8 × Nat}
    (h : LoopResult multi t (out ++ bytes) written' r) (hw : written' ≤ written + 3)
    (htext : decodeText multi (a :: b :: c :: e :: t) = (decodeText multi t).map (bytes ++ ·)) :
    LoopResult multi (a :: b :: c :: e :: t) out written r := by
  obtain ⟨hlen, hwr, hres⟩ := h
  refine ⟨hlen, ?_, ?_⟩
  · simp only [List.length_cons]
    omega
  · rw [htext]
    cases ht : decodeText multi t with
    | none =>
      rw [ht] at hres
      exact hres
    | some rest =>
      rw [ht] at hres
      simpa using hres

/-- The loop of `my_base64_decode` from a group boundary, with fuel for
every group of the text ahead. -/
theorem decodeLoop_spec (fuel : Nat) (d : Base64Decoder) (out : List UInt8) (written : Nat)
    (he : d.error = false) (hm : d.mark = 0) (hfuel : (strip d.src).length < 4 * fuel)
    (hout : out.length ≤ written) :
    LoopResult (flags &&& myBase64DecodeAllowMultipleChunks != 0) (strip d.src) out written
      (myBase64DecodeLoop flags fuel d out written) := by
  induction fuel generalizing d out written with
  | zero => exact absurd hfuel (Nat.not_lt_zero _)
  | succ fuel ih =>
    obtain ⟨src, c, error, state, mark⟩ := d
    dsimp only at he hm hfuel ⊢
    subst he hm
    have hspec := getchN_spec 4 ⟨src, 0, false, 0, 0⟩ rfl
    dsimp only at hspec
    by_cases hnil : strip src = []
    · -- only spaces are left: the first call meets the end in state 0
      have hrun : myBase64DecoderGetchN 4 ⟨src, 0, false, 0, 0⟩ = (⟨[], 0, false, 0, 0⟩, true) := by
        simp only [myBase64DecoderGetchN_succ, getch_of_strip_eq_nil (d := ⟨src, 0, false, 0, 0⟩) hnil,
          Nat.lt_irrefl, if_false]
      rw [decodeLoop_of_getchN_true hrun]
      simp [LoopResult, hnil, hout]
    cases hsc : scanGroup 4 0 0 0 (strip src) with
    | none =>
      rw [hsc] at hspec
      obtain ⟨hstop, herr⟩ := hspec
      rcases hg : myBase64DecoderGetchN 4 ⟨src, 0, false, 0, 0⟩ with ⟨d', b⟩
      rw [hg] at hstop herr
      subst hstop
      rw [decodeLoop_of_getchN_true hg]
      refine ⟨hout, Nat.le_add_right _ _, ?_⟩
      rw [decodeText_eq_none_of_scanGroup hnil hsc]
      exact .inl (herr (.inl hnil))
    | some r =>
      obtain ⟨v, m, t⟩ := r
      rw [hsc] at hspec
      obtain ⟨d', hrun, hrest, hc, he', hmark⟩ := hspec
      obtain ⟨a, b, c, e, hs, hg, rfl⟩ := scanGroup_four_eq_some hsc
      have hw : max written (out ++ groupBytesOf d'.c).length ≤ written + 3 := by
        rw [List.length_append, length_groupBytesOf]
        omega
      have hfuel' : t.length < 4 * fuel := by
        rw [hs] at hfuel
        simp only [List.length_cons] at hfuel
        omega
      have hkeep := take_append_groupBytesOf out d'.c (m := m) (by have := groupMarks_le hg; omega)
      simp only [myBase64DecodeLoop_succ, hrun, hmark, hc] at hkeep hw ⊢
      rw [hs]
      have hlen : (a :: b :: c :: e :: t).length / 4 = t.length / 4 + 1 := by
        simp only [List.length_cons]
        omega
      split_ifs with hm0 hflag
      · -- a group with '=' ends the loop unless several chunks are allowed
        have hmulti : (flags &&& myBase64DecodeAllowMultipleChunks != 0) = false := by simp [hflag]
        rw [hmulti, hkeep]
        refine ⟨?_, ?_, ?_⟩
        · simp only [List.length_append, length_groupBytesOf, List.length_take] at hw ⊢
          omega
        · dsimp only
          rw [hlen]
          omega
        · rw [decodeText_group_last t hg hm0]
          by_cases ht : t = []
          · simp [ht, he', hrest]
          · simp only [ht, if_false]
            exact .inr (hrest ▸ ht)
      · have hmulti : (flags &&& myBase64DecodeAllowMultipleChunks != 0) = true := by simp [hflag]
        rw [hkeep]
        apply LoopResult.group _ hw (decodeText_group_cons t hg (.inr (.inl hmulti)))
        have hnext := ih ⟨d'.src, groupValue a b c e, d'.error, d'.state, 0⟩
          (out ++ (groupBytesOf (groupValue a b c e)).take (3 - m))
          (max written (out ++ groupBytesOf (groupValue a b c e)).length) he' rfl
          (by rw [hrest]; exact hfuel')
          (by simp only [List.length_append, length_groupBytesOf, List.length_take]; omega)
        rwa [hrest] at hnext
      · have hm0 : m = 0 := not_not.mp hm0
        subst hm0
        have htext : decodeText (flags &&& myBase64DecodeAllowMultipleChunks != 0)
            (a :: b :: c :: e :: t) = _ := decodeText_group_cons t hg (.inl rfl)
        rw [Nat.sub_zero, List.take_of_length_le (le_of_eq (length_groupBytesOf _))] at htext
        apply LoopResult.group _ hw htext
        have hnext := ih d' (out ++ groupBytesOf (groupValue a b c e))
          (max written (out ++ groupBytesOf (groupValue a b c e)).length) he' hmark
          (by rw [hrest]; exact hfuel') (le_max_right _ _)
        rwa [hrest] at hnext

end Loop

/-! ## The decoder -/

theorem length_strip_le (s : List UInt8) : (strip s).length ≤ s.length := List.length_filter_le _ _

/-- The check after the loop: with nothing but spaces left the decoder
keeps its `error` and its end is the end of the input; any other character
is an error. -/
theorem skipSpaces_final (d : Base64Decoder) :
    let r := myBase64DecoderSkipSpaces { d with state := 0 }
    (strip d.src = [] → r = ({ d with src := [], state := 0 }, true)) ∧
      (strip d.src ≠ [] → r.2 = false) := by
  refine ⟨fun h => ?_, fun h => ?_⟩
  · rw [skipSpaces_of_strip_eq_nil (d := { d with state := 0 }) h]
    simp
  · obtain ⟨ch, t, hs⟩ := List.exists_cons_of_ne_nil h
    obtain ⟨rest, -, hskip⟩ := skipSpaces_of_strip_eq_cons (d := { d with state := 0 }) hs
    rw [hskip]

/-- `my_base64_decode` writes at most three bytes a group of the input
without its spaces. Where that text is base64 text it returns the length of
the bytes it stands for, has written them and sets `*end_ptr` to the end of
the input; otherwise it returns -1. -/
theorem myBase64Decode_spec (s : List UInt8) (flags : Nat) :
    (myBase64Decode s flags).bytes.length ≤ (myBase64Decode s flags).written ∧
      (myBase64Decode s flags).written ≤ 3 * ((strip s).length / 4) ∧
      match decodeText (flags &&& myBase64DecodeAllowMultipleChunks != 0) (strip s) with
      | some bytes => (myBase64Decode s flags).result = cInt bytes.length ∧
          (myBase64Decode s flags).bytes = bytes ∧ (myBase64Decode s flags).endOffset = s.length
      | none => (myBase64Decode s flags).result = -1 := by
  have hloop : LoopResult (flags &&& myBase64DecodeAllowMultipleChunks != 0) (strip s) [] 0
      (myBase64DecodeLoop flags (s.length + 1) ⟨s, 0, false, 0, 0⟩ [] 0) :=
    decodeLoop_spec _ _ _ _ rfl rfl (by have := length_strip_le s; dsimp only; omega) (le_refl _)
  rcases hr : myBase64DecodeLoop flags (s.length + 1) ⟨s, 0, false, 0, 0⟩ [] 0 with ⟨d, out, written⟩
  rw [hr] at hloop
  obtain ⟨hlen, hw, hres⟩ := hloop
  dsimp only at hlen hw hres
  obtain ⟨hend, hmore⟩ := skipSpaces_final d
  simp only [myBase64Decode, hr]
  refine ⟨hlen, by simpa using hw, ?_⟩
  cases htext : decodeText (flags &&& myBase64DecodeAllowMultipleChunks != 0) (strip s) with
  | some bytes =>
    rw [htext] at hres
    obtain ⟨he, hs, hout⟩ := hres
    rw [hend hs]
    simp [he, hout]
  | none =>
    rw [htext] at hres
    by_cases hs : strip d.src = []
    · have he : d.error = true := hres.resolve_right (not_not.mpr hs)
      rw [hend hs]
      simp [he]
    · simp [hmore hs]

/-! ## The encoder -/

section Encode

variable {ch : UInt8} {x : List UInt8}

theorem and_sixtyThree (x : Nat) : x &&& 0x3f = x % 64 := Nat.and_two_pow_sub_one_eq_mod x 6

theorem and_twoFiftyFive (x : Nat) : x &&& 0xff = x % 256 := Nat.and_two_pow_sub_one_eq_mod x 8

/-- `from_base64_table` inverts `base64_table`. -/
theorem fromBase64_table : ∀ k : Fin 64, fromBase64 (base64Table.getD k 0) = k := by
  decide +kernel

theorem fromBase64_base64Char (c k : Nat) : fromBase64 (base64Char c k) = ((c >>> k) % 64 : Nat) := by
  rw [base64Char, and_sixtyThree]
  exact fromBase64_table ⟨(c >>> k) % 64, Nat.mod_lt _ (by decide)⟩

theorem isData_base64Char (c k : Nat) : IsData (base64Char c k) := by
  unfold IsData
  rw [fromBase64_base64Char]
  exact Int.natCast_nonneg _

theorem sextet_base64Char (c k : Nat) : sextet (base64Char c k) = c / 2 ^ k % 64 := by
  rw [sextet, fromBase64_base64Char, Int.toNat_natCast, Nat.shiftRight_eq_div_pow]

theorem isData_or_pad_of_mem_encodeGroups (h : ch ∈ encodeGroups x) : IsData ch ∨ ch = 0x3d := by
  fun_induction encodeGroups x with
  | case1 => cases h
  | case2 a v =>
    simp only [List.mem_cons, List.not_mem_nil, or_false] at h
    rcases h with rfl | rfl | rfl | rfl <;> simp [isData_base64Char]
  | case3 a b v =>
    simp only [List.mem_cons, List.not_mem_nil, or_false] at h
    rcases h with rfl | rfl | rfl | rfl <;> simp [isData_base64Char]
  | case4 a b c rest v ih =>
    rcases List.mem_append.mp h with h | h
    · simp only [List.mem_cons, List.not_mem_nil, or_false] at h
      rcases h with rfl | rfl | rfl | rfl <;> simp [isData_base64Char]
    · exact ih h

theorem strip_encodeGroups (x : List UInt8) : strip (encodeGroups x) = encodeGroups x := by
  apply List.filter_eq_self.mpr
  intro ch hch
  rcases isData_or_pad_of_mem_encodeGroups hch with h | rfl
  · simp [h.not_isSpace]
  · decide

theorem ne_newline_of_mem_encodeGroups (h : ch ∈ encodeGroups x) : ch ≠ 0x0a := by
  rcases isData_or_pad_of_mem_encodeGroups h with h | rfl
  · rintro rfl
    exact absurd h (by decide)
  · decide

theorem encodeValue (a : UInt8) (rest : List UInt8) :
    ((a.toNat <<< 8) + (rest.getD 0 0).toNat) <<< 8 + (rest.getD 1 0).toNat =
      a.toNat * 65536 + (rest.getD 0 0).toNat * 256 + (rest.getD 1 0).toNat := by
  simp only [Nat.shiftLeft_eq]
  ring

/-- One pass of the encoding loop writes the group of the next three bytes,
after a newline where the line is full. -/
theorem myBase64EncodeLoop_cons (len : Nat) (hx : x ≠ []) :
    myBase64EncodeLoop len x = (if len = 76 then [0x0a] else []) ++ encodeGroups (x.take 3) ++
      myBase64EncodeLoop ((if len = 76 then 0 else len) + 4) (x.drop 3) := by
  obtain ⟨a, rest, rfl⟩ := List.exists_cons_of_ne_nil hx
  rw [myBase64EncodeLoop, encodeValue]
  rcases rest with _ | ⟨b, _ | ⟨c, rest⟩⟩ <;> simp [encodeGroups_one, encodeGroups_two, encodeGroups_three]

theorem encodeGroups_take_append_drop (hx : x ≠ []) :
    encodeGroups (x.take 3) ++ encodeGroups (x.drop 3) = encodeGroups x := by
  rcases x with _ | ⟨a, _ | ⟨b, _ | ⟨c, rest⟩⟩⟩ <;> simp [encodeGroups_one, encodeGroups_two, encodeGroups_three] at hx ⊢

theorem length_encodeGroups_take (hx : x ≠ []) : (encodeGroups (x.take 3)).length = 4 := by
  rcases x with _ | ⟨a, _ | ⟨b, _ | ⟨c, rest⟩⟩⟩ <;> simp [encodeGroups_one, encodeGroups_two, encodeGroups_three] at hx ⊢

theorem strip_append (l l' : List UInt8) : strip (l ++ l') = strip l ++ strip l' :=
  List.filter_append ..

theorem strip_newline (len : Nat) : strip (if len = 76 then [0x0a] else []) = [] := by
  split <;> rfl

@[simp] theorem myBase64EncodeLoop_nil (len : Nat) : myBase64EncodeLoop len [] = [] := by
  rw [myBase64EncodeLoop]

/-- Induction along the passes of the encoding loop, three bytes a pass. -/
theorem groupInduction {motive : List UInt8 → Prop} (nil : motive [])
    (step : ∀ x, x ≠ [] → motive (x.drop 3) → motive x) (x : List UInt8) : motive x := by
  induction hn : x.length using Nat.strong_induction_on generalizing x with
  | _ n ih =>
    rcases x with _ | ⟨a, rest⟩
    · exact nil
    · apply step _ (List.cons_ne_nil a rest)
      apply ih _ _ _ rfl
      simp only [List.length_drop, List.length_cons] at hn ⊢
      omega

/-- Without its newlines the encoder's output is the group encoding. -/
theorem strip_myBase64EncodeLoop (len : Nat) (x : List UInt8) :
    strip (myBase64EncodeLoop len x) = encodeGroups x := by
  induction x using groupInduction generalizing len with
  | nil =>
    rw [myBase64EncodeLoop_nil]
    rfl
  | step x hx ih =>
    rw [myBase64EncodeLoop_cons len hx, strip_append, strip_append, strip_newline,
      strip_encodeGroups, ih, List.nil_append, encodeGroups_take_append_drop hx]

/-- From column `len` the encoder writes four characters a group of three
bytes and a newline each time a line of 76 is full. -/
theorem length_myBase64EncodeLoop (len : Nat) (x : List UInt8) (hlen : len ≤ 76)
    (h4 : len % 4 = 0) :
    (myBase64EncodeLoop len x).length =
      4 * ((x.length + 2) / 3) + (len + 4 * ((x.length + 2) / 3) - 4) / 76 := by
  induction x using groupInduction generalizing len with
  | nil =>
    simp only [myBase64EncodeLoop_nil, List.length_nil]
    omega
  | step x hx ih =>
    have hrec := ih ((if len = 76 then 0 else len) + 4) (by split <;> omega) (by split <;> omega)
    have hpos : 0 < x.length := List.length_pos_of_ne_nil hx
    rw [myBase64EncodeLoop_cons len hx, List.length_append, List.length_append,
      length_encodeGroups_take hx, hrec, List.length_drop]
    split <;> simp only [List.length_cons, List.length_nil] <;> omega

theorem getElem?_encodeGroups_ne_newline (y : List UInt8) (j : Nat) :
    (encodeGroups y)[j]? ≠ some 0x0a := fun h =>
  ne_newline_of_mem_encodeGroups (List.mem_of_getElem? h) rfl

/-- From column `len` the encoder's newlines stand where a line of 76
characters and its newline end. -/
theorem getElem?_myBase64EncodeLoop (len : Nat) (x : List UInt8) (hlen : len ≤ 76)
    (h4 : len % 4 = 0) (i : Nat) (hi : i < (myBase64EncodeLoop len x).length) :
    (myBase64EncodeLoop len x)[i]? = some 0x0a ↔ (len + i) % 77 = 76 := by
  induction x using groupInduction generalizing len i with
  | nil => simp at hi
  | step x hx ih =>
    have hg := length_encodeGroups_take hx
    rw [myBase64EncodeLoop_cons len hx] at hi ⊢
    simp only [List.length_append] at hi
    by_cases h76 : len = 76
    · -- a full line: the newline, then the group from column 0
      subst len
      simp only [if_true, Nat.zero_add, List.length_cons, List.length_nil, hg] at hi ⊢
      rcases Nat.lt_or_ge i 5 with hi5 | hi5
      · rcases Nat.eq_zero_or_pos i with rfl | hi0
        · simp
        · rw [List.getElem?_append_left (by simp; omega), List.getElem?_append_right (by simp; omega)]
          simp only [List.length_cons, List.length_nil, getElem?_encodeGroups_ne_newline, false_iff]
          omega
      · rw [List.getElem?_append_right (by simp; omega), ih 4 (by omega) (by omega) _ (by simp; omega)]
        simp only [List.length_append, List.length_cons, List.length_nil, hg]
        omega
    · simp only [h76, if_false, List.length_nil, hg] at hi ⊢
      rcases Nat.lt_or_ge i 4 with hi4 | hi4
      · rw [List.nil_append, List.getElem?_append_left (by rw [hg]; omega)]
        simp only [getElem?_encodeGroups_ne_newline, false_iff]
        rw [Nat.mod_eq_of_lt (by omega)]
        omega
      · rw [List.nil_append, List.getElem?_append_right (by omega),
          ih (len + 4) (by omega) (by omega) _ (by omega), hg]
        omega

/-- Four characters of one group spell back the 24 bits they were cut from;
'=' stands for six zero bits. -/
theorem groupValue_base64Char {v : Nat} (hv : v < 2 ^ 24) :
    groupValue (base64Char v 18) (base64Char v 12) (base64Char v 6) (base64Char v 0) = v := by
  simp only [groupValue, sextet_base64Char]
  omega

theorem groupValue_pad1 {v : Nat} (hv : v < 2 ^ 24) (h : v % 64 = 0) :
    groupValue (base64Char v 18) (base64Char v 12) (base64Char v 6) 0x3d = v := by
  simp only [groupValue, sextet_base64Char, sextet_pad]
  omega

theorem groupValue_pad2 {v : Nat} (hv : v < 2 ^ 24) (h : v % 4096 = 0) :
    groupValue (base64Char v 18) (base64Char v 12) 0x3d 0x3d = v := by
  simp only [groupValue, sextet_base64Char, sextet_pad]
  omega

/-- The decoder stores the three bytes a group's value was made of. -/
theorem groupBytesOf_value (a b c : UInt8) :
    groupBytesOf (a.toNat * 65536 + b.toNat * 256 + c.toNat) = [a, b, c] := by
  have ha := a.toNat_lt
  have hb := b.toNat_lt
  have hc := c.toNat_lt
  simp only [groupBytesOf, and_twoFiftyFive, Nat.shiftRight_eq_div_pow, List.cons.injEq, and_true]
  refine ⟨?_, ?_, ?_⟩ <;> apply UInt8.toNat_inj.mp <;> rw [UInt8.toNat_ofNat'] <;> omega

/-- The decoder reads the group encoding of any bytes back, whether or not
several chunks are allowed. -/
theorem decodeText_encodeGroups (multi : Bool) (x : List UInt8) :
    decodeText multi (encodeGroups x) = some x := by
  fun_induction encodeGroups x with
  | case1 => rfl
  | case2 a v =>
    have hv : v = a.toNat * 65536 + (0 : UInt8).toNat * 256 + (0 : UInt8).toNat := by simp [v]
    have hlt : v < 2 ^ 24 := by
      rw [hv]
      have := a.toNat_lt
      simp only [UInt8.toNat_zero]
      omega
    have hg : groupMarks (base64Char v 18) (base64Char v 12) 0x3d 0x3d = some 2 :=
      groupMarks_eq_some_iff.mpr
        (.inr (.inr ⟨rfl, isData_base64Char _ _, isData_base64Char _ _, rfl, rfl⟩))
    rw [decodeText_group_cons [] hg (.inr (.inr rfl)), groupValue_pad2 hlt (by rw [hv]; simp; omega),
      hv, groupBytesOf_value]
    rfl
  | case3 a b v =>
    have hv : v = a.toNat * 65536 + b.toNat * 256 + (0 : UInt8).toNat := by simp [v]
    have hlt : v < 2 ^ 24 := by
      rw [hv]
      have := a.toNat_lt
      have := b.toNat_lt
      simp only [UInt8.toNat_zero]
      omega
    have hg : groupMarks (base64Char v 18) (base64Char v 12) (base64Char v 6) 0x3d = some 1 :=
      groupMarks_eq_some_iff.mpr
        (.inr (.inl ⟨rfl, isData_base64Char _ _, isData_base64Char _ _, isData_base64Char _ _, rfl⟩))
    rw [decodeText_group_cons [] hg (.inr (.inr rfl)), groupValue_pad1 hlt (by rw [hv]; simp; omega),
      hv, groupBytesOf_value]
    rfl
  | case4 a b c rest v ih =>
    have hlt : v < 2 ^ 24 := by
      have := a.toNat_lt
      have := b.toNat_lt
      have := c.toNat_lt
      simp only [v]
      omega
    have hg : groupMarks (base64Char v 18) (base64Char v 12) (base64Char v 6) (base64Char v 0) =
        some 0 :=
      groupMarks_eq_some_iff.mpr (.inl ⟨rfl, isData_base64Char _ _, isData_base64Char _ _,
        isData_base64Char _ _, isData_base64Char _ _⟩)
    rw [List.cons_append, List.cons_append, List.cons_append, List.cons_append, List.nil_append,
      decodeText_group_cons (encodeGroups rest) hg (.inl rfl), ih, groupValue_base64Char hlt,
      groupBytesOf_value]
    rfl

end Encode

/-! ## Round trip and accepted text -/

/-- Up to `my_base64_encode_max_arg_length` bytes, `my_base64_encode` writes
`my_base64_needed_encoded_length` characters with its NUL: the group
encoding with a newline after every 76 characters. `my_base64_decode` with
flags 0 reads them back to the bytes, returns their number and ends at the
end of the text. -/
theorem myBase64Encode_decode (x : List UInt8)
    (hx : (x.length : Int) ≤ myBase64EncodeMaxArgLength) :
    ∃ e, myBase64Encode x = e ++ [0] ∧ (e.length : Int) + 1 = myBase64NeededEncodedLength x.length ∧
      strip e = encodeGroups x ∧ (∀ i, e[i]? = some 0x0a ↔ i < e.length ∧ i % 77 = 76) ∧
      (myBase64Decode e 0).result = x.length ∧ (myBase64Decode e 0).bytes = x ∧
      (myBase64Decode e 0).endOffset = e.length := by
  refine ⟨myBase64EncodeLoop 0 x, rfl, ?_, strip_myBase64EncodeLoop 0 x, ?_, ?_⟩
  · rw [length_myBase64EncodeLoop 0 x (by omega) rfl, myBase64NeededEncodedLength_eq hx]
    push_cast
    omega
  · intro i
    constructor
    · intro h
      have hi : i < (myBase64EncodeLoop 0 x).length := (List.getElem?_eq_some_iff.mp h).1
      refine ⟨hi, ?_⟩
      simpa using (getElem?_myBase64EncodeLoop 0 x (by omega) rfl i hi).mp h
    · rintro ⟨hi, hmod⟩
      exact (getElem?_myBase64EncodeLoop 0 x (by omega) rfl i hi).mpr (by simpa using hmod)
  · have hspec := myBase64Decode_spec (myBase64EncodeLoop 0 x) 0
    have hmulti : (0 &&& myBase64DecodeAllowMultipleChunks != 0) = false := rfl
    rw [strip_myBase64EncodeLoop, hmulti, decodeText_encodeGroups] at hspec
    obtain ⟨-, -, hres, hbytes, hend⟩ := hspec
    refine ⟨?_, hbytes, hend⟩
    unfold myBase64EncodeMaxArgLength at hx
    rw [hres, cInt_of_lt (by omega) (by omega)]

theorem myBase64Encode_decode_ma :
    ((([0x4d, 0x61] : List UInt8).length : Int) ≤ myBase64EncodeMaxArgLength) ∧
      ∃ e, myBase64Encode [0x4d, 0x61] = e ++ [0] ∧
        (e.length : Int) + 1 = myBase64NeededEncodedLength ([0x4d, 0x61] : List UInt8).length ∧
        strip e = encodeGroups [0x4d, 0x61] ∧ (∀ i, e[i]? = some 0x0a ↔ i < e.length ∧ i % 77 = 76) ∧
        (myBase64Decode e 0).result = ([0x4d, 0x61] : List UInt8).length ∧
        (myBase64Decode e 0).bytes = [0x4d, 0x61] ∧ (myBase64Decode e 0).endOffset = e.length :=
  ⟨by decide, myBase64Encode_decode [0x4d, 0x61] (by decide)⟩

/-- Up to `my_base64_decode_max_arg_length` characters, `my_base64_decode`
returns a non-negative length exactly when the input without its spaces is
base64 text; it has then written the bytes the text stands for, returns
their number and sets `*end_ptr` to the end of the input. -/
theorem myBase64Decode_base64Text (s : List UInt8) (flags : Nat)
    (hs : (s.length : Int) ≤ myBase64DecodeMaxArgLength) :
    (0 ≤ (myBase64Decode s flags).result ↔
        Base64Text (flags &&& myBase64DecodeAllowMultipleChunks != 0) (strip s)) ∧
      (Base64Text (flags &&& myBase64DecodeAllowMultipleChunks != 0) (strip s) →
        decodeText (flags &&& myBase64DecodeAllowMultipleChunks != 0) (strip s) =
            some (myBase64Decode s flags).bytes ∧
          (myBase64Decode s flags).result = (myBase64Decode s flags).bytes.length ∧
          (myBase64Decode s flags).endOffset = s.length) := by
  obtain ⟨hlen, hw, hres⟩ := myBase64Decode_spec s flags
  have hstrip := length_strip_le s
  unfold myBase64DecodeMaxArgLength at hs
  rw [← decodeText_isSome_iff]
  cases htext : decodeText (flags &&& myBase64DecodeAllowMultipleChunks != 0) (strip s) with
  | none =>
    rw [htext] at hres
    simp [hres]
  | some bytes =>
    rw [htext] at hres
    obtain ⟨hr, hb, he⟩ := hres
    rw [hb] at hlen
    have hsmall : cInt bytes.length = bytes.length := cInt_of_lt (by omega) (by omega)
    rw [hr, hsmall, hb]
    simp [he]

theorem myBase64Decode_base64Text_twe :
    ((([0x54, 0x57, 0x45, 0x3d] : List UInt8).length : Int) ≤ myBase64DecodeMaxArgLength) ∧
      ((0 ≤ (myBase64Decode [0x54, 0x57, 0x45, 0x3d] 0).result ↔
          Base64Text (0 &&& myBase64DecodeAllowMultipleChunks != 0) (strip [0x54, 0x57, 0x45, 0x3d])) ∧
        (Base64Text (0 &&& myBase64DecodeAllowMultipleChunks != 0) (strip [0x54, 0x57, 0x45, 0x3d]) →
          decodeText (0 &&& myBase64DecodeAllowMultipleChunks != 0) (strip [0x54, 0x57, 0x45, 0x3d]) =
              some (myBase64Decode [0x54, 0x57, 0x45, 0x3d] 0).bytes ∧
            (myBase64Decode [0x54, 0x57, 0x45, 0x3d] 0).result =
              (myBase64Decode [0x54, 0x57, 0x45, 0x3d] 0).bytes.length ∧
            (myBase64Decode [0x54, 0x57, 0x45, 0x3d] 0).endOffset =
              ([0x54, 0x57, 0x45, 0x3d] : List UInt8).length)) :=
  ⟨by decide, myBase64Decode_base64Text [0x54, 0x57, 0x45, 0x3d] 0 (by decide)⟩

/-- `my_base64_decode` writes at most three bytes a group of four characters,
so at most `my_base64_needed_decoded_length` bytes where the length plus 3
fits in an `int`. -/
theorem myBase64Decode_written_le (s : List UInt8) (flags : Nat) (hs : (s.length : Int) + 3 < 2 ^ 31) :
    (myBase64Decode s flags).bytes.length ≤ (myBase64Decode s flags).written ∧
      (myBase64Decode s flags).written ≤ 3 * ((strip s).length / 4) ∧
      ((myBase64Decode s flags).written : Int) ≤ myBase64NeededDecodedLength s.length := by
  obtain ⟨hlen, hw, -⟩ := myBase64Decode_spec s flags
  have hstrip := length_strip_le s
  refine ⟨hlen, hw, ?_⟩
  rw [myBase64NeededDecodedLength, cInt_of_lt (by omega) hs, Int.tdiv_eq_ediv_of_nonneg (by omega)]
  omega

theorem myBase64Decode_written_le_twe :
    ((([0x54, 0x57, 0x45, 0x3d] : List UInt8).length : Int) + 3 < 2 ^ 31) ∧
      ((myBase64Decode [0x54, 0x57, 0x45, 0x3d] 0).bytes.length ≤
          (myBase64Decode [0x54, 0x57, 0x45, 0x3d] 0).written ∧
        (myBase64Decode [0x54, 0x57, 0x45, 0x3d] 0).written ≤
          3 * ((strip [0x54, 0x57, 0x45, 0x3d]).length / 4) ∧
        ((myBase64Decode [0x54, 0x57, 0x45, 0x3d] 0).written : Int) ≤
          myBase64NeededDecodedLength ([0x54, 0x57, 0x45, 0x3d] : List UInt8).length) :=
  ⟨by decide, myBase64Decode_written_le [0x54, 0x57, 0x45, 0x3d] 0 (by decide)⟩

/-- One group of base64 data among spaces decodes to three bytes. -/
theorem myBase64Decode_of_strip_eq_group {s : List UInt8} (hs : strip s = [0x41, 0x41, 0x41, 0x41]) :
    (myBase64Decode s 0).result = 3 ∧ (myBase64Decode s 0).written = 3 := by
  obtain ⟨hbytes, hw, hres⟩ := myBase64Decode_spec s 0
  have htext : decodeText (0 &&& myBase64DecodeAllowMultipleChunks != 0) [0x41, 0x41, 0x41, 0x41] =
      some [0, 0, 0] := by decide
  rw [hs, htext] at hres
  rw [hs] at hw
  obtain ⟨hr, hb, -⟩ := hres
  rw [hb] at hbytes
  refine ⟨by rw [hr]; rfl, ?_⟩
  simp only [List.length_cons, List.length_nil] at hbytes hw
  omega

/-- At `my_base64_decode_max_arg_length` characters the `int` cast in
`my_base64_needed_decoded_length` wraps: one group of base64 text followed
by spaces decodes to three bytes, for which the length asks -1610612733. -/
theorem myBase64Decode_maxArg_overrun :
    (([0x41, 0x41, 0x41, 0x41] ++ List.replicate (2 ^ 31 - 5) 0x20 : List UInt8).length : Int) =
        myBase64DecodeMaxArgLength ∧
      (myBase64Decode ([0x41, 0x41, 0x41, 0x41] ++ List.replicate (2 ^ 31 - 5) 0x20) 0).result = 3 ∧
      (myBase64Decode ([0x41, 0x41, 0x41, 0x41] ++ List.replicate (2 ^ 31 - 5) 0x20) 0).written = 3 ∧
      myBase64NeededDecodedLength
          ([0x41, 0x41, 0x41, 0x41] ++ List.replicate (2 ^ 31 - 5) 0x20 : List UInt8).length =
        -1610612733 := by
  have hlen : ([0x41, 0x41, 0x41, 0x41] ++ List.replicate (2 ^ 31 - 5) 0x20 : List UInt8).length =
      2147483647 := by
    rw [List.length_append, List.length_replicate]
    rfl
  have hstrip : strip ([0x41, 0x41, 0x41, 0x41] ++ List.replicate (2 ^ 31 - 5) 0x20) =
      [0x41, 0x41, 0x41, 0x41] := by
    have hsp : (!isSpace 0x20) = false := rfl
    rw [strip_append, strip, strip, List.filter_replicate_of_neg (by rw [hsp]; decide)]
    rfl
  obtain ⟨hr, hw⟩ := myBase64Decode_of_strip_eq_group hstrip
  refine ⟨?_, hr, hw, ?_⟩
  · rw [hlen]
    rfl
  · rw [hlen]
    rfl

end MariaDB.Base64
