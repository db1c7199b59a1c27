import MariaDB.Json.Rfc8259

set_option autoImplicit false

/- `json_escape` and `json_unescape` of strings/json_lib.c. Escaping reads each
character of a string in its character set and writes it in the JSON character
set, as a backslash escape where JSON does not allow it or the JSON character
set has no bytes for it; unescaping reads a JSON string body back with
`json_read_string_const_chr` and writes each character in the result character
set. An output buffer is the room left in it. -/
namespace MariaDB.Json

open MariaDB.Ctype

/-- `JSON_ERROR_OUT_OF_SPACE`. -/
def jsonErrorOutOfSpace : Int := -1

/-- `JSON_ERROR_ILLEGAL_SYMBOL`. -/
def jsonErrorIllegalSymbol : Int := -2

/-- `enum json_esc_char_classes`. -/
inductive JsonEscCharClass where
  | esc | escU | escB | escF | escN | escR | escT | escBs
  deriving Repr, DecidableEq

/-- The value of a class in the enumeration: the letter written after the
backslash. -/
def JsonEscCharClass.code : JsonEscCharClass → Nat
  | .esc => 0
  | .escU => 'u'.toNat
  | .escB => 'b'.toNat
  | .escF => 'f'.toNat
  | .escN => 'n'.toNat
  | .escR => 'r'.toNat
  | .escT => 't'.toNat
  | .escBs => '\\'.toNat

open JsonEscCharClass in
/-- `json_escape_chr_map[]`, for the characters below `0x60`. -/
def jsonEscapeChrMap : List JsonEscCharClass :=
  [escU, escU, escU, escU, escU, escU, escU, escU,
   escB, escT, escN, escU, escF, escR, escU, escU,
   escU, escU, escU, escU, escU, escU, escU, escU,
   escU, escU, escU, escU, escU, escU, escU, escU,

   esc, esc, escBs, esc, esc, esc, esc, esc,
   esc, esc, esc, esc, esc, esc, esc, esc,
   esc, esc, esc, esc, esc, esc, esc, esc,
   esc, esc, esc, esc, esc, esc, esc, esc,

   esc, esc, esc, esc, esc, esc, esc, esc,
   esc, esc, esc, esc, esc, esc, esc, esc,
   esc, esc, esc, esc, esc, esc, esc, esc,
   esc, esc, esc, esc, escBs, esc, esc, esc]

/-- `json_escape_chr_map[c]`. -/
def escClass (c : Nat) : JsonEscCharClass := jsonEscapeChrMap.getD c .esc

/-- `hexconv[]`. -/
def hexconv : List Char :=
  ['0', '1', '2', '3', '4', '5', '6', '7', '8', '9', 'A', 'B', 'C', 'D', 'E', 'F']

/-- `hexconv[n]`. -/
def hexDigit (n : Nat) : Nat := (hexconv.getD n '0').toNat

/-- The `code_str` of `json_escape` for `c`: the hexadecimal digits of the
UTF-16 code units `my_uni_utf16` writes, `u_len * 2` of them. -/
def utf16HexDigits (c : Nat) : List Nat :=
  let (uLen, utf16buf) := myUniUtf16 c 4
  let unit := fun i => (utf16buf.getD i 0).toNat
  let codeStr := [hexDigit (unit 0 >>> 4), hexDigit (unit 0 &&& 15),
    hexDigit (unit 1 >>> 4), hexDigit (unit 1 &&& 15),
    hexDigit (unit 2 >>> 4), hexDigit (unit 2 &&& 15),
    hexDigit (unit 3 >>> 4), hexDigit (unit 3 &&& 15)]
  codeStr.take (uLen * 2).toNat

section Escape

variable (jsonCs : CharsetInfo)

/-- `json_append_ascii`: the ASCII characters in the JSON character set, or
the `c_len` of the first that does not fit. -/
def jsonAppendAscii : List Nat → Nat → Except Int (List UInt8)
  | [], _ => .ok []
  | a :: ascii, room =>
    let (cLen, out) := jsonCs.wcMb a room
    if 0 < cLen then (jsonAppendAscii ascii (room - out.length)).map (out ++ ·)
    else .error cLen

/-- The escape of `json_escape` for class `cClass`: a backslash, the class
letter (`c` itself for `ESC_BS`), and for `ESC_U` the digits of `c` in UTF-16. -/
def jsonEscapeWith (cClass : JsonEscCharClass) (c room : Nat) : Except Int (List UInt8) :=
  let (bsLen, bs) := jsonCs.wcMb '\\'.toNat room
  if bsLen ≤ 0 then .error jsonErrorOutOfSpace
  else
    let (letterLen, letter) :=
      jsonCs.wcMb (if cClass = .escBs then c else cClass.code) (room - bs.length)
    if letterLen ≤ 0 then .error jsonErrorOutOfSpace
    else if cClass ≠ .escU then .ok (bs ++ letter)
    else
      match jsonAppendAscii jsonCs (utf16HexDigits c) (room - bs.length - letter.length) with
      | .ok digits =>
        if 0 < digits.length then .ok (bs ++ letter ++ digits) else .error jsonErrorOutOfSpace
      | .error _ => .error jsonErrorOutOfSpace

/-- The body of the loop of `json_escape` for a character `c` read from the
string. -/
def jsonEscapeChr (c room : Nat) : Except Int (List UInt8) :=
  if 0x60 ≤ c ∨ escClass c = .esc then
    let (cLen, out) := jsonCs.wcMb c room
    if 0 < cLen then .ok out
    else if cLen < 0 then .error jsonErrorOutOfSpace
    -- the JSON character set cannot convert this character
    else jsonEscapeWith jsonCs .escU c room
  else jsonEscapeWith jsonCs (escClass c) c room

variable (strCs : CharsetInfo)

/-- The loop of `json_escape`. Every character read takes at least one byte,
so the length of the string is fuel enough. -/
def jsonEscapeLoop : Nat → List UInt8 → Nat → Option (Except Int (List UInt8))
  | _, [], _ => some (.ok [])
  | 0, _ :: _, _ => none
  | fuel + 1, b :: bs, room =>
    let (cLen, c) := strCs.mbWc (b :: bs)
    if 0 < cLen then
      match jsonEscapeChr jsonCs c room with
      | .ok out =>
        (jsonEscapeLoop fuel ((b :: bs).drop cLen.toNat) (room - out.length)).map
          (·.map (out ++ ·))
      | .error e => some (.error e)
    -- an illegal sequence, or one cut short by the end of the string
    else some (.error jsonErrorIllegalSymbol)

end Escape

/-- `json_escape(str_cs, str, str_end, json_cs, json, json + room)`: what it
returns, and the bytes it wrote. -/
def jsonEscape (strCs : CharsetInfo) (str : List UInt8) (jsonCs : CharsetInfo) (room : Nat) :
    Option (Int × List UInt8) :=
  (jsonEscapeLoop jsonCs strCs str.length str room).map fun
    | .ok out => (out.length, out)
    | .error e => (e, [])

section Unescape

variable (resCs : CharsetInfo)

/-- The body of the loop of `json_unescape` for a character `c` read from the
JSON text: its bytes in the result character set, or `?` for a character the
set cannot hold; `none` when the result buffer is too small. -/
def jsonUnescapeChr (c room : Nat) : Option (List UInt8) :=
  let (cLen, out) := resCs.wcMb c room
  if 0 < cLen then some out
  else if cLen = myCsIluni then
    let (cLen, out) := resCs.wcMb '?'.toNat room
    if 0 < cLen then some out else none
  else none

variable (jsonCs : CharsetInfo)

/-- `while (json_read_string_const_chr(&s) == 0)` in `json_unescape`: the
bytes written and the string where reading stopped, or the `-1` of a full
result buffer. -/
def jsonUnescapeLoop : Nat → JsonString → Nat → Option (Except Int (List UInt8 × JsonString))
  | 0, _, _ => none
  | fuel + 1, s, room =>
    let (r, s) := jsonReadStringConstChr jsonCs s
    if r ≠ 0 then some (.ok ([], s))
    else
      match jsonUnescapeChr resCs s.cNext room with
      | some out =>
        (jsonUnescapeLoop fuel s (room - out.length)).map
          (·.map fun (rest, s) => (out ++ rest, s))
      | none => some (.error (-1))

end Unescape

/-- `json_unescape(json_cs, json, json_end, res_cs, res, res + room)`: what it
returns, and the bytes it wrote. Reading must stop at the end of the text. -/
def jsonUnescape (jsonCs : CharsetInfo) (json : List UInt8) (resCs : CharsetInfo)
    (room fuel : Nat) : Option (Int × List UInt8) :=
  (jsonUnescapeLoop resCs jsonCs fuel (JsonString.setup json) room).map fun
    | .ok (out, s) => if s.error = jeEos then (out.length, out) else (-1, [])
    | .error e => (e, [])

/-- U+1F600 in utf8mb4, which utf8mb3 has no bytes for: `json_escape` writes
its surrogate pair as `\uD83DDE00`, eight digits after one `\u`, while
`json_handle_esc` wants a second `\u` after a high surrogate. The scanner
rejects the quoted text and `json_unescape` returns `-1`. -/
theorem jsonEscape_surrogate_pair_unreadable :
    Rfc8259.decode utf8mb4 4 [0xF0, 0x9F, 0x98, 0x80] = some [0x1F600] ∧
      jsonEscape utf8mb4 [0xF0, 0x9F, 0x98, 0x80] utf8mb3 64 =
        some (10, [0x5C, 0x75, 0x44, 0x38, 0x33, 0x44, 0x44, 0x45, 0x30, 0x30]) ∧
      jsonValid utf8mb3
        [0x22, 0x5C, 0x75, 0x44, 0x38, 0x33, 0x44, 0x44, 0x45, 0x30, 0x30, 0x22] 32 = some false ∧
      jsonUnescape utf8mb3 [0x5C, 0x75, 0x44, 0x38, 0x33, 0x44, 0x44, 0x45, 0x30, 0x30] utf8mb4
        64 16 = some (-1, []) := by
  refine ⟨?_, ?_, ?_, ?_⟩ <;> decide

end MariaDB.Json
