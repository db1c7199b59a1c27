import MariaDB.Ctype.Unicode

set_option autoImplicit false

/- The string reader of strings/json_lib.c (`json_string_t`, include/json_lib.h):
a position in a byte buffer, the last character read and its length, and an
error code. Characters are read through the `mb_wc` of the JSON character set;
inside a string constant a backslash starts one of the JSON escapes, and
`\uXXXX` is read as UTF-16, a surrogate pair taking a second `\uXXXX`. -/
namespace MariaDB.Json

open MariaDB.Ctype

/-- `JE_BAD_CHR`: the character set cannot read the bytes. -/
def jeBadChr : Int := -1

/-- `JE_NOT_JSON_CHR`. -/
def jeNotJsonChr : Int := -2

/-- `JE_EOS`: the text ended too early. -/
def jeEos : Int := -3

/-- `JE_SYN`. -/
def jeSyn : Int := -4

/-- `JE_STRING_CONST`. -/
def jeStringConst : Int := -5

/-- `JE_ESCAPING`. -/
def jeEscaping : Int := -6

/-- `JE_DEPTH`. -/
def jeDepth : Int := -7

/-- `json_string_t` over the buffer `str`, which ends at `str_end`; `c_str` is
the offset of the next byte to read. The character set is passed alongside. -/
structure JsonString where
  str : List UInt8
  cStr : Nat
  cNext : Nat
  cNextLen : Int
  error : Int
  deriving Repr, DecidableEq

/-- `json_string_setup` at the start of a buffer. -/
def JsonString.setup (str : List UInt8) : JsonString := ⟨str, 0, 0, 0, 0⟩

section JsonString

variable (cs : CharsetInfo)

/-- `json_next_char`: read one character at `c_str`, which stays in place. -/
def JsonString.nextChar (s : JsonString) : JsonString :=
  let (len, wc) := cs.mbWc (s.str.drop s.cStr)
  { s with cNextLen := len, cNext := if 0 < len then wc else s.cNext }

end JsonString

/-- `json_eos`. -/
def JsonString.eos (s : JsonString) : Bool := s.str.length ≤ s.cStr

/-- `c_str+= c_len`. -/
def JsonString.advance (s : JsonString) (len : Int) : JsonString :=
  { s with cStr := s.cStr + len.toNat }

/-- `json_eos(s) ? JE_EOS : JE_BAD_CHR`, the error after a failed read. -/
def JsonString.readError (s : JsonString) : Int := if s.eos then jeEos else jeBadChr

/-- `s->error= e`. -/
def JsonString.setError (s : JsonString) (e : Int) : JsonString := { s with error := e }

/-- `S_F`, the last hexadecimal digit class. -/
def sF : Nat := 15

/-- `S_ETC`. -/
def sEtc : Nat := 36

/-- `S_QUOTE`. -/
def sQuote : Nat := 37

/-- `S_BKSL`. -/
def sBksl : Nat := 38

/-- `S_ERR`. -/
def sErr : Nat := 100

/-- `json_instr_chr_map[]`: the class of each ASCII character inside a string
constant, the digits and letters `A`..`F` by their hexadecimal value. -/
def jsonInstrChrMap : List Nat :=
  [100, 100, 100, 100, 100, 100, 100, 100,
   100, 100, 100, 100, 100, 100, 100, 100,
   100, 100, 100, 100, 100, 100, 100, 100,
   100, 100, 100, 100, 100, 100, 100, 100,

   36, 36, 37, 36, 36, 36, 36, 36,
   36, 36, 36, 36, 36, 36, 36, 36,
   0, 1, 2, 3, 4, 5, 6, 7,
   8, 9, 36, 36, 36, 36, 36, 36,

   36, 10, 11, 12, 13, 14, 15, 36,
   36, 36, 36, 36, 36, 36, 36, 36,
   36, 36, 36, 36, 36, 36, 36, 36,
   36, 36, 36, 36, 38, 36, 36, 36,

   36, 10, 11, 12, 13, 14, 15, 36,
   36, 36, 36, 36, 36, 36, 36, 36,
   36, 36, 36, 36, 36, 36, 36, 36,
   36, 36, 36, 36, 36, 36, 36, 36]

/-- `json_instr_chr_map[c]` for an ASCII `c`. -/
def instrClass (c : Nat) : Nat := jsonInstrChrMap.getD c sErr

section Escapes

variable (cs : CharsetInfo)

/-- The loop of `read_4_hexdigits` from digit `i` on: each digit adds its value
to byte `i / 2` of `dest`, the first of a pair times sixteen. -/
def read4HexdigitsFrom : Nat → Nat → JsonString → UInt8 × UInt8 → Int × JsonString × (UInt8 × UInt8)
  | _, 0, s, dest => (0, s, dest)
  | i, n + 1, s, dest =>
    let s := s.nextChar cs
    if s.cNextLen ≤ 0 then (s.readError, s.setError s.readError, dest)
    else if 128 ≤ s.cNext ∨ sF < instrClass s.cNext then (jeSyn, s.setError jeSyn, dest)
    else
      let t := UInt8.ofNat (instrClass s.cNext)
      let digit := if i % 2 = 1 then t else t * 16
      let dest := if i / 2 = 0 then (dest.1 + digit, dest.2) else (dest.1, dest.2 + digit)
      read4HexdigitsFrom (i + 1) n (s.advance s.cNextLen) dest

/-- `read_4_hexdigits(s, dest)`. -/
def read4Hexdigits (s : JsonString) (dest : UInt8 × UInt8) : Int × JsonString × (UInt8 × UInt8) :=
  read4HexdigitsFrom cs 0 4 s dest

/-- The `\u` branch of `json_handle_esc`, after the `u`: four hexadecimal
digits, and for a high surrogate a second `\u` with four more. -/
def handleUnicodeEsc (s : JsonString) : Int × JsonString :=
  let (r, s, (c0, c1)) := read4Hexdigits cs s (0, 0)
  if r ≠ 0 then (1, s)
  else
    let (len, wc) := myUtf16Uni [c0, c1]
    if len = 2 then (0, { s with cNext := wc })
    else if len ≠ myCsToosmallN 4 then (jeBadChr, s.setError jeBadChr)
    else
      let s := s.nextChar cs
      if s.cNextLen ≤ 0 then (s.readError, s.setError s.readError)
      else if s.cNext ≠ '\\'.toNat then (jeSyn, s.setError jeSyn)
      else
        let s := (s.advance s.cNextLen).nextChar cs
        if s.cNextLen ≤ 0 then (s.readError, s.setError s.readError)
        else if s.cNext ≠ 'u'.toNat then (jeSyn, s.setError jeSyn)
        else
          let (r, s, (c2, c3)) := read4Hexdigits cs (s.advance s.cNextLen) (0, 0)
          if r ≠ 0 then (1, s)
          else
            let (len, wc) := myUtf16Uni [c0, c1, c2, c3]
            if len = 4 then (0, { s with cNext := wc }) else (jeBadChr, s.setError jeBadChr)

/-- `json_handle_esc`, after a backslash: the escaped character goes to
`c_next`. -/
def jsonHandleEsc (s : JsonString) : Int × JsonString :=
  let s := s.nextChar cs
  let cLen := s.cNextLen
  if cLen ≤ 0 then (s.readError, s.setError s.readError)
  else
    let s := s.advance cLen
    if s.cNext = 'b'.toNat then (0, { s with cNext := 8 })
    else if s.cNext = 'f'.toNat then (0, { s with cNext := 12 })
    else if s.cNext = 'n'.toNat then (0, { s with cNext := 10 })
    else if s.cNext = 'r'.toNat then (0, { s with cNext := 13 })
    else if s.cNext = 't'.toNat then (0, { s with cNext := 9 })
    -- a control character after the backslash is put back and rejected
    else if s.cNext < 128 ∧ instrClass s.cNext = sErr then
      (jeEscaping, { s with cStr := s.cStr - cLen.toNat, error := jeEscaping })
    else if s.cNext ≠ 'u'.toNat then (0, s)
    else handleUnicodeEsc cs s

/-- `json_read_string_const_chr`: the next character of a string constant,
escapes decoded. -/
def jsonReadStringConstChr (s : JsonString) : Int × JsonString :=
  let s := s.nextChar cs
  if 0 < s.cNextLen then
    let s := s.advance s.cNextLen
    if s.cNext = '\\'.toNat then jsonHandleEsc cs s else (0, s)
  else (1, s.setError s.readError)

end Escapes

end MariaDB.Json
