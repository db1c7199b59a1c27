import MariaDB.Json.Scanner

set_option autoImplicit false

/- The JSON text grammar of RFC 8259 over code points, as a recognizer: each
production takes the code points left and gives back what follows it. This is
the specification the scanner is compared with, not a model of code; strings
admit only the JSON escapes, with a `\u` high surrogate followed by a `\u` low
surrogate, and arrays and objects nest fewer than `JSON_DEPTH_LIMIT` deep. -/
namespace MariaDB.Json.Rfc8259

open MariaDB.Ctype

/-- `ws = *( %x20 / %x09 / %x0A / %x0D )`. -/
def isWs (c : Nat) : Bool := c = 0x20 || c = 0x09 || c = 0x0A || c = 0x0D

def skipWs (cs : List Nat) : List Nat := cs.dropWhile isWs

def isDigit (c : Nat) : Bool := 0x30 ≤ c && c ≤ 0x39

def isHexDigit (c : Nat) : Bool :=
  isDigit c || (0x41 ≤ c && c ≤ 0x46) || (0x61 ≤ c && c ≤ 0x66)

/-- The value of a hexadecimal digit. -/
def hexValue (c : Nat) : Nat :=
  if isDigit c then c - 0x30 else if c ≤ 0x46 then c - 0x41 + 10 else c - 0x61 + 10

/-- `1*DIGIT`. -/
def digits1 : List Nat → Option (List Nat)
  | c :: cs => if isDigit c then some (cs.dropWhile isDigit) else none
  | [] => none

/-- `int = zero / ( digit1-9 *DIGIT )`. -/
def int : List Nat → Option (List Nat)
  | c :: cs =>
    if c = 0x30 then some cs
    else if 0x31 ≤ c && c ≤ 0x39 then some (cs.dropWhile isDigit) else none
  | [] => none

/-- `[ frac ]`, `frac = decimal-point 1*DIGIT`: absent unless a point is
followed by a digit. -/
def frac : List Nat → List Nat
  | 0x2E :: cs => (digits1 cs).getD (0x2E :: cs)
  | cs => cs

/-- `[ exp ]`, `exp = e [ minus / plus ] 1*DIGIT`. -/
def exp : List Nat → List Nat
  | c :: cs =>
    if c = 0x65 || c = 0x45 then
      let signed := match cs with
        | s :: ds => if s = 0x2D || s = 0x2B then ds else cs
        | [] => cs
      (digits1 signed).getD (c :: cs)
    else c :: cs
  | [] => []

/-- `number = [ minus ] int [ frac ] [ exp ]`. -/
def number (cs : List Nat) : Option (List Nat) :=
  let cs := match cs with
    | 0x2D :: rest => rest
    | _ => cs
  (int cs).map fun rest => exp (frac rest)

/-- The four hexadecimal digits of a `\u` escape: their code unit, and what
follows. -/
def hex4 : List Nat → Option (Nat × List Nat)
  | a :: b :: c :: d :: cs =>
    if isHexDigit a && isHexDigit b && isHexDigit c && isHexDigit d then
      some (((hexValue a * 16 + hexValue b) * 16 + hexValue c) * 16 + hexValue d, cs)
    else none
  | _ => none

/-- The characters of a string up to its closing quote, which is consumed.
`unescaped = %x20-21 / %x23-5B / %x5D-10FFFF`; the escapes are `\"`, `\\`,
`\/`, `\b`, `\f`, `\n`, `\r`, `\t` and `\u` with four hexadecimal digits. -/
def chars : Nat → List Nat → Option (List Nat)
  | 0, _ => none
  | _, [] => none
  | _ + 1, 0x22 :: cs => some cs
  | fuel + 1, 0x5C :: e :: cs =>
    if e = 0x22 || e = 0x5C || e = 0x2F || e = 0x62 || e = 0x66 || e = 0x6E || e = 0x72 ||
      e = 0x74 then chars fuel cs
    else if e = 0x75 then
      match hex4 cs with
      | some (unit, rest) =>
        if 0xD800 ≤ unit && unit ≤ 0xDBFF then
          match rest with
          | 0x5C :: 0x75 :: rest' =>
            match hex4 rest' with
            | some (low, rest'') =>
              if 0xDC00 ≤ low && low ≤ 0xDFFF then chars fuel rest'' else none
            | none => none
          | _ => none
        else if 0xDC00 ≤ unit && unit ≤ 0xDFFF then none
        else chars fuel rest
      | none => none
    else none
  | fuel + 1, c :: cs => if 0x20 ≤ c && c ≠ 0x5C && c ≤ 0x10FFFF then chars fuel cs else none

/-- `JSON_DEPTH_LIMIT`: arrays and objects nest fewer than this many deep. -/
def depthLimit : Nat := 32

mutual

/-- `value`, at nesting depth `depth`, after leading whitespace. -/
def value : Nat → Nat → List Nat → Option (List Nat)
  | 0, _, _ => none
  | fuel + 1, depth, cs =>
    match cs with
    | 0x7B :: rest =>
      if depth + 1 < depthLimit then object fuel (depth + 1) (skipWs rest) else none
    | 0x5B :: rest =>
      if depth + 1 < depthLimit then array fuel (depth + 1) (skipWs rest) else none
    | 0x22 :: rest => chars fuel rest
    | 0x74 :: 0x72 :: 0x75 :: 0x65 :: rest => some rest
    | 0x66 :: 0x61 :: 0x6C :: 0x73 :: 0x65 :: rest => some rest
    | 0x6E :: 0x75 :: 0x6C :: 0x6C :: rest => some rest
    | _ => number cs
termination_by structural fuel _ _ => fuel

/-- The inside of an array after `[` and whitespace, through the closing `]`. -/
def array : Nat → Nat → List Nat → Option (List Nat)
  | 0, _, _ => none
  | fuel + 1, depth, cs =>
    match cs with
    | 0x5D :: rest => some rest
    | _ => do
      let rest ← value fuel depth cs
      elements fuel depth (skipWs rest)
termination_by structural fuel _ _ => fuel

/-- `*( value-separator value ) end-array`. -/
def elements : Nat → Nat → List Nat → Option (List Nat)
  | 0, _, _ => none
  | fuel + 1, depth, cs =>
    match cs with
    | 0x5D :: rest => some rest
    | 0x2C :: rest => do
      let rest ← value fuel depth (skipWs rest)
      elements fuel depth (skipWs rest)
    | _ => none
termination_by structural fuel _ _ => fuel

/-- The inside of an object after `{` and whitespace, through the closing `}`. -/
def object : Nat → Nat → List Nat → Option (List Nat)
  | 0, _, _ => none
  | fuel + 1, depth, cs =>
    match cs with
    | 0x7D :: rest => some rest
    | _ => do
      let rest ← member fuel depth cs
      members fuel depth (skipWs rest)
termination_by structural fuel _ _ => fuel

/-- `member = string name-separator value`. -/
def member : Nat → Nat → List Nat → Option (List Nat)
  | 0, _, _ => none
  | fuel + 1, depth, cs =>
    match cs with
    | 0x22 :: rest => do
      let rest ← chars fuel rest
      match skipWs rest with
      | 0x3A :: rest => value fuel depth (skipWs rest)
      | _ => none
    | _ => none
termination_by structural fuel _ _ => fuel

/-- `*( value-separator member ) end-object`. -/
def members : Nat → Nat → List Nat → Option (List Nat)
  | 0, _, _ => none
  | fuel + 1, depth, cs =>
    match cs with
    | 0x7D :: rest => some rest
    | 0x2C :: rest => do
      let rest ← member fuel depth (skipWs rest)
      members fuel depth (skipWs rest)
    | _ => none

termination_by structural fuel _ _ => fuel
end

/-- `JSON-text = ws value ws` over code points. The fuel bounds the depth of
the calls, at most two for each code point read. -/
def isJsonText (cs : List Nat) : Bool :=
  match value (4 * cs.length + 4) 0 (skipWs cs) with
  | some rest => skipWs rest = []
  | none => false

/-- The code points of a byte string in a character set, if every character
reads. -/
def decode (cs : CharsetInfo) : Nat → List UInt8 → Option (List Nat)
  | _, [] => some []
  | 0, _ :: _ => none
  | fuel + 1, b :: bs =>
    let (len, wc) := cs.mbWc (b :: bs)
    if 0 < len then (decode cs fuel ((b :: bs).drop len.toNat)).map (wc :: ·) else none

/-- A byte string that decodes to a JSON text. -/
def IsJsonText (cs : CharsetInfo) (bytes : List UInt8) : Prop :=
  ∃ cps, decode cs bytes.length bytes = some cps ∧ isJsonText cps = true

theorem isJsonText_iff_any (cs : CharsetInfo) (bytes : List UInt8) :
    IsJsonText cs bytes ↔ (decode cs bytes.length bytes).any isJsonText = true := by
  simp [IsJsonText, Option.any_eq_true]

instance (cs : CharsetInfo) (bytes : List UInt8) : Decidable (IsJsonText cs bytes) :=
  decidable_of_iff _ (isJsonText_iff_any cs bytes).symm

/-! ## The scanner against the grammar -/

/-- `json_valid` takes `1.` for a number: after the point the `NS_FRAC` row of
`json_num_states` ends the number at `N_END`, where the grammar wants a digit. -/
theorem jsonValid_accepts_bare_point :
    MariaDB.Json.jsonValid utf8mb4 [0x31, 0x2E] 8 = some true ∧
      ¬ IsJsonText utf8mb4 [0x31, 0x2E] := by
  constructor <;> decide

end MariaDB.Json.Rfc8259
