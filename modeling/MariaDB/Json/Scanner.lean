import Mathlib.Tactic.Common
import MariaDB.Json.String

set_option autoImplicit false

/- The JSON scanner of strings/json_lib.c. `json_scan_next` reads the next
character that is not a space and runs the handler that `json_actions` gives
for the scanner's state and the character's class. Handlers recurse: a scalar
value reads on to the next token, and after the end of an object or an array
the character is handed to the row of the structure below it on the stack.
Everything runs on fuel; `none` means the fuel ran out. -/
namespace MariaDB.Json

open MariaDB.Ctype

/-- `JSON_DEPTH_LIMIT`. -/
def jsonDepthLimit : Nat := 32

/-- `enum json_char_classes`. -/
inductive CharClass where
  | eos | lcurb | rcurb | lsqrb | rsqrb | colon | comma | quote | digit | lowF | lowN | lowT
  | etc | err | bad | space
  deriving Repr, DecidableEq

/-- `json_chr_map[]`, for the first 128 code points. -/
def jsonChrMap : List CharClass :=
  [.err, .err, .err, .err, .err, .err, .err, .err,
   .err, .space, .space, .err, .err, .space, .err, .err,
   .err, .err, .err, .err, .err, .err, .err, .err,
   .err, .err, .err, .err, .err, .err, .err, .err,

   .space, .etc, .quote, .etc, .etc, .etc, .etc, .etc,
   .etc, .etc, .etc, .etc, .comma, .digit, .etc, .etc,
   .digit, .digit, .digit, .digit, .digit, .digit, .digit, .digit,
   .digit, .digit, .colon, .etc, .etc, .etc, .etc, .etc,

   .etc, .etc, .etc, .etc, .etc, .etc, .etc, .etc,
   .etc, .etc, .etc, .etc, .etc, .etc, .etc, .etc,
   .etc, .etc, .etc, .etc, .etc, .etc, .etc, .etc,
   .etc, .etc, .etc, .lsqrb, .etc, .rsqrb, .etc, .etc,

   .etc, .etc, .etc, .etc, .etc, .etc, .lowF, .etc,
   .etc, .etc, .etc, .etc, .etc, .etc, .lowN, .etc,
   .etc, .etc, .etc, .etc, .lowT, .etc, .etc, .etc,
   .etc, .etc, .etc, .lcurb, .etc, .rcurb, .etc, .etc]

/-- The class of a character read: the map below 128, `C_ETC` above. -/
def charClass (c : Nat) : CharClass := if c < 128 then jsonChrMap.getD c .etc else .etc

/-- `enum json_states` and `enum json_all_states`. -/
inductive JsonState where
  | value | key | objStart | objEnd | arrayStart | arrayEnd
  | done | objCont | arrayCont | readValue
  deriving Repr, DecidableEq

/-- The handlers of `json_actions[][]`. -/
inductive Handler where
  | unexpectedEos | syntaxError | notJsonChr | badChr | done
  | markObject | markArray | vString | vNumber | vFalse | vNull | vTrue
  | skipKey | skipColon | readKeyname | endObject | endArray | nextKey | nextItem | arrayItem
  | structEndEos | structEndCb | structEndQb | structEndCm
  | readObj | readArray | readStrn | readNum | readFalse | readNull | readTrue
  deriving Repr, DecidableEq

open Handler in
/-- `json_actions[state]`: one handler per class, from `C_EOS` to `C_BAD`. -/
def jsonActionRow : JsonState → List Handler
  | .value => [unexpectedEos, markObject, syntaxError, markArray, syntaxError,
      syntaxError, syntaxError, vString, vNumber, vFalse,
      vNull, vTrue, syntaxError, notJsonChr, badChr]
  | .key => [unexpectedEos, skipKey, skipKey, skipKey, skipKey,
      skipKey, skipKey, skipColon, skipKey, skipKey,
      skipKey, skipKey, skipKey, notJsonChr, badChr]
  | .objStart => [unexpectedEos, syntaxError, endObject, syntaxError, syntaxError,
      syntaxError, syntaxError, readKeyname, syntaxError, syntaxError,
      syntaxError, syntaxError, syntaxError, notJsonChr, badChr]
  | .objEnd => [structEndEos, syntaxError, structEndCb, syntaxError, structEndQb,
      syntaxError, structEndCm, syntaxError, syntaxError, syntaxError,
      syntaxError, syntaxError, syntaxError, notJsonChr, badChr]
  | .arrayStart => [unexpectedEos, arrayItem, syntaxError, arrayItem, endArray,
      syntaxError, syntaxError, arrayItem, arrayItem, arrayItem,
      arrayItem, arrayItem, syntaxError, notJsonChr, badChr]
  | .arrayEnd => [structEndEos, syntaxError, structEndCb, syntaxError, structEndQb,
      syntaxError, structEndCm, syntaxError, syntaxError, syntaxError,
      syntaxError, syntaxError, syntaxError, notJsonChr, badChr]
  | .done => [done, syntaxError, syntaxError, syntaxError, syntaxError,
      syntaxError, syntaxError, syntaxError, syntaxError, syntaxError,
      syntaxError, syntaxError, syntaxError, notJsonChr, badChr]
  | .objCont => [unexpectedEos, syntaxError, endObject, syntaxError, syntaxError,
      syntaxError, nextKey, syntaxError, syntaxError, syntaxError,
      syntaxError, syntaxError, syntaxError, notJsonChr, badChr]
  | .arrayCont => [unexpectedEos, syntaxError, syntaxError, syntaxError, endArray,
      syntaxError, nextItem, syntaxError, syntaxError, syntaxError,
      syntaxError, syntaxError, syntaxError, notJsonChr, badChr]
  | .readValue => [unexpectedEos, readObj, syntaxError, readArray, syntaxError,
      syntaxError, syntaxError, readStrn, readNum, readFalse,
      readNull, readTrue, syntaxError, notJsonChr, badChr]

/-- The column of a class in `json_actions`. Spaces never reach the table. -/
def CharClass.index : CharClass → Nat
  | .eos => 0 | .lcurb => 1 | .rcurb => 2 | .lsqrb => 3 | .rsqrb => 4 | .colon => 5
  | .comma => 6 | .quote => 7 | .digit => 8 | .lowF => 9 | .lowN => 10 | .lowT => 11
  | .etc => 12 | .err => 13 | .bad => 14 | .space => 15

/-- `json_actions[state][t]`. -/
def jsonActions (state : JsonState) (t : CharClass) : Handler :=
  (jsonActionRow state).getD t.index .badChr

/-! ## Numbers -/

/-- `enum json_num_char_classes`. -/
inductive NumClass where
  | minus | plus | zero | digit | point | e | «end» | eend | err
  deriving Repr, DecidableEq

/-- The column of a number class in `json_num_states`. -/
def NumClass.index : NumClass → Nat
  | .minus => 0 | .plus => 1 | .zero => 2 | .digit => 3 | .point => 4 | .e => 5
  | .end => 6 | .eend => 7 | .err => 8

/-- `json_num_chr_map[]`. -/
def jsonNumChrMap : List NumClass :=
  [.err, .err, .err, .err, .err, .err, .err, .err,
   .err, .end, .end, .err, .err, .end, .err, .err,
   .err, .err, .err, .err, .err, .err, .err, .err,
   .err, .err, .err, .err, .err, .err, .err, .err,

   .end, .eend, .eend, .eend, .eend, .eend, .eend, .eend,
   .eend, .eend, .eend, .plus, .end, .minus, .point, .eend,
   .zero, .digit, .digit, .digit, .digit, .digit, .digit, .digit,
   .digit, .digit, .eend, .eend, .eend, .eend, .eend, .eend,

   .eend, .eend, .eend, .eend, .eend, .e, .eend, .eend,
   .eend, .eend, .eend, .eend, .eend, .eend, .eend, .eend,
   .eend, .eend, .eend, .eend, .eend, .eend, .eend, .eend,
   .eend, .eend, .eend, .eend, .eend, .end, .eend, .eend,

   .eend, .eend, .eend, .eend, .eend, .e, .eend, .eend,
   .eend, .eend, .eend, .eend, .eend, .eend, .eend, .eend,
   .eend, .eend, .eend, .eend, .eend, .eend, .eend, .eend,
   .eend, .eend, .eend, .eend, .eend, .end, .eend, .eend]

/-- `NS_OK` .. `NS_EX1`. -/
def nsOk : Int := 0
def nsGo : Int := 1
def nsGo1 : Int := 2
def nsZ : Int := 3
def nsZ1 : Int := 4
def nsInt : Int := 5
def nsFrac : Int := 6
def nsEx : Int := 7
def nsEx1 : Int := 8

/-- `json_num_states[][]` as the source initialises it: eight entries a row for
nine classes, so the `N_ERR` column is the zero that C fills in, `NS_OK`. -/
def jsonNumStatesTable : List (List Int) :=
  [[jeSyn, jeSyn, jeSyn, jeSyn, jeSyn, jeSyn, jeSyn, jeBadChr],
   [nsGo1, jeSyn, nsZ, nsInt, jeSyn, jeSyn, jeSyn, jeBadChr],
   [jeSyn, jeSyn, nsZ1, nsInt, jeSyn, jeSyn, jeSyn, jeBadChr],
   [jeSyn, jeSyn, jeSyn, jeSyn, nsFrac, nsEx, nsOk, jeBadChr],
   [jeSyn, jeSyn, jeSyn, jeSyn, nsFrac, nsEx, nsOk, jeBadChr],
   [jeSyn, jeSyn, nsInt, nsInt, nsFrac, nsEx, nsOk, jeBadChr],
   [jeSyn, jeSyn, nsFrac, nsFrac, jeSyn, nsEx, nsOk, jeBadChr],
   [nsEx, nsEx, nsEx1, nsEx1, jeSyn, jeSyn, jeSyn, jeBadChr],
   [jeSyn, jeSyn, nsEx1, nsEx1, jeSyn, jeSyn, nsOk, jeBadChr]]

/-- `json_num_states[state][cls]`. -/
def jsonNumStates (state : Int) (cls : NumClass) : Int :=
  (jsonNumStatesTable.getD state.toNat []).getD cls.index 0

/-- `json_num_chr_map[c]` for an ASCII `c`. -/
def numClass (c : Nat) : NumClass := jsonNumChrMap.getD c .err

/-! ## The engine -/

/-- `json_engine_t`, with the fields that scanning reads. `stack` holds
`stack[0..stack_p]`, its last element `stack[stack_p]`. -/
structure JsonEngine where
  s : JsonString
  savCLen : Int
  state : JsonState
  stack : List JsonState
  deriving Repr, DecidableEq

/-- `j->stack[j->stack_p]`. -/
def JsonEngine.top (j : JsonEngine) : JsonState := j.stack.getLastD .done

/-- `j->s.error= e`. -/
def JsonEngine.setError (j : JsonEngine) (e : Int) : JsonEngine := { j with s := j.s.setError e }

/-- `json_scan_start`. -/
def jsonScanStart (str : List UInt8) : JsonEngine :=
  { s := JsonString.setup str, savCLen := 0, state := .value, stack := [.done] }

/-- `mark_object`, `read_obj`, `mark_array` and `read_array`: enter a structure,
pushing `cont` unless the stack is full. -/
def JsonEngine.enter (j : JsonEngine) (start cont : JsonState) : Int × JsonEngine :=
  let j := { j with state := start }
  if j.stack.length < jsonDepthLimit then (0, { j with stack := j.stack ++ [cont] })
  else (1, j.setError jeDepth)

section Scanning

variable (cs : CharsetInfo)

/-- `get_first_nonspace`: the class of the next character that is not a
space, and its length. -/
def getFirstNonspace : Nat → JsonString → Option (CharClass × Int × JsonString)
  | 0, _ => none
  | fuel + 1, js =>
    let js := js.nextChar cs
    let cLen := js.cNextLen
    if cLen ≤ 0 then some (if js.eos then .eos else .bad, cLen, js)
    else
      let t := charClass js.cNext
      let js := js.advance cLen
      if t = .space then getFirstNonspace fuel js else some (t, cLen, js)

/-- `skip_string_verbatim`: the rest of `false`, `null` or `true`. -/
def skipStringVerbatim : List Char → JsonString → Int × JsonString
  | [], s => (0, s)
  | c :: cs', s =>
    let s := s.nextChar cs
    if 0 < s.cNextLen then
      if s.cNext = c.toNat then skipStringVerbatim cs' (s.advance s.cNextLen)
      else (jeSyn, s.setError jeSyn)
    else (s.readError, s.setError s.readError)

/-- The loop of `skip_num_constant` in number state `state`. The number ends
at the first character that cannot go on, which is left for the scanner. -/
def skipNumConstantLoop : Nat → Int → JsonEngine → Option (Int × JsonEngine)
  | 0, _, _ => none
  | fuel + 1, state, j =>
    let s := j.s.nextChar cs
    let j := { j with s := s }
    if 0 < s.cNextLen ∧ s.cNext < 128 then
      let next := jsonNumStates state (numClass s.cNext)
      if 0 < next then skipNumConstantLoop fuel next { j with s := s.advance s.cNextLen }
      else some (0, { j with state := j.top })
    else
      -- at the end of the text the state must accept; a character above 127 is bad
      let e := if s.eos then jsonNumStates state .end else jeBadChr
      let j := j.setError e
      if e < 0 then some (1, j) else some (0, { j with state := j.top })

/-- `skip_num_constant`, the first character of the number already read. -/
def skipNumConstant (fuel : Nat) (j : JsonEngine) : Option (Int × JsonEngine) :=
  skipNumConstantLoop cs fuel (jsonNumStates nsGo (numClass j.s.cNext)) j

/-- `skip_str_constant`, after the opening quote. -/
def skipStrConstant : Nat → JsonEngine → Option (Int × JsonEngine)
  | 0, _ => none
  | fuel + 1, j =>
    let s := j.s.nextChar cs
    if 0 < s.cNextLen then
      let s := s.advance s.cNextLen
      if 128 ≤ s.cNext ∨ instrClass s.cNext ≤ sEtc then skipStrConstant fuel { j with s := s }
      else if s.cNext = '"'.toNat then some (0, { j with s := s, state := j.top })
      else if s.cNext = '\\'.toNat then
        let (r, s) := jsonHandleEsc cs s
        if r ≠ 0 then some (1, { j with s := s }) else skipStrConstant fuel { j with s := s }
      else some (jeNotJsonChr, { j with s := s.setError jeNotJsonChr })
    else some (s.readError, { j with s := s.setError s.readError })

/-- The loop after a closing quote in `json_read_keyname_chr`: spaces up to the
colon. -/
def skipToColon : Nat → JsonEngine → Option (Int × JsonEngine)
  | 0, _ => none
  | fuel + 1, j =>
    let s := j.s.nextChar cs
    if 0 < s.cNextLen then
      if s.cNext = ':'.toNat then some (1, { j with s := s.advance s.cNextLen, state := .value })
      else if s.cNext < 128 ∧ charClass s.cNext = .space then
        skipToColon fuel { j with s := s.advance s.cNextLen }
      else some (1, { j with s := s.setError jeSyn })
    else some (1, { j with s := s.setError s.readError })

/-- `json_read_keyname_chr`: one character of a key name; `1` at its end or at
an error. -/
def jsonReadKeynameChr (fuel : Nat) (j : JsonEngine) : Option (Int × JsonEngine) :=
  let s := j.s.nextChar cs
  if 0 < s.cNextLen then
    let cLen := s.cNextLen
    let s := s.advance cLen
    let j := { j with s := s }
    if 128 ≤ s.cNext ∨ instrClass s.cNext ≤ sEtc then some (0, j)
    else if instrClass s.cNext = sQuote then skipToColon cs fuel j
    else if instrClass s.cNext = sBksl then
      let (r, s) := jsonHandleEsc cs s
      some (r, { j with s := s })
    else if instrClass s.cNext = sErr then
      some (1, { j with s := { s with cStr := s.cStr - cLen.toNat, error := jeStringConst } })
    else some (1, { j with s := s.setError s.readError })
  else some (1, { j with s := s.setError s.readError })

/-- `while (json_read_keyname_chr(j) == 0) {}`. -/
def readKeyname : Nat → JsonEngine → Option JsonEngine
  | 0, _ => none
  | fuel + 1, j => do
    let (r, j) ← jsonReadKeynameChr cs fuel j
    if r = 0 then readKeyname fuel j else some j

mutual

/-- `json_scan_next`. -/
def jsonScanNext : Nat → JsonEngine → Option (Int × JsonEngine)
  | 0, _ => none
  | fuel + 1, j => do
    let (t, cLen, s) ← getFirstNonspace cs fuel j.s
    let (r, j) ← runHandler fuel (jsonActions j.state t) { j with s := s, savCLen := cLen }
    some (if r ≠ 0 then 1 else 0, j)

/-- The handler `h` of `json_actions`. -/
def runHandler : Nat → Handler → JsonEngine → Option (Int × JsonEngine)
  | 0, _, _ => none
  | fuel + 1, h, j =>
    match h with
    | .unexpectedEos => some (1, j.setError jeEos)
    | .syntaxError => some (1, j.setError jeSyn)
    | .notJsonChr => some (1, j.setError jeNotJsonChr)
    | .badChr => some (1, j.setError jeBadChr)
    | .done => some (1, j)
    | .markObject => some (j.enter .objStart .objCont)
    | .readObj => some (j.enter .objStart .objCont)
    | .markArray => some (j.enter .arrayStart .arrayCont)
    | .readArray => some (j.enter .arrayStart .arrayCont)
    | .vString => do
      let (r, j) ← skipStrConstant cs fuel j
      if r ≠ 0 then some (1, j)
      else do
        let (r, j) ← jsonScanNext fuel j
        some (if r ≠ 0 then 1 else 0, j)
    | .vNumber => do
      let (r, j) ← skipNumConstant cs fuel j
      if r ≠ 0 then some (1, j)
      else do
        let (r, j) ← jsonScanNext fuel j
        some (if r ≠ 0 then 1 else 0, j)
    | .vFalse => scalarLiteral fuel ['a', 'l', 's', 'e'] j
    | .vNull => scalarLiteral fuel ['u', 'l', 'l'] j
    | .vTrue => scalarLiteral fuel ['r', 'u', 'e'] j
    | .readFalse =>
      let (r, s) := skipStringVerbatim cs ['a', 'l', 's', 'e'] j.s
      some (r, { j with s := s, state := j.top })
    | .readNull =>
      let (r, s) := skipStringVerbatim cs ['u', 'l', 'l'] j.s
      some (r, { j with s := s, state := j.top })
    | .readTrue =>
      let (r, s) := skipStringVerbatim cs ['r', 'u', 'e'] j.s
      some (r, { j with s := s, state := j.top })
    | .readStrn => do
      let (r, j) ← skipStrConstant cs fuel j
      if r ≠ 0 then some (1, j) else some (0, { j with state := j.top })
    | .readNum => do
      let (r, j) ← skipNumConstant cs fuel j
      some (if r = 0 then 0 else 1, j)
    | .skipColon => do
      let (t, _, s) ← getFirstNonspace cs fuel j.s
      let j := { j with s := s }
      if t = .colon then do
        let (t, _, s) ← getFirstNonspace cs fuel j.s
        runHandler fuel (jsonActions .value t) { j with s := s }
      else some (1, j.setError (if t = .eos then jeEos else if t = .bad then jeBadChr else jeSyn))
    | .skipKey => do
      -- the first character of the key is already read: an escape is decoded here
      let (r, s) := if j.s.cNext < 128 ∧ instrClass j.s.cNext = sBksl then jsonHandleEsc cs j.s
        else (0, j.s)
      if r ≠ 0 then some (1, { j with s := s })
      else do
        let j ← readKeyname cs fuel { j with s := s }
        if j.s.error ≠ 0 then some (1, j)
        else do
          let (t, _, s) ← getFirstNonspace cs fuel j.s
          runHandler fuel (jsonActions .value t) { j with s := s }
    | .readKeyname => some (0, { j with state := .key })
    | .endObject => some (0, { j with stack := j.stack.dropLast, state := .objEnd })
    | .endArray => some (0, { j with stack := j.stack.dropLast, state := .arrayEnd })
    | .nextKey => do
      let (t, _, s) ← getFirstNonspace cs fuel j.s
      let j := { j with s := s }
      if t = .quote then some (0, { j with state := .key })
      else some (1, j.setError (if t = .eos then jeEos else if t = .bad then jeBadChr else jeSyn))
    | .nextItem => some (0, { j with state := .value })
    | .arrayItem =>
      some (0, { j with state := .value, s := { j.s with cStr := j.s.cStr - j.savCLen.toNat } })
    | .structEndEos => runHandler fuel (jsonActions j.top .eos) j
    | .structEndCb => runHandler fuel (jsonActions j.top .rcurb) j
    | .structEndQb => runHandler fuel (jsonActions j.top .rsqrb) j
    | .structEndCm => runHandler fuel (jsonActions j.top .comma) j

/-- `v_false`, `v_null` and `v_true`: the rest of the literal, then the next
token. -/
def scalarLiteral : Nat → List Char → JsonEngine → Option (Int × JsonEngine)
  | 0, _, _ => none
  | fuel + 1, rest, j =>
    let (r, s) := skipStringVerbatim cs rest j.s
    if r ≠ 0 then some (1, { j with s := s })
    else jsonScanNext fuel { j with s := s, state := j.top }

end

/-- `while (json_scan_next(&je) == 0) ;`. -/
def jsonScanLoop : Nat → JsonEngine → Option JsonEngine
  | 0, _ => none
  | fuel + 1, j => do
    let (r, j) ← jsonScanNext cs fuel j
    if r = 0 then jsonScanLoop fuel j else some j

/-- `json_valid(js, js_len, cs)`: whether the scan stops with no error. -/
def jsonValid (js : List UInt8) (fuel : Nat) : Option Bool := do
  let j ← jsonScanLoop cs fuel (jsonScanStart js)
  pure (j.s.error = 0)

end Scanning

end MariaDB.Json
