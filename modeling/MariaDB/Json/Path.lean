import Mathlib.Algebra.Group.Nat.Defs
import MariaDB.Json.Scanner

set_option autoImplicit false

/- The JSON path parser of strings/json_lib.c. `json_path_setup` reads a path
one character at a time; `json_path_chr_map` gives the character's class and
`json_path_transitions` the next state, or an error code when it is negative.
The `switch` that follows builds the steps: a key or an array step is added
when its `.` or `[` is read, and digits are folded into the index of the last
step. Keys are kept as offsets into the path.

Two rows of data decide more than they seem to. The class `P_S`, which starts
`strict`, is on `r` and `R`, while `s` is `P_ETC`. The row of `PS_AS` has 17
entries for 18 classes, so from `P_S` on its entries are one class early and
C fills the last one, for `P_BAD`, with 0: `PS_GO`. After a bad character there
`c_str` moves by the negative length `mb_wc` returned, back into the path or
before it. -/
namespace MariaDB.Json

open MariaDB.Ctype

/-! ## Character classes, states and step types -/

/-- `enum json_path_chr_classes`. -/
inductive PathChrClass where
  | eos | usd | aster | lsqrb | t | rsqrb | point | neg | zero | digit | l | s | space | bksl | quote
  | etc | err | bad
  deriving Repr, DecidableEq

/-- The column of a class in `json_path_transitions`. -/
def PathChrClass.index : PathChrClass → Nat
  | .eos => 0 | .usd => 1 | .aster => 2 | .lsqrb => 3 | .t => 4 | .rsqrb => 5 | .point => 6
  | .neg => 7 | .zero => 8 | .digit => 9 | .l => 10 | .s => 11 | .space => 12 | .bksl => 13
  | .quote => 14 | .etc => 15 | .err => 16 | .bad => 17

/-- `json_path_chr_map[]`. -/
def jsonPathChrMap : List PathChrClass :=
  [.err, .err, .err, .err, .err, .err, .err, .err,
   .err, .space, .space, .err, .err, .space, .err, .err,
   .err, .err, .err, .err, .err, .err, .err, .err,
   .err, .err, .err, .err, .err, .err, .err, .err,

   .space, .etc, .quote, .etc, .usd, .etc, .etc, .etc,
   .etc, .etc, .aster, .etc, .etc, .neg, .point, .etc,
   .zero, .digit, .digit, .digit, .digit, .digit, .digit, .digit,
   .digit, .digit, .etc, .etc, .etc, .etc, .etc, .etc,

   .etc, .etc, .etc, .etc, .etc, .etc, .etc, .etc,
   .etc, .etc, .etc, .etc, .l, .etc, .etc, .etc,
   .etc, .etc, .s, .etc, .t, .etc, .etc, .etc,
   .etc, .etc, .etc, .lsqrb, .bksl, .rsqrb, .etc, .etc,

   .etc, .etc, .etc, .etc, .etc, .etc, .etc, .etc,
   .etc, .etc, .etc, .etc, .l, .etc, .etc, .etc,
   .etc, .etc, .s, .etc, .t, .etc, .etc, .etc,
   .etc, .etc, .etc, .etc, .etc, .etc, .etc, .etc]

/-- The class of a character read: the map below 128, `P_ETC` above. -/
def pathChrClass (c : Nat) : PathChrClass := if c ≥ 128 then .etc else jsonPathChrMap.getD c .etc

-- `enum json_path_states`: the rows of the table, then the states the
-- `switch` leaves at once
def psGo : Int := 0
def psLax : Int := 1
def psPt : Int := 2
def psAr : Int := 3
def psSar : Int := 4
def psAwd : Int := 5
def psNeg : Int := 6
def psZ : Int := 7
def psInt : Int := 8
def psAs : Int := 9
def psKey : Int := 10
def psKnm : Int := 11
def psKwd : Int := 12
def psAst : Int := 13
def psDwd : Int := 14
def psKeyx : Int := 15
def psKnmx : Int := 16
def psLast : Int := 17
def psT : Int := 18
def psSct : Int := 20
def psEky : Int := 21
def psEkyx : Int := 22
def psEar : Int := 23
def psEsc : Int := 24
def psEscx : Int := 25
def psOk : Int := 26
def psKok : Int := 27

/-- `json_path_transitions`, one row per state from `PS_GO` to `PS_T`, one
entry per class from `P_EOS` to `P_BAD`; the row of `PS_AS` as the source
has it, with 17 entries. -/
def jsonPathTransitions : List (List Int) :=
  [[jeEos, psPt, jeSyn, jeSyn, jeSyn, jeSyn, jeSyn, jeSyn,
    jeSyn, jeSyn, psLax, psSct, psGo, jeSyn, jeSyn, jeSyn,
    jeNotJsonChr, jeBadChr],
   [jeEos, jeSyn, jeSyn, jeSyn, jeSyn, jeSyn, jeSyn, jeSyn,
    jeSyn, jeSyn, psLax, jeSyn, psGo, jeSyn, jeSyn, jeSyn,
    jeNotJsonChr, jeBadChr],
   [psOk, jeSyn, psAst, psAr, jeSyn, jeSyn, psKey, jeSyn,
    jeSyn, jeSyn, jeSyn, jeSyn, jeSyn, jeSyn, jeSyn, jeSyn,
    jeNotJsonChr, jeBadChr],
   [jeEos, jeSyn, psAwd, jeSyn, jeSyn, jeSyn, jeSyn, psNeg,
    psZ, psInt, psLast, jeSyn, psSar, jeSyn, jeSyn, jeSyn,
    jeNotJsonChr, jeBadChr],
   [jeEos, jeSyn, psAwd, jeSyn, jeSyn, psPt, jeSyn, jeSyn,
    psZ, psInt, psLast, jeSyn, psSar, jeSyn, jeSyn, jeSyn,
    jeNotJsonChr, jeBadChr],
   [jeEos, jeSyn, jeSyn, jeSyn, jeSyn, psPt, jeSyn, jeSyn,
    jeSyn, jeSyn, jeSyn, jeSyn, psAs, jeSyn, jeSyn, jeSyn,
    jeNotJsonChr, jeBadChr],
   [jeEos, jeSyn, jeSyn, jeSyn, jeSyn, jeSyn, jeSyn, jeSyn,
    psInt, psInt, jeSyn, jeSyn, jeSyn, jeSyn, jeSyn, jeSyn,
    jeNotJsonChr, jeBadChr],
   [jeEos, jeSyn, jeSyn, jeSyn, jeSyn, psPt, jeSyn, jeSyn,
    jeSyn, jeSyn, jeSyn, jeSyn, psAs, jeSyn, jeSyn, jeSyn,
    jeNotJsonChr, jeBadChr],
   [jeEos, jeSyn, jeSyn, jeSyn, jeSyn, psPt, jeSyn, jeSyn,
    psInt, psInt, jeSyn, jeSyn, psAs, jeSyn, jeSyn, jeSyn,
    jeNotJsonChr, jeBadChr],
   [jeEos, jeSyn, jeSyn, jeSyn, psT, psPt, jeSyn, psNeg,
    psZ, psInt, psLast, psAs, jeSyn, jeSyn, jeSyn,
    jeNotJsonChr, jeBadChr],
   [jeEos, psKnm, psKwd, jeSyn, psKnm, psKnm, jeSyn, psKnm,
    psKnm, psKnm, psKnm, psKnm, psKnm, jeSyn, psKeyx, psKnm,
    jeNotJsonChr, jeBadChr],
   [psKok, psKnm, psAst, psEar, psKnm, psKnm, psEky, psKnm,
    psKnm, psKnm, psKnm, psKnm, psKnm, psEsc, psKnm, psKnm,
    jeNotJsonChr, jeBadChr],
   [psOk, jeSyn, jeSyn, psAr, jeSyn, jeSyn, psEky, jeSyn,
    jeSyn, jeSyn, jeSyn, jeSyn, jeSyn, jeSyn, jeSyn, jeSyn,
    jeNotJsonChr, jeBadChr],
   [jeSyn, jeSyn, psDwd, jeSyn, jeSyn, jeSyn, jeSyn, jeSyn,
    jeSyn, jeSyn, jeSyn, jeSyn, jeSyn, jeSyn, jeSyn, jeSyn,
    jeNotJsonChr, jeBadChr],
   [jeSyn, jeSyn, psAst, psAr, jeSyn, jeSyn, psKey, jeSyn,
    jeSyn, jeSyn, jeSyn, jeSyn, jeSyn, jeSyn, jeSyn, jeSyn,
    jeNotJsonChr, jeBadChr],
   [jeEos, psKnmx, psKnmx, psKnmx, psKnmx, psKnmx, psKnmx, jeSyn,
    psKnmx, psKnmx, psKnmx, psKnmx, psKnmx, psEscx, psEkyx, psKnmx,
    jeNotJsonChr, jeBadChr],
   [jeEos, psKnmx, psKnmx, psKnmx, psKnmx, psKnmx, psKnmx, psKnmx,
    psKnmx, psKnmx, psKnmx, psKnmx, psKnmx, psEscx, psEkyx, psKnmx,
    jeNotJsonChr, jeBadChr],
   [jeSyn, jeSyn, jeSyn, jeSyn, jeSyn, psPt, jeSyn, psNeg,
    jeSyn, jeSyn, jeSyn, jeSyn, psAs, jeSyn, jeSyn, jeSyn,
    jeSyn, jeBadChr],
   [jeSyn, jeSyn, jeSyn, jeSyn, jeSyn, psPt, jeSyn, psNeg,
    jeSyn, jeSyn, jeSyn, jeSyn, psAs, jeSyn, jeSyn, jeSyn,
    jeSyn, jeBadChr]]

/-- `json_path_transitions[state][t]`; an entry the initializer does not give
is 0. -/
def pathTransition (state : Int) (cls : PathChrClass) : Int :=
  (jsonPathTransitions.getD state.toNat []).getD cls.index 0

-- `enum json_path_step_types`, the bits of a step's type
def jsonPathKeyNull : Nat := 0
def jsonPathKey : Nat := 1
def jsonPathArray : Nat := 2
def jsonPathWild : Nat := 4
def jsonPathDoubleWild : Nat := 8
def jsonPathArrayWild : Nat := 6
def jsonPathNegativeIndex : Nat := 16
def jsonPathArrayRange : Nat := 32

/-- An `int` result: the value modulo `2^32`, in `[-2^31, 2^31)`. -/
def wrapInt (x : Int) : Int := x.bmod (2 ^ 32)

/-! ## The path -/

/-- `json_path_step_t`, with `key` and `key_end` as offsets into the path.
A field `json_path_setup` does not set for a step is 0 here. -/
structure PathStep where
  type : Nat
  key : Nat
  keyEnd : Nat
  nItem : Int
  nItemEnd : Int
  deriving Repr, DecidableEq, Inhabited

/-- `json_path_t`: of its string the offset `c_str` (which the last read may
leave before the start), the last character and the error; the steps from
`steps[0]` to `last_step`; `mode_strict` and `types_used`. -/
structure JsonPath where
  cStr : Int
  cNext : Nat
  error : Int
  steps : List PathStep
  modeStrict : Bool
  typesUsed : Nat
  deriving Repr, DecidableEq

/-- The locals of `json_path_setup`. -/
structure PathSetupLocals where
  state : Int
  isNegativeIndex : Bool
  isLast : Bool
  prevValue : Int
  isTo : Bool
  doubleWildcard : Nat
  deriving Repr, DecidableEq

/-- `p->last_step->... = ...`. -/
def JsonPath.setLast (p : JsonPath) (f : PathStep → PathStep) : JsonPath :=
  { p with steps := p.steps.modifyLast f }

/-- `*last_step`. -/
def JsonPath.last (p : JsonPath) : PathStep := p.steps.getLastD default

/-- `p->s` over the path `str`. -/
def JsonPath.string (str : List UInt8) (p : JsonPath) : JsonString :=
  ⟨str, p.cStr.toNat, p.cNext, 0, p.error⟩

/-- The string fields after a call that read `p->s`. -/
def JsonPath.read (p : JsonPath) (s : JsonString) : JsonPath :=
  { p with cStr := s.cStr, cNext := s.cNext, error := s.error }

/-! ## `json_path_setup` -/

section Setup

variable (cs : CharsetInfo) (str : List UInt8)

/-- `case PS_KEY:` on to `case PS_KEYX:`, and `case PS_AR:`: a new last step
of type `type`, or `JE_DEPTH` past `JSON_DEPTH_LIMIT` steps. -/
def pathNewStep (p : JsonPath) (l : PathSetupLocals) (type : Nat) :
    Except (Int × JsonPath) (JsonPath × PathSetupLocals) :=
  let p := { p with steps := p.steps ++ [default] }
  let l := { l with isTo := false, prevValue := 0, isNegativeIndex := false, isLast := false }
  if p.steps.length - 1 ≥ jsonDepthLimit then .error (jeDepth, { p with error := jeDepth })
  else
    let type := type ||| l.doubleWildcard
    .ok ({ p.setLast fun st => { st with type } with typesUsed := p.typesUsed ||| type },
      { l with doubleWildcard := jsonPathKeyNull })

/-- `case PS_KEY:` and `case PS_KEYX:`: the key starts after the character
read. -/
def pathKeyStep (p : JsonPath) (l : PathSetupLocals) :
    Except (Int × JsonPath) (JsonPath × PathSetupLocals) :=
  match pathNewStep p l jsonPathKey with
  | .ok (p, l) => .ok (p.setLast fun st => { st with key := p.cStr.toNat }, l)
  | .error r => .error r

/-- `case PS_AR:`. -/
def pathArrayStep (p : JsonPath) (l : PathSetupLocals) :
    Except (Int × JsonPath) (JsonPath × PathSetupLocals) :=
  match pathNewStep p l jsonPathArray with
  | .ok (p, l) => .ok (p.setLast fun st => { st with nItem := 0 }, l)
  | .error r => .error r

/-- `case PS_INT:`: a digit folded into `n_item`, or into `n_item_end` after
`to`; after `last` the index is `-1` less the digits read. -/
def pathDigit (p : JsonPath) (l : PathSetupLocals) : JsonPath × PathSetupLocals :=
  let digit : Int := p.cNext - '0'.toNat
  let set (v : Int) : JsonPath :=
    p.setLast fun st => if l.isTo then { st with nItemEnd := v } else { st with nItem := v }
  if l.isLast then
    let prevValue := wrapInt (wrapInt (l.prevValue * 10) - digit)
    (set (wrapInt (-1 + prevValue)), { l with prevValue })
  else
    let cur := wrapInt ((if l.isTo then p.last.nItemEnd else p.last.nItem) * 10)
    (set (wrapInt (if l.isNegativeIndex then cur - digit else cur + digit)), l)

/-- The `switch` of `json_path_setup` for the state `l.state` just entered,
`c_str` already past the character read, which was `cLen` long: `.error` for a
`return` from inside the loop, with the value returned. -/
def pathSetupAction (p : JsonPath) (l : PathSetupLocals) (cLen : Int) :
    Except (Int × JsonPath) (JsonPath × PathSetupLocals) :=
  let state := l.state
  if state = psLax then
    let (err, s) := skipStringVerbatim cs "ax".toList (p.string str)
    if err ≠ 0 then .error (1, p.read s) else .ok ({ p.read s with modeStrict := false }, l)
  else if state = psSct then
    let (err, s) := skipStringVerbatim cs "rict".toList (p.string str)
    if err ≠ 0 then .error (1, p.read s)
    else .ok ({ p.read s with modeStrict := true }, { l with state := psLax })
  else if state = psKwd ∨ state = psAwd then
    .ok ({ p.setLast fun st => { st with type := st.type ||| jsonPathWild } with
      typesUsed := p.typesUsed ||| jsonPathWild }, l)
  else if state = psInt then .ok (pathDigit p l)
  else if state = psEkyx then
    .ok (p.setLast fun st => { st with keyEnd := (p.cStr - cLen).toNat }, { l with state := psPt })
  else if state = psEky then
    pathKeyStep (p.setLast fun st => { st with keyEnd := (p.cStr - cLen).toNat }) { l with state := psKey }
  else if state = psKey then pathKeyStep p l
  else if state = psKeyx then .ok (p.setLast fun st => { st with key := p.cStr.toNat }, l)
  else if state = psEar then
    pathArrayStep (p.setLast fun st => { st with keyEnd := (p.cStr - cLen).toNat }) { l with state := psAr }
  else if state = psAr then pathArrayStep p l
  else if state = psEsc ∨ state = psEscx then
    let (err, s) := jsonHandleEsc cs (p.string str)
    if err ≠ 0 then .error (1, p.read s)
    else .ok (p.read s, { l with state := if state = psEsc then psKnm else psKnmx })
  else if state = psKok then
    .ok (p.setLast fun st => { st with keyEnd := (p.cStr - cLen).toNat }, { l with state := psOk })
  else if state = psDwd then .ok (p, { l with doubleWildcard := jsonPathDoubleWild })
  else if state = psNeg then
    .ok ({ p with typesUsed := p.typesUsed ||| jsonPathNegativeIndex }, { l with isNegativeIndex := true })
  else if state = psLast then
    let (err, s) := skipStringVerbatim cs "ast".toList (p.string str)
    if err ≠ 0 then .error (1, p.read s)
    else
      let p := { p.read s with typesUsed := p.typesUsed ||| jsonPathNegativeIndex }
      .ok (p.setLast fun st => if l.isTo then { st with nItemEnd := -1 } else { st with nItem := -1 },
        { l with isLast := true })
  else if state = psT then
    let (err, s) := skipStringVerbatim cs "o".toList (p.string str)
    if err ≠ 0 then .error (1, p.read s)
    else
      let p := (p.read s).setLast fun st =>
        { st with nItemEnd := 0, type := st.type ||| jsonPathArrayRange }
      .ok ({ p with typesUsed := p.typesUsed ||| jsonPathArrayRange },
        { l with isTo := true, isNegativeIndex := false, isLast := false, prevValue := 0 })
  else .ok (p, l)

/-- The `do ... while (state != PS_OK)` loop of `json_path_setup`. A read at
an offset below 0, where a step back over a bad character has taken `c_str`
before the path, is `none`, as is running out of fuel. -/
def jsonPathSetupLoop : Nat → JsonPath × PathSetupLocals → Option (Int × JsonPath)
  | 0, _ => none
  | fuel + 1, (p, l) =>
    if p.cStr < 0 then none
    else
      let s := (p.string str).nextChar cs
      let cLen := s.cNextLen
      let tNext := if cLen ≤ 0 then (if s.eos then PathChrClass.eos else .bad) else pathChrClass s.cNext
      let state := pathTransition l.state tNext
      if state < 0 then some (state, { p with cNext := s.cNext, error := state })
      else
        match pathSetupAction cs str { p with cStr := p.cStr + cLen, cNext := s.cNext }
            { l with state } cLen with
        | .error r => some r
        | .ok (p, l) =>
          if l.state = psOk then
            if l.doubleWildcard ≠ jsonPathKeyNull then some (jeSyn, { p with error := jeSyn })
            else some (0, p)
          else jsonPathSetupLoop fuel (p, l)

/-- `json_path_setup(p, cs, str, end)`: the value returned and the path. Each
pass reads on, but for the step back over a bad character in `PS_AS`, which
starts the path again in `PS_GO`; reaching `PS_AS` again takes a new array
step, so after `JSON_DEPTH_LIMIT` rounds of at most one pass a byte the
path is at `JE_DEPTH`. -/
def jsonPathSetup : Option (Int × JsonPath) :=
  jsonPathSetupLoop cs str ((str.length + 2) * (jsonDepthLimit + 2))
    ({ cStr := 0, cNext := 0, error := 0, steps := [{ (default : PathStep) with type := jsonPathArrayWild }],
       modeStrict := false, typesUsed := jsonPathKeyNull },
     { state := psGo, isNegativeIndex := false, isLast := false, prevValue := 0, isTo := false,
       doubleWildcard := jsonPathKeyNull })

end Setup

/-! ## Paths the table gets wrong -/

/-- Four paths where the data of the tables decides, read in utf8mb4.
`strict $.a` fails with `JE_SYN` at its `s`, which is `P_ETC`, and
`rrict $.a` is read as a strict path. Of the two spaces in `$[1  ]` the second
is refused, and in `$[1 r]` the `r` is passed over as a space. After 99 spaces,
`$[1 ` and the first two bytes of a three-byte character, `c_str` moves 103
bytes back to the start and the path is read again, each time with one more
array step, until `JE_DEPTH`; `JE_BAD_CHR` is never returned. -/
theorem jsonPathSetup_misreads :
    (jsonPathSetup utf8mb4 "strict $.a".toUTF8.toList).map Prod.fst = some jeSyn ∧
      (jsonPathSetup utf8mb4 "rrict $.a".toUTF8.toList).map (fun r => (r.1, r.2.modeStrict)) =
        some (0, true) ∧
      (jsonPathSetup utf8mb4 "$[1  ]".toUTF8.toList).map Prod.fst = some jeSyn ∧
      (jsonPathSetup utf8mb4 "$[1 r]".toUTF8.toList).map (fun r => (r.1, r.2.steps.length, r.2.last.nItem)) =
        some (0, 2, 1) ∧
      (jsonPathSetup utf8mb4 (List.replicate 99 32 ++ "$[1 ".toUTF8.toList ++ [0xE2, 0x82])).map Prod.fst =
        some jeDepth := by
  refine ⟨?_, ?_, ?_, ?_, ?_⟩ <;> decide +kernel

end MariaDB.Json
