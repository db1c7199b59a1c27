import Mathlib.Algebra.Order.Ring.Nat
import Mathlib.Data.List.Basic
import MariaDB.Json.Path

set_option autoImplicit false

/- The path search of strings/json_lib.c. `json_find_path` runs the scanner
over the document and keeps, beside the engine, the step of the path it is at
and one counter per step: the number of the next array item, or
`SKIPPED_STEP_MARK` for a `[0]` step passed over at an object. A matching key
or item goes to `handle_match`, which reads the value and either stops (the
step was the last, or the value is a scalar or an object under trailing `[0]`
steps) or moves to the next step, starting its counter at 0, or at minus the
array's size when its first index counts from the end.

That start is chosen on `n_item` alone. A range `[a to b]` whose ends count
from different sides is then compared with counters of one side only:
`[1 to last]` selects nothing, and `[-3 to 0]` every item from the third last
on. -/
namespace MariaDB.Json

open MariaDB.Ctype

/-! ## The engine as the search reads it -/

-- `enum json_value_types`
def jsonValueUninitialized : Nat := 0
def jsonValueObject : Nat := 1
def jsonValueArray : Nat := 2
def jsonValueString : Nat := 3
def jsonValueNumber : Nat := 4
def jsonValueTrue : Nat := 5
def jsonValueFalse : Nat := 6
def jsonValueNull : Nat := 7

/-- `JSON_PATH_KEY_OR_ARRAY`. -/
def jsonPathKeyOrArray : Nat := 3

/-- `SKIPPED_STEP_MARK`, which is `INT_MAX32`. -/
def skippedStepMark : Int := 2 ^ 31 - 1

/-- `json_engine_t` with the two fields of the value just read, which
`json_read_value` sets and `handle_match` reads. -/
structure FindEngine where
  scan : JsonEngine
  valueType : Nat
  valueBegin : Int
  deriving Repr, DecidableEq

/-- `j->stack_p`. -/
def JsonEngine.stackP (j : JsonEngine) : Nat := j.stack.length - 1

/-- `json_value_scalar(je)`. -/
def FindEngine.scalar (j : FindEngine) : Bool := j.valueType > jsonValueArray

/-- `je->s.c_str= je->value_begin`: the scanner goes back to the start of the
value. -/
def FindEngine.rewind (j : FindEngine) : FindEngine :=
  { j with scan := { j.scan with s := { j.scan.s with cStr := j.valueBegin.toNat } } }

/-- The `value_type` that each handler of the `JST_READ_VALUE` row sets. -/
def readValueType : Handler → Nat
  | .readObj => jsonValueObject
  | .readArray => jsonValueArray
  | .readStrn => jsonValueString
  | .readNum => jsonValueNumber
  | .readTrue => jsonValueTrue
  | .readFalse => jsonValueFalse
  | .readNull => jsonValueNull
  | _ => jsonValueUninitialized

/-- The search state: the engine, the current step `*p_cur_step` as an index
into the steps, and `array_counters`. -/
abbrev FindState := FindEngine × Nat × List Int

section Search

variable (cs pathCs : CharsetInfo)

/-- `json_read_value`: the key name is read first when the scanner is at a
key; the value's type comes from the handler of `JST_READ_VALUE` that runs,
`read_num` setting it only when the number is well formed. -/
def jsonReadValue (fuel : Nat) (j : FindEngine) : Option (Int × FindEngine) := do
  let atKey := j.scan.state = .key
  let e ← if atKey then readKeyname cs fuel j.scan else some j.scan
  if atKey ∧ e.s.error ≠ 0 then some (1, { j with scan := e, valueType := jsonValueUninitialized })
  else
    let (t, cLen, s) ← getFirstNonspace cs fuel e.s
    let h := jsonActions .readValue t
    let (r, e) ← runHandler cs fuel h { e with s := s }
    let valueType := if h = .readNum ∧ r ≠ 0 then jsonValueUninitialized else readValueType h
    some (r, { scan := e, valueType, valueBegin := s.cStr - cLen })

/-- `json_skip_to_level(j, level)`. -/
def jsonSkipToLevel : Nat → Nat → JsonEngine → Option (Int × JsonEngine)
  | 0, _, _ => none
  | fuel + 1, level, j =>
    if j.stackP < level then some (0, j)
    else do
      let (r, j) ← jsonScanNext cs fuel j
      if r = 0 then jsonSkipToLevel fuel level j else some (1, j)

/-- `json_skip_level(j)`. -/
def jsonSkipLevel (fuel : Nat) (j : JsonEngine) : Option (Int × JsonEngine) :=
  jsonSkipToLevel cs fuel j.stackP j

/-- The loop of `json_skip_level_and_count` at `level`, with the count `n` of
values read at that level so far. -/
def jsonSkipLevelAndCount : Nat → Nat → Int → JsonEngine → Option (Int × Int × JsonEngine)
  | 0, _, _, _ => none
  | fuel + 1, level, n, j => do
    let (r, j) ← jsonScanNext cs fuel j
    if r ≠ 0 then some (1, n, j)
    else if j.stackP < level then some (0, n, j)
    else
      let n := if j.stackP = level ∧ j.state = .value then wrapInt (n + 1) else n
      jsonSkipLevelAndCount fuel level n j

/-- `json_skip_array_and_count(je, &n_items)`, which counts on a copy of the
engine: the value returned and the count. -/
def jsonSkipArrayAndCount (fuel : Nat) (j : JsonEngine) : Option (Int × Int) := do
  let (r, n, _) ← jsonSkipLevelAndCount cs fuel j.stackP 0 j
  some (r, n)

/-- `json_skip_key(j)`, also `json_skip_array_item`. -/
def jsonSkipKey (fuel : Nat) (j : FindEngine) : Option (Int × FindEngine) := do
  let (r, j) ← jsonReadValue cs fuel j
  if r ≠ 0 then some (1, j)
  else if j.scalar then some (0, j)
  else
    let (r, e) ← jsonSkipLevel cs fuel j.scan
    some (r, { j with scan := e })

/-- `json_key_matches(je, k)`: the key name is read character by character
against the key of the path; nonzero when both end together. -/
def jsonKeyMatches : Nat → JsonEngine → JsonString → Option (Int × JsonEngine)
  | 0, _, _ => none
  | fuel + 1, j, k => do
    let (r, j) ← jsonReadKeynameChr cs fuel j
    if r = 0 then
      let (rk, k) := jsonReadStringConstChr pathCs k
      if rk ≠ 0 ∨ j.s.cNext ≠ k.cNext then some (0, j) else jsonKeyMatches fuel j k
    else some ((jsonReadStringConstChr pathCs k).1, j)

end Search

/-- `json_string_set_str(&key_name, step->key, step->key_end)` over the path
`str`. -/
def PathStep.keyString (str : List UInt8) (st : PathStep) : JsonString :=
  ⟨str.take st.keyEnd, st.key, 0, 0, 0⟩

/-- `next_step->type == JSON_PATH_ARRAY && next_step->n_item == 0`: a `[0]`
step, which lax mode lets select a value that is not an array. -/
def PathStep.indexZero (st : PathStep) : Bool := st.type = jsonPathArray ∧ st.nItem = 0

/-- Whether the array item with counter `c` matches the step: `n_item` and
`n_item_end` bound the counter for a range, `n_item` equals it otherwise. -/
def PathStep.itemMatches (st : PathStep) (c : Int) : Bool :=
  if st.type &&& jsonPathArrayRange ≠ 0 then st.nItem ≤ c ∧ c ≤ st.nItemEnd else st.nItem = c

/-- The counter `handle_match` starts an array step at, for an array of `size`
items: 0 when `n_item` counts from the start, `-size` when it counts from the
end. -/
def PathStep.counterStart (st : PathStep) (size : Int) : Int :=
  if st.nItem ≥ 0 then 0 else wrapInt (-size)

/-- `array_counters[i]= SKIPPED_STEP_MARK` for the `k` steps after `cur`. -/
def markSkipped (counters : List Int) (cur k : Nat) : List Int :=
  (List.range k).foldl (fun counters i => counters.set (cur + 1 + i) skippedStepMark) counters

/-- The `do ... while` of `case JST_OBJ_END`: back one step, and on over the
steps marked as skipped, but not below the first. -/
def unwindSkipped (counters : List Int) : Nat → Nat
  | 0 => 0
  | cur + 1 => if 0 < cur ∧ counters.getD cur 0 = skippedStepMark then unwindSkipped counters cur else cur

section Search

variable (cs pathCs : CharsetInfo) (str : List UInt8) (steps : List PathStep)

/-- `handle_match(je, p, p_cur_step, array_counters)` at the step `cur`, which
is not the last: the value returned and the search state. -/
def handleMatch (fuel : Nat) (j : FindEngine) (cur : Nat) (counters : List Int) :
    Option (Int × FindState) := do
  let (r, j) ← jsonReadValue cs fuel j
  if r ≠ 0 then return (1, j, cur, counters)
  -- the steps from `next_step` to `last_step`, and how many of them are `[0]`
  let rest := steps.drop (cur + 1)
  let zeros := (rest.takeWhile PathStep.indexZero).length
  if j.scalar then
    -- lax mode: trailing `[0]` steps select the scalar itself
    if zeros = rest.length then return (1, j.rewind, cur, counters) else return (0, j, cur, counters)
  let skip := if j.valueType &&& jsonValueObject ≠ 0 then zeros else 0
  let counters := markSkipped counters cur skip
  if 0 < skip ∧ skip = rest.length then
    return (1, { j.rewind with scan := { j.rewind.scan with stack := j.scan.stack.dropLast } }, cur, counters)
  let next := cur + 1 + skip
  let st := steps.getD next default
  if j.valueType ≠ st.type &&& jsonPathKeyOrArray then
    let (r, e) ← jsonSkipLevel cs fuel j.scan
    return (r, { j with scan := e }, cur, counters)
  let counters := counters.set next 0
  if st.type &&& jsonPathArray = 0 then return (0, j, next, counters)
  if st.nItem ≥ 0 then return (0, j, next, counters.set next (st.counterStart 0))
  -- a first index from the end: the items are counted on a copy of the engine
  let (r, size) ← jsonSkipArrayAndCount cs fuel j.scan
  if r ≠ 0 then return (1, j, cur, counters)
  return (0, j, next, counters.set next (st.counterStart size))

/-- The `switch` of `json_find_path` on the scanner's state: `.error` for a
`goto exit`, `.ok` to go on to the next token. -/
def findPathCase (fuel : Nat) (j : FindEngine) (cur : Nat) (counters : List Int) :
    Option (Except FindState FindState) := do
  let st := steps.getD cur default
  -- `cur_step == p->last_step || handle_match(...)`
  let matchOn (j : FindEngine) (counters : List Int) : Option (Except FindState FindState) := do
    if cur = steps.length - 1 then return .error (j, cur, counters)
    let (r, s) ← handleMatch cs steps fuel j cur counters
    return if r ≠ 0 then .error s else .ok s
  match j.scan.state with
  | .key =>
    if st.type &&& jsonPathWild ≠ 0 then matchOn j counters
    else
      let (m, e) ← jsonKeyMatches cs pathCs fuel j.scan (st.keyString str)
      let j := { j with scan := e }
      if m ≠ 0 then matchOn j counters
      else
        let (r, j) ← jsonSkipKey cs fuel j
        return if r ≠ 0 then .error (j, cur, counters) else .ok (j, cur, counters)
  | .value =>
    let c := counters.getD cur 0
    let counters := counters.set cur (wrapInt (c + 1))
    if st.type &&& jsonPathWild ≠ 0 ∨ st.itemMatches c then matchOn j counters
    else
      -- the item is skipped whatever `json_skip_array_item` returns
      let (_, j) ← jsonSkipKey cs fuel j
      return .ok (j, cur, counters)
  | .objEnd => return .ok (j, unwindSkipped counters cur, counters)
  | .arrayEnd => return .ok (j, cur - 1, counters)
  | _ => return .ok (j, cur, counters)

/-- `json_find_path(je, p, p_cur_step, array_counters)`: the value returned
(the engine's error at a match, 1 when the document ends first) and the
search state. -/
def jsonFindPath : Nat → FindEngine → Nat → List Int → Option (Int × FindState)
  | 0, _, _, _ => none
  | fuel + 1, j, cur, counters => do
    match ← findPathCase cs pathCs str steps fuel j cur counters with
    | .error (j, cur, counters) => some (j.scan.s.error, j, cur, counters)
    | .ok (j, cur, counters) =>
      let (r, e) ← jsonScanNext cs fuel j.scan
      let j := { j with scan := e }
      if r = 0 then jsonFindPath fuel j cur counters else some (1, j, cur, counters)

/-- The loop of `test_search` in unittest/json_lib/json_lib-t.c: after each
match the value is read and skipped, and the search goes on from the next
token. The offsets `value_begin` of the matches, and the last result of
`json_find_path`, or `none` when the loop left by one of its `return`s. -/
def searchMatches : Nat → FindState → List Int → Option (List Int × Option Int)
  | 0, _, _ => none
  | fuel + 1, (j, cur, counters), found => do
    let (r, j, cur, counters) ← jsonFindPath cs pathCs str steps fuel j cur counters
    if r ≠ 0 then return (found, some r)
    let (r, j) ← jsonReadValue cs fuel j
    if r ≠ 0 then return (found, none)
    let found := found ++ [j.valueBegin]
    let (r, e) ← if j.scalar then some (0, j.scan) else jsonSkipLevel cs fuel j.scan
    if r ≠ 0 then return (found, none)
    let (r, e) ← jsonScanNext cs fuel e
    if r ≠ 0 then return (found, none)
    searchMatches fuel ({ j with scan := e }, cur, counters) found

end Search

/-- The search from `json_scan_start` at the first step, with the counters
zero (the unit test leaves them uninitialised; the first is read once). -/
def jsonSearch (cs pathCs : CharsetInfo) (doc path : List UInt8) (fuel : Nat) :
    Option (List Int × Option Int) := do
  let (r, p) ← jsonPathSetup pathCs path
  if r ≠ 0 then none
  searchMatches cs pathCs path p.steps fuel
    (⟨jsonScanStart doc, jsonValueUninitialized, 0⟩, 0, List.replicate jsonDepthLimit 0) []

/-- The search over `[1,2,3]`, a valid document. The range `[1 to last]`
finds nothing: `json_find_path` returns 1 at once. The range `[-3 to 0]`
finds the three items, at offsets 1, 3 and 5, where only the first is in it. -/
theorem jsonSearch_range_ends_mixed :
    jsonValid utf8mb4 "[1,2,3]".toUTF8.toList 16 = some true ∧
      jsonSearch utf8mb4 utf8mb4 "[1,2,3]".toUTF8.toList "$[1 to last]".toUTF8.toList 16 = some ([], some 1) ∧
      jsonSearch utf8mb4 utf8mb4 "[1,2,3]".toUTF8.toList "$[-3 to 0]".toUTF8.toList 16 =
        some ([1, 3, 5], some 1) := by
  refine ⟨?_, ?_, ?_⟩ <;> decide +kernel

end MariaDB.Json
