import Mathlib.Logic.Function.Basic

set_option autoImplicit false

/- The `HASH` of mysys/hash.c: linear hashing over one dynamic array of
`HASH_LINK`s. The array holds the `records` stored records; `blength` is a
power of two with `blength / 2 <= records < blength`, and `my_hash_mask`
maps a hash number to its bucket below `records`. The records of a bucket
form a chain threaded through the array by `next`, starting at the slot of
the bucket's own index. Insertion splits bucket `records - blength / 2`
into itself and the new bucket `records`; deletion moves the last slot into
the hole and merges the last bucket back. -/
namespace MariaDB.MysysHash

/-- `NO_RECORD`: `~((my_hash_value_type) 0)`, the end of a chain. -/
def noRecord : Nat := 0xffffffff

/-- `LOWFIND`. -/
def lowfind : Nat := 1

/-- `LOWUSED`. -/
def lowused : Nat := 2

/-- `HIGHFIND`. -/
def highfind : Nat := 4

/-- `HIGHUSED`. -/
def highused : Nat := 8

/-- `HASH_LINK`: the next slot of the chain, the hash number of the record
and the record. -/
structure HashLink (ρ : Type) where
  next : Nat
  hashNr : Nat
  data : ρ
  deriving Repr, DecidableEq

/-- The fields of `HASH` that the operations change: the element count, the
bucket bound and the elements of the dynamic array. Slots at `records` and
above keep what was last written there, as the array's buffer does. -/
structure Hash (ρ : Type) where
  records : Nat
  blength : Nat
  array : Nat → HashLink ρ

/-- The fields `my_hash_init2` fixes that the operations read: the hash
function on keys, key comparison by the charset's `my_strnncoll` (`true`
for equal keys), and the `HASH_UNIQUE` flag. Which key a record has is read
from the record at each call, so it is an argument of the operations. -/
structure HashDef (κ : Type) where
  hashFunction : κ → Nat
  strnncollEq : κ → κ → Bool
  unique : Bool

section Model

variable {ρ κ : Type} [Inhabited ρ] [DecidableEq ρ]

/-- `my_hash_init2`: no records, `blength` 1. -/
def myHashInit2 : Hash ρ := ⟨0, 1, fun _ => ⟨noRecord, 0, default⟩⟩

/-- `my_hash_mask(hashnr, buffmax, maxlength)`: the low bits of the hash
number below `buffmax`, or one bit fewer where those name a bucket not yet
split off. -/
def myHashMask (hashnr buffmax maxlength : Nat) : Nat :=
  if hashnr &&& (buffmax - 1) < maxlength then hashnr &&& (buffmax - 1)
  else hashnr &&& ((buffmax >>> 1) - 1)

/-- One slot written. -/
def setLink (array : Nat → HashLink ρ) (i : Nat) (link : HashLink ρ) : Nat → HashLink ρ :=
  Function.update array i link

/-- The `next` field of one slot written. -/
def setNext (array : Nat → HashLink ρ) (i next : Nat) : Nat → HashLink ρ :=
  setLink array i { array i with next }

/-- The loop of `movelink(array, find, next_link, newlink)`: walk the chain
from `next_link` to the slot that points at `find` and point it at
`newlink` instead. The callers' chains reach `find`; the fuel given is the
number of records. -/
def movelink (find newlink : Nat) : Nat → (Nat → HashLink ρ) → Nat → (Nat → HashLink ρ)
  | 0, array, _ => array
  | fuel + 1, array, nextLink =>
    if (array nextLink).next = find then setNext array nextLink newlink
    else movelink find newlink fuel array (array nextLink).next

variable (hd : HashDef κ) (key : ρ → κ)

/-- `rec_hashnr`: the hash number of a record's key. -/
def recHashnr (record : ρ) : Nat := hd.hashFunction (key record)

/-- `hashcmp`: whether the record in a slot has the key. -/
def hashcmp (link : HashLink ρ) (k : κ) : Bool := hd.strnncollEq (key link.data) k

/-! ## Searching -/

/-- The loop of `my_hash_first_from_hash_value` from slot `idx`: the first
slot of the chain whose record has the key. The first slot ends the search
when it is not at the bucket of its own record: then the bucket is empty. -/
def firstLoop (h : Hash ρ) (k : κ) : Nat → Bool → Nat → Option Nat
  | 0, _, _ => none
  | fuel + 1, flag, idx =>
    let pos := h.array idx
    if hashcmp hd key pos k then some idx
    else if flag ∧ myHashMask pos.hashNr h.blength h.records ≠ idx then none
    else if pos.next = noRecord then none
    else firstLoop h k fuel false pos.next

/-- `my_hash_first_from_hash_value`: the slot found, `none` for `NO_RECORD`
in the search state. -/
def myHashFirstFromHashValue (h : Hash ρ) (hashValue : Nat) (k : κ) : Option Nat :=
  if h.records = 0 then none
  else firstLoop hd key h k (h.records + 1) true (myHashMask hashValue h.blength h.records)

/-- `my_hash_first`: the record found and the search state. -/
def myHashFirst (h : Hash ρ) (k : κ) : Option ρ × Option Nat :=
  let found := myHashFirstFromHashValue hd key h (hd.hashFunction k) k
  (found.map fun idx => (h.array idx).data, found)

/-- The loop of `my_hash_next` over the rest of the chain. -/
def nextLoop (h : Hash ρ) (k : κ) : Nat → Nat → Option Nat
  | 0, _ => none
  | fuel + 1, idx =>
    if idx = noRecord then none
    else if hashcmp hd key (h.array idx) k then some idx
    else nextLoop h k fuel (h.array idx).next

/-- `my_hash_next`: the next record of the chain with the key, from the
search state `current`. -/
def myHashNext (h : Hash ρ) (k : κ) (current : Option Nat) : Option ρ × Option Nat :=
  match current with
  | none => (none, none)
  | some cur =>
    let found := nextLoop hd key h k (h.records + 1) (h.array cur).next
    (found.map fun idx => (h.array idx).data, found)

/-! ## Inserting -/

/-- The variables of the split loop of `my_hash_insert`: the array, `flag`,
the free slot `empty`, the last low and high slots `gpos` and `gpos2`, and
the record each of them is to receive. -/
structure SplitState (ρ : Type) where
  array : Nat → HashLink ρ
  flag : Nat
  empty : Nat
  gpos : Nat
  gpos2 : Nat
  recData : ρ
  recHashNr : Nat
  rec2Data : ρ
  rec2HashNr : Nat

/-- One round of the split loop on the slot `pos` of the bucket being split.
A record whose hash number has the `halfbuff` bit clear stays in the low
bucket, the others go to the high one; each of the two chains is rebuilt
one slot behind the walk, and the first high record leaves its slot free
(as does the first low one when a high record came first). -/
def splitStep (halfbuff : Nat) (st : SplitState ρ) (pos : Nat) : SplitState ρ :=
  let link := st.array pos
  if link.hashNr &&& halfbuff = 0 then
    if st.flag &&& lowfind = 0 then
      if st.flag &&& highfind ≠ 0 then
        { st with flag := lowfind ||| highfind, gpos := st.empty, recData := link.data,
                  recHashNr := link.hashNr, empty := pos }
      else
        { st with flag := lowfind ||| lowused, gpos := pos, recData := link.data,
                  recHashNr := link.hashNr }
    else
      let st := if st.flag &&& lowused = 0 then
          { st with array := setLink st.array st.gpos ⟨pos, st.recHashNr, st.recData⟩
                    flag := (st.flag &&& highfind) ||| (lowfind ||| lowused) }
        else st
      { st with gpos := pos, recData := link.data, recHashNr := link.hashNr }
  else
    if st.flag &&& highfind = 0 then
      { st with flag := (st.flag &&& lowfind) ||| highfind, gpos2 := st.empty, empty := pos,
                rec2Data := link.data, rec2HashNr := link.hashNr }
    else
      let st := if st.flag &&& highused = 0 then
          { st with array := setLink st.array st.gpos2 ⟨pos, st.rec2HashNr, st.rec2Data⟩
                    flag := (st.flag &&& lowfind) ||| (highfind ||| highused) }
        else st
      { st with gpos2 := pos, rec2Data := link.data, rec2HashNr := link.hashNr }

/-- The split loop over the chain from `idx`; in the first round it stops at
once when the slot is not in the bucket `firstIndex`. -/
def splitLoop (blength records firstIndex halfbuff : Nat) :
    Nat → SplitState ρ → Nat → SplitState ρ
  | 0, st, _ => st
  | fuel + 1, st, idx =>
    if st.flag = 0 ∧ myHashMask (st.array idx).hashNr blength records ≠ firstIndex then st
    else
      let st := splitStep halfbuff st idx
      if (st.array idx).next = noRecord then st
      else splitLoop blength records firstIndex halfbuff fuel st (st.array idx).next

/-- The end of the split: a chain whose last record is still pending gets it,
with the chain closed. -/
def splitFinish (st : SplitState ρ) : SplitState ρ :=
  let st := if st.flag &&& (lowfind ||| lowused) = lowfind then
      { st with array := setLink st.array st.gpos ⟨noRecord, st.recHashNr, st.recData⟩ }
    else st
  if st.flag &&& (highfind ||| highused) = highfind then
    { st with array := setLink st.array st.gpos2 ⟨noRecord, st.rec2HashNr, st.rec2Data⟩ }
  else st

/-- `my_hash_insert`: `true` for the duplicate-key failure. The new slot is
the array's next element; after the split it goes to the new record's
bucket, whose occupant moves to the free slot (through `movelink` when the
occupant belongs to another bucket). -/
def myHashInsert (h : Hash ρ) (record : ρ) : Bool × Hash ρ :=
  let currentHashNr := recHashnr hd key record
  if hd.unique ∧ (myHashFirstFromHashValue hd key h currentHashNr (key record)).isSome then (true, h)
  else
    let halfbuff := h.blength >>> 1
    let firstIndex := h.records - halfbuff
    let st : SplitState ρ := ⟨h.array, 0, h.records, 0, 0, default, 0, default, 0⟩
    let st := if firstIndex ≠ h.records then
        splitFinish (splitLoop h.blength h.records firstIndex halfbuff (h.records + 1) st firstIndex)
      else st
    let array := st.array
    let empty := st.empty
    let idx := myHashMask currentHashNr h.blength (h.records + 1)
    let array :=
      if idx = empty then setNext array idx noRecord
      else
        let array' := setLink array empty (array idx)
        let gpos := myHashMask (array idx).hashNr h.blength (h.records + 1)
        if idx = gpos then setNext array' idx empty
        else movelink idx empty (h.records + 1) (setNext array' idx noRecord) gpos
    let array := setLink array idx { array idx with data := record, hashNr := currentHashNr }
    let records := h.records + 1
    (false, ⟨records, if records = h.blength then h.blength + h.blength else h.blength, array⟩)

/-! ## Deleting -/

/-- The search loop of `my_hash_delete` and `my_hash_update` along a chain:
the slot holding the record and the slot before it. -/
def chainSearch (array : Nat → HashLink ρ) (record : ρ) :
    Nat → Nat → Option Nat → Option (Nat × Option Nat)
  | 0, _, _ => none
  | fuel + 1, pos, gpos =>
    if (array pos).data = record then some (pos, gpos)
    else if (array pos).next = noRecord then none
    else chainSearch array record fuel (array pos).next (some pos)

/-- `my_hash_delete`: `true` when the record is not found. The record's slot
is unlinked (a chain head takes its successor's link and frees that slot
instead); then the last slot, which the array drops, moves into the free
slot, and the bucket `records` that disappears is merged into the bucket
its records now map to. -/
def myHashDelete (h : Hash ρ) (record : ρ) : Bool × Hash ρ :=
  if h.records = 0 then (true, h)
  else
    let blength := h.blength
    let data := h.array
    let fuel := h.records + 1
    match chainSearch data record fuel (myHashMask (recHashnr hd key record) blength h.records) none with
    | none => (true, h)
    | some (pos, gpos) =>
      let records := h.records - 1
      let hblength := if records < h.blength >>> 1 then h.blength >>> 1 else h.blength
      let lastpos := records
      let (data, empty) :=
        match gpos with
        | some g => (setNext data g (data pos).next, pos)
        | none =>
          if (data pos).next ≠ noRecord then (setLink data pos (data (data pos).next), (data pos).next)
          else (data, pos)
      let emptyIndex := empty
      let data :=
        if empty = lastpos then data
        else
          let lastposHashnr := (data lastpos).hashNr
          -- `pos` is where the last record belongs now
          let pos := myHashMask lastposHashnr hblength records
          if pos = empty then setLink data empty (data lastpos)
          else
            let posHashnr := (data pos).hashNr
            let pos3 := myHashMask posHashnr hblength records
            if pos ≠ pos3 then
              -- the occupant of `pos` belongs elsewhere: it moves to the free slot
              movelink pos emptyIndex fuel (setLink (setLink data empty (data pos)) pos (data lastpos)) pos3
            else
              let pos2 := myHashMask lastposHashnr blength (records + 1)
              if pos2 = myHashMask posHashnr blength (records + 1) ∧ pos2 ≠ records then
                movelink lastpos emptyIndex fuel (setLink data empty (data lastpos)) pos
              else
                -- the chain of the last record is spliced in after `pos`
                let idx := if pos2 = myHashMask posHashnr blength (records + 1) then pos else noRecord
                let data := movelink idx (data pos).next fuel (setLink data empty (data lastpos)) emptyIndex
                setNext data pos emptyIndex
      (false, ⟨records, hblength, data⟩)

/-! ## Updating -/

/-- The duplicate check of `my_hash_update` over the records that
`my_hash_first_from_hash_value` and `my_hash_next` find with the new key:
`true` at the first one that is not the record itself. -/
def duplicateLoop (h : Hash ρ) (k : κ) (record : ρ) : Nat → Option Nat → Bool
  | 0, _ => false
  | _ + 1, none => false
  | fuel + 1, some idx =>
    if (h.array idx).data ≠ record then true
    else duplicateLoop h k record fuel (myHashNext hd key h k (some idx)).2

/-- `my_hash_update(hash, record, old_key)` after the record's key has
changed to `key record`: `true` for a duplicate of the new key or a record
not found from the old key. A record staying in its bucket only gets its
new hash number; otherwise it is unlinked as in `my_hash_delete` and linked
into its new bucket, moving an occupant that belongs elsewhere. -/
def myHashUpdate (h : Hash ρ) (record : ρ) (oldKey : κ) : Bool × Hash ρ :=
  let hashNr := recHashnr hd key record
  if hd.unique ∧ duplicateLoop hd key h (key record) record (h.records + 1)
      (myHashFirstFromHashValue hd key h hashNr (key record)) then (true, h)
  else
    let data := h.array
    let blength := h.blength
    let records := h.records
    let orgIndex := myHashMask (hd.hashFunction oldKey) blength records
    let newIndex := myHashMask hashNr blength records
    match chainSearch data record (records + 1) orgIndex none with
    | none => (true, h)
    | some (idx, previous) =>
      if orgIndex = newIndex then (false, { h with array := setLink data idx { data idx with hashNr } })
      else
        let orgLink := data idx
        let (data, empty) :=
          match previous with
          | some p => (setNext data p (data idx).next, idx)
          | none =>
            if (data idx).next ≠ noRecord then (setLink data idx (data (data idx).next), (data idx).next)
            else (data, idx)
        let data :=
          if newIndex = empty then
            let data := if empty ≠ idx then setLink data empty orgLink else data
            setLink data empty { data empty with next := noRecord, hashNr }
          else
            let newPosIndex := myHashMask (data newIndex).hashNr blength records
            if newIndex ≠ newPosIndex then
              let data := movelink newIndex empty (records + 1) (setLink data empty (data newIndex))
                newPosIndex
              setLink data newIndex { orgLink with next := noRecord, hashNr }
            else
              let data := setLink data empty { orgLink with next := (data newIndex).next, hashNr }
              setNext data newIndex empty
        (false, { h with array := data })

/-! ## Checking -/

/-- The inner loop of `my_hash_check` along the chain of bucket `i`: an
error for a link past the records or a record of another bucket, and the
count `found` of records seen. -/
def checkChain (h : Hash ρ) (i : Nat) : Nat → Nat → Nat → Bool × Nat
  | 0, _, found => (false, found)
  | fuel + 1, idx, found =>
    if idx = noRecord ∨ ¬ found < h.records + 1 then (false, found)
    else
      let outside := decide (idx ≥ h.records)
      let link := h.array idx
      let (wrong, found) :=
        if myHashMask link.hashNr h.blength h.records ≠ i then (true, found) else (false, found + 1)
      let (rest, found) := checkChain h i fuel link.next found
      (outside || wrong || rest, found)

/-- The outer loop of `my_hash_check` over the slots `i`, `i + 1`, ...: each
hash number must be its record's, and each slot that heads its own bucket
has its chain walked. -/
def checkSlots (h : Hash ρ) : Nat → Nat → Bool × Nat → Bool × Nat
  | 0, _, acc => acc
  | n + 1, i, (error, found) =>
    let link := h.array i
    let error := error || decide (link.hashNr ≠ recHashnr hd key link.data)
    let (error, found) :=
      if myHashMask link.hashNr h.blength h.records = i then
        let (chainError, found) := checkChain h i (h.records + 1) link.next (found + 1)
        (error || chainError, found)
      else (error, found)
    checkSlots h n (i + 1) (error, found)

/-- `my_hash_check`: `true` for an error. Every record must be found once,
in the chain of its own bucket. -/
def myHashCheck (h : Hash ρ) : Bool :=
  let (error, found) := checkSlots hd key h h.records 0 (false, 0)
  error || decide (found ≠ h.records)

end Model

end MariaDB.MysysHash
