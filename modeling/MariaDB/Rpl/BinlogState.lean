import MariaDB.Rpl.Gtid
import MariaDB.Hash.Keyed

set_option autoImplicit false

/- The binlog state of sql/rpl_gtid.cc, `rpl_binlog_state_base` and the
calls of `rpl_binlog_state` on it. For each replication domain an element
holds the last GTID each server logged in the domain, a pointer `last_gtid`
to the one logged last, and `seq_no_counter`, from which the server takes
its own next sequence number. Each `HASH` is kept as its records, keyed
(by `domain_id`, by `server_id`), in the order `my_hash_element` walks them;
a pointer into a `HASH` is kept as the key of the record it points to. -/
namespace MariaDB.Rpl

open KeyedList

/-- `rpl_binlog_state_base::element`. -/
structure Element where
  domainId : UInt32
  hash : List RplGtid
  lastGtid : Option UInt32
  seqNoCounter : UInt64
  deriving DecidableEq, Repr

/-- `rpl_binlog_state_base`: the elements keyed by `domain_id`. -/
structure RplBinlogStateBase where
  hash : List Element
  deriving DecidableEq, Repr

namespace Element

/-- `*last_gtid`, the record `last_gtid` points to. -/
def lastEntry (e : Element) : Option RplGtid :=
  e.lastGtid.bind (fun serverId => find RplGtid.serverId serverId e.hash)

/-- `lookup_gtid->seq_no= gtid->seq_no`. -/
def setSeqNo (seqNo : UInt64) (g : RplGtid) : RplGtid := { g with seqNo }

/-- `element::update_element`: the record of the GTID's server takes its
`seq_no`, or the GTID is inserted, and `last_gtid` points to it. -/
def updateElement (e : Element) (gtid : RplGtid) : Element :=
  -- the common case: the same server as the last GTID
  if e.lastGtid = some gtid.serverId then
    { e with hash := modify RplGtid.serverId gtid.serverId (setSeqNo gtid.seqNo) e.hash }
  else
    match find RplGtid.serverId gtid.serverId e.hash with
    | some _ =>
      { e with hash := modify RplGtid.serverId gtid.serverId (setSeqNo gtid.seqNo) e.hash,
               lastGtid := some gtid.serverId }
    | none => { e with hash := e.hash ++ [gtid], lastGtid := some gtid.serverId }

/-- `if (elem->seq_no_counter < seq_no) elem->seq_no_counter= seq_no;`. -/
def raiseSeqNoCounter (e : Element) (seqNo : UInt64) : Element :=
  { e with seqNoCounter := if e.seqNoCounter < seqNo then seqNo else e.seqNoCounter }

/-- What `update_nolock` and `rpl_binlog_state::update` do to the element of
the GTID's domain. -/
def updateCounted (e : Element) (gtid : RplGtid) : Element :=
  (e.raiseSeqNoCounter gtid.seqNo).updateElement gtid

/-- `elem->last_gtid && elem->last_gtid->seq_no >= seq_no`, the test of
`gtid_strict_mode`. -/
def strictOutOfOrder (e : Element) (seqNo : UInt64) : Bool :=
  match e.lastEntry with
  | some last => decide (seqNo ≤ last.seqNo)
  | none => false

/-- The GTIDs the inner loops of `get_gtid_list_nolock` and of
`load_nolock(orig_state)` take from an element: the records other than
`*last_gtid`, then `*last_gtid`; none when `last_gtid` is `NULL`. -/
def gtids (e : Element) : List RplGtid :=
  match e.lastGtid with
  | none => []
  | some last => e.hash.filter (fun g => g.serverId ≠ last) ++ (find RplGtid.serverId last e.hash).toList

end Element

namespace RplBinlogStateBase

/-- The state after `init` or `reset_nolock`. -/
def empty : RplBinlogStateBase := ⟨[]⟩

/-- `alloc_element_nolock`: a new element for the GTID's domain holding the
GTID, with `seq_no_counter` its `seq_no`. -/
def allocElementNolock (s : RplBinlogStateBase) (gtid : RplGtid) : RplBinlogStateBase :=
  ⟨s.hash ++ [⟨gtid.domainId, [gtid], some gtid.serverId, gtid.seqNo⟩]⟩

/-- `rpl_binlog_state_base::update_nolock`. -/
def updateNolock (s : RplBinlogStateBase) (gtid : RplGtid) : RplBinlogStateBase :=
  match find Element.domainId gtid.domainId s.hash with
  | some _ => ⟨modify Element.domainId gtid.domainId (fun elem => elem.updateCounted gtid) s.hash⟩
  | none => s.allocElementNolock gtid

/-- `rpl_binlog_state_base::find_nolock`. -/
def findNolock (s : RplBinlogStateBase) (domainId serverId : UInt32) : Option RplGtid :=
  (find Element.domainId domainId s.hash).bind (fun elem => find RplGtid.serverId serverId elem.hash)

/-- `rpl_binlog_state_base::count_nolock`: the `uint32` sum of the records of
the elements. -/
def countNolock (s : RplBinlogStateBase) : UInt32 :=
  s.hash.foldl (fun c elem => c + elem.hash.length.toUInt32) 0

/-- The GTIDs of the state in the order the loops of `get_gtid_list_nolock`
and `load_nolock(orig_state)` take them, element by element. -/
def gtidWalk (s : RplBinlogStateBase) : List RplGtid := s.hash.flatMap Element.gtids

/-- The `pos` loop of `get_gtid_list_nolock` over the GTIDs to write. -/
def getGtidListLoop (listSize : UInt32) : List RplGtid → List RplGtid → Int × List RplGtid
  | [], gtidList => (0, gtidList)
  | gtid :: rest, gtidList =>
    if gtidList.length ≥ listSize.toNat then (1, gtidList)
    else getGtidListLoop listSize rest (gtidList ++ [gtid])

/-- `rpl_binlog_state_base::get_gtid_list_nolock`: the result and the GTIDs
written to the list. -/
def getGtidListNolock (s : RplBinlogStateBase) (listSize : UInt32) : Int × List RplGtid :=
  getGtidListLoop listSize s.gtidWalk []

/-- `Gtid_index_base::update_gtid_state`: `update_nolock` of each GTID of the
list in turn. -/
def updateGtidState (s : RplBinlogStateBase) (gtidList : List RplGtid) : RplBinlogStateBase :=
  gtidList.foldl updateNolock s

/-- `rpl_binlog_state_base::load_nolock(list, count)`. -/
def loadNolock (gtidList : List RplGtid) : RplBinlogStateBase := updateGtidState empty gtidList

/-- `rpl_binlog_state_base::load_nolock(orig_state)`. -/
def loadNolockState (origState : RplBinlogStateBase) : RplBinlogStateBase :=
  updateGtidState empty origState.gtidWalk

/-- `rpl_binlog_state_base::is_before_pos`, with the slave position as the
GTIDs of its entries, keyed by `domain_id`. -/
def isBeforePos (s : RplBinlogStateBase) (pos : List RplGtid) : Bool :=
  -- no GTID of the position lies before the state
  pos.all (fun e =>
    match find Element.domainId e.domainId s.hash with
    | some elem =>
      match find RplGtid.serverId e.serverId elem.hash with
      | some g => !(decide (g.seqNo > e.seqNo) ||
          (decide (g.seqNo = e.seqNo) && decide (elem.lastGtid ≠ some g.serverId)))
      | none => true
    | none => true) &&
  -- every domain with GTIDs in the state is in the position
  s.hash.all (fun elem =>
    !(decide (0 < elem.hash.length) && (find RplGtid.domainId elem.domainId pos).isNone))

/-- `rpl_binlog_state::update`: `1` when `strict` and the GTID is not after
the last GTID of its domain, leaving the state as it was. -/
def update (s : RplBinlogStateBase) (gtid : RplGtid) (strict : Bool) : Int × RplBinlogStateBase :=
  match find Element.domainId gtid.domainId s.hash with
  | some elem =>
    if strict && elem.strictOutOfOrder gtid.seqNo then (1, s)
    else (0, ⟨modify Element.domainId gtid.domainId (fun elem => elem.updateCounted gtid) s.hash⟩)
  | none => (0, s.allocElementNolock gtid)

/-- `rpl_binlog_state::update_with_next_gtid`: the GTID with the next
`seq_no` of the domain, and the state that records it. -/
def updateWithNextGtid (s : RplBinlogStateBase) (domainId serverId : UInt32) :
    RplGtid × RplBinlogStateBase :=
  match find Element.domainId domainId s.hash with
  | some elem =>
    -- gtid->seq_no= ++elem->seq_no_counter
    let gtid : RplGtid := ⟨domainId, serverId, elem.seqNoCounter + 1⟩
    (gtid, ⟨modify Element.domainId domainId
      (fun elem => { elem with seqNoCounter := elem.seqNoCounter + 1 }.updateElement gtid) s.hash⟩)
  | none =>
    let gtid : RplGtid := ⟨domainId, serverId, 1⟩
    (gtid, s.allocElementNolock gtid)

/-- `rpl_binlog_state::check_strict_sequence`: whether `seq_no` is not after
the last GTID of the domain. -/
def checkStrictSequence (s : RplBinlogStateBase) (domainId : UInt32) (seqNo : UInt64) : Bool :=
  match find Element.domainId domainId s.hash with
  | some elem => elem.strictOutOfOrder seqNo
  | none => false

/-- `rpl_binlog_state::bump_seq_no_if_needed`: the counter of the domain
raised to `seq_no`, in a new element without GTIDs if the domain has none. -/
def bumpSeqNoIfNeeded (s : RplBinlogStateBase) (domainId : UInt32) (seqNo : UInt64) :
    RplBinlogStateBase :=
  match find Element.domainId domainId s.hash with
  | some _ => ⟨modify Element.domainId domainId (fun elem => elem.raiseSeqNoCounter seqNo) s.hash⟩
  | none => ⟨s.hash ++ [⟨domainId, [], none, seqNo⟩]⟩

example : (loadNolock [⟨0, 1, 5⟩, ⟨0, 2, 6⟩, ⟨1, 1, 3⟩, ⟨0, 1, 7⟩]).findNolock 0 1 = some ⟨0, 1, 7⟩ := by
  decide

example : (loadNolock [⟨0, 1, 5⟩, ⟨0, 2, 6⟩, ⟨1, 1, 3⟩, ⟨0, 1, 7⟩]).getGtidListNolock 3 =
    (0, [⟨0, 2, 6⟩, ⟨0, 1, 7⟩, ⟨1, 1, 3⟩]) := by
  decide


end RplBinlogStateBase

/-- The calls the server makes on its binlog state. -/
inductive Call
  | updateNolock (gtid : RplGtid)
  | update (gtid : RplGtid) (strict : Bool)
  | updateWithNextGtid (domainId serverId : UInt32)
  | bumpSeqNoIfNeeded (domainId : UInt32) (seqNo : UInt64)
  deriving DecidableEq, Repr

namespace Call

/-- The state after a call, and the GTID the call recorded in it. -/
def step (s : RplBinlogStateBase) : Call → RplBinlogStateBase × Option RplGtid
  | updateNolock gtid => (s.updateNolock gtid, some gtid)
  | update gtid strict =>
    ((s.update gtid strict).2, if (s.update gtid strict).1 = 0 then some gtid else none)
  | updateWithNextGtid domainId serverId =>
    ((s.updateWithNextGtid domainId serverId).2, some (s.updateWithNextGtid domainId serverId).1)
  | bumpSeqNoIfNeeded domainId seqNo => (s.bumpSeqNoIfNeeded domainId seqNo, none)

/-- The domain and `seq_no` a `bump_seq_no_if_needed` passes. -/
def bumped : Call → Option (UInt32 × UInt64)
  | bumpSeqNoIfNeeded domainId seqNo => some (domainId, seqNo)
  | _ => none

/-- An `update_with_next_gtid` that finds `seq_no_counter` at `2^64 - 1`,
where `++elem->seq_no_counter` wraps to `0`. -/
def wraps (s : RplBinlogStateBase) : Call → Bool
  | updateWithNextGtid domainId _ =>
    (find Element.domainId domainId s.hash).any (fun elem => elem.seqNoCounter = 18446744073709551615)
  | _ => false

end Call

namespace RplBinlogStateBase

/-- The state after a run of calls. -/
def run (s : RplBinlogStateBase) : List Call → RplBinlogStateBase
  | [] => s
  | c :: cs => run (c.step s).1 cs

/-- The GTIDs a run of calls records, in order. -/
def recorded (s : RplBinlogStateBase) : List Call → List RplGtid
  | [] => []
  | c :: cs => (c.step s).2.toList ++ recorded (c.step s).1 cs

/-- No `update_with_next_gtid` of the run wraps its domain's counter. -/
def noWrap (s : RplBinlogStateBase) : List Call → Bool
  | [] => true
  | c :: cs => !c.wraps s && noWrap (c.step s).1 cs

end RplBinlogStateBase

/-! ## The representation conditions -/

/-- `pairOf g`: the `(domain_id, server_id)` key of a GTID. -/
def pairOf (g : RplGtid) : UInt32 × UInt32 := (g.domainId, g.serverId)

namespace Element

/-- The conditions an element is kept in: the GTIDs of its domain keyed by
server, `last_gtid` pointing to one of them, and `NULL` only while there is
none. -/
structure Wf (e : Element) : Prop where
  keyed : Keyed RplGtid.serverId e.hash
  domain : ∀ g ∈ e.hash, g.domainId = e.domainId
  lastEntry : ∀ serverId, e.lastGtid = some serverId → ∃ g ∈ e.hash, g.serverId = serverId
  empty : e.lastGtid = none → e.hash = []

variable {e : Element} {gtid : RplGtid}

theorem Wf.withCounter (wf : e.Wf) (c : UInt64) : ({ e with seqNoCounter := c } : Element).Wf :=
  ⟨wf.keyed, wf.domain, wf.lastEntry, wf.empty⟩

theorem setSeqNo_eq {g : RplGtid} (hdomain : g.domainId = gtid.domainId)
    (hserver : g.serverId = gtid.serverId) : setSeqNo gtid.seqNo g = gtid := by
  cases g
  cases gtid
  simp only [setSeqNo] at hdomain hserver ⊢
  rw [hdomain, hserver]

/-- Setting the `seq_no` of the GTID's record makes the record the GTID. -/
theorem find_modify_setSeqNo (wf : e.Wf) (hdomain : gtid.domainId = e.domainId) {g0 : RplGtid}
    (found : find RplGtid.serverId gtid.serverId e.hash = some g0) (serverId : UInt32) :
    find RplGtid.serverId serverId (modify RplGtid.serverId gtid.serverId (setSeqNo gtid.seqNo) e.hash) =
      if gtid.serverId = serverId then some gtid else find RplGtid.serverId serverId e.hash := by
  have hkey : ∀ g, (setSeqNo gtid.seqNo g).serverId = g.serverId := fun g => rfl
  rw [find_modify hkey]
  split_ifs with hserver
  · rw [found, Option.map_some]
    apply congrArg some
    apply setSeqNo_eq
    · rw [wf.domain g0 (mem_of_find found), hdomain]
    · exact key_of_find found
  · rfl

theorem lastGtid_updateElement (e : Element) (gtid : RplGtid) :
    (e.updateElement gtid).lastGtid = some gtid.serverId := by
  unfold updateElement
  split_ifs with hlast
  · exact hlast
  · split <;> rfl

theorem domainId_updateElement (e : Element) (gtid : RplGtid) :
    (e.updateElement gtid).domainId = e.domainId := by
  unfold updateElement
  split_ifs
  · rfl
  · split <;> rfl

theorem seqNoCounter_updateElement (e : Element) (gtid : RplGtid) :
    (e.updateElement gtid).seqNoCounter = e.seqNoCounter := by
  unfold updateElement
  split_ifs
  · rfl
  · split <;> rfl

/-- A server with a record: both paths of `update_element` set its `seq_no`. -/
theorem hash_updateElement_of_found {g0 : RplGtid}
    (found : find RplGtid.serverId gtid.serverId e.hash = some g0) :
    (e.updateElement gtid).hash = modify RplGtid.serverId gtid.serverId (setSeqNo gtid.seqNo) e.hash := by
  unfold updateElement
  split_ifs
  · rfl
  · rw [found]

/-- A server without a record: `last_gtid` cannot point to it, so the GTID
is inserted. -/
theorem hash_updateElement_of_fresh (wf : e.Wf)
    (fresh : find RplGtid.serverId gtid.serverId e.hash = none) :
    (e.updateElement gtid).hash = e.hash ++ [gtid] := by
  have hlast : e.lastGtid ≠ some gtid.serverId := by
    intro hlast
    obtain ⟨g, hg, hkey⟩ := wf.lastEntry gtid.serverId hlast
    exact (find_eq_none_iff.mp fresh) g hg hkey
  unfold updateElement
  rw [if_neg hlast, fresh]

/-- `update_element` as a search sees it: the GTID's server now has the GTID. -/
theorem find_updateElement (wf : e.Wf) (hdomain : gtid.domainId = e.domainId) (serverId : UInt32) :
    find RplGtid.serverId serverId (e.updateElement gtid).hash =
      if gtid.serverId = serverId then some gtid else find RplGtid.serverId serverId e.hash := by
  cases found : find RplGtid.serverId gtid.serverId e.hash with
  | some g0 =>
    rw [hash_updateElement_of_found found]
    exact find_modify_setSeqNo wf hdomain found serverId
  | none =>
    rw [hash_updateElement_of_fresh wf found, find_append_singleton]
    by_cases hserver : gtid.serverId = serverId
    · rw [if_pos hserver, if_pos hserver, ← hserver, found]
      rfl
    · rw [if_neg hserver, if_neg hserver, Option.or_none]

theorem lastEntry_updateElement (wf : e.Wf) (hdomain : gtid.domainId = e.domainId) :
    (e.updateElement gtid).lastEntry = some gtid := by
  unfold lastEntry
  rw [lastGtid_updateElement, Option.bind_some, find_updateElement wf hdomain, if_pos rfl]

theorem wf_updateElement (wf : e.Wf) (hdomain : gtid.domainId = e.domainId) :
    (e.updateElement gtid).Wf := by
  have keyed : Keyed RplGtid.serverId (e.updateElement gtid).hash := by
    cases found : find RplGtid.serverId gtid.serverId e.hash with
    | some g0 =>
      rw [hash_updateElement_of_found found]
      exact keyed_modify (fun g => rfl) wf.keyed
    | none =>
      rw [hash_updateElement_of_fresh wf found]
      exact keyed_append_singleton found wf.keyed
  refine ⟨keyed, ?_, ?_, ?_⟩
  · intro g hg
    have found := (find_eq_some_iff keyed).mpr ⟨hg, rfl⟩
    rw [find_updateElement wf hdomain] at found
    rw [domainId_updateElement]
    split_ifs at found
    · cases found
      exact hdomain
    · exact wf.domain g (mem_of_find found)
  · intro serverId hlast
    rw [lastGtid_updateElement] at hlast
    cases hlast
    have found := find_updateElement wf hdomain gtid.serverId
    rw [if_pos rfl] at found
    exact ⟨gtid, mem_of_find found, rfl⟩
  · intro hlast
    rw [lastGtid_updateElement] at hlast
    cases hlast

/-! ### The GTIDs an element gives to a walk -/

theorem gtids_perm (wf : e.Wf) : e.gtids.Perm e.hash := by
  unfold gtids
  cases hlast : e.lastGtid with
  | none => rw [wf.empty hlast]
  | some last => exact filter_ne_append_find_perm wf.keyed last

theorem keyed_gtids (wf : e.Wf) : Keyed RplGtid.serverId e.gtids :=
  (((gtids_perm wf).map RplGtid.serverId).nodup_iff).mpr wf.keyed

/-- The walk of an element ends with `*last_gtid`. -/
theorem latest_gtids (wf : e.Wf) : latest (fun g => g.domainId = e.domainId) e.gtids = e.lastEntry := by
  unfold gtids lastEntry
  cases hlast : e.lastGtid with
  | none => rfl
  | some last =>
    obtain ⟨g, hg, hkey⟩ := wf.lastEntry last hlast
    have found : find RplGtid.serverId last e.hash = some g := (find_eq_some_iff wf.keyed).mpr ⟨hg, hkey⟩
    simp only [found, Option.toList_some, Option.bind_some]
    rw [latest_append_singleton, if_pos (by simpa using wf.domain g hg)]

/-- The walk of an element holds each server's GTID once. -/
theorem latest_pair_gtids (wf : e.Wf) (serverId : UInt32) :
    latest (fun g => g.domainId = e.domainId ∧ g.serverId = serverId) e.gtids =
      find RplGtid.serverId serverId e.hash := by
  have hdomain : ∀ g ∈ e.gtids, decide (g.domainId = e.domainId ∧ g.serverId = serverId) =
      decide (g.serverId = serverId) := by
    intro g hg
    simp [wf.domain g ((gtids_perm wf).subset hg)]
  rw [latest_congr hdomain, latest_key_eq_find (keyed_gtids wf), find_perm (keyed_gtids wf) (gtids_perm wf)]

/-- `g != elem->last_gtid` compares pointers: the record of a server is
`*last_gtid` exactly when `last_gtid` points to that server's record. -/
theorem lastEntry_eq_some_iff {serverId : UInt32} {g : RplGtid}
    (found : find RplGtid.serverId serverId e.hash = some g) : e.lastEntry = some g ↔ e.lastGtid = some serverId := by
  unfold lastEntry
  constructor
  · intro h
    obtain ⟨last, hlast, hfind⟩ := Option.bind_eq_some_iff.mp h
    rw [hlast, ← key_of_find hfind, key_of_find found]
  · intro h
    rw [h, Option.bind_some, found]

end Element

namespace RplBinlogStateBase

/-- `*elem->last_gtid` for the element of a domain: the domain's last GTID. -/
def lastGtidOf (s : RplBinlogStateBase) (domainId : UInt32) : Option RplGtid :=
  (find Element.domainId domainId s.hash).bind Element.lastEntry

/-- `seq_no_counter` of the element of a domain. -/
def counterOf (s : RplBinlogStateBase) (domainId : UInt32) : Option UInt64 :=
  (find Element.domainId domainId s.hash).map Element.seqNoCounter

/-- The conditions the state is kept in: the elements keyed by domain, each
kept in its own conditions. -/
structure Wf (s : RplBinlogStateBase) : Prop where
  keyed : Keyed Element.domainId s.hash
  elements : ∀ elem ∈ s.hash, elem.Wf

theorem wf_empty : empty.Wf := ⟨List.nodup_nil, fun elem h => by cases h⟩

/-- What a call that records `gtid` changes in what the state says: the
GTID's server and domain now answer with it, and its domain has an element. -/
structure Records (s s' : RplBinlogStateBase) (gtid : RplGtid) : Prop where
  wf : s'.Wf
  findNolock : ∀ d srv, s'.findNolock d srv =
    if gtid.domainId = d ∧ gtid.serverId = srv then some gtid else s.findNolock d srv
  lastGtidOf : ∀ d, s'.lastGtidOf d = if gtid.domainId = d then some gtid else s.lastGtidOf d
  domains : ∀ d, (find Element.domainId d s'.hash).isSome ↔
    (find Element.domainId d s.hash).isSome ∨ gtid.domainId = d

variable {s : RplBinlogStateBase} {gtid : RplGtid}

/-- The element of the GTID's domain, changed in place by `update_element`
after its counter is set: `update_nolock`, `update` and
`update_with_next_gtid` on a known domain. -/
theorem records_modify (wf : s.Wf) {elem : Element}
    (found : find Element.domainId gtid.domainId s.hash = some elem) (c : Element → UInt64) :
    Records s ⟨modify Element.domainId gtid.domainId
      (fun e => ({ e with seqNoCounter := c e } : Element).updateElement gtid) s.hash⟩ gtid := by
  have hkey : ∀ e : Element, (({ e with seqNoCounter := c e } : Element).updateElement gtid).domainId =
      e.domainId := fun e => Element.domainId_updateElement _ _
  have helem : elem.Wf := wf.elements elem (mem_of_find found)
  have hdomain : gtid.domainId = elem.domainId := (key_of_find found).symm
  have hfind : ∀ d, find Element.domainId d (modify Element.domainId gtid.domainId
      (fun e => ({ e with seqNoCounter := c e } : Element).updateElement gtid) s.hash) =
      if gtid.domainId = d then some (({ elem with seqNoCounter := c elem } : Element).updateElement gtid)
      else find Element.domainId d s.hash := by
    intro d
    rw [find_modify hkey, found, Option.map_some]
  refine ⟨⟨keyed_modify hkey wf.keyed, ?_⟩, ?_, ?_, ?_⟩
  · intro e' he'
    obtain ⟨e, he, rfl⟩ := List.mem_map.mp he'
    by_cases hd : e.domainId = gtid.domainId
    · rw [if_pos hd]
      exact Element.wf_updateElement ((wf.elements e he).withCounter _) hd.symm
    · rw [if_neg hd]
      exact wf.elements e he
  · intro d srv
    unfold findNolock
    rw [hfind d]
    by_cases hd : gtid.domainId = d
    · subst hd
      rw [if_pos rfl, found, Option.bind_some, Option.bind_some,
        Element.find_updateElement (helem.withCounter (c elem)) hdomain]
      simp only [true_and]
    · rw [if_neg hd, if_neg (fun h => hd h.1)]
  · intro d
    unfold lastGtidOf
    rw [hfind d]
    by_cases hd : gtid.domainId = d
    · subst hd
      rw [if_pos rfl, if_pos rfl, Option.bind_some,
        Element.lastEntry_updateElement (helem.withCounter (c elem)) hdomain]
    · rw [if_neg hd, if_neg hd]
  · intro d
    rw [hfind d]
    by_cases hd : gtid.domainId = d
    · simp only [hd, ↓reduceIte, Option.isSome_some, or_true]
    · simp only [hd, ↓reduceIte, or_false]

/-- `alloc_element_nolock` on a new domain. -/
theorem records_alloc (wf : s.Wf) (fresh : find Element.domainId gtid.domainId s.hash = none) :
    Records s (s.allocElementNolock gtid) gtid := by
  have hnew : (⟨gtid.domainId, [gtid], some gtid.serverId, gtid.seqNo⟩ : Element).Wf := by
    refine ⟨List.nodup_singleton _, ?_, ?_, ?_⟩
    · intro g hg
      rw [List.mem_singleton.mp hg]
    · intro serverId hlast
      cases hlast
      exact ⟨gtid, List.mem_singleton_self _, rfl⟩
    · intro hlast
      cases hlast
  have hfind : ∀ d, find Element.domainId d (s.allocElementNolock gtid).hash =
      if gtid.domainId = d then some ⟨gtid.domainId, [gtid], some gtid.serverId, gtid.seqNo⟩
      else find Element.domainId d s.hash := by
    intro d
    unfold allocElementNolock
    rw [find_append_singleton]
    by_cases hd : gtid.domainId = d
    · rw [if_pos hd, if_pos hd, ← hd, fresh]
      rfl
    · rw [if_neg hd, if_neg hd, Option.or_none]
  refine ⟨⟨keyed_append_singleton fresh wf.keyed, ?_⟩, ?_, ?_, ?_⟩
  · intro e he
    rcases List.mem_append.mp he with he | he
    · exact wf.elements e he
    · rw [List.mem_singleton.mp he]
      exact hnew
  · intro d srv
    unfold findNolock
    rw [hfind d]
    by_cases hd : gtid.domainId = d
    · subst hd
      rw [if_pos rfl, fresh, Option.bind_some, Option.bind_none, find_singleton]
      by_cases hsrv : gtid.serverId = srv
      · rw [if_pos hsrv, if_pos ⟨rfl, hsrv⟩]
      · rw [if_neg hsrv, if_neg (fun h => hsrv h.2)]
    · rw [if_neg hd, if_neg (fun h => hd h.1)]
  · intro d
    unfold lastGtidOf
    rw [hfind d]
    by_cases hd : gtid.domainId = d
    · rw [if_pos hd, if_pos hd, Option.bind_some]
      unfold Element.lastEntry
      rw [Option.bind_some, find_singleton, if_pos rfl]
    · rw [if_neg hd, if_neg hd]
  · intro d
    rw [hfind d]
    by_cases hd : gtid.domainId = d
    · simp only [hd, ↓reduceIte, Option.isSome_some, or_true]
    · simp only [hd, ↓reduceIte, or_false]

/-- `update_nolock` records the GTID. -/
theorem records_updateNolock (wf : s.Wf) (gtid : RplGtid) : Records s (s.updateNolock gtid) gtid := by
  unfold updateNolock
  cases found : find Element.domainId gtid.domainId s.hash with
  | some elem =>
    exact records_modify wf found
      (fun e => if e.seqNoCounter < gtid.seqNo then gtid.seqNo else e.seqNoCounter)
  | none => exact records_alloc wf found

/-- `rpl_binlog_state::update` fails where `check_strict_sequence` does, and
otherwise does what `update_nolock` does. -/
theorem update_eq (s : RplBinlogStateBase) (gtid : RplGtid) (strict : Bool) :
    s.update gtid strict =
      if strict && s.checkStrictSequence gtid.domainId gtid.seqNo then (1, s) else (0, s.updateNolock gtid) := by
  unfold update updateNolock checkStrictSequence
  cases find Element.domainId gtid.domainId s.hash with
  | some elem => rfl
  | none => cases strict <;> rfl

theorem checkStrictSequence_iff (s : RplBinlogStateBase) (domainId : UInt32) (seqNo : UInt64) :
    s.checkStrictSequence domainId seqNo = true ↔
      ∃ last, s.lastGtidOf domainId = some last ∧ seqNo ≤ last.seqNo := by
  unfold checkStrictSequence lastGtidOf
  cases find Element.domainId domainId s.hash with
  | none => simp
  | some elem =>
    unfold Element.strictOutOfOrder
    cases hlast : elem.lastEntry with
    | none => simp [hlast]
    | some last => simp [hlast]

/-- With `strict`, `rpl_binlog_state::update` fails exactly when the GTID is
not after the last GTID of its domain. -/
theorem update_strict_fails_iff (s : RplBinlogStateBase) (gtid : RplGtid) :
    (s.update gtid true).1 = 1 ↔ ∃ last, s.lastGtidOf gtid.domainId = some last ∧ gtid.seqNo ≤ last.seqNo := by
  rw [update_eq, ← checkStrictSequence_iff]
  cases s.checkStrictSequence gtid.domainId gtid.seqNo <;> simp

/-- A failed `rpl_binlog_state::update` leaves the state as it was. -/
theorem update_state_of_fails {strict : Bool} (h : (s.update gtid strict).1 = 1) :
    (s.update gtid strict).2 = s := by
  rw [update_eq] at h ⊢
  split_ifs at h ⊢
  · rfl
  · simp at h

/-- `update_with_next_gtid` records the GTID it returns. -/
theorem records_updateWithNextGtid (wf : s.Wf) (domainId serverId : UInt32) :
    Records s (s.updateWithNextGtid domainId serverId).2 (s.updateWithNextGtid domainId serverId).1 := by
  unfold updateWithNextGtid
  cases found : find Element.domainId domainId s.hash with
  | some elem =>
    exact @records_modify s ⟨domainId, serverId, elem.seqNoCounter + 1⟩ wf elem found
      (fun e => e.seqNoCounter + 1)
  | none => exact @records_alloc s ⟨domainId, serverId, 1⟩ wf found

/-- The GTID `update_with_next_gtid` returns: the domain's counter plus one,
or `1` on a new domain. -/
theorem updateWithNextGtid_fst (s : RplBinlogStateBase) (domainId serverId : UInt32) :
    (s.updateWithNextGtid domainId serverId).1 =
      ⟨domainId, serverId, ((s.counterOf domainId).map (· + 1)).getD 1⟩ := by
  unfold updateWithNextGtid counterOf
  cases find Element.domainId domainId s.hash <;> rfl

/-! ## Runs -/

/-- What the state `s'` after a run says, read off the state `s` before it,
the GTIDs the run recorded and the domains it bumped: each server and each
domain answers with the last GTID recorded for it, and a domain has an
element once a GTID was recorded or a counter bumped in it. -/
structure Follows (s s' : RplBinlogStateBase) (recorded : List RplGtid) (bumped : List UInt32) :
    Prop where
  wf : s'.Wf
  findNolock : ∀ d srv, s'.findNolock d srv =
    (latest (fun g => g.domainId = d ∧ g.serverId = srv) recorded).or (s.findNolock d srv)
  lastGtidOf : ∀ d, s'.lastGtidOf d = (latest (fun g => g.domainId = d) recorded).or (s.lastGtidOf d)
  domains : ∀ d, (find Element.domainId d s'.hash).isSome ↔
    (find Element.domainId d s.hash).isSome ∨ d ∈ recorded.map RplGtid.domainId ∨ d ∈ bumped

theorem Follows.refl (wf : s.Wf) : Follows s s [] [] :=
  ⟨wf, fun d srv => rfl, fun d => rfl, fun d => by simp⟩

theorem Follows.trans {s₁ s₂ : RplBinlogStateBase} {r₁ r₂ : List RplGtid} {b₁ b₂ : List UInt32}
    (first : Follows s s₁ r₁ b₁) (second : Follows s₁ s₂ r₂ b₂) : Follows s s₂ (r₁ ++ r₂) (b₁ ++ b₂) := by
  refine ⟨second.wf, ?_, ?_, ?_⟩
  · intro d srv
    rw [second.findNolock, first.findNolock, latest_append, Option.or_assoc]
  · intro d
    rw [second.lastGtidOf, first.lastGtidOf, latest_append, Option.or_assoc]
  · intro d
    rw [second.domains, first.domains, List.map_append, List.mem_append, List.mem_append]
    tauto

theorem Records.follows {s' : RplBinlogStateBase} (h : Records s s' gtid) : Follows s s' [gtid] [] := by
  refine ⟨h.wf, ?_, ?_, ?_⟩
  · intro d srv
    rw [h.findNolock, latest_singleton]
    by_cases hpair : gtid.domainId = d ∧ gtid.serverId = srv
    · simp only [hpair, and_self, decide_true, ↓reduceIte, Option.some_or]
    · simp only [hpair, decide_false, Bool.false_eq_true, ↓reduceIte, Option.none_or]
  · intro d
    rw [h.lastGtidOf, latest_singleton]
    by_cases hd : gtid.domainId = d
    · simp only [hd, decide_true, ↓reduceIte, Option.some_or]
    · simp only [hd, decide_false, Bool.false_eq_true, ↓reduceIte, Option.none_or]
  · intro d
    simp only [h.domains, List.map_singleton, List.mem_singleton, List.not_mem_nil, or_false]
    exact or_congr_right eq_comm

/-- `bump_seq_no_if_needed` changes no GTID and no last GTID. -/
theorem follows_bumpSeqNoIfNeeded (wf : s.Wf) (domainId : UInt32) (seqNo : UInt64) :
    Follows s (s.bumpSeqNoIfNeeded domainId seqNo) [] [domainId] := by
  unfold bumpSeqNoIfNeeded
  cases found : find Element.domainId domainId s.hash with
  | some elem =>
    have hkey : ∀ e : Element, (e.raiseSeqNoCounter seqNo).domainId = e.domainId := fun e => rfl
    have hfind : ∀ d, find Element.domainId d
        (modify Element.domainId domainId (fun e => e.raiseSeqNoCounter seqNo) s.hash) =
        if domainId = d then some (elem.raiseSeqNoCounter seqNo) else find Element.domainId d s.hash := by
      intro d
      rw [find_modify hkey, found, Option.map_some]
    refine ⟨⟨keyed_modify hkey wf.keyed, ?_⟩, ?_, ?_, ?_⟩
    · intro e' he'
      obtain ⟨e, he, rfl⟩ := List.mem_map.mp he'
      split_ifs
      · exact (wf.elements e he).withCounter _
      · exact wf.elements e he
    -- the raised element has the same GTIDs and the same `last_gtid`
    · intro d srv
      unfold findNolock
      rw [hfind d]
      by_cases hd : domainId = d
      · rw [if_pos hd, ← hd, found]
        rfl
      · rw [if_neg hd]
        rfl
    · intro d
      unfold lastGtidOf
      rw [hfind d]
      by_cases hd : domainId = d
      · rw [if_pos hd, ← hd, found]
        rfl
      · rw [if_neg hd]
        rfl
    · intro d
      rw [hfind d]
      by_cases hd : domainId = d
      · simp only [hd, ↓reduceIte, Option.isSome_some, List.mem_singleton, or_true]
      · simp only [hd, ↓reduceIte, List.mem_singleton, List.map_nil, List.not_mem_nil, false_or]
        exact ⟨fun h => .inl h, fun h => h.elim id (fun h => absurd h.symm hd)⟩
  | none =>
    have hnew : (⟨domainId, [], none, seqNo⟩ : Element).Wf :=
      ⟨List.nodup_nil, (fun g hg => by cases hg), (fun serverId h => by cases h), fun _ => rfl⟩
    have hfind : ∀ d, find Element.domainId d (s.hash ++ [⟨domainId, [], none, seqNo⟩]) =
        if domainId = d then some ⟨domainId, [], none, seqNo⟩ else find Element.domainId d s.hash := by
      intro d
      rw [find_append_singleton]
      by_cases hd : domainId = d
      · rw [if_pos hd, if_pos hd, ← hd, found]
        rfl
      · rw [if_neg hd, if_neg hd, Option.or_none]
    refine ⟨⟨keyed_append_singleton found wf.keyed, ?_⟩, ?_, ?_, ?_⟩
    · intro e he
      rcases List.mem_append.mp he with he | he
      · exact wf.elements e he
      · rw [List.mem_singleton.mp he]
        exact hnew
    · intro d srv
      unfold findNolock
      rw [hfind d]
      by_cases hd : domainId = d
      · subst hd
        rw [if_pos rfl, found]
        rfl
      · rw [if_neg hd]
        rfl
    · intro d
      unfold lastGtidOf
      rw [hfind d]
      by_cases hd : domainId = d
      · subst hd
        rw [if_pos rfl, found]
        rfl
      · rw [if_neg hd]
        rfl
    · intro d
      rw [hfind d]
      by_cases hd : domainId = d
      · simp only [hd, ↓reduceIte, Option.isSome_some, List.mem_singleton, or_true]
      · simp only [hd, ↓reduceIte, List.mem_singleton, List.map_nil, List.not_mem_nil, false_or]
        exact ⟨fun h => .inl h, fun h => h.elim id (fun h => absurd h.symm hd)⟩

/-- The run lemma of `Gtid_index_base::update_gtid_state`: the state
follows the list. -/
theorem follows_updateGtidState (wf : s.Wf) (gtidList : List RplGtid) :
    Follows s (s.updateGtidState gtidList) gtidList [] := by
  induction gtidList generalizing s with
  | nil => exact Follows.refl wf
  | cons gtid rest ih =>
    have first := (records_updateNolock wf gtid).follows
    exact first.trans (ih first.wf)

/-- The step lemma of a call. -/
theorem follows_step (wf : s.Wf) (c : Call) :
    Follows s (c.step s).1 (c.step s).2.toList (c.bumped.toList.map Prod.fst) := by
  cases c with
  | updateNolock gtid => exact (records_updateNolock wf gtid).follows
  | update gtid strict =>
    show Follows s (s.update gtid strict).2
      (if (s.update gtid strict).1 = 0 then some gtid else none).toList []
    rw [update_eq]
    by_cases hfail : (strict && s.checkStrictSequence gtid.domainId gtid.seqNo) = true
    · simp only [hfail, ↓reduceIte, one_ne_zero, Option.toList_none]
      exact Follows.refl wf
    · simp only [hfail, Bool.false_eq_true, ↓reduceIte, Option.toList_some]
      exact (records_updateNolock wf gtid).follows
  | updateWithNextGtid domainId serverId => exact (records_updateWithNextGtid wf domainId serverId).follows
  | bumpSeqNoIfNeeded domainId seqNo => exact follows_bumpSeqNoIfNeeded wf domainId seqNo

/-- The run lemma of the calls. -/
theorem follows_run (wf : s.Wf) (cs : List Call) :
    Follows s (s.run cs) (s.recorded cs) ((cs.filterMap Call.bumped).map Prod.fst) := by
  induction cs generalizing s with
  | nil => exact Follows.refl wf
  | cons c rest ih =>
    have first := follows_step wf c
    have hbumped : ((c :: rest).filterMap Call.bumped).map Prod.fst =
        c.bumped.toList.map Prod.fst ++ (rest.filterMap Call.bumped).map Prod.fst := by
      cases c <;> rfl
    rw [hbumped]
    exact first.trans (ih first.wf)

/-! ## The walk of `get_gtid_list_nolock` and `load_nolock(orig_state)` -/

theorem findNolock_eq_some_iff (wf : s.Wf) {d srv : UInt32} {g : RplGtid} :
    s.findNolock d srv = some g ↔ (∃ elem ∈ s.hash, g ∈ elem.hash) ∧ g.domainId = d ∧ g.serverId = srv := by
  unfold findNolock
  constructor
  · intro h
    obtain ⟨elem, found, hg⟩ := Option.bind_eq_some_iff.mp h
    have helem := mem_of_find found
    refine ⟨⟨elem, helem, mem_of_find hg⟩, ?_, key_of_find hg⟩
    rw [(wf.elements elem helem).domain g (mem_of_find hg), key_of_find found]
  · rintro ⟨⟨elem, helem, hg⟩, hd, hsrv⟩
    have hdomain : elem.domainId = d := ((wf.elements elem helem).domain g hg).symm.trans hd
    rw [(find_eq_some_iff wf.keyed).mpr ⟨helem, hdomain⟩, Option.bind_some]
    exact (find_eq_some_iff (wf.elements elem helem).keyed).mpr ⟨hg, hsrv⟩

theorem gtidWalk_perm (wf : s.Wf) : s.gtidWalk.Perm (s.hash.flatMap Element.hash) :=
  List.Perm.flatMap_left _ (fun elem helem => Element.gtids_perm (wf.elements elem helem))

/-- A GTID is walked exactly when `find_nolock` returns it. -/
theorem mem_gtidWalk (wf : s.Wf) {g : RplGtid} :
    g ∈ s.gtidWalk ↔ s.findNolock g.domainId g.serverId = some g := by
  rw [(gtidWalk_perm wf).mem_iff, List.mem_flatMap, findNolock_eq_some_iff wf]
  simp

/-- The walk holds each `(domain_id, server_id)` once. -/
theorem nodup_gtidWalk (wf : s.Wf) : (s.gtidWalk.map pairOf).Nodup := by
  rw [((gtidWalk_perm wf).map pairOf).nodup_iff, List.map_flatMap, List.nodup_flatMap]
  constructor
  · -- within an element the servers differ
    intro elem helem
    apply List.Nodup.of_map Prod.snd
    rw [List.map_map]
    exact (wf.elements elem helem).keyed
  · -- the GTIDs of two elements have two domains
    have hne : s.hash.Pairwise (fun a b => a.domainId ≠ b.domainId) := List.pairwise_map.mp wf.keyed
    apply hne.imp_of_mem
    intro a b ha hb hab x hxa hxb
    obtain ⟨g, hg, rfl⟩ := List.mem_map.mp hxa
    obtain ⟨g', hg', hpair⟩ := List.mem_map.mp hxb
    apply hab
    have hd : g'.domainId = g.domainId := congrArg Prod.fst hpair
    rw [← (wf.elements a ha).domain g hg, ← (wf.elements b hb).domain g' hg', hd]

theorem length_gtidWalk (wf : s.Wf) : s.gtidWalk.length = (s.hash.map (fun elem => elem.hash.length)).sum := by
  rw [(gtidWalk_perm wf).length_eq, List.length_flatMap]

/-- `count_nolock` sums the records modulo `2^32`. -/
theorem countNolock_toNat (s : RplBinlogStateBase) :
    s.countNolock.toNat = (s.hash.map (fun elem => elem.hash.length)).sum % 2 ^ 32 := by
  have hfold : ∀ (l : List Element) (c : UInt32),
      (l.foldl (fun c elem => c + elem.hash.length.toUInt32) c).toNat =
        (c.toNat + (l.map (fun elem => elem.hash.length)).sum) % 2 ^ 32 := by
    intro l
    induction l with
    | nil =>
      intro c
      simp [Nat.mod_eq_of_lt c.toNat_lt]
    | cons elem rest ih =>
      intro c
      rw [List.foldl_cons, ih, UInt32.toNat_add, Nat.toUInt32_eq, UInt32.toNat_ofNat',
        List.map_cons, List.sum_cons]
      omega
  unfold countNolock
  rw [hfold, UInt32.toNat_zero, Nat.zero_add]

/-- The last GTID of a domain is the domain's last one in the walk. -/
theorem latest_domain_gtidWalk (wf : s.Wf) (d : UInt32) :
    latest (fun g => g.domainId = d) s.gtidWalk = s.lastGtidOf d := by
  have hf : ∀ e ∈ s.hash, ∀ g ∈ e.gtids, g.domainId = e.domainId :=
    fun e he g hg => (wf.elements e he).domain g ((Element.gtids_perm (wf.elements e he)).subset hg)
  unfold gtidWalk lastGtidOf
  rw [latest_flatMap wf.keyed hf (fun g hg => of_decide_eq_true hg)]
  cases found : find Element.domainId d s.hash with
  | none => rfl
  | some e =>
    rw [Option.bind_some, Option.bind_some, ← key_of_find found]
    exact Element.latest_gtids (wf.elements e (mem_of_find found))

/-- The GTID of a server in the walk is the one `find_nolock` returns. -/
theorem latest_pair_gtidWalk (wf : s.Wf) (d srv : UInt32) :
    latest (fun g => g.domainId = d ∧ g.serverId = srv) s.gtidWalk = s.findNolock d srv := by
  have hf : ∀ e ∈ s.hash, ∀ g ∈ e.gtids, g.domainId = e.domainId :=
    fun e he g hg => (wf.elements e he).domain g ((Element.gtids_perm (wf.elements e he)).subset hg)
  unfold gtidWalk findNolock
  rw [latest_flatMap wf.keyed hf (fun g hg => (of_decide_eq_true hg).1)]
  cases found : find Element.domainId d s.hash with
  | none => rfl
  | some e =>
    rw [Option.bind_some, Option.bind_some, ← key_of_find found]
    exact Element.latest_pair_gtids (wf.elements e (mem_of_find found)) srv

/-- In the walk a domain's last GTID comes after the domain's other GTIDs. -/
theorem lastGtidOf_ne_of_lt (wf : s.Wf) {i j : Nat} (hi : i < s.gtidWalk.length)
    (hj : j < s.gtidWalk.length) (hij : i < j) (hdomain : s.gtidWalk[i].domainId = s.gtidWalk[j].domainId) :
    s.lastGtidOf s.gtidWalk[i].domainId ≠ some s.gtidWalk[i] := by
  intro hlast
  rw [← latest_domain_gtidWalk wf] at hlast
  have hafter := latest_not_after ((nodup_gtidWalk wf).of_map pairOf) hi hj hij hlast
  rw [hdomain] at hafter
  simp at hafter

/-- The `pos` loop writes the GTIDs while there is room, and stops with `1`
at the first GTID that does not fit. -/
theorem getGtidListLoop_eq (listSize : UInt32) (gtids : List RplGtid) :
    ∀ gtidList : List RplGtid, gtidList.length ≤ listSize.toNat →
      getGtidListLoop listSize gtids gtidList =
        if gtidList.length + gtids.length ≤ listSize.toNat then (0, gtidList ++ gtids)
        else (1, gtidList ++ gtids.take (listSize.toNat - gtidList.length)) := by
  induction gtids with
  | nil =>
    intro gtidList hroom
    simp [getGtidListLoop, hroom]
  | cons gtid rest ih =>
    intro gtidList hroom
    rw [getGtidListLoop]
    by_cases hfull : gtidList.length ≥ listSize.toNat
    · have hlen : gtidList.length = listSize.toNat := by omega
      rw [if_pos hfull, if_neg (by simp; omega), hlen, Nat.sub_self, List.take_zero, List.append_nil]
    · rw [if_neg hfull, ih (gtidList ++ [gtid]) (by simp; omega)]
      have htake : (gtid :: rest).take (listSize.toNat - gtidList.length) =
          gtid :: rest.take (listSize.toNat - (gtidList ++ [gtid]).length) := by
        rw [List.length_append, List.length_singleton,
          show listSize.toNat - gtidList.length = listSize.toNat - (gtidList.length + 1) + 1 by omega,
          List.take_succ_cons]
      simp only [List.length_append, List.length_cons, List.length_nil, List.append_assoc,
        List.singleton_append, htake]
      have hcond : gtidList.length + (0 + 1) + rest.length ≤ listSize.toNat ↔
          gtidList.length + (rest.length + 1) ≤ listSize.toNat := by omega
      by_cases hfit : gtidList.length + (rest.length + 1) ≤ listSize.toNat
      · rw [if_pos (hcond.mpr hfit), if_pos hfit]
      · rw [if_neg (fun h => hfit (hcond.mp h)), if_neg hfit]

/-- `get_gtid_list_nolock` returns `0` with the whole walk when it fits in
the list, and `1` after filling the list otherwise. -/
theorem getGtidListNolock_eq (s : RplBinlogStateBase) (listSize : UInt32) :
    s.getGtidListNolock listSize =
      if s.gtidWalk.length ≤ listSize.toNat then (0, s.gtidWalk) else (1, s.gtidWalk.take listSize.toNat) := by
  unfold getGtidListNolock
  rw [getGtidListLoop_eq listSize s.gtidWalk [] (Nat.zero_le _)]
  simp

theorem findNolock_empty (d srv : UInt32) : empty.findNolock d srv = none := rfl

theorem lastGtidOf_empty (d : UInt32) : empty.lastGtidOf d = none := rfl

/-- After a run from the empty state the walk holds a GTID for each
`(domain_id, server_id)` the run recorded, and for no other. -/
theorem mem_map_pairOf_gtidWalk {s' : RplBinlogStateBase} {recorded : List RplGtid} {bumped : List UInt32}
    (h : Follows empty s' recorded bumped) (p : UInt32 × UInt32) :
    p ∈ s'.gtidWalk.map pairOf ↔ p ∈ recorded.map pairOf := by
  obtain ⟨d, srv⟩ := p
  have hfind := h.findNolock d srv
  rw [findNolock_empty, Option.or_none] at hfind
  constructor
  · intro hp
    obtain ⟨g, hg, hpair⟩ := List.mem_map.mp hp
    have hfound := (mem_gtidWalk h.wf).mp hg
    simp only [pairOf, Prod.mk.injEq] at hpair
    rw [hpair.1, hpair.2, hfind] at hfound
    obtain ⟨hpg, hmem⟩ := latest_some hfound
    exact List.mem_map.mpr ⟨g, hmem, by simpa [pairOf] using hpg⟩
  · intro hp
    obtain ⟨g, hg, hpair⟩ := List.mem_map.mp hp
    simp only [pairOf, Prod.mk.injEq] at hpair
    cases hlatest : latest (fun g => g.domainId = d ∧ g.serverId = srv) recorded with
    | none =>
      have hnot := (latest_eq_none_iff.mp hlatest) g hg
      simp [hpair] at hnot
    | some g' =>
      rw [hlatest] at hfind
      obtain ⟨-, hd, hsrv⟩ := (findNolock_eq_some_iff h.wf).mp hfind
      apply List.mem_map.mpr
      refine ⟨g', (mem_gtidWalk h.wf).mpr ?_, ?_⟩
      · rw [hd, hsrv]
        exact hfind
      · simp [pairOf, hd, hsrv]

/-- After a run from the empty state the walk has one GTID for each
`(domain_id, server_id)` pair the run recorded. -/
theorem length_gtidWalk_of_follows {s' : RplBinlogStateBase} {recorded : List RplGtid}
    {bumped : List UInt32} (h : Follows empty s' recorded bumped) :
    s'.gtidWalk.length = (recorded.map pairOf).dedup.length := by
  have hperm : (s'.gtidWalk.map pairOf).Perm (recorded.map pairOf).dedup := by
    apply (List.perm_ext_iff_of_nodup (nodup_gtidWalk h.wf) (List.nodup_dedup _)).mpr
    intro p
    rw [List.mem_dedup]
    exact mem_map_pairOf_gtidWalk h p
  rw [← hperm.length_eq, List.length_map]

/-- After a run from the empty state `count_nolock` is the number of
`(domain_id, server_id)` pairs the run recorded, modulo `2^32`. -/
theorem countNolock_of_follows {s' : RplBinlogStateBase} {recorded : List RplGtid} {bumped : List UInt32}
    (h : Follows empty s' recorded bumped) :
    s'.countNolock.toNat = (recorded.map pairOf).dedup.length % 2 ^ 32 := by
  rw [countNolock_toNat, ← length_gtidWalk h.wf, length_gtidWalk_of_follows h]

/-- Replaying the walk of a state on any state gives its GTIDs and its last
GTIDs, over those of the state replayed on. -/
theorem follows_updateGtidState_gtidWalk {d' : RplBinlogStateBase} (wfd : d'.Wf) (wf : s.Wf) :
    (∀ d srv, (s.updateGtidState d'.gtidWalk).findNolock d srv = (d'.findNolock d srv).or (s.findNolock d srv)) ∧
    (∀ d, (s.updateGtidState d'.gtidWalk).lastGtidOf d = (d'.lastGtidOf d).or (s.lastGtidOf d)) := by
  have replay := follows_updateGtidState wf d'.gtidWalk
  constructor
  · intro d srv
    rw [replay.findNolock, latest_pair_gtidWalk wfd]
  · intro d
    rw [replay.lastGtidOf, latest_domain_gtidWalk wfd]

/-! ## `is_before_pos` -/

/-- `is_before_pos` holds when no GTID of the position has a counterpart in
the state with a larger `seq_no`, or an equal one that is not its domain's
last GTID, and every domain with GTIDs in the state is in the position. -/
theorem isBeforePos_iff (wf : s.Wf) (pos : List RplGtid) :
    s.isBeforePos pos = true ↔
      (∀ e ∈ pos, ∀ g, s.findNolock e.domainId e.serverId = some g →
        ¬(e.seqNo < g.seqNo ∨ (g.seqNo = e.seqNo ∧ s.lastGtidOf e.domainId ≠ some g))) ∧
      (∀ d srv g, s.findNolock d srv = some g → ∃ e ∈ pos, e.domainId = d) := by
  unfold isBeforePos
  rw [Bool.and_eq_true, List.all_eq_true, List.all_eq_true]
  apply and_congr
  · apply forall₂_congr
    intro e he
    unfold findNolock lastGtidOf
    cases found : find Element.domainId e.domainId s.hash with
    | none => simp
    | some elem =>
      cases hg : find RplGtid.serverId e.serverId elem.hash with
      | none => simp [hg]
      | some g =>
        have hsrv : g.serverId = e.serverId := key_of_find hg
        simp only [Option.bind_some, hg, Option.some.injEq, forall_eq', ne_eq,
          Element.lastEntry_eq_some_iff hg, hsrv]
        simp [imp_iff_not_or]
  · constructor
    · intro h d srv g hfind
      obtain ⟨⟨elem, helem, hg⟩, hd, -⟩ := (findNolock_eq_some_iff wf).mp hfind
      have hpos := h elem helem
      have hlen : 0 < elem.hash.length := List.length_pos_of_mem hg
      simp only [hlen, decide_true, Bool.true_and, Bool.not_eq_true', Option.isNone_eq_false_iff,
        Option.isSome_iff_exists] at hpos
      obtain ⟨e, he⟩ := hpos
      refine ⟨e, mem_of_find he, ?_⟩
      rw [key_of_find he, ← (wf.elements elem helem).domain g hg, hd]
    · intro h elem helem
      cases hlen : elem.hash with
      | nil => simp
      | cons g rest =>
        have hg : g ∈ elem.hash := by rw [hlen]; exact List.mem_cons_self
        have hfind : s.findNolock elem.domainId g.serverId = some g :=
          (findNolock_eq_some_iff wf).mpr ⟨⟨elem, helem, hg⟩, (wf.elements elem helem).domain g hg, rfl⟩
        obtain ⟨e, he, hd⟩ := h _ _ _ hfind
        cases hpos : find RplGtid.domainId elem.domainId pos with
        | none => exact absurd hd ((find_eq_none_iff.mp hpos) e he)
        | some e' => simp

/-- One `update_nolock` whose `seq_no` is above its server's last one: a
state that is not before the position stays so. -/
theorem isBeforePos_updateNolock (wf : s.Wf) (pos : List RplGtid)
    (above : ∀ g0, s.findNolock gtid.domainId gtid.serverId = some g0 → g0.seqNo < gtid.seqNo)
    (after : s.isBeforePos pos = false) : (s.updateNolock gtid).isBeforePos pos = false := by
  have step := records_updateNolock wf gtid
  rw [Bool.eq_false_iff, ne_eq, isBeforePos_iff wf] at after
  rw [Bool.eq_false_iff, ne_eq, isBeforePos_iff step.wf]
  rintro ⟨later, domains⟩
  apply after
  constructor
  · intro e he g1 hfind hbad
    by_cases hpair : gtid.domainId = e.domainId ∧ gtid.serverId = e.serverId
    · -- the server of the GTID: its `seq_no` grew past the position's
      have hnew := step.findNolock e.domainId e.serverId
      rw [if_pos hpair] at hnew
      have hlt := above g1 (by rw [hpair.1, hpair.2]; exact hfind)
      apply later e he gtid hnew
      left
      rw [UInt64.lt_iff_toNat_lt] at hlt ⊢
      rcases hbad with hbad | ⟨heq, -⟩
      · rw [UInt64.lt_iff_toNat_lt] at hbad
        omega
      · have := congrArg UInt64.toNat heq
        omega
    · -- another server: its GTID is unchanged, and it is still not the last
      have hold := step.findNolock e.domainId e.serverId
      rw [if_neg hpair, hfind] at hold
      apply later e he g1 hold
      rcases hbad with hbad | ⟨heq, hlast⟩
      · exact .inl hbad
      · refine .inr ⟨heq, ?_⟩
        rw [step.lastGtidOf]
        split_ifs with hd
        · intro hsame
          have hsrv : g1.serverId = e.serverId := (findNolock_eq_some_iff wf).mp hfind |>.2.2
          exact hpair ⟨hd, (Option.some.inj hsame) ▸ hsrv⟩
        · exact hlast
  · intro d srv g1 hfind
    have hnew := step.findNolock d srv
    rw [hfind] at hnew
    split_ifs at hnew
    · exact domains d srv gtid hnew
    · exact domains d srv g1 hnew

theorem updateGtidState_append_singleton (s : RplBinlogStateBase) (gtids : List RplGtid) (gtid : RplGtid) :
    s.updateGtidState (gtids ++ [gtid]) = (s.updateGtidState gtids).updateNolock gtid := by
  simp [updateGtidState, List.foldl_append]

/-- The run lemma of `is_before_pos`: along GTIDs whose `seq_no` grows for
each server, counting the server's GTID in the first state, a state that is
not before the position is followed by none that is. -/
theorem isBeforePos_updateGtidState_mono (wf : s.Wf) (pos gtids : List RplGtid)
    (increasing : ∀ i j (hi : i < gtids.length) (hj : j < gtids.length), i < j →
      pairOf gtids[i] = pairOf gtids[j] → gtids[i].seqNo < gtids[j].seqNo)
    (above : ∀ g ∈ gtids, ∀ g0, s.findNolock g.domainId g.serverId = some g0 → g0.seqNo < g.seqNo)
    {i j : Nat} (hij : i ≤ j) (hj : j ≤ gtids.length)
    (after : (s.updateGtidState (gtids.take i)).isBeforePos pos = false) :
    (s.updateGtidState (gtids.take j)).isBeforePos pos = false := by
  induction j with
  | zero =>
    rw [Nat.le_zero.mp hij] at after
    exact after
  | succ j ih =>
    rcases Nat.lt_or_eq_of_le hij with hlt | rfl
    · have hjl : j < gtids.length := by omega
      have hprev := ih (by omega) (by omega)
      have follows := follows_updateGtidState wf (gtids.take j)
      rw [← List.take_concat_get' gtids j hjl, updateGtidState_append_singleton]
      apply isBeforePos_updateNolock follows.wf pos _ hprev
      intro g0 hfind
      rw [follows.findNolock] at hfind
      cases hlatest : latest (fun g => g.domainId = gtids[j].domainId ∧ g.serverId = gtids[j].serverId)
          (gtids.take j) with
      | none =>
        rw [hlatest, Option.none_or] at hfind
        exact above gtids[j] (List.getElem_mem hjl) g0 hfind
      | some g =>
        rw [hlatest, Option.some_or] at hfind
        cases hfind
        -- an earlier GTID of the same server
        obtain ⟨hpg, hmem⟩ := latest_some hlatest
        obtain ⟨k, hk, rfl⟩ := List.getElem_of_mem hmem
        rw [List.length_take] at hk
        rw [List.getElem_take]
        simp only [decide_eq_true_eq, List.getElem_take] at hpg
        exact increasing k j (by omega) hjl (by omega) (by simp [pairOf, hpg.1, hpg.2])
    · exact after

/-! ## The counters -/

/-- Every `seq_no` recorded or bumped in a domain is at most the domain's
`seq_no_counter`. -/
def CountersAbove (s : RplBinlogStateBase) (seqNos : List (UInt32 × UInt64)) : Prop :=
  ∀ x ∈ seqNos, ∃ c, s.counterOf x.1 = some c ∧ x.2 ≤ c

theorem CountersAbove.mono {seqNos seqNos' : List (UInt32 × UInt64)} (h : CountersAbove s seqNos')
    (sub : ∀ x ∈ seqNos, x ∈ seqNos') : CountersAbove s seqNos :=
  fun x hx => h x (sub x hx)

theorem counterOf_modify {f : Element → Element} (hf : ∀ e, (f e).domainId = e.domainId) (k d : UInt32) :
    counterOf ⟨modify Element.domainId k f s.hash⟩ d =
      if k = d then (find Element.domainId k s.hash).map (fun e => (f e).seqNoCounter) else s.counterOf d := by
  unfold counterOf
  rw [find_modify hf]
  split_ifs
  · rw [Option.map_map]
    rfl
  · rfl

theorem counterOf_append_singleton (e : Element) (fresh : find Element.domainId e.domainId s.hash = none)
    (d : UInt32) :
    counterOf ⟨s.hash ++ [e]⟩ d = if e.domainId = d then some e.seqNoCounter else s.counterOf d := by
  unfold counterOf
  rw [find_append_singleton]
  by_cases hd : e.domainId = d
  · rw [if_pos hd, if_pos hd, ← hd, fresh]
    rfl
  · rw [if_neg hd, if_neg hd, Option.or_none]

theorem le_raise (c q : UInt64) : c ≤ (if c < q then q else c) ∧ q ≤ (if c < q then q else c) := by
  rw [UInt64.le_iff_toNat_le, UInt64.le_iff_toNat_le]
  split_ifs with hlt
  · rw [UInt64.lt_iff_toNat_lt] at hlt
    omega
  · rw [UInt64.lt_iff_toNat_lt] at hlt
    omega

/-- Below `2^64 - 1` the counter's increment does not wrap. -/
theorem toNat_add_one {c : UInt64} (hc : c ≠ 18446744073709551615) : (c + 1).toNat = c.toNat + 1 := by
  have hlt : c.toNat < 18446744073709551615 := by
    have hne : c.toNat ≠ 18446744073709551615 := fun h => hc (UInt64.toNat_inj.mp (by rw [h]; rfl))
    have := c.toNat_lt
    omega
  rw [UInt64.toNat_add, UInt64.toNat_one, Nat.mod_eq_of_lt (by omega)]

/-- A counter raised to `seq_no`, in place or in a new element: no counter
decreases and the domain's counter reaches `seq_no`. -/
theorem counters_raise {s' : RplBinlogStateBase} {d : UInt32} {q : UInt64}
    (hcounter : ∀ d', s'.counterOf d' =
      if d = d' then some ((s.counterOf d).elim q (fun c => if c < q then q else c)) else s.counterOf d') :
    (∀ d' c0, s.counterOf d' = some c0 → ∃ c1, s'.counterOf d' = some c1 ∧ c0 ≤ c1) ∧
      ∃ c1, s'.counterOf d = some c1 ∧ q ≤ c1 := by
  constructor
  · intro d' c0 hc0
    rw [hcounter d']
    split_ifs with hd
    · subst hd
      rw [hc0]
      exact ⟨_, rfl, (le_raise c0 q).1⟩
    · exact ⟨c0, hc0, UInt64.le_refl c0⟩
  · rw [hcounter d, if_pos rfl]
    refine ⟨_, rfl, ?_⟩
    cases s.counterOf d with
    | none => exact UInt64.le_refl q
    | some c => exact (le_raise c q).2

/-- The counter after `update_nolock`: raised to the GTID's `seq_no`, or the
`seq_no` in a new element. -/
theorem counterOf_updateNolock (gtid : RplGtid) (d : UInt32) :
    (s.updateNolock gtid).counterOf d = if gtid.domainId = d then
      some ((s.counterOf gtid.domainId).elim gtid.seqNo (fun c => if c < gtid.seqNo then gtid.seqNo else c))
      else s.counterOf d := by
  unfold updateNolock
  cases found : find Element.domainId gtid.domainId s.hash with
  | some elem =>
    dsimp only
    rw [counterOf_modify (f := fun e => e.updateCounted gtid) (fun e => Element.domainId_updateElement _ _)]
    unfold counterOf
    simp only [found, Option.map_some, Option.elim, Element.updateCounted, Element.seqNoCounter_updateElement]
    rfl
  | none =>
    unfold allocElementNolock
    rw [counterOf_append_singleton _ found]
    unfold counterOf
    rw [found]
    rfl

/-- The step lemma of the counters: a call that does not wrap lowers no
counter, and its own `seq_no` is at most its domain's counter after it. -/
theorem counters_step (c : Call) (nowrap : c.wraps s = false) :
    (∀ d c0, s.counterOf d = some c0 → ∃ c1, (c.step s).1.counterOf d = some c1 ∧ c0 ≤ c1) ∧
    CountersAbove (c.step s).1
      ((c.step s).2.toList.map (fun g => (g.domainId, g.seqNo)) ++ c.bumped.toList) := by
  cases c with
  | updateNolock gtid =>
    obtain ⟨grow, reach⟩ := counters_raise (counterOf_updateNolock gtid)
    refine ⟨grow, ?_⟩
    intro x hx
    simp only [Call.step, Call.bumped, Option.toList_some, List.map_cons, List.map_nil,
      Option.toList_none, List.append_nil, List.mem_singleton] at hx
    subst hx
    exact reach
  | update gtid strict =>
    show (∀ d c0, s.counterOf d = some c0 → ∃ c1, (s.update gtid strict).2.counterOf d = some c1 ∧ c0 ≤ c1) ∧
      CountersAbove (s.update gtid strict).2
        ((if (s.update gtid strict).1 = 0 then some gtid else none).toList.map (fun g => (g.domainId, g.seqNo)) ++ [])
    rw [update_eq]
    by_cases hfail : (strict && s.checkStrictSequence gtid.domainId gtid.seqNo) = true
    · simp only [hfail, ↓reduceIte, one_ne_zero, Option.toList_none, List.map_nil, List.append_nil]
      exact ⟨fun d c0 hc0 => ⟨c0, hc0, UInt64.le_refl c0⟩, fun x hx => by cases hx⟩
    · obtain ⟨grow, reach⟩ := counters_raise (counterOf_updateNolock gtid)
      simp only [hfail, Bool.false_eq_true, ↓reduceIte, Option.toList_some, List.map_cons,
        List.map_nil, List.append_nil]
      refine ⟨grow, ?_⟩
      intro x hx
      rw [List.mem_singleton.mp hx]
      exact reach
  | updateWithNextGtid domainId serverId =>
    have hcounter : ∀ d', (s.updateWithNextGtid domainId serverId).2.counterOf d' =
        if domainId = d' then some ((s.counterOf domainId).elim 1 (· + 1)) else s.counterOf d' := by
      intro d'
      unfold updateWithNextGtid
      cases found : find Element.domainId domainId s.hash with
      | some elem =>
        dsimp only
        rw [counterOf_modify (f := fun e => ({ e with seqNoCounter := e.seqNoCounter + 1 } : Element).updateElement
          ⟨domainId, serverId, elem.seqNoCounter + 1⟩) (fun e => Element.domainId_updateElement _ _)]
        unfold counterOf
        simp only [found, Option.map_some, Option.elim, Element.seqNoCounter_updateElement]
      | none =>
        unfold allocElementNolock
        rw [counterOf_append_singleton _ found]
        unfold counterOf
        rw [found]
        rfl
    have hnowrap : ∀ c, s.counterOf domainId = some c → c ≠ 18446744073709551615 := by
      intro c hc hmax
      simp only [Call.wraps] at nowrap
      unfold counterOf at hc
      cases found : find Element.domainId domainId s.hash with
      | none =>
        rw [found] at hc
        cases hc
      | some elem =>
        rw [found] at hc nowrap
        simp only [Option.map_some, Option.some.injEq] at hc
        simp [hc, hmax] at nowrap
    constructor
    · intro d c0 hc0
      rw [Call.step, hcounter d]
      split_ifs with hd
      · subst hd
        rw [hc0]
        refine ⟨_, rfl, ?_⟩
        rw [UInt64.le_iff_toNat_le, Option.elim, toNat_add_one (hnowrap c0 hc0)]
        omega
      · exact ⟨c0, hc0, UInt64.le_refl c0⟩
    · intro x hx
      simp only [Call.step, Call.bumped, Option.toList_some, List.map_cons, List.map_nil,
        Option.toList_none, List.append_nil, List.mem_singleton] at hx
      subst hx
      rw [Call.step, hcounter, updateWithNextGtid_fst, if_pos rfl]
      refine ⟨_, rfl, ?_⟩
      cases s.counterOf domainId <;> exact UInt64.le_refl _
  | bumpSeqNoIfNeeded domainId seqNo =>
    have hcounter : ∀ d', (s.bumpSeqNoIfNeeded domainId seqNo).counterOf d' =
        if domainId = d' then
          some ((s.counterOf domainId).elim seqNo (fun c => if c < seqNo then seqNo else c))
        else s.counterOf d' := by
      intro d'
      unfold bumpSeqNoIfNeeded
      cases found : find Element.domainId domainId s.hash with
      | some elem =>
        dsimp only
        rw [counterOf_modify (f := fun e => e.raiseSeqNoCounter seqNo) (fun e => rfl)]
        unfold counterOf
        rw [found]
        rfl
      | none =>
        rw [counterOf_append_singleton ⟨domainId, [], none, seqNo⟩ found]
        unfold counterOf
        rw [found]
        rfl
    obtain ⟨grow, reach⟩ := counters_raise hcounter
    refine ⟨grow, ?_⟩
    intro x hx
    simp only [Call.step, Call.bumped, Option.toList_some, Option.toList_none, List.map_nil,
      List.nil_append, List.mem_singleton] at hx
    subst hx
    exact reach

/-- The run lemma of the counters. -/
theorem countersAbove_run (cs : List Call) : ∀ (s : RplBinlogStateBase) (seqNos : List (UInt32 × UInt64)),
    s.noWrap cs = true → CountersAbove s seqNos →
    CountersAbove (s.run cs)
      (seqNos ++ (s.recorded cs).map (fun g => (g.domainId, g.seqNo)) ++ cs.filterMap Call.bumped) := by
  induction cs with
  | nil =>
    intro s seqNos _ above
    simpa [run, recorded] using above
  | cons c rest ih =>
    intro s seqNos nowrap above
    simp only [noWrap, Bool.and_eq_true, Bool.not_eq_true'] at nowrap
    obtain ⟨grow, reach⟩ := counters_step c nowrap.1
    -- the counters after the call are above the old `seq_no`s and the call's
    have above' : CountersAbove (c.step s).1
        (seqNos ++ ((c.step s).2.toList.map (fun g => (g.domainId, g.seqNo)) ++ c.bumped.toList)) := by
      intro x hx
      rcases List.mem_append.mp hx with hx | hx
      · obtain ⟨c0, hc0, hle⟩ := above x hx
        obtain ⟨c1, hc1, hgrow⟩ := grow x.1 c0 hc0
        refine ⟨c1, hc1, ?_⟩
        rw [UInt64.le_iff_toNat_le] at hle hgrow ⊢
        omega
      · exact reach x hx
    apply (ih (c.step s).1 _ nowrap.2 above').mono
    intro x hx
    have hbumped : (c :: rest).filterMap Call.bumped = c.bumped.toList ++ rest.filterMap Call.bumped := by
      cases c <;> rfl
    simp only [recorded, hbumped, List.map_append, List.mem_append] at hx ⊢
    tauto

/-! ## The binlog state over runs of calls -/

/-- Over every run of calls from the empty state: `find_nolock` returns the
last GTID recorded for the server, each domain's `last_gtid` is the last
GTID recorded in the domain, a domain has an element once a GTID was
recorded or a counter bumped in it, and `count_nolock` counts the
`(domain_id, server_id)` pairs recorded, modulo `2^32`; a strict `update`
fails exactly on a GTID not after its domain's last one, leaving the state
as it was; and while no `update_with_next_gtid` wraps its counter, every
domain's counter is at least every `seq_no` recorded or bumped in it, and
`update_with_next_gtid` below `2^64 - 1` hands out a larger `seq_no`. -/
theorem binlogState_calls (cs : List Call) :
    (∀ d srv, (run empty cs).findNolock d srv =
      latest (fun g => g.domainId = d ∧ g.serverId = srv) (recorded empty cs)) ∧
    (∀ d, (run empty cs).lastGtidOf d = latest (fun g => g.domainId = d) (recorded empty cs)) ∧
    (∀ d, (find Element.domainId d (run empty cs).hash).isSome ↔
      d ∈ (recorded empty cs).map RplGtid.domainId ∨ d ∈ (cs.filterMap Call.bumped).map Prod.fst) ∧
    (run empty cs).countNolock.toNat = ((recorded empty cs).map pairOf).dedup.length % 2 ^ 32 ∧
    (∀ (s : RplBinlogStateBase) (gtid : RplGtid),
      ((s.update gtid true).1 = 1 ↔ ∃ last, s.lastGtidOf gtid.domainId = some last ∧ gtid.seqNo ≤ last.seqNo) ∧
      ((s.update gtid true).1 = 1 → (s.update gtid true).2 = s)) ∧
    (noWrap empty cs = true →
      CountersAbove (run empty cs)
        ((recorded empty cs).map (fun g => (g.domainId, g.seqNo)) ++ cs.filterMap Call.bumped) ∧
      ∀ d srv, (∀ c, (run empty cs).counterOf d = some c → c < 18446744073709551615) →
        ∀ x ∈ (recorded empty cs).map (fun g => (g.domainId, g.seqNo)) ++ cs.filterMap Call.bumped,
          x.1 = d → x.2 < ((run empty cs).updateWithNextGtid d srv).1.seqNo) := by
  have follows := follows_run wf_empty cs
  refine ⟨?_, ?_, ?_, countNolock_of_follows follows, ?_, ?_⟩
  · intro d srv
    rw [follows.findNolock, findNolock_empty, Option.or_none]
  · intro d
    rw [follows.lastGtidOf, lastGtidOf_empty, Option.or_none]
  · intro d
    rw [follows.domains]
    simp [empty]
  · intro s gtid
    exact ⟨update_strict_fails_iff s gtid, update_state_of_fails⟩
  · intro nowrap
    have counters := countersAbove_run cs empty [] nowrap (fun x hx => by cases hx)
    rw [List.nil_append] at counters
    refine ⟨counters, ?_⟩
    intro d srv below x hx hd
    obtain ⟨c, hc, hle⟩ := counters x hx
    rw [hd] at hc
    have hlt := below c hc
    -- the GTID handed out has `seq_no` `c + 1`
    rw [updateWithNextGtid_fst, hc]
    show x.2 < c + 1
    rw [UInt64.lt_iff_toNat_lt, toNat_add_one (UInt64.ne_of_lt hlt)]
    rw [UInt64.le_iff_toNat_le] at hle
    omega

theorem binlogState_calls_next :
    (5 : UInt64) < ((run empty [.updateNolock ⟨0, 1, 5⟩]).updateWithNextGtid 0 2).1.seqNo := by
  have counter : (run empty [.updateNolock ⟨0, 1, 5⟩]).counterOf 0 = some 5 := by decide
  apply ((binlogState_calls [.updateNolock ⟨0, 1, 5⟩]).2.2.2.2.2 (by decide)).2 0 2 _ (0, 5) (by decide) rfl
  intro c hc
  rw [counter] at hc
  cases hc
  decide

/-- `++elem->seq_no_counter` wraps: after a GTID with `seq_no` `2^64 - 1`,
`update_with_next_gtid` hands out `0`, and the domain's counter falls to `0`,
below a `seq_no` recorded in the domain. -/
theorem binlogState_counter_wraps :
    (run empty [.updateNolock ⟨0, 1, 18446744073709551615⟩, .updateWithNextGtid 0 1]).counterOf 0 = some 0 ∧
    recorded empty [.updateNolock ⟨0, 1, 18446744073709551615⟩, .updateWithNextGtid 0 1] =
      [⟨0, 1, 18446744073709551615⟩, ⟨0, 1, 0⟩] := by
  decide

/-- The GTID list of a state built by `update_nolock` calls, when the list
has room for `count_nolock` GTIDs and the state fewer than `2^32` pairs:
`get_gtid_list_nolock` returns `0` and writes one GTID for each
`(domain_id, server_id)`, each domain's last GTID after its others;
replaying it on any state gives the servers' GTIDs and the domains' last
GTIDs the original calls give, and both `load_nolock`s rebuild them. With
less room it returns `1`. -/
theorem getGtidListNolock_replays (gtids : List RplGtid) (s : RplBinlogStateBase) (wf : s.Wf)
    (listSize : UInt32) (fits : (gtids.map pairOf).dedup.length < 2 ^ 32) :
    (loadNolock gtids).countNolock.toNat = (gtids.map pairOf).dedup.length ∧
    ((loadNolock gtids).countNolock.toNat ≤ listSize.toNat →
      ∃ gtidList, (loadNolock gtids).getGtidListNolock listSize = (0, gtidList) ∧
        gtidList.length = (loadNolock gtids).countNolock.toNat ∧
        (gtidList.map pairOf).Nodup ∧
        (∀ g, g ∈ gtidList ↔ (loadNolock gtids).findNolock g.domainId g.serverId = some g) ∧
        (∀ i j (hi : i < gtidList.length) (hj : j < gtidList.length), i < j →
          gtidList[i].domainId = gtidList[j].domainId →
          (loadNolock gtids).lastGtidOf gtidList[i].domainId ≠ some gtidList[i]) ∧
        (∀ d srv, (s.updateGtidState gtidList).findNolock d srv = (s.updateGtidState gtids).findNolock d srv) ∧
        (∀ d, (s.updateGtidState gtidList).lastGtidOf d = (s.updateGtidState gtids).lastGtidOf d) ∧
        (∀ d srv, (loadNolock gtidList).findNolock d srv = (loadNolock gtids).findNolock d srv) ∧
        (∀ d, (loadNolock gtidList).lastGtidOf d = (loadNolock gtids).lastGtidOf d) ∧
        (∀ d srv, (loadNolockState (loadNolock gtids)).findNolock d srv = (loadNolock gtids).findNolock d srv) ∧
        (∀ d, (loadNolockState (loadNolock gtids)).lastGtidOf d = (loadNolock gtids).lastGtidOf d)) ∧
    (listSize.toNat < (loadNolock gtids).countNolock.toNat →
      ((loadNolock gtids).getGtidListNolock listSize).1 = 1) := by
  have built : Follows empty (loadNolock gtids) gtids [] := follows_updateGtidState wf_empty gtids
  have wfd := built.wf
  have hcount : (loadNolock gtids).countNolock.toNat = (gtids.map pairOf).dedup.length := by
    rw [countNolock_of_follows built, Nat.mod_eq_of_lt fits]
  have hlength : (loadNolock gtids).gtidWalk.length = (gtids.map pairOf).dedup.length :=
    length_gtidWalk_of_follows built
  -- the state the calls build answers as the calls do
  have hfind : ∀ d srv, (loadNolock gtids).findNolock d srv =
      latest (fun g => g.domainId = d ∧ g.serverId = srv) gtids := by
    intro d srv
    rw [built.findNolock, findNolock_empty, Option.or_none]
  have hlast : ∀ d, (loadNolock gtids).lastGtidOf d = latest (fun g => g.domainId = d) gtids := by
    intro d
    rw [built.lastGtidOf, lastGtidOf_empty, Option.or_none]
  have replay := follows_updateGtidState_gtidWalk wfd wf
  have reload := follows_updateGtidState_gtidWalk wfd wf_empty
  have direct := follows_updateGtidState wf gtids
  refine ⟨hcount, ?_, ?_⟩
  · intro room
    refine ⟨(loadNolock gtids).gtidWalk, ?_, by rw [hlength, hcount], nodup_gtidWalk wfd,
      fun g => mem_gtidWalk wfd, fun i j hi hj hij hd => lastGtidOf_ne_of_lt wfd hi hj hij hd, ?_, ?_, ?_, ?_, ?_, ?_⟩
    · rw [getGtidListNolock_eq, if_pos (by omega)]
    · intro d srv
      rw [replay.1, direct.findNolock, hfind]
    · intro d
      rw [replay.2, direct.lastGtidOf, hlast]
    · intro d srv
      rw [loadNolock, reload.1, findNolock_empty, Option.or_none]
    · intro d
      rw [loadNolock, reload.2, lastGtidOf_empty, Option.or_none]
    · intro d srv
      rw [loadNolockState, reload.1, findNolock_empty, Option.or_none]
    · intro d
      rw [loadNolockState, reload.2, lastGtidOf_empty, Option.or_none]
  · intro short
    rw [getGtidListNolock_eq, if_neg (by omega)]

theorem getGtidListNolock_replays_one :
    (loadNolock [⟨0, 1, 5⟩, ⟨0, 2, 6⟩]).countNolock.toNat = ([⟨0, 1, 5⟩, ⟨0, 2, 6⟩].map pairOf).dedup.length :=
  (getGtidListNolock_replays [⟨0, 1, 5⟩, ⟨0, 2, 6⟩] empty wf_empty 2 (by decide)).1

/-- `count_nolock` is a `uint32`: after `2^32` GTIDs of distinct servers it
is `0`, and `get_gtid_list_nolock` with room for `0` GTIDs returns `1`. -/
theorem getGtidListNolock_count_wraps :
    (loadNolock ((List.range (2 ^ 32)).map (fun i => ⟨0, i.toUInt32, 0⟩))).countNolock = 0 ∧
    (loadNolock ((List.range (2 ^ 32)).map (fun i => ⟨0, i.toUInt32, 0⟩))).getGtidListNolock 0 = (1, []) := by
  have built := follows_updateGtidState wf_empty ((List.range (2 ^ 32)).map (fun i => (⟨0, i.toUInt32, 0⟩ : RplGtid)))
  -- the `2^32` servers are distinct
  have hnodup : (((List.range (2 ^ 32)).map (fun i => (⟨0, i.toUInt32, 0⟩ : RplGtid))).map pairOf).Nodup := by
    rw [List.map_map]
    apply List.Nodup.map_on _ List.nodup_range
    intro i hi j hj hij
    have hsrv := congrArg (fun p : UInt32 × UInt32 => p.2.toNat) hij
    simp only [Function.comp, pairOf, Nat.toUInt32_eq, UInt32.toNat_ofNat'] at hsrv
    rw [List.mem_range] at hi hj
    rwa [Nat.mod_eq_of_lt hi, Nat.mod_eq_of_lt hj] at hsrv
  have hpairs : (((List.range (2 ^ 32)).map (fun i => (⟨0, i.toUInt32, 0⟩ : RplGtid))).map pairOf).dedup.length =
      2 ^ 32 := by
    rw [hnodup.dedup, List.length_map, List.length_map, List.length_range]
  constructor
  · apply UInt32.toNat_inj.mp
    rw [loadNolock, countNolock_of_follows built, hpairs]
    rfl
  · rw [getGtidListNolock_eq, if_neg (by rw [loadNolock, length_gtidWalk_of_follows built, hpairs]; decide)]
    rfl

/-- Along GTIDs whose `seq_no` grows for each server, counting the server's
GTID in the first state: `is_before_pos` of a position, once false, stays
false; and it holds exactly when every domain with GTIDs in the state is in
the position and no GTID of the position has a counterpart in the state with
a larger `seq_no`, or an equal one that is not the domain's last GTID. -/
theorem isBeforePos_monotone (s : RplBinlogStateBase) (wf : s.Wf) (pos gtids : List RplGtid)
    (increasing : ∀ i j (hi : i < gtids.length) (hj : j < gtids.length), i < j →
      pairOf gtids[i] = pairOf gtids[j] → gtids[i].seqNo < gtids[j].seqNo)
    (above : ∀ g ∈ gtids, ∀ g0, s.findNolock g.domainId g.serverId = some g0 → g0.seqNo < g.seqNo) :
    (∀ i j, i ≤ j → j ≤ gtids.length → (s.updateGtidState (gtids.take i)).isBeforePos pos = false →
      (s.updateGtidState (gtids.take j)).isBeforePos pos = false) ∧
    ∀ i, (s.updateGtidState (gtids.take i)).isBeforePos pos = true ↔
      (∀ d srv g, (s.updateGtidState (gtids.take i)).findNolock d srv = some g → ∃ e ∈ pos, e.domainId = d) ∧
      (∀ e ∈ pos, ∀ g, (s.updateGtidState (gtids.take i)).findNolock e.domainId e.serverId = some g →
        ¬(e.seqNo < g.seqNo ∨
          (g.seqNo = e.seqNo ∧ (s.updateGtidState (gtids.take i)).lastGtidOf e.domainId ≠ some g))) := by
  constructor
  · intro i j hij hj after
    exact isBeforePos_updateGtidState_mono wf pos gtids increasing above hij hj after
  · intro i
    rw [isBeforePos_iff (follows_updateGtidState wf (gtids.take i)).wf, and_comm]

theorem isBeforePos_monotone_one :
    (empty.updateGtidState (([⟨0, 1, 5⟩, ⟨0, 1, 6⟩] : List RplGtid).take 2)).isBeforePos [⟨0, 1, 4⟩] = false :=
  (isBeforePos_monotone empty wf_empty [⟨0, 1, 4⟩] [⟨0, 1, 5⟩, ⟨0, 1, 6⟩]
    (fun i j hi hj hij _ => by
      simp only [List.length_cons, List.length_nil] at hi hj
      obtain rfl : i = 0 := by omega
      obtain rfl : j = 1 := by omega
      show (5 : UInt64) < 6
      decide)
    (fun g _ g0 hfind => by cases hfind)).1 1 2 (by decide) (by decide) (by decide)

/-- From a state whose server already has a later GTID, an earlier one makes
`is_before_pos` false then true. -/
theorem isBeforePos_earlier_seqNo :
    (loadNolock [⟨0, 1, 10⟩]).isBeforePos [⟨0, 1, 7⟩] = false ∧
    ((loadNolock [⟨0, 1, 10⟩]).updateGtidState [⟨0, 1, 5⟩]).isBeforePos [⟨0, 1, 7⟩] = true := by
  decide

end RplBinlogStateBase

end MariaDB.Rpl
