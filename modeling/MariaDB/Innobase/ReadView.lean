import Mathlib.Algebra.Order.Ring.Nat
import Mathlib.Data.Nat.SuccPred
import MariaDB.Search.LowerBound

set_option autoImplicit false

/- The read view of storage/innobase/include/read0types.h and
read/read0read.cc. A view sees the changes of a transaction id below
`m_low_limit_id` unless the id is one of the ids `m_ids` of the transactions
active at the snapshot, kept sorted; `m_up_limit_id`, the least of them,
answers `changes_visible` without a search below it. `append` turns a view
into the oldest of two, for purge, by merging the sorted ids. -/
namespace MariaDB.Innobase

open LowerBound

/-- `ReadViewBase`, each `trx_id_t` as its value. -/
structure ReadViewBase where
  lowLimitId : Nat
  upLimitId : Nat
  ids : List Nat
  lowLimitNo : Nat
  deriving Repr, DecidableEq

namespace ReadViewBase

/-- `ReadViewBase::changes_visible`. -/
def changesVisible (v : ReadViewBase) (id : Nat) : Bool :=
  if id ≥ v.lowLimitId then false
  else decide (id < v.upLimitId) || v.ids.isEmpty || !binarySearch v.ids id

/-- The `loop:` label of `ReadViewBase::append`: from `dst` on, step past the
ids below `id`, then insert `id` unless it is there, or push it back at the
end of the vector. Returns the ids and the new `dst`. -/
def appendPlace (id : Nat) (ids : List Nat) (dst : Nat) : List Nat × Nat :=
  if h : dst < ids.length then
    if ids[dst] < id then appendPlace id ids (dst + 1)
    else if ids[dst] > id then (ids.insertIdx dst id, dst + 1)
    else (ids, dst)
  else (ids ++ [id], ids.length + 1)
termination_by ids.length - dst

/-- The `for` loop of `ReadViewBase::append` over the other view's ids, up to
the first one that is not below `lowLimitId`. -/
def appendIds (lowLimitId : Nat) : List Nat → List Nat → Nat → List Nat × Nat
  | [], ids, dst => (ids, dst)
  | id :: rest, ids, dst =>
    if id ≥ lowLimitId then (ids, dst)
    else
      let (ids, dst) := appendPlace id ids dst
      appendIds lowLimitId rest ids dst

/-- `ReadViewBase::append`: the smaller limits, the ids of both views below
the new `m_low_limit_id`, and the least of them as `m_up_limit_id`. -/
def append (v other : ReadViewBase) : ReadViewBase :=
  let lowLimitNo := if v.lowLimitNo > other.lowLimitNo then other.lowLimitNo else v.lowLimitNo
  let lowLimitId := if v.lowLimitId > other.lowLimitId then other.lowLimitId else v.lowLimitId
  let (ids, dst) := appendIds lowLimitId other.ids v.ids 0
  -- m_ids.erase(std::lower_bound(dst, m_ids.end(), m_low_limit_id), m_ids.end())
  let ids := ids.take (lowerBound ids lowLimitId dst (ids.length - dst))
  -- m_ids.front(), or m_low_limit_id for no ids
  { lowLimitId, upLimitId := ids.headD lowLimitId, ids, lowLimitNo }

/-- `ReadViewBase::snapshot`, from the ids and the limits that
`trx_sys.snapshot_ids` returns: `std::sort` the ids, take the least as
`m_up_limit_id`, and drop ids that fill `[m_up_limit_id, m_low_limit_id)`. -/
def snapshot (ids : List Nat) (lowLimitId lowLimitNo : Nat) : ReadViewBase :=
  if ids.isEmpty then ⟨lowLimitId, lowLimitId, ids, lowLimitNo⟩
  else
    let ids := ids.mergeSort (fun a b => decide (a ≤ b))
    let upLimitId := ids.headD 0
    -- the `trx_id_t` sum m_up_limit_id + m_ids.size()
    if lowLimitNo = lowLimitId ∧ lowLimitId = (upLimitId + ids.length) % 2 ^ 64 then
      ⟨upLimitId, upLimitId, [], upLimitId⟩
    else ⟨lowLimitId, upLimitId, ids, lowLimitNo⟩

/-! ## What a view sees -/

/-- The conditions the view's fields are kept in: the ids strictly increasing
and below `m_low_limit_id`, `m_up_limit_id` the least of them or
`m_low_limit_id`, and `m_low_limit_id` a `trx_id_t`. -/
structure Wf (v : ReadViewBase) : Prop where
  sorted : v.ids.Pairwise (· < ·)
  lt_lowLimitId : ∀ id ∈ v.ids, id < v.lowLimitId
  upLimitId_eq : v.upLimitId = v.ids.headD v.lowLimitId
  lowLimitId_lt : v.lowLimitId < 2 ^ 64

/-- What a view is for: the transaction ids whose changes it sees, those
below `m_low_limit_id` that were not active. -/
def Sees (v : ReadViewBase) (id : Nat) : Prop := id < v.lowLimitId ∧ id ∉ v.ids

instance (v : ReadViewBase) (id : Nat) : Decidable (v.Sees id) :=
  inferInstanceAs (Decidable (id < v.lowLimitId ∧ id ∉ v.ids))

variable {v o : ReadViewBase}

theorem Wf.upLimitId_le (h : v.Wf) {id : Nat} (hid : id ∈ v.ids) : v.upLimitId ≤ id := by
  rw [h.upLimitId_eq]
  have hs := h.sorted
  cases hids : v.ids with
  | nil =>
    rw [hids] at hid
    cases hid
  | cons x rest =>
    rw [hids] at hid hs
    rw [List.headD_cons]
    rcases List.mem_cons.mp hid with rfl | hrest
    · exact le_refl _
    · exact le_of_lt (List.rel_of_pairwise_cons hs hrest)

/-- `changes_visible` decides what the view sees. -/
theorem changesVisible_iff (h : v.Wf) (id : Nat) : v.changesVisible id = true ↔ v.Sees id := by
  unfold changesVisible Sees
  by_cases hlow : id ≥ v.lowLimitId
  · simp only [hlow, ↓reduceIte, Bool.false_eq_true, false_iff, not_and]
    intro hlt
    omega
  · have hsearch : binarySearch v.ids id = true ↔ id ∈ v.ids :=
      binarySearch_iff (h.sorted.imp le_of_lt)
    simp only [hlow, ↓reduceIte, Bool.or_eq_true, decide_eq_true_eq, List.isEmpty_iff,
      Bool.not_eq_true', true_and, not_le.mp hlow]
    constructor
    · rintro ((hup | hnil) | hnot) hmem
      · exact absurd (h.upLimitId_le hmem) (not_le.mpr hup)
      · rw [hnil] at hmem
        cases hmem
      · exact absurd (hsearch.mpr hmem) (by simp [hnot])
    · intro hnot
      right
      cases hb : binarySearch v.ids id
      · rfl
      · exact absurd (hsearch.mp hb) hnot

/-! ## Merging two views -/

theorem insertIdx_eq_take_drop {l : List Nat} {i x : Nat} (h : i ≤ l.length) :
    l.insertIdx i x = l.take i ++ x :: l.drop i := by
  induction l generalizing i with
  | nil =>
    rw [Nat.le_zero.mp h]
    rfl
  | cons y l ih =>
    cases i with
    | zero => rfl
    | succ i =>
      rw [List.insertIdx_succ_cons, ih (by simp at h; omega)]
      rfl

/-- One placement of the `loop:` label, from a `dst` with only smaller ids
before it: the ids stay strictly increasing, gain `id`, and nothing above
`id` stands before the new `dst`. -/
theorem appendPlace_spec (id : Nat) (ids : List Nat) (dst : Nat) (hs : ids.Pairwise (· < ·))
    (hdst : dst ≤ ids.length) (hbefore : ∀ x ∈ ids.take dst, x < id) :
    (appendPlace id ids dst).1.Pairwise (· < ·) ∧
      (∀ x, x ∈ (appendPlace id ids dst).1 ↔ x ∈ ids ∨ x = id) ∧
      (appendPlace id ids dst).2 ≤ (appendPlace id ids dst).1.length ∧
      ∀ x ∈ (appendPlace id ids dst).1.take (appendPlace id ids dst).2, x ≤ id := by
  fun_induction appendPlace id ids dst with
  | case1 dst h hlt ih =>
    -- the id at `dst` is smaller: step past it
    apply ih (by omega)
    rw [← List.take_concat_get h, List.concat_eq_append]
    intro x hx
    rcases List.mem_append.mp hx with hx | hx
    · exact hbefore x hx
    · rw [List.mem_singleton.mp hx]
      exact hlt
  | case2 dst h hge hgt =>
    -- the id at `dst` is larger: insert `id` before it
    rw [insertIdx_eq_take_drop hdst]
    have hsplit := List.take_append_drop dst ids
    have hs' := hs
    rw [← hsplit, List.pairwise_append] at hs'
    obtain ⟨htake, hdrop, hcross⟩ := hs'
    rw [List.drop_eq_getElem_cons h] at hdrop hcross ⊢
    refine ⟨?_, ?_, ?_, ?_⟩
    · rw [List.pairwise_append]
      refine ⟨htake, ?_, ?_⟩
      · refine List.Pairwise.cons (fun b hb => ?_) hdrop
        rcases List.mem_cons.mp hb with rfl | hb
        · exact hgt
        · exact lt_trans hgt (List.rel_of_pairwise_cons hdrop hb)
      · intro a ha b hb
        rcases List.mem_cons.mp hb with rfl | hb
        · exact hbefore a ha
        · exact hcross a ha b hb
    · intro x
      conv =>
        rhs
        rw [← hsplit, List.drop_eq_getElem_cons h]
      simp only [List.mem_append, List.mem_cons]
      tauto
    · simp only [List.length_append, List.length_take, List.length_cons, List.length_drop]
      omega
    · intro x hx
      have htk : (ids.take dst ++ id :: ids[dst] :: ids.drop (dst + 1)).take (dst + 1) =
          ids.take dst ++ [id] := by
        rw [List.take_append, List.length_take, Nat.min_eq_left hdst,
          List.take_of_length_le (by simp only [List.length_take]; omega)]
        simp
      rw [htk, List.mem_append, List.mem_singleton] at hx
      rcases hx with hx | rfl
      · exact le_of_lt (hbefore x hx)
      · exact le_refl x
  | case3 dst h hge hle =>
    -- `id` is there already
    have heq : ids[dst] = id := by omega
    refine ⟨hs, fun x => ⟨fun hx => .inl hx, ?_⟩, hdst, fun x hx => le_of_lt (hbefore x hx)⟩
    rintro (hx | rfl)
    · exact hx
    · rw [← heq]
      exact List.getElem_mem h
  | case4 dst h =>
    -- the end of the vector: push `id` back
    have hall : dst = ids.length := by omega
    subst hall
    rw [List.take_length] at hbefore
    refine ⟨?_, fun x => by simp, by simp, fun x hx => ?_⟩
    · rw [List.pairwise_append]
      exact ⟨hs, List.pairwise_singleton _ _, fun a ha b hb => List.mem_singleton.mp hb ▸ hbefore a ha⟩
    · rw [List.take_of_length_le (by simp)] at hx
      rcases List.mem_append.mp hx with hx | hx
      · exact le_of_lt (hbefore x hx)
      · exact le_of_eq (List.mem_singleton.mp hx)

/-- The merge loop: the ids stay strictly increasing and gain the other
view's ids below `lowLimitId`, and only ids below it stand before `dst`. -/
theorem appendIds_spec (lowLimitId : Nat) :
    ∀ (rest ids : List Nat) (dst : Nat), rest.Pairwise (· < ·) → ids.Pairwise (· < ·) →
      dst ≤ ids.length → (∀ x ∈ ids.take dst, x < lowLimitId ∧ ∀ r ∈ rest, x < r) →
      (appendIds lowLimitId rest ids dst).1.Pairwise (· < ·) ∧
        (∀ x, x ∈ (appendIds lowLimitId rest ids dst).1 ↔
          x ∈ ids ∨ (x ∈ rest ∧ x < lowLimitId)) ∧
        (appendIds lowLimitId rest ids dst).2 ≤ (appendIds lowLimitId rest ids dst).1.length ∧
        ∀ x ∈ (appendIds lowLimitId rest ids dst).1.take (appendIds lowLimitId rest ids dst).2,
          x < lowLimitId
  | [], ids, dst, _, hs, hdst, hbefore =>
    ⟨hs, fun x => by simp [appendIds], hdst, fun x hx => (hbefore x hx).1⟩
  | id :: rest, ids, dst, hrest, hs, hdst, hbefore => by
    by_cases hstop : id ≥ lowLimitId
    · -- the other view's ids from here on are not below the limit
      simp only [appendIds, hstop, ↓reduceIte]
      refine ⟨hs, fun x => ⟨fun hx => .inl hx, ?_⟩, hdst, fun x hx => (hbefore x hx).1⟩
      rintro (hx | ⟨hx, hlt⟩)
      · exact hx
      · rcases List.mem_cons.mp hx with rfl | hx
        · omega
        · have := List.rel_of_pairwise_cons hrest hx
          omega
    · have hid : id < lowLimitId := by omega
      obtain ⟨hs', hmem', hdst', hle'⟩ := appendPlace_spec id ids dst hs hdst
        (fun x hx => (hbefore x hx).2 id List.mem_cons_self)
      rcases hp : appendPlace id ids dst with ⟨ids', dst'⟩
      rw [hp] at hs' hmem' hdst' hle'
      obtain ⟨hs'', hmem'', hdst'', hlt''⟩ := appendIds_spec lowLimitId rest ids' dst'
        (List.Pairwise.of_cons hrest) hs' hdst' (fun x hx =>
          ⟨lt_of_le_of_lt (hle' x hx) hid,
            fun r hr => lt_of_le_of_lt (hle' x hx) (List.rel_of_pairwise_cons hrest hr)⟩)
      simp only [appendIds, hstop, ↓reduceIte, hp]
      refine ⟨hs'', fun x => ?_, hdst'', hlt''⟩
      rw [hmem'', hmem', List.mem_cons]
      constructor
      · rintro ((hx | rfl) | ⟨hx, hlt⟩)
        · exact .inl hx
        · exact .inr ⟨.inl rfl, hid⟩
        · exact .inr ⟨.inr hx, hlt⟩
      · rintro (hx | ⟨hx | hx, hlt⟩)
        · exact .inl (.inl hx)
        · exact .inl (.inr hx)
        · exact .inr ⟨hx, hlt⟩

theorem if_gt_eq_min (a b : Nat) : (if a > b then b else a) = min a b := by
  split <;> omega

/-- `append` as the merge loop and the erase leave it. -/
theorem append_eq (v o : ReadViewBase) :
    ∃ ids dst, appendIds (min v.lowLimitId o.lowLimitId) o.ids v.ids 0 = (ids, dst) ∧
      v.append o =
        { lowLimitId := min v.lowLimitId o.lowLimitId
          upLimitId := (ids.take (lowerBound ids (min v.lowLimitId o.lowLimitId) dst
            (ids.length - dst))).headD (min v.lowLimitId o.lowLimitId)
          ids := ids.take (lowerBound ids (min v.lowLimitId o.lowLimitId) dst (ids.length - dst))
          lowLimitNo := min v.lowLimitNo o.lowLimitNo } := by
  rcases hr : appendIds (min v.lowLimitId o.lowLimitId) o.ids v.ids 0 with ⟨ids, dst⟩
  refine ⟨ids, dst, rfl, ?_⟩
  simp only [append, if_gt_eq_min, hr]

/-- After `append` the ids are those of either view below the smaller
`m_low_limit_id`, strictly increasing. -/
theorem append_ids (hv : v.Wf) (ho : o.Wf) :
    (v.append o).ids.Pairwise (· < ·) ∧
      ∀ x, x ∈ (v.append o).ids ↔ x < min v.lowLimitId o.lowLimitId ∧ (x ∈ v.ids ∨ x ∈ o.ids) := by
  obtain ⟨ids, dst, hr, heq⟩ := append_eq v o
  obtain ⟨hs, hmem, hdst, hlt⟩ := appendIds_spec (min v.lowLimitId o.lowLimitId) o.ids v.ids 0
    ho.sorted hv.sorted (Nat.zero_le _) (fun x hx => by simp at hx)
  rw [hr] at hs hmem hdst hlt
  have hbelow : ∀ i (h : i < ids.length), i < dst → ids[i] < min v.lowLimitId o.lowLimitId :=
    fun i h hi => hlt _ (List.mem_take_iff_getElem.mpr ⟨i, by simp; omega, rfl⟩)
  rw [heq]
  dsimp only
  rw [take_lowerBound (hs.imp le_of_lt) hdst hbelow]
  refine ⟨hs.filter _, fun x => ?_⟩
  rw [List.mem_filter, hmem, decide_eq_true_eq]
  constructor
  · rintro ⟨hx | ⟨hx, -⟩, hlt⟩
    · exact ⟨hlt, .inl hx⟩
    · exact ⟨hlt, .inr hx⟩
  · rintro ⟨hlt, hx | hx⟩
    · exact ⟨.inl hx, hlt⟩
    · exact ⟨.inr ⟨hx, hlt⟩, hlt⟩

/-- `append` keeps the representation conditions. -/
theorem append_wf (hv : v.Wf) (ho : o.Wf) : (v.append o).Wf := by
  obtain ⟨hs, hmem⟩ := append_ids hv ho
  obtain ⟨ids, dst, -, heq⟩ := append_eq v o
  have hlow : (v.append o).lowLimitId = min v.lowLimitId o.lowLimitId := by rw [heq]
  refine ⟨hs, fun x hx => hlow ▸ ((hmem x).mp hx).1, ?_, ?_⟩
  · rw [heq]
  · rw [heq]
    have := hv.lowLimitId_lt
    exact lt_of_le_of_lt (min_le_left _ _) this

theorem append_lowLimitNo : (v.append o).lowLimitNo = min v.lowLimitNo o.lowLimitNo := by
  obtain ⟨ids, dst, -, heq⟩ := append_eq v o
  rw [heq]

/-- The merged view sees what both views see. -/
theorem sees_append (hv : v.Wf) (ho : o.Wf) (id : Nat) :
    (v.append o).Sees id ↔ v.Sees id ∧ o.Sees id := by
  obtain ⟨-, hmem⟩ := append_ids hv ho
  obtain ⟨ids, dst, -, heq⟩ := append_eq v o
  have hlow : (v.append o).lowLimitId = min v.lowLimitId o.lowLimitId := by rw [heq]
  unfold Sees
  rw [hlow, hmem, lt_min_iff]
  tauto

theorem changesVisible_append (hv : v.Wf) (ho : o.Wf) (id : Nat) :
    (v.append o).changesVisible id = (v.changesVisible id && o.changesVisible id) := by
  apply Bool.eq_iff_iff.mpr
  rw [Bool.and_eq_true, changesVisible_iff (append_wf hv ho), changesVisible_iff hv,
    changesVisible_iff ho]
  exact sees_append hv ho id

/-! ## The snapshot -/

/-- In a strictly increasing list each id is at least one above the one
before it. -/
theorem getElem_add_le {l : List Nat} (hs : l.Pairwise (· < ·)) {i j : Nat} (hij : i ≤ j)
    (hj : j < l.length) : l[i] + (j - i) ≤ l[j] := by
  induction j with
  | zero =>
    have hi : i = 0 := by omega
    subst hi
    simp
  | succ j ih =>
    rcases Nat.lt_or_eq_of_le hij with hlt | rfl
    · have hstep := List.pairwise_iff_getElem.mp hs j (j + 1) (by omega) hj (by omega)
      have := ih (by omega) (by omega)
      omega
    · simp

/-- A strictly increasing list of `n` ids below `l[0] + n` is the range
`[l[0], l[0] + n)`. -/
theorem getElem_eq_head_add {l : List Nat} (hs : l.Pairwise (· < ·)) (hne : 0 < l.length)
    (hlast : l[l.length - 1] < l[0] + l.length) (i : Nat) (hi : i < l.length) : l[i] = l[0] + i := by
  have hlo := getElem_add_le hs (Nat.zero_le i) hi
  have hhi := getElem_add_le hs (Nat.le_sub_one_of_lt hi) (by omega : l.length - 1 < l.length)
  omega

/-- `std::sort` of distinct ids: strictly increasing, with the same ids. -/
theorem mergeSort_spec {ids : List Nat} (hnodup : ids.Nodup) :
    (ids.mergeSort (fun a b => decide (a ≤ b))).Pairwise (· < ·) ∧
      ∀ x, x ∈ ids.mergeSort (fun a b => decide (a ≤ b)) ↔ x ∈ ids := by
  have hperm := List.mergeSort_perm ids (fun a b => decide (a ≤ b))
  have hle : (ids.mergeSort (fun a b => decide (a ≤ b))).Pairwise
      (fun a b => decide (a ≤ b) = true) :=
    List.pairwise_mergeSort (fun a b c hab hbc => by simp only [decide_eq_true_eq] at hab hbc ⊢; omega)
      (fun a b => by simp only [Bool.or_eq_true, decide_eq_true_eq]; omega) ids
  have hne : (ids.mergeSort (fun a b => decide (a ≤ b))).Nodup := hperm.nodup_iff.mpr hnodup
  refine ⟨(hle.and hne).imp fun ⟨h1, h2⟩ => ?_, fun x => hperm.mem_iff⟩
  simp only [decide_eq_true_eq] at h1
  omega

/-- The view of the sorted ids, before the shortcut. -/
theorem wf_sorted {ids : List Nat} {lowLimitId : Nat} (lowLimitNo : Nat) (hnodup : ids.Nodup)
    (hlt : ∀ id ∈ ids, id < lowLimitId) (hlow : lowLimitId < 2 ^ 64) :
    (⟨lowLimitId, (ids.mergeSort (fun a b => decide (a ≤ b))).headD lowLimitId,
      ids.mergeSort (fun a b => decide (a ≤ b)), lowLimitNo⟩ : ReadViewBase).Wf := by
  obtain ⟨hs, hmem⟩ := mergeSort_spec hnodup
  exact ⟨hs, fun x hx => hlt x ((hmem x).mp hx), rfl, hlow⟩

/-- `snapshot` keeps the representation conditions, and its shortcut for ids
that fill `[m_up_limit_id, m_low_limit_id)` changes no answer of
`changes_visible` of the sorted ids. -/
theorem snapshot_spec (ids : List Nat) (lowLimitId lowLimitNo : Nat) (hnodup : ids.Nodup)
    (hlt : ∀ id ∈ ids, id < lowLimitId) (hlow : lowLimitId < 2 ^ 64) :
    (snapshot ids lowLimitId lowLimitNo).Wf ∧ ∀ id,
      (snapshot ids lowLimitId lowLimitNo).changesVisible id =
        (⟨lowLimitId, (ids.mergeSort (fun a b => decide (a ≤ b))).headD lowLimitId,
          ids.mergeSort (fun a b => decide (a ≤ b)), lowLimitNo⟩ : ReadViewBase).changesVisible id := by
  have hwf := wf_sorted lowLimitNo hnodup hlt hlow
  obtain ⟨hs, hmem⟩ := mergeSort_spec hnodup
  by_cases hnil : ids = []
  · subst hnil
    simp only [List.mergeSort_nil] at hwf ⊢
    exact ⟨hwf, fun id => rfl⟩
  -- the sorted ids and their least one, `m_up_limit_id`
  have hne : ids.mergeSort (fun a b => decide (a ≤ b)) ≠ [] := by
    rw [← List.length_pos_iff, List.length_mergeSort]
    exact List.length_pos_iff.mpr hnil
  obtain ⟨up, rest, hsort⟩ := List.exists_cons_of_ne_nil hne
  rw [hsort, List.headD_cons] at hwf ⊢
  rw [hsort] at hs hmem
  have hupl : up < lowLimitId := hlt up ((hmem up).mp List.mem_cons_self)
  have hisEmpty : ids.isEmpty = false := by simpa using hnil
  unfold snapshot
  simp only [hisEmpty, Bool.false_eq_true, ↓reduceIte, hsort, List.headD_cons]
  split_ifs with hshort
  · -- the ids fill `[up, lowLimitId)`: the shortcut view sees below `up`
    obtain ⟨-, hfill⟩ := hshort
    have hwf' : (⟨up, up, [], up⟩ : ReadViewBase).Wf :=
      ⟨List.Pairwise.nil, (fun x hx => by cases hx), rfl, show up < 2 ^ 64 by omega⟩
    have hn : (up :: rest).length - 1 < (up :: rest).length := by simp
    have hlast : (up :: rest)[(up :: rest).length - 1] < lowLimitId :=
      hwf.lt_lowLimitId _ (List.getElem_mem hn)
    have hspan := getElem_add_le hs (Nat.zero_le _) hn
    simp only [List.getElem_cons_zero] at hspan
    -- no `trx_id_t` wrap-around: the sum is below `2^64`
    have hsum : up + (up :: rest).length = lowLimitId := by
      rw [Nat.mod_eq_of_lt (by omega)] at hfill
      omega
    refine ⟨hwf', fun id => Bool.eq_iff_iff.mpr ?_⟩
    rw [changesVisible_iff hwf', changesVisible_iff hwf]
    unfold Sees
    dsimp only
    constructor
    · rintro ⟨hid, -⟩
      refine ⟨by omega, fun hmemid => ?_⟩
      exact absurd (hwf.upLimitId_le hmemid) (by simp only; omega)
    · rintro ⟨hid, hnotmem⟩
      refine ⟨?_, fun h => by cases h⟩
      by_contra hge
      have hrange := getElem_eq_head_add hs (by simp) (by simp only [List.getElem_cons_zero]; omega)
        (id - up) (by simp only [List.length_cons] at hsum ⊢; omega)
      simp only [List.getElem_cons_zero] at hrange
      exact hnotmem (by rw [show id = up + (id - up) by omega, ← hrange]; exact List.getElem_mem _)
  · exact ⟨hwf, fun id => rfl⟩

/-- A view answers `changes_visible` by membership; `snapshot`'s shortcut
changes no answer; and `append` keeps the conditions, takes the smaller
`m_low_limit_no` and sees what both views see. -/
theorem changesVisible_snapshot_append :
    (∀ v : ReadViewBase, v.Wf → ∀ id, v.changesVisible id = true ↔ id < v.lowLimitId ∧ id ∉ v.ids) ∧
    (∀ (ids : List Nat) (lowLimitId lowLimitNo : Nat), ids.Nodup → (∀ id ∈ ids, id < lowLimitId) →
      lowLimitId < 2 ^ 64 → ∀ id, (snapshot ids lowLimitId lowLimitNo).changesVisible id =
        (⟨lowLimitId, (ids.mergeSort (fun a b => decide (a ≤ b))).headD lowLimitId,
          ids.mergeSort (fun a b => decide (a ≤ b)), lowLimitNo⟩ : ReadViewBase).changesVisible id) ∧
    (∀ v o : ReadViewBase, v.Wf → o.Wf → (v.append o).Wf ∧
      (v.append o).lowLimitNo = min v.lowLimitNo o.lowLimitNo ∧
      ∀ id, (v.append o).changesVisible id = (v.changesVisible id && o.changesVisible id)) := by
  refine ⟨fun v hv id => changesVisible_iff hv id, ?_, ?_⟩
  · intro ids lowLimitId lowLimitNo hnodup hlt hlow
    exact (snapshot_spec ids lowLimitId lowLimitNo hnodup hlt hlow).2
  · intro v o hv ho
    exact ⟨append_wf hv ho, append_lowLimitNo, changesVisible_append hv ho⟩

theorem changesVisible_snapshot_append_merge :
    (⟨5, 2, [2, 4], 5⟩ : ReadViewBase).Wf ∧ (⟨3, 1, [1], 3⟩ : ReadViewBase).Wf ∧
      ((⟨5, 2, [2, 4], 5⟩ : ReadViewBase).append ⟨3, 1, [1], 3⟩).lowLimitNo = 3 := by
  have hv : (⟨5, 2, [2, 4], 5⟩ : ReadViewBase).Wf := ⟨by decide, by decide, rfl, by decide⟩
  have ho : (⟨3, 1, [1], 3⟩ : ReadViewBase).Wf := ⟨by decide, by decide, rfl, by decide⟩
  exact ⟨hv, ho, (changesVisible_snapshot_append.2.2 _ _ hv ho).2.1⟩

end ReadViewBase

end MariaDB.Innobase
