import Mathlib.Algebra.Order.Ring.Nat
import Mathlib.Data.List.Basic
import Mathlib.Data.List.GetD
import Mathlib.Order.Bounds.Defs
import MariaDB.Temporal.Tztime

set_option autoImplicit false

/- The reverse table that `prepare_tz_info` builds for `TIME_to_gmt_sec`, and
the binary search `find_time_range` that reads it. A pass of the loop that
finds a spring time-gap records the gap and then the range after it, unless
the gap fills the table, and then `prepare_tz_info` fails; so in every table it
returns a gap is followed by a range that is not one. The closing entry
`revts[revcnt]` is the `end_l` of the last pass, which is not the largest
`end_l` when the last pass records nothing. -/
namespace MariaDB.Temporal

/-! ## Gaps in the table -/

/-- Every spring time-gap range of the table is followed by a range that is
not one: no two consecutive ranges are gaps, and the last range is not a gap. -/
def GapsClosed (revtis : List RevtInfo) : Prop :=
  ∀ i < revtis.length, (revtis.getD i default).rtType ≠ 0 →
    i + 1 < revtis.length ∧ (revtis.getD (i + 1) default).rtType = 0

theorem tzMaxRevRanges_sub_one : tzMaxRevRanges - 1 = tzMaxTimes + tzMaxLeaps + 1 := rfl

theorem gapsClosed_nil : GapsClosed [] := fun _ hi => absurd hi (Nat.not_lt_zero _)

theorem gapsClosed_append {l₁ l₂ : List RevtInfo} (h₁ : GapsClosed l₁) (h₂ : GapsClosed l₂) :
    GapsClosed (l₁ ++ l₂) := by
  intro i hi gap
  rw [List.length_append] at hi
  by_cases left : i < l₁.length
  · rw [List.getD_append _ _ _ _ left] at gap
    obtain ⟨next, zero⟩ := h₁ i left gap
    refine ⟨by rw [List.length_append]; omega, ?_⟩
    rw [List.getD_append _ _ _ _ next]
    exact zero
  · rw [List.getD_append_right _ _ _ _ (by omega)] at gap
    obtain ⟨next, zero⟩ := h₂ (i - l₁.length) (by omega) gap
    refine ⟨by rw [List.length_append]; omega, ?_⟩
    rw [List.getD_append_right _ _ _ _ (by omega), show i + 1 - l₁.length = i - l₁.length + 1 by omega]
    exact zero

/-- A range that is not a gap, after at most one other range. -/
theorem gapsClosed_of_last {r : RevtInfo} (before : List RevtInfo) (short : before.length ≤ 1)
    (range : r.rtType = 0) : GapsClosed (before ++ [r]) := by
  intro i hi gap
  rw [List.length_append, List.length_singleton] at hi
  by_cases last : i = before.length
  · subst last
    rw [List.getD_append_right _ _ _ _ le_rfl, Nat.sub_self] at gap
    exact absurd range gap
  · refine ⟨by rw [List.length_append, List.length_singleton]; omega, ?_⟩
    rw [List.getD_append_right _ _ _ _ (by omega), show i + 1 - before.length = 0 by omega]
    exact range

/-- What one recording does to the ranges: it keeps them gap-closed, or it
stops the loop with a gap that fills the table. -/
theorem prepareRecord_gapsClosed {revts : List Int} {revtis : List RevtInfo}
    (inv : GapsClosed revtis) (curMaxSeenL curL endL curOffAndCorr : Int) :
    GapsClosed (prepareRecord revts revtis curMaxSeenL curL endL curOffAndCorr).2.1 ∨
      ((prepareRecord revts revtis curMaxSeenL curL endL curOffAndCorr).2.2.2 = true ∧
        (prepareRecord revts revtis curMaxSeenL curL endL curOffAndCorr).2.1.length =
          tzMaxRevRanges - 1) := by
  have range : ∀ before : List RevtInfo, before.length ≤ 1 →
      GapsClosed (revtis ++ (before ++ [⟨curOffAndCorr, 0⟩])) := fun before short =>
    gapsClosed_append inv (gapsClosed_of_last before short rfl)
  unfold prepareRecord
  split
  · split
    · exact .inl (range [] (Nat.zero_le _))
    · split
      · -- the gap at `cur_max_seen_l + 1` fills the table: the loop breaks
        dsimp only
        split
        next full => exact .inr ⟨rfl, full.trans tzMaxRevRanges_sub_one.symm⟩
        next =>
          have closed := range [⟨(revtis.getLastD default).rtOffset, 1⟩] (Nat.le_refl _)
          rw [← List.append_assoc] at closed
          exact .inl closed
      · exact .inl (range [] (Nat.zero_le _))
  · exact .inl inv

@[simp] theorem prepareAdvance_revtis (sp : TzDescription) (st : PrepareState) :
    (prepareAdvance sp st).revtis = st.revtis := by
  unfold prepareAdvance
  dsimp only
  split_ifs <;> rfl

/-- The ranges after one pass are those of the recording of that pass, and a
recording that fills the table ends the loop. -/
theorem prepareStep_revtis (sp : TzDescription) (st : PrepareState) :
    ∃ curL endL : Int,
      (prepareStep sp st).1.revtis =
          (prepareRecord st.revts st.revtis st.curMaxSeenL curL endL (st.curOffset - st.curCorr)).2.1 ∧
        ((prepareRecord st.revts st.revtis st.curMaxSeenL curL endL
          (st.curOffset - st.curCorr)).2.2.2 = true → (prepareStep sp st).2 = true) := by
  refine ⟨(if st.curOffset - st.curCorr < 0 ∧ st.curT < myTimeTMin - (st.curOffset - st.curCorr)
      then myTimeTMin - (st.curOffset - st.curCorr) else st.curT) + (st.curOffset - st.curCorr),
    prepareEndT sp st (st.curOffset - st.curCorr) + (st.curOffset - st.curCorr), ?_⟩
  unfold prepareStep
  dsimp only
  generalize prepareRecord st.revts st.revtis st.curMaxSeenL _ _ _ = record
  obtain ⟨revts, revtis, curMaxSeenL, tooMuch⟩ := record
  dsimp only
  refine ⟨?_, fun stops => if_pos stops ▸ rfl⟩
  split
  · rfl
  · split
    · rfl
    · exact prepareAdvance_revtis _ _

/-- The step lemma: a pass keeps the ranges gap-closed, or breaks with a full
table. -/
theorem prepareStep_gapsClosed (sp : TzDescription) {st : PrepareState}
    (inv : GapsClosed st.revtis) :
    GapsClosed (prepareStep sp st).1.revtis ∨
      ((prepareStep sp st).2 = true ∧ (prepareStep sp st).1.revtis.length = tzMaxRevRanges - 1) := by
  obtain ⟨curL, endL, revtis, breaks⟩ := prepareStep_revtis sp st
  rw [revtis]
  rcases @prepareRecord_gapsClosed st.revts st.revtis inv st.curMaxSeenL curL endL
    (st.curOffset - st.curCorr) with closed | ⟨tooMuch, full⟩
  · exact .inl closed
  · exact .inr ⟨breaks tooMuch, full⟩

theorem prepareLoop_zero (sp : TzDescription) (st : PrepareState) : prepareLoop sp 0 st = none := rfl

theorem prepareLoop_full (sp : TzDescription) (fuel : Nat) {st : PrepareState}
    (full : ¬ st.revtis.length < tzMaxRevRanges - 1) : prepareLoop sp (fuel + 1) st = some st := by
  simp only [prepareLoop, full, ↓reduceIte]

theorem prepareLoop_step (sp : TzDescription) (fuel : Nat) {st st' : PrepareState} {stop : Bool}
    (room : st.revtis.length < tzMaxRevRanges - 1) (step : prepareStep sp st = (st', stop)) :
    prepareLoop sp (fuel + 1) st = if stop then some st' else prepareLoop sp fuel st' := by
  cases stop <;> simp only [prepareLoop, room, step, ↓reduceIte, Bool.false_eq_true]

/-- The run lemma: the loop ends with gap-closed ranges or a full table. -/
theorem prepareLoop_gapsClosed (sp : TzDescription) :
    ∀ (fuel : Nat) (st st' : PrepareState), GapsClosed st.revtis → prepareLoop sp fuel st = some st' →
      GapsClosed st'.revtis ∨ st'.revtis.length = tzMaxRevRanges - 1
  | 0, st, st', _, done => by
    rw [prepareLoop_zero] at done
    cases done
  | fuel + 1, st, st', inv, done => by
    by_cases room : st.revtis.length < tzMaxRevRanges - 1
    · have kept := prepareStep_gapsClosed sp inv
      rcases step : prepareStep sp st with ⟨next, _ | _⟩
      · -- the loop goes on from the state after the pass
        rw [prepareLoop_step sp fuel room step, if_neg Bool.false_ne_true] at done
        rw [step] at kept
        have closed : GapsClosed next.revtis := kept.resolve_right fun ⟨stops, _⟩ => Bool.false_ne_true stops
        exact prepareLoop_gapsClosed sp fuel next st' closed done
      · rw [prepareLoop_step sp fuel room step, if_pos rfl] at done
        cases done
        rw [step] at kept
        exact kept.imp id And.right
    · rw [prepareLoop_full sp fuel room] at done
      cases done
      exact .inl inv

/-- The tables `prepare_tz_info` returns are those of its loop, which did not
fill them. -/
theorem prepareTzInfo_eq_some {sp : TzDescription} {tz : TimeZoneInfo} (h : prepareTzInfo sp = some tz) :
    ∃ st, prepareLoop sp (sp.ats.length + sp.lsis.length + 1) (prepareStart sp) = some st ∧
      st.revtis.length ≠ tzMaxRevRanges - 1 ∧ tz.revts = st.revts ++ [st.endL] ∧ tz.revtis = st.revtis := by
  unfold prepareTzInfo at h
  split at h
  · cases h
  · next st loop =>
    split at h
    · cases h
    · next room =>
      cases h
      exact ⟨st, loop, room, rfl, rfl⟩

/-- In every table `prepare_tz_info` returns, a spring time-gap range is
followed by a range that is not one. -/
theorem prepareTzInfo_gapsClosed {sp : TzDescription} {tz : TimeZoneInfo} (h : prepareTzInfo sp = some tz) :
    GapsClosed tz.revtis := by
  obtain ⟨st, loop, room, -, revtis⟩ := prepareTzInfo_eq_some h
  rw [revtis]
  exact (prepareLoop_gapsClosed sp _ _ _ gapsClosed_nil loop).resolve_right room

/-- An offset that grows by 1000 seconds 500 seconds before `MY_TIME_T_MAX`:
the table has a gap, and the range after it. -/
theorem prepareTzInfo_gapsClosed_spring_forward :
    prepareTzInfo { ats := [4294966795], types := [1], ttis := [⟨0, 0⟩, ⟨1000, 0⟩], lsis := [] } =
        some { toTzDescription := { ats := [4294966795], types := [1], ttis := [⟨0, 0⟩, ⟨1000, 0⟩], lsis := [] },
               revts := [0, 4294966795, 4294967795, 4294967295],
               revtis := [⟨0, 0⟩, ⟨0, 1⟩, ⟨1000, 0⟩], fallbackTti := ⟨0, 0⟩ } ∧
      GapsClosed [⟨0, 0⟩, ⟨0, 1⟩, ⟨1000, 0⟩] := by
  refine ⟨?spring, prepareTzInfo_gapsClosed ?spring⟩
  decide

/-- The finisher `revts[revcnt]` is the `end_l` of the last pass. When that
pass records nothing, because its local times were seen before, the finisher
lies below the start of the last range; and a range that starts where an
offset grows near `MY_TIME_T_MAX` starts past `MY_TIME_T_MAX` and past the
finisher. -/
theorem prepareTzInfo_revts_not_increasing :
    (prepareTzInfo
        { ats := [4294967145, 4294967255], types := [1, 2], ttis := [⟨100, 0⟩, ⟨0, 1⟩, ⟨-100, 1⟩],
          lsis := [] }).map (fun tz => tz.revts) =
      some [100, 4294967245, 4294967195] ∧
    (prepareTzInfo { ats := [4294966795], types := [1], ttis := [⟨0, 0⟩, ⟨1000, 0⟩], lsis := [] }).map
        (fun tz => tz.revts) =
      some [0, 4294966795, 4294967795, 4294967295] := by
  constructor <;> decide

/-! ## `find_time_range` -/

/-- A sorted prefix of the boundaries, read by index. -/
theorem getD_le_getD_of_sorted {l : List Int} {n i j : Nat} (sorted : (l.take n).Pairwise (· ≤ ·))
    (len : n ≤ l.length) (le : i ≤ j) (below : j < n) : l.getD i 0 ≤ l.getD j 0 := by
  rcases Nat.eq_or_lt_of_le le with same | lt
  · rw [same]
  · have ordered := List.pairwise_iff_getElem.mp sorted i j (by rw [List.length_take]; omega)
      (by rw [List.length_take]; omega) lt
    rw [List.getElem_take, List.getElem_take] at ordered
    rw [List.getD_eq_getElem _ _ (by omega), List.getD_eq_getElem _ _ (by omega)]
    exact ordered

/-- `find_time_range` returns the last of the first `higher_bound` ranges
that starts at or before `t`, when their starts are sorted and the first is
at or before `t`. -/
theorem findTimeRange_isGreatest (t : Int) (rangeBoundaries : List Int) (higherBound : Nat)
    (sorted : (rangeBoundaries.take higherBound).Pairwise (· ≤ ·)) (len : higherBound ≤ rangeBoundaries.length)
    (nonempty : 0 < higherBound) (first : rangeBoundaries.getD 0 0 ≤ t) :
    IsGreatest {i | i < higherBound ∧ rangeBoundaries.getD i 0 ≤ t}
      (findTimeRange t rangeBoundaries higherBound) := by
  have inv : Bisect.Inv (fun i => decide (rangeBoundaries.getD i 0 ≤ t)) higherBound 0 higherBound :=
    ⟨nonempty, le_rfl, decide_eq_true first, fun h => absurd h (lt_irrefl _)⟩
  obtain ⟨found, below, next⟩ := Bisect.loop_spec higherBound 0 higherBound inv (by omega)
  rw [findTimeRange_def]
  refine ⟨⟨below, of_decide_eq_true found⟩, ?_⟩
  rintro j ⟨hj, starts⟩
  by_contra far
  -- the range after the one found starts after `t`, and not after range `j`
  have after := next (by omega)
  have ordered := getD_le_getD_of_sorted sorted len (Nat.succ_le_of_lt (Nat.lt_of_not_le far)) hj
  rw [decide_eq_false_iff_not] at after
  exact after (le_trans ordered starts)

/-- Four ranges starting at 0, 10, 10 and 20: at 15 the search stops at the
second range that starts at 10. -/
theorem findTimeRange_isGreatest_repeated :
    (List.take 4 ([0, 10, 10, 20] : List Int)).Pairwise (· ≤ ·) ∧
      IsGreatest {i | i < 4 ∧ ([0, 10, 10, 20] : List Int).getD i 0 ≤ 15} (findTimeRange 15 [0, 10, 10, 20] 4) :=
  ⟨by decide, findTimeRange_isGreatest 15 [0, 10, 10, 20] 4 (by decide) (by decide) (by decide) (by decide)⟩

end MariaDB.Temporal
