import MariaDB.Temporal.DaynrCalendar

set_option autoImplicit false

/- The week numbering of `calc_week` in sql/sql_time.cc, against the rules of
the comment above it. A week is counted in the year of one of its days, its
anchor: under ISO 8601:1988 the week holding January 1 is week 1 when four or
more of its days are in the new year, so a week goes with the year of its
fourth day; with `WEEK_FIRST_WEEKDAY` week 1 is the week of the first first
day of the week, so a week goes with the year of its first day. `WEEK_YEAR`
counts a week in the year of its anchor (weeks 1 to 53); without it a week is
counted in the date's own year, week 0 being the last week of the year before.
`calc_week` gets there from the weekday of January 1, moving to the year before
for the first days of January and to the next year past week 52. -/
namespace MariaDB.Temporal

open Calendar

/-- The day a week is counted by: its fourth day under ISO 8601, its first day
with `WEEK_FIRST_WEEKDAY`. `calc_weekday` counts the days of a week from its
first day, Monday with `WEEK_MONDAY_FIRST` and Sunday without. -/
def weekAnchor (daynr : Int) (mondayFirst firstWeekday : Bool) : Int :=
  daynr - calcWeekday daynr (!mondayFirst) + (if firstWeekday then 0 else 3)

/-- Day number `n` falls in `year`. -/
def InYear (n : Int) (year : Nat) : Prop := calcDaynr year 1 1 ≤ n ∧ n < calcDaynr (year + 1) 1 1

/-- The number of the week of the anchor day `anchor` counted in `year`: week 1
is the week whose anchor is among the first seven days of the year, and an
anchor before the year is week 0. -/
def weekOfYear (anchor : Int) (year : Nat) : Nat :=
  if anchor < calcDaynr year 1 1 then 0 else ((anchor - calcDaynr year 1 1) / 7 + 1).toNat

/-- The week and the year the comment above `calc_week` gives the day `daynr`
of `year`: with `WEEK_YEAR` the year of the week's anchor and the week counted
there, without it the date's own year and the week counted in it. -/
def DocumentedWeek (year : Nat) (daynr : Int) (weekBehaviour week weekYearOut : Nat) : Prop :=
  let anchor := weekAnchor daynr (weekBehaviour &&& weekMondayFirst ≠ 0)
    (weekBehaviour &&& weekFirstWeekday ≠ 0)
  if weekBehaviour &&& weekYear ≠ 0 then
    InYear anchor weekYearOut ∧ week = weekOfYear anchor weekYearOut
  else weekYearOut = year ∧ week = weekOfYear anchor year

/-- The Thursday of the week of `daynr`, weeks from Monday: ISO 8601 counts a
week in the year of its Thursday. -/
def isoThursday (daynr : Int) : Int := daynr - calcWeekday daynr false + 3

/-! ## Week 1, as `calc_week` finds it -/

/-- The weekday of January 1 of `year`, counted from the first day of the week. -/
def jan1Weekday (year : Nat) (mondayFirst : Bool) : Nat :=
  (calcWeekday (calcDaynr year 1 1) (!mondayFirst)).toNat

/-- The test of `calc_week` under which the week of January 1 is counted in the
year before: with `WEEK_FIRST_WEEKDAY` when January 1 is not the first day of
the week, else when fewer than four days of the week are in the new year. -/
def LastWeekBefore (firstWeekday : Bool) (weekday : Nat) : Prop :=
  (firstWeekday = true ∧ weekday ≠ 0) ∨ (firstWeekday = false ∧ weekday ≥ 4)

instance (firstWeekday : Bool) (weekday : Nat) : Decidable (LastWeekBefore firstWeekday weekday) :=
  inferInstanceAs (Decidable (_ ∨ _))

/-- The first day of week 1 of `year`. -/
def weekOneStart (year : Nat) (mondayFirst firstWeekday : Bool) : Int :=
  if LastWeekBefore firstWeekday (jan1Weekday year mondayFirst) then
    calcDaynr year 1 1 + (7 - jan1Weekday year mondayFirst : Nat)
  else calcDaynr year 1 1 - jan1Weekday year mondayFirst

/-! ## January 1 and the day of the year -/

theorem calcDaysInYear_mem (year : Nat) : calcDaysInYear year = 365 ∨ calcDaysInYear year = 366 := by
  unfold calcDaysInYear
  split <;> simp

/-- `calc_daynr` of January 1 follows the days before the year, from year 0 on. -/
theorem calcDaynr_jan1 (year : Nat) : calcDaynr year 1 1 = daysBefore daysInYearLeap year + 1 := by
  rcases Nat.eq_zero_or_pos year with rfl | pos
  · decide
  · have valid : (⟨year, 1, 1⟩ : Date).Valid daysInYearLeap :=
      ⟨le_rfl, show 1 ≤ 12 by decide, le_rfl, le_trans (show 1 ≤ 28 by decide) (monthLength_ge _ 1)⟩
    rw [calcDaynr_eq_dayNumber valid pos, dayNumber_def]
    simp [daysBeforeMonth_of_le_two]

/-- A year later, January 1 has moved on by the days of the year. -/
theorem calcDaynr_jan1_succ (year : Nat) :
    calcDaynr (year + 1) 1 1 = calcDaynr year 1 1 + calcDaysInYear year := by
  rw [calcDaynr_jan1, calcDaynr_jan1, daysBefore_succ, yearLength_daysInYearLeap]
  push_cast
  ring

/-- The number of a date is that of its January 1 and its day of the year. -/
theorem calcDaynr_eq_jan1_add {year month day : Nat}
    (valid : (⟨year, month, day⟩ : Date).Valid daysInYearLeap) (pos : 1 ≤ year) :
    calcDaynr year month day =
      calcDaynr year 1 1 + (daysBeforeMonth (daysInYearLeap year) month + day) - 1 := by
  rw [calcDaynr_eq_dayNumber valid pos, calcDaynr_jan1, dayNumber_def]
  push_cast
  ring

theorem calcWeekday_eq_emod {daynr : Int} (nonneg : 0 ≤ daynr) (sundayFirst : Bool) :
    calcWeekday daynr sundayFirst = (daynr + 5 + if sundayFirst then 1 else 0) % 7 := by
  unfold calcWeekday
  rw [Int.tmod_eq_emod_of_nonneg (by split <;> omega)]

theorem calcDaynr_jan1_pos (year : Nat) : 1 ≤ calcDaynr year 1 1 := by
  rw [calcDaynr_jan1]
  omega

theorem calcDaynr_jan1_pred {year : Nat} (pos : 1 ≤ year) :
    calcDaynr (year - 1) 1 1 = calcDaynr year 1 1 - calcDaysInYear (year - 1) := by
  obtain ⟨prev, rfl⟩ : ∃ prev, year = prev + 1 := ⟨year - 1, by omega⟩
  rw [Nat.add_sub_cancel, calcDaynr_jan1_succ]
  ring

/-- From February on, January is behind. -/
theorem daysBeforeMonth_ge_of_two_le {year month : Nat} (second : 2 ≤ month) :
    31 ≤ daysBeforeMonth (daysInYearLeap year) month := by
  have february : daysBeforeMonth (daysInYearLeap year) 2 = 31 := by
    rw [daysBeforeMonth_of_le_two _ le_rfl]
  have := daysBeforeMonth_mono (daysInYearLeap year) (by decide) second
  omega

/-- A valid date is numbered within its year. -/
theorem calcDaynr_inYear {year month day : Nat}
    (valid : (⟨year, month, day⟩ : Date).Valid daysInYearLeap) (pos : 1 ≤ year) :
    InYear (calcDaynr year month day) year := by
  have date := calcDaynr_eq_jan1_add valid pos
  have dayPos := valid.day_pos
  have dayLe := valid.dayOfYear_le
  rw [yearLength_daysInYearLeap] at dayLe
  simp only at dayPos dayLe
  have next := calcDaynr_jan1_succ year
  unfold InYear
  omega

theorem jan1Weekday_lt (year : Nat) (mondayFirst : Bool) : jan1Weekday year mondayFirst < 7 := by
  have jan1 := calcDaynr_jan1_pos year
  unfold jan1Weekday
  rw [calcWeekday_eq_emod (by omega)]
  omega

/-- January 1 of the next year is the days of the year later in the week. -/
theorem jan1Weekday_succ (year : Nat) (mondayFirst : Bool) :
    jan1Weekday (year + 1) mondayFirst = (jan1Weekday year mondayFirst + calcDaysInYear year) % 7 := by
  have jan1 := calcDaynr_jan1_pos year
  have next := calcDaynr_jan1_pos (year + 1)
  unfold jan1Weekday
  rw [calcWeekday_eq_emod (by omega), calcWeekday_eq_emod (by omega), calcDaynr_jan1_succ]
  omega

/-- January 1 of the year before, back by the days of that year. -/
theorem jan1Weekday_pred {year : Nat} (pos : 1 ≤ year) (mondayFirst : Bool) :
    jan1Weekday (year - 1) mondayFirst =
      (jan1Weekday year mondayFirst + 53 * 7 - calcDaysInYear (year - 1)) % 7 := by
  obtain ⟨prev, rfl⟩ : ∃ prev, year = prev + 1 := ⟨year - 1, by omega⟩
  have succ := jan1Weekday_succ prev mondayFirst
  have below := jan1Weekday_lt prev mondayFirst
  have days := calcDaysInYear_mem prev
  simp only [Nat.add_sub_cancel]
  omega

/-! ## Where week 1 starts -/

section
variable (mondayFirst firstWeekday : Bool)

theorem anchor_lt_jan1_iff (year : Nat) {n : Int} (nonneg : 0 ≤ n) :
    weekAnchor n mondayFirst firstWeekday < calcDaynr year 1 1 ↔
      n < weekOneStart year mondayFirst firstWeekday := by
  have jan1 := calcDaynr_jan1_pos year
  unfold weekAnchor weekOneStart jan1Weekday LastWeekBefore
  rw [calcWeekday_eq_emod nonneg, calcWeekday_eq_emod (by omega)]
  cases mondayFirst <;> cases firstWeekday <;> simp <;> omega

theorem anchor_sub_jan1_div (year : Nat) {n : Int} (nonneg : 0 ≤ n)
    (after : weekOneStart year mondayFirst firstWeekday ≤ n) :
    (weekAnchor n mondayFirst firstWeekday - calcDaynr year 1 1) / 7 =
      (n - weekOneStart year mondayFirst firstWeekday) / 7 := by
  have jan1 := calcDaynr_jan1_pos year
  unfold weekAnchor weekOneStart jan1Weekday LastWeekBefore at *
  rw [calcWeekday_eq_emod nonneg, calcWeekday_eq_emod (by omega)] at *
  cases mondayFirst <;> cases firstWeekday <;> simp at * <;> omega

/-- Week 1 starts within three days before January 1 and six after it, and
after January 1 exactly when the week of January 1 is counted in the year before. -/
theorem weekOneStart_mem (year : Nat) :
    calcDaynr year 1 1 - 3 ≤ weekOneStart year mondayFirst firstWeekday ∧
      weekOneStart year mondayFirst firstWeekday ≤ calcDaynr year 1 1 + 6 ∧
      (calcDaynr year 1 1 < weekOneStart year mondayFirst firstWeekday ↔
        LastWeekBefore firstWeekday (jan1Weekday year mondayFirst)) := by
  have jan1 := calcDaynr_jan1_pos year
  unfold weekOneStart jan1Weekday LastWeekBefore
  rw [calcWeekday_eq_emod (by omega)]
  cases mondayFirst <;> cases firstWeekday <;> simp <;> omega

/-- A day of `year` is in the weeks of the next year when it is 52 weeks past
week 1 and the next January 1 opens week 1. -/
theorem weekOneStart_succ_le_iff (year : Nat) {n : Int} (inYear : n < calcDaynr (year + 1) 1 1) :
    weekOneStart (year + 1) mondayFirst firstWeekday ≤ n ↔
      364 ≤ n - weekOneStart year mondayFirst firstWeekday ∧
        ¬ LastWeekBefore firstWeekday (jan1Weekday (year + 1) mondayFirst) := by
  have below := jan1Weekday_lt year mondayFirst
  have days := calcDaysInYear_mem year
  unfold weekOneStart
  rw [jan1Weekday_succ, calcDaynr_jan1_succ]
  rw [calcDaynr_jan1_succ] at inYear
  generalize jan1Weekday year mondayFirst = weekday at *
  generalize calcDaynr year 1 1 = jan1 at *
  -- one case for each weekday of January 1 and each length of the year
  rcases days with days | days <;> rw [days] at inYear ⊢ <;> interval_cases weekday <;> cases firstWeekday <;>
    simp [LastWeekBefore] <;> omega

/-- Week 1 of the next year starts 52 or more weeks after week 1 of this one. -/
theorem weekOneStart_add_364_le (year : Nat) :
    weekOneStart year mondayFirst firstWeekday + 364 ≤ weekOneStart (year + 1) mondayFirst firstWeekday := by
  have below := jan1Weekday_lt year mondayFirst
  have days := calcDaysInYear_mem year
  unfold weekOneStart
  rw [jan1Weekday_succ, calcDaynr_jan1_succ]
  generalize jan1Weekday year mondayFirst = weekday at *
  generalize calcDaynr year 1 1 = jan1
  rcases days with days | days <;> rw [days] <;> interval_cases weekday <;> cases firstWeekday <;>
    simp [LastWeekBefore] <;> omega

end

/-- The spec's week of an anchor, by the day week 1 starts. -/
theorem weekOfYear_anchor (mondayFirst firstWeekday : Bool) (year : Nat) {n : Int} (nonneg : 0 ≤ n) :
    weekOfYear (weekAnchor n mondayFirst firstWeekday) year =
      if n < weekOneStart year mondayFirst firstWeekday then 0
      else ((n - weekOneStart year mondayFirst firstWeekday) / 7 + 1).toNat := by
  unfold weekOfYear
  by_cases before : n < weekOneStart year mondayFirst firstWeekday
  · rw [if_pos ((anchor_lt_jan1_iff mondayFirst firstWeekday year nonneg).mpr before), if_pos before]
  · have after : weekOneStart year mondayFirst firstWeekday ≤ n := by omega
    rw [if_neg (mt (anchor_lt_jan1_iff mondayFirst firstWeekday year nonneg).mp before),
      if_neg before, anchor_sub_jan1_div mondayFirst firstWeekday year nonneg after]

/-- The anchor of day `n` is in `year` when `n` is in the weeks of `year`. -/
theorem inYear_anchor_iff (mondayFirst firstWeekday : Bool) (year : Nat) {n : Int} (nonneg : 0 ≤ n) :
    InYear (weekAnchor n mondayFirst firstWeekday) year ↔
      weekOneStart year mondayFirst firstWeekday ≤ n ∧
        n < weekOneStart (year + 1) mondayFirst firstWeekday := by
  have this := anchor_lt_jan1_iff mondayFirst firstWeekday year nonneg
  have next := anchor_lt_jan1_iff mondayFirst firstWeekday (year + 1) nonneg
  unfold InYear
  omega

section
variable {year month day : Nat} (valid : (⟨year, month, day⟩ : Date).Valid daysInYearLeap)
  (pos : 1 ≤ year) (mondayFirst firstWeekday : Bool)
include valid pos

/-- Past the first days of January a date is in the weeks of its year. -/
theorem weekOneStart_le_of_late
    (late : ¬ (month = 1 ∧ day ≤ 7 - jan1Weekday year mondayFirst)) :
    weekOneStart year mondayFirst firstWeekday ≤ calcDaynr year month day := by
  have date := calcDaynr_eq_jan1_add valid pos
  have dayPos := valid.day_pos
  have monthPos := valid.month_pos
  simp only at dayPos monthPos
  have january : month = 1 → daysBeforeMonth (daysInYearLeap year) month = 0 := by
    rintro rfl
    rfl
  have later : month ≠ 1 → 31 ≤ daysBeforeMonth (daysInYearLeap year) month :=
    fun ne => daysBeforeMonth_ge_of_two_le (by omega)
  unfold weekOneStart
  split <;> omega

/-- In the first days of January a date is before week 1 exactly when the week
of January 1 is counted in the year before. -/
theorem lt_weekOneStart_of_early (early : month = 1 ∧ day ≤ 7 - jan1Weekday year mondayFirst) :
    calcDaynr year month day < weekOneStart year mondayFirst firstWeekday ↔
      LastWeekBefore firstWeekday (jan1Weekday year mondayFirst) := by
  have date := calcDaynr_eq_jan1_add valid pos
  have dayPos := valid.day_pos
  simp only at dayPos
  have january : daysBeforeMonth (daysInYearLeap year) month = 0 := by
    rw [early.1]
    rfl
  unfold weekOneStart
  split_ifs with before <;> simp only [before, iff_true, iff_false] <;> omega

/-- The first days of January are in the first week that touches the year. -/
theorem sub_weekOneStart_lt_of_early (early : month = 1 ∧ day ≤ 7 - jan1Weekday year mondayFirst) :
    calcDaynr year month day - weekOneStart year mondayFirst firstWeekday < 7 := by
  have date := calcDaynr_eq_jan1_add valid pos
  have below := jan1Weekday_lt year mondayFirst
  have january : daysBeforeMonth (daysInYearLeap year) month = 0 := by
    rw [early.1]
    rfl
  unfold weekOneStart
  split <;> omega

end

/-! ## The two branches of `calc_week` -/

theorem lastWeekBefore_decide (p : Prop) [Decidable p] (weekday : Nat) :
    LastWeekBefore (decide p) weekday ↔ (p ∧ weekday ≠ 0) ∨ (¬ p ∧ weekday ≥ 4) := by
  unfold LastWeekBefore
  by_cases h : p <;> simp [h]

theorem not_lastWeekBefore_decide (p : Prop) [Decidable p] (weekday : Nat) :
    ¬ LastWeekBefore (decide p) weekday ↔ (¬ p ∧ weekday < 4) ∨ (p ∧ weekday = 0) := by
  unfold LastWeekBefore
  by_cases h : p <;> simp [h]

/-- The days from the start of week 1 as `calc_week` computes them, from the
weekday of January 1. -/
theorem weekOneStart_days (year : Nat) (mondayFirst firstWeekday : Bool) (n : Int) :
    (if LastWeekBefore firstWeekday (jan1Weekday year mondayFirst) then
        ((n - (calcDaynr year 1 1 + ((7 - jan1Weekday year mondayFirst : Nat) : Int))) % 2 ^ 32).toNat
      else ((n - (calcDaynr year 1 1 - (jan1Weekday year mondayFirst : Int))) % 2 ^ 32).toNat) =
      ((n - weekOneStart year mondayFirst firstWeekday) % 2 ^ 32).toNat := by
  unfold weekOneStart
  split <;> rfl

/-- `calc_week` past the first days of January: the weeks of the date's own
year, and week 1 of the next year 52 weeks on when the next January 1 opens it. -/
theorem calcWeek_of_late (t : MysqlTime) (valid : (⟨t.year, t.month, t.day⟩ : Date).Valid daysInYearLeap)
    (pos : 1 ≤ t.year) (le : t.year ≤ 9999) (weekBehaviour : Nat)
    (late : ¬ (t.month = 1 ∧ t.day ≤ 7 - jan1Weekday t.year (decide (weekBehaviour &&& weekMondayFirst ≠ 0)))) :
    calcWeek t weekBehaviour =
      let mondayFirst := decide (weekBehaviour &&& weekMondayFirst ≠ 0)
      let firstWeekday := decide (weekBehaviour &&& weekFirstWeekday ≠ 0)
      let n := calcDaynr t.year t.month t.day
      if weekBehaviour &&& weekYear ≠ 0 ∧
          364 ≤ n - weekOneStart t.year mondayFirst firstWeekday ∧
          ¬ LastWeekBefore firstWeekday (jan1Weekday (t.year + 1) mondayFirst) then (1, t.year + 1)
      else (((n - weekOneStart t.year mondayFirst firstWeekday) / 7 + 1).toNat, t.year) := by
  have after := weekOneStart_le_of_late valid pos _ (decide (weekBehaviour &&& weekFirstWeekday ≠ 0)) late
  have inYear := calcDaynr_inYear valid pos
  have start := weekOneStart_mem (decide (weekBehaviour &&& weekMondayFirst ≠ 0))
    (decide (weekBehaviour &&& weekFirstWeekday ≠ 0)) t.year
  have next := calcDaynr_jan1_succ t.year
  have days := calcDaysInYear_mem t.year
  have wrapUp : (t.year + 1) % 2 ^ 32 = t.year + 1 := by omega
  unfold InYear at inYear
  dsimp only
  unfold calcWeek
  simp only [show ¬ (t.month = 1 ∧ t.day ≤ 7 - (calcWeekday (calcDaynr t.year 1 1)
    !decide (weekBehaviour &&& weekMondayFirst ≠ 0)).toNat) from late, false_and, if_false, wrapUp]
  rw [show (calcWeekday (calcDaynr t.year 1 1) !decide (weekBehaviour &&& weekMondayFirst ≠ 0)).toNat =
    jan1Weekday t.year (decide (weekBehaviour &&& weekMondayFirst ≠ 0)) from rfl]
  simp only [← lastWeekBefore_decide, ← not_lastWeekBefore_decide, decide_eq_true_eq,
    weekOneStart_days, ← jan1Weekday_succ]
  -- the days from week 1 are within the year, so the code's unsigned count is exact
  rw [Int.emod_eq_of_lt (by omega) (by omega)]
  generalize since : calcDaynr t.year t.month t.day - weekOneStart t.year _ _ = sinceWeekOne
  -- the code tests the flag and the days first, then the next January 1
  by_cases nextYear : LastWeekBefore (decide (weekBehaviour &&& weekFirstWeekday ≠ 0))
      (jan1Weekday (t.year + 1) (decide (weekBehaviour &&& weekMondayFirst ≠ 0))) <;>
    simp only [nextYear, not_true, not_false_eq_true, and_true, and_false, if_true, if_false] <;>
    split_ifs <;> simp only [Prod.mk.injEq, and_true] <;> omega

/-- `calc_week` in the first days of January: week 0 of the date's year when
the week of January 1 is counted in the year before and `WEEK_YEAR` is off,
else the weeks of the year before, from which week 1 of the date's year is
reached as in the last days of a year. -/
theorem calcWeek_of_early (t : MysqlTime) (valid : (⟨t.year, t.month, t.day⟩ : Date).Valid daysInYearLeap)
    (pos : 1 ≤ t.year) (le : t.year ≤ 9999) (weekBehaviour : Nat)
    (early : t.month = 1 ∧ t.day ≤ 7 - jan1Weekday t.year (decide (weekBehaviour &&& weekMondayFirst ≠ 0))) :
    calcWeek t weekBehaviour =
      let mondayFirst := decide (weekBehaviour &&& weekMondayFirst ≠ 0)
      let firstWeekday := decide (weekBehaviour &&& weekFirstWeekday ≠ 0)
      let n := calcDaynr t.year t.month t.day
      if weekBehaviour &&& weekYear = 0 ∧
          LastWeekBefore firstWeekday (jan1Weekday t.year mondayFirst) then (0, t.year)
      else if 364 ≤ n - weekOneStart (t.year - 1) mondayFirst firstWeekday ∧
          ¬ LastWeekBefore firstWeekday (jan1Weekday t.year mondayFirst) then (1, t.year)
      else (((n - weekOneStart (t.year - 1) mondayFirst firstWeekday) / 7 + 1).toNat, t.year - 1) := by
  have inYear := calcDaynr_inYear valid pos
  have start := weekOneStart_mem (decide (weekBehaviour &&& weekMondayFirst ≠ 0))
    (decide (weekBehaviour &&& weekFirstWeekday ≠ 0)) (t.year - 1)
  have prevJan1 := calcDaynr_jan1_pred pos
  have days := calcDaysInYear_mem (t.year - 1)
  -- the code steps back to the year before by its length and the weekday of its January 1
  have pred := jan1Weekday_pred pos (decide (weekBehaviour &&& weekMondayFirst ≠ 0))
  have succ := jan1Weekday_succ (t.year - 1) (decide (weekBehaviour &&& weekMondayFirst ≠ 0))
  rw [Nat.sub_add_cancel pos] at succ
  have wrapDown : (((t.year : Int) - 1) % 2 ^ 32).toNat = t.year - 1 := by omega
  have wrapUp : (t.year - 1 + 1) % 2 ^ 32 = t.year := by omega
  have date : calcDaynr t.year 1 t.day ≤ calcDaynr t.year 1 1 + 6 := by
    have date := calcDaynr_eq_jan1_add valid pos
    rw [early.1] at date
    have : daysBeforeMonth (daysInYearLeap t.year) 1 = 0 := rfl
    omega
  unfold InYear at inYear
  rw [early.1] at inYear
  dsimp only
  unfold calcWeek
  simp only [show t.month = 1 ∧ t.day ≤ 7 - (calcWeekday (calcDaynr t.year 1 1)
    !decide (weekBehaviour &&& weekMondayFirst ≠ 0)).toNat from early, true_and, if_true, wrapDown,
    wrapUp]
  rw [show (calcWeekday (calcDaynr t.year 1 1) !decide (weekBehaviour &&& weekMondayFirst ≠ 0)).toNat =
    jan1Weekday t.year (decide (weekBehaviour &&& weekMondayFirst ≠ 0)) from rfl, ← pred, ← succ,
    ← prevJan1]
  simp only [← lastWeekBefore_decide, ← not_lastWeekBefore_decide, weekOneStart_days]
  simp only [not_ne_iff]
  rw [Int.emod_eq_of_lt (by omega) (by omega)]
  generalize since : calcDaynr t.year 1 t.day - weekOneStart (t.year - 1) _ _ = sinceWeekOne
  by_cases thisYear : LastWeekBefore (decide (weekBehaviour &&& weekFirstWeekday ≠ 0))
      (jan1Weekday t.year (decide (weekBehaviour &&& weekMondayFirst ≠ 0))) <;>
    simp only [thisYear, not_true, not_false_eq_true, and_true, and_false, if_false] <;>
    split_ifs <;> simp only [Prod.mk.injEq, and_true] <;> omega

/-! ## The documented numbering -/

section
variable (t : MysqlTime) (valid : (⟨t.year, t.month, t.day⟩ : Date).Valid daysInYearLeap)
  (pos : 1 ≤ t.year) (le : t.year ≤ 9999) (weekBehaviour : Nat)
include valid pos le

theorem documentedWeek_of_late
    (late : ¬ (t.month = 1 ∧ t.day ≤ 7 - jan1Weekday t.year (decide (weekBehaviour &&& weekMondayFirst ≠ 0)))) :
    DocumentedWeek t.year (calcDaynr t.year t.month t.day) weekBehaviour
      (calcWeek t weekBehaviour).1 (calcWeek t weekBehaviour).2 := by
  have code := calcWeek_of_late t valid pos le weekBehaviour late
  unfold DocumentedWeek
  dsimp only at code ⊢
  set mondayFirst := decide (weekBehaviour &&& weekMondayFirst ≠ 0)
  set firstWeekday := decide (weekBehaviour &&& weekFirstWeekday ≠ 0)
  set n := calcDaynr t.year t.month t.day with date
  have inYear := calcDaynr_inYear valid pos
  have jan1 := calcDaynr_jan1_pos t.year
  unfold InYear at inYear
  have nonneg : 0 ≤ n := by omega
  have after := weekOneStart_le_of_late valid pos mondayFirst firstWeekday late
  have nextStart := weekOneStart_succ_le_iff mondayFirst firstWeekday t.year inYear.2
  simp only [weekOfYear_anchor _ _ _ nonneg, inYear_anchor_iff _ _ _ nonneg]
  split_ifs at code with toNext
  · -- week 1 of the next year, which the date starts
    have next := (weekOneStart_mem mondayFirst firstWeekday (t.year + 1)).1
    have afterNext := (weekOneStart_mem mondayFirst firstWeekday (t.year + 1 + 1)).1
    have jan1Next := calcDaynr_jan1_succ (t.year + 1)
    have days := calcDaysInYear_mem (t.year + 1)
    have started := nextStart.mpr toNext.2
    rw [code]
    dsimp only
    split_ifs <;> omega
  · have inWeeks : weekBehaviour &&& weekYear ≠ 0 → n < weekOneStart (t.year + 1) mondayFirst firstWeekday := by
      intro weekYear
      by_contra reached
      exact toNext ⟨weekYear, nextStart.mp (not_lt.mp reached)⟩
    rw [code]
    dsimp only
    split_ifs <;> omega

theorem documentedWeek_of_early
    (early : t.month = 1 ∧ t.day ≤ 7 - jan1Weekday t.year (decide (weekBehaviour &&& weekMondayFirst ≠ 0))) :
    DocumentedWeek t.year (calcDaynr t.year t.month t.day) weekBehaviour
      (calcWeek t weekBehaviour).1 (calcWeek t weekBehaviour).2 := by
  have code := calcWeek_of_early t valid pos le weekBehaviour early
  unfold DocumentedWeek
  dsimp only at code ⊢
  set mondayFirst := decide (weekBehaviour &&& weekMondayFirst ≠ 0)
  set firstWeekday := decide (weekBehaviour &&& weekFirstWeekday ≠ 0)
  set n := calcDaynr t.year t.month t.day with date
  have inYear := calcDaynr_inYear valid pos
  have jan1 := calcDaynr_jan1_pos t.year
  unfold InYear at inYear
  have nonneg : 0 ≤ n := by omega
  have before := lt_weekOneStart_of_early valid pos mondayFirst firstWeekday early
  have within := sub_weekOneStart_lt_of_early valid pos mondayFirst firstWeekday early
  have weeks := weekOneStart_add_364_le mondayFirst firstWeekday t.year
  have prevWeeks := weekOneStart_add_364_le mondayFirst firstWeekday (t.year - 1)
  rw [Nat.sub_add_cancel pos] at prevWeeks
  simp only [weekOfYear_anchor _ _ _ nonneg, inYear_anchor_iff _ _ _ nonneg]
  split_ifs at code with zero toThis
  · -- week 0: the date is before week 1 of its year
    have early := before.mpr zero.2
    rw [code]
    dsimp only
    split_ifs <;> omega
  · -- week 1 of the date's year
    have started := mt before.mp toThis.2
    rw [code]
    dsimp only
    split_ifs <;> omega
  · -- the last week of the year before, which `WEEK_YEAR` counts there
    have lastWeek : LastWeekBefore firstWeekday (jan1Weekday t.year mondayFirst) := by
      by_contra thisYear
      have started := mt before.mp thisYear
      exact toThis ⟨by omega, thisYear⟩
    have weekYear : weekBehaviour &&& weekYear ≠ 0 := fun off => zero ⟨off, lastWeek⟩
    have early := before.mpr lastWeek
    have prevStart := (weekOneStart_mem mondayFirst firstWeekday (t.year - 1)).2.1
    have prevJan1 := calcDaynr_jan1_pred pos
    have prevDays := calcDaysInYear_mem (t.year - 1)
    rw [code]
    dsimp only
    rw [Nat.sub_add_cancel pos]
    split_ifs <;> omega

end

/-- `calc_week` numbers the weeks as the comment above it says, for every valid
date of the years 1 to 9999 and every `week_behaviour`; in mode 3,
`WEEK_MONDAY_FIRST | WEEK_YEAR`, that is the ISO 8601 week: the year of the
date's Thursday and the week of that Thursday counted from its January 1. -/
theorem calcWeek_documented (t : MysqlTime) (valid : (⟨t.year, t.month, t.day⟩ : Date).Valid daysInYearLeap)
    (pos : 1 ≤ t.year) (le : t.year ≤ 9999) (weekBehaviour : Nat) :
    DocumentedWeek t.year (calcDaynr t.year t.month t.day) weekBehaviour
        (calcWeek t weekBehaviour).1 (calcWeek t weekBehaviour).2 ∧
      (weekBehaviour = weekMondayFirst ||| weekYear →
        InYear (isoThursday (calcDaynr t.year t.month t.day)) (calcWeek t weekBehaviour).2 ∧
          (calcWeek t weekBehaviour).1 =
            ((isoThursday (calcDaynr t.year t.month t.day) -
              calcDaynr (calcWeek t weekBehaviour).2 1 1) / 7 + 1).toNat) := by
  have documented : DocumentedWeek t.year (calcDaynr t.year t.month t.day) weekBehaviour
      (calcWeek t weekBehaviour).1 (calcWeek t weekBehaviour).2 := by
    by_cases early : t.month = 1 ∧
        t.day ≤ 7 - jan1Weekday t.year (decide (weekBehaviour &&& weekMondayFirst ≠ 0))
    · exact documentedWeek_of_early t valid pos le weekBehaviour early
    · exact documentedWeek_of_late t valid pos le weekBehaviour early
  refine ⟨documented, fun mode => ?_⟩
  subst mode
  -- in mode 3 `WEEK_YEAR` is on and the anchor is the Thursday
  obtain ⟨inYear, week⟩ := documented
  rw [week]
  refine ⟨inYear, ?_⟩
  unfold weekOfYear
  rw [if_neg (not_lt.mpr inYear.1)]
  rfl

theorem calcWeek_documented_newYear :
    (⟨2024, 12, 30⟩ : Date).Valid daysInYearLeap ∧ 1 ≤ 2024 ∧ 2024 ≤ 9999 ∧
      calcWeek ⟨2024, 12, 30, 0, 0, 0, 0, false, .date⟩ 3 = (1, 2025) ∧
      InYear (isoThursday (calcDaynr 2024 12 30)) 2025 :=
  have documented := calcWeek_documented ⟨2024, 12, 30, 0, 0, 0, 0, false, .date⟩ (by decide)
    (by decide) (by decide) 3
  ⟨by decide, by decide, by decide, by decide, by
    simpa only [show calcWeek ⟨2024, 12, 30, 0, 0, 0, 0, false, .date⟩ 3 = (1, 2025) by decide]
      using (documented.2 rfl).1⟩

end MariaDB.Temporal
