import Mathlib.Tactic.IntervalCases
import Mathlib.Tactic.Linarith
import Mathlib.Tactic.Ring
import MariaDB.Temporal.Tztime

set_option autoImplicit false

/- `sec_to_TIME` and `sec_since_epoch` of sql/tztime.cc count days with one
and the same arithmetic: January 1 of year `y` lies `y * 365 +
LEAPS_THRU_END_OF(y - 1)` days from a fixed origin (`yearStartDay`). The year
loop of `sec_to_TIME` keeps the day it stands on fixed in that count while it
corrects its estimate of the year, and `sec_since_epoch` reads the count
back, so the two are inverse wherever the loop ends. For years before 1 the
count and `isleap` disagree (year -3 has 366 days in the count and 365 in
`year_lengths`, and the loop cycles there); from 0001-01-01 on every pass
shrinks `yearsMeasure`. -/
namespace MariaDB.Temporal

/-! ## `LEAPS_THRU_END_OF` -/

theorem secsPerDay_eq : secsPerDay = 86400 := rfl

theorem secsPerHour_eq : secsPerHour = 3600 := rfl

theorem daysPerNyear_eq : daysPerNyear = 365 := rfl

/-- C's quotient by a positive constant, in floor quotients of the magnitude. -/
theorem tdiv_eq_sign (n c : Int) : n.tdiv c = if 0 ≤ n then n / c else -((-n) / c) := by
  split
  · exact Int.tdiv_eq_ediv_of_nonneg ‹_›
  · rw [← Int.tdiv_eq_ediv_of_nonneg (by omega), Int.neg_tdiv, Int.neg_neg]

theorem leapsThruEndOf_eq (n : Int) :
    leapsThruEndOf n =
      if 0 ≤ n then n / 4 - n / 100 + n / 400 else -((-n) / 4) + (-n) / 100 - (-n) / 400 := by
  unfold leapsThruEndOf
  simp only [tdiv_eq_sign]
  split <;> omega

/-- From one year to the next the count of leap years grows by 0 or 1, also
below year 0, where C's quotients truncate towards zero. -/
theorem leapsThruEndOf_step (n : Int) :
    0 ≤ leapsThruEndOf n - leapsThruEndOf (n - 1) ∧ leapsThruEndOf n - leapsThruEndOf (n - 1) ≤ 1 := by
  rw [leapsThruEndOf_eq n, leapsThruEndOf_eq (n - 1)]
  split_ifs <;> omega

/-- From year 1 on the count grows exactly in the years `isleap` marks. -/
theorem leapsThruEndOf_step_of_pos {n : Int} (pos : 1 ≤ n) :
    leapsThruEndOf n - leapsThruEndOf (n - 1) = if isleap n then 1 else 0 := by
  rw [leapsThruEndOf_eq n, leapsThruEndOf_eq (n - 1), if_pos (by omega), if_pos (by omega)]
  unfold isleap
  simp only [Int.tmod_eq_emod_of_nonneg (show 0 ≤ n by omega)]
  by_cases four : n % 4 = 0 <;> by_cases hundred : n % 100 = 0 <;>
    by_cases fourHundred : n % 400 = 0 <;> simp [four, hundred, fourHundred] <;> omega

theorem leapsThruEndOf_nonneg {n : Int} (nonneg : 0 ≤ n) : 0 ≤ leapsThruEndOf n := by
  rw [leapsThruEndOf_eq, if_pos nonneg]
  omega

theorem leapsThruEndOf_nonpos {n : Int} (nonpos : n ≤ 0) : leapsThruEndOf n ≤ 0 := by
  rw [leapsThruEndOf_eq]
  split <;> omega

/-! ## The day count of both functions -/

/-- January 1 of year `y` in the day count of `sec_to_TIME` and
`sec_since_epoch`. -/
def yearStartDay (y : Int) : Int := y * daysPerNyear + leapsThruEndOf (y - 1)

theorem yearStartDay_succ (y : Int) :
    yearStartDay (y + 1) = yearStartDay y + 365 + (leapsThruEndOf y - leapsThruEndOf (y - 1)) := by
  simp only [yearStartDay, daysPerNyear_eq, Int.add_sub_cancel]
  ring

/-- `k` years hold between `365 * k` and `366 * k` days of the count. -/
theorem yearStartDay_add_bounds (y : Int) (k : Nat) :
    365 * k ≤ yearStartDay (y + k) - yearStartDay y ∧ yearStartDay (y + k) - yearStartDay y ≤ 366 * k := by
  induction k with
  | zero => simp
  | succ k ih =>
    have step := leapsThruEndOf_step (y + k)
    have succ := yearStartDay_succ (y + k)
    rw [show y + ((k + 1 : Nat) : Int) = y + k + 1 by push_cast; ring, succ]
    push_cast
    omega

/-- From year 1 on, a year of the count is as long as `year_lengths` says. -/
theorem yearStartDay_succ_of_pos {y : Int} (pos : 1 ≤ y) :
    yearStartDay (y + 1) = yearStartDay y + yearLengths (isleap y) := by
  rw [yearStartDay_succ, leapsThruEndOf_step_of_pos pos]
  cases isleap y <;> simp only [yearLengths, daysPerNyear, daysPerLyear, Bool.false_eq_true, ↓reduceIte] <;>
    omega

/-- Year 0 is a leap year for `isleap` and a day shorter in the count. -/
theorem yearStartDay_succ_le {y : Int} (nonneg : 0 ≤ y) :
    yearStartDay (y + 1) ≤ yearStartDay y + yearLengths (isleap y) := by
  by_cases pos : 1 ≤ y
  · exact (yearStartDay_succ_of_pos pos).le
  · have zero : y = 0 := by omega
    subst zero
    decide

theorem yearStartDay_le_of_nonpos {y : Int} (nonpos : y ≤ 0) : yearStartDay y ≤ 365 * y := by
  have leaps := leapsThruEndOf_nonpos (show y - 1 ≤ 0 by omega)
  simp only [yearStartDay, daysPerNyear_eq]
  omega

theorem le_yearStartDay {y : Int} (nonneg : 0 ≤ y) : 365 * y ≤ yearStartDay y := by
  by_cases pos : 1 ≤ y
  · have leaps := leapsThruEndOf_nonneg (show 0 ≤ y - 1 by omega)
    simp only [yearStartDay, daysPerNyear_eq]
    omega
  · have zero : y = 0 := by omega
    subst zero
    decide

theorem yearStartDay_one : yearStartDay 1 = 365 := by decide

/-! ## The year loop -/

/-- The year and the day that one pass of the year loop of `sec_to_TIME`
moves to. -/
def yearsPass (y days : Int) : Int × Int :=
  let newy := y + days.tdiv daysPerNyear - (if days < 0 then 1 else 0)
  (newy, days - ((newy - y) * daysPerNyear + leapsThruEndOf (newy - 1) - leapsThruEndOf (y - 1)))

theorem secToTimeYears_succ (fuel : Nat) (y days : Int) :
    secToTimeYears (fuel + 1) y days =
      if days < 0 ∨ days ≥ yearLengths (isleap y) then
        secToTimeYears fuel (yearsPass y days).1 (yearsPass y days).2
      else some (y, days) := rfl

/-- A pass keeps the day it stands on fixed in the count. -/
theorem yearsPass_day (y days : Int) :
    yearStartDay (yearsPass y days).1 + (yearsPass y days).2 = yearStartDay y + days := by
  simp only [yearsPass, yearStartDay]
  ring

theorem yearsPass_of_nonneg {y days : Int} (nonneg : 0 ≤ days) :
    (yearsPass y days).1 = y + days / 365 := by
  simp only [yearsPass, tdiv_eq_sign, if_pos nonneg, if_neg (show ¬days < 0 by omega), daysPerNyear_eq]
  omega

theorem yearsPass_of_neg {y days : Int} (neg : days < 0) :
    (yearsPass y days).1 = y - ((-days) / 365 + 1) := by
  simp only [yearsPass, tdiv_eq_sign, if_neg (show ¬0 ≤ days by omega), if_pos neg, daysPerNyear_eq]
  omega

/-- How far the year loop still has to go: for a day before the year its
distance, for a day past the year what lies past its 364th day. -/
def yearsMeasure (y days : Int) : Nat :=
  if days < 0 then days.natAbs + 1
  else if days < yearLengths (isleap y) then 0 else (days - 364).toNat

theorem yearLengths_mem (leap : Bool) : 365 ≤ yearLengths leap ∧ yearLengths leap ≤ 366 := by
  cases leap <;> decide

/-- A pass from a day past the year lands on a day of the new year, or a few
days before it when the estimate overshot. -/
theorem yearsMeasure_yearsPass_of_late {y days : Int} (lo : yearStartDay 1 ≤ yearStartDay y + days)
    (late : yearLengths (isleap y) ≤ days) :
    yearsMeasure (yearsPass y days).1 (yearsPass y days).2 < yearsMeasure y days := by
  have length := yearLengths_mem (isleap y)
  have newLength := yearLengths_mem (isleap (yearsPass y days).1)
  have newYear := @yearsPass_of_nonneg y days (by omega)
  have day := yearsPass_day y days
  have span := yearStartDay_add_bounds y (days / 365).toNat
  rw [Int.toNat_of_nonneg (by omega), ← newYear] at span
  -- a single year forward ends in the new year, as year lengths agree from year 0 on
  have single : days < 730 → (yearsPass y days).2 ≥ 0 := by
    intro short
    have nonneg : 0 ≤ y := by
      by_contra neg
      have := yearStartDay_le_of_nonpos (show y ≤ 0 by omega)
      rw [yearStartDay_one] at lo
      omega
    have one : (yearsPass y days).1 = y + 1 := by omega
    have le := yearStartDay_succ_le nonneg
    rw [← one] at le
    omega
  unfold yearsMeasure
  rw [if_neg (show ¬days < 0 by omega), if_neg (show ¬days < yearLengths (isleap y) by omega)]
  split
  · omega
  · rw [if_pos (by omega)]
    omega

/-- A pass from a day before the year lands on a day of an earlier year, or
past it by less than the days it started from. -/
theorem yearsMeasure_yearsPass_of_early {y days : Int} (early : days < 0) :
    yearsMeasure (yearsPass y days).1 (yearsPass y days).2 < yearsMeasure y days := by
  have newYear := @yearsPass_of_neg y days early
  have day := yearsPass_day y days
  have span := yearStartDay_add_bounds (yearsPass y days).1 ((-days) / 365 + 1).toNat
  rw [Int.toNat_of_nonneg (by omega), newYear, Int.sub_add_cancel, ← newYear] at span
  unfold yearsMeasure
  rw [if_pos early, if_neg (by omega)]
  split
  · omega
  · omega

theorem yearsMeasure_yearsPass_lt {y days : Int} (lo : yearStartDay 1 ≤ yearStartDay y + days)
    (out : days < 0 ∨ days ≥ yearLengths (isleap y)) :
    yearsMeasure (yearsPass y days).1 (yearsPass y days).2 < yearsMeasure y days := by
  rcases out with early | late
  · exact yearsMeasure_yearsPass_of_early early
  · exact yearsMeasure_yearsPass_of_late lo late

/-- The year loop ends, with fuel beyond `yearsMeasure`, on a day of its year
that is the day it started from in the count. -/
theorem secToTimeYears_spec (fuel : Nat) (y days : Int) (lo : yearStartDay 1 ≤ yearStartDay y + days)
    (enough : yearsMeasure y days < fuel) :
    ∃ y' days', secToTimeYears fuel y days = some (y', days') ∧
      yearStartDay y' + days' = yearStartDay y + days ∧ 0 ≤ days' ∧ days' < yearLengths (isleap y') := by
  induction fuel generalizing y days with
  | zero => omega
  | succ fuel ih =>
    rw [secToTimeYears_succ]
    by_cases out : days < 0 ∨ days ≥ yearLengths (isleap y)
    · rw [if_pos out]
      have day := yearsPass_day y days
      have smaller := yearsMeasure_yearsPass_lt lo out
      obtain ⟨y', days', loop, same, inYear⟩ :=
        ih (yearsPass y days).1 (yearsPass y days).2 (by omega) (by omega)
      exact ⟨y', days', loop, same.trans day, inYear⟩
    · rw [if_neg out]
      exact ⟨y, days, rfl, rfl, by omega⟩

/-- Below year 1 the loop need not end: day 365 of year -3, a year of 365 days
for `isleap` and of 366 in the count, and day -1 of year -2 send the loop to
each other. -/
theorem secToTimeYears_cycle (fuel : Nat) :
    secToTimeYears fuel (-3) 365 = none ∧ secToTimeYears fuel (-2) (-1) = none := by
  induction fuel with
  | zero => exact ⟨rfl, rfl⟩
  | succ fuel ih =>
    have forward : yearsPass (-3) 365 = (-2, -1) := by decide
    have back : yearsPass (-2) (-1) = (-3, 365) := by decide
    rw [secToTimeYears_succ, secToTimeYears_succ, if_pos (by decide), if_pos (by decide),
      forward, back]
    exact ⟨ih.2, ih.1⟩

theorem yearsMeasure_lt (y days : Int) : yearsMeasure y days < days.natAbs + 2 := by
  unfold yearsMeasure
  split
  · omega
  · split <;> omega

/-! ## The month loop -/

/-- The month loop stops at the month whose days hold `days`, leaving the day
in that month. -/
theorem secToTimeMonths_spec (ls : List Int) (month : Nat) (days : Int) (nonneg : 0 ≤ days)
    (lt : days < ls.sum) :
    ∃ i, i < ls.length ∧ secToTimeMonths ls month days = (month + i, days - (ls.take i).sum) ∧
      days - (ls.take i).sum < ls.getD i 0 ∧ (ls.take i).sum ≤ days := by
  induction ls generalizing month days with
  | nil => simp at lt; omega
  | cons l ls ih =>
    simp only [List.sum_cons] at lt
    by_cases past : days ≥ l
    · obtain ⟨i, lt_length, loop, inMonth, before⟩ := ih (month + 1) (days - l) (by omega) (by omega)
      refine ⟨i + 1, by simp [lt_length], ?_, ?_, ?_⟩
      · rw [secToTimeMonths, if_pos past, loop]
        simp only [List.take_succ_cons, List.sum_cons, Prod.mk.injEq]
        constructor <;> omega
      · simpa [List.take_succ_cons, Int.sub_sub] using inMonth
      · simp only [List.take_succ_cons, List.sum_cons]
        omega
    · refine ⟨0, by simp, ?_, by simp; omega, by simp; omega⟩
      rw [secToTimeMonths, if_neg past]
      simp

theorem monLengths_sum (leap : Bool) : (monLengths leap).sum = yearLengths leap := by
  cases leap <;> rfl

theorem monLengths_length (leap : Bool) : (monLengths leap).length = 12 := by
  cases leap <;> rfl

/-- `mon_starts` holds the sums of the month lengths before each month. -/
theorem monStarts_getD (leap : Bool) {i : Nat} (lt : i < 12) :
    (monStarts leap).getD i 0 = ((monLengths leap).take i).sum := by
  interval_cases i <;> cases leap <;> rfl

/-! ## The day split -/

theorem secToTimeRaise_spec (fuel : Nat) (days rem : Int) (enough : 0 ≤ rem + fuel * secsPerDay) :
    (secToTimeRaise fuel (days, rem)).1 * secsPerDay + (secToTimeRaise fuel (days, rem)).2 =
        days * secsPerDay + rem ∧ 0 ≤ (secToTimeRaise fuel (days, rem)).2 := by
  induction fuel generalizing days rem with
  | zero =>
    simp only [Nat.cast_zero, zero_mul, add_zero] at enough
    exact ⟨rfl, enough⟩
  | succ fuel ih =>
    rw [secToTimeRaise]
    split
    · obtain ⟨sum, nonneg⟩ := ih (days - 1) (rem + secsPerDay) (by push_cast at enough; linarith)
      exact ⟨by rw [sum]; ring, nonneg⟩
    · exact ⟨rfl, by omega⟩

theorem secToTimeLower_spec (fuel : Nat) (days rem : Int) (nonneg : 0 ≤ rem)
    (enough : rem < (fuel + 1) * secsPerDay) :
    (secToTimeLower fuel (days, rem)).1 * secsPerDay + (secToTimeLower fuel (days, rem)).2 =
        days * secsPerDay + rem ∧
      0 ≤ (secToTimeLower fuel (days, rem)).2 ∧ (secToTimeLower fuel (days, rem)).2 < secsPerDay := by
  induction fuel generalizing days rem with
  | zero =>
    simp only [Nat.cast_zero, zero_add, one_mul] at enough
    exact ⟨rfl, nonneg, enough⟩
  | succ fuel ih =>
    rw [secToTimeLower]
    split
    · obtain ⟨sum, inDay⟩ := ih (days + 1) (rem - secsPerDay) (by omega) (by push_cast at enough ⊢; linarith)
      exact ⟨by rw [sum]; ring, inDay⟩
    · exact ⟨rfl, nonneg, by omega⟩

/-! ## `sec_since_epoch` -/

/-- `sec_since_epoch` reads the day count of January 1 back, relative to
1970. -/
theorem secSinceEpoch_eq (year mon mday hour min sec : Int) :
    secSinceEpoch year mon mday hour min sec =
      (yearStartDay year - yearStartDay epochYear + (monStarts (isleap year)).getD (mon - 1).toNat 0 +
          mday - 1) * secsPerDay + hour * secsPerHour + min * secsPerMin + sec := by
  simp only [secSinceEpoch, yearStartDay, secsPerDay, secsPerHour]
  ring

theorem secSinceEpoch_jan1 (year : Int) :
    secSinceEpoch year 1 1 0 0 0 = (yearStartDay year - yearStartDay epochYear) * secsPerDay := by
  rw [secSinceEpoch_eq]
  cases isleap year <;> simp [monStarts]

theorem toUint_of_mem {x : Int} (nonneg : 0 ≤ x) (lt : x < 4294967296) : (toUint x : Int) = x := by
  rw [toUint, Int.emod_eq_of_lt nonneg lt, Int.toNat_of_nonneg nonneg]

/-- The hour, minute and second that `sec_to_TIME` takes off a second of the
day make it up again. -/
theorem secondOfDay_split {rem : Int} (nonneg : 0 ≤ rem) (lt : rem < secsPerDay) :
    (rem.tdiv secsPerHour).toNat < 24 ∧ ((rem.tmod secsPerHour).tdiv secsPerMin).toNat < 60 ∧
      ((rem.tmod secsPerHour).tmod secsPerMin).toNat < 60 ∧
      ((rem.tdiv secsPerHour).toNat : Int) * secsPerHour +
          (((rem.tmod secsPerHour).tdiv secsPerMin).toNat : Int) * secsPerMin +
          (((rem.tmod secsPerHour).tmod secsPerMin).toNat : Int) = rem := by
  rw [secsPerDay_eq] at lt
  simp only [secsPerHour_eq, secsPerMin, Int.tdiv_eq_ediv_of_nonneg nonneg,
    Int.tmod_eq_emod_of_nonneg nonneg]
  have inHour : 0 ≤ rem % 3600 := by omega
  simp only [Int.tdiv_eq_ediv_of_nonneg inHour, Int.tmod_eq_emod_of_nonneg inHour]
  omega

/-! ## The round trip -/

theorem yearStartDay_epochYear : yearStartDay epochYear = 719527 := by decide

theorem yearStartDay_tenThousand : yearStartDay 10000 = 3652424 := by decide

/-- From 0001-01-01 to 9999-12-31, `sec_to_TIME` turns `t + offset` into a
normalized datetime, and `sec_since_epoch` turns that back into
`t + offset`. The bounds hold for every `my_time_t` of both configurations of
include/my_time.h (`[0, UINT_MAX32]` and `[LONG_MIN, LONG_MAX]` of a 32-bit
`long`) with an offset of less than a day either way. -/
theorem secSinceEpoch_secToTime (t offset : Int) (lo : secSinceEpoch 1 1 1 0 0 0 ≤ t + offset)
    (hi : t + offset < secSinceEpoch 10000 1 1 0 0 0) :
    ∃ tmp, secToTime t offset = some tmp ∧
      1 ≤ tmp.month ∧ tmp.month ≤ 12 ∧ 1 ≤ tmp.day ∧
      (tmp.day : Int) ≤ (monLengths (isleap tmp.year)).getD (tmp.month - 1) 0 ∧
      tmp.hour < 24 ∧ tmp.minute < 60 ∧ tmp.second < 60 ∧
      secSinceEpoch tmp.year tmp.month tmp.day tmp.hour tmp.minute tmp.second = t + offset := by
  rw [secSinceEpoch_jan1, yearStartDay_one, yearStartDay_epochYear, secsPerDay_eq] at lo
  rw [secSinceEpoch_jan1, yearStartDay_tenThousand, yearStartDay_epochYear, secsPerDay_eq] at hi
  -- the two day loops: `days * SECS_PER_DAY + rem` stays `t + offset`
  have whole : t.tdiv secsPerDay * secsPerDay + (t.tmod secsPerDay + offset) = t + offset := by
    have := Int.tmod_add_mul_tdiv t secsPerDay
    linarith
  have raised := secToTimeRaise_spec (t.tmod secsPerDay + offset).natAbs (t.tdiv secsPerDay)
    (t.tmod secsPerDay + offset) (by rw [secsPerDay_eq]; omega)
  rcases raise : secToTimeRaise (t.tmod secsPerDay + offset).natAbs
    (t.tdiv secsPerDay, t.tmod secsPerDay + offset) with ⟨days₁, rem₁⟩
  rw [raise] at raised
  have lowered := secToTimeLower_spec rem₁.natAbs days₁ rem₁ raised.2 (by rw [secsPerDay_eq]; omega)
  rcases lower : secToTimeLower rem₁.natAbs (days₁, rem₁) with ⟨days₂, rem₂⟩
  rw [lower] at lowered
  simp only at raised lowered
  obtain ⟨sum₂, nonneg₂, lt₂⟩ := lowered
  have lt₂' : rem₂ < 86400 := lt₂
  have split : days₂ * 86400 + rem₂ = t + offset := by
    rw [secsPerDay_eq] at sum₂ raised whole
    omega
  -- the year loop, from 1970
  obtain ⟨y, dayOfYear, loop, same, nonnegDay, ltYear⟩ :=
    secToTimeYears_spec (days₂.natAbs + 2) epochYear days₂
      (by rw [yearStartDay_one, yearStartDay_epochYear]; omega) (yearsMeasure_lt _ _)
  rw [yearStartDay_epochYear] at same
  have yearLength := yearLengths_mem (isleap y)
  have nonnegYear : 0 ≤ y := by
    by_contra neg
    have := yearStartDay_le_of_nonpos (show y ≤ 0 by omega)
    omega
  have ltUint : y < 4294967296 := by
    have := le_yearStartDay nonnegYear
    omega
  -- the month loop
  obtain ⟨i, ltMonths, months, inMonth, before⟩ :=
    secToTimeMonths_spec (monLengths (isleap y)) 0 dayOfYear nonnegDay
      (by rw [monLengths_sum]; exact ltYear)
  rw [monLengths_length] at ltMonths
  obtain ⟨hour, minute, second, clock⟩ := secondOfDay_split nonneg₂ lt₂
  simp only [secToTime, raise, lower, loop, Option.map_some, months, Option.some.injEq, exists_eq_left']
  refine ⟨by omega, by omega, by omega, ?_, hour, minute, second, ?_⟩
  · simp only [toUint_of_mem nonnegYear ltUint, show 0 + i + 1 - 1 = i by omega]
    omega
  · rw [secSinceEpoch_eq, toUint_of_mem nonnegYear ltUint, yearStartDay_epochYear]
    push_cast
    rw [show ((0 : Int) + i + 1 - 1).toNat = i by omega, monStarts_getD _ (by omega), secsPerDay_eq]
    omega

/-- One second before the epoch, in UTC. -/
theorem secSinceEpoch_secToTime_beforeEpoch :
    secSinceEpoch 1 1 1 0 0 0 ≤ -1 + 0 ∧ -1 + 0 < secSinceEpoch 10000 1 1 0 0 0 ∧
      secToTime (-1) 0 = some ⟨1969, 12, 31, 23, 59, 59, 0, false, .datetime⟩ ∧
      secSinceEpoch 1969 12 31 23 59 59 = -1 + 0 := by
  have lo : secSinceEpoch 1 1 1 0 0 0 ≤ -1 + 0 := by decide
  have hi : -1 + 0 < secSinceEpoch 10000 1 1 0 0 0 := by decide
  have conv : secToTime (-1) 0 = some ⟨1969, 12, 31, 23, 59, 59, 0, false, .datetime⟩ := by
    decide +kernel
  obtain ⟨tmp, some, -, -, -, -, -, -, -, back⟩ := secSinceEpoch_secToTime (-1) 0 lo hi
  rw [conv, Option.some.injEq] at some
  subst some
  exact ⟨lo, hi, conv, back⟩

end MariaDB.Temporal
