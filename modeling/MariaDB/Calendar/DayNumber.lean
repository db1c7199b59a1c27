import Mathlib.Tactic.IntervalCases

set_option autoImplicit false

/- A calendar of twelve months, years of 365 or 366 days, and a leap day at the
end of February, with its days numbered in a row: day 1 is the first day of
year 0. The leap rule is a parameter. Day numbers are a bijection between the
dates of the calendar and the positive numbers, and the day after a date has
the next number. The Gregorian rule and its closed count of days close the
module. -/
namespace Calendar

/-- The length of month `m`, counted from 1. -/
def monthLength (leapYear : Bool) : ℕ → ℕ
  | 2 => if leapYear then 29 else 28
  | 4 | 6 | 9 | 11 => 30
  | _ => 31

/-- The days of the months before month `m`. -/
def daysBeforeMonth (leapYear : Bool) : ℕ → ℕ
  | 0 => 0
  | 1 => 0
  | m + 2 => daysBeforeMonth leapYear (m + 1) + monthLength leapYear (m + 1)

/-- The month lengths as one case split, for the proofs below to use. -/
theorem monthLength_eq (b : Bool) (m : ℕ) :
    monthLength b m =
      if m = 2 then (if b then 29 else 28) else if m = 4 ∨ m = 6 ∨ m = 9 ∨ m = 11 then 30 else 31 := by
  unfold monthLength
  split <;> simp_all

theorem monthLength_ge (b : Bool) (m : ℕ) : 28 ≤ monthLength b m := by
  rw [monthLength_eq]
  split_ifs <;> omega

theorem monthLength_le (b : Bool) (m : ℕ) : monthLength b m ≤ 31 := by
  rw [monthLength_eq]
  split_ifs <;> omega

theorem daysBeforeMonth_succ (b : Bool) {m : ℕ} (pos : 1 ≤ m) :
    daysBeforeMonth b (m + 1) = daysBeforeMonth b m + monthLength b m := by
  obtain ⟨k, rfl⟩ : ∃ k, m = k + 1 := ⟨m - 1, by omega⟩
  rfl

theorem daysBeforeMonth_thirteen (b : Bool) :
    daysBeforeMonth b 13 = if b then 366 else 365 := by
  cases b <;> rfl

theorem daysBeforeMonth_mono (b : Bool) {m m' : ℕ} (pos : 1 ≤ m) (le : m ≤ m') :
    daysBeforeMonth b m + 28 * (m' - m) ≤ daysBeforeMonth b m' := by
  induction m', le using Nat.le_induction with
  | base => simp
  | succ k hk ih =>
    rw [daysBeforeMonth_succ b (by omega), show k + 1 - m = k - m + 1 by omega]
    have := monthLength_ge b k
    omega

/-- Only February changes length in a leap year. -/
theorem monthLength_of_ne_two (b : Bool) {m : ℕ} (h : m ≠ 2) : monthLength b m = monthLength false m := by
  rw [monthLength_eq, monthLength_eq, if_neg h, if_neg h]

/-- January and February start where they do in every year. -/
theorem daysBeforeMonth_of_le_two (b : Bool) {m : ℕ} (h : m ≤ 2) : daysBeforeMonth b m = 31 * (m - 1) := by
  interval_cases m <;> rfl

/-- From March on, a leap year has counted its leap day. -/
theorem daysBeforeMonth_true {m : ℕ} (h : 3 ≤ m) : daysBeforeMonth true m = daysBeforeMonth false m + 1 := by
  induction m, h using Nat.le_induction with
  | base => rfl
  | succ k hk ih =>
    rw [daysBeforeMonth_succ true (by omega), daysBeforeMonth_succ false (by omega), ih,
      monthLength_of_ne_two true (by omega)]
    omega

/-- The first `n` of a monotone sequence of bounds that reaches past `x`
is unique: a number lies in one block `(f a, f (a + 1)]` only. -/
theorem eq_of_mem_block {f : ℕ → ℕ} (mono : Monotone f) {x a b : ℕ}
    (ha : f a < x ∧ x ≤ f (a + 1)) (hb : f b < x ∧ x ≤ f (b + 1)) : a = b := by
  by_contra ne
  rcases Nat.lt_or_gt_of_ne ne with lt | lt
  · have := mono (show a + 1 ≤ b by omega)
    omega
  · have := mono (show b + 1 ≤ a by omega)
    omega

variable (leap : ℕ → Bool)

/-- The days of year `y`. -/
def yearLength (y : ℕ) : ℕ := if leap y then 366 else 365

/-- The days of the years before year `y`. -/
def daysBefore : ℕ → ℕ
  | 0 => 0
  | y + 1 => daysBefore y + yearLength leap y

theorem yearLength_def (y : ℕ) : yearLength leap y = if leap y then 366 else 365 := rfl

@[simp] theorem daysBefore_zero : daysBefore leap 0 = 0 := rfl

theorem daysBefore_succ (y : ℕ) : daysBefore leap (y + 1) = daysBefore leap y + yearLength leap y := rfl

/-- A date: year, month from 1, day of the month from 1. -/
structure Date where
  year : ℕ
  month : ℕ
  day : ℕ
  deriving DecidableEq, Repr

/-- A date of the calendar: a month of the year and a day of that month. -/
structure Date.Valid (d : Date) : Prop where
  month_pos : 1 ≤ d.month
  month_le : d.month ≤ 12
  day_pos : 1 ≤ d.day
  day_le : d.day ≤ monthLength (leap d.year) d.month

instance (d : Date) : Decidable (d.Valid leap) :=
  decidable_of_iff (1 ≤ d.month ∧ d.month ≤ 12 ∧ 1 ≤ d.day ∧ d.day ≤ monthLength (leap d.year) d.month)
    ⟨fun ⟨a, b, c, e⟩ => ⟨a, b, c, e⟩, fun ⟨a, b, c, e⟩ => ⟨a, b, c, e⟩⟩

/-- The number of a date: the days before its year, the days of its year up
to it. -/
def dayNumber (d : Date) : ℕ := daysBefore leap d.year + daysBeforeMonth (leap d.year) d.month + d.day

theorem dayNumber_def (d : Date) :
    dayNumber leap d = daysBefore leap d.year + daysBeforeMonth (leap d.year) d.month + d.day := rfl

/-- The day after a date. -/
def Date.next (d : Date) : Date :=
  if d.day < monthLength (leap d.year) d.month then ⟨d.year, d.month, d.day + 1⟩
  else if d.month < 12 then ⟨d.year, d.month + 1, 1⟩
  else ⟨d.year + 1, 1, 1⟩

theorem yearLength_eq (y : ℕ) : yearLength leap y = daysBeforeMonth (leap y) 13 := by
  rw [yearLength_def, daysBeforeMonth_thirteen]

theorem daysBefore_mono : Monotone (daysBefore leap) := by
  apply monotone_nat_of_le_succ
  intro y
  rw [daysBefore_succ]
  omega

variable {leap}

/-- The day of the year of a date is between 1 and the length of its year. -/
theorem Date.Valid.dayOfYear_le {d : Date} (valid : d.Valid leap) :
    daysBeforeMonth (leap d.year) d.month + d.day ≤ yearLength leap d.year := by
  have month := daysBeforeMonth_succ (leap d.year) valid.month_pos
  have rest := daysBeforeMonth_mono (leap d.year) (show 1 ≤ d.month + 1 by omega)
    (show d.month + 1 ≤ 13 by have := valid.month_le; omega)
  rw [yearLength_eq]
  have := valid.day_le
  omega

/-- A date's number lies in the block of its year. -/
theorem Date.Valid.dayNumber_mem {d : Date} (valid : d.Valid leap) :
    daysBefore leap d.year < dayNumber leap d ∧ dayNumber leap d ≤ daysBefore leap (d.year + 1) := by
  have := valid.dayOfYear_le
  have := valid.day_pos
  simp only [dayNumber_def, daysBefore_succ]
  omega

theorem Date.Valid.dayOfYear_mem {d : Date} (valid : d.Valid leap) :
    daysBeforeMonth (leap d.year) d.month < daysBeforeMonth (leap d.year) d.month + d.day ∧
      daysBeforeMonth (leap d.year) d.month + d.day ≤ daysBeforeMonth (leap d.year) (d.month + 1) := by
  have := valid.day_pos
  have := valid.day_le
  rw [daysBeforeMonth_succ _ valid.month_pos]
  omega

/-- Day numbers tell valid dates apart: the year is the block of the number,
the month the block of the day of the year. -/
theorem dayNumber_injective {d e : Date} (hd : d.Valid leap) (he : e.Valid leap)
    (h : dayNumber leap d = dayNumber leap e) : d = e := by
  have year : d.year = e.year :=
    eq_of_mem_block (daysBefore_mono leap) hd.dayNumber_mem (h ▸ he.dayNumber_mem)
  have dayOfYear : daysBeforeMonth (leap d.year) d.month + d.day =
      daysBeforeMonth (leap d.year) e.month + e.day := by
    simp only [dayNumber_def, year] at h
    rw [year]
    omega
  -- the months below 13 have increasing starts, and each day of the year is in one month
  have monoMonths : Monotone fun m => daysBeforeMonth (leap d.year) (m + 1) := by
    apply monotone_nat_of_le_succ
    intro m
    have := daysBeforeMonth_mono (leap d.year) (show 1 ≤ m + 1 by omega)
      (show m + 1 ≤ m + 1 + 1 by omega)
    omega
  have eBlock := he.dayOfYear_mem
  rw [← year, ← dayOfYear] at eBlock
  have month : d.month - 1 = e.month - 1 := by
    have dBlock := hd.dayOfYear_mem
    have := hd.month_pos
    have := he.month_pos
    refine eq_of_mem_block monoMonths (x := daysBeforeMonth (leap d.year) d.month + d.day) ?_ ?_
    · simp only [show d.month - 1 + 1 = d.month by omega]
      exact dBlock
    · simp only [show e.month - 1 + 1 = e.month by omega]
      exact eBlock
  have monthEq : d.month = e.month := by
    have := hd.month_pos
    have := he.month_pos
    omega
  rw [monthEq] at dayOfYear
  cases d
  cases e
  simp_all

theorem Date.year_le_next (d : Date) : d.year ≤ (d.next leap).year := by
  unfold Date.next
  split_ifs <;> simp

/-- The day after a valid date is a valid date. -/
theorem Date.Valid.next {d : Date} (valid : d.Valid leap) : (d.next leap).Valid leap := by
  have := valid.month_pos
  have := valid.month_le
  have := valid.day_le
  have := monthLength_ge (leap d.year) (d.month + 1)
  have := monthLength_ge (leap (d.year + 1)) 1
  unfold Date.next
  split
  · exact ⟨by dsimp only; omega, by dsimp only; omega, by dsimp only; omega, by dsimp only; omega⟩
  · split
    · exact ⟨by dsimp only; omega, by dsimp only; omega, by dsimp only; omega, by dsimp only; omega⟩
    · exact ⟨by dsimp only; omega, by dsimp only; omega, by dsimp only; omega, by dsimp only; omega⟩

/-- The day after a date has the next number. -/
theorem dayNumber_next {d : Date} (valid : d.Valid leap) :
    dayNumber leap (d.next leap) = dayNumber leap d + 1 := by
  have dayLe := valid.day_le
  unfold Date.next
  split
  · simp only [dayNumber_def]
    omega
  · split
    · -- the last day of a month before December
      have month := daysBeforeMonth_succ (leap d.year) valid.month_pos
      simp only [dayNumber_def, month]
      omega
    · -- December 31: the next year starts
      have december : d.month = 12 := by have := valid.month_le; omega
      have yearEnd := yearLength_eq leap d.year
      have month := daysBeforeMonth_succ (leap d.year) valid.month_pos
      have last : d.day = monthLength (leap d.year) d.month := by omega
      rw [december] at month last
      simp only [Nat.reduceAdd] at month
      simp only [dayNumber_def, daysBefore_succ, december]
      rw [show daysBeforeMonth (leap (d.year + 1)) 1 = 0 from rfl]
      omega

variable (leap)

/-! ## The Gregorian rule -/

/-- A year divisible by 4 and not by 100, or by 400. -/
def gregorian (y : ℕ) : Bool := y % 4 == 0 && (y % 100 != 0 || y % 400 == 0)

/-- The Gregorian days before year `y + 1`: 365 a year, and a leap day in
every year up to `y` divisible by 4 and not by 100, or by 400, year 0
included. -/
theorem daysBefore_gregorian (y : ℕ) :
    daysBefore gregorian (y + 1) = 365 * (y + 1) + y / 4 - y / 100 + y / 400 + 1 := by
  induction y with
  | zero => rfl
  | succ y ih =>
    rw [daysBefore_succ, ih, yearLength_def, gregorian]
    split
    · next leapYear =>
      simp only [Bool.and_eq_true, beq_iff_eq, Bool.or_eq_true, bne_iff_ne, ne_eq] at leapYear
      omega
    · next common =>
      simp only [Bool.and_eq_true, beq_iff_eq, Bool.or_eq_true, bne_iff_ne, ne_eq, not_and,
        not_or, not_not] at common
      omega

/-- Two leap rules that agree from year 1 on count the same days past year 0. -/
theorem daysBefore_congr {leap' : ℕ → Bool} (agree : ∀ y, 1 ≤ y → leap y = leap' y) (y : ℕ) :
    daysBefore leap (y + 1) + yearLength leap' 0 = daysBefore leap' (y + 1) + yearLength leap 0 := by
  induction y with
  | zero => simp only [daysBefore_succ, daysBefore_zero]; omega
  | succ y ih =>
    show daysBefore leap (y + 1) + yearLength leap (y + 1) + yearLength leap' 0 =
      daysBefore leap' (y + 1) + yearLength leap' (y + 1) + yearLength leap 0
    have same : yearLength leap (y + 1) = yearLength leap' (y + 1) := by
      simp only [yearLength_def, agree (y + 1) (by omega)]
    omega

end Calendar
