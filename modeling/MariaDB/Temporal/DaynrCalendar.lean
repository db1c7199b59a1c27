import MariaDB.Temporal.Daynr
import MariaDB.Calendar.DayNumber

set_option autoImplicit false

/- `calc_daynr` and `get_date_from_daynr` against the calendar of
Calendar/DayNumber under the leap rule of `calc_days_in_year`. `calc_daynr`
is the number of a date there, and `get_date_from_daynr` finds the date of
every number from 0001-01-01 to 9999-12-31: its estimate
`daynr * 100 / 36525` never passes the true year, so the day of the year it
starts from is positive and the year loop only counts upward. -/
namespace MariaDB.Temporal

open Calendar

/-- The leap rule of `calc_days_in_year`: the Gregorian one, except that
year 0 has 365 days. -/
def daysInYearLeap (year : Nat) : Bool := calcDaysInYear year == 366

theorem yearLength_daysInYearLeap (year : Nat) :
    yearLength daysInYearLeap year = calcDaysInYear year := by
  unfold yearLength daysInYearLeap calcDaysInYear
  split_ifs <;> simp_all

theorem daysInYearLeap_eq_gregorian {year : Nat} (pos : 1 ≤ year) :
    daysInYearLeap year = gregorian year := by
  have low : year &&& 3 = year % 4 := Nat.and_two_pow_sub_one_eq_mod year 2
  unfold daysInYearLeap calcDaysInYear gregorian
  rw [low]
  by_cases leap : year % 4 = 0 ∧ (year % 100 ≠ 0 ∨ year % 400 = 0 ∧ year ≠ 0)
  · rw [if_pos leap]
    simp only [beq_self_eq_true, Bool.true_eq, Bool.and_eq_true, beq_iff_eq, Bool.or_eq_true,
      bne_iff_ne, ne_eq]
    omega
  · rw [if_neg leap]
    simp only [Nat.reduceBEq, Bool.false_eq, Bool.and_eq_false_iff, beq_eq_false_iff_ne, ne_eq,
      Bool.or_eq_false_iff, bne_eq_false_iff_eq]
    omega

/-- The days before year `y + 1`: the Gregorian count, less the leap day the
Gregorian rule puts in year 0. The century years are on the left, so that no
subtraction truncates. -/
theorem daysBefore_daysInYearLeap (y : Nat) :
    daysBefore daysInYearLeap (y + 1) + y / 100 = 365 * (y + 1) + y / 4 + y / 400 := by
  have congr := @daysBefore_congr daysInYearLeap gregorian
    (fun year pos => daysInYearLeap_eq_gregorian pos) y
  have gregorianZero : yearLength gregorian 0 = 366 := rfl
  have zero : yearLength daysInYearLeap 0 = 365 := rfl
  rw [daysBefore_gregorian, gregorianZero, zero] at congr
  have centuries : y / 100 ≤ y / 4 := Nat.div_le_div_left (by norm_num) (by norm_num)
  omega

/-- From March on `calc_daynr` counts 31 days a month and takes back the
missing ones by `(month * 4 + 23) / 10`. -/
theorem daysBeforeMonth_add_correction : ∀ m < 13, 3 ≤ m →
    daysBeforeMonth false m + (m * 4 + 23) / 10 = 31 * (m - 1) := by
  decide

/-- The century correction `((y / 100 + 1) * 3) / 4` of `calc_daynr`: the
century years, less those divisible by 400. -/
theorem centuryCorrection (y : Int) : (y / 100 + 1) * 3 / 4 = y / 100 - y / 400 := by
  have quarter : y / 400 = y / 100 / 4 := by omega
  rw [quarter]
  omega

/-- The leap days `calc_daynr` counts through year `y`, as the calendar
counts them. -/
theorem leapDays_eq (y : Nat) :
    (y : Int) / 4 - ((y : Int) / 100 - (y : Int) / 400) =
      daysBefore daysInYearLeap (y + 1) - 365 * (y + 1) := by
  have := daysBefore_daysInYearLeap y
  omega

/-- `calc_daynr` of a date from year 1 on is its number in the calendar. -/
theorem calcDaynr_eq_dayNumber {d : Date} (valid : d.Valid daysInYearLeap) (pos : 1 ≤ d.year) :
    calcDaynr d.year d.month d.day = dayNumber daysInYearLeap d := by
  obtain ⟨year, month, day⟩ := d
  obtain ⟨y, rfl⟩ : ∃ y, year = y + 1 := ⟨year - 1, by simp only at pos; omega⟩
  have monthPos : 1 ≤ month := valid.month_pos
  have monthLe : month ≤ 12 := valid.month_le
  have before := daysBefore_daysInYearLeap y
  simp only [calcDaynr, dayNumber_def]
  have notZero : ¬ (((y + 1 : Nat) : Int) = 0 ∧ month = 0) := by omega
  rw [if_neg notZero]
  by_cases early : month ≤ 2
  · -- January and February count from the year before, with no correction
    have previous : ((y + 1 : Nat) : Int) - 1 = y := by omega
    rw [if_pos early, daysBeforeMonth_of_le_two _ early, previous]
    simp (disch := omega) only [Int.tdiv_eq_ediv_of_nonneg]
    rw [centuryCorrection]
    omega
  · have correction := daysBeforeMonth_add_correction month (by omega) (by omega)
    -- the leap days up to year `y + 1` are those up to year `y` and that of year `y + 1`
    have leapDays := leapDays_eq (y + 1)
    have step : daysBefore daysInYearLeap (y + 1 + 1) =
        daysBefore daysInYearLeap (y + 1) + yearLength daysInYearLeap (y + 1) := rfl
    rw [yearLength] at step
    rw [if_neg early]
    simp (disch := omega) only [Int.tdiv_eq_ediv_of_nonneg]
    rw [centuryCorrection]
    cases leap : daysInYearLeap (y + 1)
    · simp only [leap, Bool.false_eq_true, if_false] at step
      omega
    · simp only [leap, if_true] at step
      rw [daysBeforeMonth_true (by omega)]
      omega

/-- The year loop of `get_date_from_daynr`: started in a year before day `n`
with the days of `n` past that year's start, and at least as much fuel, it
stops in the year of `n` with the day of that year. -/
theorem daynrYearLoop_spec {n : Nat} (fuel year : Nat) (below : daysBefore daysInYearLeap year < n)
    (enough : n - daysBefore daysInYearLeap year ≤ fuel) :
    ∃ last, year ≤ last ∧ daysBefore daysInYearLeap last < n ∧
      n ≤ daysBefore daysInYearLeap (last + 1) ∧
      daynrYearLoop fuel year (n - daysBefore daysInYearLeap year) =
        (last, n - daysBefore daysInYearLeap last, calcDaysInYear last) := by
  -- each round moves one year on and takes that year's days off
  induction fuel generalizing year with
  | zero => omega
  | succ fuel ih =>
    have step : daysBefore daysInYearLeap (year + 1) =
        daysBefore daysInYearLeap year + calcDaysInYear year := by
      rw [daysBefore_succ, yearLength_daysInYearLeap]
    by_cases past : n - daysBefore daysInYearLeap year > calcDaysInYear year
    · have long : 365 ≤ calcDaysInYear year := by unfold calcDaysInYear; split <;> omega
      obtain ⟨last, le, lo, hi, loop⟩ := ih (year + 1) (by omega) (by omega)
      refine ⟨last, by omega, lo, hi, ?_⟩
      rw [daynrYearLoop, if_pos past,
        show n - daysBefore daysInYearLeap year - calcDaysInYear year =
          n - daysBefore daysInYearLeap (year + 1) by omega, loop]
    · refine ⟨year, le_rfl, below, by omega, ?_⟩
      rw [daynrYearLoop, if_neg past]

set_option maxRecDepth 8192 in
/-- The month loop over `days_in_month` finds the month and the day of every
day of a common year. -/
theorem daynrMonthLoop_daysInMonth : ∀ k < 366, 1 ≤ k →
    1 ≤ (daynrMonthLoop daysInMonth 1 k).1 ∧ (daynrMonthLoop daysInMonth 1 k).1 ≤ 12 ∧
      1 ≤ (daynrMonthLoop daysInMonth 1 k).2 ∧
      (daynrMonthLoop daysInMonth 1 k).2 ≤ monthLength false (daynrMonthLoop daysInMonth 1 k).1 ∧
      daysBeforeMonth false (daynrMonthLoop daysInMonth 1 k).1 + (daynrMonthLoop daysInMonth 1 k).2 = k := by
  decide

/-- The months of a common year from March on start at day 59 or later. -/
theorem daysBeforeMonth_false_ge {m : Nat} (h : 3 ≤ m) : 59 ≤ daysBeforeMonth false m := by
  have := daysBeforeMonth_mono false (show 1 ≤ 3 by omega) h
  have march : daysBeforeMonth false 3 = 59 := rfl
  omega

/-- The leap day and the month loop of `get_date_from_daynr` turn day `k` of
`year` into the month and day of a valid date with that day of the year. -/
theorem monthDay_spec {year k : Nat} (pos : 1 ≤ k) (le : k ≤ calcDaysInYear year) :
    let shifted := if calcDaysInYear year = 366 ∧ k > 31 + 28 then
        (k - 1, if k - 1 = 31 + 28 then 1 else 0) else (k, 0)
    let month := (daynrMonthLoop daysInMonth 1 shifted.1).1
    let day := (daynrMonthLoop daysInMonth 1 shifted.1).2 + shifted.2
    (⟨year, month, day⟩ : Date).Valid daysInYearLeap ∧
      daysBeforeMonth (daysInYearLeap year) month + day = k := by
  intro shifted month day
  have long : calcDaysInYear year = 365 ∨ calcDaysInYear year = 366 := by
    unfold calcDaysInYear
    split <;> simp
  by_cases leapShift : calcDaysInYear year = 366 ∧ k > 31 + 28
  · -- the leap day is taken out before the month loop and put back on February 29
    have isLeap : daysInYearLeap year = true := by simp [daysInYearLeap, leapShift.1]
    have shiftedEq : shifted = (k - 1, if k - 1 = 31 + 28 then 1 else 0) := if_pos leapShift
    obtain ⟨m1, m12, d1, dle, sum⟩ := daynrMonthLoop_daysInMonth (k - 1) (by omega) (by omega)
    simp only [month, day, shiftedEq, isLeap] at m1 m12 d1 dle sum ⊢
    generalize daynrMonthLoop daysInMonth 1 (k - 1) = r at m1 m12 d1 dle sum ⊢
    obtain ⟨m, dd⟩ := r
    simp only at m1 m12 d1 dle sum ⊢
    by_cases feb29 : k - 1 = 31 + 28
    · -- day 60 of a leap year: the loop stops at February 28
      have early : m ≤ 2 := by
        by_contra late
        have := daysBeforeMonth_false_ge (show 3 ≤ m by omega)
        omega
      have february : m = 2 := by
        by_contra january
        have first : m = 1 := by omega
        subst first
        have : monthLength false 1 = 31 := rfl
        have : daysBeforeMonth false 1 = 0 := rfl
        omega
      subst february
      have : monthLength false 2 = 28 := rfl
      have : daysBeforeMonth false 2 = 31 := rfl
      have dayLe : dd + 1 ≤ monthLength (daysInYearLeap year) 2 := by
        rw [isLeap]
        show dd + 1 ≤ 29
        omega
      have dayPos : 1 ≤ dd + 1 := by omega
      rw [if_pos feb29]
      exact ⟨⟨m1, m12, dayPos, dayLe⟩, by show 31 + (dd + 1) = k; omega⟩
    · -- past February: one day later than in a common year
      have late : 3 ≤ m := by
        by_contra early
        have start := daysBeforeMonth_of_le_two false (show m ≤ 2 by omega)
        have : m = 1 ∨ m = 2 := by omega
        rcases this with rfl | rfl
        · have : monthLength false 1 = 31 := rfl
          omega
        · have : monthLength false 2 = 28 := rfl
          omega
      have sameLength := monthLength_of_ne_two true (show m ≠ 2 by omega)
      have dayLe : dd + 0 ≤ monthLength (daysInYearLeap year) m := by rw [isLeap, sameLength]; omega
      rw [if_neg feb29]
      refine ⟨⟨m1, m12, by omega, dayLe⟩, ?_⟩
      rw [daysBeforeMonth_true late]
      omega
  · have shiftedEq : shifted = (k, 0) := if_neg leapShift
    obtain ⟨m1, m12, d1, dle, sum⟩ := daynrMonthLoop_daysInMonth k (by omega) pos
    simp only [month, day, shiftedEq] at m1 m12 d1 dle sum ⊢
    generalize daynrMonthLoop daysInMonth 1 k = r at m1 m12 d1 dle sum ⊢
    obtain ⟨m, dd⟩ := r
    simp only [Nat.add_zero] at m1 m12 d1 dle sum ⊢
    cases leap : daysInYearLeap year
    · exact ⟨⟨m1, m12, d1, by rw [leap]; exact dle⟩, sum⟩
    · -- a leap year before its leap day: January and February as in a common year
      have isLeap : calcDaysInYear year = 366 := by
        simpa [daysInYearLeap] using leap
      have early : m ≤ 2 := by
        by_contra late
        have := daysBeforeMonth_false_ge (show 3 ≤ m by omega)
        omega
      have longer : monthLength false m ≤ monthLength true m := by
        by_cases two : m = 2
        · subst two
          decide
        · rw [monthLength_of_ne_two true two]
      have dayLe : dd ≤ monthLength (daysInYearLeap year) m := by rw [leap]; omega
      refine ⟨⟨m1, m12, d1, dayLe⟩, ?_⟩
      rw [daysBeforeMonth_of_le_two true early, ← daysBeforeMonth_of_le_two false early]
      exact sum

/-- `get_date_from_daynr` finds the valid date of every number from
0001-01-01 to 9999-12-31. -/
theorem getDateFromDaynr_spec {n : Nat} (lo : 366 ≤ n) (hi : n ≤ 3652424) :
    ∃ d : Date, d.Valid daysInYearLeap ∧ 1 ≤ d.year ∧ dayNumber daysInYearLeap d = n ∧
      getDateFromDaynr n = some (d.year, d.month, d.day) := by
  have estimate : ((n : Int) * 100 / 36525).toNat = n * 100 / 36525 := by omega
  have estimatePos : 1 ≤ n * 100 / 36525 := by omega
  have before := daysBefore_daysInYearLeap (n * 100 / 36525 - 1)
  rw [Nat.sub_add_cancel estimatePos] at before
  -- the estimate never passes the year of `n`: 36525 days a century are more than it has
  have below : daysBefore daysInYearLeap (n * 100 / 36525) < n := by
    have centuries : (n * 100 / 36525 - 1) / 400 ≤ (n * 100 / 36525 - 1) / 100 := by omega
    omega
  have dayOfYear : (((n : Int) - ((n * 100 / 36525 : Nat) : Int) * 365 - ((n * 100 / 36525 - 1) / 4 : Nat) +
      ((((n * 100 / 36525 - 1) / 100 + 1) * 3 / 4 : Nat) : Int)) % 2 ^ 32).toNat =
      n - daysBefore daysInYearLeap (n * 100 / 36525) := by
    have temp : ((n * 100 / 36525 - 1) / 100 + 1) * 3 / 4 =
        (n * 100 / 36525 - 1) / 100 - (n * 100 / 36525 - 1) / 400 := by omega
    rw [temp]
    omega
  obtain ⟨year, later, yearLo, yearHi, loop⟩ :=
    daynrYearLoop_spec (n - daysBefore daysInYearLeap (n * 100 / 36525)) _ below le_rfl
  unfold getDateFromDaynr
  rw [if_neg (by simp only [maxDayNumber]; omega)]
  simp only [estimate, dayOfYear, loop]
  have dayPos : 1 ≤ n - daysBefore daysInYearLeap year := by omega
  have dayLe : n - daysBefore daysInYearLeap year ≤ calcDaysInYear year := by
    rw [daysBefore_succ, yearLength_daysInYearLeap] at yearHi
    omega
  obtain ⟨valid, inYear⟩ := @monthDay_spec year _ dayPos dayLe
  have yearPos : 1 ≤ year := by omega
  refine ⟨_, valid, yearPos, ?_, rfl⟩
  simp only [dayNumber_def]
  omega

/-- The numbers of the dates from 0001-01-01 to 9999-12-31 are those from 366
to `MAX_DAY_NUMBER`. -/
theorem dayNumber_range {d : Date} (valid : d.Valid daysInYearLeap) (pos : 1 ≤ d.year)
    (le : d.year ≤ 9999) :
    366 ≤ dayNumber daysInYearLeap d ∧ dayNumber daysInYearLeap d ≤ 3652424 := by
  have block := valid.dayNumber_mem
  have first : daysBefore daysInYearLeap 1 ≤ daysBefore daysInYearLeap d.year :=
    daysBefore_mono daysInYearLeap pos
  have last : daysBefore daysInYearLeap (d.year + 1) ≤ daysBefore daysInYearLeap (9999 + 1) :=
    daysBefore_mono daysInYearLeap (by omega)
  have one : daysBefore daysInYearLeap 1 = 365 := rfl
  have tenThousand := daysBefore_daysInYearLeap 9999
  omega

/-- A date numbered up to `MAX_DAY_NUMBER` is a date up to 9999-12-31. -/
theorem year_le_of_dayNumber_le {d : Date} (valid : d.Valid daysInYearLeap)
    (le : dayNumber daysInYearLeap d ≤ 3652424) : d.year ≤ 9999 := by
  by_contra far
  have block := valid.dayNumber_mem
  have past := daysBefore_mono daysInYearLeap (show 9999 + 1 ≤ d.year by omega)
  have tenThousand := daysBefore_daysInYearLeap 9999
  omega

/-- `calc_daynr` counts the day of the month on from its first day. -/
theorem calcDaynr_eq_first_add {year month : Nat} (day : Nat) (monthPos : 1 ≤ month) :
    calcDaynr year month day = calcDaynr year month 1 + day - 1 := by
  unfold calcDaynr
  have : ¬ ((year : Int) = 0 ∧ month = 0) := by omega
  simp only [this, if_false]
  split <;> dsimp only <;> omega

/-- The numbers of the dates up to 9999-12-31, year 0 included, are from 1 to
`MAX_DAY_NUMBER`. -/
theorem calcDaynr_mem {year month day : Nat} (valid : (⟨year, month, day⟩ : Date).Valid daysInYearLeap)
    (le : year ≤ 9999) : 1 ≤ calcDaynr year month day ∧ calcDaynr year month day ≤ maxDayNumber := by
  rcases Nat.eq_zero_or_pos year with rfl | pos
  · -- year 0: 365 days counted from 1 by `delsum` alone
    have monthPos := valid.month_pos
    have monthLe := valid.month_le
    have dayPos := valid.day_pos
    have dayLe := valid.day_le
    simp only at monthPos monthLe dayPos dayLe
    have : monthLength (daysInYearLeap 0) month ≤ 31 := monthLength_le _ _
    unfold calcDaynr maxDayNumber
    simp only [Nat.cast_zero, true_and]
    rw [Int.tdiv_eq_ediv_of_nonneg (by omega)]
    split_ifs <;> simp <;> omega
  · obtain ⟨lo, hi⟩ := dayNumber_range valid pos le
    rw [calcDaynr_eq_dayNumber valid pos]
    simp only [maxDayNumber]
    omega

theorem calcDaynr_getDateFromDaynr_bijection :
    (∀ d : Date, d.Valid daysInYearLeap → 1 ≤ d.year → d.year ≤ 9999 →
        getDateFromDaynr (calcDaynr d.year d.month d.day) = some (d.year, d.month, d.day)) ∧
      (∀ n : Int, 366 ≤ n → n ≤ maxDayNumber →
        ∃ year month day, getDateFromDaynr n = some (year, month, day) ∧
          calcDaynr year month day = n) ∧
      (∀ d : Date, d.Valid daysInYearLeap → 1 ≤ d.year → d.year ≤ 9999 →
        calcDaynr (d.next daysInYearLeap).year (d.next daysInYearLeap).month
            (d.next daysInYearLeap).day = calcDaynr d.year d.month d.day + 1) := by
  refine ⟨?roundTrip, ?inverse, ?next⟩
  · intro d valid pos le
    obtain ⟨lo, hi⟩ := dayNumber_range valid pos le
    obtain ⟨e, validE, _, numberE, decoded⟩ := getDateFromDaynr_spec lo hi
    -- the date found has the number of `d`, so it is `d`
    have same : e = d := dayNumber_injective validE valid numberE
    rw [calcDaynr_eq_dayNumber valid pos, decoded, same]
  · intro n lo hi
    obtain ⟨k, rfl⟩ : ∃ k : Nat, n = k := ⟨n.toNat, by omega⟩
    obtain ⟨d, valid, pos, number, decoded⟩ :=
      @getDateFromDaynr_spec k (by omega) (by simp only [maxDayNumber] at hi; omega)
    exact ⟨d.year, d.month, d.day, decoded, by rw [calcDaynr_eq_dayNumber valid pos, number]⟩
  · intro d valid pos _
    have nextPos : 1 ≤ (d.next daysInYearLeap).year := le_trans pos (Date.year_le_next d)
    rw [calcDaynr_eq_dayNumber valid.next nextPos, calcDaynr_eq_dayNumber valid pos,
      dayNumber_next valid]
    push_cast
    rfl

theorem calcDaynr_getDateFromDaynr_leap_day :
    (⟨2024, 2, 29⟩ : Date).Valid daysInYearLeap ∧ 1 ≤ 2024 ∧ 2024 ≤ 9999 ∧
      getDateFromDaynr (calcDaynr 2024 2 29) = some (2024, 2, 29) :=
  ⟨by decide, by decide, by decide,
    calcDaynr_getDateFromDaynr_bijection.1 ⟨2024, 2, 29⟩ (by decide) (by decide) (by decide)⟩

end MariaDB.Temporal
