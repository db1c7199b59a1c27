import MariaDB.Temporal.TextRoundTrip

set_option autoImplicit false

/- `pack_time`, `unpack_time` and `my_time_compare` of sql/sql_time.cc. A
value is packed into one mixed-radix count of microseconds, year first, in
`unsigned long long` arithmetic; the count is negated for a negative TIME and
returned as a `longlong`. `my_time_compare` stores both packed values back in
`ulonglong` variables and compares those, so a negative TIME, which wraps to
above `2^63`, compares after every non-negative one. -/
namespace MariaDB.Temporal

open BigEndian

/-- The count `pack_time` builds before the sign: the year, then the month,
day, hour, minute, second and microsecond in the radices 13, 32, 24, 60, 60
and 1000000. -/
def MysqlTime.packMagnitude (t : MysqlTime) : Nat :=
  (((((t.year * 13 + t.month) * 32 + t.day) * 24 + t.hour) * 60 + t.minute) * 60 + t.second) *
    1000000 + t.secondPart

/-- `pack_time`. The product runs in `unsigned long long`, where the factor
`neg ? -1 : 1` is `2^64 - 1` or `1`, and the result is returned as a
`longlong`. -/
def packTime (t : MysqlTime) : Int :=
  let product : Nat := t.packMagnitude * (if t.neg then 2 ^ 64 - 1 else 1) % 2 ^ 64
  if product < 2 ^ 63 then product else (product : Int) - 2 ^ 64

/-- The `get_one` steps of `unpack_time` on the magnitude of a packed value:
the fields come off lowest first; a TIME folds its months and days back into
its hours, and a DATE drops its time of day. -/
def unpackFields (packed : Nat) (neg : Bool) (tsType : TimestampType) : MysqlTime :=
  let secondPart := packed % 1000000
  let packed := packed / 1000000
  let second := packed % 60
  let packed := packed / 60
  let minute := packed % 60
  let packed := packed / 60
  let hour := packed % 24
  let packed := packed / 24
  let day := packed % 32
  let packed := packed / 32
  let month := packed % 13
  let year := packed / 13 % 2 ^ 32
  match tsType with
  | .time => ⟨year, 0, 0, hour + (month * 32 + day) * 24, minute, second, secondPart, neg, tsType⟩
  | .date => ⟨year, month, day, 0, 0, 0, 0, neg, tsType⟩
  | _ => ⟨year, month, day, hour, minute, second, secondPart, neg, tsType⟩

/-- `unpack_time`. -/
def unpackTime (packed : Int) (tsType : TimestampType) : MysqlTime :=
  let neg := decide (packed < 0)
  -- `packed= -packed` wraps at LONGLONG_MIN, and the first `get_one` divides
  -- it as an `unsigned long long`.
  unpackFields ((if neg then -packed else packed) % 2 ^ 64).toNat neg tsType

/-- `my_time_compare`: both packed values are stored in `ulonglong`
variables before they are compared. -/
def myTimeCompare (a b : MysqlTime) : Int :=
  let aT := (packTime a % 2 ^ 64).toNat
  let bT := (packTime b % 2 ^ 64).toNat
  if aT < bT then -1 else if aT > bT then 1 else 0

/-! ## What the packing means -/

/-- How long a TIME is, in microseconds, with its days folded into hours. -/
def MysqlTime.timeLength (t : MysqlTime) : Nat :=
  (((t.day * 24 + t.hour) * 60 + t.minute) * 60 + t.second) * 1000000 + t.secondPart

/-- Where a TIME lies on the time line: its length, negated when it is
negative. -/
def MysqlTime.timeMicroseconds (t : MysqlTime) : Int :=
  if t.neg then -(t.timeLength : Int) else t.timeLength

/-- A TIME as a `MYSQL_TIME` holds it: no year or month, and a valid time of
precision `dec`. -/
structure MysqlTime.ValidTimeValue (t : MysqlTime) (dec : Nat) : Prop where
  year_eq : t.year = 0
  month_eq : t.month = 0
  valid : t.ValidTime dec
  timeType_eq : t.timeType = .time

instance (t : MysqlTime) (dec : Nat) : Decidable (t.ValidTimeValue dec) :=
  decidable_of_iff (t.year = 0 ∧ t.month = 0 ∧ t.ValidTime dec ∧ t.timeType = .time)
    ⟨fun ⟨a, b, c, d⟩ => ⟨a, b, c, d⟩, fun ⟨a, b, c, d⟩ => ⟨a, b, c, d⟩⟩

/-- The fields below the radices of `pack_time`, as a DATE or a DATETIME
keeps them. -/
structure MysqlTime.PackRanges (t : MysqlTime) : Prop where
  month_lt : t.month < 13
  day_lt : t.day < 32
  hour_lt : t.hour < 24
  minute_lt : t.minute < 60
  second_lt : t.second < 60
  secondPart_lt : t.secondPart < 1000000

/-! ## The signed and the unsigned packed value -/

/-- A count below `2^63` comes back from `pack_time` with its sign. -/
theorem packTime_eq {t : MysqlTime} (lt : t.packMagnitude < 2 ^ 63) :
    packTime t = if t.neg then -(t.packMagnitude : Int) else t.packMagnitude := by
  cases neg : t.neg
  · have low : t.packMagnitude * 1 % 2 ^ 64 = t.packMagnitude := by omega
    simp only [packTime, neg, Bool.false_eq_true, if_false, low, if_pos lt]
  · by_cases zero : t.packMagnitude = 0
    · simp only [packTime, neg, if_true, zero, Nat.zero_mul, Nat.zero_mod]
      simp
    · have wrapped : t.packMagnitude * (2 ^ 64 - 1) % 2 ^ 64 = 2 ^ 64 - t.packMagnitude := by omega
      have high : ¬ 2 ^ 64 - t.packMagnitude < 2 ^ 63 := by omega
      simp only [packTime, neg, if_true, wrapped, if_neg high]
      omega

/-- What `my_time_compare` compares: the count itself, or for a negative value
its complement to `2^64`. -/
theorem packTime_unsigned {t : MysqlTime} (lt : t.packMagnitude < 2 ^ 63) :
    (packTime t % 2 ^ 64).toNat =
      if t.neg = true ∧ 0 < t.packMagnitude then 2 ^ 64 - t.packMagnitude else t.packMagnitude := by
  rw [packTime_eq lt]
  cases t.neg
  · simp only [Bool.false_eq_true, false_and, if_false]
    omega
  · simp only [if_true, true_and]
    split_ifs <;> omega

/-- The radices of `pack_time` take the fields back off its count. -/
theorem unpack_packMagnitude {t : MysqlTime} (ranges : t.PackRanges) :
    let m := t.packMagnitude
    m % 1000000 = t.secondPart ∧ m / 1000000 % 60 = t.second ∧
      m / 1000000 / 60 % 60 = t.minute ∧ m / 1000000 / 60 / 60 % 24 = t.hour ∧
      m / 1000000 / 60 / 60 / 24 % 32 = t.day ∧ m / 1000000 / 60 / 60 / 24 / 32 % 13 = t.month ∧
      m / 1000000 / 60 / 60 / 24 / 32 / 13 = t.year := by
  have := ranges.month_lt
  have := ranges.day_lt
  have := ranges.hour_lt
  have := ranges.minute_lt
  have := ranges.second_lt
  have := ranges.secondPart_lt
  intro m
  simp only [m, MysqlTime.packMagnitude]
  omega

/-- Counts of fields in range compare field by field, from the year down. -/
theorem compare_packMagnitude {a b : MysqlTime} (ra : a.PackRanges) (rb : b.PackRanges) :
    compare a.packMagnitude b.packMagnitude = a.compareDatetime b := by
  rw [MysqlTime.packMagnitude, MysqlTime.packMagnitude,
    compare_mul_add _ _ _ _ _ ra.secondPart_lt rb.secondPart_lt,
    compare_mul_add _ _ _ _ _ ra.second_lt rb.second_lt,
    compare_mul_add _ _ _ _ _ ra.minute_lt rb.minute_lt,
    compare_mul_add _ _ _ _ _ ra.hour_lt rb.hour_lt,
    compare_mul_add _ _ _ _ _ ra.day_lt rb.day_lt,
    compare_mul_add _ _ _ _ _ ra.month_lt rb.month_lt]
  simp only [MysqlTime.compareDatetime, Ordering.then_assoc]

/-! ## DATE and DATETIME -/

theorem MysqlTime.ValidDatetime.packRanges {t : MysqlTime} {dec : Nat} (valid : t.ValidDatetime dec) :
    t.PackRanges where
  month_lt := by have := valid.month_le; omega
  day_lt := by have := valid.day_le; omega
  hour_lt := by have := valid.hour_le; omega
  minute_lt := by have := valid.minute_le; omega
  second_lt := by have := valid.second_le; omega
  secondPart_lt := valid.secondPart_lt

theorem MysqlTime.ValidDate.packRanges {t : MysqlTime} (valid : t.ValidDate) : t.PackRanges where
  month_lt := by have := valid.validDay.month_le; omega
  day_lt := by
    have lookup : ∀ m < 13, daysInMonth.getD (m - 1) 0 ≤ 31 := by decide
    have := lookup t.month (by have := valid.validDay.month_le; omega)
    rcases valid.validDay.day_le with le | ⟨_, _, leap⟩ <;> omega
  hour_lt := by rw [valid.hour_eq]; decide
  minute_lt := by rw [valid.minute_eq]; decide
  second_lt := by rw [valid.second_eq]; decide
  secondPart_lt := by rw [valid.secondPart_eq]; decide

/-- The count of fields in range up to the year 9999 is far below `2^63`. -/
theorem MysqlTime.PackRanges.packMagnitude_lt {t : MysqlTime} (ranges : t.PackRanges)
    (year : t.year ≤ 9999) : t.packMagnitude < 2 ^ 63 := by
  have := ranges.month_lt
  have := ranges.day_lt
  have := ranges.hour_lt
  have := ranges.minute_lt
  have := ranges.second_lt
  have := ranges.secondPart_lt
  simp only [MysqlTime.packMagnitude]
  omega

/-- A value with no sign and its fields in range is packed as its count. -/
theorem packTime_of_packRanges {t : MysqlTime} (ranges : t.PackRanges) (year : t.year ≤ 9999)
    (notNeg : t.neg = false) : packTime t = t.packMagnitude := by
  rw [packTime_eq (ranges.packMagnitude_lt year), notNeg, if_neg Bool.false_ne_true]

/-- `unpack_time` of a signed count below `2^63` reads the sign back and
splits the count. -/
theorem unpackTime_signed (neg : Bool) {m : Nat} (lt : m < 2 ^ 63) (nonzero : neg = true → 0 < m)
    (tsType : TimestampType) :
    unpackTime (if neg then -(m : Int) else m) tsType = unpackFields m neg tsType := by
  cases neg
  · have mag : ((m : Int) % 2 ^ 64).toNat = m := by omega
    simp only [unpackTime, Bool.false_eq_true, if_false, Int.natCast_nonneg, not_lt.mpr,
      decide_false, mag]
  · have pos := nonzero rfl
    have sign : decide (-(m : Int) < 0) = true := by simp only [decide_eq_true_eq]; omega
    have mag : (-(-(m : Int)) % 2 ^ 64).toNat = m := by omega
    simp only [unpackTime, if_true, sign, mag]

/-- The fields of a count in range come back off it. -/
theorem unpackFields_packMagnitude {t : MysqlTime} (ranges : t.PackRanges) (year : t.year < 2 ^ 32)
    (neg : Bool) (tsType : TimestampType) :
    unpackFields t.packMagnitude neg tsType =
      match tsType with
      | .time => ⟨t.year, 0, 0, t.hour + (t.month * 32 + t.day) * 24, t.minute, t.second,
          t.secondPart, neg, tsType⟩
      | .date => ⟨t.year, t.month, t.day, 0, 0, 0, 0, neg, tsType⟩
      | _ => ⟨t.year, t.month, t.day, t.hour, t.minute, t.second, t.secondPart, neg, tsType⟩ := by
  obtain ⟨sp, s, mi, h, d, mo, y⟩ := unpack_packMagnitude ranges
  simp only [unpackFields, sp, s, mi, h, d, mo, y, Nat.mod_eq_of_lt year]

/-- `unpack_time` of a DATETIME's packed value is that DATETIME. -/
theorem unpackTime_packTime_datetime {t : MysqlTime} {dec : Nat} (valid : t.ValidDatetime dec) :
    unpackTime (packTime t) .datetime = t := by
  have ranges := valid.packRanges
  have lt := ranges.packMagnitude_lt valid.year_le
  have signed := unpackTime_signed false lt (by simp) .datetime
  rw [packTime_eq lt, valid.not_neg]
  rw [signed, unpackFields_packMagnitude ranges (by have := valid.year_le; omega)]
  dsimp only
  rw [← valid.not_neg, ← valid.timeType_eq]

/-- `unpack_time` of a DATE's packed value is that DATE. -/
theorem unpackTime_packTime_date {t : MysqlTime} (valid : t.ValidDate) :
    unpackTime (packTime t) .date = t := by
  have ranges := valid.packRanges
  have lt := ranges.packMagnitude_lt valid.year_le
  have signed := unpackTime_signed false lt (by simp) .date
  rw [packTime_eq lt, valid.not_neg]
  rw [signed, unpackFields_packMagnitude ranges (by have := valid.year_le; omega)]
  have := valid.hour_eq
  have := valid.minute_eq
  have := valid.second_eq
  have := valid.secondPart_eq
  have := valid.not_neg
  have := valid.timeType_eq
  cases t
  simp_all

/-! ## TIME -/

/-- A TIME has no year or month to pack, so its count is its length. -/
theorem MysqlTime.ValidTimeValue.packMagnitude_eq {t : MysqlTime} {dec : Nat}
    (valid : t.ValidTimeValue dec) : t.packMagnitude = t.timeLength := by
  simp only [MysqlTime.packMagnitude, MysqlTime.timeLength, valid.year_eq, valid.month_eq]
  ring

theorem MysqlTime.ValidTimeValue.timeLength_lt {t : MysqlTime} {dec : Nat}
    (valid : t.ValidTimeValue dec) : t.timeLength < 2 ^ 63 := by
  have hour := valid.valid.hour_le
  have := valid.valid.minute_lt
  have := valid.valid.second_lt
  have := valid.valid.secondPart_lt
  simp only [MysqlTime.timeLength, timeMaxHour, timeSecondPartDigits] at hour this ⊢
  omega

/-- A negative TIME is never zero long. -/
theorem MysqlTime.ValidTimeValue.timeLength_pos {t : MysqlTime} {dec : Nat}
    (valid : t.ValidTimeValue dec) (neg : t.neg = true) : 0 < t.timeLength := by
  have := valid.valid.nonzero neg
  simp only [MysqlTime.timeLength]
  omega

/-- The hours of a TIME, up to `TIME_MAX_HOUR`, come back through the hour, day
and month radices of `unpack_time`. -/
theorem unpackFields_timeLength {t : MysqlTime} {dec : Nat} (valid : t.ValidTimeValue dec)
    (neg : Bool) :
    unpackFields t.timeLength neg .time =
      ⟨0, 0, 0, t.day * 24 + t.hour, t.minute, t.second, t.secondPart, neg, .time⟩ := by
  have hour := valid.valid.hour_le
  have := valid.valid.minute_lt
  have := valid.valid.second_lt
  have := valid.valid.secondPart_lt
  simp only [timeMaxHour, timeSecondPartDigits] at hour this
  -- The hours may pass 24 * 32, so the month radix is needed to put them back.
  have sp : t.timeLength % 1000000 = t.secondPart := by simp only [MysqlTime.timeLength]; omega
  have s : t.timeLength / 1000000 % 60 = t.second := by simp only [MysqlTime.timeLength]; omega
  have mi : t.timeLength / 1000000 / 60 % 60 = t.minute := by
    simp only [MysqlTime.timeLength]; omega
  have hours : t.timeLength / 1000000 / 60 / 60 = t.day * 24 + t.hour := by
    simp only [MysqlTime.timeLength]; omega
  have folded : ∀ q ≤ 838, q % 24 + (q / 24 / 32 % 13 * 32 + q / 24 % 32) * 24 = q ∧
      q / 24 / 32 / 13 % 2 ^ 32 = 0 := by omega
  obtain ⟨h, y⟩ := folded (t.day * 24 + t.hour) hour
  simp only [unpackFields, sp, s, mi, hours, h, y]

/-- `unpack_time` of a TIME's packed value is that TIME with its days folded
into its hours. -/
theorem unpackTime_packTime_time {t : MysqlTime} {dec : Nat} (valid : t.ValidTimeValue dec) :
    unpackTime (packTime t) .time = t.foldDays := by
  have lt := valid.timeLength_lt
  rw [packTime_eq (valid.packMagnitude_eq ▸ lt), valid.packMagnitude_eq,
    unpackTime_signed t.neg lt valid.timeLength_pos .time, unpackFields_timeLength valid]
  rfl

/-! ## The order of `my_time_compare` -/

/-- Two values with no sign compare as their counts. -/
theorem myTimeCompare_of_not_neg {a b : MysqlTime} (la : a.packMagnitude < 2 ^ 63)
    (lb : b.packMagnitude < 2 ^ 63) (na : a.neg = false) (nb : b.neg = false) :
    myTimeCompare a b = cmpResult (compare a.packMagnitude b.packMagnitude) := by
  have ua := packTime_unsigned la
  have ub := packTime_unsigned lb
  simp only [na, nb, Bool.false_eq_true, false_and, if_false] at ua ub
  simp only [myTimeCompare, ua, ub, cmpResult_compare, gt_iff_lt]

/-- Two negative values compare as their counts the other way round: each
wraps to its complement to `2^64`. -/
theorem myTimeCompare_of_neg {a b : MysqlTime} (la : a.packMagnitude < 2 ^ 63)
    (lb : b.packMagnitude < 2 ^ 63) (na : a.neg = true) (nb : b.neg = true)
    (pa : 0 < a.packMagnitude) (pb : 0 < b.packMagnitude) :
    myTimeCompare a b = cmpResult (compare b.packMagnitude a.packMagnitude) := by
  have ua := packTime_unsigned la
  have ub := packTime_unsigned lb
  simp only [na, nb, pa, pb, and_self, if_true] at ua ub
  simp only [myTimeCompare, ua, ub, cmpResult_compare]
  split_ifs <;> omega

/-- A negative value wraps to above `2^63` and compares after every value with
no sign. -/
theorem myTimeCompare_of_neg_of_not_neg {a b : MysqlTime} (la : a.packMagnitude < 2 ^ 63)
    (lb : b.packMagnitude < 2 ^ 63) (na : a.neg = true) (pa : 0 < a.packMagnitude)
    (nb : b.neg = false) : myTimeCompare a b = 1 := by
  have ua := packTime_unsigned la
  have ub := packTime_unsigned lb
  simp only [na, pa, and_self, if_true] at ua
  simp only [nb, Bool.false_eq_true, false_and, if_false] at ub
  have above : ¬ (packTime a % 2 ^ 64).toNat < (packTime b % 2 ^ 64).toNat := by omega
  have below : (packTime a % 2 ^ 64).toNat > (packTime b % 2 ^ 64).toNat := by omega
  simp only [myTimeCompare, if_neg above, if_pos below]

/-- `my_time_compare` of two DATETIMEs is their order field by field. -/
theorem myTimeCompare_datetime {a b : MysqlTime} {d₁ d₂ : Nat} (va : a.ValidDatetime d₁)
    (vb : b.ValidDatetime d₂) : myTimeCompare a b = cmpResult (a.compareDatetime b) := by
  rw [myTimeCompare_of_not_neg (va.packRanges.packMagnitude_lt va.year_le)
    (vb.packRanges.packMagnitude_lt vb.year_le) va.not_neg vb.not_neg,
    compare_packMagnitude va.packRanges vb.packRanges]

/-- `my_time_compare` of two DATEs is their order field by field. -/
theorem myTimeCompare_date {a b : MysqlTime} (va : a.ValidDate) (vb : b.ValidDate) :
    myTimeCompare a b = cmpResult (a.compareDatetime b) := by
  rw [myTimeCompare_of_not_neg (va.packRanges.packMagnitude_lt va.year_le)
    (vb.packRanges.packMagnitude_lt vb.year_le) va.not_neg vb.not_neg,
    compare_packMagnitude va.packRanges vb.packRanges]

/-- `my_time_compare` of two TIMEs of one sign is their order on the time
line. -/
theorem myTimeCompare_time_of_neg_eq {a b : MysqlTime} {d₁ d₂ : Nat} (va : a.ValidTimeValue d₁)
    (vb : b.ValidTimeValue d₂) (sign : a.neg = b.neg) :
    myTimeCompare a b = cmpResult (compare a.timeMicroseconds b.timeMicroseconds) := by
  have la := va.packMagnitude_eq ▸ va.timeLength_lt
  have lb := vb.packMagnitude_eq ▸ vb.timeLength_lt
  cases na : a.neg
  · have nb : b.neg = false := sign ▸ na
    rw [myTimeCompare_of_not_neg la lb na nb, va.packMagnitude_eq, vb.packMagnitude_eq,
      MysqlTime.timeMicroseconds, MysqlTime.timeMicroseconds, na, nb, cmpResult_compare,
      cmpResult_compare]
    simp only [Bool.false_eq_true, if_false, Nat.cast_lt]
  · have nb : b.neg = true := sign ▸ na
    have pa := va.timeLength_pos na
    have pb := vb.timeLength_pos nb
    rw [myTimeCompare_of_neg la lb na nb (va.packMagnitude_eq ▸ pa) (vb.packMagnitude_eq ▸ pb),
      va.packMagnitude_eq, vb.packMagnitude_eq, MysqlTime.timeMicroseconds,
      MysqlTime.timeMicroseconds, na, nb, cmpResult_compare, cmpResult_compare]
    simp only [if_true, neg_lt_neg_iff, Nat.cast_lt]

theorem myTimeCompare_negative_time_after_nonnegative {a b : MysqlTime} {d₁ d₂ : Nat}
    (va : a.ValidTimeValue d₁) (vb : b.ValidTimeValue d₂) (negative : a.neg = true)
    (nonnegative : b.neg = false) :
    a.timeMicroseconds < b.timeMicroseconds ∧ myTimeCompare a b = 1 := by
  have pa := va.timeLength_pos negative
  have earlier : a.timeMicroseconds < b.timeMicroseconds := by
    simp only [MysqlTime.timeMicroseconds, negative, nonnegative, if_true, Bool.false_eq_true,
      if_false]
    omega
  exact ⟨earlier, myTimeCompare_of_neg_of_not_neg (va.packMagnitude_eq ▸ va.timeLength_lt)
    (vb.packMagnitude_eq ▸ vb.timeLength_lt) negative (va.packMagnitude_eq ▸ pa) nonnegative⟩

/-- Minus one second compares after plus one second. -/
theorem myTimeCompare_minus_one_second :
    (⟨0, 0, 0, 0, 0, 1, 0, true, .time⟩ : MysqlTime).ValidTimeValue 0 ∧
      (⟨0, 0, 0, 0, 0, 1, 0, false, .time⟩ : MysqlTime).ValidTimeValue 0 ∧
      (⟨0, 0, 0, 0, 0, 1, 0, true, .time⟩ : MysqlTime).neg = true ∧
      (⟨0, 0, 0, 0, 0, 1, 0, false, .time⟩ : MysqlTime).neg = false ∧
      ((⟨0, 0, 0, 0, 0, 1, 0, true, .time⟩ : MysqlTime).timeMicroseconds <
          (⟨0, 0, 0, 0, 0, 1, 0, false, .time⟩ : MysqlTime).timeMicroseconds ∧
        myTimeCompare ⟨0, 0, 0, 0, 0, 1, 0, true, .time⟩ ⟨0, 0, 0, 0, 0, 1, 0, false, .time⟩ = 1) :=
  ⟨by decide, by decide, rfl, rfl,
    @myTimeCompare_negative_time_after_nonnegative _ _ 0 0 (by decide) (by decide) rfl rfl⟩

/-- On valid values `unpack_time` takes back what `pack_time` packed (a
TIME with its days folded into its hours), and `my_time_compare` orders two
DATETIMEs or two DATEs field by field and two TIMEs of one sign as they lie
on the time line. -/
theorem packTime_unpackTime_myTimeCompare {a b : MysqlTime} :
    (∀ {d₁ d₂ : Nat}, a.ValidDatetime d₁ → b.ValidDatetime d₂ →
      packTime a = a.packMagnitude ∧ unpackTime (packTime a) .datetime = a ∧
        myTimeCompare a b = cmpResult (a.compareDatetime b)) ∧
      (a.ValidDate → b.ValidDate →
        unpackTime (packTime a) .date = a ∧ myTimeCompare a b = cmpResult (a.compareDatetime b)) ∧
      (∀ {d₁ d₂ : Nat}, a.ValidTimeValue d₁ → b.ValidTimeValue d₂ →
        unpackTime (packTime a) .time = a.foldDays ∧
          (a.neg = b.neg → myTimeCompare a b = cmpResult (compare a.timeMicroseconds b.timeMicroseconds))) :=
  ⟨fun va vb => ⟨packTime_of_packRanges va.packRanges va.year_le va.not_neg, unpackTime_packTime_datetime va,
      myTimeCompare_datetime va vb⟩,
    fun va vb => ⟨unpackTime_packTime_date va, myTimeCompare_date va vb⟩,
    fun va vb => ⟨unpackTime_packTime_time va, myTimeCompare_time_of_neg_eq va vb⟩⟩

/-- Noon on a leap day packs, unpacks and compares before the next midnight. -/
theorem packTime_unpackTime_myTimeCompare_leapDay :
    (⟨2024, 2, 29, 12, 0, 0, 0, false, .datetime⟩ : MysqlTime).ValidDatetime 0 ∧
      (⟨2024, 3, 1, 0, 0, 0, 0, false, .datetime⟩ : MysqlTime).ValidDatetime 0 ∧
      unpackTime (packTime ⟨2024, 2, 29, 12, 0, 0, 0, false, .datetime⟩) .datetime =
        ⟨2024, 2, 29, 12, 0, 0, 0, false, .datetime⟩ ∧
      myTimeCompare ⟨2024, 2, 29, 12, 0, 0, 0, false, .datetime⟩ ⟨2024, 3, 1, 0, 0, 0, 0, false, .datetime⟩ =
        cmpResult ((⟨2024, 2, 29, 12, 0, 0, 0, false, .datetime⟩ : MysqlTime).compareDatetime
          ⟨2024, 3, 1, 0, 0, 0, 0, false, .datetime⟩) :=
  have va : (⟨2024, 2, 29, 12, 0, 0, 0, false, .datetime⟩ : MysqlTime).ValidDatetime 0 := by decide
  have vb : (⟨2024, 3, 1, 0, 0, 0, 0, false, .datetime⟩ : MysqlTime).ValidDatetime 0 := by decide
  ⟨va, vb, (packTime_unpackTime_myTimeCompare.1 va vb).2⟩

end MariaDB.Temporal
