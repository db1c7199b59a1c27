import MariaDB.Temporal.PackedTime

set_option autoImplicit false

/- The packed DATETIME and TIMESTAMP formats of sql/compat56.cc. A DATETIME is
never negative: its integer part, offset by `DATETIMEF_INT_OFS`, takes five
bytes and its fraction follows in `(dec + 1) / 2` bytes, so the bytes read as
`(2^39 + ymdhms) * 256^k + frac`, and `ymdhms` is a mixed-radix number whose
digits are the fields from the year down. A TIMESTAMP is its seconds in four
bytes and its fraction after them. -/
namespace MariaDB.Temporal

open BigEndian

/-! ## DATETIME -/

/-- The packed date and time of day, `year * 13 + month` first, then 5 bits of
day, 5 of hour and 6 each of minute and second. -/
def MysqlTime.datetimeYmdhms (t : MysqlTime) : Nat :=
  ((((t.year * 13 + t.month) * 2 ^ 5 + t.day) * 2 ^ 5 + t.hour) * 2 ^ 6 + t.minute) * 2 ^ 6 +
    t.second

/-- The order of DATETIMEs: field by field, from the year down to the
microseconds. -/
def MysqlTime.compareDatetime (a b : MysqlTime) : Ordering :=
  (compare a.year b.year).then <| (compare a.month b.month).then <|
    (compare a.day b.day).then <| (compare a.hour b.hour).then <|
      (compare a.minute b.minute).then <| (compare a.second b.second).then <|
        compare a.secondPart b.secondPart

/-- A DATETIME of precision `dec`: every field in its range, microseconds with
no digits beyond `dec`, and no sign. -/
structure MysqlTime.ValidDatetime (t : MysqlTime) (dec : Nat) : Prop where
  dec_le : dec ≤ timeSecondPartDigits
  year_le : t.year ≤ 9999
  month_le : t.month ≤ 12
  day_le : t.day ≤ 31
  hour_le : t.hour ≤ 23
  minute_le : t.minute ≤ 59
  second_le : t.second ≤ 59
  secondPart_lt : t.secondPart < 10 ^ timeSecondPartDigits
  secondPart_dvd : 10 ^ (timeSecondPartDigits - dec) ∣ t.secondPart
  not_neg : t.neg = false
  timeType_eq : t.timeType = .datetime

instance (t : MysqlTime) (dec : Nat) : Decidable (t.ValidDatetime dec) :=
  decidable_of_iff (dec ≤ timeSecondPartDigits ∧ t.year ≤ 9999 ∧ t.month ≤ 12 ∧ t.day ≤ 31 ∧
      t.hour ≤ 23 ∧ t.minute ≤ 59 ∧ t.second ≤ 59 ∧ t.secondPart < 10 ^ timeSecondPartDigits ∧
      10 ^ (timeSecondPartDigits - dec) ∣ t.secondPart ∧ t.neg = false ∧
      t.timeType = .datetime)
    ⟨fun ⟨a, b, c, d, e, f, g, h, i, j, k⟩ => ⟨a, b, c, d, e, f, g, h, i, j, k⟩,
      fun ⟨a, b, c, d, e, f, g, h, i, j, k⟩ => ⟨a, b, c, d, e, f, g, h, i, j, k⟩⟩

/-- The disk bytes of a DATETIME: five bytes of offset integer part, then the
fraction cut to `(dec + 1) / 2` bytes. -/
def MysqlTime.datetimeDisk (t : MysqlTime) (dec : Nat) : List UInt8 :=
  toBytes 5 (2 ^ 39 + t.datetimeYmdhms) ++
    toBytes ((dec + 1) / 2) (t.secondPart / 10 ^ (6 - 2 * ((dec + 1) / 2)))

/-- The shifts and masks of `TIME_from_longlong_datetime_packed` take the
fields back off the packed number. -/
theorem unpack_datetime (y : Nat) {mo d h mi s : Nat} (hmo : mo ≤ 12) (hd : d ≤ 31) (hh : h ≤ 23)
    (hmi : mi ≤ 59) (hs : s ≤ 59) :
    let x := ((((y * 13 + mo) * 2 ^ 5 + d) * 2 ^ 5 + h) * 2 ^ 6 + mi) * 2 ^ 6 + s
    x / 2 ^ 17 / 2 ^ 5 / 13 = y ∧ x / 2 ^ 17 / 2 ^ 5 % 13 = mo ∧ x / 2 ^ 17 % 2 ^ 5 = d ∧
      x % 2 ^ 17 / 2 ^ 12 = h ∧ x % 2 ^ 17 / 2 ^ 6 % 2 ^ 6 = mi ∧ x % 2 ^ 17 % 2 ^ 6 = s := by
  intro x
  omega

section ValidDatetime

variable {t : MysqlTime} {dec : Nat}

theorem MysqlTime.ValidDatetime.datetimeYmdhms_lt (valid : t.ValidDatetime dec) :
    t.datetimeYmdhms < 2 ^ 39 := by
  have := valid.year_le
  have := valid.month_le
  have := valid.day_le
  have := valid.hour_le
  have := valid.minute_le
  have := valid.second_le
  rw [MysqlTime.datetimeYmdhms]
  omega

theorem MysqlTime.ValidDatetime.secondPart_lt_pow (valid : t.ValidDatetime dec) :
    t.secondPart < 2 ^ 24 := by
  have := valid.secondPart_lt
  simp only [timeSecondPartDigits] at this
  omega

/-- The microseconds of a valid DATETIME are a multiple of the unit of the bytes
kept, and that many units leave the sign bit of the bytes clear. -/
theorem MysqlTime.ValidDatetime.secondPart_split (valid : t.ValidDatetime dec) :
    t.secondPart / 10 ^ (6 - 2 * ((dec + 1) / 2)) * 10 ^ (6 - 2 * ((dec + 1) / 2)) =
        t.secondPart ∧
      t.secondPart / 10 ^ (6 - 2 * ((dec + 1) / 2)) < 2 ^ (8 * ((dec + 1) / 2) - 1) := by
  have dec_le := valid.dec_le
  have lt := valid.secondPart_lt
  have dvd := valid.secondPart_dvd
  simp only [timeSecondPartDigits] at dec_le lt dvd
  interval_cases dec <;> norm_num at dvd ⊢ <;> omega

/-- `TIME_to_longlong_datetime_packed` of a valid DATETIME. -/
theorem MysqlTime.ValidDatetime.packed_eq (valid : t.ValidDatetime dec) :
    timeToLonglongDatetimePacked t = ((t.datetimeYmdhms * 2 ^ 24 + t.secondPart : Nat) : Int) := by
  have day : t.day < 2 ^ 5 := by have := valid.day_le; omega
  have ymd : (t.year * 13 + t.month) <<< 5 ||| t.day = (t.year * 13 + t.month) * 2 ^ 5 + t.day := by
    rw [← Nat.shiftLeft_add_eq_or_of_lt day, Nat.shiftLeft_eq]
  have hms := pack_fields t.hour t.minute t.second (by have := valid.minute_le; omega)
    (by have := valid.second_le; omega)
  have low : t.hour * 2 ^ 12 + t.minute * 2 ^ 6 + t.second < 2 ^ 17 := by
    have := valid.hour_le
    have := valid.minute_le
    have := valid.second_le
    omega
  have ymdhms : ((t.year * 13 + t.month) * 2 ^ 5 + t.day) <<< 17 |||
      (t.hour * 2 ^ 12 + t.minute * 2 ^ 6 + t.second) = t.datetimeYmdhms := by
    rw [← Nat.shiftLeft_add_eq_or_of_lt low, Nat.shiftLeft_eq, MysqlTime.datetimeYmdhms]
    ring
  rw [timeToLonglongDatetimePacked, ymd, hms, ymdhms, myPackedTimeMake, valid.not_neg,
    if_neg Bool.false_ne_true]
  push_cast
  rfl

/-- `TIME_from_longlong_datetime_packed` inverts the packing of a valid DATETIME. -/
theorem timeFromLonglongDatetimePacked_timeToLonglongDatetimePacked (valid : t.ValidDatetime dec) :
    timeFromLonglongDatetimePacked (timeToLonglongDatetimePacked t) = t := by
  have sp := valid.secondPart_lt_pow
  have intPart : myPackedTimeGetIntPart ((t.datetimeYmdhms * 2 ^ 24 + t.secondPart : Nat) : Int) =
      t.datetimeYmdhms := by
    have := intPart_signed false t.datetimeYmdhms t.secondPart sp
    rwa [signed_false, signed_false, if_neg (by simp)] at this
  have fracPart : myPackedTimeGetFracPart
      ((t.datetimeYmdhms * 2 ^ 24 + t.secondPart : Nat) : Int) = t.secondPart :=
    fracPart_signed false t.datetimeYmdhms t.secondPart sp
  have nonneg : decide (((t.datetimeYmdhms * 2 ^ 24 + t.secondPart : Nat) : Int) < 0) = false :=
    decide_eq_false (by omega)
  obtain ⟨year, month, day, hour, minute, second⟩ := unpack_datetime t.year valid.month_le
    valid.day_le valid.hour_le valid.minute_le valid.second_le
  rw [valid.packed_eq]
  simp only [timeFromLonglongDatetimePacked, nonneg, Bool.false_eq_true, ite_false, intPart,
    fracPart, Int.toNat_natCast, Nat.shiftRight_eq_div_pow]
  rw [MysqlTime.datetimeYmdhms, year, month, day, hour, minute, second, ← valid.not_neg,
    ← valid.timeType_eq]

/-- The disk bytes of two valid DATETIMEs compare field by field. -/
theorem compare_datetimeYmdhms {t₁ t₂ : MysqlTime} (valid₁ : t₁.ValidDatetime dec)
    (valid₂ : t₂.ValidDatetime dec) :
    compare t₁.datetimeYmdhms t₂.datetimeYmdhms =
      (compare t₁.year t₂.year).then ((compare t₁.month t₂.month).then
        ((compare t₁.day t₂.day).then ((compare t₁.hour t₂.hour).then
          ((compare t₁.minute t₂.minute).then (compare t₁.second t₂.second))))) := by
  have := valid₁.month_le
  have := valid₂.month_le
  have := valid₁.day_le
  have := valid₂.day_le
  have := valid₁.hour_le
  have := valid₂.hour_le
  have := valid₁.minute_le
  have := valid₂.minute_le
  have := valid₁.second_le
  have := valid₂.second_le
  rw [MysqlTime.datetimeYmdhms, MysqlTime.datetimeYmdhms,
    compare_mul_add _ _ _ _ _ (by omega : t₁.second < 2 ^ 6) (by omega : t₂.second < 2 ^ 6),
    compare_mul_add _ _ _ _ _ (by omega : t₁.minute < 2 ^ 6) (by omega : t₂.minute < 2 ^ 6),
    compare_mul_add _ _ _ _ _ (by omega : t₁.hour < 2 ^ 5) (by omega : t₂.hour < 2 ^ 5),
    compare_mul_add _ _ _ _ _ (by omega : t₁.day < 2 ^ 5) (by omega : t₂.day < 2 ^ 5),
    compare_mul_add _ _ _ _ _ (by omega : t₁.month < 13) (by omega : t₂.month < 13)]
  simp only [Ordering.then_assoc]

end ValidDatetime

/-! ## The branches of each precision -/

/-- `my_datetime_packed_to_binary` stores five bytes of integer part and
`(dec + 1) / 2` bytes of fraction. -/
theorem myDatetimePackedToBinary_eq (nr : Int) {dec : Nat} (le : dec ≤ 6) :
    myDatetimePackedToBinary nr dec =
      miIntStore 5 (myPackedTimeGetIntPart nr + datetimefIntOfs) ++
        miIntStore ((dec + 1) / 2)
          ((myPackedTimeGetFracPart nr).tdiv ((10 ^ (6 - 2 * ((dec + 1) / 2)) : Nat) : Int)) := by
  interval_cases dec
  · rw [miIntStore_zero]
    rfl
  · rfl
  · rfl
  · rfl
  · rfl
  all_goals
    rw [show ((10 ^ (6 - 2 * 3) : Nat) : Int) = 1 from rfl, Int.tdiv_one]
    rfl

/-- `my_datetime_packed_from_binary` reads the integer part off five bytes and
the fraction as a signed field after them. -/
theorem myDatetimePackedFromBinary_eq {dec a : Nat} (le : dec ≤ 6) (ha : a < 256 ^ 5)
    (rest : List UInt8) :
    myDatetimePackedFromBinary (toBytes 5 a ++ rest) dec =
      myPackedTimeMake ((a : Int) - datetimefIntOfs)
        (miSintKorr ((dec + 1) / 2) rest * ((10 ^ (6 - 2 * ((dec + 1) / 2)) : Nat) : Int)) := by
  have int : miUintKorr 5 (toBytes 5 a ++ rest) = a := by
    rw [miUintKorr_toBytes, Nat.mod_eq_of_lt ha]
  have drop : (toBytes 5 a ++ rest).drop 5 = rest := List.drop_left' (length_toBytes 5 a)
  interval_cases dec
  · -- no fraction: `MY_PACKED_TIME_MAKE_INT`, and an empty signed field reads as zero
    have empty : miSintKorr 0 rest = 0 := rfl
    simp only [myDatetimePackedFromBinary, int, empty, Int.zero_mul, myPackedTimeMake,
      myPackedTimeMakeInt, Int.add_zero]
  · simp only [myDatetimePackedFromBinary, int, drop]
    rfl
  · simp only [myDatetimePackedFromBinary, int, drop]
    rfl
  · simp only [myDatetimePackedFromBinary, int, drop]
    rfl
  · simp only [myDatetimePackedFromBinary, int, drop]
    rfl
  all_goals
    simp only [myDatetimePackedFromBinary, int, drop]
    rw [show ((10 ^ (6 - 2 * 3) : Nat) : Int) = 1 from rfl, Int.mul_one]

section ValidDatetime

variable {t : MysqlTime} {dec : Nat}

theorem MysqlTime.ValidDatetime.dec_le_six (valid : t.ValidDatetime dec) : dec ≤ 6 := valid.dec_le

/-- `my_datetime_packed_to_binary` writes the disk bytes of a valid DATETIME. -/
theorem myDatetimePackedToBinary_timeToLonglongDatetimePacked (valid : t.ValidDatetime dec) :
    myDatetimePackedToBinary (timeToLonglongDatetimePacked t) dec = t.datetimeDisk dec := by
  obtain ⟨split, frac_lt⟩ := valid.secondPart_split
  have low : t.secondPart / 10 ^ (6 - 2 * ((dec + 1) / 2)) * 10 ^ (6 - 2 * ((dec + 1) / 2)) <
      2 ^ 24 := by
    rw [split]
    exact valid.secondPart_lt_pow
  have intPart := intPart_signed false t.datetimeYmdhms _ low
  have fracPart := fracPart_signed false t.datetimeYmdhms _ low
  have tdiv := tdiv_signed false (t.secondPart / 10 ^ (6 - 2 * ((dec + 1) / 2)))
    (10 ^ (6 - 2 * ((dec + 1) / 2))) (Nat.pow_pos (by norm_num))
  rw [signed_false, signed_false, if_neg (by simp)] at intPart
  rw [signed_false, signed_false] at fracPart tdiv
  have int : (t.datetimeYmdhms : Int) + datetimefIntOfs = ((2 ^ 39 + t.datetimeYmdhms : Nat) : Int) := by
    rw [datetimefIntOfs]
    push_cast
    ring
  have fits : t.secondPart / 10 ^ (6 - 2 * ((dec + 1) / 2)) < 256 ^ ((dec + 1) / 2) :=
    Nat.lt_of_lt_of_le frac_lt (by
      rw [show (256 : Nat) = 2 ^ 8 by norm_num, ← pow_mul]
      exact Nat.pow_le_pow_right (by norm_num) (by omega))
  have ymdhms := valid.datetimeYmdhms_lt
  rw [valid.packed_eq, myDatetimePackedToBinary_eq _ valid.dec_le_six, ← split, intPart, fracPart,
    tdiv, int, miIntStore_of_lt (by omega), miIntStore_of_lt fits]
  rfl

/-- `my_datetime_packed_from_binary` reads the packed value back off the disk
bytes. -/
theorem myDatetimePackedFromBinary_datetimeDisk (valid : t.ValidDatetime dec) :
    myDatetimePackedFromBinary (t.datetimeDisk dec) dec = timeToLonglongDatetimePacked t := by
  obtain ⟨split, frac_lt⟩ := valid.secondPart_split
  have frac := miSintKorr_toBytes [] frac_lt
  rw [List.append_nil] at frac
  have ymdhms := valid.datetimeYmdhms_lt
  rw [MysqlTime.datetimeDisk, myDatetimePackedFromBinary_eq valid.dec_le_six (by omega), frac,
    valid.packed_eq, myPackedTimeMake, datetimefIntOfs]
  conv_rhs => rw [← split]
  push_cast
  ring

/-- The disk bytes of two valid DATETIMEs compare as the DATETIMEs do, field by
field. -/
theorem memcmp_datetimeDisk {t₁ t₂ : MysqlTime} (valid₁ : t₁.ValidDatetime dec)
    (valid₂ : t₂.ValidDatetime dec) :
    memcmp (t₁.datetimeDisk dec) (t₂.datetimeDisk dec) = t₁.compareDatetime t₂ := by
  obtain ⟨split₁, frac_lt₁⟩ := valid₁.secondPart_split
  obtain ⟨split₂, frac_lt₂⟩ := valid₂.secondPart_split
  have wide : 2 ^ (8 * ((dec + 1) / 2) - 1) ≤ 256 ^ ((dec + 1) / 2) := by
    rw [show (256 : Nat) = 2 ^ 8 by norm_num, ← pow_mul]
    exact Nat.pow_le_pow_right (by norm_num) (by omega)
  have int₁ := valid₁.datetimeYmdhms_lt
  have int₂ := valid₂.datetimeYmdhms_lt
  have shift : compare (2 ^ 39 + t₁.datetimeYmdhms) (2 ^ 39 + t₂.datetimeYmdhms) =
      compare t₁.datetimeYmdhms t₂.datetimeYmdhms := compare_eq_of_iff (by omega) (by omega)
  -- the fraction fields are the microseconds in units of `10 ^ (6 - 2 * k)`
  have scaled : compare (t₁.secondPart / 10 ^ (6 - 2 * ((dec + 1) / 2)))
      (t₂.secondPart / 10 ^ (6 - 2 * ((dec + 1) / 2))) = compare t₁.secondPart t₂.secondPart := by
    have unit : 0 < 10 ^ (6 - 2 * ((dec + 1) / 2)) := Nat.pow_pos (by norm_num)
    conv_rhs => rw [← split₁, ← split₂]
    exact compare_eq_of_iff (Nat.mul_lt_mul_right unit).symm (Nat.mul_left_inj (by omega)).symm
  rw [MysqlTime.datetimeDisk, MysqlTime.datetimeDisk,
    memcmp_toBytes_append (by omega) (by omega) (by omega) (by omega), shift, scaled,
    compare_datetimeYmdhms valid₁ valid₂, MysqlTime.compareDatetime]
  simp only [Ordering.then_assoc]

end ValidDatetime

/-! ## TIMESTAMP -/

/-- A TIMESTAMP of precision `dec`: seconds that fit four unsigned bytes and
microseconds with no digits beyond `dec`. -/
structure MyTimeval.ValidTimestamp (tm : MyTimeval) (dec : Nat) : Prop where
  dec_le : dec ≤ timeSecondPartDigits
  tvSec_nonneg : 0 ≤ tm.tvSec
  tvSec_lt : tm.tvSec < 2 ^ 32
  tvUsec_lt : tm.tvUsec < 10 ^ timeSecondPartDigits
  tvUsec_dvd : 10 ^ (timeSecondPartDigits - dec) ∣ tm.tvUsec

instance (tm : MyTimeval) (dec : Nat) : Decidable (tm.ValidTimestamp dec) :=
  decidable_of_iff (dec ≤ timeSecondPartDigits ∧ 0 ≤ tm.tvSec ∧ tm.tvSec < 2 ^ 32 ∧
      tm.tvUsec < 10 ^ timeSecondPartDigits ∧ 10 ^ (timeSecondPartDigits - dec) ∣ tm.tvUsec)
    ⟨fun ⟨a, b, c, d, e⟩ => ⟨a, b, c, d, e⟩, fun ⟨a, b, c, d, e⟩ => ⟨a, b, c, d, e⟩⟩

/-- `my_timestamp_to_binary` stores four bytes of seconds and `(dec + 1) / 2`
bytes of fraction. -/
theorem myTimestampToBinary_eq (tm : MyTimeval) {dec : Nat} (le : dec ≤ 6) :
    myTimestampToBinary tm dec =
      miIntStore 4 tm.tvSec ++
        miIntStore ((dec + 1) / 2) (tm.tvUsec / 10 ^ (6 - 2 * ((dec + 1) / 2)) : Nat) := by
  interval_cases dec
  · rw [miIntStore_zero]
    rfl
  · rfl
  · rfl
  · rfl
  · rfl
  all_goals
    rw [show 6 - 2 * 3 = 0 from rfl, pow_zero, Nat.div_one]
    rfl

/-- `my_timestamp_from_binary` reads the seconds and the fraction back, the
fraction cut to `my_max_usec_value[dec]`. -/
theorem myTimestampFromBinary_eq {dec a b : Nat} (le : dec ≤ 6) (ha : a < 256 ^ 4)
    (hb : b < 256 ^ ((dec + 1) / 2)) :
    myTimestampFromBinary (toBytes 4 a ++ toBytes ((dec + 1) / 2) b) dec =
      ⟨a, min (b * 10 ^ (6 - 2 * ((dec + 1) / 2))) (myMaxUsecValue dec)⟩ := by
  have sec (rest : List UInt8) : miUintKorr 4 (toBytes 4 a ++ rest) = a := by
    rw [miUintKorr_toBytes, Nat.mod_eq_of_lt ha]
  have drop : (toBytes 4 a ++ toBytes ((dec + 1) / 2) b).drop 4 = toBytes ((dec + 1) / 2) b :=
    List.drop_left' (length_toBytes 4 a)
  have field : miUintKorr ((dec + 1) / 2) (toBytes ((dec + 1) / 2) b) = b := by
    rw [miUintKorr_toBytes_self, Nat.mod_eq_of_lt hb]
  have fracByte (hb : b < 256) : ((toBytes 4 a ++ toBytes 1 b).getD 4 0).toNat = b := by
    rw [List.getD_append_right _ _ _ _ (by simp), length_toBytes, Nat.sub_self, toBytes_succ,
      toBytes_zero, List.nil_append]
    simpa using hb
  interval_cases dec
  · have zero : b = 0 := by simpa using hb
    simp only [myTimestampFromBinary, sec, zero, Nat.zero_mul]
    rfl
  · simp only [myTimestampFromBinary, sec, fracByte (by simpa using hb)]
    rfl
  · simp only [myTimestampFromBinary, sec, fracByte (by simpa using hb)]
    rfl
  all_goals
    simp only [myTimestampFromBinary, sec, drop, field]
    norm_num

section ValidTimestamp

variable {tm : MyTimeval} {dec : Nat}

/-- The microseconds of a valid TIMESTAMP are a multiple of the unit of the
bytes kept, that many units fit the bytes, and they lie within
`my_max_usec_value[dec]`. -/
theorem MyTimeval.ValidTimestamp.tvUsec_split (valid : tm.ValidTimestamp dec) :
    tm.tvUsec / 10 ^ (6 - 2 * ((dec + 1) / 2)) * 10 ^ (6 - 2 * ((dec + 1) / 2)) = tm.tvUsec ∧
      tm.tvUsec / 10 ^ (6 - 2 * ((dec + 1) / 2)) < 256 ^ ((dec + 1) / 2) ∧
      tm.tvUsec ≤ myMaxUsecValue dec := by
  have dec_le := valid.dec_le
  have lt := valid.tvUsec_lt
  have dvd := valid.tvUsec_dvd
  simp only [timeSecondPartDigits] at dec_le lt dvd
  interval_cases dec <;> norm_num [myMaxUsecValue] at dvd ⊢ <;> omega

/-- `my_timestamp_from_binary` inverts `my_timestamp_to_binary` on valid
TIMESTAMPs. -/
theorem myTimestampFromBinary_myTimestampToBinary (valid : tm.ValidTimestamp dec) :
    myTimestampFromBinary (myTimestampToBinary tm dec) dec = tm := by
  obtain ⟨split, frac_lt, bounded⟩ := valid.tvUsec_split
  have sec : tm.tvSec = ((tm.tvSec.toNat : Nat) : Int) := (Int.toNat_of_nonneg valid.tvSec_nonneg).symm
  have sec_lt : tm.tvSec.toNat < 256 ^ 4 := by have := valid.tvSec_lt; omega
  rw [myTimestampToBinary_eq tm valid.dec_le, sec, miIntStore_of_lt sec_lt,
    miIntStore_of_lt frac_lt, myTimestampFromBinary_eq valid.dec_le sec_lt frac_lt, split,
    Nat.min_eq_left bounded, ← sec]

end ValidTimestamp

/-! ## The formats -/

/-- The DATETIME format of every precision up to six digits: its bytes are
`my_datetime_binary_length(dec)` long and give the DATETIME back, and they
compare as the DATETIMEs do field by field; and the TIMESTAMP format gives back
every TIMESTAMP whose seconds fit four unsigned bytes. -/
theorem myDatetimeTimestampBinary_roundTrip (dec : Nat) :
    (∀ t : MysqlTime, t.ValidDatetime dec →
      (myDatetimePackedToBinary (timeToLonglongDatetimePacked t) dec).length =
        myDatetimeBinaryLength dec ∧
      timeFromLonglongDatetimePacked (myDatetimePackedFromBinary
        (myDatetimePackedToBinary (timeToLonglongDatetimePacked t) dec) dec) = t) ∧
    (∀ t₁ t₂ : MysqlTime, t₁.ValidDatetime dec → t₂.ValidDatetime dec →
      memcmp (myDatetimePackedToBinary (timeToLonglongDatetimePacked t₁) dec)
          (myDatetimePackedToBinary (timeToLonglongDatetimePacked t₂) dec) =
        t₁.compareDatetime t₂) ∧
    ∀ tm : MyTimeval, tm.ValidTimestamp dec →
      myTimestampFromBinary (myTimestampToBinary tm dec) dec = tm := by
  refine ⟨?_, ?_, fun tm valid => myTimestampFromBinary_myTimestampToBinary valid⟩
  · intro t valid
    rw [myDatetimePackedToBinary_timeToLonglongDatetimePacked valid,
      myDatetimePackedFromBinary_datetimeDisk valid]
    refine ⟨?_, timeFromLonglongDatetimePacked_timeToLonglongDatetimePacked valid⟩
    simp only [MysqlTime.datetimeDisk, List.length_append, length_toBytes, myDatetimeBinaryLength]
  · intro t₁ t₂ valid₁ valid₂
    rw [myDatetimePackedToBinary_timeToLonglongDatetimePacked valid₁,
      myDatetimePackedToBinary_timeToLonglongDatetimePacked valid₂]
    exact memcmp_datetimeDisk valid₁ valid₂

/-- `2024-02-29 23:59:59.5` sorts after `2024-02-29 23:59:59.25` at two digits,
and the TIMESTAMP `2^32 - 1 . 990000` comes back. -/
theorem myDatetimeTimestampBinary_roundTrip_leap :
    let t₁ : MysqlTime := ⟨2024, 2, 29, 23, 59, 59, 500000, false, .datetime⟩
    let t₂ : MysqlTime := ⟨2024, 2, 29, 23, 59, 59, 250000, false, .datetime⟩
    let tm : MyTimeval := ⟨2 ^ 32 - 1, 990000⟩
    t₁.ValidDatetime 2 ∧ t₂.ValidDatetime 2 ∧ tm.ValidTimestamp 2 ∧
      timeFromLonglongDatetimePacked (myDatetimePackedFromBinary
        (myDatetimePackedToBinary (timeToLonglongDatetimePacked t₁) 2) 2) = t₁ ∧
      memcmp (myDatetimePackedToBinary (timeToLonglongDatetimePacked t₁) 2)
          (myDatetimePackedToBinary (timeToLonglongDatetimePacked t₂) 2) = t₁.compareDatetime t₂ ∧
      myTimestampFromBinary (myTimestampToBinary tm 2) 2 = tm :=
  ⟨by decide, by decide, by decide,
    ((myDatetimeTimestampBinary_roundTrip 2).1 _ (by decide)).2,
    (myDatetimeTimestampBinary_roundTrip 2).2.1 _ _ (by decide) (by decide),
    (myDatetimeTimestampBinary_roundTrip 2).2.2 _ (by decide)⟩

/-- A negative `tv_sec` is stored as its low four bytes and read back unsigned:
`-1` comes back as `2^32 - 1`. -/
theorem myTimestampBinary_negative_tvSec :
    myTimestampFromBinary (myTimestampToBinary ⟨-1, 0⟩ 0) 0 = ⟨2 ^ 32 - 1, 0⟩ ∧
      myTimestampFromBinary (myTimestampToBinary ⟨-1, 0⟩ 0) 0 ≠ ⟨-1, 0⟩ := by
  constructor <;> decide

end MariaDB.Temporal
