import Mathlib.Data.Nat.Bitwise
import Mathlib.Tactic.IntervalCases
import MariaDB.Temporal.Packed

set_option autoImplicit false

/- The packed TIME format of sql/compat56.cc is an order embedding. A valid TIME
packs to `±(hms * 2^24 + second_part)`. On disk the integer part is offset by
`TIMEF_INT_OFS` and the fraction, cut to `k = (dec + 1) / 2` bytes, is stored as
its complement to `256 ^ k` when the value is negative, with the integer part
one lower; the bytes then read as the one number `2^23 * 256^k + ±(hms * 256^k +
frac)`, which orders the values as the packed integers do. -/
namespace MariaDB.Temporal

open BigEndian

/-! ## The packed fields -/

/-- Fields below their shift widths are packed by `|` as by addition. -/
theorem pack_fields (h m s : Nat) (hm : m < 2 ^ 6) (hs : s < 2 ^ 6) :
    (h <<< 12) ||| (m <<< 6) ||| s = h * 2 ^ 12 + m * 2 ^ 6 + s := by
  have low : m <<< 6 ||| s = m * 2 ^ 6 + s := by
    rw [← Nat.shiftLeft_add_eq_or_of_lt hs, Nat.shiftLeft_eq]
  have high : h <<< 12 ||| (m * 2 ^ 6 + s) = h * 2 ^ 12 + (m * 2 ^ 6 + s) := by
    rw [← Nat.shiftLeft_add_eq_or_of_lt (by omega), Nat.shiftLeft_eq]
  rw [Nat.lor_assoc, low, high, Nat.add_assoc]

theorem unpack_fields (h m s : Nat) (hm : m < 2 ^ 6) (hs : s < 2 ^ 6) :
    (h * 2 ^ 12 + m * 2 ^ 6 + s) >>> 12 = h ∧ (h * 2 ^ 12 + m * 2 ^ 6 + s) >>> 6 % 2 ^ 6 = m ∧
      (h * 2 ^ 12 + m * 2 ^ 6 + s) % 2 ^ 6 = s := by
  simp only [Nat.shiftRight_eq_div_pow]
  omega

/-- The hours with the days folded in, the minutes and the seconds, as the
integer part of a packed TIME holds them. -/
def MysqlTime.timeHms (t : MysqlTime) : Nat :=
  (t.day * 24 + t.hour) * 2 ^ 12 + t.minute * 2 ^ 6 + t.second

/-- What `TIME_from_longlong_time_packed` rebuilds of a TIME: its days folded
into its hours. -/
def MysqlTime.foldDays (t : MysqlTime) : MysqlTime :=
  { t with year := 0, month := 0, day := 0, hour := t.day * 24 + t.hour, timeType := .time }

/-- A TIME of precision `dec`: at most `TIME_MAX_HOUR` hours with the days
folded in, minutes and seconds below 60, microseconds with no digits beyond
`dec`, and no negative zero. -/
structure MysqlTime.ValidTime (t : MysqlTime) (dec : Nat) : Prop where
  dec_le : dec ≤ timeSecondPartDigits
  hour_le : t.day * 24 + t.hour ≤ timeMaxHour
  minute_lt : t.minute < 60
  second_lt : t.second < 60
  secondPart_lt : t.secondPart < 10 ^ timeSecondPartDigits
  secondPart_dvd : 10 ^ (timeSecondPartDigits - dec) ∣ t.secondPart
  nonzero : t.neg = true → 0 < t.day + t.hour + t.minute + t.second + t.secondPart

instance (t : MysqlTime) (dec : Nat) : Decidable (t.ValidTime dec) :=
  decidable_of_iff (dec ≤ timeSecondPartDigits ∧ t.day * 24 + t.hour ≤ timeMaxHour ∧
      t.minute < 60 ∧ t.second < 60 ∧ t.secondPart < 10 ^ timeSecondPartDigits ∧
      10 ^ (timeSecondPartDigits - dec) ∣ t.secondPart ∧
      (t.neg = true → 0 < t.day + t.hour + t.minute + t.second + t.secondPart))
    ⟨fun ⟨a, b, c, d, e, f, g⟩ => ⟨a, b, c, d, e, f, g⟩,
      fun ⟨a, b, c, d, e, f, g⟩ => ⟨a, b, c, d, e, f, g⟩⟩

section Valid

variable {t : MysqlTime} {dec : Nat}

theorem MysqlTime.ValidTime.timeHms_lt (valid : t.ValidTime dec) : t.timeHms < 2 ^ 22 := by
  have hour := valid.hour_le
  have minute := valid.minute_lt
  have second := valid.second_lt
  simp only [MysqlTime.timeHms, timeMaxHour] at hour ⊢
  omega

theorem MysqlTime.ValidTime.timeHms_pos (valid : t.ValidTime dec) (neg : t.neg = true) :
    0 < t.timeHms + t.secondPart := by
  have nonzero := valid.nonzero neg
  simp only [MysqlTime.timeHms]
  omega

end Valid

/-- `TIME_to_longlong_time_packed` of a TIME with minutes and seconds in their
six bits is the signed sum of its fields. -/
theorem timeToLonglongTimePacked_eq (t : MysqlTime) (hm : t.minute < 2 ^ 6)
    (hs : t.second < 2 ^ 6) :
    timeToLonglongTimePacked t = signed t.neg (t.timeHms * 2 ^ 24 + t.secondPart) := by
  rw [timeToLonglongTimePacked, pack_fields _ _ _ hm hs, myPackedTimeMake]
  cases t.neg
  · rw [signed_false, if_neg Bool.false_ne_true, MysqlTime.timeHms]
    push_cast
    rfl
  · rw [signed_true, if_pos rfl, MysqlTime.timeHms]
    push_cast
    rfl

/-! ## The macros on signed values

`MY_PACKED_TIME_GET_INT_PART` shifts, which rounds a negative value down, while
`MY_PACKED_TIME_GET_FRAC_PART` is C's `%`, which keeps the sign. -/

theorem intPart_signed (n : Bool) (hms f : Nat) (hf : f < 2 ^ 24) :
    myPackedTimeGetIntPart (signed n (hms * 2 ^ 24 + f)) =
      if n = true ∧ 0 < f then -(hms : Int) - 1 else signed n hms := by
  rw [myPackedTimeGetIntPart, Int.shiftRight_eq_div_pow]
  cases n
  · rw [signed_false, signed_false, if_neg (by simp)]
    push_cast
    omega
  · rw [signed_true, signed_true]
    by_cases pos : 0 < f
    · rw [if_pos ⟨rfl, pos⟩]
      push_cast
      omega
    · rw [if_neg (by simp [pos])]
      push_cast
      omega

theorem fracPart_signed (n : Bool) (hms f : Nat) (hf : f < 2 ^ 24) :
    myPackedTimeGetFracPart (signed n (hms * 2 ^ 24 + f)) = signed n f := by
  have low : ((hms * 2 ^ 24 + f : Nat) : Int).tmod (2 ^ 24) = f := by
    rw [Int.tmod_eq_emod_of_nonneg (by omega)]
    push_cast
    omega
  cases n
  · rw [myPackedTimeGetFracPart, signed_false, signed_false, low]
  · rw [myPackedTimeGetFracPart, signed_true, signed_true, Int.neg_tmod, low]

theorem tdiv_signed (n : Bool) (g c : Nat) (hc : 0 < c) :
    (signed n (g * c)).tdiv c = signed n g := by
  have exact : ((g * c : Nat) : Int).tdiv c = g := by
    rw [Int.tdiv_eq_ediv_of_nonneg (by omega), Nat.cast_mul]
    exact Int.mul_ediv_cancel _ (by omega)
  cases n
  · rw [signed_false, signed_false, exact]
  · rw [signed_true, signed_true, Int.neg_tdiv, exact]

/-- `TIME_from_longlong_time_packed` reads the sign off a value and the fields
off its magnitude. -/
theorem timeFromLonglongTimePacked_signed (n : Bool) (x : Nat) (nonzero : n = true → 0 < x) :
    timeFromLonglongTimePacked (signed n x) = { timeFromLonglongTimePacked x with neg := n } := by
  have nonneg : decide ((x : Int) < 0) = false := decide_eq_false (by omega)
  cases n
  · rw [signed_false]
    simp only [timeFromLonglongTimePacked, nonneg]
  · have negative : decide (-(x : Int) < 0) = true := decide_eq_true (by have := nonzero rfl; omega)
    rw [signed_true]
    simp only [timeFromLonglongTimePacked, negative, nonneg, ite_true, Int.neg_neg,
      Bool.false_eq_true, ite_false]

/-- `TIME_from_longlong_time_packed` inverts the packing of a valid TIME. -/
theorem timeFromLonglongTimePacked_timeToLonglongTimePacked {t : MysqlTime} {dec : Nat}
    (valid : t.ValidTime dec) :
    timeFromLonglongTimePacked (timeToLonglongTimePacked t) = t.foldDays := by
  have sp : t.secondPart < 2 ^ 24 := by
    have := valid.secondPart_lt
    simp only [timeSecondPartDigits] at this
    omega
  have fields := unpack_fields (t.day * 24 + t.hour) t.minute t.second
    (by have := valid.minute_lt; omega) (by have := valid.second_lt; omega)
  have hour : t.day * 24 + t.hour < 2 ^ 10 := by
    have := valid.hour_le
    simp only [timeMaxHour] at this
    omega
  have nonzero (h : t.neg = true) : 0 < t.timeHms * 2 ^ 24 + t.secondPart := by
    have := valid.timeHms_pos h
    rcases Nat.eq_zero_or_pos t.timeHms with zero | pos
    · omega
    · exact Nat.lt_of_lt_of_le (Nat.mul_pos pos (by norm_num)) (Nat.le_add_right _ _)
  have intPart : myPackedTimeGetIntPart (t.timeHms * 2 ^ 24 + t.secondPart : Nat) = t.timeHms := by
    have := intPart_signed false t.timeHms t.secondPart sp
    rwa [signed_false, signed_false, if_neg (by simp)] at this
  have fracPart : myPackedTimeGetFracPart (t.timeHms * 2 ^ 24 + t.secondPart : Nat) =
      t.secondPart := fracPart_signed false t.timeHms t.secondPart sp
  have nonneg : decide (((t.timeHms * 2 ^ 24 + t.secondPart : Nat) : Int) < 0) = false :=
    decide_eq_false (by omega)
  rw [timeToLonglongTimePacked_eq t (by have := valid.minute_lt; omega)
    (by have := valid.second_lt; omega), timeFromLonglongTimePacked_signed _ _ nonzero]
  simp only [timeFromLonglongTimePacked, nonneg, Bool.false_eq_true, ite_false, intPart, fracPart,
    Int.toNat_natCast]
  rw [MysqlTime.timeHms, fields.1, fields.2.1, fields.2.2, Nat.mod_eq_of_lt hour]
  rfl

/-! ## The disk fields -/

/-- The integer field and the fraction field of the disk format for the value
`±(hms * 2^24 + g * c)` whose fraction keeps `K` values of `g`: a negative value
with a fraction stores it as its complement to `K`, with the integer one lower. -/
def timeFields (neg : Bool) (hms g K : Nat) : Nat × Nat :=
  if neg then
    if g = 0 then (2 ^ 23 - hms, 0) else (2 ^ 23 - hms - 1, K - g)
  else (2 ^ 23 + hms, g)

section Fields

variable {hms g K : Nat}

theorem timeFields_fst_lt (neg : Bool) (hH : hms < 2 ^ 23) : (timeFields neg hms g K).1 < 256 ^ 3 := by
  unfold timeFields
  split_ifs <;> dsimp only <;> omega

theorem timeFields_snd_lt (neg : Bool) (hg : g < K) : (timeFields neg hms g K).2 < K := by
  unfold timeFields
  split_ifs <;> dsimp only <;> omega

/-- The two fields read as one number are the offset signed value. -/
theorem timeFields_value (neg : Bool) (hH : hms < 2 ^ 23) (hg : g < K) :
    (((timeFields neg hms g K).1 * K + (timeFields neg hms g K).2 : Nat) : Int) =
      2 ^ 23 * K + signed neg (hms * K + g) := by
  unfold timeFields
  cases neg
  · rw [if_neg Bool.false_ne_true, signed_false]
    push_cast
    ring
  · rw [if_pos rfl, signed_true]
    split_ifs with g0
    · have high : ((2 ^ 23 - hms : Nat) : Int) = 2 ^ 23 - hms := by omega
      rw [g0, Nat.add_zero, Nat.cast_mul, high, Nat.add_zero]
      push_cast
      ring
    · have high : ((2 ^ 23 - hms - 1 : Nat) : Int) = 2 ^ 23 - hms - 1 := by omega
      have low : ((K - g : Nat) : Int) = K - g := by omega
      rw [Nat.cast_add, Nat.cast_mul, high, low, Nat.cast_add, Nat.cast_mul]
      ring

end Fields

/-- `my_time_packed_to_binary` for a fraction of `k` bytes stores the two
fields. -/
theorem storeTimeFields (neg : Bool) {hms g c : Nat} (k : Nat) (hH : hms < 2 ^ 23)
    (hg : g < 256 ^ k) (hc : 0 < c) (hgc : g * c < 2 ^ 24) :
    miIntStore 3 (timefIntOfs + myPackedTimeGetIntPart (signed neg (hms * 2 ^ 24 + g * c))) ++
        miIntStore k ((myPackedTimeGetFracPart (signed neg (hms * 2 ^ 24 + g * c))).tdiv c) =
      toBytes 3 (timeFields neg hms g (256 ^ k)).1 ++ toBytes k (timeFields neg hms g (256 ^ k)).2 := by
  rw [intPart_signed neg hms _ hgc, fracPart_signed neg hms _ hgc, tdiv_signed neg g c hc]
  unfold timeFields
  cases neg
  · have int : timefIntOfs + (hms : Int) = ((2 ^ 23 + hms : Nat) : Int) := by
      rw [timefIntOfs]
      push_cast
      ring
    rw [if_neg (by simp), if_neg Bool.false_ne_true, signed_false, signed_false, int,
      miIntStore_of_lt (by omega), miIntStore_of_lt hg]
  · rw [if_pos rfl]
    by_cases g0 : g = 0
    · have int : timefIntOfs + -(hms : Int) = ((2 ^ 23 - hms : Nat) : Int) := by
        rw [timefIntOfs]
        omega
      have zero : miIntStore k 0 = toBytes k 0 := miIntStore_of_lt (Nat.pow_pos (by norm_num))
      rw [g0, if_neg (by simp), if_pos rfl, signed_true, signed_true, int, Nat.cast_zero,
        Int.neg_zero, miIntStore_of_lt (by omega), zero]
    · have int : timefIntOfs + (-(hms : Int) - 1) = ((2 ^ 23 - hms - 1 : Nat) : Int) := by
        rw [timefIntOfs]
        omega
      rw [if_pos ⟨rfl, Nat.mul_pos (Nat.pos_of_ne_zero g0) hc⟩, if_neg g0, signed_true, int,
        miIntStore_neg (by omega) hg.le, miIntStore_of_lt (by omega)]

/-- `mi_int6store(ptr, nr + TIMEF_OFS)` stores the same two fields, with a
fraction of three bytes. -/
theorem storeTimeWide (neg : Bool) {hms f : Nat} (hH : hms < 2 ^ 23) (hf : f < 256 ^ 3) :
    miIntStore 6 (signed neg (hms * 2 ^ 24 + f) + timefOfs) =
      toBytes 3 (timeFields neg hms f (256 ^ 3)).1 ++ toBytes 3 (timeFields neg hms f (256 ^ 3)).2 := by
  have value := timeFields_value neg hH hf
  have fits : (timeFields neg hms f (256 ^ 3)).1 < 256 ^ 3 := timeFields_fst_lt neg hH
  have low : (timeFields neg hms f (256 ^ 3)).2 < 256 ^ 3 := timeFields_snd_lt neg hf
  have disk : signed neg (hms * 2 ^ 24 + f) + timefOfs =
      (((timeFields neg hms f (256 ^ 3)).1 * 256 ^ 3 + (timeFields neg hms f (256 ^ 3)).2 : Nat) :
        Int) := by
    rw [value, timefOfs, show (256 : Nat) ^ 3 = 2 ^ 24 by norm_num]
    push_cast
    ring
  rw [disk, miIntStore_of_lt (by omega), toBytes_mul_add 3 3 _ _ low]

/-- The decoder's correction for a negative value with a fraction gives the
packed value back from the two fields. -/
theorem readTimeFields (neg : Bool) {hms g K : Nat} (c : Nat) (hH : hms < 2 ^ 23) (hg : g < K) :
    (let intpart : Int := ((timeFields neg hms g K).1 : Int) - timefIntOfs
     let frac : Int := (timeFields neg hms g K).2
     if intpart < 0 ∧ frac ≠ 0 then myPackedTimeMake (intpart + 1) ((frac - K) * c)
     else myPackedTimeMake intpart (frac * c)) = signed neg (hms * 2 ^ 24 + g * c) := by
  unfold timeFields
  cases neg
  · have int : (((2 ^ 23 + hms : Nat) : Int) - timefIntOfs) = hms := by
      rw [timefIntOfs]
      omega
    dsimp only
    rw [if_neg Bool.false_ne_true]
    dsimp only
    rw [int, signed_false, if_neg (by omega), myPackedTimeMake]
    push_cast
    ring
  · rw [if_pos rfl]
    by_cases g0 : g = 0
    · have int : (((2 ^ 23 - hms : Nat) : Int) - timefIntOfs) = -(hms : Int) := by
        rw [timefIntOfs]
        omega
      rw [if_pos g0]
      dsimp only
      rw [int, g0, signed_true, if_neg (by simp), myPackedTimeMake]
      push_cast
      ring
    · have int : (((2 ^ 23 - hms - 1 : Nat) : Int) - timefIntOfs) = -(hms : Int) - 1 := by
        rw [timefIntOfs]
        omega
      have frac : ((K - g : Nat) : Int) - K = -(g : Int) := by omega
      rw [if_neg g0]
      dsimp only
      rw [int, frac, signed_true, if_pos ⟨by omega, by omega⟩, myPackedTimeMake]
      push_cast
      ring

/-! ## The branches of each precision -/

/-- `my_time_packed_to_binary` below five digits stores an integer field of
three bytes and `(dec + 1) / 2` bytes of fraction, none for `dec = 0`. -/
theorem myTimePackedToBinary_short (nr : Int) {dec : Nat} (short : dec ≤ 4) :
    myTimePackedToBinary nr dec =
      miIntStore 3 (timefIntOfs + myPackedTimeGetIntPart nr) ++
        miIntStore ((dec + 1) / 2)
          ((myPackedTimeGetFracPart nr).tdiv ((10 ^ (6 - 2 * ((dec + 1) / 2)) : Nat) : Int)) := by
  interval_cases dec
  · rw [miIntStore_zero, List.append_nil]
    rfl
  all_goals rfl

theorem myTimePackedToBinary_wide (nr : Int) {dec : Nat} (wide : 5 ≤ dec) (le : dec ≤ 6) :
    myTimePackedToBinary nr dec = miIntStore 6 (nr + timefOfs) := by
  interval_cases dec <;> rfl

theorem myTimePackedFromBinary_short {dec a b : Nat} (short : dec ≤ 4) (ha : a < 256 ^ 3)
    (hb : b < 256 ^ ((dec + 1) / 2)) :
    myTimePackedFromBinary (toBytes 3 a ++ toBytes ((dec + 1) / 2) b) dec =
      let intpart : Int := (a : Int) - timefIntOfs
      let frac : Int := b
      if intpart < 0 ∧ frac ≠ 0 then
        myPackedTimeMake (intpart + 1)
          ((frac - ((256 ^ ((dec + 1) / 2) : Nat) : Int)) * ((10 ^ (6 - 2 * ((dec + 1) / 2)) : Nat) : Int))
      else myPackedTimeMake intpart (frac * ((10 ^ (6 - 2 * ((dec + 1) / 2)) : Nat) : Int)) := by
  have int (rest : List UInt8) : miUintKorr 3 (toBytes 3 a ++ rest) = a := by
    rw [miUintKorr_toBytes, Nat.mod_eq_of_lt ha]
  have fracByte (hb : b < 256) : ((toBytes 3 a ++ toBytes 1 b).getD 3 0).toNat = b := by
    rw [List.getD_append_right _ _ _ _ (by simp), length_toBytes, Nat.sub_self, toBytes_succ,
      toBytes_zero, List.nil_append]
    simpa using hb
  have fracWord (hb : b < 256 ^ 2) : miUintKorr 2 ((toBytes 3 a ++ toBytes 2 b).drop 3) = b := by
    rw [List.drop_left' (length_toBytes 3 a), miUintKorr_toBytes_self, Nat.mod_eq_of_lt hb]
  interval_cases dec
  · -- no fraction bytes: the integer part alone
    have zero : b = 0 := by simpa using hb
    simp only [myTimePackedFromBinary, int, zero, Nat.cast_zero, ne_eq, not_true_eq_false,
      and_false, ite_false, Int.zero_mul, myPackedTimeMake, myPackedTimeMakeInt, Int.add_zero]
  · simp only [myTimePackedFromBinary, int, fracByte (by simpa using hb)]
    rfl
  · simp only [myTimePackedFromBinary, int, fracByte (by simpa using hb)]
    rfl
  · simp only [myTimePackedFromBinary, int, fracWord (by simpa using hb)]
    rfl
  · simp only [myTimePackedFromBinary, int, fracWord (by simpa using hb)]
    rfl

theorem myTimePackedFromBinary_wide {dec a b : Nat} (wide : 5 ≤ dec) (le : dec ≤ 6)
    (ha : a < 256 ^ 3) (hb : b < 256 ^ 3) :
    myTimePackedFromBinary (toBytes 3 a ++ toBytes 3 b) dec =
      ((a * 256 ^ 3 + b : Nat) : Int) - timefOfs := by
  have value : miUintKorr 6 (toBytes 3 a ++ toBytes 3 b) = a * 256 ^ 3 + b := by
    rw [← toBytes_mul_add 3 3 a b hb, miUintKorr_toBytes_self, Nat.mod_eq_of_lt (by omega)]
  interval_cases dec <;> simp only [myTimePackedFromBinary, value]

/-- The two fields, read as one number, order the packed values. -/
theorem compare_timeFields (n₁ n₂ : Bool) {h₁ h₂ g₁ g₂ K c : Nat} (hc : 0 < c)
    (hH₁ : h₁ < 2 ^ 23) (hH₂ : h₂ < 2 ^ 23) (hg₁ : g₁ < K) (hg₂ : g₂ < K)
    (hgc₁ : g₁ * c < 2 ^ 24) (hgc₂ : g₂ * c < 2 ^ 24) :
    compare ((timeFields n₁ h₁ g₁ K).1 * K + (timeFields n₁ h₁ g₁ K).2)
        ((timeFields n₂ h₂ g₂ K).1 * K + (timeFields n₂ h₂ g₂ K).2) =
      compare (signed n₁ (h₁ * 2 ^ 24 + g₁ * c)) (signed n₂ (h₂ * 2 ^ 24 + g₂ * c)) := by
  have cast (x y : Nat) : compare x y = compare (x : Int) (y : Int) :=
    compare_eq_of_iff (by omega) (by omega)
  have shift (a b : Int) : compare (2 ^ 23 * (K : Int) + a) (2 ^ 23 * K + b) = compare a b :=
    compare_eq_of_iff (by omega) (by omega)
  have scaled : compare (g₁ * c) (g₂ * c) = compare g₁ g₂ :=
    compare_eq_of_iff (Nat.mul_lt_mul_right hc) (Nat.mul_left_inj (by omega))
  have same : compare (h₁ * K + g₁) (h₂ * K + g₂) =
      compare (h₁ * 2 ^ 24 + g₁ * c) (h₂ * 2 ^ 24 + g₂ * c) := by
    rw [compare_mul_add _ _ _ _ _ hg₁ hg₂, compare_mul_add _ _ _ _ _ hgc₁ hgc₂, scaled]
  -- the second magnitude vanishes exactly when its hours and fraction do
  have zero : h₂ * K + g₂ = 0 ↔ h₂ * 2 ^ 24 + g₂ * c = 0 := by
    simp only [Nat.add_eq_zero_iff, Nat.mul_eq_zero]
    omega
  rw [cast, timeFields_value n₁ hH₁ hg₁, timeFields_value n₂ hH₂ hg₂, shift]
  exact compare_signed_congr n₁ n₂ same zero

/-! ## Valid values -/

/-- The disk fields of a TIME at precision `dec`, its fraction cut to
`(dec + 1) / 2` bytes. -/
def MysqlTime.timeDiskFields (t : MysqlTime) (dec : Nat) : Nat × Nat :=
  timeFields t.neg t.timeHms (t.secondPart / 10 ^ (6 - 2 * ((dec + 1) / 2))) (256 ^ ((dec + 1) / 2))

/-- The disk bytes of a TIME: the integer field, then the fraction field. -/
def MysqlTime.timeDisk (t : MysqlTime) (dec : Nat) : List UInt8 :=
  toBytes 3 (t.timeDiskFields dec).1 ++ toBytes ((dec + 1) / 2) (t.timeDiskFields dec).2

section Valid

variable {t : MysqlTime} {dec : Nat}

/-- The microseconds of a valid TIME are a multiple of the unit of the bytes
kept, and that many units fit the bytes. -/
theorem MysqlTime.ValidTime.secondPart_split (valid : t.ValidTime dec) :
    t.secondPart / 10 ^ (6 - 2 * ((dec + 1) / 2)) * 10 ^ (6 - 2 * ((dec + 1) / 2)) =
        t.secondPart ∧
      t.secondPart / 10 ^ (6 - 2 * ((dec + 1) / 2)) < 256 ^ ((dec + 1) / 2) := by
  have dec_le := valid.dec_le
  have lt := valid.secondPart_lt
  have dvd := valid.secondPart_dvd
  simp only [timeSecondPartDigits] at dec_le lt dvd
  interval_cases dec <;> norm_num at dvd ⊢ <;> omega

theorem MysqlTime.ValidTime.timeHms_lt_ofs (valid : t.ValidTime dec) : t.timeHms < 2 ^ 23 := by
  have := valid.timeHms_lt
  omega

theorem MysqlTime.ValidTime.secondPart_lt_pow (valid : t.ValidTime dec) : t.secondPart < 2 ^ 24 := by
  have := valid.secondPart_lt
  simp only [timeSecondPartDigits] at this
  omega

theorem MysqlTime.ValidTime.packed_eq (valid : t.ValidTime dec) :
    timeToLonglongTimePacked t = signed t.neg (t.timeHms * 2 ^ 24 + t.secondPart) :=
  timeToLonglongTimePacked_eq t (by have := valid.minute_lt; omega)
    (by have := valid.second_lt; omega)

/-- `my_time_packed_to_binary` writes the disk bytes of a valid TIME. -/
theorem myTimePackedToBinary_timeToLonglongTimePacked (valid : t.ValidTime dec) :
    myTimePackedToBinary (timeToLonglongTimePacked t) dec = t.timeDisk dec := by
  obtain ⟨split, frac_lt⟩ := valid.secondPart_split
  have sp := valid.secondPart_lt_pow
  rw [valid.packed_eq, ← split]
  by_cases short : dec ≤ 4
  · rw [myTimePackedToBinary_short _ short]
    exact storeTimeFields t.neg _ valid.timeHms_lt_ofs frac_lt (Nat.pow_pos (by norm_num))
      (by rw [split]; exact sp)
  · have k : (dec + 1) / 2 = 3 := by have := valid.dec_le; simp only [timeSecondPartDigits] at this; omega
    rw [myTimePackedToBinary_wide _ (by omega) valid.dec_le, MysqlTime.timeDisk,
      MysqlTime.timeDiskFields]
    simp only [k, Nat.sub_self, pow_zero, Nat.mul_one, Nat.div_one] at frac_lt ⊢
    exact storeTimeWide t.neg valid.timeHms_lt_ofs frac_lt

/-- `my_time_packed_from_binary` reads the packed value back off the disk bytes. -/
theorem myTimePackedFromBinary_timeDisk (valid : t.ValidTime dec) :
    myTimePackedFromBinary (t.timeDisk dec) dec = timeToLonglongTimePacked t := by
  obtain ⟨split, frac_lt⟩ := valid.secondPart_split
  have hH := valid.timeHms_lt_ofs
  rw [valid.packed_eq, ← split, MysqlTime.timeDisk, MysqlTime.timeDiskFields]
  by_cases short : dec ≤ 4
  · rw [myTimePackedFromBinary_short short (timeFields_fst_lt _ hH) (timeFields_snd_lt _ frac_lt)]
    exact readTimeFields t.neg _ hH frac_lt
  · have k : (dec + 1) / 2 = 3 := by have := valid.dec_le; simp only [timeSecondPartDigits] at this; omega
    simp only [k, Nat.sub_self, pow_zero, Nat.mul_one, Nat.div_one] at frac_lt ⊢
    rw [myTimePackedFromBinary_wide (by omega) valid.dec_le (timeFields_fst_lt _ hH)
      (timeFields_snd_lt _ frac_lt), timeFields_value _ hH frac_lt, timefOfs,
      show (256 : Nat) ^ 3 = 2 ^ 24 by norm_num]
    push_cast
    ring

/-- The disk bytes of two valid TIMEs compare as their packed values. -/
theorem memcmp_timeDisk {t₁ t₂ : MysqlTime} (valid₁ : t₁.ValidTime dec) (valid₂ : t₂.ValidTime dec) :
    memcmp (t₁.timeDisk dec) (t₂.timeDisk dec) =
      compare (timeToLonglongTimePacked t₁) (timeToLonglongTimePacked t₂) := by
  obtain ⟨split₁, frac_lt₁⟩ := valid₁.secondPart_split
  obtain ⟨split₂, frac_lt₂⟩ := valid₂.secondPart_split
  have int₁ : (t₁.timeDiskFields dec).1 < 256 ^ 3 := timeFields_fst_lt _ valid₁.timeHms_lt_ofs
  have int₂ : (t₂.timeDiskFields dec).1 < 256 ^ 3 := timeFields_fst_lt _ valid₂.timeHms_lt_ofs
  have frac₁ : (t₁.timeDiskFields dec).2 < 256 ^ ((dec + 1) / 2) := timeFields_snd_lt _ frac_lt₁
  have frac₂ : (t₂.timeDiskFields dec).2 < 256 ^ ((dec + 1) / 2) := timeFields_snd_lt _ frac_lt₂
  have unit : 0 < 10 ^ (6 - 2 * ((dec + 1) / 2)) := Nat.pow_pos (by norm_num)
  have sp₁ := valid₁.secondPart_lt_pow
  have sp₂ := valid₂.secondPart_lt_pow
  rw [MysqlTime.timeDisk, MysqlTime.timeDisk, memcmp_toBytes_append int₁ int₂ frac₁ frac₂,
    ← compare_mul_add _ _ _ _ _ frac₁ frac₂, valid₁.packed_eq, valid₂.packed_eq, ← split₁, ← split₂]
  exact compare_timeFields t₁.neg t₂.neg unit valid₁.timeHms_lt_ofs
    valid₂.timeHms_lt_ofs frac_lt₁ frac_lt₂ (by rw [split₁]; exact sp₁) (by rw [split₂]; exact sp₂)

end Valid

/-! ## The format -/

/-- The TIME format of every precision up to six digits: its bytes are
`my_time_binary_length(dec)` long, read back as the packed value, which unpacks
to the TIME with its days folded into its hours, and compare as the packed
values do. -/
theorem myTimePackedBinary_orderEmbedding (dec : Nat) :
    (∀ t : MysqlTime, t.ValidTime dec →
      (myTimePackedToBinary (timeToLonglongTimePacked t) dec).length = myTimeBinaryLength dec ∧
      myTimePackedFromBinary (myTimePackedToBinary (timeToLonglongTimePacked t) dec) dec =
        timeToLonglongTimePacked t ∧
      timeFromLonglongTimePacked
          (myTimePackedFromBinary (myTimePackedToBinary (timeToLonglongTimePacked t) dec) dec) =
        t.foldDays) ∧
    ∀ t₁ t₂ : MysqlTime, t₁.ValidTime dec → t₂.ValidTime dec →
      memcmp (myTimePackedToBinary (timeToLonglongTimePacked t₁) dec)
          (myTimePackedToBinary (timeToLonglongTimePacked t₂) dec) =
        compare (timeToLonglongTimePacked t₁) (timeToLonglongTimePacked t₂) := by
  constructor
  · intro t valid
    rw [myTimePackedToBinary_timeToLonglongTimePacked valid, myTimePackedFromBinary_timeDisk valid]
    refine ⟨?_, rfl, timeFromLonglongTimePacked_timeToLonglongTimePacked valid⟩
    simp only [MysqlTime.timeDisk, List.length_append, length_toBytes, myTimeBinaryLength]
  · intro t₁ t₂ valid₁ valid₂
    rw [myTimePackedToBinary_timeToLonglongTimePacked valid₁,
      myTimePackedToBinary_timeToLonglongTimePacked valid₂]
    exact memcmp_timeDisk valid₁ valid₂

/-- `-00:00:01.10` and `-00:00:01.01` at two digits, the last rows of the table
in `my_time_packed_from_binary`. -/
theorem myTimePackedBinary_orderEmbedding_negative :
    let t₁ : MysqlTime := ⟨0, 0, 0, 0, 0, 1, 100000, true, .time⟩
    let t₂ : MysqlTime := ⟨0, 0, 0, 0, 0, 1, 10000, true, .time⟩
    t₁.ValidTime 2 ∧ t₂.ValidTime 2 ∧
      myTimePackedFromBinary (myTimePackedToBinary (timeToLonglongTimePacked t₁) 2) 2 =
        timeToLonglongTimePacked t₁ ∧
      memcmp (myTimePackedToBinary (timeToLonglongTimePacked t₁) 2)
          (myTimePackedToBinary (timeToLonglongTimePacked t₂) 2) =
        compare (timeToLonglongTimePacked t₁) (timeToLonglongTimePacked t₂) :=
  ⟨by decide, by decide, ((myTimePackedBinary_orderEmbedding 2).1 _ (by decide)).2.1,
    (myTimePackedBinary_orderEmbedding 2).2 _ _ (by decide) (by decide)⟩

end MariaDB.Temporal
