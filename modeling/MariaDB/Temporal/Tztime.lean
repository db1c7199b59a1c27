import MariaDB.Temporal.Basic
import MariaDB.Search.Bisect

set_option autoImplicit false

/- The time zone descriptions of sql/tztime.cc and its two conversions, from a
`my_time_t` to local time (`gmt_sec_to_TIME`) and back (`TIME_to_gmt_sec`), in
the 64-bit configuration of include/my_time.h, where a `my_time_t` timestamp
lies in `[0, UINT_MAX32]`. `prepare_tz_info` turns the table of transitions
into a table of local-time ranges (`revts`, `revtis`), each with the offset
that maps it back to UTC, or marked as a spring time-gap; `TIME_to_gmt_sec`
searches that table. -/
namespace MariaDB.Temporal

/-! ## Limits of include/my_time.h and sql/tzfile.h -/

/-- `MY_TIME_T_MIN`. -/
def myTimeTMin : Int := 0

/-- `MY_TIME_T_MAX`: `UINT_MAX32`. -/
def myTimeTMax : Int := 4294967295

/-- `TIMESTAMP_MAX_YEAR`. -/
def timestampMaxYear : Nat := 2106

/-- `TIMESTAMP_MAX_MONTH`. -/
def timestampMaxMonth : Nat := 2

/-- `TIMESTAMP_MIN_VALUE`. -/
def timestampMinValue : Int := 0

/-- `TIMESTAMP_MAX_VALUE`. -/
def timestampMaxValue : Int := 4294967295

/-- `TIMESTAMP_MIN_YEAR`. -/
def timestampMinYear : Nat := 1900 + yyPartYear - 1

/-- `ER_WARN_DATA_OUT_OF_RANGE`. -/
def erWarnDataOutOfRange : Nat := 1264

/-- `ER_WARN_INVALID_TIMESTAMP`. -/
def erWarnInvalidTimestamp : Nat := 1299

/-- `TZ_MAX_TIMES`. -/
def tzMaxTimes : Nat := 370

/-- `TZ_MAX_LEAPS`. -/
def tzMaxLeaps : Nat := 50

/-- `TZ_MAX_REV_RANGES`. -/
def tzMaxRevRanges : Nat := tzMaxTimes + tzMaxLeaps + 2

/-- `SECS_PER_MIN`. -/
def secsPerMin : Int := 60

/-- `MINS_PER_HOUR`. -/
def minsPerHour : Int := 60

/-- `HOURS_PER_DAY`. -/
def hoursPerDay : Int := 24

/-- `DAYS_PER_NYEAR`. -/
def daysPerNyear : Int := 365

/-- `DAYS_PER_LYEAR`. -/
def daysPerLyear : Int := 366

/-- `SECS_PER_HOUR`. -/
def secsPerHour : Int := secsPerMin * minsPerHour

/-- `SECS_PER_DAY`. -/
def secsPerDay : Int := secsPerHour * hoursPerDay

/-- `EPOCH_YEAR`. -/
def epochYear : Int := 1970

/-- `isleap(y)`. -/
def isleap (y : Int) : Bool :=
  y.tmod 4 == 0 && (y.tmod 100 != 0 || y.tmod 400 == 0)

/-- `LEAPS_THRU_END_OF(y)`. -/
def leapsThruEndOf (y : Int) : Int := y.tdiv 4 - y.tdiv 100 + y.tdiv 400

/-- `mon_lengths[leap]`. -/
def monLengths (leap : Bool) : List Int :=
  if leap then [31, 29, 31, 30, 31, 30, 31, 31, 30, 31, 30, 31]
  else [31, 28, 31, 30, 31, 30, 31, 31, 30, 31, 30, 31]

/-- `mon_starts[leap]`. -/
def monStarts (leap : Bool) : List Int :=
  if leap then [0, 31, 60, 91, 121, 152, 182, 213, 244, 274, 305, 335]
  else [0, 31, 59, 90, 120, 151, 181, 212, 243, 273, 304, 334]

/-- `year_lengths[leap]`. -/
def yearLengths (leap : Bool) : Int := if leap then daysPerLyear else daysPerNyear

/-- The conversion of an `int` to a `uint` field of `MYSQL_TIME`. -/
def toUint (x : Int) : Nat := (x % 4294967296).toNat

/-- `validate_timestamp_range(t)`. -/
def validateTimestampRange (t : MysqlTime) : Bool :=
  !((t.year > timestampMaxYear || t.year < timestampMinYear) ||
    (t.year == timestampMinYear && (t.month < 12 || t.day < 31)))

/-! ## Time zone descriptions -/

/-- `TRAN_TYPE_INFO`, a local time type; its abbreviation is left out. -/
structure TranTypeInfo where
  ttGmtoff : Int
  ttIsdst : Nat
  deriving Repr, DecidableEq, Inhabited

/-- `LS_INFO`, a leap second correction. -/
structure LsInfo where
  lsTrans : Int
  lsCorr : Int
  deriving Repr, DecidableEq, Inhabited

/-- `REVT_INFO`, a range of local time: its offset from UTC, and `rtType` 1
for a spring time-gap. -/
structure RevtInfo where
  rtOffset : Int
  rtType : Nat
  deriving Repr, DecidableEq, Inhabited

/-- The fields of `TIME_ZONE_INFO` that loading a zone fills in: the
transition times `ats` with the local time types `types` they switch to (as
indices into `ttis`), and the leap second corrections `lsis`. `timecnt`,
`typecnt` and `leapcnt` are the lengths of the lists. -/
structure TzDescription where
  ats : List Int
  types : List Nat
  ttis : List TranTypeInfo
  lsis : List LsInfo
  deriving Repr, DecidableEq

/-- `TIME_ZONE_INFO` after `prepare_tz_info`: the start of each local-time
range in `revts`, one more than `revtis` (`revcnt`) to close the last one, and
the fallback time type. -/
structure TimeZoneInfo extends TzDescription where
  revts : List Int
  revtis : List RevtInfo
  fallbackTti : TranTypeInfo
  deriving Repr, DecidableEq

/-! ## `prepare_tz_info` -/

/-- The locals of the loop of `prepare_tz_info`, with the tables it builds. -/
structure PrepareState where
  curT : Int
  curOffset : Int
  curCorr : Int
  nextTransIdx : Nat
  nextLeapIdx : Nat
  curMaxSeenL : Int
  endL : Int
  revts : List Int
  revtis : List RevtInfo
  deriving Repr, DecidableEq

/-- The index of the fallback time type: the first type that is not DST, or
the first type. -/
def fallbackIdx (ttis : List TranTypeInfo) : Nat :=
  let i := ttis.findIdx fun tt => tt.ttIsdst == 0
  if i = ttis.length then 0 else i

/-- The locals of `prepare_tz_info` before its loop: the offset and the leap
correction in force at `MY_TIME_T_MIN`. -/
def prepareStart (sp : TzDescription) : PrepareState :=
  let curT := myTimeTMin
  let (i, nextTransIdx) :=
    if sp.ats.length = 0 ∨ curT < sp.ats.getD 0 0 then (fallbackIdx sp.ttis, 0)
    else (sp.types.getD 0 0, 1)
  let nextLeapIdx := (sp.lsis.takeWhile fun ls => decide (curT ≥ ls.lsTrans)).length
  let curCorr := if 0 < nextLeapIdx then (sp.lsis.getD (nextLeapIdx - 1) default).lsCorr else 0
  { curT, curOffset := (sp.ttis.getD i default).ttGmtoff, curCorr, nextTransIdx, nextLeapIdx,
    curMaxSeenL := myTimeTMin, endL := 0, revts := [], revtis := [] }

/-- The recording of the local times `[cur_l, end_l]` of one range of `t`:
the tables, the new `cur_max_seen_l`, and `true` when a gap range filled the
tables ("That was too much"). -/
def prepareRecord (revts : List Int) (revtis : List RevtInfo) (curMaxSeenL curL endL curOffAndCorr : Int) :
    List Int × List RevtInfo × Int × Bool :=
  if endL > curMaxSeenL then
    if curMaxSeenL = myTimeTMin then
      (revts ++ [curL], revtis ++ [⟨curOffAndCorr, 0⟩], endL, false)
    else if curL > curMaxSeenL + 1 then
      -- a spring time-gap, mapped with the offset of the range before it
      let revts := revts ++ [curMaxSeenL + 1]
      let revtis := revtis ++ [⟨(revtis.getLastD default).rtOffset, 1⟩]
      if revtis.length = tzMaxTimes + tzMaxLeaps + 1 then (revts, revtis, curMaxSeenL, true)
      else (revts ++ [curL], revtis ++ [⟨curOffAndCorr, 0⟩], endL, false)
    else (revts ++ [curMaxSeenL + 1], revtis ++ [⟨curOffAndCorr, 0⟩], endL, false)
  else (revts, revtis, curMaxSeenL, false)

/-- `end_t`: the last `t` before the next transition or leap correction,
lowered so that `end_t + cur_off_and_corr` stays a `my_time_t`. -/
def prepareEndT (sp : TzDescription) (st : PrepareState) (curOffAndCorr : Int) : Int :=
  let endT := min
    (if st.nextTransIdx < sp.ats.length then sp.ats.getD st.nextTransIdx 0 - 1 else myTimeTMax)
    (if st.nextLeapIdx < sp.lsis.length then (sp.lsis.getD st.nextLeapIdx default).lsTrans - 1
      else myTimeTMax)
  if curOffAndCorr > 0 ∧ endT > myTimeTMax - curOffAndCorr then myTimeTMax - curOffAndCorr
  else endT

/-- The offset and the correction from the new `cur_t` on, which is a
transition, a leap correction, or both. -/
def prepareAdvance (sp : TzDescription) (st : PrepareState) : PrepareState :=
  let st :=
    if sp.ats.length ≠ 0 ∧ st.curT ≥ sp.ats.getD 0 0 ∧ st.nextTransIdx < sp.ats.length ∧
        st.curT = sp.ats.getD st.nextTransIdx 0 then
      { st with curOffset := (sp.ttis.getD (sp.types.getD st.nextTransIdx 0) default).ttGmtoff,
                nextTransIdx := st.nextTransIdx + 1 }
    else st
  if st.nextLeapIdx < sp.lsis.length ∧ st.curT = (sp.lsis.getD st.nextLeapIdx default).lsTrans then
    { st with curCorr := (sp.lsis.getD st.nextLeapIdx default).lsCorr,
              nextLeapIdx := st.nextLeapIdx + 1 }
  else st

/-- One pass of the loop of `prepare_tz_info` over the range of `t` with one
offset and correction; `true` when the loop breaks. -/
def prepareStep (sp : TzDescription) (st : PrepareState) : PrepareState × Bool :=
  let curOffAndCorr := st.curOffset - st.curCorr
  let curT :=
    if curOffAndCorr < 0 ∧ st.curT < myTimeTMin - curOffAndCorr then myTimeTMin - curOffAndCorr
    else st.curT
  let curL := curT + curOffAndCorr
  let endT := prepareEndT sp st curOffAndCorr
  let endL := endT + curOffAndCorr
  let (revts, revtis, curMaxSeenL, tooMuch) :=
    prepareRecord st.revts st.revtis st.curMaxSeenL curL endL curOffAndCorr
  let st := { st with curT, endL, revts, revtis, curMaxSeenL }
  if tooMuch then (st, true)
  else if endT = myTimeTMax ∨ (curOffAndCorr > 0 ∧ endT ≥ myTimeTMax - curOffAndCorr) then (st, true)
  else (prepareAdvance sp { st with curT := endT + 1 }, false)

/-- The loop of `prepare_tz_info`. -/
def prepareLoop (sp : TzDescription) : Nat → PrepareState → Option PrepareState
  | 0, _ => none
  | fuel + 1, st =>
    if st.revtis.length < tzMaxRevRanges - 1 then
      match prepareStep sp st with
      | (st, true) => some st
      | (st, false) => prepareLoop sp fuel st
    else some st

/-- `prepare_tz_info(sp)`: the description with its fallback type and reverse
tables, or `none` where the tables overflow and the function returns 1. Each
pass of the loop but the last moves `cur_t` to the next transition or leap
correction, so their number bounds the passes. -/
def prepareTzInfo (sp : TzDescription) : Option TimeZoneInfo :=
  match prepareLoop sp (sp.ats.length + sp.lsis.length + 1) (prepareStart sp) with
  | none => none
  | some st =>
    if st.revtis.length = tzMaxRevRanges - 1 then none
    else some { toTzDescription := sp, revts := st.revts ++ [st.endL], revtis := st.revtis,
                fallbackTti := sp.ttis.getD (fallbackIdx sp.ttis) default }

/-! ## From `my_time_t` to local time -/

/-- `find_time_range(t, range_boundaries, higher_bound)`: the binary search for
the last range that starts at or before `t`. -/
def findTimeRange (t : Int) (rangeBoundaries : List Int) (higherBound : Nat) : Nat :=
  Bisect.loop (fun i => decide (rangeBoundaries.getD i 0 ≤ t)) higherBound 0 higherBound

theorem findTimeRange_def (t : Int) (rangeBoundaries : List Int) (higherBound : Nat) :
    findTimeRange t rangeBoundaries higherBound =
      Bisect.loop (fun i => decide (rangeBoundaries.getD i 0 ≤ t)) higherBound 0 higherBound := rfl

/-- `find_transition_type(t, sp)`. -/
def findTransitionType (t : Int) (sp : TimeZoneInfo) : TranTypeInfo :=
  if sp.ats.length = 0 ∨ t < sp.ats.getD 0 0 then sp.fallbackTti
  else sp.ttis.getD (sp.types.getD (findTimeRange t sp.ats sp.ats.length) 0) default

/-- `while (rem < 0) { rem+= SECS_PER_DAY; days--; }` of `sec_to_TIME`. -/
def secToTimeRaise : Nat → Int × Int → Int × Int
  | 0, dr => dr
  | fuel + 1, (days, rem) =>
    if rem < 0 then secToTimeRaise fuel (days - 1, rem + secsPerDay) else (days, rem)

/-- `while (rem >= SECS_PER_DAY) { rem-= SECS_PER_DAY; days++; }` of `sec_to_TIME`. -/
def secToTimeLower : Nat → Int × Int → Int × Int
  | 0, dr => dr
  | fuel + 1, (days, rem) =>
    if rem ≥ secsPerDay then secToTimeLower fuel (days + 1, rem - secsPerDay) else (days, rem)

/-- The year loop of `sec_to_TIME`: the year, and the day in it. -/
def secToTimeYears : Nat → Int → Int → Option (Int × Int)
  | 0, _, _ => none
  | fuel + 1, y, days =>
    if days < 0 ∨ days ≥ yearLengths (isleap y) then
      let newy := y + days.tdiv daysPerNyear - (if days < 0 then 1 else 0)
      secToTimeYears fuel newy
        (days - ((newy - y) * daysPerNyear + leapsThruEndOf (newy - 1) - leapsThruEndOf (y - 1)))
    else some (y, days)

/-- The month loop of `sec_to_TIME`: the month counted from 0, and the day in
it. Past the table C reads on; a day of the year never gets there. -/
def secToTimeMonths : List Int → Nat → Int → Nat × Int
  | [], month, days => (month, days)
  | l :: ls, month, days =>
    if days ≥ l then secToTimeMonths ls (month + 1) (days - l) else (month, days)

/-- `sec_to_TIME(tmp, t, offset)`. `rem` bounds both day loops; the year loop
moves by whole years and needs a few passes. -/
def secToTime (t offset : Int) : Option MysqlTime :=
  let days := t.tdiv secsPerDay
  let rem := t.tmod secsPerDay + offset
  let (days, rem) := secToTimeRaise rem.natAbs (days, rem)
  let (days, rem) := secToTimeLower rem.natAbs (days, rem)
  (secToTimeYears (days.natAbs + 2) epochYear days).map fun (y, days) =>
    let (month, days) := secToTimeMonths (monLengths (isleap y)) 0 days
    { year := toUint y, month := month + 1, day := (days + 1).toNat,
      hour := (rem.tdiv secsPerHour).toNat,
      minute := ((rem.tmod secsPerHour).tdiv secsPerMin).toNat,
      second := ((rem.tmod secsPerHour).tmod secsPerMin).toNat,
      secondPart := 0, neg := false, timeType := .datetime }

/-- The length of the run of one-second corrections, each one second after
the one before, that ends at index `i`. -/
def leapHitRun (lsis : List LsInfo) : Nat → Nat
  | 0 => 0
  | i + 1 =>
    if (lsis.getD (i + 1) default).lsTrans = (lsis.getD i default).lsTrans + 1 ∧
        (lsis.getD (i + 1) default).lsCorr = (lsis.getD i default).lsCorr + 1 then
      leapHitRun lsis i + 1
    else 0

/-- The leap correction loop of `gmt_sec_to_TIME` over the corrections below
index `i`, from the last down: the correction `corr` and the extra seconds
`hit`. At index 0 with a correction that is not positive C reads
`lsis[-1]`; here it reads `lsis[0]`. -/
def gmtSecLeapCorr (lsis : List LsInfo) (secInUtc : Int) : Nat → Int × Nat
  | 0 => (0, 0)
  | i + 1 =>
    let lp := lsis.getD i default
    if secInUtc ≥ lp.lsTrans then
      let hit :=
        if secInUtc = lp.lsTrans ∧
            ((i = 0 ∧ lp.lsCorr > 0) ∨ lp.lsCorr > (lsis.getD (i - 1) default).lsCorr) then
          leapHitRun lsis i + 1
        else 0
      (lp.lsCorr, hit)
    else gmtSecLeapCorr lsis secInUtc i

/-- `gmt_sec_to_TIME(tmp, sec_in_utc, sp)`. -/
def gmtSecToTime (secInUtc : Int) (sp : TimeZoneInfo) : Option MysqlTime :=
  let ttisp := findTransitionType secInUtc sp
  let (corr, hit) := gmtSecLeapCorr sp.lsis secInUtc sp.lsis.length
  (secToTime secInUtc (ttisp.ttGmtoff - corr)).map fun tmp => { tmp with second := tmp.second + hit }

/-! ## From local time to `my_time_t` -/

/-- `sec_since_epoch(year, mon, mday, hour, min, sec)`. -/
def secSinceEpoch (year mon mday hour min sec : Int) : Int :=
  let days := year * daysPerNyear - epochYear * daysPerNyear +
    leapsThruEndOf (year - 1) - leapsThruEndOf (epochYear - 1)
  let days := days + (monStarts (isleap year)).getD (mon - 1).toNat 0
  let days := days + mday - 1
  ((days * hoursPerDay + hour) * minsPerHour + min) * secsPerMin + sec

/-- The end of `TIME_to_gmt_sec` once `local_t` is known to lie in range `i`
of the reverse table: the `my_time_t` and the error code. -/
def timeToGmtSecInRange (sp : TimeZoneInfo) (localT : Int) (shift savedSeconds i : Nat) :
    Int × Nat :=
  let ri := sp.revtis.getD i default
  if shift ≠ 0 ∧ localT > timestampMaxValue - shift * secsPerDay + ri.rtOffset - savedSeconds then
    (0, erWarnDataOutOfRange)
  else
    let localT := localT + shift * secsPerDay
    -- in a spring time-gap the answer is the start of the gap
    let (localT, errorCode) :=
      if ri.rtType ≠ 0 then (sp.revts.getD i 0 - ri.rtOffset + savedSeconds, erWarnInvalidTimestamp)
      else (localT - ri.rtOffset + savedSeconds, 0)
    if localT < timestampMinValue ∨ localT > timestampMaxValue then (0, erWarnDataOutOfRange)
    else (localT, errorCode)

/-- `TIME_to_gmt_sec(t, sp, &error_code)`: the `my_time_t` and the error code.
Near `TIMESTAMP_MAX_VALUE` the date is shifted back two days and forward again
after the search. -/
def timeToGmtSec (t : MysqlTime) (sp : TimeZoneInfo) : Int × Nat :=
  if !validateTimestampRange t then (0, erWarnDataOutOfRange)
  else
    let savedSeconds := if t.second < 60 then 0 else t.second
    let shift := if t.year = timestampMaxYear ∧ t.month = timestampMaxMonth ∧ t.day > 2 then 2 else 0
    let localT := secSinceEpoch t.year t.month (t.day - shift : Nat) t.hour t.minute
      (if savedSeconds ≠ 0 then 0 else t.second)
    if localT < sp.revts.getD 0 0 ∨ localT > sp.revts.getD sp.revtis.length 0 then
      (0, erWarnDataOutOfRange)
    else timeToGmtSecInRange sp localT shift savedSeconds (findTimeRange localT sp.revts sp.revtis.length)

/-! ## Zones behind UTC -/

/-- A zone with the one local time type `off` and no transitions or leap
seconds. -/
def fixedOffsetZone (off : Int) : TzDescription :=
  { ats := [], types := [], ttis := [⟨off, 0⟩], lsis := [] }

/-- Five hours behind UTC: the first instant of `my_time_t` is
1969-12-31 19:00:00 there. `prepare_tz_info` starts its reverse table at local
time `MY_TIME_T_MIN`, midnight of 1970-01-01, so `TIME_to_gmt_sec` turns the
local time of the instant 1 away as out of range. -/
theorem timeToGmtSec_gmtSecToTime_before_epoch :
    prepareTzInfo (fixedOffsetZone (-18000)) =
        some { toTzDescription := fixedOffsetZone (-18000), revts := [0, 4294949295],
               revtis := [⟨-18000, 0⟩], fallbackTti := ⟨-18000, 0⟩ } ∧
      gmtSecToTime 0
          { toTzDescription := fixedOffsetZone (-18000), revts := [0, 4294949295],
            revtis := [⟨-18000, 0⟩], fallbackTti := ⟨-18000, 0⟩ } =
        some ⟨1969, 12, 31, 19, 0, 0, 0, false, .datetime⟩ ∧
      gmtSecToTime 1
          { toTzDescription := fixedOffsetZone (-18000), revts := [0, 4294949295],
            revtis := [⟨-18000, 0⟩], fallbackTti := ⟨-18000, 0⟩ } =
        some ⟨1969, 12, 31, 19, 0, 1, 0, false, .datetime⟩ ∧
      validateTimestampRange ⟨1969, 12, 31, 19, 0, 1, 0, false, .datetime⟩ = true ∧
      timeToGmtSec ⟨1969, 12, 31, 19, 0, 1, 0, false, .datetime⟩
          { toTzDescription := fixedOffsetZone (-18000), revts := [0, 4294949295],
            revtis := [⟨-18000, 0⟩], fallbackTti := ⟨-18000, 0⟩ } =
        (0, erWarnDataOutOfRange) := by
  refine ⟨?_, ?_, ?_, ?_, ?_⟩ <;> decide

end MariaDB.Temporal
