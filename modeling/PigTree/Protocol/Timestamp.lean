import PigTree.Foundation.Calendar
import PigTree.Foundation.Decimal

/-!
# Timestamps

`format_utc_iso`: an instant as a UTC date and time. The civil date is computed
in `u32` from the day of its 400-year era, with years counted from March; an
operation that leaves the range of `u32` is `none`.
-/

namespace PigTree.Timestamp

open Finset Foundation.Calendar Foundation.Decimal

/-! ### Instants -/

/-- An instant, in nanoseconds from the Unix epoch. -/
structure SystemTime where
  nanos : ℤ
deriving DecidableEq, Repr

structure Duration where
  secs : ℕ
  nanos : ℕ
deriving DecidableEq, Repr, Inhabited

def SystemTime.durationSinceEpoch (time : SystemTime) : Option Duration :=
  if 0 ≤ time.nanos then some ⟨time.nanos.toNat / 10 ^ 9, time.nanos.toNat % 10 ^ 9⟩ else none

def Duration.subsecMillis (dur : Duration) : ℕ := dur.nanos / 10 ^ 6

/-! ### The civil date -/

def u32 (value : ℕ) : Option ℕ := if value < 2 ^ 32 then some value else none

def u32Sub (value subtrahend : ℕ) : Option ℕ :=
  if subtrahend ≤ value then some (value - subtrahend) else none

def monthOf (mp : ℕ) : Option ℕ := if mp < 10 then u32 (mp + 3) else u32Sub mp 9

/-- The year of the era, the day of the year and the month, years and months from March. -/
def yearAndDay (doe : ℕ) : Option (ℕ × ℕ × ℕ) := do
  let days ← u32Sub doe (doe / 1460)
  let days ← u32 (days + doe / 36524)
  let days ← u32Sub days (doe / 146096)
  let yoe := days / 365
  let passed ← u32 (365 * yoe + yoe / 4)
  let passed ← u32Sub passed (yoe / 100)
  let doy ← u32Sub doe passed
  let mp ← u32 (5 * doy + 2)
  return (yoe, doy, mp / 153)

/-- Year, month and day of a day counted from the Unix epoch. -/
def civilOfDays (days : ℕ) : Option (ℤ × ℕ × ℕ) := do
  let z : ℤ := days + 719468
  let era := (if z ≥ 0 then z else z - 146096).tdiv 146097
  let doe := ((z - era * 146097) % 2 ^ 32).toNat
  let (yoe, doy, mp) ← yearAndDay doe
  let y := yoe + era * 400
  let start ← u32 (153 * mp + 2)
  let d ← u32Sub doy (start / 5)
  let d ← u32 (d + 1)
  let m ← monthOf mp
  return (if m ≤ 2 then y + 1 else y, m, d)

/-! ### Formatting -/

/-- `{:0width}` of an integer; a sign counts towards the width. -/
def paddedInt (width : ℕ) (value : ℤ) : List Char :=
  if value < 0 then '-' :: zeroPadded (width - 1) value.natAbs else zeroPadded width value.toNat

def formatUtcIso (time : SystemTime) : Option String := do
  let dur := time.durationSinceEpoch.getD default
  let totalSecs := dur.secs
  let millis := dur.subsecMillis
  let days := totalSecs / 86400
  let secondsOfDay := totalSecs % 86400
  let hours := secondsOfDay / 3600
  let minutes := secondsOfDay % 3600 / 60
  let seconds := secondsOfDay % 60
  let (y, m, d) ← civilOfDays days
  return String.ofList
    (paddedInt 4 y ++ '-' :: zeroPadded 2 m ++ '-' :: zeroPadded 2 d ++ 'T' :: zeroPadded 2 hours
      ++ ':' :: zeroPadded 2 minutes ++ ':' :: zeroPadded 2 seconds ++ '.' :: zeroPadded 3 millis
      ++ ['Z'])

/-! ### The civil date is right -/

theorem u32_eq (value : ℕ) (fits : value < 2 ^ 32) : u32 value = some value := if_pos fits

theorem u32Sub_eq (value subtrahend : ℕ) (covered : subtrahend ≤ value) :
    u32Sub value subtrahend = some (value - subtrahend) := if_pos covered

/-- The year of the era, as computed from its day. -/
def yearOfEra (doe : ℕ) : ℕ := (doe - doe / 1460 + doe / 36524 - doe / 146096) / 365

/-- Except on its last day the era is in the century of its 36524 days. -/
theorem yearOfEra_century {doe : ℕ} (within : doe < 146096) :
    doe / 146096 = 0 ∧ doe / 36524 < 4 ∧ yearOfEra doe / 100 = doe / 36524 := by
  have last : doe / 146096 = 0 := Nat.div_eq_of_lt within
  have century : doe / 36524 < 4 := by omega
  refine ⟨last, century, ?_⟩
  unfold yearOfEra
  rw [last]
  generalize quotientIs : doe / 36524 = quotient at *
  match quotient, century with
  | 0, _ | 1, _ | 2, _ | 3, _ => omega

theorem isLeap_succ (year : ℕ) :
    IsLeap (year + 1) ↔ year % 4 = 3 ∧ (year % 100 ≠ 99 ∨ year % 400 = 399) := by
  unfold IsLeap
  omega

/-- The day lies in the year that is computed from it. -/
theorem yearOfEra_spec {doe : ℕ} (within : doe < 146097) :
    yearOfEra doe < 400 ∧ marchDays (yearOfEra doe) ≤ doe
      ∧ doe - marchDays (yearOfEra doe)
        < 365 + if IsLeap (yearOfEra doe + 1) then 1 else 0 := by
  rcases Nat.lt_or_ge doe 146096 with early | late
  · rcases yearOfEra_century early with ⟨last, century, same⟩
    have computed : yearOfEra doe = (doe - doe / 1460 + doe / 36524) / 365 := by
      simp only [yearOfEra, last, Nat.sub_zero]
    simp only [isLeap_succ, marchDays, same]
    generalize yearOfEra doe = year at *
    generalize quotientIs : doe / 36524 = quotient at *
    match quotient, century with
    | 0, _ | 1, _ | 2, _ | 3, _ =>
        refine ⟨by omega, by omega, ?_⟩
        split <;> omega
  · have last : doe = 146096 := by omega
    subst last
    decide

/-- No step underflows. -/
theorem yearAndDay_eq {doe : ℕ} (within : doe < 146097) :
    yearAndDay doe = some (yearOfEra doe, doe - marchDays (yearOfEra doe),
      marchMonthOf (doe - marchDays (yearOfEra doe))) := by
  rcases yearOfEra_spec within with ⟨year, passed, _⟩
  have fourth := u32Sub_eq doe (doe / 1460) (Nat.div_le_self _ _)
  have century := u32_eq (doe - doe / 1460 + doe / 36524) (by omega)
  have era := u32Sub_eq (doe - doe / 1460 + doe / 36524) (doe / 146096) (by omega)
  have yoe : (doe - doe / 1460 + doe / 36524 - doe / 146096) / 365 = yearOfEra doe := rfl
  have leapDays := u32_eq (365 * yearOfEra doe + yearOfEra doe / 4) (by omega)
  have start : u32Sub (365 * yearOfEra doe + yearOfEra doe / 4) (yearOfEra doe / 100)
      = some (marchDays (yearOfEra doe)) := u32Sub_eq _ _ (by omega)
  have doy := u32Sub_eq _ _ passed
  have month := u32_eq (5 * (doe - marchDays (yearOfEra doe)) + 2) (by omega)
  simp only [yearAndDay, Option.bind_eq_bind, Option.bind_some, Option.pure_def, fourth, century,
    era, yoe, leapDays, start, doy, month]
  rfl

theorem isLeap_add_era (year era : ℕ) : IsLeap (year + era * 400) ↔ IsLeap year := by
  unfold IsLeap
  omega

/-- The days before the March of a year of an era. -/
theorem sum_daysInYear_era {year era : ℕ} (within : year < 400) :
    ∑ passed ∈ range (year + era * 400 + 1), daysInYear passed
      = era * 146097 + marchDays year + 366 := by
  have closed := sum_daysInYear (year + era * 400 + 1)
  unfold marchDays
  omega

theorem sum_daysInYear_1970 : ∑ passed ∈ range 1970, daysInYear passed = 719528 := by
  have closed := sum_daysInYear 1970
  omega

/-- The days of the years before 1970 show that a date is not before it. -/
theorem epoch_le_year {date : Date} (after : 719528 ≤ date.daysSince 0) : 1970 ≤ date.year := by
  have within := dayOfYear_lt date
  have closed := sum_daysInYear (date.year + 1)
  rw [Date.daysSince, Nat.Ico_zero_eq_range] at after
  rw [sum_range_succ] at closed
  omega

theorem monthOf_eq {mp : ℕ} (month : mp < 12) : monthOf mp = some (marchMonth mp) := by
  unfold monthOf marchMonth
  split
  · exact u32_eq _ (by omega)
  · exact u32Sub_eq _ _ (by omega)

theorem marchMonth_le_two {mp : ℕ} (month : mp < 12) (year : ℤ) :
    (if marchMonth mp ≤ 2 then year + 1 else year) = if mp < 10 then year else year + 1 := by
  unfold marchMonth
  split <;> split <;> omega

/-- The civil date of a day of an era is read off its March-based year. -/
theorem civilOfDays_of_era {days era doe : ℕ} (split : days + 719468 = era * 146097 + doe)
    (within : doe < 146097)
    (day : doe - marchDays (yearOfEra doe)
      < 365 + if IsLeap (yearOfEra doe + era * 400 + 1) then 1 else 0) :
    civilOfDays days = some (((marchDate _ _ day).year : ℤ), (marchDate _ _ day).month,
      (marchDate _ _ day).day) := by
  have eraIs : (if (days : ℤ) + 719468 ≥ 0 then (days : ℤ) + 719468
      else (days : ℤ) + 719468 - 146096).tdiv 146097 = era := by
    rw [if_pos (by omega), Int.tdiv_eq_ediv_of_nonneg (by omega)]
    omega
  have doeIs : (((days : ℤ) + 719468 - era * 146097) % 2 ^ 32).toNat = doe := by omega
  have ofEra := yearAndDay_eq within
  simp only [marchDate]
  generalize doe - marchDays (yearOfEra doe) = doy at *
  have month := marchMonthOf_lt day
  have start := (marchMonthOf_spec doy).1
  have product := u32_eq (153 * marchMonthOf doy + 2) (by omega)
  have fromStart : u32Sub doy ((153 * marchMonthOf doy + 2) / 5)
      = some (doy - marchMonthStart (marchMonthOf doy)) := u32Sub_eq _ _ start
  have short : doy < 2 ^ 32 - 1 := by split at day <;> omega
  have next := u32_eq (doy - marchMonthStart (marchMonthOf doy) + 1) (by omega)
  simp only [civilOfDays, Option.bind_eq_bind, Option.bind_some, Option.pure_def, eraIs, doeIs,
    ofEra, product, fromStart, next, monthOf_eq month, marchMonth_le_two month,
    marchYear]
  split <;> simp

/-- Every day has its date, and no step of finding it underflows. -/
theorem civilOfDays_eq (days : ℕ) :
    ∃ date : Date, civilOfDays days = some ((date.year : ℤ), date.month, date.day)
      ∧ 1970 ≤ date.year ∧ date.daysSince 1970 = days := by
  have within : (days + 719468) % 146097 < 146097 := Nat.mod_lt _ (by decide)
  rcases yearOfEra_spec within with ⟨year, passed, day⟩
  generalize eraIs : (days + 719468) / 146097 = era
  generalize doeIs : (days + 719468) % 146097 = doe at *
  have split : days + 719468 = era * 146097 + doe := by omega
  have day' : doe - marchDays (yearOfEra doe)
      < 365 + if IsLeap (yearOfEra doe + era * 400 + 1) then 1 else 0 := by
    have same := isLeap_add_era (yearOfEra doe + 1) era
    rw [show yearOfEra doe + era * 400 + 1 = yearOfEra doe + 1 + era * 400 by omega]
    simpa only [same] using day
  have count := daysSince_marchDate day'
  rw [sum_daysInYear_era year] at count
  have since : (marchDate _ _ day').daysSince 0 = days + 719528 := by omega
  have later : 1970 ≤ (marchDate _ _ day').year := epoch_le_year (by omega)
  refine ⟨marchDate _ _ day', ?_, later, ?_⟩
  · exact civilOfDays_of_era split within day'
  · have fromZero := daysSince_zero_eq later
    rw [sum_daysInYear_1970] at fromZero
    omega

/-! ### The text is right -/

/-- `YYYY-MM-DDThh:mm:ss.mmmZ`. -/
def isoLayout : List (ℕ × Char) :=
  [(4, '-'), (2, '-'), (2, 'T'), (2, ':'), (2, ':'), (2, '.'), (3, 'Z')]

/-- The instant a year of the calendar begins, in nanoseconds. -/
def startOfYear (year : ℕ) : ℤ :=
  ((∑ passed ∈ Ico 1970 year, daysInYear passed : ℕ) : ℤ) * 86400 * 10 ^ 9

/-- A date and a time of day to the millisecond. -/
structure Reading where
  date : Date
  hours : ℕ
  minutes : ℕ
  seconds : ℕ
  millis : ℕ
  hours_lt : hours < 24
  minutes_lt : minutes < 60
  seconds_lt : seconds < 60
  millis_lt : millis < 1000

namespace Reading

/-- Milliseconds since the Unix epoch. -/
def sinceEpoch (reading : Reading) : ℕ :=
  (((reading.date.daysSince 1970 * 24 + reading.hours) * 60 + reading.minutes) * 60
    + reading.seconds) * 1000 + reading.millis

def values (reading : Reading) : List ℕ :=
  [reading.date.year, reading.date.month, reading.date.day, reading.hours, reading.minutes,
    reading.seconds, reading.millis]

/-- The reading is the date and time of the instant, to the millisecond below. -/
structure IsOf (reading : Reading) (time : SystemTime) : Prop where
  days : (reading.date.daysSince 1970 : ℤ) = time.nanos / 10 ^ 9 / 86400
  millis : (reading.sinceEpoch : ℤ) = time.nanos / 10 ^ 6
  epoch_le : 1970 ≤ reading.date.year
  year_lt : reading.date.year < 10000

/-- The values of a reading fit their widths. -/
theorem fits (reading : Reading) (year : reading.date.year < 10000) :
    Fits isoLayout reading.values := by
  have month := reading.date.month_le
  have day : reading.date.day ≤ 31 := by
    apply reading.date.day_le.trans
    unfold daysInMonth
    split_ifs <;> decide
  have hours := reading.hours_lt
  have minutes := reading.minutes_lt
  have seconds := reading.seconds_lt
  have millis := reading.millis_lt
  simp only [Fits, isoLayout, values, List.forall₂_cons, List.forall₂_nil_left_iff]
  refine ⟨?_, ?_, ?_, ?_, ?_, ?_, ?_, trivial⟩ <;> omega

/-- Readings are ordered as their instants are. -/
theorem values_le {first second : Reading} (after : 1970 ≤ second.date.year)
    (ordered : first.sinceEpoch ≤ second.sinceEpoch) : first.values ≤ second.values := by
  have hours := first.hours_lt
  have hours' := second.hours_lt
  have minutes := first.minutes_lt
  have minutes' := second.minutes_lt
  have seconds := first.seconds_lt
  have seconds' := second.seconds_lt
  have millis := first.millis_lt
  have millis' := second.millis_lt
  unfold sinceEpoch at ordered
  apply not_lt.mp
  intro less
  simp only [values, List.cons_lt_cons_iff, List.not_lt_nil, and_false, or_false] at less
  have sameDays : first.date.year = second.date.year → first.date.month = second.date.month →
      first.date.day = second.date.day →
      first.date.daysSince 1970 = second.date.daysSince 1970 := by
    intro year month day
    simp only [Date.daysSince, Date.dayOfYear, year, month, day]
  have laterDays := daysSince_lt second.date first.date after
  omega

end Reading

theorem paddedInt_eq {width value : ℕ} (wide : 0 < width) (small : value < 10 ^ width) :
    paddedInt width value = digits width value := by
  have positive : ¬ ((value : ℤ) < 0) := by omega
  rw [paddedInt, if_neg positive, Int.toNat_natCast, zeroPadded_eq_digits wide small]

/-- An instant before the year 10000 is written as the values of its reading. -/
theorem formatUtcIso_eq {time : SystemTime} (afterEpoch : 0 ≤ time.nanos)
    (before : time.nanos < startOfYear 10000) :
    ∃ reading : Reading, reading.IsOf time
      ∧ formatUtcIso time = some (String.ofList (fields isoLayout reading.values)) := by
  obtain ⟨nanos, nanosIs⟩ : ∃ nanos : ℕ, time.nanos = nanos :=
    ⟨_, (Int.toNat_of_nonneg afterEpoch).symm⟩
  have secs : time.durationSinceEpoch = some ⟨nanos / 10 ^ 9, nanos % 10 ^ 9⟩ := by
    simp [SystemTime.durationSinceEpoch, nanosIs]
  rcases civilOfDays_eq (nanos / 10 ^ 9 / 86400) with ⟨date, civil, epoch, since⟩
  have year : date.year < 10000 := by
    by_contra late
    have years : ∑ passed ∈ Ico 1970 10000, daysInYear passed
        ≤ ∑ passed ∈ Ico 1970 date.year, daysInYear passed := by
      apply sum_le_sum_of_subset
      apply Ico_subset_Ico_right
      omega
    rw [Date.daysSince] at since
    unfold startOfYear at before
    omega
  let reading : Reading :=
    { date
      hours := nanos / 10 ^ 9 % 86400 / 3600
      minutes := nanos / 10 ^ 9 % 86400 % 3600 / 60
      seconds := nanos / 10 ^ 9 % 86400 % 60
      millis := nanos % 10 ^ 9 / 10 ^ 6
      hours_lt := by omega
      minutes_lt := by omega
      seconds_lt := by omega
      millis_lt := by omega }
  refine ⟨reading, ⟨?_, ?_, epoch, year⟩, ?_⟩
  · rw [nanosIs]
    simp only [reading]
    omega
  · rw [nanosIs]
    simp only [reading, Reading.sinceEpoch]
    omega
  · have fits := reading.fits year
    simp only [Fits, isoLayout, Reading.values, List.forall₂_cons] at fits
    rcases fits with ⟨yearFits, monthFits, dayFits, hoursFit, minutesFit, secondsFit, millisFit, _⟩
    simp only [reading] at *
    simp only [formatUtcIso, secs, Option.getD_some, civil, Option.bind_eq_bind, Option.bind_some,
      Option.pure_def, Duration.subsecMillis, paddedInt_eq (by decide) yearFits,
      zeroPadded_eq_digits (by decide) monthFits, zeroPadded_eq_digits (by decide) dayFits,
      zeroPadded_eq_digits (by decide) hoursFit, zeroPadded_eq_digits (by decide) minutesFit,
      zeroPadded_eq_digits (by decide) secondsFit, zeroPadded_eq_digits (by decide) millisFit,
      fields, isoLayout, Reading.values]
    simp only [List.append_assoc, List.cons_append]

/-- Timestamps are right: instants from the epoch to the year 10000 are written without an
underflow, as the date and time they are, in the order they are. -/
theorem formatUtcIso_correct {time later : SystemTime} (afterEpoch : 0 ≤ time.nanos)
    (ordered : time.nanos ≤ later.nanos) (before : later.nanos < startOfYear 10000) :
    ∃ reading reading' : Reading, ∃ text text' : String,
      reading.IsOf time ∧ formatUtcIso time = some text
        ∧ text.toList = fields isoLayout reading.values
        ∧ reading'.IsOf later ∧ formatUtcIso later = some text'
        ∧ text'.toList = fields isoLayout reading'.values
        ∧ text ≤ text' := by
  rcases formatUtcIso_eq afterEpoch (ordered.trans_lt before) with ⟨reading, isOf, written⟩
  rcases formatUtcIso_eq (afterEpoch.trans ordered) before with ⟨reading', isOf', written'⟩
  refine ⟨reading, reading', _, _, isOf, written, String.toList_ofList, isOf', written',
    String.toList_ofList, ?_⟩
  have values : reading.values ≤ reading'.values := by
    apply Reading.values_le isOf'.epoch_le
    have millis := isOf.millis
    have millis' := isOf'.millis
    have floors : time.nanos / 10 ^ 6 ≤ later.nanos / 10 ^ 6 :=
      Int.ediv_le_ediv (by decide) ordered
    omega
  rw [String.le_iff_toList_le, String.toList_ofList, String.toList_ofList]
  exact fields_le (reading.fits isOf.year_lt) (reading'.fits isOf'.year_lt) values

theorem startOfYear_tenThousand : startOfYear 10000 = 253402300800 * 10 ^ 9 := by
  have years := sum_range_add_sum_Ico daysInYear (show 1970 ≤ 10000 by omega)
  rw [sum_daysInYear_1970] at years
  have closed := sum_daysInYear 10000
  unfold startOfYear
  omega

/-- The last day of a leap February of a century, and the last millisecond that is printed. -/
theorem formatUtcIso_correct_lastDays :
    ∃ reading reading' : Reading, ∃ text text' : String,
      reading.IsOf ⟨951827696789000000⟩ ∧ formatUtcIso ⟨951827696789000000⟩ = some text
        ∧ text.toList = fields isoLayout reading.values
        ∧ reading'.IsOf ⟨253402300799999999999⟩
        ∧ formatUtcIso ⟨253402300799999999999⟩ = some text'
        ∧ text'.toList = fields isoLayout reading'.values
        ∧ text ≤ text' :=
  formatUtcIso_correct (by decide) (by decide) (by rw [startOfYear_tenThousand]; decide)

example : formatUtcIso ⟨951827696789000000⟩ = some "2000-02-29T12:34:56.789Z" := by
  decide +kernel

end PigTree.Timestamp
