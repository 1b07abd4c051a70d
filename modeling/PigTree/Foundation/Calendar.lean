import Mathlib

/-!
# The Gregorian calendar

Dates of the proleptic Gregorian calendar and their day counts, by summing the
lengths of the years and months that have passed. Day counts have a closed form
and are ordered as the dates are. The second part counts years from March, which
puts the leap day at the end of a year.
-/

namespace Foundation.Calendar

open Finset

/-- Every fourth year, but of the centuries only every fourth. -/
def IsLeap (year : ℕ) : Prop := 4 ∣ year ∧ (¬ 100 ∣ year ∨ 400 ∣ year)

instance (year : ℕ) : Decidable (IsLeap year) := inferInstanceAs (Decidable (_ ∧ _))

def daysInYear (year : ℕ) : ℕ := if IsLeap year then 366 else 365

def daysInMonth (year month : ℕ) : ℕ :=
  if month = 2 then (if IsLeap year then 29 else 28)
  else if month = 4 ∨ month = 6 ∨ month = 9 ∨ month = 11 then 30
  else 31

/-- A date of the calendar. -/
structure Date where
  year : ℕ
  month : ℕ
  day : ℕ
  month_pos : 1 ≤ month
  month_le : month ≤ 12
  day_pos : 1 ≤ day
  day_le : day ≤ daysInMonth year month

namespace Date

/-- Days of the year that have passed before the date. -/
def dayOfYear (date : Date) : ℕ :=
  ∑ month ∈ Ico 1 date.month, daysInMonth date.year month + (date.day - 1)

/-- Days from the first of January of a year to the date. -/
def daysSince (epoch : ℕ) (date : Date) : ℕ :=
  ∑ year ∈ Ico epoch date.year, daysInYear year + date.dayOfYear

end Date

/-! ### Years -/

theorem sum_daysInMonth (year : ℕ) :
    ∑ month ∈ Ico 1 13, daysInMonth year month = daysInYear year := by
  by_cases leap : IsLeap year <;> simp [sum_Ico_succ_top, daysInMonth, daysInYear, leap]

/-- The days before a year of the calendar in closed form. -/
theorem sum_daysInYear (year : ℕ) :
    ∑ passed ∈ range year, daysInYear passed + (year + 99) / 100
      = 365 * year + (year + 3) / 4 + (year + 399) / 400 := by
  induction year with
  | zero => rfl
  | succ year ih =>
      rw [sum_range_succ]
      by_cases leap : IsLeap year
      · have length : daysInYear year = 366 := if_pos leap
        unfold IsLeap at leap
        omega
      · have length : daysInYear year = 365 := if_neg leap
        unfold IsLeap at leap
        omega

theorem dayOfYear_lt (date : Date) : date.dayOfYear < daysInYear date.year := by
  have day := date.day_le
  have positive := date.day_pos
  have months : ∑ month ∈ Ico 1 (date.month + 1), daysInMonth date.year month
      ≤ ∑ month ∈ Ico 1 13, daysInMonth date.year month := by
    apply sum_le_sum_of_subset
    apply Ico_subset_Ico_right
    have := date.month_le
    omega
  rw [sum_daysInMonth, sum_Ico_succ_top date.month_pos] at months
  unfold Date.dayOfYear
  omega

theorem daysSince_zero_eq {epoch : ℕ} {date : Date} (after : epoch ≤ date.year) :
    date.daysSince 0
      = ∑ passed ∈ range epoch, daysInYear passed + date.daysSince epoch := by
  have split := sum_range_add_sum_Ico daysInYear after
  simp only [Date.daysSince, Nat.Ico_zero_eq_range]
  omega

/-! ### Order -/

/-- A later date has more days behind it. -/
theorem daysSince_lt {epoch : ℕ} (first second : Date) (after : epoch ≤ first.year)
    (earlier : first.year < second.year
      ∨ first.year = second.year ∧ (first.month < second.month
        ∨ first.month = second.month ∧ first.day < second.day)) :
    first.daysSince epoch < second.daysSince epoch := by
  rcases earlier with year | ⟨sameYear, month | ⟨sameMonth, day⟩⟩
  · have within := dayOfYear_lt first
    have years : ∑ passed ∈ Ico epoch (first.year + 1), daysInYear passed
        ≤ ∑ passed ∈ Ico epoch second.year, daysInYear passed := by
      apply sum_le_sum_of_subset
      exact Ico_subset_Ico_right year
    rw [sum_Ico_succ_top after] at years
    unfold Date.daysSince
    omega
  · have within := first.day_le
    have positive := first.day_pos
    have months : ∑ passed ∈ Ico 1 (first.month + 1), daysInMonth first.year passed
        ≤ ∑ passed ∈ Ico 1 second.month, daysInMonth first.year passed := by
      apply sum_le_sum_of_subset
      exact Ico_subset_Ico_right month
    rw [sum_Ico_succ_top first.month_pos] at months
    unfold Date.daysSince Date.dayOfYear
    rw [← sameYear]
    omega
  · have positive := first.day_pos
    unfold Date.daysSince Date.dayOfYear
    rw [← sameYear, ← sameMonth]
    omega

/-! ### Years that begin in March -/

/-- Days between the first of March of a year divisible by 400 and the first of March
`years` later, for less than 400 years. -/
def marchDays (years : ℕ) : ℕ := 365 * years + years / 4 - years / 100

/-- The first day of a month, the months and days counted from March. -/
def marchMonthStart (month : ℕ) : ℕ := (153 * month + 2) / 5

/-- The month of a day, both counted from March. -/
def marchMonthOf (day : ℕ) : ℕ := (5 * day + 2) / 153

/-- The last two months counted from March belong to the next year. -/
def marchYear (year month : ℕ) : ℕ := if month < 10 then year else year + 1

def marchMonth (month : ℕ) : ℕ := if month < 10 then month + 3 else month - 9

theorem marchMonthOf_spec (day : ℕ) :
    marchMonthStart (marchMonthOf day) ≤ day ∧ day < marchMonthStart (marchMonthOf day + 1) := by
  unfold marchMonthStart marchMonthOf
  omega

theorem marchMonthOf_lt {year day : ℕ}
    (within : day < 365 + if IsLeap (year + 1) then 1 else 0) : marchMonthOf day < 12 := by
  unfold marchMonthOf
  split at within <;> omega

theorem daysInMonth_march (year : ℕ) {month : ℕ} (early : month < 11) :
    marchMonthStart month + daysInMonth (marchYear year month) (marchMonth month)
      = marchMonthStart (month + 1) := by
  match month, early with
  | 0, _ | 1, _ | 2, _ | 3, _ | 4, _ | 5, _ | 6, _ | 7, _ | 8, _ | 9, _ | 10, _ => rfl

/-- The month that ends the year counted from March has the leap day. -/
theorem daysInMonth_lastMarch (year : ℕ) :
    marchMonthStart 11 + daysInMonth (year + 1) 2
      = 365 + if IsLeap (year + 1) then 1 else 0 := by
  by_cases leap : IsLeap (year + 1) <;> simp [marchMonthStart, daysInMonth, leap]

/-- The date of a day of the year that begins in March. -/
def marchDate (year day : ℕ) (within : day < 365 + if IsLeap (year + 1) then 1 else 0) : Date where
  year := marchYear year (marchMonthOf day)
  month := marchMonth (marchMonthOf day)
  day := day - marchMonthStart (marchMonthOf day) + 1
  month_pos := by
    unfold marchMonth
    split <;> omega
  month_le := by
    have := marchMonthOf_lt within
    unfold marchMonth
    split <;> omega
  day_pos := by omega
  day_le := by
    have bounds := marchMonthOf_spec day
    rcases Nat.lt_or_ge (marchMonthOf day) 11 with early | late
    · have length := daysInMonth_march year early
      omega
    · have last : marchMonthOf day = 11 := by
        have := marchMonthOf_lt within
        omega
      have length := daysInMonth_lastMarch year
      rw [last] at bounds ⊢
      simp only [marchYear, marchMonth, Nat.reduceLT, if_false, Nat.reduceSub]
      omega

/-- Days of the calendar year before a month counted from March. -/
theorem sum_daysInMonth_march (year : ℕ) {month : ℕ} (within : month < 12) :
    ∑ passed ∈ Ico 1 (marchMonth month), daysInMonth (marchYear year month) passed + 306
      = (if month < 10 then daysInYear year else 0) + marchMonthStart month := by
  match month, within with
  | 0, _ | 1, _ | 2, _ | 3, _ | 4, _ | 5, _ | 6, _ | 7, _ | 8, _ | 9, _ | 10, _ | 11, _ =>
      by_cases leap : IsLeap year <;>
        simp [sum_Ico_succ_top, marchMonth, marchYear, marchMonthStart, daysInMonth, daysInYear, leap]

/-- The day count of a date, from the years before it and its day counted from March. -/
theorem daysSince_marchDate {year day : ℕ}
    (within : day < 365 + if IsLeap (year + 1) then 1 else 0) :
    (marchDate year day within).daysSince 0 + 306
      = ∑ passed ∈ range (year + 1), daysInYear passed + day := by
  have months := sum_daysInMonth_march year (marchMonthOf_lt within)
  have start := (marchMonthOf_spec day).1
  rw [Date.daysSince, Date.dayOfYear, Nat.Ico_zero_eq_range]
  simp only [marchDate] at *
  by_cases early : marchMonthOf day < 10
  · simp only [if_pos early, marchYear] at *
    rw [sum_range_succ]
    omega
  · simp only [if_neg early, marchYear] at *
    omega

end Foundation.Calendar
