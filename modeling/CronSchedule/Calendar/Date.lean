import CronSchedule.Calendar.Month

/-!
# Dates

A date of the Gregorian calendar, extended to every year. Days are numbered from the first of March
of year 0, so that a leap day is the last day of its year of twelve months from March on.

* `Date` — a day that exists.
* `Date.dayNumber`, `Date.ofDayNumber` — a date and its number.
* `Date.weekday` — the day of the week, Sunday as `0`.

Main statements: a day number falls into one year from March and one day of it
(`marchYearDay_spec`), and the parts of every day number are those of a day that exists
(`Date.partsOfDayNumber_mem`).
-/

namespace CronSchedule

/-- A day of the Gregorian calendar. -/
structure Date where
  year : Int
  month : Int
  day : Int
  month_mem : 1 ≤ month ∧ month ≤ 12
  day_mem : 1 ≤ day ∧ day ≤ daysInMonth year month
deriving DecidableEq, Repr

/-! ### Years from March -/

/-- The days before a year that begins in March. -/
def daysBeforeMarchYear (year : Int) : Int :=
  365 * year + year / 4 - year / 100 + year / 400

/-- The days of such a year before its month, March as month `0`. -/
def daysBeforeMarchMonth (month : Int) : Int := (153 * month + 2) / 5

/-- The year from March that a day number falls into, and the day of it, from zero: four hundred
years make a cycle of centuries, years of four and single years, of which the last is the longer
one. -/
def marchYearDay (n : Int) : Int × Int :=
  let days := n % 146097
  let century := min (days / 36524) 3
  let days := days - 36524 * century
  let fourth := days / 1461
  let days := days % 1461
  let year := min (days / 365) 3
  (400 * (n / 146097) + 100 * century + 4 * fourth + year, days - 365 * year)

/-- A day number is the days before its year and the day of it; a year has a day past its 365th
only where the February that ends it is the longer one. -/
theorem marchYearDay_spec (n : Int) :
    daysBeforeMarchYear (marchYearDay n).1 + (marchYearDay n).2 = n ∧
      0 ≤ (marchYearDay n).2 ∧ (marchYearDay n).2 ≤ 365 ∧
      ((marchYearDay n).2 = 365 → isLeapYear ((marchYearDay n).1 + 1) = true) := by
  rw [isLeapYear_iff]
  have hpos := Int.emod_nonneg n (b := 146097) (by decide)
  have hlt := Int.emod_lt_of_pos n (b := 146097) (by decide)
  have hn := Int.mul_ediv_add_emod n 146097
  simp only [marchYearDay, daysBeforeMarchYear]
  generalize n / 146097 = cycle at *
  generalize n % 146097 = r at *
  obtain ⟨century, hcentury, _⟩ : ∃ c, min (r / 36524) 3 = c ∧ 0 ≤ c ∧ c ≤ 3 ∧
      0 ≤ r - 36524 * c ∧ r - 36524 * c ≤ 36524 ∧ (c < 3 → r - 36524 * c < 36524) :=
    ⟨_, rfl, by omega⟩
  rw [hcentury]
  generalize hs : r - 36524 * century = s at *
  obtain ⟨fourth, t, hfourth, ht, _⟩ : ∃ q t, s / 1461 = q ∧ s % 1461 = t ∧ 0 ≤ q ∧ q ≤ 24 ∧
      0 ≤ t ∧ t < 1461 ∧ s = 1461 * q + t :=
    ⟨_, _, rfl, rfl, by omega⟩
  rw [hfourth, ht]
  obtain ⟨year, hyear, _⟩ : ∃ y, min (t / 365) 3 = y ∧ 0 ≤ y ∧ y ≤ 3 ∧ 0 ≤ t - 365 * y ∧
      t - 365 * y ≤ 365 ∧ (y < 3 → t - 365 * y < 365) :=
    ⟨_, rfl, by omega⟩
  rw [hyear]
  have h4 : (400 * cycle + 100 * century + 4 * fourth + year) / 4 =
      100 * cycle + 25 * century + fourth := by omega
  have h100 : (400 * cycle + 100 * century + 4 * fourth + year) / 100 =
      4 * cycle + century := by omega
  have h400 : (400 * cycle + 100 * century + 4 * fourth + year) / 400 = cycle := by omega
  rw [h4, h100, h400]
  exact ⟨by omega, by omega, by omega, fun h => by omega⟩

namespace Date

/-! ### Day numbers -/

/-- The number of a date's day. -/
def dayNumber (d : Date) : Int :=
  if d.month ≤ 2 then
    daysBeforeMarchYear (d.year - 1) + daysBeforeMarchMonth (d.month + 9) + (d.day - 1)
  else daysBeforeMarchYear d.year + daysBeforeMarchMonth (d.month - 3) + (d.day - 1)

/-- The month from March, as `0`, that a day of a year from March falls into. -/
def marchMonthOfDay (day : Int) : Int := (5 * day + 2) / 153

/-- The year, the month and the day of a day number. -/
def partsOfDayNumber (n : Int) : Int × Int × Int :=
  let (year, yearDay) := marchYearDay n
  let month := marchMonthOfDay yearDay
  let day := yearDay - daysBeforeMarchMonth month + 1
  if month < 10 then (year, month + 3, day) else (year + 1, month - 9, day)

/-- The parts of a day number are those of a day that exists. -/
theorem partsOfDayNumber_mem (n : Int) :
    (1 ≤ (partsOfDayNumber n).2.1 ∧ (partsOfDayNumber n).2.1 ≤ 12) ∧
      1 ≤ (partsOfDayNumber n).2.2 ∧
      (partsOfDayNumber n).2.2 ≤ daysInMonth (partsOfDayNumber n).1 (partsOfDayNumber n).2.1 := by
  obtain ⟨_, hpos, hle, hleap⟩ := marchYearDay_spec n
  unfold partsOfDayNumber
  generalize marchYearDay n = parts at *
  obtain ⟨year, yearDay⟩ := parts
  dsimp only at hpos hle hleap ⊢
  by_cases hmonth : marchMonthOfDay yearDay < 10
  · rw [if_pos hmonth]
    dsimp only
    have hlength := daysInMonth_cases year (marchMonthOfDay yearDay + 3)
    unfold marchMonthOfDay daysBeforeMarchMonth at *
    omega
  · rw [if_neg hmonth]
    dsimp only
    have hlength := daysInMonth_cases (year + 1) (marchMonthOfDay yearDay - 9)
    have hcommon (h : isLeapYear (year + 1) = false) : yearDay ≠ 365 := fun heq => by
      rw [hleap heq] at h
      exact Bool.noConfusion h
    unfold marchMonthOfDay daysBeforeMarchMonth at *
    rcases hlength with h | ⟨_, h, _⟩ | h | h
    · omega
    · have := hcommon h
      omega
    · omega
    · omega

/-- The date of a day number. -/
def ofDayNumber (n : Int) : Date where
  year := (partsOfDayNumber n).1
  month := (partsOfDayNumber n).2.1
  day := (partsOfDayNumber n).2.2
  month_mem := (partsOfDayNumber_mem n).1
  day_mem := (partsOfDayNumber_mem n).2

/-- The day of the week of a date, Sunday as `0`. -/
def weekday (d : Date) : Int := (d.dayNumber + 3) % 7

/-! ### Dates from their parts -/

/-- The first and the last year of the dates that are read from their parts. -/
def yearBounds : Int × Int := (-262143, 262142)

/-- The date of a year, a month and a day, if there is one. -/
def ofParts? (year month day : Int) : Option Date :=
  if h : (1 ≤ month ∧ month ≤ 12) ∧ (1 ≤ day ∧ day ≤ daysInMonth year month) ∧
      yearBounds.1 ≤ year ∧ year ≤ yearBounds.2 then
    some ⟨year, month, day, h.1, h.2.1⟩
  else none

/-- The 10th of March 2024 was a Sunday, the last day of 1999 a Friday. -/
example : (ofParts? 2024 3 10).map weekday = some 0 ∧
    (ofParts? 1999 12 31).map weekday = some 5 := by decide

/-- There is a 29th of February in leap years alone. -/
example : (ofParts? 2000 2 29).isSome ∧ (ofParts? 1900 2 29).isNone := by decide

end Date

end CronSchedule
