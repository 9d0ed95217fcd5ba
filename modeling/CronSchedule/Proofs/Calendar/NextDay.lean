import CronSchedule.Calendar.Instant
import Mathlib.Tactic.IntervalCases

/-!
# Day numbers and the day after

Days are numbered without a look at the lengths of months: by the years since a first of March and
the days of such a year. The dates that exist are those whose day is no later than their month is
long. Here the two are held against each other, for every year.

* **Years from March** (`daysBeforeMarchYear_succ`, `eq_marchYearDay`): a year that ends with the
  February of a leap year has 366 days and any other 365, so a day number falls into one year only.
* **Dates are day numbers** (`Date.dayNumber_ofDayNumber`, `Date.ofDayNumber_dayNumber`): no date
  is left out and none is counted twice.
* `Date.next` — the date with the next number; it is the next day of the month, and after the last
  one the first of the next month (`Date.next_of_lt`, `Date.next_of_last`,
  `Date.next_of_december`).

Main statement: **the day after a date lies in another month exactly when the date is the last of
its month** (`Date.not_sameMonth_next_iff`).
-/

namespace CronSchedule

/-! ### Years from March -/

/-- A year from March has 366 days where it ends with the February of a leap year. -/
theorem daysBeforeMarchYear_succ (year : Int) :
    daysBeforeMarchYear (year + 1) =
      daysBeforeMarchYear year + if isLeapYear (year + 1) = true then 366 else 365 := by
  by_cases hleap : isLeapYear (year + 1) = true
  · rw [if_pos hleap]
    rw [isLeapYear_iff] at hleap
    unfold daysBeforeMarchYear
    omega
  · rw [if_neg hleap]
    rw [isLeapYear_iff] at hleap
    unfold daysBeforeMarchYear
    omega

/-- No fewer days lie before a later year. -/
theorem daysBeforeMarchYear_mono {year year' : Int} (h : year ≤ year') :
    daysBeforeMarchYear year ≤ daysBeforeMarchYear year' := by
  unfold daysBeforeMarchYear
  omega

/-- The day of a year from March lies before the next such year. -/
theorem add_lt_daysBeforeMarchYear_succ {year day : Int} (hle : day ≤ 365)
    (hleap : day = 365 → isLeapYear (year + 1) = true) :
    daysBeforeMarchYear year + day < daysBeforeMarchYear (year + 1) := by
  rw [daysBeforeMarchYear_succ]
  split
  · omega
  · next hcommon =>
    have := mt hleap hcommon
    omega

/-- **A day number falls into one year from March only**, and into one day of it. -/
theorem eq_marchYearDay {year day : Int} (hpos : 0 ≤ day) (hle : day ≤ 365)
    (hleap : day = 365 → isLeapYear (year + 1) = true) :
    marchYearDay (daysBeforeMarchYear year + day) = (year, day) := by
  obtain ⟨hsum, hpos', hle', hleap'⟩ := marchYearDay_spec (daysBeforeMarchYear year + day)
  generalize marchYearDay (daysBeforeMarchYear year + day) = parts at *
  obtain ⟨year', day'⟩ := parts
  dsimp only at hsum hpos' hle' hleap'
  have hlast := add_lt_daysBeforeMarchYear_succ hle hleap
  have hlast' := add_lt_daysBeforeMarchYear_succ hle' hleap'
  rcases Int.lt_trichotomy year year' with hlt | rfl | hgt
  · have : daysBeforeMarchYear (year + 1) ≤ daysBeforeMarchYear year' :=
      daysBeforeMarchYear_mono (Int.add_one_le_of_lt hlt)
    omega
  · rw [Prod.mk.injEq]
    omega
  · have : daysBeforeMarchYear (year' + 1) ≤ daysBeforeMarchYear year :=
      daysBeforeMarchYear_mono (Int.add_one_le_of_lt hgt)
    omega

namespace Date

/-! ### Dates are day numbers -/

/-- The parts of a day number that falls into March to December. -/
theorem partsOfDayNumber_of_lt {n year yearDay : Int} (h : marchYearDay n = (year, yearDay))
    (hmonth : marchMonthOfDay yearDay < 10) :
    partsOfDayNumber n = (year, marchMonthOfDay yearDay + 3,
      yearDay - daysBeforeMarchMonth (marchMonthOfDay yearDay) + 1) := by
  simp only [partsOfDayNumber, h, if_pos hmonth]

/-- The parts of a day number that falls into the January or February behind those. -/
theorem partsOfDayNumber_of_le {n year yearDay : Int} (h : marchYearDay n = (year, yearDay))
    (hmonth : 10 ≤ marchMonthOfDay yearDay) :
    partsOfDayNumber n = (year + 1, marchMonthOfDay yearDay - 9,
      yearDay - daysBeforeMarchMonth (marchMonthOfDay yearDay) + 1) := by
  simp only [partsOfDayNumber, h, if_neg (not_lt.mpr hmonth)]

/-- Dates with the same year, month and day are equal. -/
theorem eq_of_parts {d e : Date} (h : (d.year, d.month, d.day) = (e.year, e.month, e.day)) :
    d = e := by
  cases d
  cases e
  simpa using h

/-- **Every number is that of its date.** -/
theorem dayNumber_ofDayNumber (n : Int) : (ofDayNumber n).dayNumber = n := by
  obtain ⟨hsum, hpos, hle, -⟩ := marchYearDay_spec n
  obtain ⟨⟨year, yearDay⟩, hparts⟩ : ∃ parts, marchYearDay n = parts := ⟨_, rfl⟩
  rw [hparts] at hsum hpos hle
  dsimp only at hsum hpos hle
  have hmonths : 0 ≤ marchMonthOfDay yearDay ∧ marchMonthOfDay yearDay ≤ 11 := by
    unfold marchMonthOfDay
    omega
  have hdate : ((ofDayNumber n).year, (ofDayNumber n).month, (ofDayNumber n).day) =
      partsOfDayNumber n := rfl
  rcases lt_or_ge (marchMonthOfDay yearDay) 10 with hmonth | hmonth
  · rw [partsOfDayNumber_of_lt hparts hmonth, Prod.mk.injEq, Prod.mk.injEq] at hdate
    obtain ⟨hyear, hmonth', hday⟩ := hdate
    rw [dayNumber, if_neg (by omega), hyear, hmonth', hday, Int.add_sub_cancel]
    omega
  · rw [partsOfDayNumber_of_le hparts hmonth, Prod.mk.injEq, Prod.mk.injEq] at hdate
    obtain ⟨hyear, hmonth', hday⟩ := hdate
    rw [dayNumber, if_pos (by omega), hyear, hmonth', hday, Int.add_sub_cancel, Int.sub_add_cancel]
    omega

/-- A day no later than its month is long falls into that month of the year from March. -/
theorem marchMonthOfDay_eq {month day : Int} (hmonth : 0 ≤ month ∧ month ≤ 11) (hpos : 0 ≤ day)
    (hlt : day < daysBeforeMarchMonth (month + 1) - daysBeforeMarchMonth month) :
    marchMonthOfDay (daysBeforeMarchMonth month + day) = month := by
  obtain ⟨hlo, hhi⟩ := hmonth
  unfold marchMonthOfDay daysBeforeMarchMonth at *
  interval_cases month <;> omega

/-- From March on, the days before a month and before the next differ by its length. -/
theorem daysBeforeMarchMonth_succ {month : Int} (year : Int) (h : 3 ≤ month ∧ month ≤ 12) :
    daysBeforeMarchMonth (month - 3 + 1) =
      daysBeforeMarchMonth (month - 3) + daysInMonth year month := by
  obtain ⟨hlo, hhi⟩ := h
  unfold daysBeforeMarchMonth daysInMonth
  interval_cases month <;> simp

/-- **Every date is that of its number.** -/
theorem ofDayNumber_dayNumber (d : Date) : ofDayNumber d.dayNumber = d := by
  have hlength := daysInMonth_cases d.year d.month
  obtain ⟨hmonth, hmonth'⟩ := d.month_mem
  obtain ⟨hday, hday'⟩ := d.day_mem
  apply eq_of_parts
  show partsOfDayNumber d.dayNumber = _
  by_cases hearly : d.month ≤ 2
  · have hmarch : marchMonthOfDay (daysBeforeMarchMonth (d.month + 9) + (d.day - 1)) =
        d.month + 9 := by
      apply marchMonthOfDay_eq (by omega) (by omega)
      unfold daysBeforeMarchMonth
      omega
    have hparts : marchYearDay d.dayNumber =
        (d.year - 1, daysBeforeMarchMonth (d.month + 9) + (d.day - 1)) := by
      rw [dayNumber, if_pos hearly, Int.add_assoc]
      unfold daysBeforeMarchMonth
      apply eq_marchYearDay
      · omega
      · omega
      · intro hlast
        rw [Int.sub_add_cancel]
        rcases hlength with h | h | h | h
        · exact h.2.1
        all_goals omega
    rw [partsOfDayNumber_of_le hparts (by omega), hmarch, Prod.mk.injEq, Prod.mk.injEq]
    omega
  · have hmarch : marchMonthOfDay (daysBeforeMarchMonth (d.month - 3) + (d.day - 1)) =
        d.month - 3 := by
      apply marchMonthOfDay_eq (by omega) (by omega)
      rw [daysBeforeMarchMonth_succ d.year (by omega)]
      omega
    have hparts : marchYearDay d.dayNumber =
        (d.year, daysBeforeMarchMonth (d.month - 3) + (d.day - 1)) := by
      rw [dayNumber, if_neg hearly, Int.add_assoc]
      unfold daysBeforeMarchMonth
      apply eq_marchYearDay
      all_goals omega
    rw [partsOfDayNumber_of_lt hparts (by omega), hmarch, Prod.mk.injEq, Prod.mk.injEq]
    omega

/-! ### The day after -/

/-- The day after a date. -/
def next (d : Date) : Date := ofDayNumber (d.dayNumber + 1)

/-- A date with the next number is the day after. -/
theorem next_eq_of_dayNumber {d e : Date} (h : e.dayNumber = d.dayNumber + 1) : d.next = e := by
  rw [next, ← h, ofDayNumber_dayNumber]

/-- Before the last day of a month the next day of the month follows. -/
theorem next_of_lt {d : Date} (h : d.day < daysInMonth d.year d.month) :
    d.next.year = d.year ∧ d.next.month = d.month ∧ d.next.day = d.day + 1 := by
  have hpos := d.day_mem.1
  have hnext : d.next = ⟨d.year, d.month, d.day + 1, d.month_mem, by omega, by omega⟩ := by
    apply next_eq_of_dayNumber
    unfold dayNumber
    dsimp only
    split <;> omega
  rw [hnext]
  exact ⟨rfl, rfl, rfl⟩

/-- The last day of a month but December is followed by the first of the next month. -/
theorem next_of_last {d : Date} (h : d.day = daysInMonth d.year d.month) (hmonth : d.month < 12) :
    d.next.year = d.year ∧ d.next.month = d.month + 1 ∧ d.next.day = 1 := by
  have hpos := d.month_mem.1
  have hlength := daysInMonth_bounds d.year (d.month + 1)
  have hnext : d.next = ⟨d.year, d.month + 1, 1, by omega, by omega, by omega⟩ := by
    apply next_eq_of_dayNumber
    unfold dayNumber
    dsimp only
    obtain hjanuary | hfebruary | hlate : d.month = 1 ∨ d.month = 2 ∨ 3 ≤ d.month := by omega
    · have hlong : daysInMonth d.year 1 = 31 := rfl
      rw [if_pos (by omega), if_pos (by omega), h, hjanuary, hlong]
      unfold daysBeforeMarchMonth
      omega
    · -- a year from March ends with this day
      have hyear := daysBeforeMarchYear_succ (d.year - 1)
      rw [Int.sub_add_cancel] at hyear
      rw [if_neg (by omega), if_pos (by omega), h, hfebruary, hyear]
      have hlong : daysInMonth d.year 2 = if isLeapYear d.year = true then 29 else 28 := rfl
      rw [hlong]
      unfold daysBeforeMarchMonth
      split <;> omega
    · have hdays := daysBeforeMarchMonth_succ d.year (show 3 ≤ d.month ∧ d.month ≤ 12 by omega)
      have hmonths : d.month + 1 - 3 = d.month - 3 + 1 := by omega
      rw [if_neg (by omega), if_neg (by omega), h, hmonths, hdays]
      omega
  rw [hnext]
  exact ⟨rfl, rfl, rfl⟩

/-- The last day of December is followed by the first of January. -/
theorem next_of_december {d : Date} (h : d.day = 31) (hmonth : d.month = 12) :
    d.next.year = d.year + 1 ∧ d.next.month = 1 ∧ d.next.day = 1 := by
  have hlength := daysInMonth_bounds (d.year + 1) 1
  have hnext : d.next = ⟨d.year + 1, 1, 1, by omega, by omega, by omega⟩ := by
    apply next_eq_of_dayNumber
    unfold dayNumber daysBeforeMarchMonth
    dsimp only
    rw [if_pos (by omega), if_neg (by omega), Int.add_sub_cancel, h, hmonth]
    omega
  rw [hnext]
  exact ⟨rfl, rfl, rfl⟩

/-- Two dates lie in one month of one year. -/
def SameMonth (d e : Date) : Prop := d.year = e.year ∧ d.month = e.month

instance (d e : Date) : Decidable (d.SameMonth e) :=
  inferInstanceAs (Decidable (d.year = e.year ∧ d.month = e.month))

/-- **The day after a date lies in another month** exactly when the date is the last of its
month. -/
theorem not_sameMonth_next_iff (d : Date) :
    ¬d.next.SameMonth d ↔ d.day = daysInMonth d.year d.month := by
  have hmonth := d.month_mem.2
  constructor
  · intro hother
    by_contra hday
    have hnext := next_of_lt (lt_of_le_of_ne d.day_mem.2 hday)
    exact hother ⟨hnext.1, hnext.2.1⟩
  · rintro hlast ⟨hyear, hsame⟩
    rcases lt_or_eq_of_le hmonth with hlt | hdecember
    · have hnext := next_of_last hlast hlt
      omega
    · have hlong : daysInMonth d.year d.month = 31 := by rw [hdecember]; rfl
      have hnext := next_of_december (hlast.trans hlong) hdecember
      omega

end Date

/-- A day later, an instant lies on the day after. -/
theorem Instant.date_addSeconds_day (t : Instant) : (t.addSeconds 86400).date = t.date.next := by
  have hnumber : (t.secondNumber + 86400) / 86400 = t.date.dayNumber + 1 := by
    have hhour := t.hour_mem
    have hminute := t.minute_mem
    have hsecond := t.second_mem
    unfold secondNumber
    omega
  show Date.ofDayNumber ((t.secondNumber + 86400) / 86400) = t.date.next
  rw [hnumber, Date.next]

end CronSchedule
