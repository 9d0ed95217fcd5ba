/-!
# Leap years and the lengths of months

The Gregorian rules, for every year before and after.

* `isLeapYear` — every fourth year, of the centuries every fourth.
* `daysInMonth` — the length of a month; a number that names no month counts 31 days.

Main statement: a month has 28 to 31 days (`daysInMonth_bounds`).
-/

namespace CronSchedule

/-- Whether a year has a 29th of February. -/
def isLeapYear (year : Int) : Bool :=
  (year % 4 == 0 && year % 100 != 0) || year % 400 == 0

theorem isLeapYear_iff (year : Int) :
    isLeapYear year = true ↔ (year % 4 = 0 ∧ year % 100 ≠ 0) ∨ year % 400 = 0 := by
  simp [isLeapYear]

/-- The number of days of a month. -/
def daysInMonth (year month : Int) : Int :=
  if month = 2 then if isLeapYear year then 29 else 28
  else if month = 4 ∨ month = 6 ∨ month = 9 ∨ month = 11 then 30
  else 31

/-- The four lengths of a month, and when each of them is the one. -/
theorem daysInMonth_cases (year month : Int) :
    (month = 2 ∧ isLeapYear year = true ∧ daysInMonth year month = 29) ∨
      (month = 2 ∧ isLeapYear year = false ∧ daysInMonth year month = 28) ∨
      ((month = 4 ∨ month = 6 ∨ month = 9 ∨ month = 11) ∧ daysInMonth year month = 30) ∨
      (¬(month = 2 ∨ month = 4 ∨ month = 6 ∨ month = 9 ∨ month = 11) ∧
        daysInMonth year month = 31) := by
  by_cases h2 : month = 2
  · cases hleap : isLeapYear year <;> simp [daysInMonth, h2, hleap]
  · by_cases h30 : month = 4 ∨ month = 6 ∨ month = 9 ∨ month = 11
    · simp [daysInMonth, h2, h30]
    · simp [daysInMonth, h2, h30]

theorem daysInMonth_bounds (year month : Int) :
    28 ≤ daysInMonth year month ∧ daysInMonth year month ≤ 31 := by
  have := daysInMonth_cases year month
  omega

end CronSchedule
