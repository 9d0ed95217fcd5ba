import CronSchedule.Calendar.Date

/-!
# The days of a leap year and their weekdays

* **Month lengths** (`daysInMonth_le_of_isLeapYear`): no month of any year is longer than the same
  month of a leap year.
* **Four years later** (`Date.dayNumber_eq_add`): between 2001 and 2099 four years have 1461 days,
  which is five days of the week more than whole weeks.

Main statement: **every day of a leap year, the 29th of February with them, falls on each day of the
week in some leap year** (`Date.exists_weekday_eq`).
-/

namespace CronSchedule

/-- No month is longer than it is in a leap year. -/
theorem daysInMonth_le_of_isLeapYear {leapYear : Int} (hleap : isLeapYear leapYear = true)
    (year month : Int) : daysInMonth year month ≤ daysInMonth leapYear month := by
  unfold daysInMonth
  rw [hleap]
  split
  · split <;> simp
  · exact Int.le_refl _

/-- A month has the same length in all leap years. -/
theorem daysInMonth_eq_of_isLeapYear {year other : Int} (hyear : isLeapYear year = true)
    (hother : isLeapYear other = true) (month : Int) :
    daysInMonth year month = daysInMonth other month :=
  Int.le_antisymm (daysInMonth_le_of_isLeapYear hother year month)
    (daysInMonth_le_of_isLeapYear hyear other month)

namespace Date

/-- Between 2001 and 2099 every fourth year is a leap year, so four years have 1461 days. -/
theorem dayNumber_eq_add {d e : Date} (hmonth : e.month = d.month) (hday : e.day = d.day)
    {fours : Int} (hyear : e.year = d.year + 4 * fours) (hd : 2001 ≤ d.year ∧ d.year ≤ 2099)
    (he : 2001 ≤ e.year ∧ e.year ≤ 2099) : e.dayNumber = d.dayNumber + 1461 * fours := by
  unfold dayNumber daysBeforeMarchYear
  rw [hmonth, hday]
  split <;> omega

/-- The date of a year with the month and the day of a date in a leap year. -/
def inLeapYear (d : Date) (hd : isLeapYear d.year = true) (year : Int)
    (hyear : isLeapYear year = true) : Date where
  year := year
  month := d.month
  day := d.day
  month_mem := d.month_mem
  day_mem := ⟨d.day_mem.1, daysInMonth_eq_of_isLeapYear hd hyear d.month ▸ d.day_mem.2⟩

/-- **Every day of a leap year falls on each day of the week in some leap year**, even in one of the
seven from 2004 to 2028. -/
theorem exists_weekday_eq (d : Date) (hd : isLeapYear d.year = true) {weekday : Int}
    (hweekday : 0 ≤ weekday ∧ weekday ≤ 6) :
    ∃ e : Date, (isLeapYear e.year = true ∧ 2004 ≤ e.year ∧ e.year ≤ 2028) ∧
      e.month = d.month ∧ e.day = d.day ∧ e.weekday = weekday := by
  have hbase : isLeapYear 2004 = true := by decide
  -- five days of the week further every four years, and three times five is one more than two weeks
  obtain ⟨fours, hfours⟩ : ∃ n, n = 3 * (weekday - (d.inLeapYear hd 2004 hbase).weekday) % 7 :=
    ⟨_, rfl⟩
  have hleap : isLeapYear (2004 + 4 * fours) = true := by
    rw [isLeapYear_iff]
    omega
  have hyear : 2004 ≤ 2004 + 4 * fours ∧ 2004 + 4 * fours ≤ 2028 := by omega
  refine ⟨d.inLeapYear hd (2004 + 4 * fours) hleap, ⟨hleap, hyear⟩, rfl, rfl, ?_⟩
  have hnumber : (d.inLeapYear hd (2004 + 4 * fours) hleap).dayNumber =
      (d.inLeapYear hd 2004 hbase).dayNumber + 1461 * fours := by
    apply dayNumber_eq_add
    · rfl
    · rfl
    · rfl
    · show (2001 : Int) ≤ 2004 ∧ (2004 : Int) ≤ 2099
      decide
    · exact ⟨Int.le_trans (by decide) hyear.1, Int.le_trans hyear.2 (by decide)⟩
  unfold Date.weekday at hfours ⊢
  rw [hnumber]
  omega

end Date

end CronSchedule
