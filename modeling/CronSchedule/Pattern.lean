import CronSchedule.Calendar.Month
import CronSchedule.DayMatch
import CronSchedule.ValueSet

/-!
# Patterns

A pattern is one compiled alternative of a schedule: a set of values for each field, and how its
two day fields combine.

* `TimeFields` — the seven numbers of an instant that a pattern looks at.
* `Pattern.fires` — whether a pattern admits them, with or without regard to the second.
* `Pattern.render` — its sets in the order of the fields, with spaces between them.

Main statement: a pattern that admits an instant with its second admits it without
(`Pattern.fires_of_fires_bySecond`).
-/

namespace CronSchedule

/-- The seven numbers of an instant. -/
abbrev TimeFields := PerField Int

/-- The length of the month the numbers lie in. -/
def TimeFields.monthLength (time : TimeFields) : Int := daysInMonth time.year time.month

/-- A compiled alternative. -/
structure Pattern where
  sets : PerField ValueSet
  dayMatch : DayMatch
deriving DecidableEq, Repr

namespace Pattern

/-- Whether the day of the month is admitted. -/
def monthDayFires (p : Pattern) (time : TimeFields) : Bool :=
  p.sets.dayOfMonth.containsDay time.dayOfMonth time.monthLength

/-- Whether the day of the week is admitted. -/
def weekdayFires (p : Pattern) (time : TimeFields) : Bool :=
  p.sets.dayOfWeek.contains time.dayOfWeek

/-- Whether both day fields are restricted. -/
def bothDaysRestricted (p : Pattern) : Bool :=
  !p.sets.dayOfMonth.isEvery && !p.sets.dayOfWeek.isEvery

/-- Whether the day is admitted. Under `either`, one of two restricted fields is enough; beside an
unrestricted field, the other decides alone. -/
def dayFires (p : Pattern) (time : TimeFields) : Bool :=
  if p.dayMatch = .either ∧ p.bothDaysRestricted then
    p.monthDayFires time || p.weekdayFires time
  else p.monthDayFires time && p.weekdayFires time

/-- Whether a pattern admits an instant; the second counts only where `bySecond` says so. -/
def fires (p : Pattern) (time : TimeFields) (bySecond : Bool) : Bool :=
  (!bySecond || p.sets.second.contains time.second) && p.sets.minute.contains time.minute &&
    p.sets.hour.contains time.hour && p.sets.month.contains time.month &&
    p.sets.year.contains time.year && p.dayFires time

/-- The sets of a pattern in the order of the fields, with spaces between them. -/
def render (p : Pattern) : String :=
  " ".intercalate (p.sets.toList.map ValueSet.render)

/-- Looking at the second only takes instants away. -/
theorem fires_of_fires_bySecond {p : Pattern} {time : TimeFields} (h : p.fires time true = true) :
    p.fires time false = true := by
  simp only [fires, Bool.and_eq_true] at h ⊢
  exact ⟨⟨⟨⟨⟨rfl, h.1.1.1.1.2⟩, h.1.1.1.2⟩, h.1.1.2⟩, h.1.2⟩, h.2⟩

end Pattern

end CronSchedule
