import CronSchedule.Field
import CronSchedule.ValueSet.Dense

/-!
# Days of the month

The days of the month are a small set with one rule of the calendar: where the 31st is selected,
so is the last day of every shorter month.

* `MonthDays.ofList` — the days of a list.
* `MonthDays.contains` — the listed days, whatever the month.
* `MonthDays.containsIn` — the days in a month of a given length.
-/

namespace CronSchedule

/-- A set of days of the month, with or without the last day of every month. -/
structure MonthDays where
  days : DenseSet
  lastDay : Bool
deriving DecidableEq, Repr

namespace MonthDays

/-- The days of a list; the 31st stands for the last day of every month. -/
def ofList (values : List Int) : MonthDays :=
  ⟨DenseSet.ofList Field.dayOfMonth.lo values, values.contains Field.dayOfMonth.hi⟩

/-- Whether a day is listed. -/
def contains (s : MonthDays) (day : Int) : Bool := s.days.contains day

/-- Whether a day is selected in a month of a given length. -/
def containsIn (s : MonthDays) (day monthLength : Int) : Bool :=
  s.days.contains day || (s.lastDay && day == monthLength)

/-- The listed days, ascending. -/
def toList (s : MonthDays) : List Int := s.days.toList

end MonthDays

end CronSchedule
