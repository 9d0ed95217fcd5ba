import CronSchedule.Calendar.Date
import CronSchedule.Pattern

/-!
# Instants

An instant is a date with a time of day, to the second, on some clock's face: there is no time zone
in it.

* `Instant.fields` — the seven numbers a pattern looks at.
* `Instant.secondNumber`, `Instant.ofSecondNumber` — an instant and its number of seconds.
* `Instant.addSeconds` — the instant some seconds later or earlier.

Main statement: every field of an instant lies in the bound of that field, its year apart
(`Instant.fields_bounds`).
-/

namespace CronSchedule

/-- A date and a time of day. -/
structure Instant where
  date : Date
  hour : Int
  minute : Int
  second : Int
  hour_mem : 0 ≤ hour ∧ hour < 24
  minute_mem : 0 ≤ minute ∧ minute < 60
  second_mem : 0 ≤ second ∧ second < 60
deriving DecidableEq, Repr

namespace Instant

/-- The seven numbers of an instant. -/
def fields (t : Instant) : TimeFields where
  second := t.second
  minute := t.minute
  hour := t.hour
  dayOfMonth := t.date.day
  month := t.date.month
  dayOfWeek := t.date.weekday
  year := t.date.year

/-- The instant on a date at an hour, a minute and a second, if there is one. -/
def ofParts? (date : Date) (hour minute second : Int) : Option Instant :=
  if h : (0 ≤ hour ∧ hour < 24) ∧ (0 ≤ minute ∧ minute < 60) ∧ (0 ≤ second ∧ second < 60) then
    some ⟨date, hour, minute, second, h.1, h.2.1, h.2.2⟩
  else none

/-- The seconds before an instant, from the midnight that begins day number zero. -/
def secondNumber (t : Instant) : Int :=
  86400 * t.date.dayNumber + 3600 * t.hour + 60 * t.minute + t.second

/-- The instant of a number of seconds. -/
def ofSecondNumber (n : Int) : Instant where
  date := Date.ofDayNumber (n / 86400)
  hour := n % 86400 / 3600
  minute := n % 3600 / 60
  second := n % 60
  hour_mem := by omega
  minute_mem := by omega
  second_mem := by omega

/-- The instant some seconds later, or earlier where the number is negative. -/
def addSeconds (t : Instant) (seconds : Int) : Instant :=
  ofSecondNumber (t.secondNumber + seconds)

/-- A second after the end of a leap day March begins. -/
example : ((Date.ofParts? 2024 2 29).bind fun d => (ofParts? d 23 59 59).map fun t =>
    ((t.addSeconds 1).date.month, (t.addSeconds 1).date.day)) = some (3, 1) := by decide

/-- Every field of an instant lies in the bound of that field, its year apart. -/
theorem fields_bounds (t : Instant) {f : Field} (h : f ≠ .year) :
    f.lo ≤ t.fields.get f ∧ t.fields.get f ≤ f.hi := by
  have hday := t.date.day_mem
  have hlength := daysInMonth_bounds t.date.year t.date.month
  have hmonth := t.date.month_mem
  have hhour := t.hour_mem
  have hminute := t.minute_mem
  have hsecond := t.second_mem
  cases f with
  | year => exact absurd rfl h
  | _ =>
    simp only [Field.lo, Field.hi, fields, PerField.get, Date.weekday]
    omega

end Instant

end CronSchedule
