import CronSchedule.Text.Blank

/-!
# How the two day fields combine

* `DayMatch` — both day fields must admit an instant, or either of them may.
* `DayMatch.read` — the mode a word names, with blanks around it and in any ASCII case.

Main statement: every mode is read back from its name (`DayMatch.read_name`).
-/

namespace CronSchedule

/-- How the day of the month and the day of the week combine. -/
inductive DayMatch where
  /-- Both must admit the instant. -/
  | all
  /-- One of two restricted fields is enough. -/
  | either
deriving DecidableEq, Repr

/-- The refusal of a word that names no mode. -/
structure UnknownDayMatch where
  /-- The word, trimmed and in lower case. -/
  mode : Fragment
deriving DecidableEq, Repr

/-- The wording of the refusal. -/
def UnknownDayMatch.message (e : UnknownDayMatch) : String :=
  s!"unknown day match mode '{String.ofList e.mode}', expected 'all' or 'either'"

namespace DayMatch

/-- The name of a mode. -/
def name : DayMatch → String
  | all => "all"
  | either => "either"

/-- The mode a word names; `and` and `or` are other names for the two. -/
def read (text : Fragment) : Except UnknownDayMatch DayMatch :=
  let mode := (trim text).map Char.toLower
  if mode = "all".toList ∨ mode = "and".toList then .ok all
  else if mode = "either".toList ∨ mode = "or".toList then .ok either
  else .error ⟨mode⟩

/-- Every mode is read back from its name. -/
theorem read_name (mode : DayMatch) : (read mode.name.toList).toOption = some mode := by
  cases mode <;> decide

end DayMatch

end CronSchedule
