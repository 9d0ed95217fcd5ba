import CronSchedule.Selection
import CronSchedule.ValueSet.MonthDays
import CronSchedule.ValueSet.Years

/-!
# The values a compiled field admits

* `ValueSet` — every value, or a set in the representation its field calls for.
* `ValueSet.contains` — plain membership; `ValueSet.containsDay` — membership of a day in a month
  of a given length.
* `ValueSet.toList`, `ValueSet.render` — the members, ascending.
* `ValueSet.ofSelection`, `Field.compile` — the set a field's text denotes.
-/

namespace CronSchedule

/-- The values a compiled field admits. -/
inductive ValueSet where
  /-- Every number: the field is not restricted. -/
  | every
  /-- A small set. -/
  | dense (set : DenseSet)
  /-- Days of the month. -/
  | monthDays (set : MonthDays)
  /-- Years. -/
  | years (set : YearSet)
deriving DecidableEq, Repr

namespace ValueSet

/-- Whether the field is not restricted. -/
def isEvery : ValueSet → Bool
  | every => true
  | _ => false

theorem isEvery_iff {s : ValueSet} : s.isEvery = true ↔ s = every := by
  cases s <;> simp [isEvery]

/-- Whether a number is admitted. -/
def contains : ValueSet → Int → Bool
  | every, _ => true
  | dense set, v => set.contains v
  | monthDays set, v => set.contains v
  | years set, v => set.contains v

/-- Whether a day is admitted in a month of a given length. -/
def containsDay : ValueSet → Int → Int → Bool
  | monthDays set, day, monthLength => set.containsIn day monthLength
  | set, day, _ => set.contains day

/-- The members, ascending; the whole bound of the field where every number is admitted. -/
def toList (f : Field) : ValueSet → List Int
  | every => progression f.lo 1 f.hi
  | dense set => set.toList
  | monthDays set => set.toList
  | years set => set.years

/-- The members with commas between them, or a star for every number. -/
def render : ValueSet → String
  | every => "*"
  | dense set => listing set.toList
  | monthDays set => listing set.toList
  | years set => listing set.years
where
  /-- Numbers with commas between them. -/
  listing (values : List Int) : String := ",".intercalate (values.map toString)

/-- The set a selection denotes, in the representation its field calls for. -/
def ofSelection (f : Field) : Selection → ValueSet
  | .whole => every
  | .listed values =>
    match f with
    | .dayOfMonth => monthDays (.ofList values)
    | .year => years (.ofList values)
    | _ => dense (.ofList f.lo values)

/-- A field is unrestricted exactly when the whole of it was selected. -/
theorem ofSelection_eq_every_iff {f : Field} {s : Selection} :
    ofSelection f s = every ↔ s = .whole := by
  cases s <;> cases f <;> simp [ofSelection]

end ValueSet

/-- The set of values that the text of a field denotes. -/
def Field.compile (f : Field) (text : Fragment) : Except ParseError ValueSet :=
  ValueSet.ofSelection f <$> f.select text

end CronSchedule
