import CronSchedule.Field
import CronSchedule.Text.Blank

/-!
# Why an expression is refused

* `ParseError` — the cause, with the fragment at fault and the field it was written for.
* `ParseError.message` — its wording.
* `ParseError.field?` — the field at fault, for every cause that lies inside one.
-/

namespace CronSchedule

/-- Why an expression is refused. -/
inductive ParseError where
  /-- The expression is blank. -/
  | emptyExpression
  /-- An alternative of the expression is blank. -/
  | emptyAlternative (expression : Fragment) (index : Nat)
  /-- An alternative has a number of words other than five, six or seven. -/
  | fieldCount (alternative : Fragment) (count : Nat)
  /-- A value, a token or a whole field is blank. -/
  | emptyPart (field : Field) (part : Fragment)
  /-- A word is neither a numeral nor an alias of its field. -/
  | unknownAlias (field : Field) (name : Fragment)
  /-- A step is no integer of at least one. -/
  | nonPositiveStep (field : Field) (part : Fragment)
  /-- A token has more than one slash. -/
  | malformedToken (field : Field) (part : Fragment)
  /-- A range has more than two segments. -/
  | malformedRange (field : Field) (part : Fragment)
  /-- A number lies outside its field's bound. -/
  | outOfRange (field : Field) (value : Int)
deriving DecidableEq, Repr

namespace ParseError

/-- The field at fault; the first three causes lie in no single field. -/
def field? : ParseError → Option Field
  | emptyExpression | emptyAlternative .. | fieldCount .. => none
  | emptyPart f _ | unknownAlias f _ | nonPositiveStep f _ | malformedToken f _
  | malformedRange f _ | outOfRange f _ => some f

/-- The wording of a cause. -/
def message : ParseError → String
  | emptyExpression => "cron expression is empty"
  | emptyAlternative expression index =>
    s!"alternative {index} of '{String.ofList expression}' is empty"
  | fieldCount alternative count =>
    s!"expected 5, 6 or 7 fields, got {count} in '{String.ofList alternative}'"
  | emptyPart f part => s!"empty value in {f.name} field: '{String.ofList part}'"
  | unknownAlias f name => s!"unknown alias '{String.ofList name}' for {f.name} field"
  | nonPositiveStep f part =>
    s!"step must be a positive integer in {f.name} field: '{String.ofList part}'"
  | malformedToken f part => s!"invalid syntax in {f.name} field: '{String.ofList part}'"
  | malformedRange f part => s!"malformed range in {f.name} field: '{String.ofList part}'"
  | outOfRange f value => s!"value {value} out of range [{f.lo}, {f.hi}] for {f.name} field"

end ParseError

end CronSchedule
