import CronSchedule.Calendar.Timestamp
import CronSchedule.Json
import CronSchedule.Settings
import CronSchedule.Validation

/-!
# Commands

* `Command.check` — the findings on an expression, as lines or as JSON.
* `Command.explain` — the values of each field of each alternative.
* `Command.test` — whether an instant is admitted.

A command answers with an `Outcome`, or fails with a `CommandError`.
-/

namespace CronSchedule

/-- What a command prints, and whether its answer is a good one. -/
structure Outcome where
  success : Bool
  output : String
deriving DecidableEq, Repr

/-- Why a command cannot answer. -/
inductive CommandError where
  | invalidExpression (expression : String) (cause : ParseError)
  | invalidTimestamp (text : String) (cause : TimestampError)
deriving DecidableEq, Repr

namespace CommandError

/-- The wording of a failure. -/
def message : CommandError → String
  | invalidExpression expression _ => s!"invalid expression '{expression}'"
  | invalidTimestamp text _ => s!"invalid RFC 3339 timestamp '{text}'"

/-- The wording of its cause. -/
def causeMessage : CommandError → String
  | invalidExpression _ cause => cause.message
  | invalidTimestamp _ cause => cause.message

end CommandError

namespace Report

/-- The line of a problem. -/
def problemLine (p : Problem) : String :=
  let hint := (p.hint.map fun hint => s!" ({hint})").getD ""
  s!"error: {p.place.path}: {p.message}{hint}\n"

/-- The line of a warning. -/
def warningLine (w : Warning) : String :=
  s!"warning: {w.place.path}: {w.advice.message}\n"

/-- The findings on an expression as lines. -/
def render (expression : String) (r : Report) : String :=
  String.join (r.problems.map problemLine) ++ String.join (r.warnings.map warningLine) ++
    if r.valid then s!"valid: {expression}\n" else ""

/-- A problem as JSON; without a suggestion there is no such member. -/
def problemJson (p : Problem) : Json :=
  .object
    ([("path", .string p.place.path), ("message", .string p.message)] ++
      (p.hint.map fun hint => ("suggestion", Json.string hint)).toList)

/-- A warning as JSON. -/
def warningJson (w : Warning) : Json :=
  .object [("path", .string w.place.path), ("message", .string w.advice.message)]

/-- The findings as JSON. -/
def toJson (r : Report) : Json :=
  .object
    [("valid", .bool r.valid), ("errors", .array (r.problems.map problemJson)),
      ("warnings", .array (r.warnings.map warningJson))]

end Report

namespace Command

/-- The schedule of an expression given to a command. -/
def schedule (settings : MatchSettings) (expression : String) : Except CommandError Schedule :=
  (Schedule.parse settings.dayMatch expression.toList).mapError
    (.invalidExpression expression)

/-- The findings on an expression; the command succeeds when it is valid. -/
def check (settings : MatchSettings) (expression : String) (json : Bool) : Outcome :=
  let report := validate settings.dayMatch expression.toList
  ⟨report.valid, if json then report.toJson.render else report.render expression⟩

/-- The width of the column of field names. -/
def nameColumn : Nat := 13

/-- The line of one field of a pattern. -/
def fieldLine (p : Pattern) (f : Field) : String :=
  let padding := String.ofList (List.replicate (nameColumn - f.name.length) ' ')
  s!"  {f.name}{padding} {(p.sets.get f).render}\n"

/-- The lines of patterns, the first of which has a number. -/
def patternLines : Nat → List Pattern → String
  | _, [] => ""
  | number, p :: rest =>
    s!"alternative {number}: {p.render}\n" ++ String.join (Field.all.map (fieldLine p)) ++
      patternLines (number + 1) rest

/-- The values of each field of each alternative. -/
def explain (settings : MatchSettings) (expression : String) : Except CommandError Outcome := do
  let schedule ← schedule settings expression
  let heading := s!"day match: {settings.dayMatch.name}\n"
  return ⟨true, heading ++ patternLines 1 schedule.patterns⟩

/-- Whether an expression admits an instant that `moment` reads; the command succeeds when it
does. The expression is read first. -/
def testAt (settings : MatchSettings) (expression : String)
    (moment : Except CommandError Timestamp) : Except CommandError Outcome := do
  let schedule ← schedule settings expression
  let timestamp ← moment
  let admitted := schedule.fires timestamp.instant.fields settings.matchSecond
  let verdict := if admitted then "match" else "no match"
  let text := String.ofList schedule.expression
  return ⟨admitted, s!"{verdict}: {text} at {timestamp.render}\n"⟩

/-- The timestamp a text denotes. -/
def readTimestamp (text : String) : Except CommandError Timestamp :=
  (Timestamp.parse text.toList).mapError (.invalidTimestamp text)

/-- Whether an expression admits the instant of a timestamp. -/
def test (settings : MatchSettings) (expression timestamp : String) :
    Except CommandError Outcome :=
  testAt settings expression (readTimestamp timestamp)

end Command

end CronSchedule
