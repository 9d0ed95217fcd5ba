import CronSchedule.Schedule
import CronSchedule.Suggestion

/-!
# Validation

Where parsing stops at the first refusal, validation looks at every field of every alternative and
reports all that is wrong, and of alternatives that compile what is most likely not meant.

* `Place` — where in an expression a finding lies.
* `Problem`, `Warning`, `Report` — the findings.
* `validate` — the report on an expression.

Main statements: only an unknown name gets a suggestion (`Problem.suggestion_of_field`), and an
alternative with a problem gets no warning (`checkAlternative_warnings`).
-/

namespace CronSchedule

/-! ### Findings -/

/-- Where in an expression a finding lies. -/
inductive Place where
  | expression
  | alternative (index : Nat)
  | field (index : Nat) (field : Field)
deriving DecidableEq, Repr

/-- The path of a place; the whole expression has the empty one. -/
def Place.path : Place → String
  | expression => ""
  | alternative index => s!"alternatives[{index}]"
  | field index f => s!"alternatives[{index}].{f.name}"

/-- Why a part of an expression is refused, with the name that may have been meant. -/
structure Problem where
  place : Place
  cause : ParseError
  suggestion : Option String
deriving DecidableEq, Repr

namespace Problem

/-- The wording of a problem. -/
def message (p : Problem) : String := p.cause.message

/-- The wording of its suggestion. -/
def hint (p : Problem) : Option String := p.suggestion.map fun name => s!"Did you mean '{name}'?"

/-- A problem of an expression or an alternative as a whole. -/
def general (place : Place) (cause : ParseError) : Problem := ⟨place, cause, none⟩

/-- A problem of a field; for an unknown name the nearest one is suggested. -/
def ofField (index : Nat) (f : Field) (cause : ParseError) : Problem :=
  match cause with
  | .unknownAlias _ name => ⟨.field index f, cause, suggest name f.aliases⟩
  | _ => ⟨.field index f, cause, none⟩

/-- What is suggested for a field is a name of that field, in place of an unknown one. -/
theorem suggestion_of_field {index : Nat} {f : Field} {cause : ParseError} {name : String}
    (h : (ofField index f cause).suggestion = some name) :
    name ∈ f.aliases ∧ ∃ g word, cause = .unknownAlias g word := by
  cases cause with
  | unknownAlias g word => exact ⟨mem_of_suggest h, g, word, rfl⟩
  | _ => exact nomatch h

end Problem

/-- What is most likely not meant in an alternative that compiles. -/
inductive Advice where
  /-- Both day fields are restricted, and both must admit an instant. -/
  | bothDaysRestricted
  /-- No selected month has a selected day. -/
  | dayNeverOccurs
deriving DecidableEq, Repr

/-- The wording of an advice. -/
def Advice.message : Advice → String
  | bothDaysRestricted =>
    "day-of-month and day-of-week are both restricted and must both match; " ++
      "use day match 'either' for classic cron behaviour"
  | dayNeverOccurs =>
    "no selected day-of-month exists in any selected month; this alternative never matches"

/-- An advice and where it applies. -/
structure Warning where
  place : Place
  advice : Advice
deriving DecidableEq, Repr

/-- The findings on an expression, in the order of its alternatives. -/
structure Report where
  /-- Whether nothing was refused. -/
  valid : Bool
  problems : List Problem
  warnings : List Warning
deriving DecidableEq, Repr

namespace Report

/-- The report without findings. -/
def empty : Report := ⟨true, [], []⟩

/-- The report with a problem added, which makes the expression invalid. -/
def error (r : Report) (p : Problem) : Report :=
  { r with valid := false, problems := r.problems ++ [p] }

/-- The report with a warning added, which leaves the expression valid. -/
def warn (r : Report) (w : Warning) : Report := { r with warnings := r.warnings ++ [w] }

/-- The findings of two reports, one after the other. -/
def append (a b : Report) : Report :=
  ⟨a.valid && b.valid, a.problems ++ b.problems, a.warnings ++ b.warnings⟩

/-- Problems added one by one stand behind those in front, and any of them makes the expression
invalid. -/
theorem foldl_error {α : Type} (problem : α → Problem) (items : List α) (r : Report) :
    items.foldl (fun r item => r.error (problem item)) r =
      ⟨r.valid && items.isEmpty, r.problems ++ items.map problem, r.warnings⟩ := by
  induction items generalizing r with
  | nil => simp
  | cons item items ih =>
    rw [List.foldl_cons, ih]
    simp [error]

/-- Warnings added one by one stand behind those in front, and change nothing else. -/
theorem foldl_warn (warnings : List Warning) (r : Report) :
    warnings.foldl warn r = { r with warnings := r.warnings ++ warnings } := by
  induction warnings generalizing r with
  | nil => simp
  | cons w warnings ih =>
    rw [List.foldl_cons, ih]
    simp [warn]

end Report

/-! ### Days that never occur -/

/-- A year in which every date of any year exists. -/
def longestYear : Int := 2000

/-- Whether some selected month has a selected day in some year. The last day of a month is one in
every month. -/
def dayOccurs (dayOfMonth month : ValueSet) : Bool :=
  match dayOfMonth with
  | .every => true
  | .monthDays ⟨_, true⟩ => true
  | days =>
    (month.toList .month).any fun m =>
      (days.toList .dayOfMonth).any fun d => decide (d ≤ daysInMonth longestYear m)

/-- The warnings on a pattern. Under `either`, the day of the week may fire a pattern whose day of
the month never occurs. -/
def Pattern.warnings (p : Pattern) (index : Nat) : List Warning :=
  (if p.bothDaysRestricted ∧ p.dayMatch = .all then
    [⟨.alternative index, .bothDaysRestricted⟩] else []) ++
  (if ¬(p.bothDaysRestricted ∧ p.dayMatch = .either) ∧
      dayOccurs p.sets.dayOfMonth p.sets.month = false then
    [⟨.field index .dayOfMonth, .dayNeverOccurs⟩] else [])

/-! ### Checking an expression -/

/-- The findings on the alternative at an index. -/
def checkAlternative (mode : DayMatch) (expression alternative : Fragment) (index : Nat) :
    Report :=
  if alternative = [] then
    Report.empty.error (.general (.alternative index) (.emptyAlternative expression index))
  else
    match fieldWords alternative with
    | .error cause => Report.empty.error (.general (.alternative index) cause)
    | .ok row =>
      match row.collect Field.compile with
      | .ok sets => (Pattern.warnings ⟨sets, mode⟩ index).foldl Report.warn .empty
      | .error refusals =>
        refusals.foldl (fun r refusal => r.error (.ofField index refusal.1 refusal.2)) .empty

/-- The findings on alternatives, the first of which stands at an index. -/
def checkAlternatives (mode : DayMatch) (expression : Fragment) : Nat → List Fragment → Report
  | _, [] => .empty
  | index, alternative :: rest =>
    (checkAlternative mode expression alternative index).append
      (checkAlternatives mode expression (index + 1) rest)

/-- The findings on an expression. -/
def validate (mode : DayMatch) (text : Fragment) : Report :=
  let expression := trim text
  if expression = [] then Report.empty.error (.general .expression .emptyExpression)
  else checkAlternatives mode expression 0 (alternatives expression)

/-- An alternative that gets a warning has no problem. -/
theorem checkAlternative_warnings {mode : DayMatch} {expression alternative : Fragment}
    {index : Nat} (h : (checkAlternative mode expression alternative index).warnings ≠ []) :
    (checkAlternative mode expression alternative index).problems = [] := by
  rw [checkAlternative] at h ⊢
  split at h
  · simp [Report.error, Report.empty] at h
  · split at h
    · simp [Report.error, Report.empty] at h
    · split at h
      · next hempty _ _ _ _ _ _ => simp [hempty, Report.foldl_warn, Report.empty]
      · simp [Report.foldl_error, Report.empty] at h

end CronSchedule
