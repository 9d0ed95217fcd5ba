import CronSchedule.Expression
import CronSchedule.Pattern

/-!
# Schedules

A schedule is the trimmed text of an expression with the patterns of its alternatives. It admits
what one of them admits.

* `Pattern.parse` — the pattern of one alternative.
* `Schedule.parse` — the schedule of an expression, or the first refusal.
* `Schedule.fires` — whether a schedule admits an instant.

Main statement: a schedule has at least one pattern (`Schedule.patterns_ne_nil_of_parse`).
-/

namespace CronSchedule

/-- The pattern of one alternative; the fields are compiled in their order. -/
def Pattern.parse (mode : DayMatch) (alternative : Fragment) : Except ParseError Pattern := do
  let row ← fieldWords alternative
  let sets ← row.traverse Field.compile
  return ⟨sets, mode⟩

/-- A compiled expression. -/
structure Schedule where
  /-- The text it was compiled from, without the blanks around it. -/
  expression : Fragment
  /-- The patterns of its alternatives, in order. -/
  patterns : List Pattern
deriving DecidableEq, Repr

namespace Schedule

/-- The pattern of the alternative at an index, which must not be blank. -/
def parseAlternative (mode : DayMatch) (expression alternative : Fragment) (index : Nat) :
    Except ParseError Pattern :=
  if alternative = [] then .error (.emptyAlternative expression index)
  else Pattern.parse mode alternative

/-- The patterns of alternatives, the first of which stands at an index. -/
def parseAlternatives (mode : DayMatch) (expression : Fragment) :
    Nat → List Fragment → Except ParseError (List Pattern)
  | _, [] => .ok []
  | index, alternative :: rest => do
    let pattern ← parseAlternative mode expression alternative index
    let patterns ← parseAlternatives mode expression (index + 1) rest
    return pattern :: patterns

/-- The schedule of an expression, or the first refusal. -/
def parse (mode : DayMatch) (text : Fragment) : Except ParseError Schedule := do
  let expression := trim text
  if expression = [] then .error .emptyExpression
  else
    let patterns ← parseAlternatives mode expression 0 (alternatives expression)
    return ⟨expression, patterns⟩

/-- Whether a schedule admits an instant. -/
def fires (s : Schedule) (time : TimeFields) (bySecond : Bool) : Bool :=
  s.patterns.any (·.fires time bySecond)

/-- There are as many patterns as alternatives. -/
theorem length_parseAlternatives {mode : DayMatch} {expression : Fragment} {index : Nat}
    {rest : List Fragment} {patterns : List Pattern}
    (h : parseAlternatives mode expression index rest = .ok patterns) :
    patterns.length = rest.length := by
  induction rest generalizing index patterns with
  | nil =>
    cases h
    rfl
  | cons alternative rest ih =>
    simp only [parseAlternatives, bind, Except.bind] at h
    split at h
    · exact nomatch h
    · split at h
      · exact nomatch h
      · next hrest =>
        cases h
        simp [ih hrest]

/-- A schedule has at least one pattern. -/
theorem patterns_ne_nil_of_parse {mode : DayMatch} {text : Fragment} {s : Schedule}
    (h : parse mode text = .ok s) : s.patterns ≠ [] := by
  simp only [parse, bind, Except.bind] at h
  split at h
  · exact nomatch h
  · split at h
    · exact nomatch h
    · next hpatterns =>
      cases h
      have hlength := length_parseAlternatives hpatterns
      have hpos := List.length_pos_iff.mpr (alternatives_ne_nil (trim text))
      exact List.length_pos_iff.mp (hlength ▸ hpos)

end Schedule

end CronSchedule
