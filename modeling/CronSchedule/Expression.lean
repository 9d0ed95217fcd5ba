import CronSchedule.ParseError

/-!
# The parts of an expression

An expression is written as alternatives with bars between them, and an alternative as five, six
or seven words, one for each field that is written.

* `alternatives` — the trimmed alternatives of an expression.
* `fieldWords` — the seven fields of an alternative: without its seconds an alternative means
  second `0`, without its years every year.

Main statements: an expression has at least one alternative (`alternatives_ne_nil`), and the fields
of an alternative depend on its words alone (`fieldWords_of_words`).
-/

namespace CronSchedule

/-- The alternatives of an expression, without the blanks around them. -/
def alternatives (expression : Fragment) : List Fragment :=
  (expression.splitOn '|').map trim

/-- There is always an alternative. -/
theorem alternatives_ne_nil (expression : Fragment) : alternatives expression ≠ [] := by
  simp [alternatives, List.splitOn, List.splitOnP_ne_nil]

/-- The words of an alternative with the defaults written out, if their number is right. -/
def expandWords : List Fragment → Option (PerField Fragment)
  | [minute, hour, dayOfMonth, month, dayOfWeek] =>
    some ⟨['0'], minute, hour, dayOfMonth, month, dayOfWeek, ['*']⟩
  | [second, minute, hour, dayOfMonth, month, dayOfWeek] =>
    some ⟨second, minute, hour, dayOfMonth, month, dayOfWeek, ['*']⟩
  | [second, minute, hour, dayOfMonth, month, dayOfWeek, year] =>
    some ⟨second, minute, hour, dayOfMonth, month, dayOfWeek, year⟩
  | _ => none

/-- The seven fields of an alternative. -/
def fieldWords (alternative : Fragment) : Except ParseError (PerField Fragment) :=
  match expandWords (words alternative) with
  | some row => .ok row
  | none => .error (.fieldCount alternative (words alternative).length)

/-- The fields depend on the words alone. -/
theorem fieldWords_of_words {alternative : Fragment} {row : PerField Fragment}
    (h : expandWords (words alternative) = some row) : fieldWords alternative = .ok row := by
  rw [fieldWords, h]

end CronSchedule
