import CronSchedule.EditDistance
import CronSchedule.Text.LowerCase

/-!
# Suggestions for misspelt names

For a word that is no name, the name nearest to it is suggested, unless it is too far off: the
distance may be half the length of the longer of the two at most, in bytes of their UTF-8 form.

* `suggest` — the name to suggest for a word, of names in their order; of two equally near ones the
  earlier.

Main statement: what is suggested is one of the names (`mem_of_suggest`).
-/

namespace CronSchedule

/-- The distance of a word from a name, without regard to case. -/
def nameDistance (word : Fragment) (name : String) : Nat :=
  editDistance (lowerCase word) (lowerCase name.toList)

/-- How far a name may be from a word to be suggested for it. -/
def suggestionReach (word : Fragment) (name : String) : Nat :=
  max (String.ofList word).utf8ByteSize name.utf8ByteSize / 2

/-- The name to suggest for a word. -/
def suggest (word : Fragment) (names : List String) : Option String :=
  (names.minOn? (nameDistance word)).filter fun name =>
    decide (nameDistance word name ≤ suggestionReach word name)

/-- What is suggested is one of the names. -/
theorem mem_of_suggest {word : Fragment} {names : List String} {name : String}
    (h : suggest word names = some name) : name ∈ names :=
  List.minOn?_mem (Option.filter_eq_some_iff.mp h).1

end CronSchedule
