import CronSchedule.ParseError

/-!
# Names for values

The months and the days of the week have names, each a short and a long one, and in every field
`L` names the greatest value. Names are compared without regard to the case of ASCII letters.

* `Field.names` — the rows of names, in the order of the values from the field's least one.
* `Field.aliases` — every name a field accepts, `L` before the others.
* `Field.resolveAlias` — the value a name stands for.

Main statement: a value that a name stands for lies in the field's bound
(`Field.resolveAlias_bounds`).
-/

namespace CronSchedule

/-- Whether two texts differ in the case of ASCII letters at most. -/
def sameIgnoringCase (a b : Fragment) : Bool :=
  a.map Char.toLower == b.map Char.toLower

namespace Field

/-! ### The names -/

/-- The name of a field's greatest value. -/
def lastAlias : String := "L"

/-- The short and the long name of each value, from the least value upward. -/
def names : Field → List (String × String)
  | month =>
    [("jan", "january"), ("feb", "february"), ("mar", "march"), ("apr", "april"), ("may", "may"),
      ("jun", "june"), ("jul", "july"), ("aug", "august"), ("sep", "september"),
      ("oct", "october"), ("nov", "november"), ("dec", "december")]
  | dayOfWeek =>
    [("sun", "sunday"), ("mon", "monday"), ("tue", "tuesday"), ("wed", "wednesday"),
      ("thu", "thursday"), ("fri", "friday"), ("sat", "saturday")]
  | _ => []

/-- Every name a field accepts: `L`, then each value's names, one that is short and long once. -/
def aliases (f : Field) : List String :=
  lastAlias :: f.names.flatMap fun row => if row.1 = row.2 then [row.1] else [row.1, row.2]

/-! ### Resolving a name -/

/-- The position of the first row that holds a name. -/
def findRow? (name : Fragment) : List (String × String) → Option Nat
  | [] => none
  | row :: rows =>
    if sameIgnoringCase name row.1.toList || sameIgnoringCase name row.2.toList then some 0
    else (findRow? name rows).map (· + 1)

/-- The value a name stands for. -/
def resolveAlias (f : Field) (name : Fragment) : Except ParseError Int :=
  if sameIgnoringCase name lastAlias.toList then .ok f.hi
  else
    match findRow? name f.names with
    | some row => .ok (f.lo + row)
    | none => .error (.unknownAlias f name)

/-- A row that is found is one of the rows. -/
theorem findRow?_lt_length {name : Fragment} :
    ∀ {rows : List (String × String)} {i : Nat}, findRow? name rows = some i → i < rows.length
  | [], _, h => nomatch h
  | row :: rows, i, h => by
    rw [findRow?] at h
    split at h
    · cases h
      simp
    · obtain ⟨j, hj, rfl⟩ := Option.map_eq_some_iff.mp h
      simpa using findRow?_lt_length hj

/-- The value that a name stands for lies in the field's bound. -/
theorem resolveAlias_bounds {f : Field} {name : Fragment} {v : Int}
    (h : f.resolveAlias name = .ok v) : f.lo ≤ v ∧ v ≤ f.hi := by
  rw [resolveAlias] at h
  split at h
  · cases h
    exact ⟨f.lo_le_hi, Int.le_refl _⟩
  · split at h
    · next i hrow =>
      cases h
      have := findRow?_lt_length hrow
      cases f <;> simp [names, lo, hi] at this ⊢ <;> omega
    · exact nomatch h

end Field

end CronSchedule
