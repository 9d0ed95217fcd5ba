import CronSchedule.Term

/-!
# What a field selects

* `Selection` — the whole field, or the distinct values it lists in the order of their first
  mention.
* `Selection.ofTerms` — the union of terms; one wildcard without a step makes it the whole field.
* `Field.select` — the selection that the text of a field denotes. Every token is read, so an
  error is reported even beside a wildcard.

Main statements: a listed selection repeats no value (`Selection.nodup_of_ofTerms`) and lists
exactly the values of its terms (`Selection.mem_of_ofTerms`).
-/

namespace CronSchedule

/-- What a field selects. -/
inductive Selection where
  /-- Every value, without restriction. -/
  | whole
  /-- The listed values, none of them twice. -/
  | listed (values : List Int)
deriving DecidableEq, Repr

namespace Selection

/-- The union of terms, each value where it is first mentioned. -/
def ofTerms (f : Field) (terms : List Term) : Selection :=
  if .whole ∈ terms then whole else listed (terms.flatMap (Term.values f)).eraseDups

/-- A listed selection lists exactly the values of its terms. -/
theorem mem_of_ofTerms {f : Field} {terms : List Term} {values : List Int}
    (h : ofTerms f terms = listed values) (v : Int) :
    v ∈ values ↔ ∃ t ∈ terms, v ∈ t.values f := by
  rw [ofTerms] at h
  split at h
  · exact nomatch h
  · cases h
    simp

/-- No value stands twice in a list whose later repetitions were erased. -/
theorem nodup_eraseDups : ∀ values : List Int, values.eraseDups.Nodup
  | [] => by simp
  | v :: values => by
    rw [List.eraseDups_cons, List.nodup_cons]
    exact ⟨by simp, nodup_eraseDups _⟩
termination_by values => values.length
decreasing_by simpa using Nat.lt_succ_of_le (List.length_filter_le _ _)

/-- A listed selection repeats no value. -/
theorem nodup_of_ofTerms {f : Field} {terms : List Term} {values : List Int}
    (h : ofTerms f terms = listed values) : values.Nodup := by
  rw [ofTerms] at h
  split at h
  · exact nomatch h
  · cases h
    exact nodup_eraseDups _

end Selection

namespace Field

/-- The term of one token of a field; a blank token is reported with the whole text. -/
def readToken (f : Field) (text token : Fragment) : Except ParseError Term :=
  let token := trim token
  if token = [] then .error (.emptyPart f text) else Term.read f token

/-- The terms of a field's tokens, or the first refusal. -/
def readTerms (f : Field) (text : Fragment) : Except ParseError (List Term) :=
  let text := trim text
  if text = [] then .error (.emptyPart f text)
  else (text.splitOn ',').mapM (f.readToken text)

/-- The selection that the text of a field denotes. -/
def select (f : Field) (text : Fragment) : Except ParseError Selection :=
  Selection.ofTerms f <$> f.readTerms text

end Field

end CronSchedule
