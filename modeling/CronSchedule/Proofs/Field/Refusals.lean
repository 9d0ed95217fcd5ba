import CronSchedule.Proofs.Acceptance
import CronSchedule.ValueSet

/-!
# Whose field a refusal names

* `Field.Blames f x` — whatever a reading refuses, it refuses for the field `f`.

Reading composes by steps and over lists, and so does this property (`Blames.bind`, `Blames.map`,
`Blames.mapM`). Main statement: **whatever the text of a field is refused for, the cause names that
field** (`Field.blames_compile`), reader by reader from the values upward.
-/

namespace CronSchedule

namespace Field

/-- Whatever a reading refuses, it refuses for one field. -/
def Blames {α : Type} (f : Field) (x : Except ParseError α) : Prop :=
  ∀ e, x = .error e → e.field? = some f

/-! ### Composed readings -/

section

variable {f : Field} {α β : Type}

/-- What is accepted is refused for nothing. -/
theorem Blames.ok (a : α) : f.Blames (.ok a) := fun _ h => nomatch h

/-- A refusal blames the field that its cause names. -/
theorem Blames.error {e : ParseError} (h : e.field? = some f) :
    f.Blames (.error e : Except ParseError α) := by
  intro e' he'
  cases he'
  exact h

/-- One reading after another blames a field when both do. -/
theorem Blames.bind {x : Except ParseError α} {k : α → Except ParseError β} (hx : f.Blames x)
    (hk : ∀ a, f.Blames (k a)) : f.Blames (x >>= k) := by
  intro e he
  rcases bind_eq_error_iff.mp he with he | ⟨a, -, he⟩
  · exact hx e he
  · exact hk a e he

/-- A reading whose result is changed afterwards blames a field when it did before. -/
theorem Blames.map {x : Except ParseError α} (hx : f.Blames x) (g : α → β) :
    f.Blames (g <$> x) := by
  cases x with
  | error e => exact .error (hx e rfl)
  | ok a => exact .ok (g a)

/-- The readings of a list blame a field when each of them does. -/
theorem Blames.mapM {read : α → Except ParseError β} (h : ∀ a, f.Blames (read a)) (xs : List α) :
    f.Blames (xs.mapM read) := by
  induction xs with
  | nil => exact .ok []
  | cons x xs ih =>
    rw [List.mapM_cons]
    exact (h x).bind fun b => ih.bind fun bs => .ok (b :: bs)

end

/-! ### The readers of a field -/

variable (f : Field)

theorem blames_resolveAlias (text : Fragment) : f.Blames (f.resolveAlias text) := by
  unfold resolveAlias
  split
  · exact .ok _
  · split
    · exact .ok _
    · exact .error rfl

theorem blames_checkValue (v : Int) : f.Blames (f.checkValue v) := by
  simp only [checkValue]
  split
  · exact .error rfl
  · exact .ok _

theorem blames_resolveStart (raw : Int) : f.Blames (f.resolveStart raw) := by
  simp only [resolveStart]
  generalize (if raw < 0 then raw + f.hi else f.fold raw) = v
  split
  · exact .error rfl
  · exact .ok _

theorem blames_readValue (token text : Fragment) : f.Blames (f.readValue token text) := by
  simp only [readValue]
  split
  · exact .error rfl
  · split
    · exact f.blames_checkValue _
    · exact (f.blames_resolveAlias _).bind f.blames_checkValue

theorem blames_readStart (token text : Fragment) : f.Blames (f.readStart token text) := by
  simp only [readStart]
  split
  · exact .error rfl
  · split
    · exact f.blames_resolveStart _
    · exact (f.blames_resolveAlias _).bind f.blames_resolveStart

theorem blames_readStep (token text : Fragment) : f.Blames (Term.readStep f token text) := by
  unfold Term.readStep
  split
  · split
    · exact .ok _
    · exact .error rfl
  · exact .error rfl

theorem blames_readRange (token text : Fragment) (step : Option Nat) :
    f.Blames (Term.readRange f token text step) := by
  simp only [Term.readRange]
  split
  · exact .error rfl
  split
  · split
    · exact .ok _
    · exact .ok _
  split
  · split
    · exact (f.blames_readValue _ _).map _
    · exact (f.blames_readStart _ _).map _
  · refine (f.blames_readValue _ _).bind fun start => ?_
    split
    · exact .ok _
    · exact (f.blames_readValue _ _).bind fun stop => .ok _
  · exact .error rfl

theorem blames_read (token : Fragment) : f.Blames (Term.read f token) := by
  unfold Term.read
  split
  · exact f.blames_readRange _ _ _
  · exact (f.blames_readStep _ _).bind fun step => f.blames_readRange _ _ _
  · exact .error rfl

theorem blames_readTerms (text : Fragment) : f.Blames (f.readTerms text) := by
  simp only [readTerms]
  split
  · exact .error rfl
  · refine .mapM (fun token => ?_) _
    simp only [readToken]
    split
    · exact .error rfl
    · exact f.blames_read _

/-- **Whatever the text of a field is refused for, the cause names that field.** -/
theorem blames_compile (text : Fragment) : f.Blames (f.compile text) :=
  ((f.blames_readTerms text).map _).map _

end Field

/-- A row of fields is refused with the first of all refusals, and its cause names the field that
is refused. -/
theorem refusals_of_traverse_compile_eq_error {row : PerField Fragment} {e : ParseError}
    (h : row.traverse Field.compile = .error e) :
    ∃ f rest, row.refusals Field.compile = (f, e) :: rest ∧ e.field? = some f := by
  obtain ⟨f, rest, hrefusals⟩ := PerField.traverse_eq_error_iff.mp h
  have hmem : (f, e) ∈ row.refusals Field.compile := by
    rw [hrefusals]
    exact List.mem_cons_self
  exact ⟨f, rest, hrefusals, f.blames_compile _ e (PerField.mem_refusals_iff.mp hmem)⟩

end CronSchedule
