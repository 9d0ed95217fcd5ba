import CronSchedule.Proofs.Field.Aliases
import CronSchedule.Proofs.ValueSet.Membership
import CronSchedule.Proofs.Validation.Findings

/-!
# Hints that can be followed

A report hints at the name that may have been meant where a field holds a word that is no name of
it. The hint is found in the list of aliases, and followed by the parser of the field.

* `Field.Usable` — an alias that can be written into a field alone.
* `Problem.Offers` — a problem at an unknown name of a field, which offers one that is usable there.

Every alias is usable (`Field.usable_of_mem_aliases`). Problems of fields are the only ones that can
come with a suggestion, and their cause names the field they lie in, so that what is suggested is an
alias of just that field (`Problem.offers_ofField`).

Main statement: **every hint of a report offers a usable name for an unknown one, and aliases are
resolved to values that pass the check** (`hints_are_usable`).
-/

namespace CronSchedule

namespace Field

variable {f : Field} {word : Fragment} {name : String} {v : Int}

/-- An alias of a field whose text alone is accepted there, and selects the value it names. -/
structure Usable (f : Field) (name : String) : Prop where
  mem_aliases : name ∈ f.aliases
  accepted : ∃ v, f.resolveAlias name.toList = .ok v ∧
    f.select name.toList = .ok (.listed [v]) ∧
    f.compile name.toList = .ok (.ofSelection f (.listed [v]))

/-- Every alias is usable. -/
theorem usable_of_mem_aliases (h : name ∈ f.aliases) : f.Usable name where
  mem_aliases := h
  accepted := by
    obtain ⟨v, hnames⟩ := exists_names_of_mem_aliases h
    have hselect := select_of_names hnames
    exact ⟨v, resolveAlias_eq_ok_iff.mpr hnames, hselect, compile_eq_ok_iff.mpr ⟨_, hselect, rfl⟩⟩

/-- **What an alias is resolved to passes the check unchanged**, where a value is read and where the
start of a stepped sequence is. -/
theorem read_of_resolveAlias (h : f.resolveAlias word = .ok v) :
    f.checkValue v = .ok v ∧
      ∀ token, f.readValue token word = .ok v ∧ f.readStart token word = .ok v := by
  have hnames := resolveAlias_eq_ok_iff.mp h
  have htrim : trim word = word := trim_of_bare (valueWord_of_names hnames).bare
  rw [← htrim] at hnames
  exact ⟨checkValue_of_names hnames, fun token =>
    ⟨readValue_of_names hnames token, readStart_of_names hnames token⟩⟩

end Field

namespace Problem

variable {p : Problem} {name : String}

/-! ### The wording of a hint -/

/-- Hints at different names are worded differently. -/
theorem hint_wording_inj {x y : String} :
    s!"Did you mean '{x}'?" = s!"Did you mean '{y}'?" ↔ x = y := by
  constructor
  · intro h
    have hname : toString x = toString y := by
      simpa [String.toList_inj] using congrArg String.toList h
    exact hname
  · rintro rfl
    rfl

/-- A hint is the wording of a suggestion. -/
theorem hint_eq_some_iff {hint : String} : p.hint = some hint ↔
    ∃ name, p.suggestion = some name ∧ s!"Did you mean '{name}'?" = hint :=
  Option.map_eq_some_iff

/-! ### What is suggested -/

/-- A problem at an unknown name of a field, which offers a name that is usable there. -/
inductive Offers (p : Problem) (name : String) : Prop
  | intro (index : Nat) (f : Field) (word : Fragment) (place : p.place = .field index f)
      (cause : p.cause = .unknownAlias f word) (usable : f.Usable name) : p.Offers name

/-- What is suggested for a field that is refused is usable there. -/
theorem offers_ofField {index : Nat} {f : Field} {cause : ParseError}
    (hfield : cause.field? = some f) (h : (ofField index f cause).suggestion = some name) :
    (ofField index f cause).Offers name := by
  obtain ⟨hmem, g, word, rfl⟩ := suggestion_of_field h
  obtain rfl : g = f := Option.some.inj hfield
  exact .intro index g word rfl rfl (Field.usable_of_mem_aliases hmem)

/-- What is suggested at an alternative is usable in its field. -/
theorem offers_of_mem_alternativeProblems {expression alternative : Fragment} {index : Nat}
    (hp : p ∈ alternativeProblems expression alternative index) (h : p.suggestion = some name) :
    p.Offers name := by
  rcases mem_alternativeProblems_iff.mp hp with
    ⟨-, rfl⟩ | ⟨-, -, rfl⟩ | ⟨row, -, f, cause, hcause, rfl⟩
  · cases h
  · cases h
  · exact offers_ofField (f.blames_compile _ cause hcause) h

/-- What a report suggests is usable in the field where it is suggested. -/
theorem offers_of_mem_problems {mode : DayMatch} {text : Fragment}
    (hp : p ∈ (validate mode text).problems) (h : p.suggestion = some name) : p.Offers name := by
  by_cases hblank : trim text = []
  · -- a blank expression has one problem, without a suggestion
    rw [validate, if_pos hblank] at hp
    obtain rfl := List.mem_singleton.mp hp
    cases h
  · obtain ⟨i, alternative, -, hmem⟩ := (mem_problems_validate_iff hblank).mp hp
    exact offers_of_mem_alternativeProblems hmem h

end Problem

/-- **Hints can be followed.** A word is resolved exactly when it is an alias of its field, up to
case, and what it is resolved to passes the check of values unchanged. So the hints of a report
stand at unknown names of its fields only, and the name that is hinted at is accepted alone in the
field where the unknown one stands. -/
theorem hints_are_usable :
    (∀ (f : Field) (word : Fragment), (∃ v, f.resolveAlias word = .ok v) ↔
      ∃ name ∈ f.aliases, sameIgnoringCase word name.toList = true) ∧
    (∀ (f : Field) (word : Fragment) (v : Int), f.resolveAlias word = .ok v →
      f.checkValue v = .ok v ∧
        ∀ token, f.readValue token word = .ok v ∧ f.readStart token word = .ok v) ∧
    ∀ (mode : DayMatch) (text : Fragment), ∀ p ∈ (validate mode text).problems,
      (∀ hint, p.hint = some hint → ∃ name : String, hint = s!"Did you mean '{name}'?") ∧
      (∀ name : String, p.hint = some s!"Did you mean '{name}'?" → p.Offers name) ∧
      ((∀ f word, p.cause ≠ .unknownAlias f word) → p.hint = none) := by
  refine ⟨fun f word => Field.exists_resolveAlias_iff, fun f word v => Field.read_of_resolveAlias,
    fun mode text p hp => ⟨?_, ?_, ?_⟩⟩
  · intro hint hhint
    obtain ⟨name, -, rfl⟩ := Problem.hint_eq_some_iff.mp hhint
    exact ⟨name, rfl⟩
  · intro name hhint
    obtain ⟨name', hsuggestion, hsame⟩ := Problem.hint_eq_some_iff.mp hhint
    obtain rfl := Problem.hint_wording_inj.mp hsame
    exact Problem.offers_of_mem_problems hp hsuggestion
  · intro hother
    cases hsuggestion : p.suggestion with
    | none => rw [Problem.hint, hsuggestion, Option.map_none]
    | some name =>
      obtain ⟨index, f, word, hplace, hcause, husable⟩ :=
        Problem.offers_of_mem_problems hp hsuggestion
      exact absurd hcause (hother f word)

/-- For the hour `LL` in a second alternative `L` is offered, and the day 32 behind it gets no
hint. -/
theorem hints_are_usable_at_misspelt_last :
    (∃ p ∈ (validate .all "0 9 * * * | 0 LL 32 * *".toList).problems,
      p.hint = some "Did you mean 'L'?" ∧ p.Offers "L") ∧
    (∃ p ∈ (validate .all "0 9 * * * | 0 LL 32 * *".toList).problems,
      p.cause = .outOfRange .dayOfMonth 32 ∧ p.hint = none) ∧
    Field.dayOfWeek.resolveAlias "MONDAY".toList = .ok 1 ∧ Field.dayOfWeek.checkValue 1 = .ok 1 := by
  obtain ⟨-, hresolved, hhints⟩ := hints_are_usable
  have hlast : .ofField 1 .hour (.unknownAlias .hour "LL".toList) ∈
      (validate .all "0 9 * * * | 0 LL 32 * *".toList).problems := by decide +kernel
  have hhint : (Problem.ofField 1 .hour (.unknownAlias .hour "LL".toList)).hint =
      some "Did you mean 'L'?" := by decide +kernel
  have hday : .ofField 1 .dayOfMonth (.outOfRange .dayOfMonth 32) ∈
      (validate .all "0 9 * * * | 0 LL 32 * *".toList).problems := by decide +kernel
  have hmonday : Field.dayOfWeek.resolveAlias "MONDAY".toList = .ok 1 := by decide
  refine ⟨⟨_, hlast, hhint, (hhints .all _ _ hlast).2.1 "L" hhint⟩, ⟨_, hday, rfl, ?_⟩, hmonday,
    (hresolved _ _ 1 hmonday).1⟩
  exact (hhints .all _ _ hday).2.2 fun f word => nofun

end CronSchedule
