import CronSchedule.Proofs.Schedule.Parsing
import CronSchedule.Proofs.Text.Digits
import CronSchedule.Validation
import Mathlib.Data.List.Basic

/-!
# Where warnings lie

* **Paths** (`Place.path_injective`): places with the same path are the same place, since the index
  of an alternative ends at its bracket.
* **Patterns** (`Pattern.mem_warnings_iff`): the two warnings on a pattern, each with its condition.
* **Reports** (`mem_warnings_validate_iff`): the warnings on an expression are those on the patterns
  of the alternatives that are parsed, whether or not others are.
-/

namespace CronSchedule

/-! ### Paths -/

/-- A number that a bracket closes can be told from the text behind it. -/
theorem toDigits_bracket_inj {i j : Nat} {rest other : List Char} (hrest : ']' ∉ rest)
    (h : Nat.toDigits 10 i ++ ']' :: rest = Nat.toDigits 10 j ++ ']' :: other) :
    i = j ∧ rest = other := by
  have hbracket : ']' ∉ Nat.toDigits 10 i := by
    intro hmem
    exact isDigit_ne_mark (isDigit_of_mem_toDigits hmem) (by decide) rfl
  obtain ⟨hdigits, -, hrest⟩ := (List.append_cons_inj_of_notMem hbracket hrest).mp h
  have hread : some i = some j := by
    rw [← readNatural?_toDigits, hdigits, readNatural?_toDigits]
  exact ⟨Option.some.inj hread, hrest⟩

namespace Place

/-- A place in the alternative at an index: a field of it, or the alternative as a whole. -/
def inAlternative (index : Nat) : Option Field → Place
  | none => alternative index
  | some f => field index f

/-- What the path of a place in an alternative has behind the bracket of the index. -/
def textBehindIndex : Option Field → List Char
  | none => []
  | some f => '.' :: f.name.toList

/-- No bracket stands behind the index. -/
theorem bracket_not_mem_textBehindIndex (part : Option Field) : ']' ∉ textBehindIndex part := by
  cases part with
  | none => exact List.not_mem_nil
  | some f => cases f <;> decide

/-- The text behind the index names the field. -/
theorem textBehindIndex_injective {part other : Option Field}
    (h : textBehindIndex part = textBehindIndex other) : part = other := by
  cases part with
  | none =>
    cases other with
    | none => rfl
    | some g => simp [textBehindIndex] at h
  | some f =>
    cases other with
    | none => simp [textBehindIndex] at h
    | some g =>
      simp only [textBehindIndex, List.cons.injEq, true_and] at h
      rw [Field.name_injective (String.toList_inj.mp h)]

/-- The path of a place in an alternative, as characters. -/
theorem toList_path_inAlternative (index : Nat) (part : Option Field) :
    (inAlternative index part).path.toList =
      "alternatives[".toList ++ (Nat.toDigits 10 index ++ ']' :: textBehindIndex part) := by
  cases part with
  | none =>
    simp [inAlternative, path, textBehindIndex]
    rfl
  | some f =>
    simp [inAlternative, path, textBehindIndex]
    rfl

/-- Every place but the whole expression lies in an alternative. -/
theorem eq_expression_or_eq_inAlternative (place : Place) :
    place = expression ∨ ∃ index part, place = inAlternative index part := by
  cases place with
  | expression => exact .inl rfl
  | alternative index => exact .inr ⟨index, none, rfl⟩
  | field index f => exact .inr ⟨index, some f, rfl⟩

/-- A place in an alternative has a path, unlike the whole expression. -/
theorem path_inAlternative_ne (index : Nat) (part : Option Field) :
    (inAlternative index part).path ≠ expression.path := by
  intro h
  have hchars := congrArg String.toList h
  rw [toList_path_inAlternative] at hchars
  exact nomatch hchars

/-- **Places with the same path are the same place.** -/
theorem path_injective {place other : Place} (h : place.path = other.path) : place = other := by
  obtain rfl | ⟨i, part, rfl⟩ := eq_expression_or_eq_inAlternative place
  · obtain rfl | ⟨j, part', rfl⟩ := eq_expression_or_eq_inAlternative other
    · rfl
    · exact absurd h.symm (path_inAlternative_ne j part')
  · obtain rfl | ⟨j, part', rfl⟩ := eq_expression_or_eq_inAlternative other
    · exact absurd h (path_inAlternative_ne i part)
    · have hchars := congrArg String.toList h
      rw [toList_path_inAlternative, toList_path_inAlternative] at hchars
      obtain ⟨rfl, hpart⟩ := toDigits_bracket_inj (bracket_not_mem_textBehindIndex part)
        (List.append_cancel_left hchars)
      rw [textBehindIndex_injective hpart]

end Place

/-! ### Warnings on a pattern -/

namespace Pattern

/-- The day of the week alone may fire a pattern: both day fields are restricted, and one of them is
enough. -/
def WeekdaySuffices (p : Pattern) : Prop :=
  p.bothDaysRestricted = true ∧ p.dayMatch = .either

/-- **The two warnings on a pattern**, each with its condition. -/
theorem mem_warnings_iff {p : Pattern} {index : Nat} {w : Warning} :
    w ∈ p.warnings index ↔
      (w = ⟨.alternative index, .bothDaysRestricted⟩ ∧
        p.bothDaysRestricted = true ∧ p.dayMatch = .all) ∨
      (w = ⟨.field index .dayOfMonth, .dayNeverOccurs⟩ ∧
        ¬p.WeekdaySuffices ∧ dayOccurs p.sets.dayOfMonth p.sets.month = false) := by
  unfold warnings WeekdaySuffices
  rw [List.mem_append]
  refine or_congr ?_ ?_
  · split
    · next h => simp [h]
    · next h => simp [h]
  · split
    · next h => simp [h]
    · next h =>
      simp only [List.not_mem_nil, false_iff]
      exact fun hw => h hw.2

end Pattern

/-! ### Warnings on an expression -/

section

variable {mode : DayMatch} {expression alternative : Fragment} {index : Nat} {w : Warning}

/-- An alternative is parsed exactly when gathering the refusals of its fields finds none, and then
to the same sets. -/
theorem parse_eq_ok_iff_collect {p : Pattern} :
    Pattern.parse mode alternative = .ok p ↔
      ∃ row, fieldWords alternative = .ok row ∧ row.collect Field.compile = .ok p.sets ∧
        p.dayMatch = mode := by
  simp only [Pattern.parse, bind_eq_ok_iff, PerField.traverse_eq_ok_iff,
    PerField.collect_eq_ok_iff]
  refine exists_congr fun row => and_congr_right fun _ => ⟨?_, ?_⟩
  · intro h
    obtain ⟨sets, hsets, hp⟩ := h
    cases hp
    exact ⟨hsets, rfl⟩
  · intro h
    obtain ⟨hsets, rfl⟩ := h
    exact ⟨p.sets, hsets, rfl⟩

/-- **The warnings on an alternative** are those on its pattern, where it is parsed. -/
theorem mem_warnings_checkAlternative_iff :
    w ∈ (checkAlternative mode expression alternative index).warnings ↔
      ∃ p, Pattern.parse mode alternative = .ok p ∧ w ∈ p.warnings index := by
  have hunparsed : (∀ p, Pattern.parse mode alternative ≠ .ok p) →
      (w ∈ ([] : List Warning) ↔ ∃ p, Pattern.parse mode alternative = .ok p ∧
        w ∈ p.warnings index) := by
    intro hnone
    refine iff_of_false List.not_mem_nil ?_
    intro h
    obtain ⟨p, hp, -⟩ := h
    exact hnone p hp
  unfold checkAlternative
  split
  · next hblank => exact hunparsed fun p hp => Pattern.ne_nil_of_parse hp hblank
  · cases hrow : fieldWords alternative with
    | error cause =>
      refine hunparsed fun p hp => ?_
      obtain ⟨row, hrow', -⟩ := parse_eq_ok_iff_collect.mp hp
      rw [hrow] at hrow'
      exact nomatch hrow'
    | ok row =>
      cases hcollect : row.collect Field.compile with
      | error refusals =>
        simp only [hcollect, Report.foldl_error]
        refine hunparsed fun p hp => ?_
        obtain ⟨row', hrow', hcollect', -⟩ := parse_eq_ok_iff_collect.mp hp
        rw [hrow] at hrow'
        cases hrow'
        rw [hcollect] at hcollect'
        exact nomatch hcollect'
      | ok sets =>
        have hparsed : Pattern.parse mode alternative = .ok ⟨sets, mode⟩ :=
          parse_eq_ok_iff_collect.mpr ⟨row, hrow, hcollect, rfl⟩
        simp only [hcollect, Report.foldl_warn, hparsed, Except.ok.injEq]
        simp [Report.empty]

/-- The warnings on alternatives are those on each of them, at its index. -/
theorem mem_warnings_checkAlternatives_iff {rest : List Fragment} :
    w ∈ (checkAlternatives mode expression index rest).warnings ↔
      ∃ i alternative, rest[i]? = some alternative ∧
        ∃ p, Pattern.parse mode alternative = .ok p ∧ w ∈ p.warnings (index + i) := by
  induction rest generalizing index with
  | nil => simp [checkAlternatives, Report.empty]
  | cons first rest ih =>
    unfold checkAlternatives Report.append
    rw [List.mem_append, mem_warnings_checkAlternative_iff, ih]
    -- the first alternative stands at index zero, and each of the others one further on
    refine ⟨?_, ?_⟩
    · intro h
      rcases h with h | ⟨i, alternative, hi, h⟩
      · exact ⟨0, first, rfl, h⟩
      · refine ⟨i + 1, alternative, hi, ?_⟩
        rwa [Nat.add_assoc, Nat.add_comm 1 i] at h
    · intro h
      obtain ⟨i, alternative, hi, h⟩ := h
      cases i with
      | zero =>
        cases hi
        exact .inl h
      | succ i =>
        refine .inr ⟨i, alternative, hi, ?_⟩
        rwa [Nat.add_assoc, Nat.add_comm 1 i]

/-- **The warnings on an expression** are those on the patterns of its alternatives, of as many as
are parsed. -/
theorem mem_warnings_validate_iff {text : Fragment} :
    w ∈ (validate mode text).warnings ↔
      ∃ i alternative, (alternatives (trim text))[i]? = some alternative ∧
        ∃ p, Pattern.parse mode alternative = .ok p ∧ w ∈ p.warnings i := by
  simp only [validate]
  split
  · next hblank =>
    -- a blank expression has one alternative, which is blank and so not parsed
    refine iff_of_false List.not_mem_nil ?_
    intro h
    obtain ⟨i, alternative, hi, p, hp, -⟩ := h
    rw [hblank] at hi
    have hempty : alternative = [] := List.mem_singleton.mp (List.mem_of_getElem? hi)
    exact Pattern.ne_nil_of_parse hp hempty
  · rw [mem_warnings_checkAlternatives_iff]
    simp only [Nat.zero_add]

end

end CronSchedule
