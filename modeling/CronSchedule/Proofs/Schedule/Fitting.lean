import CronSchedule.Proofs.Schedule.Canonical
import CronSchedule.Proofs.ValueSet.Fitting

/-!
# What is compiled fits its fields

Every set of a parsed pattern fits its field (`Pattern.fits_of_parse`).

Main statement: **listed selections are not empty, repeat nothing and lie in the bound, and all
sets of all patterns of a schedule fit their fields** (`parsed_sets_fit`).
-/

namespace CronSchedule

/-- Every set of a parsed pattern fits its field. -/
theorem Pattern.fits_of_parse {mode : DayMatch} {text : Fragment} {p : Pattern}
    (h : Pattern.parse mode text = .ok p) (f : Field) : (p.sets.get f).Fits f := by
  obtain ⟨word, hword⟩ := (Pattern.compile_of_parse h).2 f
  exact Field.fits_of_compile hword

/-- **Everything that is compiled fits its field.** What the text of a field lists is not empty,
repeats nothing and lies in the bound; and a schedule has a pattern, all of whose sets are
unrestricted or list values in the bound of their field, in the representation it calls for. -/
theorem parsed_sets_fit :
    (∀ (f : Field) (text : Fragment) (values : List Int), f.select text = .ok (.listed values) →
      values ≠ [] ∧ values.Nodup ∧ ∀ v ∈ values, f.lo ≤ v ∧ v ≤ f.hi) ∧
    ∀ (mode : DayMatch) (text : Fragment) (s : Schedule), Schedule.parse mode text = .ok s →
      s.patterns ≠ [] ∧ ∀ p ∈ s.patterns, ∀ f : Field, (p.sets.get f).Fits f := by
  refine ⟨?_, ?_⟩
  · intro f text values h
    exact ⟨Field.ne_nil_of_select h, Field.nodup_of_select h, Field.bounds_of_select h⟩
  · intro mode text s h
    refine ⟨Schedule.patterns_ne_nil_of_parse h, ?_⟩
    intro p hp f
    obtain ⟨piece, hpiece⟩ := Schedule.parse_of_mem_patterns h hp
    exact Pattern.fits_of_parse hpiece f

/-- A range that wraps around the week, a step of the greatest size, a range that runs to Sunday,
and the last day of the month. -/
theorem parsed_sets_fit_at_wrapped_week :
    (Field.dayOfWeek.select "-1-1/2,7/9223372036854775807,5-7".toList = .ok (.listed [5, 0, 6]) ∧
      [(5 : Int), 0, 6] ≠ [] ∧ [(5 : Int), 0, 6].Nodup ∧
      ∀ v ∈ [(5 : Int), 0, 6], Field.dayOfWeek.lo ≤ v ∧ v ≤ Field.dayOfWeek.hi) ∧
    ∃ s, Schedule.parse .either "0/7 22-2 L,0/29 FEB-4 -1-1/2 | * * * * ?".toList = .ok s ∧
      s.patterns ≠ [] ∧ ∀ p ∈ s.patterns, ∀ f : Field, (p.sets.get f).Fits f := by
  have hselect : Field.dayOfWeek.select "-1-1/2,7/9223372036854775807,5-7".toList =
      .ok (.listed [5, 0, 6]) := by
    decide +kernel
  have hparse : ∃ s, Schedule.parse .either "0/7 22-2 L,0/29 FEB-4 -1-1/2 | * * * * ?".toList =
      .ok s := by
    refine ⟨⟨"0/7 22-2 L,0/29 FEB-4 -1-1/2 | * * * * ?".toList, [
      .ofSelections .either ⟨.listed [0], .listed [0, 7, 14, 21, 28, 35, 42, 49, 56],
        .listed [22, 23, 0, 1, 2], .listed [31, 1, 30], .listed [2, 3, 4], .listed [5, 0], .whole⟩,
      .ofSelections .either ⟨.listed [0], .whole, .whole, .whole, .whole, .whole, .whole⟩]⟩, ?_⟩
    decide +kernel
  obtain ⟨s, hs⟩ := hparse
  exact ⟨⟨hselect, parsed_sets_fit.1 _ _ _ hselect⟩, s, hs, parsed_sets_fit.2 _ _ s hs⟩

end CronSchedule
