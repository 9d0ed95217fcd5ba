import CronSchedule.Proofs.Field.Listing
import CronSchedule.Proofs.Schedule.Parsing

/-!
# The canonical text of a schedule

* `Schedule.canonical s` — the patterns of a schedule as they are printed, with bars between them.

Main statements: **what is printed of a pattern is parsed to that pattern**
(`Pattern.parse_render`), so patterns with the same mode that are printed alike are equal
(`Pattern.eq_iff_render`); **the canonical text of a schedule is parsed to its patterns**, whatever
text it was compiled from (`Schedule.canonical_round_trip`).
-/

namespace CronSchedule

/-! ### Printed patterns -/

namespace Pattern

variable {mode : DayMatch} {text : Fragment} {p : Pattern}

/-- Parsed fields: each set of a pattern is compiled from some text, and the mode is kept. -/
theorem compile_of_parse (h : Pattern.parse mode text = .ok p) :
    p.dayMatch = mode ∧ ∀ f : Field, ∃ word, f.compile word = .ok (p.sets.get f) := by
  obtain ⟨row, selections, -, hselections, rfl⟩ := Pattern.parse_eq_ok_iff.mp h
  refine ⟨rfl, fun f => ⟨row.get f, ?_⟩⟩
  rw [ofSelections, PerField.get_ofFn]
  exact Field.compile_eq_ok_iff.mpr ⟨_, hselections f, rfl⟩

/-- The printed sets of a pattern, field by field. -/
def printedRow (p : Pattern) : PerField Fragment :=
  .ofFn fun f => (p.sets.get f).render.toList

/-- A pattern is printed as its printed sets with spaces between them. -/
theorem toList_render (p : Pattern) : p.render.toList = [' '].intercalate p.printedRow.toList := by
  rw [render, String.toList_intercalate, List.map_map]
  rfl

/-- The printed sets of a pattern are words, without a bar. -/
theorem mem_printedRow (h : Pattern.parse mode text = .ok p) {word : Fragment}
    (hword : word ∈ p.printedRow.toList) :
    word ≠ [] ∧ ∀ c ∈ word, isBlank c = false ∧ c ≠ '|' := by
  obtain ⟨f, -, rfl⟩ := List.mem_map.mp hword
  obtain ⟨source, hsource⟩ := (compile_of_parse h).2 f
  rw [printedRow, PerField.get_ofFn]
  exact ⟨Field.render_ne_nil hsource, fun c hc => Field.mem_render hsource hc⟩

/-- A pattern is printed without blanks around it and without a bar. -/
theorem render_of_parse (h : Pattern.parse mode text = .ok p) :
    (p.render.toList ≠ [] ∧ Bare p.render.toList) ∧ '|' ∉ p.render.toList := by
  rw [toList_render]
  constructor
  · apply bare_intercalate
    · exact List.cons_ne_nil _ _
    · intro word hword
      obtain ⟨hne, hmem⟩ := mem_printedRow h hword
      exact ⟨hne, bare_of_no_blank fun c hc => (hmem c hc).1⟩
  · intro hbar
    obtain hspace | ⟨word, hword, hc⟩ := mem_of_mem_intercalate hbar
    · exact nomatch hspace
    · exact ((mem_printedRow h hword).2 _ hc).2 rfl

/-- **What is printed of a pattern is parsed to that pattern.** -/
theorem parse_render (h : Pattern.parse mode text = .ok p) :
    Pattern.parse mode p.render.toList = .ok p := by
  have hwords : words p.render.toList = p.printedRow.toList := by
    rw [toList_render]
    apply words_intercalate
    intro word hword
    obtain ⟨hne, hmem⟩ := mem_printedRow h hword
    exact ⟨hne, fun c hc => (hmem c hc).1⟩
  obtain ⟨hmode, hsource⟩ := compile_of_parse h
  have hrow : fieldWords p.render.toList = .ok p.printedRow := by
    rw [fieldWords_eq_ok_iff, hwords]
    rfl
  have hsets : p.printedRow.traverse Field.compile = .ok p.sets := by
    rw [PerField.traverse_eq_ok_iff]
    intro f
    obtain ⟨word, hword⟩ := hsource f
    rw [printedRow, PerField.get_ofFn]
    exact Field.compile_render hword
  refine bind_eq_ok_iff.mpr ⟨_, hrow, bind_eq_ok_iff.mpr ⟨_, hsets, ?_⟩⟩
  rw [← hmode]
  rfl

/-- Patterns of one mode that are printed alike are equal. -/
theorem eq_iff_render {mode' : DayMatch} {text' : Fragment} {q : Pattern}
    (hp : Pattern.parse mode text = .ok p) (hq : Pattern.parse mode' text' = .ok q) :
    p = q ↔ p.dayMatch = q.dayMatch ∧ p.render = q.render := by
  constructor
  · rintro rfl
    exact ⟨rfl, rfl⟩
  · rintro ⟨hmode, hrender⟩
    have hread_p := parse_render hp
    have hread_q := parse_render hq
    rw [← (compile_of_parse hp).1, hmode, hrender, (compile_of_parse hq).1, hread_q] at hread_p
    cases hread_p
    rfl

end Pattern

/-! ### Canonical texts -/

namespace Schedule

/-- The patterns of a schedule as they are printed, with bars between them. -/
def canonical (s : Schedule) : String := "|".intercalate (s.patterns.map Pattern.render)

variable {mode : DayMatch} {text : Fragment} {s : Schedule}

/-- Every pattern of a schedule is parsed from some text. -/
theorem parse_of_mem_patterns (h : parse mode text = .ok s) {p : Pattern} (hp : p ∈ s.patterns) :
    ∃ piece, Pattern.parse mode piece = .ok p := by
  obtain ⟨-, pieces, -, hall⟩ := parse_eq_ok_iff.mp h
  obtain ⟨piece, -, q, hpiece, rfl⟩ :=
    (exists_mem_iff_of_forall₂ (P := (· = p)) hall).mp ⟨p, hp, rfl⟩
  exact ⟨piece, hpiece⟩

/-- The canonical text is the printed patterns with bars between them, and no blanks around. -/
theorem pieces_canonical (h : parse mode text = .ok s) :
    Pieces '|' (trim s.canonical.toList) (s.patterns.map fun p => p.render.toList) := by
  have hjoin : s.canonical.toList =
      ['|'].intercalate (s.patterns.map fun p => p.render.toList) := by
    rw [canonical, String.toList_intercalate, List.map_map]
    rfl
  have hne : s.patterns.map (fun p => p.render.toList) ≠ [] := by
    rw [Ne, List.map_eq_nil_iff]
    exact patterns_ne_nil_of_parse h
  have hrender : ∀ piece ∈ s.patterns.map (fun p => p.render.toList),
      (piece ≠ [] ∧ Bare piece) ∧ '|' ∉ piece := by
    intro piece hpiece
    obtain ⟨p, hp, rfl⟩ := List.mem_map.mp hpiece
    obtain ⟨source, hsource⟩ := parse_of_mem_patterns h hp
    exact Pattern.render_of_parse hsource
  have hbare : Bare s.canonical.toList := by
    rw [hjoin]
    exact (bare_intercalate hne fun piece hpiece => (hrender piece hpiece).1).2
  rw [trim_of_bare hbare]
  exact ⟨hne, fun piece hpiece => (hrender piece hpiece).2, hjoin.symm⟩

/-- The canonical text of a schedule is parsed to its patterns. -/
theorem parse_canonical (h : parse mode text = .ok s) :
    parse mode s.canonical.toList = .ok ⟨trim s.canonical.toList, s.patterns⟩ := by
  rw [parse_eq_ok_iff]
  refine ⟨rfl, _, pieces_canonical h, ?_⟩
  rw [List.forall₂_map_left_iff, List.forall₂_same]
  intro p hp
  obtain ⟨source, hsource⟩ := parse_of_mem_patterns h hp
  exact Pattern.parse_render hsource

/-- **The canonical text of a schedule round-trips.** It is accepted under the same mode, with the
same patterns in the same order; hence patterns of any two accepted texts are equal exactly when
they have the same mode and are printed alike. -/
theorem canonical_round_trip (h : parse mode text = .ok s) :
    (∃ again, parse mode s.canonical.toList = .ok again ∧ again.patterns = s.patterns) ∧
      ∀ (mode' : DayMatch) (text' : Fragment) (s' : Schedule), parse mode' text' = .ok s' →
        ∀ p ∈ s.patterns, ∀ q ∈ s'.patterns,
          (p = q ↔ p.dayMatch = q.dayMatch ∧ p.render = q.render) := by
  constructor
  · exact ⟨_, parse_canonical h, rfl⟩
  · intro mode' text' s' h' p hp q hq
    obtain ⟨source, hsource⟩ := parse_of_mem_patterns h hp
    obtain ⟨source', hsource'⟩ := parse_of_mem_patterns h' hq
    exact Pattern.eq_iff_render hsource hsource'

/-- Names, wrapped ranges, a start and years out of order are printed as ascending lists, and read
back as what they were. -/
theorem canonical_round_trip_of_wrapped_ranges :
    ∃ s, parse .either "*/20 0 22-2 L,-1 feb-4 5-7 2099,2024 | 0 0 1/9 * ?".toList = .ok s ∧
      s.canonical = "0,20,40 0 0,1,2,22,23 30,31 2,3,4 0,5,6 2024,2099|0 0 0 1,10,19,28 * * *" ∧
      (∃ again, parse .either s.canonical.toList = .ok again ∧ again.patterns = s.patterns) ∧
      ∀ p ∈ s.patterns, ∀ q ∈ s.patterns,
        (p = q ↔ p.dayMatch = q.dayMatch ∧ p.render = q.render) := by
  obtain ⟨s, hparse, hcanonical⟩ :
      ∃ s, parse .either "*/20 0 22-2 L,-1 feb-4 5-7 2099,2024 | 0 0 1/9 * ?".toList = .ok s ∧
        s.canonical =
          "0,20,40 0 0,1,2,22,23 30,31 2,3,4 0,5,6 2024,2099|0 0 0 1,10,19,28 * * *" := by
    refine ⟨⟨"*/20 0 22-2 L,-1 feb-4 5-7 2099,2024 | 0 0 1/9 * ?".toList, [
      .ofSelections .either ⟨.listed [0, 20, 40], .listed [0], .listed [22, 23, 0, 1, 2],
        .listed [31, 30], .listed [2, 3, 4], .listed [5, 6, 0], .listed [2099, 2024]⟩,
      .ofSelections .either ⟨.listed [0], .listed [0], .listed [0], .listed [1, 10, 19, 28], .whole,
        .whole, .whole⟩]⟩, ?_, ?_⟩
    · decide +kernel
    · decide +kernel
  obtain ⟨hround, heq⟩ := canonical_round_trip hparse
  exact ⟨s, hparse, hcanonical, hround, heq _ _ s hparse⟩

end Schedule

end CronSchedule
