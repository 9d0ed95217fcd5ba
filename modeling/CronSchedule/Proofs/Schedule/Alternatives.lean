import CronSchedule.Proofs.Schedule.Parsing

/-!
# The alternatives of a text

* **Cutting at bars**: the alternatives of two texts with a bar between them
  (`alternatives_append_bar`), and their number (`length_alternatives`).
* **Blanks around a text** do not count for its alternatives (`alternatives_trim`).
* **Parsing**: a text that is not blank is parsed by its alternatives alone
  (`Schedule.parse_of_trim_ne_nil`), to a pattern for each of them
  (`Schedule.forall₂_of_parse`, `Schedule.exists_parse_of_forall₂`).
-/

namespace CronSchedule

/-! ### Cutting at bars -/

/-- A text without a bar is its one alternative. -/
theorem alternatives_of_bar_not_mem {text : Fragment} (h : '|' ∉ text) :
    alternatives text = [trim text] := by
  rw [alternatives, List.splitOn_eq_singleton h, List.map_singleton]

/-- **The alternatives of two texts with a bar between them** are those of the first, and then those
of the second. -/
theorem alternatives_append_bar (text rest : Fragment) :
    alternatives (text ++ '|' :: rest) = alternatives text ++ alternatives rest := by
  rw [alternatives, List.splitOn_append_cons_self, List.map_append, alternatives, alternatives]

/-- There is one alternative more than there are bars. -/
theorem length_alternatives (text : Fragment) :
    (alternatives text).length = text.count '|' + 1 := by
  induction text using @cut_induction _ '|' with
  | piece text hbar =>
    rw [alternatives_of_bar_not_mem hbar, List.count_eq_zero_of_not_mem hbar]
    rfl
  | cut text rest hbar ih =>
    rw [alternatives_append_bar, alternatives_of_bar_not_mem hbar, List.length_append, ih,
      List.count_append, List.count_eq_zero_of_not_mem hbar, List.count_cons_self]
    simp only [List.length_singleton]
    omega

/-! ### Blanks around a text -/

/-- **The blanks around a text do not count** for its alternatives. -/
theorem alternatives_trim (text : Fragment) : alternatives (trim text) = alternatives text :=
  map_trim_splitOn_trim rfl text

/-- A text is blank exactly when it has one alternative and that is blank. -/
theorem trim_eq_nil_iff_alternatives {text : Fragment} :
    trim text = [] ↔ alternatives text = [[]] :=
  trim_eq_nil_iff_map_trim_splitOn rfl

/-! ### Parsing -/

namespace Schedule

variable {mode : DayMatch} {text : Fragment}

/-- A blank text is refused as a whole. -/
theorem parse_of_trim_eq_nil (h : trim text = []) (mode : DayMatch) :
    parse mode text = .error .emptyExpression := by
  rw [parse, if_pos h]

/-- **A text that is not blank is parsed by its alternatives.** -/
theorem parse_of_trim_ne_nil (h : trim text ≠ []) (mode : DayMatch) :
    parse mode text =
      (fun patterns => ⟨trim text, patterns⟩) <$>
        parseAlternatives mode (trim text) 0 (alternatives text) := by
  rw [parse, if_neg h, alternatives_trim]
  rfl

/-- The patterns of a schedule are those of the alternatives, one by one. -/
theorem forall₂_of_parse {s : Schedule} (h : parse mode text = .ok s) :
    List.Forall₂ (fun alternative p => Pattern.parse mode alternative = .ok p)
      (alternatives text) s.patterns := by
  obtain ⟨-, pieces, hpieces, hall⟩ := parse_eq_ok_iff.mp h
  rw [← alternatives_trim, alternatives_eq_of_pieces hpieces, List.forall₂_map_left_iff]
  simpa only [Pattern.parse_trim_eq_ok_iff] using hall

/-- A text each of whose alternatives is parsed is parsed, to their patterns. -/
theorem exists_parse_of_forall₂ {patterns : List Pattern}
    (h : List.Forall₂ (fun alternative p => Pattern.parse mode alternative = .ok p)
      (alternatives text) patterns) : ∃ s, parse mode text = .ok s ∧ s.patterns = patterns := by
  have hpieces : Pieces '|' (trim text) ((trim text).splitOn '|') := pieces_iff.mpr rfl
  rw [← alternatives_trim, alternatives_eq_of_pieces hpieces, List.forall₂_map_left_iff] at h
  simp only [Pattern.parse_trim_eq_ok_iff] at h
  exact ⟨⟨trim text, patterns⟩, parse_eq_ok_iff.mpr ⟨rfl, _, hpieces, h⟩, rfl⟩

/-- A schedule has a pattern more than its text has bars. -/
theorem length_patterns_of_parse {s : Schedule} (h : parse mode text = .ok s) :
    s.patterns.length = text.count '|' + 1 := by
  rw [← (forall₂_of_parse h).length_eq, length_alternatives]

end Schedule

end CronSchedule
