import CronSchedule.Proofs.Field.Selection
import CronSchedule.Proofs.Text.Pieces
import CronSchedule.Proofs.Text.Trimming
import CronSchedule.Proofs.ValueSet.Membership
import CronSchedule.Schedule

/-!
# When an expression is parsed

* `paddedWords ws` — the words of an alternative with its defaults written out: second `0` in front
  of five words, the wildcard year behind five or six.

Main statements: the fields of an alternative are its padded words, where there are seven of them
(`expandWords_eq_some_iff`); an alternative is parsed exactly when each of its fields is selected,
to the pattern of what is selected (`Pattern.parse_eq_ok_iff`); an expression is parsed exactly when
each piece of the trimmed text between bars is (`Schedule.parse_eq_ok_iff`).
-/

namespace CronSchedule

/-! ### The fields of an alternative -/

/-- The words of an alternative with its defaults written out. -/
def paddedWords (ws : List Fragment) : List Fragment :=
  if ws.length = 5 then [['0']] ++ ws ++ [['*']]
  else if ws.length = 6 then ws ++ [['*']]
  else ws

/-- Words that are five, six or seven pad to seven, and no others do. -/
theorem length_paddedWords (ws : List Fragment) :
    (paddedWords ws).length = if ws.length ∈ [5, 6, 7] then 7 else ws.length := by
  unfold paddedWords
  split
  · next h => simp [h]
  · split
    · next h => simp [h]
    · next h5 h6 =>
      split
      · next h => simpa [h5, h6] using h
      · rfl

/-- Words that are neither five nor six are their own padded words. -/
theorem paddedWords_of_length {ws : List Fragment} (h : ws.length ∉ [5, 6]) :
    paddedWords ws = ws := by
  simp only [List.mem_cons, List.not_mem_nil, or_false, not_or] at h
  rw [paddedWords, if_neg h.1, if_neg h.2]

/-- What stands in a row of fields, one by one. -/
theorem PerField.toList_eq {α : Type} (row : PerField α) :
    row.toList = [row.second, row.minute, row.hour, row.dayOfMonth, row.month, row.dayOfWeek,
      row.year] := rfl

/-- Only five, six or seven words pad to a row of fields. -/
theorem length_of_toList_eq_paddedWords {ws : List Fragment} {row : PerField Fragment}
    (h : row.toList = paddedWords ws) : ws.length ∈ [5, 6, 7] := by
  have hlength : (paddedWords ws).length = 7 := by
    rw [← h, PerField.toList_eq]
    rfl
  rw [length_paddedWords] at hlength
  split at hlength
  · next hcount => exact hcount
  · simp [hlength]

/-- Rows are equal when they list the same. -/
theorem PerField.toList_injective {α : Type} {row other : PerField α}
    (h : row.toList = other.toList) : row = other := by
  cases row
  cases other
  simpa [toList_eq] using h

/-- Five, six or seven words are the fields of an alternative. -/
theorem exists_expandWords_eq_some {ws : List Fragment} (h : ws.length ∈ [5, 6, 7]) :
    ∃ row, expandWords ws = some row := by
  simp only [List.mem_cons, List.not_mem_nil, or_false] at h
  rcases h with h | h | h
  · match ws, h with
    | [_, _, _, _, _], _ => exact ⟨_, rfl⟩
  · match ws, h with
    | [_, _, _, _, _, _], _ => exact ⟨_, rfl⟩
  · match ws, h with
    | [_, _, _, _, _, _, _], _ => exact ⟨_, rfl⟩

/-- The fields of an alternative are its padded words. -/
theorem toList_of_expandWords {ws : List Fragment} {row : PerField Fragment}
    (h : expandWords ws = some row) : row.toList = paddedWords ws := by
  rw [expandWords.eq_def] at h
  split at h
  · cases h
    rfl
  · cases h
    rfl
  · cases h
    rfl
  · exact nomatch h

/-- **The fields of an alternative are its padded words**, where there are seven of them. -/
theorem expandWords_eq_some_iff {ws : List Fragment} {row : PerField Fragment} :
    expandWords ws = some row ↔ row.toList = paddedWords ws := by
  constructor
  · exact toList_of_expandWords
  · intro h
    obtain ⟨other, hother⟩ := exists_expandWords_eq_some (length_of_toList_eq_paddedWords h)
    have hrow : other = row :=
      PerField.toList_injective ((toList_of_expandWords hother).trans h.symm)
    rw [hother, hrow]

/-- The fields of an alternative are found exactly when its padded words are seven. -/
theorem fieldWords_eq_ok_iff {alternative : Fragment} {row : PerField Fragment} :
    fieldWords alternative = .ok row ↔ row.toList = paddedWords (words alternative) := by
  rw [← expandWords_eq_some_iff, fieldWords]
  cases expandWords (words alternative) with
  | none => simp
  | some other => simp

/-- The fields of an alternative are not found exactly when its words are not five, six or seven;
their number is the reason. -/
theorem fieldWords_eq_error_iff {alternative : Fragment} {e : ParseError} :
    fieldWords alternative = .error e ↔ (words alternative).length ∉ [5, 6, 7] ∧
      e = .fieldCount alternative (words alternative).length := by
  have hnone : expandWords (words alternative) = none ↔
      (words alternative).length ∉ [5, 6, 7] := by
    constructor
    · intro h hlength
      obtain ⟨row, hrow⟩ := exists_expandWords_eq_some hlength
      rw [h] at hrow
      exact nomatch hrow
    · intro hlength
      rw [Option.eq_none_iff_forall_ne_some]
      intro row hrow
      exact hlength (length_of_toList_eq_paddedWords (toList_of_expandWords hrow))
  rw [← hnone, fieldWords]
  cases expandWords (words alternative) with
  | none => simp [eq_comm]
  | some row => simp

/-! ### Patterns -/

/-- The pattern of the selections of its fields. -/
def Pattern.ofSelections (mode : DayMatch) (selections : PerField Selection) : Pattern :=
  ⟨.ofFn fun f => ValueSet.ofSelection f (selections.get f), mode⟩

/-- **An alternative is parsed exactly when each of its fields is selected.** -/
theorem Pattern.parse_eq_ok_iff {mode : DayMatch} {alternative : Fragment} {p : Pattern} :
    Pattern.parse mode alternative = .ok p ↔
      ∃ (row : PerField Fragment) (selections : PerField Selection),
        row.toList = paddedWords (words alternative) ∧
        (∀ f : Field, f.select (row.get f) = .ok (selections.get f)) ∧
        p = Pattern.ofSelections mode selections := by
  simp only [Pattern.parse, bind_eq_ok_iff, fieldWords_eq_ok_iff, PerField.traverse_eq_ok_iff,
    Field.compile_eq_ok_iff]
  constructor
  · rintro ⟨row, hrow, sets, hsets, hp⟩
    cases hp
    choose selection hselection hset using hsets
    refine ⟨row, .ofFn selection, hrow, fun f => ?_, ?_⟩
    · rw [PerField.get_ofFn]
      exact hselection f
    · unfold ofSelections
      congr 1
      refine PerField.ext_get fun f => ?_
      rw [PerField.get_ofFn, PerField.get_ofFn, hset f]
  · rintro ⟨row, selections, hrow, hselections, rfl⟩
    refine ⟨row, hrow, _, fun f => ⟨selections.get f, hselections f, ?_⟩, rfl⟩
    rw [PerField.get_ofFn]

/-- An alternative that is parsed has a field, so it is not blank. -/
theorem Pattern.ne_nil_of_parse {mode : DayMatch} {alternative : Fragment} {p : Pattern}
    (h : Pattern.parse mode alternative = .ok p) : alternative ≠ [] := by
  rintro rfl
  obtain ⟨row, selections, hrow, -, -⟩ := Pattern.parse_eq_ok_iff.mp h
  have hlength := length_of_toList_eq_paddedWords hrow
  rw [words_nil] at hlength
  simp at hlength

/-- The blanks around an alternative do not count. -/
theorem Pattern.parse_trim_eq_ok_iff {mode : DayMatch} {piece : Fragment} {p : Pattern} :
    Pattern.parse mode (trim piece) = .ok p ↔ Pattern.parse mode piece = .ok p := by
  rw [Pattern.parse_eq_ok_iff, Pattern.parse_eq_ok_iff, words_trim]

/-! ### Parsing the alternatives -/

/-- The alternatives of an expression are its trimmed pieces between bars. -/
theorem alternatives_eq_of_pieces {expression : Fragment}
    {pieces : List Fragment} (h : Pieces '|' expression pieces) :
    alternatives expression = pieces.map trim := by
  rw [alternatives, pieces_iff.mp h]

namespace Schedule

/-- The alternative at an index is parsed exactly when it is, wherever it stands. -/
theorem parseAlternative_eq_ok_iff {mode : DayMatch} {expression alternative : Fragment}
    {index : Nat} {p : Pattern} :
    parseAlternative mode expression alternative index = .ok p ↔
      Pattern.parse mode alternative = .ok p := by
  unfold parseAlternative
  split
  · next hblank =>
    simp only [reduceCtorEq, false_iff]
    exact fun h => Pattern.ne_nil_of_parse h hblank
  · rfl

/-- Alternatives are parsed exactly when each of them is, one by one. -/
theorem parseAlternatives_eq_ok_iff {mode : DayMatch} {expression : Fragment} {index : Nat}
    {rest : List Fragment} {patterns : List Pattern} :
    parseAlternatives mode expression index rest = .ok patterns ↔
      List.Forall₂ (fun alternative p => Pattern.parse mode alternative = .ok p) rest patterns := by
  induction rest generalizing index patterns with
  | nil => simp [parseAlternatives, eq_comm]
  | cons alternative rest ih =>
    rw [parseAlternatives, bind_eq_ok_iff, List.forall₂_cons_left_iff]
    constructor
    · rintro ⟨p, hp, h⟩
      obtain ⟨others, hothers, h⟩ := bind_eq_ok_iff.mp h
      cases h
      exact ⟨p, others, parseAlternative_eq_ok_iff.mp hp, ih.mp hothers, rfl⟩
    · rintro ⟨p, others, hp, hothers, rfl⟩
      refine ⟨p, parseAlternative_eq_ok_iff.mpr hp, ?_⟩
      exact bind_eq_ok_iff.mpr ⟨others, ih.mpr hothers, rfl⟩

/-- **An expression is parsed exactly when each of its pieces between bars is.** No piece that is
parsed is blank, so neither is the expression. -/
theorem parse_eq_ok_iff {mode : DayMatch} {text : Fragment} {s : Schedule} :
    parse mode text = .ok s ↔
      s.expression = trim text ∧ ∃ pieces, Pieces '|' (trim text) pieces ∧
        List.Forall₂ (fun piece p => Pattern.parse mode piece = .ok p) pieces s.patterns := by
  have hpieces : Pieces '|' (trim text) ((trim text).splitOn '|') := pieces_iff.mpr rfl
  have hparsed : ∀ patterns, parseAlternatives mode (trim text) 0 (alternatives (trim text)) =
      .ok patterns ↔ List.Forall₂ (fun piece p => Pattern.parse mode piece = .ok p)
        ((trim text).splitOn '|') patterns := by
    intro patterns
    rw [parseAlternatives_eq_ok_iff, alternatives_eq_of_pieces hpieces, List.forall₂_map_left_iff]
    simp only [Pattern.parse_trim_eq_ok_iff]
  rw [parse]
  constructor
  · intro h
    by_cases hblank : trim text = []
    · rw [if_pos hblank] at h
      simp at h
    · rw [if_neg hblank] at h
      obtain ⟨patterns, hpatterns, h⟩ := bind_eq_ok_iff.mp h
      cases h
      exact ⟨rfl, _, hpieces, (hparsed patterns).mp hpatterns⟩
  · rintro ⟨hexpression, pieces, hother, hall⟩
    rw [← pieces_iff.mp hother] at hall
    have hblank : trim text ≠ [] := by
      intro hblank
      rw [hblank, List.splitOn_nil] at hall
      obtain ⟨p, -, hp, -⟩ := List.forall₂_cons_left_iff.mp hall
      exact Pattern.ne_nil_of_parse hp rfl
    rw [if_neg hblank]
    refine bind_eq_ok_iff.mpr ⟨s.patterns, (hparsed s.patterns).mpr hall, ?_⟩
    rw [← hexpression]
    rfl

end Schedule

end CronSchedule
