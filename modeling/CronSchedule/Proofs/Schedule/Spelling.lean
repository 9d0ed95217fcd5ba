import CronSchedule.Proofs.Schedule.Alternatives

/-!
# The spellings of a schedule

* `wordTable text` — the words of a text, a row for each piece between bars, with the defaults of
  each row written out.
* `respell text` — the text of that table, with single spaces between words and bars between rows;
  it has the same table (`wordTable_respell`).
* `ParseError.Alike` — refusals that differ at most in the text they quote.
* `Agree` — results that are equal, or refusals that are alike.

A piece is blank when it has no words, and otherwise its fields are its padded words, so pieces with
the same padded words are parsed alike (`Schedule.parseAlternative_agree`), and so are lists of them
(`Schedule.parseAlternatives_agree`).

Main statement: **a text is parsed by its words alone**, hence as its seven-field spelling is
(`Schedule.parse_agree_of_wordTable`).
-/

namespace CronSchedule

/-! ### The table of words -/

/-- The words of each piece of a text between bars, with their defaults written out. -/
def wordTable (text : Fragment) : List (List Fragment) :=
  (text.splitOn '|').map fun piece => paddedWords (words piece)

/-- The text of a table of words. -/
def ofWordTable (table : List (List Fragment)) : Fragment :=
  ['|'].intercalate (table.map ([' '].intercalate ·))

/-- A text with its defaults written out, single spaces between words and no other blanks. -/
def respell (text : Fragment) : Fragment := ofWordTable (wordTable text)

/-- Once the defaults are written out, there are no more to write. -/
theorem paddedWords_paddedWords (ws : List Fragment) :
    paddedWords (paddedWords ws) = paddedWords ws := by
  apply paddedWords_of_length
  rw [length_paddedWords]
  split
  · decide
  · next h =>
    intro hlength
    simp only [List.mem_cons, List.not_mem_nil, or_false, not_or] at h hlength
    omega

/-- Padding adds no words but the two defaults. -/
theorem mem_of_mem_paddedWords {ws : List Fragment} {w : Fragment} (h : w ∈ paddedWords ws) :
    w ∈ ws ∨ w = ['0'] ∨ w = ['*'] := by
  unfold paddedWords at h
  split at h
  · simp only [List.mem_append, List.mem_singleton] at h
    tauto
  · split at h
    · simp only [List.mem_append, List.mem_singleton] at h
      tauto
    · exact .inl h

/-- The texts with no words are those that are blank. -/
theorem paddedWords_words_eq_nil_iff {text : Fragment} :
    paddedWords (words text) = [] ↔ trim text = [] := by
  rw [trim_eq_nil_iff, ← words_eq_nil_iff]
  constructor
  · intro h
    have hlength := length_paddedWords (words text)
    rw [h] at hlength
    split at hlength
    · exact nomatch hlength
    · exact List.length_eq_zero_iff.mp hlength.symm
  · intro h
    rw [h]
    rfl

/-- A word as it stands in a table: not empty, and without blanks and bars. -/
structure Plain (w : Fragment) : Prop where
  /-- There is a character. -/
  ne_nil : w ≠ []
  /-- None is blank. -/
  not_blank : ∀ c ∈ w, isBlank c = false
  /-- None is a bar. -/
  bar_not_mem : '|' ∉ w

/-- A single character is plain if it is neither blank nor a bar. -/
theorem plain_singleton {c : Char} (hblank : isBlank c = false) (hbar : '|' ≠ c) : Plain [c] := by
  refine ⟨List.cons_ne_nil _ _, ?_, ?_⟩
  · simpa using hblank
  · simpa using hbar

/-- The words of a table are plain. -/
theorem plain_of_mem_wordTable {text w : Fragment} {row : List Fragment}
    (hrow : row ∈ wordTable text) (hw : w ∈ row) : Plain w := by
  obtain ⟨piece, hpiece, rfl⟩ := List.mem_map.mp hrow
  rcases mem_of_mem_paddedWords hw with hw | rfl | rfl
  · refine ⟨ne_nil_of_mem_words hw, fun c hc => (of_mem_words hw hc).2, fun hbar => ?_⟩
    exact sep_not_mem_of_mem_splitOn hpiece (of_mem_words hw hbar).1
  · exact plain_singleton rfl (by decide)
  · exact plain_singleton rfl (by decide)

/-- **A table of plain words is read back from its text**, if its defaults are written out. -/
theorem wordTable_ofWordTable {table : List (List Fragment)} (hne : table ≠ [])
    (hplain : ∀ row ∈ table, ∀ w ∈ row, Plain w)
    (hpadded : ∀ row ∈ table, paddedWords row = row) : wordTable (ofWordTable table) = table := by
  have hpieces : Pieces '|' (ofWordTable table) (table.map ([' '].intercalate ·)) := by
    refine ⟨by simpa using hne, ?_, rfl⟩
    intro piece hpiece
    obtain ⟨row, hrow, rfl⟩ := List.mem_map.mp hpiece
    intro hbar
    rcases mem_of_mem_intercalate hbar with hbar | ⟨w, hw, hbar⟩
    · exact absurd hbar (by decide)
    · exact (hplain row hrow w hw).bar_not_mem hbar
  rw [wordTable, pieces_iff.mp hpieces, List.map_map]
  refine (List.map_congr_left fun row hrow => ?_).trans (List.map_id table)
  show paddedWords (words ([' '].intercalate row)) = row
  have hwords : words ([' '].intercalate row) = row :=
    words_intercalate fun w hw => ⟨(hplain row hrow w hw).ne_nil, (hplain row hrow w hw).not_blank⟩
  rw [hwords, hpadded row hrow]

/-- A text respelled has the same table of words. -/
theorem wordTable_respell (text : Fragment) : wordTable (respell text) = wordTable text := by
  apply wordTable_ofWordTable
  · simp [wordTable, List.splitOn_ne_nil]
  · exact fun row hrow w hw => plain_of_mem_wordTable hrow hw
  · intro row hrow
    obtain ⟨piece, -, rfl⟩ := List.mem_map.mp hrow
    exact paddedWords_paddedWords _

/-! ### Refusals that are alike -/

/-- Refusals that differ at most in the text they quote; those that lie in a field are equal. -/
inductive ParseError.Alike : ParseError → ParseError → Prop where
  /-- Blank expressions. -/
  | emptyExpression : Alike .emptyExpression .emptyExpression
  /-- A blank alternative at the same place in two expressions. -/
  | emptyAlternative (expression other : Fragment) (index : Nat) :
    Alike (.emptyAlternative expression index) (.emptyAlternative other index)
  /-- Two alternatives with the same number of words. -/
  | fieldCount (alternative other : Fragment) (count : Nat) :
    Alike (.fieldCount alternative count) (.fieldCount other count)
  /-- One and the same refusal of a field. -/
  | ofField {e : ParseError} {f : Field} (h : e.field? = some f) : Alike e e

/-- A refusal is like itself. -/
theorem ParseError.Alike.refl (e : ParseError) : e.Alike e := by
  cases e with
  | emptyExpression => exact .emptyExpression
  | emptyAlternative expression index => exact .emptyAlternative expression expression index
  | fieldCount alternative count => exact .fieldCount alternative alternative count
  | _ => exact .ofField rfl

/-- Results that are equal, or refusals that are alike. -/
inductive Agree {α : Type} : Except ParseError α → Except ParseError α → Prop where
  /-- The same result. -/
  | ok (a : α) : Agree (.ok a) (.ok a)
  /-- No result, for causes that are alike. -/
  | error {e e' : ParseError} (h : e.Alike e') : Agree (.error e) (.error e')

namespace Agree

variable {α β : Type}

/-- A result agrees with itself. -/
theorem refl (x : Except ParseError α) : Agree x x := by
  cases x with
  | error e => exact .error (.refl e)
  | ok a => exact .ok a

/-- Two steps agree when the first ones do, and the second ones after the same result. -/
theorem bind {x y : Except ParseError α} {k l : α → Except ParseError β} (h : Agree x y)
    (hk : ∀ a, Agree (k a) (l a)) : Agree (x >>= k) (y >>= l) := by
  cases h with
  | ok a => exact hk a
  | error h => exact .error h

end Agree

/-! ### Parsing by words -/

variable {mode : DayMatch}

/-- Alternatives with the same padded words have the same fields, or the same number of words. -/
theorem fieldWords_agree {alternative other : Fragment}
    (h : paddedWords (words alternative) = paddedWords (words other)) :
    Agree (fieldWords alternative) (fieldWords other) := by
  cases hrow : fieldWords alternative with
  | ok row =>
    rw [fieldWords_eq_ok_iff, h, ← fieldWords_eq_ok_iff] at hrow
    rw [hrow]
    exact .ok row
  | error e =>
    cases hother : fieldWords other with
    | ok row =>
      rw [fieldWords_eq_ok_iff, ← h, ← fieldWords_eq_ok_iff, hrow] at hother
      exact nomatch hother
    | error e' =>
      obtain ⟨hcount, rfl⟩ := fieldWords_eq_error_iff.mp hrow
      obtain ⟨hcount', rfl⟩ := fieldWords_eq_error_iff.mp hother
      have hlength := congrArg List.length h
      rw [length_paddedWords, length_paddedWords, if_neg hcount, if_neg hcount'] at hlength
      rw [hlength]
      exact .error (.fieldCount _ _ _)

/-- **Alternatives with the same padded words are parsed alike.** -/
theorem Pattern.parse_agree {alternative other : Fragment}
    (h : paddedWords (words alternative) = paddedWords (words other)) :
    Agree (Pattern.parse mode alternative) (Pattern.parse mode other) :=
  (fieldWords_agree h).bind fun _ => .refl _

namespace Schedule

/-- So are two pieces at the same place in two texts, whatever the blanks around them. -/
theorem parseAlternative_agree (expression expression' : Fragment) {piece other : Fragment}
    (h : paddedWords (words piece) = paddedWords (words other)) (index : Nat) :
    Agree (parseAlternative mode expression (trim piece) index)
      (parseAlternative mode expression' (trim other) index) := by
  have hblank : trim piece = [] ↔ trim other = [] := by
    rw [← paddedWords_words_eq_nil_iff, h, paddedWords_words_eq_nil_iff]
  unfold parseAlternative
  by_cases hpiece : trim piece = []
  · rw [if_pos hpiece, if_pos (hblank.mp hpiece)]
    exact .error (.emptyAlternative _ _ _)
  · rw [if_neg hpiece, if_neg (mt hblank.mpr hpiece)]
    apply Pattern.parse_agree
    rw [words_trim, words_trim, h]

/-- So are lists of pieces, one by one. -/
theorem parseAlternatives_agree (expression expression' : Fragment) {pieces others : List Fragment}
    (h : List.Forall₂ (fun piece other => paddedWords (words piece) = paddedWords (words other))
      pieces others) (index : Nat) :
    Agree (parseAlternatives mode expression index (pieces.map trim))
      (parseAlternatives mode expression' index (others.map trim)) := by
  induction h generalizing index with
  | nil => exact .ok []
  | cons hpiece _ ih =>
    apply (parseAlternative_agree expression expression' hpiece index).bind
    intro p
    exact (ih (index + 1)).bind fun patterns => .ok (p :: patterns)

/-- A text is blank exactly when its table is one row without words. -/
theorem trim_eq_nil_iff_wordTable {text : Fragment} : trim text = [] ↔ wordTable text = [[]] := by
  rw [trim_eq_nil_iff_alternatives, alternatives, wordTable, List.map_eq_singleton_iff,
    List.map_eq_singleton_iff]
  simp only [paddedWords_words_eq_nil_iff]

/-- **A text is parsed by its words alone.** Two texts with the same table of words are parsed to
the same patterns, or refused for causes that are alike; and so are a text and the text with its
defaults written out and with single spaces. -/
theorem parse_agree_of_wordTable (mode : DayMatch) :
    (∀ text other : Fragment, wordTable text = wordTable other →
      Agree (patterns <$> parse mode text) (patterns <$> parse mode other)) ∧
    ∀ text : Fragment,
      Agree (patterns <$> parse mode text) (patterns <$> parse mode (respell text)) := by
  have hagree (text other : Fragment) (h : wordTable text = wordTable other) :
      Agree (patterns <$> parse mode text) (patterns <$> parse mode other) := by
    have hblank : trim text = [] ↔ trim other = [] := by
      rw [trim_eq_nil_iff_wordTable, h, trim_eq_nil_iff_wordTable]
    by_cases htext : trim text = []
    · rw [parse_of_trim_eq_nil htext, parse_of_trim_eq_nil (hblank.mp htext)]
      exact .error .emptyExpression
    · rw [parse_of_trim_ne_nil htext, parse_of_trim_ne_nil (mt hblank.mpr htext), Functor.map_map,
        Functor.map_map, map_eq_pure_bind, map_eq_pure_bind]
      refine Agree.bind ?_ fun patterns => .ok patterns
      apply parseAlternatives_agree
      rw [← List.forall₂_map_right_iff, ← List.forall₂_map_left_iff, List.forall₂_eq_eq_eq]
      exact h
  exact ⟨hagree, fun text => hagree text (respell text) (wordTable_respell text).symm⟩

/-- Half past nine on weekdays and the first of January, without seconds and years, and with both
in between all kinds of blanks; and two words, which are too few however they are spaced. -/
theorem parse_agree_of_weekday_spellings :
    (wordTable " 30 9 * * mon-fri|0 0 1 1 ?".toList =
        wordTable "0\t30\u30009 * * mon-fri \u2028|\n0 0 0 1 1 ?  *".toList ∧
      Agree (patterns <$> parse .all " 30 9 * * mon-fri|0 0 1 1 ?".toList)
        (patterns <$> parse .all "0\t30\u30009 * * mon-fri \u2028|\n0 0 0 1 1 ?  *".toList) ∧
      patterns <$> parse .all " 30 9 * * mon-fri|0 0 1 1 ?".toList = .ok
        [.ofSelections .all
          ⟨.listed [0], .listed [30], .listed [9], .whole, .whole, .listed [1, 2, 3, 4, 5], .whole⟩,
        .ofSelections .all
          ⟨.listed [0], .listed [0], .listed [0], .listed [1], .listed [1], .whole, .whole⟩]) ∧
    respell "1  2|".toList = "1 2|".toList ∧
    Agree (patterns <$> parse .all "1  2|".toList) (patterns <$> parse .all "1 2|".toList) ∧
    patterns <$> parse .all "1  2|".toList = .error (.fieldCount "1  2".toList 2) := by
  have htable : wordTable " 30 9 * * mon-fri|0 0 1 1 ?".toList =
      wordTable "0\t30\u30009 * * mon-fri \u2028|\n0 0 0 1 1 ?  *".toList := by
    decide +kernel
  have hrespell : respell "1  2|".toList = "1 2|".toList := by
    decide +kernel
  refine ⟨⟨htable, (parse_agree_of_wordTable .all).1 _ _ htable, ?_⟩, hrespell, ?_, ?_⟩
  · decide +kernel
  · rw [← hrespell]
    exact (parse_agree_of_wordTable .all).2 _
  · decide +kernel

end Schedule

end CronSchedule
