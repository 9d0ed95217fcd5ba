/-!
# Blanks, trimming and words

A piece of an expression is a `Fragment`, the list of its characters, so that every reader is a
recursion on it.

* `isBlank` — the characters of Unicode's White_Space property, twenty-five code points.
* `trim` — a fragment without the blanks at its two ends.
* `words` — the maximal runs of characters that are not blank.

Main statements: a character that is white space for the standard library is blank
(`isBlank_of_isWhitespace`); trimming leaves nothing exactly when there is nothing but blanks
(`trim_eq_nil_iff`); no word is empty (`ne_nil_of_mem_words`), and a blank only separates
(`words_append_blank`).
-/

namespace CronSchedule

/-- A piece of text, as the list of its characters. -/
abbrev Fragment := List Char

/-! ### The blank characters -/

/-- The White_Space property: tab to carriage return, space, next line, the no-break space, the
Ogham space mark, the typographic spaces, the two separators and the ideographic space. -/
def isBlank (c : Char) : Bool :=
  let n := c.toNat
  (0x09 ≤ n && n ≤ 0x0D) || n == 0x20 || n == 0x85 || n == 0xA0 || n == 0x1680 ||
    (0x2000 ≤ n && n ≤ 0x200A) || n == 0x2028 || n == 0x2029 || n == 0x202F ||
    n == 0x205F || n == 0x3000

/-- What the standard library takes for white space is blank. -/
theorem isBlank_of_isWhitespace {c : Char} (h : c.isWhitespace = true) : isBlank c = true := by
  simp only [Char.isWhitespace, Bool.or_eq_true, decide_eq_true_eq] at h
  rcases h with ((rfl | rfl) | rfl) | rfl <;> decide

/-- A line break of any kind is blank, a zero-width space is not. -/
example : (['\n', '\r', '\u0085', '\u2028'].all isBlank && !isBlank '\u200b') = true := by decide

/-! ### Trimming -/

/-- The fragment without the blanks at its two ends. -/
def trim (text : Fragment) : Fragment :=
  ((text.dropWhile isBlank).reverse.dropWhile isBlank).reverse

/-- Dropping the blanks in front leaves nothing exactly when there is nothing but blanks. -/
theorem dropWhile_isBlank_eq_nil_iff :
    ∀ text : Fragment, text.dropWhile isBlank = [] ↔ ∀ c ∈ text, isBlank c = true
  | [] => by simp
  | c :: text => by
    by_cases h : isBlank c = true
    · simp [h, dropWhile_isBlank_eq_nil_iff text]
    · simp [h]

/-- Trimming leaves nothing exactly when there is nothing but blanks. -/
theorem trim_eq_nil_iff (text : Fragment) : trim text = [] ↔ ∀ c ∈ text, isBlank c = true := by
  simp only [trim, List.reverse_eq_nil_iff, dropWhile_isBlank_eq_nil_iff, List.mem_reverse]
  constructor
  · intro h c hc
    rw [← List.takeWhile_append_dropWhile (p := isBlank) (l := text)] at hc
    rcases List.mem_append.mp hc with hc | hc
    · exact List.all_eq_true.mp List.all_takeWhile c hc
    · exact h c hc
  · exact fun h c hc => h c (List.dropWhile_subset isBlank hc)

/-! ### Words -/

/-- The maximal runs of characters that are not blank, in order. -/
def words (text : Fragment) : List Fragment :=
  (text.splitOnP isBlank).filter (!·.isEmpty)

/-- Blanks of any number and kind separate words, and none is a word. -/
example : words " a\tbc \u3000".toList = ["a".toList, "bc".toList] := by decide

/-- No word is empty. -/
theorem ne_nil_of_mem_words {text word : Fragment} (h : word ∈ words text) : word ≠ [] := by
  rintro rfl
  simp [words] at h

/-- A blank ends the words in front of it, and belongs to none. -/
theorem words_append_blank {c : Char} (hc : isBlank c = true) (text rest : Fragment) :
    words (text ++ c :: rest) = words text ++ words rest := by
  rw [words, List.splitOnP_append_cons text rest hc, List.filter_append]
  rfl

/-- A fragment without blanks is one word, unless it is empty. -/
theorem words_of_no_blank {text : Fragment} (hne : text ≠ [])
    (h : ∀ c ∈ text, isBlank c = false) : words text = [text] := by
  rw [words, List.splitOnP_eq_singleton h]
  simpa using hne

end CronSchedule
