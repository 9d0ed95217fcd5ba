import CronSchedule.Proofs.Field.Refusals
import CronSchedule.Proofs.Schedule.Alternatives
import Mathlib.Data.List.Perm.Basic

/-!
# Texts put together from alternatives

* `ParseError.within` — a refusal as it reads in a longer expression: a blank alternative is
  reported with the whole expression and with its place in it, all else stays as it is.
* `Schedule.Composes` — what is asked of a text whose parts stand before and behind a bar.

Alternatives are parsed one after the other, so those of a longer list are parsed in two parts
(`Schedule.parseAlternatives_append`), and where a part stands shows in no other refusal
(`Schedule.parseAlternatives_within`). From both, a text with a bar is parsed as its two parts are
(`Schedule.parse_append_bar`).

Main statement: **schedules compose at bars, and the order of alternatives does not count for what a
schedule admits** (`Schedule.alternatives_compose`).
-/

namespace CronSchedule

/-! ### Refusals in a longer expression -/

/-- A refusal as it reads in an expression that has `offset` alternatives in front. -/
def ParseError.within (expression : Fragment) (offset : Nat) : ParseError → ParseError
  | emptyAlternative _ index => emptyAlternative expression (index + offset)
  | e => e

/-- A refusal of a field reads the same in every expression. -/
theorem ParseError.within_of_field {e : ParseError} {f : Field} (h : e.field? = some f)
    (expression : Fragment) (offset : Nat) : e.within expression offset = e := by
  cases e <;> first | rfl | exact nomatch h

/-- A refusal of an alternative that is not blank reads the same in every expression. -/
theorem Pattern.within_of_parse_eq_error {mode : DayMatch} {alternative : Fragment} {e : ParseError}
    (h : Pattern.parse mode alternative = .error e) (expression : Fragment) (offset : Nat) :
    e.within expression offset = e := by
  rcases bind_eq_error_iff.mp h with hcount | ⟨row, -, h⟩
  · obtain ⟨-, rfl⟩ := fieldWords_eq_error_iff.mp hcount
    rfl
  · rcases bind_eq_error_iff.mp h with hfield | ⟨sets, -, h⟩
    · obtain ⟨f, rest, -, hf⟩ := refusals_of_traverse_compile_eq_error hfield
      exact e.within_of_field hf expression offset
    · exact nomatch h

namespace Schedule

variable {mode : DayMatch}

/-! ### Alternatives in a longer list -/

/-- Where an alternative stands shows only in the refusal of a blank one. -/
theorem parseAlternative_within (expression longer alternative : Fragment) (index offset : Nat) :
    parseAlternative mode longer alternative (index + offset) =
      (parseAlternative mode expression alternative index).mapError (·.within longer offset) := by
  unfold parseAlternative
  by_cases hblank : alternative = []
  · rw [if_pos hblank, if_pos hblank]
    rfl
  · rw [if_neg hblank, if_neg hblank]
    cases hparse : Pattern.parse mode alternative with
    | ok p => rfl
    | error e =>
      show Except.error e = Except.error (e.within longer offset)
      rw [Pattern.within_of_parse_eq_error hparse]

/-- Where alternatives stand shows only in the refusal of a blank one. -/
theorem parseAlternatives_within (expression longer : Fragment) (index offset : Nat)
    (rest : List Fragment) :
    parseAlternatives mode longer (index + offset) rest =
      (parseAlternatives mode expression index rest).mapError (·.within longer offset) := by
  induction rest generalizing index with
  | nil => rfl
  | cons alternative rest ih =>
    rw [parseAlternatives, parseAlternatives, parseAlternative_within expression,
      Nat.add_right_comm, ih, mapError_bind]
    simp only [mapError_bind]
    rfl

/-- **Alternatives of a longer list are parsed in two parts.** -/
theorem parseAlternatives_append (expression : Fragment) (index : Nat)
    (front rest : List Fragment) :
    parseAlternatives mode expression index (front ++ rest) = (do
      let patterns ← parseAlternatives mode expression index front
      let others ← parseAlternatives mode expression (index + front.length) rest
      return patterns ++ others) := by
  induction front generalizing index with
  | nil => exact (bind_pure _).symm
  | cons alternative front ih =>
    rw [List.cons_append, parseAlternatives, ih, parseAlternatives, List.length_cons,
      Nat.add_right_comm, Nat.add_assoc]
    simp only [bind_assoc, pure_bind, List.cons_append]

/-! ### Texts with a bar between them -/

/-- A text with a bar is not blank. -/
theorem trim_append_bar_ne_nil (text rest : Fragment) : trim (text ++ '|' :: rest) ≠ [] := by
  intro hblank
  rw [trim_eq_nil_iff] at hblank
  exact absurd (hblank '|' (by simp)) (by decide)

/-- **A text with a bar is parsed as its two parts are**, the front one first; the refusal of a part
is reported as one of the whole. -/
theorem parse_append_bar {front rest : Fragment} (hfront : trim front ≠ []) (hrest : trim rest ≠ [])
    (mode : DayMatch) :
    parse mode (front ++ '|' :: rest) = (do
      let s ← (parse mode front).mapError (·.within (trim (front ++ '|' :: rest)) 0)
      let t ← (parse mode rest).mapError
        (·.within (trim (front ++ '|' :: rest)) (front.count '|' + 1))
      return ⟨trim (front ++ '|' :: rest), s.patterns ++ t.patterns⟩) := by
  rw [parse_of_trim_ne_nil (trim_append_bar_ne_nil front rest), parse_of_trim_ne_nil hfront,
    parse_of_trim_ne_nil hrest]
  generalize trim (front ++ '|' :: rest) = whole
  have hparsed_front :=
    @parseAlternatives_within mode (trim front) whole 0 0 (alternatives front)
  have hparsed_rest :=
    @parseAlternatives_within mode (trim rest) whole 0 (front.count '|' + 1) (alternatives rest)
  rw [alternatives_append_bar, parseAlternatives_append, length_alternatives, hparsed_front,
    hparsed_rest]
  cases parseAlternatives mode (trim front) 0 (alternatives front) with
  | error e => rfl
  | ok patterns =>
    cases parseAlternatives mode (trim rest) 0 (alternatives rest) with
    | error e => rfl
    | ok others => rfl

/-- What holds of a text whose parts stand before and behind a bar, under a mode. -/
structure Composes (mode : DayMatch) (front rest : Fragment) : Prop where
  /-- The whole is parsed exactly when both parts are. -/
  parsed : (∃ whole, parse mode (front ++ '|' :: rest) = .ok whole) ↔
    (∃ s, parse mode front = .ok s) ∧ ∃ t, parse mode rest = .ok t
  /-- It has the patterns of the front part and then those of the other, one more than bars. -/
  patterns : ∀ {whole s t}, parse mode (front ++ '|' :: rest) = .ok whole →
    parse mode front = .ok s → parse mode rest = .ok t →
    whole.patterns = s.patterns ++ t.patterns ∧
      whole.patterns.length = (front ++ '|' :: rest).count '|' + 1
  /-- It admits what one of the parts admits. -/
  fires : ∀ {whole s t}, parse mode (front ++ '|' :: rest) = .ok whole →
    parse mode front = .ok s → parse mode rest = .ok t → ∀ time bySecond,
    (whole.fires time bySecond = true ↔
      s.fires time bySecond = true ∨ t.fires time bySecond = true)
  /-- It is refused as the front part is, if that is refused. -/
  refused_front : ∀ {e}, parse mode front = .error e →
    parse mode (front ++ '|' :: rest) = .error (e.within (trim (front ++ '|' :: rest)) 0)
  /-- It is refused as the other part is, if only that is refused; the alternatives of the front
  part stand in front. -/
  refused_rest : ∀ {s e}, parse mode front = .ok s → parse mode rest = .error e →
    parse mode (front ++ '|' :: rest) =
      .error (e.within (trim (front ++ '|' :: rest)) s.patterns.length)

section

variable {front rest : Fragment} (hfront : trim front ≠ []) (hrest : trim rest ≠ [])
include hfront hrest

/-- Where both parts are parsed, so is the whole. -/
theorem parse_append_bar_of_ok {s t : Schedule} (hs : parse mode front = .ok s)
    (ht : parse mode rest = .ok t) :
    parse mode (front ++ '|' :: rest) =
      .ok ⟨trim (front ++ '|' :: rest), s.patterns ++ t.patterns⟩ := by
  rw [parse_append_bar hfront hrest, hs, ht]
  rfl

/-- Where the front part is refused, so is the whole. -/
theorem parse_append_bar_of_error_front {e : ParseError} (h : parse mode front = .error e) :
    parse mode (front ++ '|' :: rest) = .error (e.within (trim (front ++ '|' :: rest)) 0) := by
  rw [parse_append_bar hfront hrest, h]
  rfl

/-- Where only the other part is refused, the whole is too, further on. -/
theorem parse_append_bar_of_error_rest {s : Schedule} {e : ParseError}
    (hs : parse mode front = .ok s) (h : parse mode rest = .error e) :
    parse mode (front ++ '|' :: rest) =
      .error (e.within (trim (front ++ '|' :: rest)) s.patterns.length) := by
  rw [parse_append_bar hfront hrest, hs, h, length_patterns_of_parse hs]
  rfl

/-- The whole is parsed exactly when both parts are. -/
theorem exists_parse_append_bar_iff :
    (∃ whole, parse mode (front ++ '|' :: rest) = .ok whole) ↔
      (∃ s, parse mode front = .ok s) ∧ ∃ t, parse mode rest = .ok t := by
  constructor
  · rintro ⟨whole, hparsed⟩
    cases hs : parse mode front with
    | error e =>
      rw [parse_append_bar_of_error_front hfront hrest hs] at hparsed
      exact nomatch hparsed
    | ok s =>
      cases ht : parse mode rest with
      | error e =>
        rw [parse_append_bar_of_error_rest hfront hrest hs ht] at hparsed
        exact nomatch hparsed
      | ok t => exact ⟨⟨s, rfl⟩, ⟨t, rfl⟩⟩
  · rintro ⟨⟨s, hs⟩, ⟨t, ht⟩⟩
    exact ⟨_, parse_append_bar_of_ok hfront hrest hs ht⟩

end

/-! ### The order of alternatives -/

/-- A text whose alternatives are those of a text that is parsed, in another order, is parsed to the
same patterns, in another order. -/
theorem exists_parse_of_perm {text other : Fragment} {s : Schedule} (h : parse mode text = .ok s)
    (hperm : (alternatives text).Perm (alternatives other)) :
    ∃ t, parse mode other = .ok t ∧ t.patterns.Perm s.patterns := by
  obtain ⟨patterns, hall, hpatterns⟩ := List.perm_comp_forall₂ hperm.symm (forall₂_of_parse h)
  obtain ⟨t, ht, rfl⟩ := exists_parse_of_forall₂ hall
  exact ⟨t, ht, hpatterns⟩

/-- **Schedules compose at bars.** A text with a bar between two parts that are not blank is parsed
when both are, admits what one of them admits, and is otherwise refused for the first refusal. The
order of the alternatives does not count for what a schedule admits. -/
theorem alternatives_compose (mode : DayMatch) :
    (∀ front rest : Fragment, trim front ≠ [] → trim rest ≠ [] → Composes mode front rest) ∧
    ∀ (text : Fragment) (s : Schedule) (pieces permuted : List Fragment),
      parse mode text = .ok s → Pieces '|' text pieces → pieces.Perm permuted →
        ∃ t, parse mode (['|'].intercalate permuted) = .ok t ∧
          ∀ time bySecond, t.fires time bySecond = s.fires time bySecond := by
  constructor
  · intro front rest hfront hrest
    have hwhole {whole s t : Schedule} (h : parse mode (front ++ '|' :: rest) = .ok whole)
        (hs : parse mode front = .ok s) (ht : parse mode rest = .ok t) :
        whole.patterns = s.patterns ++ t.patterns := by
      rw [parse_append_bar_of_ok hfront hrest hs ht] at h
      cases h
      rfl
    refine ⟨exists_parse_append_bar_iff hfront hrest, ?_, ?_,
      parse_append_bar_of_error_front hfront hrest, parse_append_bar_of_error_rest hfront hrest⟩
    · intro whole s t h hs ht
      exact ⟨hwhole h hs ht, length_patterns_of_parse h⟩
    · intro whole s t h hs ht time bySecond
      unfold fires
      rw [hwhole h hs ht, List.any_append, Bool.or_eq_true]
  · intro text s pieces permuted hparsed hpieces hperm
    have halternatives :
        (alternatives text).Perm (alternatives (['|'].intercalate permuted)) := by
      rw [alternatives_eq_of_pieces hpieces, alternatives_eq_of_pieces (hpieces.of_perm hperm)]
      exact hperm.map trim
    obtain ⟨t, ht, hpatterns⟩ := exists_parse_of_perm hparsed halternatives
    refine ⟨t, ht, fun time bySecond => ?_⟩
    exact hpatterns.any_eq

/-- A blank alternative is reported behind the two in front of its part; and an hour, a range of
weekdays and a last day of the month admit the same in any order. -/
theorem alternatives_compose_beside_blank :
    (∃ s, parse .all " 0 9 * * * |0 10 * * 1-5".toList = .ok s ∧
      parse .all " |0 25 * * * ".toList = .error (.emptyAlternative "|0 25 * * *".toList 0) ∧
      parse .all (" 0 9 * * * |0 10 * * 1-5".toList ++ '|' :: " |0 25 * * * ".toList) =
        .error (.emptyAlternative "0 9 * * * |0 10 * * 1-5| |0 25 * * *".toList 2)) ∧
    ∃ s, parse .all "0 9 * * *| 0 10 * * 1-5 |0 0 L * ?".toList = .ok s ∧
      ∃ t, parse .all "0 0 L * ?|0 9 * * *| 0 10 * * 1-5 ".toList = .ok t ∧
        ∀ time bySecond, t.fires time bySecond = s.fires time bySecond := by
  let nine : Pattern := .ofSelections .all
    ⟨.listed [0], .listed [0], .listed [9], .whole, .whole, .whole, .whole⟩
  let ten : Pattern := .ofSelections .all
    ⟨.listed [0], .listed [0], .listed [10], .whole, .whole, .listed [1, 2, 3, 4, 5], .whole⟩
  let last : Pattern := .ofSelections .all
    ⟨.listed [0], .listed [0], .listed [0], .listed [31], .whole, .whole, .whole⟩
  have hfront : parse .all " 0 9 * * * |0 10 * * 1-5".toList =
      .ok ⟨"0 9 * * * |0 10 * * 1-5".toList, [nine, ten]⟩ := by
    decide +kernel
  have hrest : parse .all " |0 25 * * * ".toList =
      .error (.emptyAlternative "|0 25 * * *".toList 0) := by
    decide +kernel
  have hparsed : parse .all "0 9 * * *| 0 10 * * 1-5 |0 0 L * ?".toList =
      .ok ⟨"0 9 * * *| 0 10 * * 1-5 |0 0 L * ?".toList, [nine, ten, last]⟩ := by
    decide +kernel
  have hpieces : Pieces '|' "0 9 * * *| 0 10 * * 1-5 |0 0 L * ?".toList
      ["0 9 * * *".toList, " 0 10 * * 1-5 ".toList, "0 0 L * ?".toList] := by
    rw [pieces_iff]
    decide +kernel
  have hperm : ["0 9 * * *".toList, " 0 10 * * 1-5 ".toList, "0 0 L * ?".toList].Perm
      ["0 0 L * ?".toList, "0 9 * * *".toList, " 0 10 * * 1-5 ".toList] := by
    decide +kernel
  constructor
  · have hcomposes := (alternatives_compose .all).1 " 0 9 * * * |0 10 * * 1-5".toList
      " |0 25 * * * ".toList (by decide +kernel) (by decide +kernel)
    exact ⟨_, hfront, hrest, hcomposes.refused_rest hfront hrest⟩
  · exact ⟨_, hparsed, (alternatives_compose .all).2 _ _ _ _ hparsed hpieces hperm⟩

end Schedule

end CronSchedule
