import CronSchedule.Proofs.Field.Denotation
import CronSchedule.Proofs.Text.Pieces
import CronSchedule.Proofs.Text.Segments
import CronSchedule.Proofs.Text.Trimming
import CronSchedule.Selection

/-!
# The grammar of a field

The text of a field is a list of tokens with commas between them. The grammar is given as relations
between texts and what they say, without an algorithm, and reading is shown to follow it.

* `Field.RangeSays f step text t` — a range without blanks around it, behind which the step stands:
  a wildcard, one value, or two with a dash between them.
* `Field.TokenSays f token t` — a token: a range, or a range and a step with a slash between them.
* `Field.Says f text terms` — a field: tokens with commas between them and blanks around each.

Main statements: a range, a token and a field are read as a term exactly when they say that term
(`readRange_eq_ok_iff`, `read_eq_ok_iff`, `readTerms_eq_ok_iff`).
-/

namespace CronSchedule.Field

/-! ### Ranges -/

/-- The two wildcards of a field. -/
abbrev IsWildcard (text : Fragment) : Prop := text = ['*'] ∨ text = ['?']

/-- The two ends of a range: no dash stands behind the first character of either, and the left one
is not empty, so that the dash between them is no sign. -/
structure RangeEnds (left right : Fragment) : Prop where
  left_ne_nil : left ≠ []
  dash_not_mem_left : '-' ∉ left.tail
  dash_not_mem_right : '-' ∉ right.tail

/-- Day 7 written at the right end of a range of days of the week, the Sunday that ends it. -/
abbrev EndsOnSunday (f : Field) (right : Fragment) : Prop := f = dayOfWeek ∧ trim right = ['7']

/-- What a range says, with the step that stands behind it. A range without a step goes by single
values, and a range of days that begins and ends on day 7 is that Sunday. -/
inductive RangeSays (f : Field) : Option Nat → Fragment → Term → Prop
  | whole {text : Fragment} : IsWildcard text → RangeSays f none text .whole
  | wholeBy {text : Fragment} {step : Nat} : IsWildcard text →
      RangeSays f (some step) text (.wholeBy step)
  | value {text : Fragment} {v : Int} : '-' ∉ text.tail → f.HasValue text v →
      RangeSays f none text (.value v)
  | valueBy {text : Fragment} {start : Int} {step : Nat} : '-' ∉ text.tail →
      f.HasStart text start → RangeSays f (some step) text (.valueBy start step)
  | range {left right : Fragment} {start stop : Int} {step : Option Nat} :
      RangeEnds left right → f.HasValue left start → f.HasValue right stop →
      ¬f.EndsOnSunday right →
      RangeSays f step (left ++ '-' :: right) (.range start stop (step.getD 1))
  | toSunday {left right : Fragment} {start : Int} {step : Option Nat} :
      RangeEnds left right → f.HasValue left start → f.EndsOnSunday right →
      RangeSays f step (left ++ '-' :: right)
        (.rangeToSunday (if trim left = ['7'] then 7 else start) (step.getD 1))

/-- Two ends with a dash between them are split at that dash. -/
theorem dashSplit_append_of_rangeEnds {left right : Fragment} (h : RangeEnds left right) :
    dashSplit (left ++ '-' :: right) = [left, right] :=
  dashSplit_eq_pair_iff.mpr
    ⟨rfl, h.left_ne_nil, h.dash_not_mem_left, h.dash_not_mem_right⟩

/-- A text that denotes a number without the blanks around it is neither empty nor a wildcard. -/
theorem Denotes.ne {f : Field} {text : Fragment} {v : Int} (h : f.Denotes (trim text) v) :
    text ≠ [] ∧ ¬IsWildcard text := by
  constructor
  · rintro rfl
    exact h.ne_nil rfl
  · intro hwild
    have hbare : trim text = text := by rcases hwild with rfl | rfl <;> decide
    exact not_denotes_wildcard hwild (hbare ▸ h)

/-- A text with a value is neither empty nor a wildcard. -/
theorem HasValue.ne {f : Field} {text : Fragment} {v : Int} (h : f.HasValue text v) :
    text ≠ [] ∧ ¬IsWildcard text :=
  h.1.ne

/-- A text with a start is neither empty nor a wildcard. -/
theorem HasStart.ne {f : Field} {text : Fragment} {start : Int} (h : f.HasStart text start) :
    text ≠ [] ∧ ¬IsWildcard text := by
  obtain ⟨v, hv, -⟩ := h
  exact hv.ne

/-- Two ends with a dash between them are neither empty nor a wildcard. -/
theorem RangeEnds.ne {left right : Fragment} (h : RangeEnds left right) :
    left ++ '-' :: right ≠ [] ∧ ¬IsWildcard (left ++ '-' :: right) := by
  obtain ⟨c, left, rfl⟩ := List.exists_cons_of_ne_nil h.left_ne_nil
  constructor
  · exact List.cons_ne_nil _ _
  · rintro (hwild | hwild) <;> simp at hwild

/-- A range that is read says the term it is read as. -/
theorem rangeSays_of_readRange {f : Field} {token text : Fragment} {step : Option Nat} {t : Term}
    (h : Term.readRange f token text step = .ok t) : f.RangeSays step (trim text) t := by
  simp only [Term.readRange] at h
  generalize trim text = text at h ⊢
  split at h
  · simp at h
  split at h
  · next hwild =>
    cases step with
    | none =>
      cases h
      exact .whole hwild
    | some step =>
      cases h
      exact .wholeBy hwild
  split at h
  · next single hsplit =>
    obtain ⟨rfl, hdash⟩ := dashSplit_eq_singleton_iff.mp hsplit
    cases step with
    | none =>
      obtain ⟨v, hv, rfl⟩ := map_eq_ok_iff.mp h
      exact .value hdash (readValue_eq_ok_iff.mp hv)
    | some step =>
      obtain ⟨start, hstart, rfl⟩ := map_eq_ok_iff.mp h
      exact .valueBy hdash (readStart_eq_ok_iff.mp hstart)
  · next left right hsplit =>
    obtain ⟨rfl, hne, hleft, hright⟩ := dashSplit_eq_pair_iff.mp hsplit
    have hends : RangeEnds left right := ⟨hne, hleft, hright⟩
    obtain ⟨start, hstart, h⟩ := bind_eq_ok_iff.mp h
    split at h
    · next hsunday =>
      cases h
      exact .toSunday hends (readValue_eq_ok_iff.mp hstart) hsunday
    · next hsunday =>
      obtain ⟨stop, hstop, h⟩ := bind_eq_ok_iff.mp h
      cases h
      exact .range hends (readValue_eq_ok_iff.mp hstart) (readValue_eq_ok_iff.mp hstop) hsunday
  · simp at h

/-- A range is read as the term it says. -/
theorem readRange_of_rangeSays {f : Field} {token text : Fragment} {step : Option Nat} {t : Term}
    (h : f.RangeSays step (trim text) t) : Term.readRange f token text step = .ok t := by
  simp only [Term.readRange]
  generalize trim text = text at h ⊢
  cases h with
  | whole hwild =>
    rw [if_neg (by rcases hwild with rfl | rfl <;> decide), if_pos hwild]
  | wholeBy hwild =>
    rw [if_neg (by rcases hwild with rfl | rfl <;> decide), if_pos hwild]
  | value hdash hv =>
    rw [if_neg hv.ne.1, if_neg hv.ne.2, dashSplit_of_segment hdash]
    exact map_eq_ok_iff.mpr ⟨_, readValue_eq_ok_iff.mpr hv, rfl⟩
  | valueBy hdash hstart =>
    rw [if_neg hstart.ne.1, if_neg hstart.ne.2, dashSplit_of_segment hdash]
    exact map_eq_ok_iff.mpr ⟨_, readStart_eq_ok_iff.mpr hstart, rfl⟩
  | range hends hstart hstop hsunday =>
    rw [if_neg hends.ne.1, if_neg hends.ne.2, dashSplit_append_of_rangeEnds hends]
    refine bind_eq_ok_iff.mpr ⟨_, readValue_eq_ok_iff.mpr hstart, ?_⟩
    rw [if_neg hsunday]
    exact bind_eq_ok_iff.mpr ⟨_, readValue_eq_ok_iff.mpr hstop, rfl⟩
  | toSunday hends hstart hsunday =>
    rw [if_neg hends.ne.1, if_neg hends.ne.2, dashSplit_append_of_rangeEnds hends]
    refine bind_eq_ok_iff.mpr ⟨_, readValue_eq_ok_iff.mpr hstart, ?_⟩
    rw [if_pos hsunday]
    rfl

/-- **A range is read as a term exactly when it says that term.** -/
theorem readRange_eq_ok_iff {f : Field} {token text : Fragment} {step : Option Nat} {t : Term} :
    Term.readRange f token text step = .ok t ↔ f.RangeSays step (trim text) t :=
  ⟨rangeSays_of_readRange, readRange_of_rangeSays⟩

/-! ### Tokens -/

/-- A step: an integer numeral of at least one, with or without blanks around it. -/
def HasStep (text : Fragment) (step : Nat) : Prop :=
  readInteger? (trim text) = some (step : Int) ∧ 1 ≤ step

/-- What a token says: a range, or a range and a step with a slash between them. -/
inductive TokenSays (f : Field) : Fragment → Term → Prop
  | plain {range : Fragment} {t : Term} : '/' ∉ range → f.RangeSays none (trim range) t →
      TokenSays f range t
  | stepped {range text : Fragment} {step : Nat} {t : Term} : '/' ∉ range → '/' ∉ text →
      HasStep text step → f.RangeSays (some step) (trim range) t →
      TokenSays f (range ++ '/' :: text) t

/-- A step is read exactly from a text that is one. -/
theorem readStep_eq_ok_iff {f : Field} {token text : Fragment} {step : Nat} :
    Term.readStep f token text = .ok step ↔ HasStep text step := by
  rw [Term.readStep, HasStep]
  split
  · next n hn =>
    simp only [hn, Option.some.injEq]
    split
    · next hpos =>
      rw [Except.ok.injEq]
      omega
    · next hpos =>
      constructor
      · intro h
        simp at h
      · rintro ⟨rfl, h⟩
        omega
  · next hn =>
    rw [hn]
    simp

/-- **A token is read as a term exactly when it says that term.** -/
theorem read_eq_ok_iff {f : Field} {token : Fragment} {t : Term} :
    Term.read f token = .ok t ↔ f.TokenSays token t := by
  unfold Term.read
  constructor
  · intro h
    split at h
    · next range hsplit =>
      obtain ⟨rfl, hslash⟩ := splitOn_eq_singleton_iff.mp hsplit
      exact .plain hslash (readRange_eq_ok_iff.mp h)
    · next range text hsplit =>
      obtain ⟨rfl, hrange, htext⟩ := splitOn_eq_pair_iff.mp hsplit
      obtain ⟨step, hstep, h⟩ := bind_eq_ok_iff.mp h
      exact .stepped hrange htext (readStep_eq_ok_iff.mp hstep) (readRange_eq_ok_iff.mp h)
    · exact nomatch h
  · intro h
    cases h with
    | plain hslash hsays =>
      rw [splitOn_eq_singleton_iff.mpr ⟨rfl, hslash⟩]
      exact readRange_eq_ok_iff.mpr hsays
    | stepped hrange htext hstep hsays =>
      rw [splitOn_eq_pair_iff.mpr ⟨rfl, hrange, htext⟩]
      exact bind_eq_ok_iff.mpr ⟨_, readStep_eq_ok_iff.mpr hstep, readRange_eq_ok_iff.mpr hsays⟩

/-- The empty token says nothing. -/
theorem not_tokenSays_nil {f : Field} {t : Term} : ¬f.TokenSays [] t := by
  intro h
  rw [← read_eq_ok_iff] at h
  exact nomatch h

/-! ### Fields -/

/-- What the text of a field says: the terms of its tokens, which stand between commas with blanks
around them. -/
def Says (f : Field) (text : Fragment) (terms : List Term) : Prop :=
  ∃ tokens, Pieces ',' (trim text) tokens ∧
    List.Forall₂ (fun token t => f.TokenSays (trim token) t) tokens terms

/-- A token is read without the blanks around it. -/
theorem readToken_eq_ok_iff {f : Field} {text token : Fragment} {t : Term} :
    f.readToken text token = .ok t ↔ f.TokenSays (trim token) t := by
  simp only [readToken]
  split
  · next hempty =>
    rw [hempty]
    constructor
    · exact fun h => nomatch h
    · exact fun h => absurd h not_tokenSays_nil
  · exact read_eq_ok_iff

/-- **The text of a field is read as terms exactly when it says those terms.** -/
theorem readTerms_eq_ok_iff {f : Field} {text : Fragment} {terms : List Term} :
    f.readTerms text = .ok terms ↔ f.Says text terms := by
  simp only [readTerms, Says]
  split
  · next hempty =>
    rw [hempty]
    constructor
    · exact fun h => nomatch h
    · rintro ⟨tokens, hpieces, hterms⟩
      -- the only piece of the empty text is empty, and the empty token says nothing
      rw [pieces_iff, List.splitOn_nil] at hpieces
      subst hpieces
      obtain ⟨t, -, ht, -⟩ := List.forall₂_cons_left_iff.mp hterms
      exact absurd ht not_tokenSays_nil
  · simp only [mapM_eq_ok_iff, readToken_eq_ok_iff, pieces_iff]
    constructor
    · exact fun h => ⟨_, rfl, h⟩
    · rintro ⟨tokens, rfl, h⟩
      exact h

end CronSchedule.Field
