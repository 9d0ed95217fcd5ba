import CronSchedule.Proofs.Field.SundayRanges
import CronSchedule.Proofs.Text.Digits

/-!
# Numbers written another way

A number may be written with zeros or a plus sign in front. The texts of a field that differ only in
how their numbers are written are related by

* `SameNumber text other` — one number, not negative, written in two ways with any blanks around it;
* `RangeRespells range other` — a value, or either end of a range, written another way;
* `TokenRespells token other` — such ranges, with a step that may be written another way;
* `Respells text other` — such tokens, one by one.

What a word is read as is all that its value, its start and its step depend on
(`Field.HasValue.of_sameNumber`, `Field.HasStart.of_sameNumber`, `Field.HasStep.of_sameNumber`). One
place depends on the letters: a range of days of the week runs up to the Sunday behind Saturday where
its end is written `7` and its start is not (`Field.RunsToSunday`), and with any other numeral of 7
it ends on day 0. `Field.TokenMoved` sets the tokens apart of which one goes the one way and one the
other and that Sunday makes a difference. It does make one (`Field.select_week_to_seven_ne`).

Main statement: **a field stays accepted however its numbers are written, and each token selects the
same exactly if it is not moved** (`Field.select_of_respells`). The field selects the union of its
tokens.
-/

namespace CronSchedule

/-! ### One number, written in two ways -/

/-- Two texts in which the same number that is not negative is written, with any blanks around. -/
def SameNumber (text other : Fragment) : Prop :=
  ∃ n : Int, 0 ≤ n ∧ readInteger? (trim text) = some n ∧ readInteger? (trim other) = some n

/-- Trimming a text does not change the number in it. -/
theorem SameNumber.trim {text other : Fragment} (h : SameNumber text other) :
    SameNumber (trim text) (trim other) := by
  obtain ⟨n, hn, htext, hother⟩ := h
  exact ⟨n, hn, by rw [trim_trim, htext], by rw [trim_trim, hother]⟩

/-! ### Texts that differ in their numbers -/

/-- Two ranges that differ in how their numbers are written. -/
inductive RangeRespells : Fragment → Fragment → Prop
  /-- The same range. -/
  | same (range : Fragment) : RangeRespells range range
  /-- A value, with or without a step behind it. -/
  | value {range other : Fragment} : SameNumber range other → RangeRespells range other
  /-- Either end of a range, or both. -/
  | ends {range other left right left' right' : Fragment} :
      trim range = left ++ '-' :: right → Field.RangeEnds left right →
      trim other = left' ++ '-' :: right' → Field.RangeEnds left' right' →
      (left = left' ∨ SameNumber left left') → (right = right' ∨ SameNumber right right') →
      RangeRespells range other

/-- Two tokens that differ in how their numbers are written. -/
inductive TokenRespells : Fragment → Fragment → Prop
  /-- A range without a step. -/
  | plain {range other : Fragment} : '/' ∉ range → '/' ∉ other → RangeRespells range other →
      TokenRespells range other
  /-- A range with a step. -/
  | stepped {range other step step' : Fragment} : '/' ∉ range → '/' ∉ step → '/' ∉ other →
      '/' ∉ step' → RangeRespells range other → (step = step' ∨ SameNumber step step') →
      TokenRespells (range ++ '/' :: step) (other ++ '/' :: step')

/-- Two texts of a field whose tokens, one by one, differ in how their numbers are written. -/
def Respells (text other : Fragment) : Prop :=
  List.Forall₂ (fun token token' => TokenRespells (trim token) (trim token'))
    ((trim text).splitOn ',') ((trim other).splitOn ',')

namespace Field

variable {f : Field} {text other : Fragment}

/-! ### What a number is read as -/

/-- A number denotes the same however it is written. -/
theorem Denotes.of_sameNumber (h : SameNumber text other) {v : Int}
    (hv : f.Denotes (CronSchedule.trim text) v) : f.Denotes (CronSchedule.trim other) v := by
  obtain ⟨n, -, htext, hother⟩ := h
  rw [denotes_iff_of_readInteger? htext] at hv
  rwa [denotes_iff_of_readInteger? hother]

/-- It has the same value. -/
theorem HasValue.of_sameNumber (h : SameNumber text other) {v : Int} (hv : f.HasValue text v) :
    f.HasValue other v :=
  ⟨hv.1.of_sameNumber h, hv.2⟩

/-- It has the same start. -/
theorem HasStart.of_sameNumber (h : SameNumber text other) {start : Int}
    (hstart : f.HasStart text start) : f.HasStart other start := by
  obtain ⟨v, hv, hle, rfl⟩ := hstart
  exact ⟨v, hv.of_sameNumber h, hle, rfl⟩

/-- It is the same step. -/
theorem HasStep.of_sameNumber (h : SameNumber text other) {step : Nat}
    (hstep : HasStep text step) : HasStep other step := by
  obtain ⟨n, -, htext, hother⟩ := h
  refine ⟨?_, hstep.2⟩
  rw [hother, ← htext, hstep.1]

/-- A number is no wildcard. -/
theorem not_isWildcard_of_readInteger? {n : Int} (h : readInteger? text = some n) :
    ¬IsWildcard text := by
  intro hwild
  have hnone : readInteger? text = none := by rcases hwild with rfl | rfl <;> decide
  rw [h] at hnone
  exact nomatch hnone

/-- An end of a range has the same value if it stays or is such a number. -/
theorem HasValue.of_respelt (h : text = other ∨ SameNumber text other) {v : Int}
    (hv : f.HasValue text v) : f.HasValue other v := by
  rcases h with rfl | h
  · exact hv
  · exact hv.of_sameNumber h

/-- And so is a step. -/
theorem HasStep.of_respelt (h : text = other ∨ SameNumber text other) {step : Nat}
    (hstep : HasStep text step) : HasStep other step := by
  rcases h with rfl | h
  · exact hstep
  · exact hstep.of_sameNumber h

/-- A text is one step at most. -/
theorem HasStep.unique {step step' : Nat} (h : HasStep text step) (h' : HasStep text step') :
    step = step' := by
  have hread := h.1
  rw [h'.1, Option.some.injEq] at hread
  omega

/-! ### Ranges that are moved to another Sunday -/

/-- A range of days of the week runs up to the Sunday behind Saturday if its end is written `7` and
its start is not. -/
abbrev RunsToSunday (f : Field) (left right : Fragment) : Prop :=
  f.EndsOnSunday right ∧ trim left ≠ ['7']

/-- Two ranges of which one runs up to the Sunday behind Saturday and the other ends on day 0, where
the steps from their start do not meet that Sunday. -/
inductive RangeMoved (f : Field) (step : Nat) : Fragment → Fragment → Prop
  | ends {range other left right left' right' : Fragment} {start : Int} :
      trim range = left ++ '-' :: right → RangeEnds left right →
      trim other = left' ++ '-' :: right' → RangeEnds left' right' → f.HasValue left start →
      ¬(f.RunsToSunday left right ↔ f.RunsToSunday left' right') → ¬MeetsSunday start step →
      RangeMoved f step range other

/-- Two tokens with one step whose ranges are moved. -/
inductive TokenMoved (f : Field) : Fragment → Fragment → Prop
  /-- A range without a step goes by single days. -/
  | plain {range other : Fragment} : '/' ∉ range → '/' ∉ other → f.RangeMoved 1 range other →
      TokenMoved f range other
  /-- A range with a step. -/
  | stepped {range other text text' : Fragment} {step : Nat} : '/' ∉ range → '/' ∉ text →
      '/' ∉ other → '/' ∉ text' → HasStep text step → HasStep text' step →
      f.RangeMoved step range other → TokenMoved f (range ++ '/' :: text) (other ++ '/' :: text')

/-- A text is split into the ends of a range in one way. -/
theorem RangeEnds.unique {left right left' right' : Fragment} (h : RangeEnds left right)
    (h' : RangeEnds left' right') (heq : left ++ '-' :: right = left' ++ '-' :: right') :
    left = left' ∧ right = right' := by
  have hsplit := dashSplit_append_of_rangeEnds h
  rw [heq, dashSplit_append_of_rangeEnds h'] at hsplit
  cases hsplit
  exact ⟨rfl, rfl⟩

/-- A dash stands behind the first character of a range with two ends. -/
theorem RangeEnds.dash_mem_tail {left right : Fragment} (h : RangeEnds left right) :
    '-' ∈ (left ++ '-' :: right).tail := by
  obtain ⟨c, left, rfl⟩ := List.exists_cons_of_ne_nil h.left_ne_nil
  simp

section Moved

variable {range left right left' right' : Fragment} {start : Int} {step : Nat}

/-- Whether two ranges are moved is seen at their ends. -/
theorem rangeMoved_iff (hrange : trim range = left ++ '-' :: right) (hends : RangeEnds left right)
    (hother : trim other = left' ++ '-' :: right') (hends' : RangeEnds left' right')
    (hstart : f.HasValue left start) : f.RangeMoved step range other ↔
      ¬(f.RunsToSunday left right ↔ f.RunsToSunday left' right') ∧ ¬MeetsSunday start step := by
  constructor
  · rintro ⟨hrange₀, hends₀, hother₀, hends₀', hstart₀, hruns, hmeets⟩
    obtain ⟨rfl, rfl⟩ := hends₀.unique hends (hrange₀.symm.trans hrange)
    obtain ⟨rfl, rfl⟩ := hends₀'.unique hends' (hother₀.symm.trans hother)
    cases hstart₀.unique hstart
    exact ⟨hruns, hmeets⟩
  · rintro ⟨hruns, hmeets⟩
    exact .ends hrange hends hother hends' hstart hruns hmeets

/-- A range is not moved against itself. -/
theorem not_rangeMoved_self : ¬f.RangeMoved step range range := by
  rintro ⟨hrange, hends, hother, hends', -, hruns, -⟩
  obtain ⟨rfl, rfl⟩ := hends.unique hends' (hrange.symm.trans hother)
  exact hruns Iff.rfl

/-- A single number is not moved. -/
theorem not_rangeMoved_of_sameNumber (h : SameNumber range other) :
    ¬f.RangeMoved step range other := by
  rintro ⟨hrange, hends, -⟩
  obtain ⟨n, -, hread, -⟩ := h
  exact dash_not_mem_tail_of_readInteger? hread (hrange ▸ hends.dash_mem_tail)

/-- In other fields nothing is moved. -/
theorem not_rangeMoved_of_ne (h : f ≠ dayOfWeek) : ¬f.RangeMoved step range other := by
  rintro ⟨-, -, -, -, -, hruns, -⟩
  exact hruns (iff_of_false (fun hleft => h hleft.1.1) (fun hright => h hright.1.1))

/-- Nor is a token. -/
theorem not_tokenMoved_of_ne (h : f ≠ dayOfWeek) {token token' : Fragment} :
    ¬f.TokenMoved token token' := by
  rintro (⟨-, -, hmoved⟩ | ⟨-, -, -, -, -, -, hmoved⟩)
  · exact not_rangeMoved_of_ne h hmoved
  · exact not_rangeMoved_of_ne h hmoved

/-- Tokens without a step are moved as their ranges are. -/
theorem tokenMoved_iff_of_plain (hrange : '/' ∉ range) (hother : '/' ∉ other) :
    f.TokenMoved range other ↔ f.RangeMoved 1 range other := by
  constructor
  · intro h
    cases h with
    | plain _ _ hmoved => exact hmoved
    | stepped => exact absurd (by simp) hrange
  · intro hmoved
    exact .plain hrange hother hmoved

/-- Tokens with one step are moved as their ranges are. -/
theorem tokenMoved_iff_of_stepped {text text' : Fragment} (hrange : '/' ∉ range)
    (htext : '/' ∉ text) (hother : '/' ∉ other) (htext' : '/' ∉ text') (hstep : HasStep text step)
    (hstep' : HasStep text' step) :
    f.TokenMoved (range ++ '/' :: text) (other ++ '/' :: text') ↔ f.RangeMoved step range other := by
  constructor
  · intro h
    generalize htoken : range ++ '/' :: text = token at h
    generalize htoken' : other ++ '/' :: text' = token' at h
    cases h with
    | plain hplain => exact absurd (htoken ▸ by simp) hplain
    | stepped _ _ _ _ hstep₀ _ hmoved =>
      -- both tokens are cut at their only slash
      obtain ⟨rfl, -, rfl⟩ := (List.append_cons_inj_of_notMem hrange htext).mp htoken
      obtain ⟨rfl, -, rfl⟩ := (List.append_cons_inj_of_notMem hother htext').mp htoken'
      rwa [hstep.unique hstep₀]
  · intro hmoved
    exact .stepped hrange htext hother htext' hstep hstep' hmoved

end Moved

/-! ### What ranges say -/

/-- A range says one term at most. -/
theorem RangeSays.unique {range : Fragment} {step : Option Nat} {t u : Term}
    (ht : f.RangeSays step (trim range) t) (hu : f.RangeSays step (trim range) u) : t = u := by
  have hread : Term.readRange f [] range step = .ok t := readRange_eq_ok_iff.mpr ht
  rw [readRange_eq_ok_iff.mpr hu] at hread
  cases hread
  rfl

/-- Ranges in which one number is written say the same. -/
theorem rangeSays_of_sameNumber {range other : Fragment} (h : SameNumber range other)
    {step : Option Nat} {t : Term} (hterm : f.RangeSays step (trim range) t) :
    f.RangeSays step (trim other) t := by
  obtain ⟨n, -, hrange, hother⟩ := id h
  have hdash := dash_not_mem_tail_of_readInteger? hrange
  have hdash' := dash_not_mem_tail_of_readInteger? hother
  generalize htext : trim range = text at hterm
  cases hterm with
  | whole hwild => exact absurd (htext ▸ hwild) (not_isWildcard_of_readInteger? hrange)
  | wholeBy hwild => exact absurd (htext ▸ hwild) (not_isWildcard_of_readInteger? hrange)
  | value _ hv =>
    subst htext
    exact .value hdash' (hv.of_sameNumber h.trim)
  | valueBy _ hstart =>
    subst htext
    exact .valueBy hdash' (hstart.of_sameNumber h.trim)
  | range hends => exact absurd (htext ▸ hends.dash_mem_tail) hdash
  | toSunday hends => exact absurd (htext ▸ hends.dash_mem_tail) hdash

section Ends

variable {left right left' right' : Fragment} {start stop : Int} {step : Nat}

/-- Both ends of a range that says something have a value. -/
theorem RangeEnds.hasValue (hends : RangeEnds left right) {step : Option Nat} {t : Term}
    (hterm : f.RangeSays step (left ++ '-' :: right) t) :
    (∃ start, f.HasValue left start) ∧ ∃ stop, f.HasValue right stop := by
  generalize htext : left ++ '-' :: right = text at hterm
  cases hterm with
  | whole hwild => exact absurd (htext ▸ hwild) hends.ne.2
  | wholeBy hwild => exact absurd (htext ▸ hwild) hends.ne.2
  | value hdash => exact absurd (htext ▸ hends.dash_mem_tail) hdash
  | valueBy hdash => exact absurd (htext ▸ hends.dash_mem_tail) hdash
  | range hends₀ hstart hstop =>
    obtain ⟨rfl, rfl⟩ := hends.unique hends₀ htext
    exact ⟨⟨_, hstart⟩, _, hstop⟩
  | toSunday hends₀ hstart hsunday =>
    obtain ⟨rfl, rfl⟩ := hends.unique hends₀ htext
    obtain ⟨rfl, hseven⟩ := hsunday
    refine ⟨⟨_, hstart⟩, 0, ?_, by decide⟩
    rw [hseven]
    exact @Denotes.literal dayOfWeek _ 7 (by decide) (by decide)

/-- A range between two values selects what is counted to the Sunday behind Saturday, if it runs up
to it, and otherwise what is counted to its stop. -/
theorem exists_rangeSays_of_ends (hends : RangeEnds left right) (hstart : f.HasValue left start)
    (hstop : f.HasValue right stop) {step : Option Nat} (hstep : 1 ≤ step.getD 1) :
    ∃ t, f.RangeSays step (left ++ '-' :: right) t ∧
      Selection.ofTerms f [t] = Selection.ofTerms f
        [if f.RunsToSunday left right then .rangeToSunday start (step.getD 1)
          else .range start stop (step.getD 1)] := by
  by_cases hsunday : f.EndsOnSunday right
  · refine ⟨_, .toSunday hends hstart hsunday, ?_⟩
    by_cases hseven : trim left = ['7']
    · -- from a written 7 to another, as from day 0 to itself, there is one day
      rw [if_pos hseven, if_neg (fun hruns => hruns.2 hseven)]
      obtain ⟨rfl, hright⟩ := hsunday
      apply Selection.ofTerms_singleton_congr (by simp) (by simp)
      rw [hstart.eq_zero_of_seven hseven, hstop.eq_zero_of_seven hright,
        Term.values_rangeToSunday_seven hstep, Term.values_range_zero hstep]
    · rw [if_neg hseven, if_pos ⟨hsunday, hseven⟩]
  · refine ⟨_, .range hends hstart hstop hsunday, ?_⟩
    rw [if_neg (fun hruns => hsunday hruns.1)]

/-- Two ranges between the same values select the same exactly if both or neither run up to the Sunday
behind Saturday, or they meet that Sunday. -/
theorem ofTerms_runsToSunday_iff (hstep : 1 ≤ step) (hstart : f.HasValue left start)
    (hstop : f.HasValue right stop) (hstop' : f.HasValue right' stop) :
    Selection.ofTerms f [if f.RunsToSunday left' right' then .rangeToSunday start step
        else .range start stop step] =
      Selection.ofTerms f [if f.RunsToSunday left right then .rangeToSunday start step
        else .range start stop step] ↔
    (f.RunsToSunday left right ↔ f.RunsToSunday left' right') ∨ MeetsSunday start step := by
  have hbounds := hstart.2
  by_cases hruns : f.RunsToSunday left right <;> by_cases hruns' : f.RunsToSunday left' right'
  · rw [if_pos hruns, if_pos hruns']
    exact iff_of_true rfl (.inl (iff_of_true hruns hruns'))
  · obtain ⟨rfl, hseven⟩ := hruns.1
    cases hstop.eq_zero_of_seven hseven
    have hdiffer := fun hsame => hruns' (Iff.mp hsame hruns)
    rw [if_pos hruns, if_neg hruns', eq_comm, Selection.ofTerms_rangeToSunday_iff hstep hbounds,
      or_iff_right hdiffer]
  · obtain ⟨rfl, hseven⟩ := hruns'.1
    cases hstop'.eq_zero_of_seven hseven
    have hdiffer := fun hsame => hruns (Iff.mpr hsame hruns')
    rw [if_neg hruns, if_pos hruns', Selection.ofTerms_rangeToSunday_iff hstep hbounds,
      or_iff_right hdiffer]
  · rw [if_neg hruns, if_neg hruns']
    exact iff_of_true rfl (.inl (iff_of_false hruns hruns'))

end Ends

/-- **Ranges that differ in how their numbers are written select the same exactly if they are not
moved.** -/
theorem exists_rangeSays_of_respells {range other : Fragment} (h : RangeRespells range other)
    {step : Option Nat} {t : Term} (hterm : f.RangeSays step (trim range) t)
    (hstep : 1 ≤ step.getD 1) :
    ∃ u, f.RangeSays step (trim other) u ∧
      (Selection.ofTerms f [u] = Selection.ofTerms f [t] ↔
        ¬f.RangeMoved (step.getD 1) range other) := by
  cases h with
  | same => exact ⟨t, hterm, iff_of_true rfl not_rangeMoved_self⟩
  | value hsame =>
    exact ⟨t, rangeSays_of_sameNumber hsame hterm,
      iff_of_true rfl (not_rangeMoved_of_sameNumber hsame)⟩
  | ends hrange hends hother hends' hleft hright =>
    obtain ⟨⟨start, hstart⟩, stop, hstop⟩ := hends.hasValue (hrange ▸ hterm)
    have hstop' := hstop.of_respelt hright
    obtain ⟨t', ht', hselect⟩ := exists_rangeSays_of_ends hends hstart hstop hstep
    obtain ⟨u, hu, hselect'⟩ :=
      exists_rangeSays_of_ends hends' (hstart.of_respelt hleft) hstop' hstep
    rw [← hrange] at ht'
    cases hterm.unique ht'
    refine ⟨u, hother ▸ hu, ?_⟩
    rw [hselect, hselect', rangeMoved_iff hrange hends hother hends' hstart, not_and_or, not_not,
      not_not]
    exact ofTerms_runsToSunday_iff hstep hstart hstop hstop'

/-! ### Tokens and fields -/

/-- **Tokens that differ in how their numbers are written select the same exactly if they are not
moved.** -/
theorem exists_tokenSays_of_respells {token token' : Fragment} (h : TokenRespells token token')
    {t : Term} (hterm : f.TokenSays token t) : ∃ u, f.TokenSays token' u ∧
      (Selection.ofTerms f [u] = Selection.ofTerms f [t] ↔ ¬f.TokenMoved token token') := by
  cases h with
  | plain hslash hslash' hrange =>
    cases hterm with
    | plain _ hterm =>
      obtain ⟨u, hu, hselect⟩ := exists_rangeSays_of_respells hrange hterm (Nat.le_refl 1)
      refine ⟨u, .plain hslash' hu, ?_⟩
      rw [hselect, tokenMoved_iff_of_plain hslash hslash', Option.getD_none]
    | stepped => exact absurd (by simp) hslash
  | stepped hslash hslash_step hslash' hslash_step' hrange hstep =>
    generalize htoken : _ ++ '/' :: _ = token at hterm
    cases hterm with
    | plain hplain => exact absurd (htoken ▸ by simp) hplain
    | stepped _ _ hstep₀ hterm =>
      -- both readings cut the token at its only slash
      obtain ⟨rfl, -, rfl⟩ := (List.append_cons_inj_of_notMem hslash hslash_step).mp htoken
      obtain ⟨u, hu, hselect⟩ := exists_rangeSays_of_respells hrange hterm hstep₀.2
      have hstep' := hstep₀.of_respelt hstep
      refine ⟨u, .stepped hslash' hslash_step' hstep' hu, ?_⟩
      rw [hselect, tokenMoved_iff_of_stepped hslash hslash_step hslash' hslash_step' hstep₀ hstep',
        Option.getD_some]

/-- An accepted token stays accepted, and selects the same exactly if it is not moved. -/
theorem select_token_of_respells {token token' : Fragment} (hcomma : ',' ∉ token)
    (hcomma' : ',' ∉ token') (h : TokenRespells (trim token) (trim token'))
    (haccepted : ∃ s, f.select token = .ok s) : (∃ s, f.select token' = .ok s) ∧
      (f.select token' = f.select token ↔ ¬f.TokenMoved (trim token) (trim token')) := by
  obtain ⟨s, hs⟩ := haccepted
  obtain ⟨t, ht, rfl⟩ := (select_token_eq_ok_iff hcomma []).mp hs
  obtain ⟨u, hu, hselect⟩ := exists_tokenSays_of_respells h (readToken_eq_ok_iff.mp ht)
  have hs' := (select_token_eq_ok_iff hcomma' []).mpr ⟨u, readToken_eq_ok_iff.mpr hu, rfl⟩
  refine ⟨⟨_, hs'⟩, ?_⟩
  rw [hs, hs', Except.ok.injEq, hselect]

/-- The tokens of two lists, one by one. -/
theorem forall₂_select_of_respells {tokens tokens' : List Fragment}
    (h : List.Forall₂ (fun token token' => TokenRespells (trim token) (trim token')) tokens tokens')
    (hcomma : ∀ token ∈ tokens, ',' ∉ token) (hcomma' : ∀ token' ∈ tokens', ',' ∉ token')
    (haccepted : ∀ token ∈ tokens, ∃ s, f.select token = .ok s) :
    (∀ token' ∈ tokens', ∃ s, f.select token' = .ok s) ∧
      List.Forall₂ (fun token token' =>
        f.select token' = f.select token ↔ ¬f.TokenMoved (trim token) (trim token'))
        tokens tokens' := by
  induction h with
  | nil => exact ⟨haccepted, .nil⟩
  | cons htoken _ ih =>
    obtain ⟨hcomma, hcommas⟩ := List.forall_mem_cons.mp hcomma
    obtain ⟨hcomma', hcommas'⟩ := List.forall_mem_cons.mp hcomma'
    obtain ⟨haccepted, hothers⟩ := List.forall_mem_cons.mp haccepted
    obtain ⟨haccepted', hsame⟩ := select_token_of_respells hcomma hcomma' htoken haccepted
    obtain ⟨hothers', hrest⟩ := ih hcommas hcommas' hothers
    exact ⟨List.forall_mem_cons.mpr ⟨haccepted', hothers'⟩, .cons hsame hrest⟩

/-- A text selects what it selects without the blanks around it. -/
theorem select_trim (f : Field) (text : Fragment) : f.select (trim text) = f.select text := by
  simp only [select, readTerms, trim_trim]

/-- Texts whose tokens select the same, one by one, select the same. -/
theorem select_congr_of_forall₂ {tokens tokens' : List Fragment} (hpieces : Pieces ',' text tokens)
    (hpieces' : Pieces ',' other tokens')
    (h : List.Forall₂ (fun token token' => f.select token' = f.select token) tokens tokens')
    {s : Selection} (hselect : f.select text = .ok s) : f.select other = .ok s := by
  have hmap : tokens'.map f.select = tokens.map f.select := by
    rw [← List.forall₂_eq_eq_eq, List.forall₂_map_left_iff, List.forall₂_map_right_iff]
    exact h.flip
  obtain ⟨selections, hselections, hunites⟩ := (select_eq_ok_iff_unites hpieces).mp hselect
  refine (select_eq_ok_iff_unites hpieces').mpr ⟨selections, ?_, hunites⟩
  rw [← @List.forall₂_map_left_iff _ _ _ (· = .ok ·) f.select] at hselections ⊢
  rwa [hmap]

/-- **A field stays accepted however its numbers are written, and each token selects the same exactly
if it is not moved.** The field selects the union of what its tokens select, and so the same if none
of them is moved, in fields other than the day of the week always. -/
theorem select_of_respells (f : Field) {text other : Fragment} {s : Selection}
    (h : Respells text other) (hselect : f.select text = .ok s) :
    (∃ t, f.select other = .ok t) ∧
    List.Forall₂ (fun token token' =>
        f.select token' = f.select token ↔ ¬f.TokenMoved (trim token) (trim token'))
      ((trim text).splitOn ',') ((trim other).splitOn ',') ∧
    (∀ t, f.select other = .ok t ↔ ∃ selections,
      List.Forall₂ (fun token u => f.select token = .ok u) ((trim other).splitOn ',') selections ∧
        Selection.Unites selections t) ∧
    (List.Forall₂ (fun token token' => ¬f.TokenMoved (trim token) (trim token'))
      ((trim text).splitOn ',') ((trim other).splitOn ',') → f.select other = .ok s) ∧
    (f ≠ dayOfWeek → f.select other = .ok s) := by
  have hpieces : Pieces ',' (trim text) ((trim text).splitOn ',') := pieces_iff.mpr rfl
  have hpieces' : Pieces ',' (trim other) ((trim other).splitOn ',') := pieces_iff.mpr rfl
  rw [← select_trim] at hselect
  simp only [← select_trim f other]
  have haccepted := (exists_select_iff hpieces).mp ⟨s, hselect⟩
  obtain ⟨haccepted', hsame⟩ :=
    forall₂_select_of_respells h hpieces.sep_not_mem hpieces'.sep_not_mem haccepted
  have hkept (hnone : List.Forall₂ (fun token token' => ¬f.TokenMoved (trim token) (trim token'))
      ((trim text).splitOn ',') ((trim other).splitOn ',')) : f.select (trim other) = .ok s :=
    select_congr_of_forall₂ hpieces hpieces' (.mp (fun _ _ hiff => hiff.mpr) hsame hnone) hselect
  refine ⟨(exists_select_iff hpieces').mpr haccepted', hsame,
    fun t => select_eq_ok_iff_unites hpieces', hkept, ?_⟩
  intro hne
  exact hkept (h.imp fun _ _ _ => not_tokenMoved_of_ne hne)

/-- Every other day from Monday to Friday, Sunday, and Wednesday to Sunday, with zeros and plus signs
put in front of numbers or taken away. The last range runs up to the Sunday behind Saturday in the
one text and wraps around to day 0 in the other. -/
theorem select_of_respells_weekdays :
    Respells "1-05/2,7, 3 -7".toList "+1-5/02,007,03-+7".toList ∧
      dayOfWeek.select "1-05/2,7, 3 -7".toList = .ok (.listed [1, 3, 5, 0, 4, 6]) ∧
      dayOfWeek.select "+1-5/02,007,03-+7".toList = .ok (.listed [1, 3, 5, 0, 4, 6]) := by
  have hmonday : SameNumber ['1'] ['+', '1'] := ⟨1, by decide⟩
  have hfriday : SameNumber ['0', '5'] ['5'] := ⟨5, by decide⟩
  have hstep : SameNumber ['2'] ['0', '2'] := ⟨2, by decide⟩
  have hsunday : SameNumber ['7'] ['0', '0', '7'] := ⟨7, by decide⟩
  have hwednesday : SameNumber ['3', ' '] ['0', '3'] := ⟨3, by decide⟩
  have hseven : SameNumber ['7'] ['+', '7'] := ⟨7, by decide⟩
  have hselect : dayOfWeek.select "1-05/2,7, 3 -7".toList = .ok (.listed [1, 3, 5, 0, 4, 6]) := by
    decide +kernel
  have hrespells : Respells "1-05/2,7, 3 -7".toList "+1-5/02,007,03-+7".toList := by
    have hfirst : RangeRespells ['1', '-', '0', '5'] ['+', '1', '-', '5'] :=
      @RangeRespells.ends _ _ ['1'] ['0', '5'] ['+', '1'] ['5'] rfl
        ⟨by decide, by decide, by decide⟩ rfl ⟨by decide, by decide, by decide⟩ (.inr hmonday)
        (.inr hfriday)
    have hlast : RangeRespells ['3', ' ', '-', '7'] ['0', '3', '-', '+', '7'] :=
      @RangeRespells.ends _ _ ['3', ' '] ['7'] ['0', '3'] ['+', '7'] rfl
        ⟨by decide, by decide, by decide⟩ rfl ⟨by decide, by decide, by decide⟩ (.inr hwednesday)
        (.inr hseven)
    refine .cons ?_ (.cons ?_ (.cons ?_ .nil))
    · exact .stepped (by decide) (by decide) (by decide) (by decide) hfirst (.inr hstep)
    · exact .plain (by decide) (by decide) (.value hsunday)
    · exact .plain (by decide) (by decide) hlast
  obtain ⟨-, hsame, -, hkept, -⟩ := select_of_respells dayOfWeek hrespells hselect
  -- the tokens select the same alone, and so none of them is moved
  have hequal : List.Forall₂ (fun token token' => dayOfWeek.select token' = dayOfWeek.select token)
      ((trim "1-05/2,7, 3 -7".toList).splitOn ',')
      ((trim "+1-5/02,007,03-+7".toList).splitOn ',') := by
    refine .cons ?_ (.cons ?_ (.cons ?_ .nil)) <;> decide +kernel
  have hnone := List.Forall₂.mp (fun _ _ hiff => hiff.mp) hsame hequal
  exact ⟨hrespells, hselect, hkept hnone⟩

/-- From day 0 to a `7` is the whole week, and to the same number written `07` it is day 0 alone;
from a `7` to a `7` is day 0 alone, and from `07` it is the whole week. -/
theorem select_week_to_seven_ne :
    (SameNumber "7".toList "07".toList ∧
      dayOfWeek.select "0-7".toList = .ok (.listed [0, 1, 2, 3, 4, 5, 6]) ∧
      dayOfWeek.select "0-07".toList ≠ dayOfWeek.select "0-7".toList) ∧
    dayOfWeek.select "7-7".toList = .ok (.listed [0]) ∧
      dayOfWeek.select "07-7".toList ≠ dayOfWeek.select "7-7".toList := by
  refine ⟨⟨⟨7, by decide⟩, by decide +kernel, by decide +kernel⟩, by decide +kernel, ?_⟩
  decide +kernel

end Field

end CronSchedule
