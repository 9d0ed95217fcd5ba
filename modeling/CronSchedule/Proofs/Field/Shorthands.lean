import CronSchedule.Proofs.Field.Aliases
import CronSchedule.Proofs.Field.Union

/-!
# Shorthands and their long forms

A value is a range from itself to itself, a value with a step is a range from it to the greatest
value, and a wildcard with a step begins at the least one.

* `RangeWord range` — a text that stands in a field as one range. **It selects what it is read as**,
  with and without a step behind it (`Field.select_of_rangeWord`, `Field.select_stepped`), whatever
  blanks stand around the step.
* A value word and the range between two of them are such texts (`ValueWord.rangeWord`,
  `ValueWord.dash`). What each form selects is said by the value or the start of its words:
  `Field.select_value_iff`, `Field.select_value_by_iff`, `Field.select_to_itself`,
  `Field.select_to_last`, `Field.select_wildcard_by`.
* `IsValueText word` — a literal, or a name of some field.

Main statement: **shorthands select what their long forms do** (`Field.select_shorthands`). The start
of a stepped sequence is resolved apart from the end of a range, and only the start is raised to the
least value, so the statement rests on both denoting the same number.
-/

namespace CronSchedule

/-! ### Texts that are one range -/

/-- A text that stands in a field as one range. -/
structure RangeWord (range : Fragment) : Prop where
  /-- There is a character. -/
  ne_nil : range ≠ []
  /-- There are no blanks at the ends. -/
  bare : Bare range
  /-- It is one token. -/
  comma_not_mem : ',' ∉ range
  /-- There is no step. -/
  slash_not_mem : '/' ∉ range

/-- A value is a range. -/
theorem ValueWord.rangeWord {word : Fragment} (h : ValueWord word) : RangeWord word :=
  ⟨h.ne_nil, h.bare, h.comma_not_mem, h.slash_not_mem⟩

/-- So are two values with a dash between them. -/
theorem ValueWord.dash {left right : Fragment} (hleft : ValueWord left) (hright : ValueWord right) :
    RangeWord (left ++ '-' :: right) := by
  refine ⟨by simp, hleft.bare.append hright.bare hleft.ne_nil hright.ne_nil ['-'], ?_, ?_⟩
  · simp [hleft.comma_not_mem, hright.comma_not_mem]
  · simp [hleft.slash_not_mem, hright.slash_not_mem]

/-- The dash between two values separates them. -/
theorem ValueWord.rangeEnds {left right : Fragment} (hleft : ValueWord left)
    (hright : ValueWord right) : Field.RangeEnds left right :=
  ⟨hleft.ne_nil, hleft.dash_not_mem_tail, hright.dash_not_mem_tail⟩

/-- A wildcard is a range. -/
theorem rangeWord_of_isWildcard {text : Fragment} (h : Field.IsWildcard text) : RangeWord text := by
  rcases h with rfl | rfl
  · exact ⟨by simp, bare_of_no_blank (by simp [isBlank]), by decide, by decide⟩
  · exact ⟨by simp, bare_of_no_blank (by simp [isBlank]), by decide, by decide⟩

/-- A word written as a value: a literal, or a name of some field. -/
def IsValueText (word : Fragment) : Prop :=
  (∃ raw, readInteger? word = some raw) ∨ ∃ (g : Field) (n : Int), g.Names word n

/-- It can stand in a field as one value. -/
theorem IsValueText.valueWord {word : Fragment} (h : IsValueText word) : ValueWord word := by
  rcases h with ⟨raw, hraw⟩ | ⟨g, n, hname⟩
  · exact valueWord_of_readInteger? hraw
  · exact Field.valueWord_of_names hname

namespace Field

variable {f : Field} {range text v s : Fragment} {step : Nat} {x : Int}

/-- **A range selects what it is read as.** -/
theorem select_of_rangeWord (h : RangeWord range) : f.select range =
    (fun t => Selection.ofTerms f [t]) <$> Term.readRange f range range none := by
  have htrim : trim range = range := trim_of_bare h.bare
  have hslash : range.splitOn '/' = [range] := List.splitOn_eq_singleton h.slash_not_mem
  rw [select_token h.comma_not_mem, readToken, htrim, if_neg h.ne_nil, Term.read, hslash]

/-- What stands in a step is blank, or can begin a numeral. -/
theorem HasStep.not_mem (h : HasStep s step) {mark : Char} (hblank : isBlank mark = false)
    (hmark : beginsNumeral mark = false) : mark ∉ s := by
  intro hmem
  rw [beginsNumeral_of_mem h.1 (mem_trim_of_mem hblank hmem)] at hmark
  exact Bool.noConfusion hmark

/-- The blanks behind a step are trimmed from the token in which it stands. -/
theorem exists_trim_stepped (hrange : RangeWord range) (hs : HasStep s step) :
    ∃ text, trim (range ++ '/' :: s) = range ++ '/' :: text ∧ HasStep text step := by
  obtain ⟨front, back, hsplit, hfront, hback⟩ := exists_eq_blanks_trim_blanks s
  have hne : trim s ≠ [] := by
    intro hnil
    have hread := hs.1
    rw [hnil] at hread
    exact nomatch hread
  have hbare : Bare (range ++ (('/' :: front) ++ trim s)) :=
    hrange.bare.append (bare_trim s) hrange.ne_nil hne ('/' :: front)
  refine ⟨front ++ trim s, ?_, ?_, hs.2⟩
  · have htoken : range ++ '/' :: s = range ++ (('/' :: front) ++ trim s) ++ back := by
      conv_lhs => rw [hsplit]
      simp
    rw [htoken, trim_append_blanks hback, trim_of_bare hbare, List.cons_append]
  · rw [trim_blanks_append hfront, trim_trim, hs.1]

/-- **A range with a step behind it selects what it is read as with that step.** -/
theorem select_stepped (hrange : RangeWord range) (hs : HasStep s step) :
    ∃ token, f.select (range ++ '/' :: s) =
      (fun t => Selection.ofTerms f [t]) <$> Term.readRange f token range (some step) := by
  have hcomma : ',' ∉ range ++ '/' :: s := by
    simp [hrange.comma_not_mem, hs.not_mem (show isBlank ',' = false from rfl) rfl]
  obtain ⟨text, htrim, htext⟩ := exists_trim_stepped hrange hs
  have hslash : (range ++ '/' :: text).splitOn '/' = [range, text] :=
    splitOn_eq_pair_iff.mpr ⟨rfl, hrange.slash_not_mem, htext.not_mem rfl rfl⟩
  refine ⟨range ++ '/' :: text, ?_⟩
  have hne : range ++ '/' :: text ≠ [] := by simp
  rw [select_token hcomma, readToken, htrim, if_neg hne, Term.read, hslash]
  congr 1
  exact congrArg (· >>= _) (readStep_eq_ok_iff.mpr htext)

/-! ### What the forms select -/

/-- A term that lists one value selects it. -/
theorem ofTerms_of_values_eq_singleton {t : Term} (ht : t ≠ .whole) (h : t.values f = [x]) :
    Selection.ofTerms f [t] = .listed [x] := by
  rw [Selection.ofTerms_singleton, if_neg ht, h, eraseDups_of_nodup (List.nodup_singleton x)]

/-- A value word selects its value. -/
theorem select_value_iff (hv : ValueWord v) {sel : Selection} :
    f.select v = .ok sel ↔ ∃ x, f.HasValue v x ∧ sel = .listed [x] := by
  rw [select_of_valueWord hv, map_eq_ok_iff]
  simp only [readValue_eq_ok_iff, eq_comm (a := sel)]

/-- A value in the bound is a start as it is. -/
theorem HasValue.hasStart (hx : f.HasValue v x) : f.HasStart v x :=
  ⟨x, hx.1, hx.2.2, (max_eq_left hx.2.1).symm⟩

/-- With a step behind it, a value word begins a sequence at its start. -/
theorem select_value_by_iff (hv : ValueWord v) (hs : HasStep s step) {sel : Selection} :
    f.select (v ++ '/' :: s) = .ok sel ↔
      ∃ start, f.HasStart v start ∧ sel = Selection.ofTerms f [.valueBy start step] := by
  obtain ⟨token, hselect⟩ := select_stepped (f := f) hv.rangeWord hs
  rw [hselect, readRange_of_valueWord hv, map_eq_ok_iff]
  simp only [map_eq_ok_iff, readStart_eq_ok_iff]
  constructor
  · rintro ⟨-, ⟨start, hstart, rfl⟩, rfl⟩
    exact ⟨start, hstart, rfl⟩
  · rintro ⟨start, hstart, rfl⟩
    exact ⟨_, ⟨start, hstart, rfl⟩, rfl⟩

/-- **A range from a value to itself selects the value.** -/
theorem select_to_itself (hv : ValueWord v) (hx : f.HasValue v x) :
    f.select (v ++ '-' :: v) = .ok (.listed [x]) := by
  have hrange := hv.dash hv
  rw [select_of_rangeWord hrange, map_eq_ok_iff]
  simp only [readRange_eq_ok_iff, trim_of_bare hrange.bare]
  by_cases hsunday : f.EndsOnSunday v
  · refine ⟨_, .toSunday (hv.rangeEnds hv) hx hsunday, ?_⟩
    obtain ⟨rfl, hseven⟩ := hsunday
    -- a written 7 is day 0, and the range is the Sunday at its end
    apply ofTerms_of_values_eq_singleton (by simp)
    rw [if_pos hseven, hx.eq_zero_of_seven hseven]
    decide
  · refine ⟨_, .range (hv.rangeEnds hv) hx hx hsunday, ?_⟩
    apply ofTerms_of_values_eq_singleton (by simp)
    rw [Option.getD_none, Term.values, if_pos le_rfl, progression_self le_rfl]

/-- `L` has the greatest value. -/
theorem hasValue_last (f : Field) : f.HasValue lastAlias.toList f.hi :=
  ⟨.name (.last (by decide)), f.lo_le_hi, le_rfl⟩

/-- **A stepped range from a value to the last one begins a sequence at the value.** -/
theorem select_to_last (hv : ValueWord v) (hs : HasStep s step) (hx : f.HasValue v x) :
    f.select (v ++ '-' :: lastAlias.toList ++ '/' :: s) =
      .ok (Selection.ofTerms f [.valueBy x step]) := by
  have hlast : ValueWord lastAlias.toList := valueWord_of_names (f := f) (.last (by decide))
  have hrange := hv.dash hlast
  obtain ⟨token, hselect⟩ := select_stepped (f := f) hrange hs
  rw [hselect, map_eq_ok_iff]
  simp only [readRange_eq_ok_iff, trim_of_bare hrange.bare]
  have hsunday : ¬f.EndsOnSunday lastAlias.toList := by
    rintro ⟨-, hseven⟩
    exact absurd hseven (by decide)
  refine ⟨_, .range (hv.rangeEnds hlast) hx f.hasValue_last hsunday, ?_⟩
  apply Selection.ofTerms_singleton_congr (by simp) (by simp)
  simp only [Term.values, if_pos hx.2.2, Option.getD_some]

/-- A wildcard with a step begins a sequence at the least value. -/
theorem select_wildcard_by (hwild : IsWildcard text) (hs : HasStep s step) :
    f.select (text ++ '/' :: s) = .ok (Selection.ofTerms f [.wholeBy step]) := by
  have hrange := rangeWord_of_isWildcard hwild
  obtain ⟨token, hselect⟩ := select_stepped (f := f) hrange hs
  rw [hselect, map_eq_ok_iff]
  simp only [readRange_eq_ok_iff, trim_of_bare hrange.bare]
  exact ⟨_, .wholeBy hwild, rfl⟩

/-- A sequence that begins at the least value is that of a wildcard. -/
theorem ofTerms_valueBy_lo (f : Field) (step : Nat) :
    Selection.ofTerms f [.valueBy f.lo step] = Selection.ofTerms f [.wholeBy step] :=
  Selection.ofTerms_singleton_congr (by simp) (by simp) rfl

/-! ### Numbers past the greatest value -/

/-- A number past the greatest value is refused as a value and as a start, for the same cause. -/
theorem resolve_past_hi {raw : Int} (hsign : 0 ≤ raw) (hpast : f.hi < f.fold raw) :
    f.resolveValue raw = .error (.outOfRange f (f.fold raw)) ∧
      f.resolveStart raw = .error (.outOfRange f (f.fold raw)) := by
  have hnonneg : ¬raw < 0 := by omega
  constructor
  · simp only [resolveValue, if_neg hnonneg, checkValue, if_pos (Or.inr hpast)]
  · simp only [resolveStart, if_neg hnonneg, if_pos hpast]

/-- Only a literal that is not negative denotes such a number. -/
theorem exists_raw_of_denotes_past_hi (hx : f.Denotes v x) (hpast : f.hi < x) :
    ∃ raw, readInteger? v = some raw ∧ 0 ≤ raw ∧ x = f.fold raw := by
  cases hx with
  | literal hraw hsign => exact ⟨_, hraw, hsign, rfl⟩
  | fromLast hraw hsign => omega
  | name hname =>
    have hbounds := bounds_of_names hname
    omega

/-- **A word that denotes a number past the greatest value is refused for that number**, with and
without a step behind it. -/
theorem select_of_denotes_past_hi (hv : ValueWord v) (hs : HasStep s step) (hx : f.Denotes v x)
    (hpast : f.hi < x) : f.select v = .error (.outOfRange f x) ∧
      f.select (v ++ '/' :: s) = .error (.outOfRange f x) := by
  obtain ⟨raw, hraw, hsign, rfl⟩ := exists_raw_of_denotes_past_hi hx hpast
  obtain ⟨hvalue, hstart⟩ := resolve_past_hi hsign hpast
  obtain ⟨token, hselect⟩ := select_stepped (f := f) hv.rangeWord hs
  constructor
  · rw [select_of_readInteger? hv hraw, hvalue]
    rfl
  · have hread : f.readStart token v = .error (.outOfRange f (f.fold raw)) := by
      simp only [readStart, trim_of_bare hv.bare, if_neg hv.ne_nil, hraw, hstart]
    rw [hselect, readRange_of_valueWord hv, hread]
    rfl

/-! ### Shorthands -/

/-- **Shorthands select what their long forms do.** Let a word be written as a value, and a step of
at least one stand behind the slashes.

* A value that is accepted alone is the range from it to itself, and with the step it is the stepped
  range from it to the last value.
* A value that is refused alone but accepted with the step begins where a wildcard does.
* A number past the greatest value is refused for that number, with and without the step.
* Either wildcard, the least value, and the range from it to the last value are the same with the
  step. -/
theorem select_shorthands (f : Field) {v s : Fragment} {step : Nat} (hv : IsValueText v)
    (hs : HasStep s step) :
    (∀ sel, f.select v = .ok sel →
      f.select (v ++ '-' :: v) = .ok sel ∧
        ∃ stepped, f.select (v ++ '/' :: s) = .ok stepped ∧
          f.select (v ++ '-' :: lastAlias.toList ++ '/' :: s) = .ok stepped) ∧
    (∀ cause stepped, f.select v = .error cause → f.select (v ++ '/' :: s) = .ok stepped →
      f.select ('*' :: '/' :: s) = .ok stepped) ∧
    (∀ x, f.Denotes v x → f.hi < x →
      f.select v = .error (.outOfRange f x) ∧
        f.select (v ++ '/' :: s) = .error (.outOfRange f x)) ∧
    ∃ stepped, f.select ('*' :: '/' :: s) = .ok stepped ∧
      f.select ('?' :: '/' :: s) = .ok stepped ∧
      f.select (numeral f.lo ++ '/' :: s) = .ok stepped ∧
      f.select (numeral f.lo ++ '-' :: lastAlias.toList ++ '/' :: s) = .ok stepped := by
  have hword := hv.valueWord
  refine ⟨?_, ?_, fun x => select_of_denotes_past_hi hword hs, ?_⟩
  · intro sel hsel
    obtain ⟨x, hx, rfl⟩ := (select_value_iff hword).mp hsel
    refine ⟨select_to_itself hword hx, _, ?_, select_to_last hword hs hx⟩
    exact (select_value_by_iff hword hs).mpr ⟨x, hx.hasStart, rfl⟩
  · intro cause stepped hcause hstepped
    obtain ⟨start, ⟨x, hx, hhi, rfl⟩, rfl⟩ := (select_value_by_iff hword hs).mp hstepped
    -- the number is below the bound, or the word would be accepted alone
    have hlow : ¬f.lo ≤ x := by
      intro hlo
      rw [(select_value_iff hword).mpr ⟨x, ⟨hx, hlo, hhi⟩, rfl⟩] at hcause
      exact nomatch hcause
    rw [max_eq_right (by omega), ofTerms_valueBy_lo]
    exact select_wildcard_by (.inl rfl) hs
  · have hbounds : f.lo ≤ f.lo ∧ f.lo ≤ f.hi := ⟨le_rfl, f.lo_le_hi⟩
    have hlo : ValueWord (numeral f.lo) :=
      valueWord_of_readInteger? (readInteger?_numeral (word_bounds hbounds))
    have hvalue : f.HasValue (numeral f.lo) f.lo := hasValue_numeral hbounds
    refine ⟨_, select_wildcard_by (.inl rfl) hs, select_wildcard_by (.inr rfl) hs, ?_, ?_⟩
    · exact (select_value_by_iff hlo hs).mpr
        ⟨f.lo, hvalue.hasStart, (ofTerms_valueBy_lo f step).symm⟩
    · rw [select_to_last hlo hs hvalue, ofTerms_valueBy_lo]

/-- A Sunday that is written 7, as a range and with a step; a day of the month below the least one,
refused alone; and a month past the last one. -/
theorem select_shorthands_of_sunday :
    (dayOfWeek.select "7-7".toList = .ok (.listed [0]) ∧
      ∃ stepped, dayOfWeek.select "7/ 2".toList = .ok stepped ∧
        dayOfWeek.select "7-L/ 2".toList = .ok stepped) ∧
    (dayOfMonth.select "0".toList = .error (.outOfRange .dayOfMonth 0) ∧
      dayOfMonth.select "*/10".toList = .ok (.listed [1, 11, 21, 31])) ∧
    (month.select "13".toList = .error (.outOfRange .month 13) ∧
      month.select "13/+2".toList = .error (.outOfRange .month 13)) ∧
    ∃ stepped, month.select "?/+2".toList = .ok stepped ∧
      month.select "1-L/+2".toList = .ok stepped := by
  have hsunday : dayOfWeek.select "7".toList = .ok (.listed [0]) := by decide +kernel
  have hzero : dayOfMonth.select "0".toList = .error (.outOfRange .dayOfMonth 0) := by
    decide +kernel
  have hraised : dayOfMonth.select "0/10".toList = .ok (.listed [1, 11, 21, 31]) := by
    decide +kernel
  have hpast_read : readInteger? "13".toList = some 13 := by decide
  have hpast : month.Denotes "13".toList 13 := .literal hpast_read (by decide)
  have hstep : HasStep "+2".toList 2 := ⟨by decide, by decide⟩
  have hblank_step : HasStep " 2".toList 2 := ⟨by decide, by decide⟩
  have hten : HasStep "10".toList 10 := ⟨by decide, by decide⟩
  have hthirteen := (select_shorthands .month (.inl ⟨13, hpast_read⟩) hstep).2.2
  obtain ⟨stepped, -, hquestion, -, hlast⟩ := hthirteen.2
  refine ⟨?_, ⟨hzero, ?_⟩, ?_, stepped, hquestion, hlast⟩
  · exact (select_shorthands .dayOfWeek (.inl ⟨7, by decide⟩) hblank_step).1 _ hsunday
  · exact (select_shorthands .dayOfMonth (.inl ⟨0, by decide⟩) hten).2.1 _ _ hzero hraised
  · exact hthirteen.1 13 hpast (by decide)

end Field

end CronSchedule
