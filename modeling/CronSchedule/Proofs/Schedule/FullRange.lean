import CronSchedule.Calendar.Instant
import CronSchedule.Proofs.Schedule.Replacement
import CronSchedule.Proofs.ValueSet.Fitting

/-!
# A wildcard and the whole range

* `Field.SpellsOut f text` — a text that lists the values of a field from the least to the greatest:
  a wildcard by single steps, or the range between the two.

A wildcard and such a text are compiled to different sets, which differ outside of the bound of the
field, and for the rule that one day is enough. Neither shows at an instant: its numbers lie in
their bounds (`ValueSet.firesAt_of_admits_bound`), and that rule looks at the fields of the day
alone.

Main statement: **a wildcard may be spelled out** in the fields of the time of day and in the month,
and where both fields of the day must admit it, in these too (`WrittenField.fires_of_spelledOut`).
-/

namespace CronSchedule

namespace Field

variable {f : Field} {word text : Fragment}

/-- A text that lists the values of a field from the least to the greatest. -/
inductive SpellsOut (f : Field) : Fragment → Prop
  | byOne : SpellsOut f "*/1".toList
  | ends : SpellsOut f (numeral f.lo ++ '-' :: numeral f.hi)

/-- It is written with the marks of a stepped wildcard, digits and a dash. -/
theorem SpellsOut.mem_cases (h : f.SpellsOut text) {c : Char} (hc : c ∈ text) :
    c = '*' ∨ c = '/' ∨ beginsNumeral c = true := by
  cases h with
  | byOne =>
    rcases List.mem_cons.mp hc with rfl | hc
    · exact .inl rfl
    · rcases List.mem_cons.mp hc with rfl | hc
      · exact .inr (.inl rfl)
      · rw [List.mem_singleton.mp hc]
        exact .inr (.inr (by decide))
  | ends =>
    have hnumeral {v : Int} (hv : f.lo ≤ v ∧ v ≤ f.hi) (hmem : c ∈ numeral v) :
        beginsNumeral c = true :=
      beginsNumeral_of_mem (readInteger?_numeral (word_bounds hv)) hmem
    rw [List.mem_append, List.mem_cons] at hc
    rcases hc with hc | rfl | hc
    · exact .inr (.inr (hnumeral ⟨le_rfl, f.lo_le_hi⟩ hc))
    · exact .inr (.inr rfl)
    · exact .inr (.inr (hnumeral ⟨f.lo_le_hi, le_rfl⟩ hc))

/-- It is one token. -/
theorem SpellsOut.comma_not_mem (h : f.SpellsOut text) : ',' ∉ text := by
  intro hcomma
  have hmarks := h.mem_cases hcomma
  revert hmarks
  decide

/-- There is no blank in it. -/
theorem SpellsOut.not_blank (h : f.SpellsOut text) : ∀ c ∈ text, isBlank c = false := by
  intro c hc
  rcases h.mem_cases hc with rfl | rfl | hnumeral
  · rfl
  · rfl
  · exact isBlank_of_beginsNumeral hnumeral

/-! ### What is selected -/

/-- A wildcard selects the whole field. -/
theorem select_wildcard (h : IsWildcard text) : f.select text = .ok .whole := by
  have hrange := rangeWord_of_isWildcard h
  rw [select_of_rangeWord hrange, map_eq_ok_iff]
  simp only [readRange_eq_ok_iff, trim_of_bare hrange.bare]
  exact ⟨_, .whole h, rfl⟩

/-- The numeral of a value in the bound can stand as a value. -/
theorem valueWord_numeral {v : Int} (h : f.lo ≤ v ∧ v ≤ f.hi) : ValueWord (numeral v) :=
  valueWord_of_readInteger? (readInteger?_numeral (word_bounds h))

/-- **A text that spells a field out selects all of its values.** -/
theorem select_of_spellsOut (h : f.SpellsOut text) :
    f.select text = .ok (.listed (progression f.lo 1 f.hi).eraseDups) := by
  cases h with
  | byOne =>
    have hstep : HasStep ['1'] 1 := ⟨by decide, le_rfl⟩
    rw [show "*/1".toList = ['*'] ++ '/' :: ['1'] from rfl, select_wildcard_by (.inl rfl) hstep,
      Selection.ofTerms_singleton, if_neg (by simp), Term.values]
  | ends =>
    have hlo : f.lo ≤ f.lo ∧ f.lo ≤ f.hi := ⟨le_rfl, f.lo_le_hi⟩
    have hhi : f.lo ≤ f.hi ∧ f.hi ≤ f.hi := ⟨f.lo_le_hi, le_rfl⟩
    have hrange := (valueWord_numeral hlo).dash (valueWord_numeral hhi)
    have hsunday : ¬f.EndsOnSunday (numeral f.hi) := by
      rintro ⟨rfl, hseven⟩
      exact absurd hseven (by decide)
    rw [select_of_rangeWord hrange, map_eq_ok_iff]
    simp only [readRange_eq_ok_iff, trim_of_bare hrange.bare]
    refine ⟨_, .range ((valueWord_numeral hlo).rangeEnds (valueWord_numeral hhi))
      (hasValue_numeral hlo) (hasValue_numeral hhi) hsunday, ?_⟩
    rw [Selection.ofTerms_singleton, if_neg (by simp), Term.values, if_pos f.lo_le_hi,
      Option.getD_none]

/-- **A wildcard among the tokens of a field selects the whole field, and spelled out it selects all
values in the bound.** -/
theorem select_spelledOut {front back : List Fragment} {wild full : Fragment}
    (hword : Pieces ',' word (front ++ wild :: back)) (hwild : IsWildcard wild)
    (hfull : f.SpellsOut full) {s : Selection} (hs : f.select word = .ok s) :
    s = .whole ∧ ∃ t, f.select ([','].intercalate (front ++ full :: back)) = .ok t ∧
      ∀ v, f.lo ≤ v ∧ v ≤ f.hi → t.Admits v := by
  have hselect := select_of_spellsOut hfull
  have hother := hword.replace hfull.comma_not_mem
  have haccepted := (exists_select_iff hword).mp ⟨s, hs⟩
  rw [List.forall_mem_append, List.forall_mem_cons] at haccepted
  constructor
  · obtain ⟨selections, hselections, hunites⟩ := (select_eq_ok_iff_unites hword).mp hs
    obtain ⟨before, w, after, rfl, -, hw, -⟩ := forall₂_append_cons_iff.mp hselections
    rw [select_wildcard hwild] at hw
    cases hw
    exact hunites.eq_whole_iff.mpr (by simp)
  · obtain ⟨t, ht⟩ := (exists_select_iff hother).mpr (List.forall_mem_append.mpr
      ⟨haccepted.1, List.forall_mem_cons.mpr ⟨⟨_, hselect⟩, haccepted.2.2⟩⟩)
    obtain ⟨selections, hselections, hunites⟩ := (select_eq_ok_iff_unites hother).mp ht
    obtain ⟨before, w, after, rfl, -, hw, -⟩ := forall₂_append_cons_iff.mp hselections
    rw [hselect] at hw
    cases hw
    refine ⟨t, ht, fun v hv => hunites.admits_iff.mpr
      ⟨_, List.mem_append_right _ List.mem_cons_self, ?_⟩⟩
    exact List.mem_eraseDups.mpr (ValueSet.mem_toList_every_iff.mpr hv)

/-- Spelled out, a word without blanks has none. -/
theorem not_blank_spelledOut {front back : List Fragment} {wild full : Fragment}
    (hword : Pieces ',' word (front ++ wild :: back)) (hblank : ∀ c ∈ word, isBlank c = false)
    (hfull : f.SpellsOut full) :
    ∀ c ∈ [','].intercalate (front ++ full :: back), isBlank c = false := by
  intro c hc
  rcases mem_of_mem_intercalate hc with rfl | ⟨token, htoken, hmem⟩
  · rfl
  · rw [List.mem_append, List.mem_cons] at htoken
    rcases htoken with htoken | rfl | htoken
    · exact hblank c (hword.mem_of_mem (List.mem_append_left _ htoken) hmem)
    · exact hfull.not_blank c hmem
    · exact hblank c (hword.mem_of_mem
        (List.mem_append_right _ (List.mem_cons_of_mem _ htoken)) hmem)

end Field

/-! ### What is admitted at an instant -/

/-- A field of an instant is admitted where all values in its bound are. -/
theorem ValueSet.firesAt_of_admits_bound {f : Field} (hf : f ≠ .year) {s : Selection}
    (hs : s.InBound f) (hall : ∀ v, f.lo ≤ v ∧ v ≤ f.hi → s.Admits v) (moment : Instant) :
    (ofSelection f s).firesAt f moment.fields = true := by
  have hbounds := moment.fields_bounds hf
  have hreach : f.WithinReach (moment.fields.get f) := Field.withinReach_of_bounds hbounds
  unfold firesAt
  split
  · next hday =>
    subst hday
    exact (containsDay_ofSelection_iff hs hreach).mpr (.inl (hall _ hbounds))
  · exact (contains_ofSelection_iff hs fun _ => hreach).mpr (hall _ hbounds)

/-! ### Texts with a wildcard spelled out -/

/-- **A wildcard may be spelled out.** Let a word be written in an accepted text for a field of the
time of day or the month, or under `all` for a field of the day, and let one of its tokens be a
wildcard. With that token by single steps, or as the range from the least value to the greatest, the
text is accepted, and it fires at the same instants. -/
theorem WrittenField.fires_of_spelledOut {mode : DayMatch} {text : Fragment} {s : Schedule}
    (h : Schedule.parse mode text = .ok s) {f : Field} {word : Fragment}
    (place : WrittenField text f word) {front back : List Fragment} {wild full : Fragment}
    (hword : Pieces ',' word (front ++ wild :: back)) (hwild : Field.IsWildcard wild)
    (hfull : f.SpellsOut full)
    (hf : f ∈ [.second, .minute, .hour, .month] ∨ mode = .all ∧ f ∈ Field.days) :
    ∃ t, Schedule.parse mode (place.replace ([','].intercalate (front ++ full :: back))) = .ok t ∧
      ∀ (moment : Instant) (bySecond : Bool),
        t.fires moment.fields bySecond = s.fires moment.fields bySecond := by
  obtain ⟨patterns, others, row, hpatterns, hrow, hreplace⟩ := place.parse_replace h
  obtain ⟨hwhole, selection, hselection, hall⟩ := Field.select_spelledOut hword hwild hfull hrow
  obtain ⟨t, ht, ht_patterns⟩ := hreplace
    (Field.not_blank_spelledOut hword place.not_blank hfull) hselection
  have hyear : f ≠ .year := by
    rintro rfl
    rcases hf with hf | ⟨-, hf⟩
    · exact absurd hf (by decide)
    · exact absurd hf (by decide)
  have hdays (heither : mode = .either) : f ∉ Field.days := by
    rcases hf with hf | ⟨rfl, -⟩
    · revert hf
      cases f <;> decide
    · exact nomatch heither
  refine ⟨t, ht, fun moment bySecond => ?_⟩
  rw [Bool.eq_iff_iff]
  constructor
  · refine Schedule.fires_of_patterns ht_patterns hpatterns (Pattern.fires_of_row (f := f) ?_ ?_ ?_)
    · exact fun g hg => PerField.get_set_of_ne hg
    · rw [hwhole]
      exact fun _ => ValueSet.firesAt_whole f _
    · exact fun heither hday => absurd hday (hdays heither)
  · refine Schedule.fires_of_patterns hpatterns ht_patterns (Pattern.fires_of_row (f := f) ?_ ?_ ?_)
    · exact fun g hg => (PerField.get_set_of_ne hg).symm
    · rw [PerField.get_set_self]
      exact fun _ => ValueSet.firesAt_of_admits_bound hyear (Field.inBound_of_select hselection)
        hall moment
    · exact fun heither hday => absurd hday (hdays heither)

/-- Any day of the month in the second of two alternatives, beside a thirteenth. -/
def anyDay : WrittenField "30 9 * * 1|15 0 ?,13 * 5".toList .dayOfMonth "?,13".toList where
  before := ["30 9 * * 1".toList]
  front := "15 0 ".toList
  back := " * 5".toList
  after := []
  pieces := pieces_iff.mpr (by decide +kernel)
  blank_front c hc := by
    cases hc
    rfl
  blank_back c hc := by
    cases hc
    rfl
  ne_nil := by decide
  not_blank := not_blank_of_any (by decide)
  index := by decide +kernel

/-- Under `all`, any day is the days from the first to the 31st. Under `either` it is not: beside
those days, Friday is one of two restrictions, and one is enough on a Thursday. -/
theorem fires_of_spelledOut_any_day :
    (∃ s t, Schedule.parse .all "30 9 * * 1|15 0 ?,13 * 5".toList = .ok s ∧
      Schedule.parse .all "30 9 * * 1|15 0 1-31,13 * 5".toList = .ok t ∧
      ∀ (moment : Instant) (bySecond : Bool),
        t.fires moment.fields bySecond = s.fires moment.fields bySecond) ∧
    ∃ s t, Schedule.parse .either "30 9 * * 1|15 0 ?,13 * 5".toList = .ok s ∧
      Schedule.parse .either "30 9 * * 1|15 0 1-31,13 * 5".toList = .ok t ∧
      s.fires ⟨0, 15, 0, 13, 2, 4, 2025⟩ true = false ∧
      t.fires ⟨0, 15, 0, 13, 2, 4, 2025⟩ true = true := by
  let monday : PerField Selection :=
    ⟨.listed [0], .listed [30], .listed [9], .whole, .whole, .listed [1], .whole⟩
  let friday (days : Selection) : PerField Selection :=
    ⟨.listed [0], .listed [15], .listed [0], days, .whole, .listed [5], .whole⟩
  have hpieces : Pieces ',' "?,13".toList ([] ++ "?".toList :: ["13".toList]) :=
    pieces_iff.mpr (by decide +kernel)
  have hparse (mode : DayMatch) : Schedule.parse mode "30 9 * * 1|15 0 ?,13 * 5".toList =
      .ok ⟨"30 9 * * 1|15 0 ?,13 * 5".toList,
        [.ofSelections mode monday, .ofSelections mode (friday .whole)]⟩ := by
    cases mode with
    | all => decide +kernel
    | either => decide +kernel
  have hother : Schedule.parse .either "30 9 * * 1|15 0 1-31,13 * 5".toList =
      .ok ⟨"30 9 * * 1|15 0 1-31,13 * 5".toList, [.ofSelections .either monday,
        .ofSelections .either (friday (.listed (progression 1 1 31)))]⟩ := by
    decide +kernel
  obtain ⟨t, ht, hsame⟩ := anyDay.fires_of_spelledOut (hparse .all) hpieces (.inr rfl) .ends
    (.inr ⟨rfl, by decide⟩)
  refine ⟨⟨_, t, hparse .all, ht, hsame⟩, _, _, hparse .either, hother, ?_, ?_⟩
  · decide +kernel
  · decide +kernel

end CronSchedule
