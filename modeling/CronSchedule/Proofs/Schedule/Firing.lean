import CronSchedule.Proofs.Schedule.Parsing

/-!
# When a schedule fires

The instants that an expression means, said from what its fields select, and the proof that the
compiled schedule admits just those.

* `Selection.AdmitsMonthDay` — whether a selection admits the day of the month: as it is, or as the
  31st where it is the last of its month.
* `AdmitsDay mode row time` — the two day fields together, under a mode.
* `Means mode row time bySecond` — the instants that an alternative means, whose fields select the
  members of `row`.

Main statements: the pattern of selections in bound fires where those selections mean it
(`Pattern.fires_ofSelections_iff`); **a schedule fires exactly when one of the alternatives of its
text means the instant** (`Schedule.fires_iff_exists_piece`).
-/

namespace CronSchedule

/-! ### The instants that an alternative means -/

/-- Whether a selection of days admits the day of an instant: that day, or the 31st on the last day
of the month. -/
def Selection.AdmitsMonthDay (s : Selection) (time : TimeFields) : Prop :=
  s.Admits time.dayOfMonth ∨ (s.Admits 31 ∧ time.dayOfMonth = daysInMonth time.year time.month)

/-- Whether selections of days of the month and of the week admit the day of an instant. Where both
are restricted and one is enough, one is enough; everywhere else both must admit it. -/
def AdmitsDay (mode : DayMatch) (row : PerField Selection) (time : TimeFields) : Prop :=
  if mode = .either ∧ row.dayOfMonth ≠ .whole ∧ row.dayOfWeek ≠ .whole then
    row.dayOfMonth.AdmitsMonthDay time ∨ row.dayOfWeek.Admits time.dayOfWeek
  else row.dayOfMonth.AdmitsMonthDay time ∧ row.dayOfWeek.Admits time.dayOfWeek

/-- The instants that an alternative means, whose fields select the members of a row. -/
structure Means (mode : DayMatch) (row : PerField Selection) (time : TimeFields)
    (bySecond : Bool) : Prop where
  /-- The second counts only where it is asked for. -/
  second : bySecond = true → row.second.Admits time.second
  minute : row.minute.Admits time.minute
  hour : row.hour.Admits time.hour
  month : row.month.Admits time.month
  year : row.year.Admits time.year
  day : AdmitsDay mode row time

/-! ### Patterns -/

namespace Pattern

variable {mode : DayMatch} {row : PerField Selection} {time : TimeFields}

/-- Both day fields of a pattern are restricted when neither selection is the whole field. -/
theorem bothDaysRestricted_ofSelections :
    (ofSelections mode row).bothDaysRestricted = true ↔
      row.dayOfMonth ≠ .whole ∧ row.dayOfWeek ≠ .whole := by
  have hdayOfMonth : (ofSelections mode row).sets.dayOfMonth = .every ↔ row.dayOfMonth = .whole :=
    ValueSet.ofSelection_eq_every_iff (f := .dayOfMonth)
  have hdayOfWeek : (ofSelections mode row).sets.dayOfWeek = .every ↔ row.dayOfWeek = .whole :=
    ValueSet.ofSelection_eq_every_iff (f := .dayOfWeek)
  rw [bothDaysRestricted, Bool.and_eq_true, Bool.not_eq_true', Bool.not_eq_true',
    ← Bool.not_eq_true, ← Bool.not_eq_true, ValueSet.isEvery_iff, ValueSet.isEvery_iff,
    hdayOfMonth, hdayOfWeek]

/-- The pattern of selections in bound admits a day exactly when the selections do. -/
theorem dayFires_ofSelections_iff (hrow : ∀ f, (row.get f).InBound f)
    (htime : ∀ f, f ≠ Field.year → f.WithinReach (time.get f)) :
    (ofSelections mode row).dayFires time = true ↔ AdmitsDay mode row time := by
  have hmonthDay : (ofSelections mode row).monthDayFires time = true ↔
      row.dayOfMonth.AdmitsMonthDay time :=
    containsDay_ofSelection_iff (hrow .dayOfMonth) (htime .dayOfMonth (by decide))
  have hweekday : (ofSelections mode row).weekdayFires time = true ↔
      row.dayOfWeek.Admits time.dayOfWeek :=
    contains_ofSelection_iff (hrow .dayOfWeek) (htime .dayOfWeek)
  have hcond : ((ofSelections mode row).dayMatch = .either ∧
      (ofSelections mode row).bothDaysRestricted = true) ↔
      mode = .either ∧ row.dayOfMonth ≠ .whole ∧ row.dayOfWeek ≠ .whole :=
    and_congr_right' bothDaysRestricted_ofSelections
  rw [dayFires, AdmitsDay]
  by_cases hmode : mode = .either ∧ row.dayOfMonth ≠ .whole ∧ row.dayOfWeek ≠ .whole
  · rw [if_pos hmode, if_pos (hcond.mpr hmode), Bool.or_eq_true, hmonthDay, hweekday]
  · rw [if_neg hmode, if_neg (mt hcond.mp hmode), Bool.and_eq_true, hmonthDay, hweekday]

/-- **The pattern of selections in bound fires where those selections mean it.** -/
theorem fires_ofSelections_iff (hrow : ∀ f, (row.get f).InBound f)
    (htime : ∀ f, f ≠ Field.year → f.WithinReach (time.get f)) {bySecond : Bool} :
    (ofSelections mode row).fires time bySecond = true ↔ Means mode row time bySecond := by
  have hfield : ∀ f, ((ofSelections mode row).sets.get f).contains (time.get f) = true ↔
      (row.get f).Admits (time.get f) := by
    intro f
    rw [ofSelections, PerField.get_ofFn]
    exact contains_ofSelection_iff (hrow f) (htime f)
  have hsecond : (!bySecond || (ofSelections mode row).sets.second.contains time.second) = true ↔
      (bySecond = true → row.second.Admits time.second) := by
    rw [Bool.or_eq_true, Bool.not_eq_true', ← Bool.not_eq_true, ← imp_iff_not_or]
    exact imp_congr_right fun _ => hfield .second
  have hday : (ofSelections mode row).dayFires time = true ↔ AdmitsDay mode row time :=
    dayFires_ofSelections_iff hrow htime
  simp only [fires, Bool.and_eq_true, hsecond, hday]
  constructor
  · rintro ⟨⟨⟨⟨⟨hs, hmin⟩, hh⟩, hmon⟩, hy⟩, hd⟩
    exact ⟨hs, (hfield .minute).mp hmin, (hfield .hour).mp hh, (hfield .month).mp hmon,
      (hfield .year).mp hy, hd⟩
  · rintro ⟨hs, hmin, hh, hmon, hy, hd⟩
    exact ⟨⟨⟨⟨⟨hs, (hfield .minute).mpr hmin⟩, (hfield .hour).mpr hh⟩, (hfield .month).mpr hmon⟩,
      (hfield .year).mpr hy⟩, hd⟩

/-- An alternative is parsed to a pattern that fires exactly when its fields are selected and what
they select means the instant. -/
theorem exists_parse_fires_iff {piece : Fragment}
    (htime : ∀ f, f ≠ Field.year → f.WithinReach (time.get f)) {bySecond : Bool} :
    (∃ p, Pattern.parse mode piece = .ok p ∧ p.fires time bySecond = true) ↔
      ∃ (row : PerField Fragment) (selections : PerField Selection),
        row.toList = paddedWords (words piece) ∧
        (∀ f : Field, f.select (row.get f) = .ok (selections.get f)) ∧
        Means mode selections time bySecond := by
  have hfires : ∀ (row : PerField Fragment) (selections : PerField Selection),
      (∀ f : Field, f.select (row.get f) = .ok (selections.get f)) →
      ((ofSelections mode selections).fires time bySecond = true ↔
        Means mode selections time bySecond) := by
    intro row selections hselections
    apply fires_ofSelections_iff _ htime
    exact fun f => Field.inBound_of_select (hselections f)
  simp only [Pattern.parse_eq_ok_iff]
  constructor
  · rintro ⟨p, ⟨row, selections, hrow, hselections, rfl⟩, h⟩
    exact ⟨row, selections, hrow, hselections, (hfires row selections hselections).mp h⟩
  · rintro ⟨row, selections, hrow, hselections, h⟩
    exact ⟨_, ⟨row, selections, hrow, hselections, rfl⟩,
      (hfires row selections hselections).mpr h⟩

end Pattern

/-! ### Schedules -/

namespace Schedule

/-- **A schedule fires exactly when one of the alternatives of its text means the instant.** The
text is cut at the bars, the defaults of each alternative are written out, and each of its seven
fields is selected; the instant may be any seven numbers whose distances fit in a word. -/
theorem fires_iff_exists_piece {mode : DayMatch} {text : Fragment} {s : Schedule}
    (h : parse mode text = .ok s) {time : TimeFields}
    (htime : ∀ f, f ≠ Field.year → f.WithinReach (time.get f)) (bySecond : Bool) :
    s.fires time bySecond = true ↔
      ∃ pieces, Pieces '|' (trim text) pieces ∧ ∃ piece ∈ pieces,
        ∃ (row : PerField Fragment) (selections : PerField Selection),
          row.toList = paddedWords (words piece) ∧
          (∀ f : Field, f.select (row.get f) = .ok (selections.get f)) ∧
          Means mode selections time bySecond := by
  obtain ⟨-, pieces, hpieces, hall⟩ := parse_eq_ok_iff.mp h
  rw [fires, List.any_eq_true, exists_mem_iff_of_forall₂ hall]
  simp only [Pattern.exists_parse_fires_iff htime]
  constructor
  · exact fun hexists => ⟨pieces, hpieces, hexists⟩
  · rintro ⟨others, hothers, hexists⟩
    rwa [← pieces_iff.mp hpieces, pieces_iff.mp hothers]

/-- An alternative for the 31st or a Monday fires at noon of the last day of a February, a Thursday,
and what it means is the reason. -/
theorem fires_at_end_of_february :
    ∃ s, parse .either " 0 12 31 * MON | */20 22-2 ? * 5-7".toList = .ok s ∧
      s.fires ⟨0, 0, 12, 29, 2, 4, 2024⟩ true = true ∧
      ∃ pieces, Pieces '|' (trim " 0 12 31 * MON | */20 22-2 ? * 5-7".toList) pieces ∧
        ∃ piece ∈ pieces, ∃ (row : PerField Fragment) (selections : PerField Selection),
          row.toList = paddedWords (words piece) ∧
          (∀ f : Field, f.select (row.get f) = .ok (selections.get f)) ∧
          Means .either selections ⟨0, 0, 12, 29, 2, 4, 2024⟩ true := by
  have htime : ∀ f, f ≠ Field.year →
      f.WithinReach ((⟨0, 0, 12, 29, 2, 4, 2024⟩ : TimeFields).get f) := by
    rw [Field.forall_iff]
    simp [Field.WithinReach, Field.lo, PerField.get]
  obtain ⟨s, hparse, hfires⟩ :
      ∃ s, parse .either " 0 12 31 * MON | */20 22-2 ? * 5-7".toList = .ok s ∧
        s.fires ⟨0, 0, 12, 29, 2, 4, 2024⟩ true = true := by
    refine ⟨⟨"0 12 31 * MON | */20 22-2 ? * 5-7".toList, [
      .ofSelections .either ⟨.listed [0], .listed [0], .listed [12], .listed [31], .whole,
        .listed [1], .whole⟩,
      .ofSelections .either ⟨.listed [0], .listed [0, 20, 40], .listed [22, 23, 0, 1, 2], .whole,
        .whole, .listed [5, 6, 0], .whole⟩]⟩, ?_, ?_⟩
    · decide +kernel
    · decide +kernel
  exact ⟨s, hparse, hfires, (fires_iff_exists_piece hparse htime true).mp hfires⟩

end Schedule

end CronSchedule
