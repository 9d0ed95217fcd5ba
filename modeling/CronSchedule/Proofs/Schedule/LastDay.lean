import CronSchedule.Proofs.Calendar.NextDay
import CronSchedule.Proofs.Field.Aliases
import CronSchedule.Proofs.Schedule.Firing
import CronSchedule.Proofs.ValueSet.Fitting

/-!
# The last day of the month

* `OnlyLastDay row` — the words of an alternative whose day of the month is `L`, and in which
  nothing else is restricted.

Such an alternative admits an instant on the last day of its month, be it the 31st or an earlier
one (`Pattern.fires_lastDay_iff`); and on that day any days with the 31st among them contain it
(`ValueSet.Fits.containsDay_last`). That the day is the last one is said by the day after.

Main statement: **`L` fires just on the days before another month, in every year**
(`fires_just_before_another_month`).
-/

namespace CronSchedule

/-- The words of an alternative with `L` as its day of the month and no other restriction. -/
structure OnlyLastDay (row : PerField Fragment) : Prop where
  dayOfMonth : sameIgnoringCase row.dayOfMonth Field.lastAlias.toList = true
  others : ∀ f, f ≠ Field.dayOfMonth → f.select (row.get f) = .ok .whole

/-- The numbers of an instant are within reach of their fields. -/
theorem Instant.withinReach (t : Instant) {f : Field} (h : f ≠ .year) :
    f.WithinReach (t.fields.get f) :=
  Field.withinReach_of_bounds (t.fields_bounds h)

/-- The selections of an alternative with `L` as its day of the month. -/
def lastDaySelections : PerField Selection :=
  ⟨.whole, .whole, .whole, .listed [31], .whole, .whole, .whole⟩

/-- An alternative with `L` as its day of the month is parsed to the pattern of the 31st. -/
theorem OnlyLastDay.parse {row : PerField Fragment} (h : OnlyLastDay row) {alternative : Fragment}
    (hrow : row.toList = paddedWords (words alternative)) (mode : DayMatch) :
    Pattern.parse mode alternative = .ok (.ofSelections mode lastDaySelections) := by
  refine Pattern.parse_eq_ok_iff.mpr ⟨row, lastDaySelections, hrow, ?_, rfl⟩
  intro f
  cases f with
  | dayOfMonth => exact Field.select_of_names (.last h.dayOfMonth)
  | _ => exact h.others _ (by decide)

/-- **Its pattern fires on the last day of a month**, under either mode. -/
theorem Pattern.fires_lastDay_iff {mode : DayMatch} {t : Instant} {bySecond : Bool} :
    (ofSelections mode lastDaySelections).fires t.fields bySecond = true ↔
      t.date.day = daysInMonth t.date.year t.date.month := by
  have hbound : ∀ f, (lastDaySelections.get f).InBound f := by
    intro f
    cases f with
    | dayOfMonth =>
      intro v hv
      rw [List.mem_singleton.mp hv]
      decide
    | _ => exact trivial
  have hlength := daysInMonth_bounds t.date.year t.date.month
  have hday : (Selection.listed [31]).AdmitsMonthDay t.fields ↔
      t.date.day = daysInMonth t.date.year t.date.month := by
    have hle := t.date.day_mem.2
    change t.date.day ∈ [31] ∨ ((31 : Int) ∈ [31] ∧ _) ↔ _
    rw [List.mem_singleton]
    constructor
    · rintro (h31 | ⟨-, hlast⟩)
      · -- a day 31 leaves no room behind it
        omega
      · exact hlast
    · exact fun hlast => .inr ⟨List.mem_singleton.mpr rfl, hlast⟩
  rw [fires_ofSelections_iff hbound fun f hf => t.withinReach hf]
  -- the day of the week is not restricted, so both day fields are asked for under either mode
  have hrule : AdmitsDay mode lastDaySelections t.fields ↔
      (Selection.listed [31]).AdmitsMonthDay t.fields ∧ True := by
    unfold AdmitsDay
    rw [if_neg fun h => h.2.2 rfl]
    rfl
  rw [hday, and_true] at hrule
  constructor
  · exact fun h => hrule.mp h.day
  · exact fun h => ⟨fun _ => trivial, trivial, trivial, trivial, trivial, hrule.mpr h⟩

/-- Days with the 31st among them contain the last day of every month. -/
theorem ValueSet.Fits.containsDay_last {set : ValueSet} (h : set.Fits .dayOfMonth)
    (hmem : 31 ∈ set.toList .dayOfMonth) {d : Date} (hlast : d.day = daysInMonth d.year d.month) :
    set.containsDay d.day (daysInMonth d.year d.month) = true := by
  have hday := d.day_mem
  have hlength := daysInMonth_bounds d.year d.month
  exact (h.containsDay_iff (by omega)).mpr (.inr ⟨hmem, hlast⟩)

/-- **`L` fires just on the days before another month**, in every year. An alternative with `L` as
its day of the month and no other restriction is accepted under either mode, and admits an instant
exactly when a day later the month is another; and whatever else the days of the month are, with the
31st among them they contain every day before another month. -/
theorem fires_just_before_another_month :
    (∀ (mode : DayMatch) (alternative : Fragment) (row : PerField Fragment),
      row.toList = paddedWords (words alternative) → OnlyLastDay row →
      ∃ p, Pattern.parse mode alternative = .ok p ∧ ∀ (t : Instant) (bySecond : Bool),
        p.fires t.fields bySecond = true ↔ ¬(t.addSeconds 86400).date.SameMonth t.date) ∧
    ∀ (text : Fragment) (set : ValueSet), Field.dayOfMonth.compile text = .ok set →
      31 ∈ set.toList .dayOfMonth → ∀ t : Instant,
        ¬(t.addSeconds 86400).date.SameMonth t.date →
          set.containsDay t.fields.dayOfMonth t.fields.monthLength = true := by
  simp only [Instant.date_addSeconds_day, Date.not_sameMonth_next_iff]
  constructor
  · intro mode alternative row hrow hlast
    exact ⟨_, hlast.parse hrow mode, fun t bySecond => Pattern.fires_lastDay_iff⟩
  · intro text set hset hmem t hlast
    exact (Field.fits_of_compile hset).containsDay_last hmem hlast

/-- The last of February in a leap year before the common era and in a common year that begins a
century, at any time of day; and a range of days that goes past the 31st, in the same Februaries. -/
theorem fires_just_before_march :
    ∃ leap common : Instant, (leap.date.year = -400 ∧ leap.date.month = 2 ∧ leap.date.day = 29) ∧
      (common.date.year = 1900 ∧ common.date.month = 2 ∧ common.date.day = 28) ∧
      (OnlyLastDay ⟨"*".toList, "?".toList, "*,5".toList, "l".toList, "*".toList, "?".toList,
        "*".toList⟩ ∧
      ∃ p, Pattern.parse .either "* ? *,5 l * ?".toList = .ok p ∧
        p.fires leap.fields true = true ∧ p.fires common.fields true = true) ∧
      ∃ set, Field.dayOfMonth.compile "15,29-2/2".toList = .ok set ∧
        31 ∈ set.toList .dayOfMonth ∧
        set.containsDay leap.fields.dayOfMonth leap.fields.monthLength = true ∧
        set.containsDay common.fields.dayOfMonth common.fields.monthLength = true := by
  let leap : Instant :=
    ⟨⟨-400, 2, 29, by decide, by decide⟩, 0, 0, 0, by decide, by decide, by decide⟩
  let common : Instant :=
    ⟨⟨1900, 2, 28, by decide, by decide⟩, 23, 59, 59, by decide, by decide, by decide⟩
  have hleap : ¬(leap.addSeconds 86400).date.SameMonth leap.date := by
    decide +kernel
  have hcommon : ¬(common.addSeconds 86400).date.SameMonth common.date := by
    decide +kernel
  have hrow : OnlyLastDay ⟨"*".toList, "?".toList, "*,5".toList, "l".toList, "*".toList,
      "?".toList, "*".toList⟩ := by
    refine ⟨by decide, ?_⟩
    rw [Field.forall_iff]
    decide +kernel
  have hwords : PerField.toList ⟨"*".toList, "?".toList, "*,5".toList, "l".toList, "*".toList,
      "?".toList, "*".toList⟩ = paddedWords (words "* ? *,5 l * ?".toList) := by
    decide +kernel
  have hset : Field.dayOfMonth.compile "15,29-2/2".toList =
      .ok (ValueSet.ofSelection .dayOfMonth (.listed [15, 29, 31, 1])) := by
    decide +kernel
  have hmem : 31 ∈ (ValueSet.ofSelection .dayOfMonth (.listed [15, 29, 31, 1])).toList
      .dayOfMonth := by
    decide +kernel
  obtain ⟨hfires, hcontains⟩ := fires_just_before_another_month
  obtain ⟨p, hp, hiff⟩ := hfires .either _ _ hwords hrow
  refine ⟨leap, common, ⟨rfl, rfl, rfl⟩, ⟨rfl, rfl, rfl⟩, ⟨hrow, p, hp, ?_⟩, _, hset, hmem, ?_⟩
  · exact ⟨(hiff leap true).mpr hleap, (hiff common true).mpr hcommon⟩
  · exact ⟨hcontains _ _ hset hmem leap hleap, hcontains _ _ hset hmem common hcommon⟩

end CronSchedule
