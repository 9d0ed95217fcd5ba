import CronSchedule.Calendar.Instant
import CronSchedule.Proofs.Calendar.Weekdays
import CronSchedule.Proofs.Schedule.DayModes
import CronSchedule.Proofs.Schedule.Fitting
import CronSchedule.Proofs.Validation.Warnings

/-!
# Alternatives that never fire

Validation warns of an alternative whose selected days occur in none of its selected months, and it
finds out by the month lengths of one leap year. Here the warning is held against all instants.

* **Days and months** (`dayOccurs_iff`): some selected month has a selected day exactly when the
  31st is listed, as the last day of every month, or a listed day is no later than a listed month
  is long. A date of any year that both sets admit is a reason (`dayOccurs_of_date`), and there is
  such a date in the leap year that is asked (`exists_date_of_dayOccurs`).
* **No false alarm** (`never_fires_of_day_warning`): an alternative with the warning fires at no
  instant of any year.
* **No missed alarm** (`fires_of_no_day_warning`): an alternative without it, in which the year is
  not restricted, fires at some instant. Every day of a leap year falls on each day of the week in
  some leap year, so the day of the week is no obstacle.
-/

namespace CronSchedule

/-! ### Days and months -/

section

variable {days months : ValueSet}

/-- **Some selected month has a selected day** exactly when the 31st is listed, or a listed day is
no later than the length of a listed month in a leap year. -/
theorem dayOccurs_iff (hdays : days.Fits .dayOfMonth) :
    dayOccurs days months = true ↔ 31 ∈ days.toList .dayOfMonth ∨
      ∃ m ∈ months.toList .month, ∃ d ∈ days.toList .dayOfMonth, d ≤ daysInMonth longestYear m := by
  cases hdays.shaped with
  | every =>
    have hlast : 31 ∈ ValueSet.every.toList .dayOfMonth :=
      ValueSet.mem_toList_every_iff.mpr (by decide)
    exact iff_of_true rfl (.inl hlast)
  | dense hne => exact absurd rfl hne
  | years hyear => exact nomatch hyear
  | @monthDays set _ _ hlast =>
    obtain ⟨listed, lastDay⟩ := set
    cases lastDay with
    | true => exact iff_of_true rfl (.inl (hlast.mp rfl))
    | false =>
      have hnot : ¬31 ∈ (ValueSet.monthDays ⟨listed, false⟩).toList .dayOfMonth :=
        fun hmem => nomatch hlast.mpr hmem
      simp [dayOccurs, hnot]

/-- Days and months that both admit a date of any year occur together. -/
theorem dayOccurs_of_date (hdays : days.Fits .dayOfMonth) (hmonths : months.Fits .month)
    {date : Date} (hmonth : months.contains date.month = true)
    (hday : days.containsDay date.day (daysInMonth date.year date.month) = true) :
    dayOccurs days months = true := by
  have hlength := daysInMonth_bounds date.year date.month
  have hdate := date.day_mem
  rw [dayOccurs_iff hdays]
  rcases (hdays.containsDay_iff ⟨hdate.1, by omega⟩).mp hday with hlisted | hlast
  · have hmember := (hmonths.contains_iff_mem date.month_mem).mp hmonth
    refine .inr ⟨date.month, hmember, date.day, hlisted, ?_⟩
    calc date.day ≤ daysInMonth date.year date.month := hdate.2
      _ ≤ daysInMonth longestYear date.month :=
        daysInMonth_le_of_isLeapYear (by decide) date.year date.month
  · exact .inl hlast.1

/-- Days and months that occur together both admit a date of the leap year. -/
theorem exists_date_of_dayOccurs (hdays : days.Fits .dayOfMonth) (hmonths : months.Fits .month)
    (h : dayOccurs days months = true) :
    ∃ date : Date, date.year = longestYear ∧ months.contains date.month = true ∧
      days.containsDay date.day (daysInMonth longestYear date.month) = true := by
  rcases (dayOccurs_iff hdays).mp h with hlast | ⟨m, hm, d, hd, hle⟩
  · -- the last day of any month that is selected
    obtain ⟨m, hm, hcontains⟩ := hmonths.exists_contains
    have hlength := daysInMonth_bounds longestYear m
    have hday : 1 ≤ daysInMonth longestYear m ∧ daysInMonth longestYear m ≤ 31 := by omega
    refine ⟨⟨longestYear, m, daysInMonth longestYear m, hm, hday.1, Int.le_refl _⟩, rfl,
      hcontains, ?_⟩
    exact (hdays.containsDay_iff hday).mpr (.inr ⟨hlast, rfl⟩)
  · have hmonth := hmonths.bounds m hm
    have hday := hdays.bounds d hd
    refine ⟨⟨longestYear, m, d, hmonth, hday.1, hle⟩, rfl,
      (hmonths.contains_iff_mem hmonth).mpr hm, ?_⟩
    exact (hdays.containsDay_iff hday).mpr (.inl hd)

end

/-! ### The day rule at an instant -/

namespace Pattern

variable {p : Pattern} {time : TimeFields}

/-- Where the day of the week does not suffice, the day of the month is needed. -/
theorem monthDayFires_of_dayFires (h : ¬p.WeekdaySuffices) (hfires : p.dayFires time = true) :
    p.monthDayFires time = true := by
  unfold dayFires at hfires
  rw [if_neg fun hsuffices => h ⟨hsuffices.2, hsuffices.1⟩, Bool.and_eq_true] at hfires
  exact hfires.1

/-- Where the day of the week suffices, it is enough. -/
theorem dayFires_of_weekdaySuffices (h : p.WeekdaySuffices)
    (hweekday : p.weekdayFires time = true) : p.dayFires time = true := by
  unfold dayFires
  rw [if_pos ⟨h.2, h.1⟩, hweekday, Bool.or_true]

/-- A pattern that fires at an instant has a selected day in a selected month, or does without. -/
theorem dayOccurs_of_fires (hp : ∀ f, (p.sets.get f).Fits f) (h : ¬p.WeekdaySuffices) {t : Instant}
    {bySecond : Bool} (hfires : p.fires t.fields bySecond = true) :
    dayOccurs p.sets.dayOfMonth p.sets.month = true := by
  simp only [fires, Bool.and_eq_true] at hfires
  obtain ⟨⟨⟨_, hmonth⟩, _⟩, hday⟩ := hfires
  exact dayOccurs_of_date (hp .dayOfMonth) (hp .month) hmonth (monthDayFires_of_dayFires h hday)

/-- On a date that a pattern admits, some time of day is one at which it fires. -/
theorem exists_fires_on (hp : ∀ f, (p.sets.get f).Fits f) {date : Date}
    (hyear : p.sets.year.contains date.year = true)
    (hmonth : p.sets.month.contains date.month = true)
    (hday : ∀ t : Instant, t.date = date → p.dayFires t.fields = true) :
    ∃ t : Instant, t.date = date ∧ p.fires t.fields true = true := by
  obtain ⟨hour, hhour, hhours⟩ := (hp .hour).exists_contains
  obtain ⟨minute, hminute, hminutes⟩ := (hp .minute).exists_contains
  obtain ⟨second, hsecond, hseconds⟩ := (hp .second).exists_contains
  have hlimits : hour < 24 ∧ minute < 60 ∧ second < 60 :=
    ⟨Int.lt_add_one_of_le hhour.2, Int.lt_add_one_of_le hminute.2, Int.lt_add_one_of_le hsecond.2⟩
  refine ⟨⟨date, hour, minute, second, ⟨hhour.1, hlimits.1⟩, ⟨hminute.1, hlimits.2.1⟩,
    ⟨hsecond.1, hlimits.2.2⟩⟩, rfl, ?_⟩
  simp only [fires, Bool.and_eq_true]
  exact ⟨⟨⟨⟨⟨hseconds, hminutes⟩, hhours⟩, hmonth⟩, hyear⟩, hday _ rfl⟩

/-- A pattern that needs no day of the month, or has a selected day in a selected month, admits the
month and the day of the month of some date in a leap year. -/
theorem exists_leap_date (hp : ∀ f, (p.sets.get f).Fits f)
    (h : p.WeekdaySuffices ∨ dayOccurs p.sets.dayOfMonth p.sets.month = true) :
    ∃ date : Date, isLeapYear date.year = true ∧ p.sets.month.contains date.month = true ∧
      (p.WeekdaySuffices ∨
        p.sets.dayOfMonth.containsDay date.day (daysInMonth date.year date.month) = true) := by
  rcases h with hsuffices | hoccurs
  · -- any day of a selected month
    obtain ⟨month, hmonth, hmonths⟩ := (hp .month).exists_contains
    have hlength := daysInMonth_bounds longestYear month
    refine ⟨⟨longestYear, month, 1, hmonth, by decide, by omega⟩, ?_, hmonths, .inl hsuffices⟩
    show isLeapYear longestYear = true
    decide
  · obtain ⟨date, hyear, hmonth, hday⟩ :=
      exists_date_of_dayOccurs (hp .dayOfMonth) (hp .month) hoccurs
    rw [← hyear] at hday
    refine ⟨date, ?_, hmonth, .inr hday⟩
    rw [hyear]
    decide

/-- A pattern that needs no day of the month, or has a selected day in a selected month, fires in
some year, where the year is not restricted. -/
theorem exists_fires (hp : ∀ f, (p.sets.get f).Fits f) (hyear : p.sets.year = .every)
    (h : p.WeekdaySuffices ∨ dayOccurs p.sets.dayOfMonth p.sets.month = true) :
    ∃ t : Instant, (2004 ≤ t.date.year ∧ t.date.year ≤ 2028) ∧ p.fires t.fields true = true := by
  obtain ⟨weekday, hweekday, hweekdays⟩ := (hp .dayOfWeek).exists_contains
  obtain ⟨date, hleap, hmonth, hday⟩ := exists_leap_date hp h
  -- the same day of the year, in a leap year in which it falls on a selected day of the week
  obtain ⟨e, ⟨heleap, heyear⟩, hemonth, heday, rfl⟩ := date.exists_weekday_eq hleap hweekday
  have hlength : daysInMonth date.year date.month = daysInMonth e.year e.month := by
    rw [hemonth]
    exact daysInMonth_eq_of_isLeapYear hleap heleap date.month
  have heyears : p.sets.year.contains e.year = true := by
    rw [hyear]
    rfl
  have hemonths : p.sets.month.contains e.month = true := by
    rw [hemonth]
    exact hmonth
  have hedays : ∀ t : Instant, t.date = e → p.dayFires t.fields = true := by
    intro t ht
    have hweekdayFires : p.weekdayFires t.fields = true := by
      subst ht
      exact hweekdays
    rcases hday with hsuffices | hday
    · exact dayFires_of_weekdaySuffices hsuffices hweekdayFires
    · apply dayFires_of_both _ hweekdayFires
      subst ht
      rw [hlength, ← heday] at hday
      exact hday
  obtain ⟨t, ht, hfires⟩ := exists_fires_on hp heyears hemonths hedays
  exact ⟨t, ht ▸ heyear, hfires⟩

end Pattern

/-! ### The warning -/

section

variable {mode : DayMatch} {text : Fragment} {index : Nat}

/-- **No false alarm**: an alternative with a warning at its day of the month never fires, in no
year, and with the second or without it. -/
theorem never_fires_of_day_warning {w : Warning} (hw : w ∈ (validate mode text).warnings)
    (hpath : w.place.path = s!"alternatives[{index}].{Field.dayOfMonth.name}") :
    w.advice = .dayNeverOccurs ∧
      ∃ alternative p, (alternatives (trim text))[index]? = some alternative ∧
        Pattern.parse mode alternative = .ok p ∧
        ∀ (t : Instant) (bySecond : Bool), p.fires t.fields bySecond = false := by
  have hplace : w.place = .field index .dayOfMonth := Place.path_injective hpath
  obtain ⟨i, alternative, halternative, p, hp, hwarning⟩ := mem_warnings_validate_iff.mp hw
  rcases Pattern.mem_warnings_iff.mp hwarning with ⟨rfl, -⟩ | ⟨rfl, hneeded, hoccurs⟩
  · exact nomatch hplace
  · cases hplace
    refine ⟨rfl, alternative, p, halternative, hp, ?_⟩
    intro t bySecond
    rw [← Bool.not_eq_true]
    intro hfires
    have hsome := Pattern.dayOccurs_of_fires (Pattern.fits_of_parse hp) hneeded hfires
    rw [hoccurs] at hsome
    exact nomatch hsome

/-- The 30th of February, behind an alternative without a warning. -/
theorem never_fires_on_thirtieth_of_february :
    (⟨.field 1 .dayOfMonth, .dayNeverOccurs⟩ : Warning) ∈
        (validate .either "0 0 * * ? | 0 0 0 30 feb ? 2024".toList).warnings ∧
      ∃ alternative p, (alternatives (trim "0 0 * * ? | 0 0 0 30 feb ? 2024".toList))[1]? =
          some alternative ∧
        Pattern.parse .either alternative = .ok p ∧
        ∀ (t : Instant) (bySecond : Bool), p.fires t.fields bySecond = false := by
  have hw : (⟨.field 1 .dayOfMonth, .dayNeverOccurs⟩ : Warning) ∈
      (validate .either "0 0 * * ? | 0 0 0 30 feb ? 2024".toList).warnings := by
    decide +kernel
  exact ⟨hw, (never_fires_of_day_warning hw rfl).2⟩

/-- **No missed alarm**: an alternative whose year is not restricted, and that has no warning at its
day of the month, fires at some second of a year that the year field can name. -/
theorem fires_of_no_day_warning {alternative : Fragment} {p : Pattern}
    (halternative : (alternatives (trim text))[index]? = some alternative)
    (hp : Pattern.parse mode alternative = .ok p) (hyear : p.sets.year = .every)
    (hsilent : ∀ w ∈ (validate mode text).warnings,
      w.place.path ≠ s!"alternatives[{index}].{Field.dayOfMonth.name}") :
    ∃ t : Instant, (Field.year.lo ≤ t.date.year ∧ t.date.year ≤ Field.year.hi) ∧
      p.fires t.fields true = true := by
  have hoccurs : p.WeekdaySuffices ∨ dayOccurs p.sets.dayOfMonth p.sets.month = true := by
    by_contra hnot
    rw [not_or, Bool.not_eq_true] at hnot
    have hwarning : ⟨.field index .dayOfMonth, .dayNeverOccurs⟩ ∈ (validate mode text).warnings :=
      mem_warnings_validate_iff.mpr
        ⟨index, alternative, halternative, p, hp, Pattern.mem_warnings_iff.mpr (.inr ⟨rfl, hnot⟩)⟩
    exact hsilent _ hwarning rfl
  obtain ⟨t, ht, hfires⟩ := Pattern.exists_fires (Pattern.fits_of_parse hp) hyear hoccurs
  have hlo : Field.year.lo ≤ 2004 := by decide
  have hhi : 2028 ≤ Field.year.hi := by decide
  exact ⟨t, ⟨Int.le_trans hlo ht.1, Int.le_trans ht.2 hhi⟩, hfires⟩

/-- A 29th of February that is a Monday, before an alternative with the warning. -/
theorem fires_on_monday_in_leap_year :
    ∃ p, Pattern.parse .all "0 0 29 2 mon".toList = .ok p ∧ p.sets.year = .every ∧
      ∃ t : Instant, (Field.year.lo ≤ t.date.year ∧ t.date.year ≤ Field.year.hi) ∧
        p.fires t.fields true = true := by
  have hp : Pattern.parse .all "0 0 29 2 mon".toList = .ok (.ofSelections .all
      ⟨.listed [0], .listed [0], .listed [0], .listed [29], .listed [2], .listed [1], .whole⟩) := by
    decide +kernel
  have hsilent : ∀ w ∈ (validate .all "0 0 29 2 mon | 0 0 30 2 tue".toList).warnings,
      w.place.path ≠ s!"alternatives[{0}].{Field.dayOfMonth.name}" := by
    decide +kernel
  have halternative : (alternatives (trim "0 0 29 2 mon | 0 0 30 2 tue".toList))[0]? =
      some "0 0 29 2 mon".toList := by
    decide +kernel
  exact ⟨_, hp, rfl, fires_of_no_day_warning halternative hp rfl hsilent⟩

end

end CronSchedule
