import CronSchedule.Proofs.Schedule.Fitting

/-!
# Minutes and their seconds

Without regard to the second, an instant stands for its minute.

* `TimeFields.atSecond time second` — the instant in the same minute at a second.
* **Patterns**: the second is looked at apart from everything else (`Pattern.fires_bySecond_eq`,
  `Pattern.fires_atSecond`), and the seconds of a parsed pattern are never empty, so its minutes are
  those that have a second (`Pattern.fires_minute_iff`).

Main statement: **a schedule admits a minute exactly when it admits a second of that minute**
(`Schedule.fires_minute_iff_exists_second`).
-/

namespace CronSchedule

/-- The instant in the same minute at a second. -/
def TimeFields.atSecond (time : TimeFields) (second : Int) : TimeFields :=
  { time with second := second }

/-! ### Patterns -/

namespace Pattern

variable {p : Pattern} {time : TimeFields}

/-- With regard to the second, a pattern admits an instant when it admits the second and the
minute. -/
theorem fires_bySecond_eq (p : Pattern) (time : TimeFields) :
    p.fires time true = (p.sets.second.contains time.second && p.fires time false) := by
  simp only [fires, Bool.not_true, Bool.not_false, Bool.false_or, Bool.true_or, Bool.true_and,
    Bool.and_assoc]

/-- Without regard to the second, the instants in a minute are admitted alike. -/
theorem fires_atSecond (p : Pattern) (time : TimeFields) (second : Int) :
    p.fires (time.atSecond second) false = p.fires time false := rfl

/-- **A pattern with seconds in the bound admits a minute when it admits a second of it.** -/
theorem fires_minute_iff (h : p.sets.second.Fits .second) :
    p.fires time false = true ↔
      ∃ second : Int, (0 ≤ second ∧ second ≤ 59) ∧ p.fires (time.atSecond second) true = true := by
  have hsecond : ∀ second : Int, p.fires (time.atSecond second) true = true ↔
      p.sets.second.contains second = true ∧ p.fires time false = true := by
    intro second
    rw [fires_bySecond_eq, fires_atSecond, Bool.and_eq_true]
    rfl
  simp only [hsecond]
  constructor
  · intro hminute
    obtain ⟨second, hbound, hcontains⟩ := h.exists_contains
    exact ⟨second, hbound, hcontains, hminute⟩
  · rintro ⟨second, -, -, hminute⟩
    exact hminute

end Pattern

/-! ### Schedules -/

namespace Schedule

/-- **A schedule admits a minute exactly when it admits a second of that minute.** So what it admits
with regard to the second it admits without. -/
theorem fires_minute_iff_exists_second {mode : DayMatch} {text : Fragment} {s : Schedule}
    (h : parse mode text = .ok s) (time : TimeFields) :
    (s.fires time false = true ↔
      ∃ second : Int, (0 ≤ second ∧ second ≤ 59) ∧ s.fires (time.atSecond second) true = true) ∧
    (s.fires time true = true → s.fires time false = true) := by
  have hpattern : ∀ p ∈ s.patterns, (p.fires time false = true ↔
      ∃ second : Int, (0 ≤ second ∧ second ≤ 59) ∧
        p.fires (time.atSecond second) true = true) := by
    intro p hp
    obtain ⟨piece, hpiece⟩ := parse_of_mem_patterns h hp
    exact Pattern.fires_minute_iff (Pattern.fits_of_parse hpiece .second)
  simp only [fires, List.any_eq_true]
  constructor
  · -- a pattern that admits the minute has its own second of it
    constructor
    · rintro ⟨p, hp, hminute⟩
      obtain ⟨second, hbound, hfires⟩ := (hpattern p hp).mp hminute
      exact ⟨second, hbound, p, hp, hfires⟩
    · rintro ⟨second, hbound, p, hp, hfires⟩
      exact ⟨p, hp, (hpattern p hp).mpr ⟨second, hbound, hfires⟩⟩
  · rintro ⟨p, hp, hfires⟩
    exact ⟨p, hp, Pattern.fires_of_fires_bySecond hfires⟩

/-- At noon of the last day of a February two alternatives admit the minute, but not its first
second. -/
theorem fires_minute_at_end_of_february :
    ∃ s, parse .either "-19-50/5 0 12 31 * MON 2024 | 59 */5 9-17 ? * *".toList = .ok s ∧
      s.fires ⟨0, 0, 12, 29, 2, 4, 2024⟩ false = true ∧
      s.fires ⟨0, 0, 12, 29, 2, 4, 2024⟩ true = false ∧
      ∃ second : Int, (0 ≤ second ∧ second ≤ 59) ∧
        s.fires (TimeFields.atSecond ⟨0, 0, 12, 29, 2, 4, 2024⟩ second) true = true := by
  obtain ⟨s, hparse, hminute, hfirst⟩ :
      ∃ s, parse .either "-19-50/5 0 12 31 * MON 2024 | 59 */5 9-17 ? * *".toList = .ok s ∧
        s.fires ⟨0, 0, 12, 29, 2, 4, 2024⟩ false = true ∧
        s.fires ⟨0, 0, 12, 29, 2, 4, 2024⟩ true = false := by
    refine ⟨⟨"-19-50/5 0 12 31 * MON 2024 | 59 */5 9-17 ? * *".toList, [
      .ofSelections .either ⟨.listed [40, 45, 50], .listed [0], .listed [12], .listed [31],
        .whole, .listed [1], .listed [2024]⟩,
      .ofSelections .either ⟨.listed [59], .listed [0, 5, 10, 15, 20, 25, 30, 35, 40, 45, 50, 55],
        .listed [9, 10, 11, 12, 13, 14, 15, 16, 17], .whole, .whole, .whole, .whole⟩]⟩, ?_, ?_, ?_⟩
    · decide +kernel
    · decide +kernel
    · decide +kernel
  have hiff := fires_minute_iff_exists_second hparse ⟨0, 0, 12, 29, 2, 4, 2024⟩
  exact ⟨s, hparse, hminute, hfirst, hiff.1.mp hminute⟩

end Schedule

end CronSchedule
