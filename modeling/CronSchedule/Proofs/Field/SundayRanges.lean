import CronSchedule.Proofs.Field.Union

/-!
# Ranges of days that end on Sunday

The end of a range of days of the week may be the Sunday behind Saturday, day 7, or the Sunday that
begins the week, day 0, to which the range wraps around. By steps, the one Sunday may be left out
where the other one is listed.

* `MeetsSunday start step` — whether the steps from a day lead to the Sunday behind Saturday; from
  Sunday itself, whether they lead to no day in between.

Main statement: **a range up to the Sunday behind Saturday selects what the range to day 0 selects
exactly where it meets that Sunday** (`Selection.ofTerms_rangeToSunday_iff`).
-/

namespace CronSchedule

/-- Whether the steps from a day lead to the Sunday behind Saturday; from Sunday itself, whether they
lead to no day in between. -/
def MeetsSunday (start : Int) (step : Nat) : Prop :=
  if start = 0 then 7 ≤ step else (step : Int) ∣ 7 - start

variable {start : Int} {step : Nat}

namespace Term

/-- Up to the Sunday behind Saturday the days of the week are listed, and then day 0 if a step leads
there. -/
theorem values_rangeToSunday (hstep : 1 ≤ step) (hstart : 0 ≤ start ∧ start ≤ 6) :
    (rangeToSunday start step).values .dayOfWeek =
      progression start step 6 ++ if (step : Int) ∣ 7 - start then [0] else [] := by
  have hdays : (progression start step 6).map (· % 7) = progression start step 6 := by
    conv_rhs => rw [← List.map_id (progression start step 6)]
    apply List.map_congr_left
    intro v hv
    have hbounds := progression_bounds hstep hv
    exact Int.emod_eq_of_lt (by omega) (by omega)
  have hsplit : progression start step 7 =
      progression start step 6 ++ if (step : Int) ∣ 7 - start then [7] else [] :=
    @progression_add_one start 6 step hstep (by omega)
  rw [values, hsplit, List.map_append, hdays]
  split <;> rfl

/-- From a written `7` to another there is one day, Sunday. -/
theorem values_rangeToSunday_seven (hstep : 1 ≤ step) :
    (rangeToSunday 7 step).values .dayOfWeek = [0] := by
  rw [values, progression_self hstep]
  rfl

/-- A range from day 0 to itself is that day. -/
theorem values_range_zero (hstep : 1 ≤ step) : (range 0 0 step).values .dayOfWeek = [0] := by
  rw [values, if_pos (Int.le_refl 0), progression_self hstep]

/-- A range from another day to day 0 lists the days up to Saturday, and then day 0. -/
theorem values_range_to_zero (hstep : 1 ≤ step) (hstart : 1 ≤ start) :
    (range start 0 step).values .dayOfWeek = progression start step 6 ++ [0] := by
  rw [values, if_neg (by omega), ← progression_self hstep 0]
  rfl

/-- From Sunday on only that day is listed if no step leads to another one. -/
theorem eraseDups_values_rangeToSunday_zero_iff (hstep : 1 ≤ step) :
    ((rangeToSunday 0 step).values .dayOfWeek).eraseDups = [0] ↔ 7 ≤ step := by
  rw [values_rangeToSunday hstep (by decide)]
  constructor
  · intro hsunday
    by_contra hshort
    -- the day that the first step leads to is listed
    have hmem : (step : Int) ∈ progression 0 step 6 :=
      (mem_progression hstep).mpr ⟨1, by omega, by omega⟩
    have hlisted := List.mem_eraseDups.mpr (List.mem_append_left
      (if (step : Int) ∣ 7 - 0 then [0] else []) hmem)
    rw [hsunday, List.mem_singleton] at hlisted
    omega
  · intro hlong
    rw [progression_eq hstep (by decide), progression_of_lt (by omega)]
    split <;> decide

/-- From another day on the same days are listed as to day 0 if a step leads to Sunday. -/
theorem eraseDups_values_rangeToSunday_iff (hstep : 1 ≤ step) (hstart : 1 ≤ start ∧ start ≤ 6) :
    ((rangeToSunday start step).values .dayOfWeek).eraseDups =
        ((range start 0 step).values .dayOfWeek).eraseDups ↔ (step : Int) ∣ 7 - start := by
  rw [values_rangeToSunday hstep (by omega), values_range_to_zero hstep hstart.1]
  constructor
  · intro hsame
    by_contra hmissed
    rw [if_neg hmissed, List.append_nil] at hsame
    -- day 0 is listed on the one side only
    have hsunday : (0 : Int) ∈ (progression start step 6 ++ [0]).eraseDups := by simp
    rw [← hsame, List.mem_eraseDups] at hsunday
    have hbounds := progression_bounds hstep hsunday
    omega
  · intro hmet
    rw [if_pos hmet]

end Term

/-- **A range up to the Sunday behind Saturday selects what the range to day 0 selects exactly where
it meets that Sunday.** -/
theorem Selection.ofTerms_rangeToSunday_iff (hstep : 1 ≤ step) (hstart : 0 ≤ start ∧ start ≤ 6) :
    ofTerms .dayOfWeek [.rangeToSunday start step] = ofTerms .dayOfWeek [.range start 0 step] ↔
      MeetsSunday start step := by
  rw [ofTerms_singleton, ofTerms_singleton, if_neg (by simp), if_neg (by simp), listed.injEq,
    MeetsSunday]
  split
  · next hzero =>
    rw [hzero, Term.values_range_zero hstep, eraseDups_of_nodup (List.nodup_singleton 0)]
    exact Term.eraseDups_values_rangeToSunday_zero_iff hstep
  · next hlater => exact Term.eraseDups_values_rangeToSunday_iff hstep (by omega)

end CronSchedule
