import CronSchedule.Progression

/-!
# Counting by steps

* `Counts step stop start numbers` — counting from a start by steps as long as a stop is not passed,
  said number by number.
* **A progression is what counting lists** (`counts_iff`). The progression is found by a division;
  that it counts rests on its first step (`progression_eq`).
* With a stop that is one farther the progression lists that stop as well, if a step leads to it
  (`progression_add_one`).
-/

namespace CronSchedule

/-- Counting from a start by steps lists these numbers, none of which is past the stop. -/
inductive Counts (step : Nat) (stop : Int) : Int → List Int → Prop
  /-- Past the stop nothing is listed. -/
  | past {start : Int} : stop < start → Counts step stop start []
  /-- A start that is not past the stop is listed, and then what is counted a step later. -/
  | next {start : Int} {rest : List Int} : start ≤ stop → Counts step stop (start + step) rest →
      Counts step stop start (start :: rest)

/-- A progression that is not past its stop lists its start and then the progression that begins a
step later. -/
theorem progression_eq {start stop : Int} {step : Nat} (hstep : 1 ≤ step) (h : start ≤ stop) :
    progression start step stop = start :: progression (start + step) step stop := by
  have hfirst : ∀ n : Nat, (List.range (n + 1)).map (fun k => start + (step * k : Nat)) =
      start :: (List.range n).map (fun k => start + step + (step * k : Nat)) := by
    intro n
    rw [List.range_succ_eq_map, List.map_cons, List.map_map, Nat.mul_zero]
    congr 1
    · exact Int.add_zero start
    · refine List.map_congr_left fun k _ => ?_
      rw [Function.comp_apply, Nat.succ_eq_add_one, Nat.mul_add, Nat.mul_one]
      omega
  rw [progression, if_pos h, hfirst, progression]
  congr 1
  split
  · next hnext =>
    -- one step less fits between the later start and the stop
    have hspan : (stop - start).toNat = (stop - (start + step)).toNat + step := by omega
    rw [hspan, Nat.add_div_right _ (by omega)]
  · next hnext =>
    have hshort : (stop - start).toNat < step := by omega
    rw [Nat.div_eq_of_lt hshort]
    rfl

/-- A progression past its stop lists nothing. -/
theorem progression_of_lt {start stop : Int} {step : Nat} (h : stop < start) :
    progression start step stop = [] := by
  rw [progression, if_neg (by omega)]

/-- From a number to itself it lists that number. -/
theorem progression_self {step : Nat} (hstep : 1 ≤ step) (v : Int) :
    progression v step v = [v] := by
  rw [progression_eq hstep (Int.le_refl v), progression_of_lt (by omega)]

/-- **A progression is what counting lists**, and nothing else is. -/
theorem counts_iff {start stop : Int} {step : Nat} (hstep : 1 ≤ step) {numbers : List Int} :
    Counts step stop start numbers ↔ numbers = progression start step stop := by
  constructor
  · intro h
    induction h with
    | past hpast => exact (progression_of_lt hpast).symm
    | next hle _ ih => rw [progression_eq hstep hle, ← ih]
  · rintro rfl
    -- the distance from the start to the stop shrinks with every step
    induction hn : (stop + 1 - start).toNat using Nat.strongRecOn generalizing start with
    | ind n ih =>
      by_cases hle : start ≤ stop
      · rw [progression_eq hstep hle]
        exact .next hle (ih _ (by omega) rfl)
      · rw [progression_of_lt (by omega)]
        exact .past (by omega)

/-- Counting to a stop that is one farther lists that stop as well, if a step leads to it. -/
theorem Counts.add_one {start stop : Int} {step : Nat} {numbers : List Int} (hstep : 1 ≤ step)
    (h : Counts step stop start numbers) (hle : start ≤ stop + 1) :
    Counts step (stop + 1) start
      (numbers ++ if (step : Int) ∣ stop + 1 - start then [stop + 1] else []) := by
  induction h with
  | @past start hpast =>
    obtain rfl : start = stop + 1 := by omega
    rw [Int.sub_self, if_pos (Int.dvd_zero _)]
    exact .next hle (.past (by omega))
  | @next start rest _ hrest ih =>
    refine .next hle ?_
    have hshift : (step : Int) ∣ stop + 1 - start ↔ (step : Int) ∣ stop + 1 - (start + step) := by
      rw [show stop + 1 - start = stop + 1 - (start + step) + step by omega]
      exact Int.dvd_add_left (Int.dvd_refl _)
    simp only [hshift]
    by_cases hnext : start + step ≤ stop + 1
    · exact ih hnext
    · -- the next number is past both stops, and less than a step behind the farther one
      have hnot : ¬(step : Int) ∣ stop + 1 - (start + step) := by
        intro hdvd
        have hstep_le := Int.le_of_dvd (by omega) (Int.dvd_neg.mpr hdvd)
        omega
      rw [if_neg hnot]
      cases hrest with
      | past => exact .past (by omega)
      | next hle' => omega

/-- A progression whose stop is one farther lists that stop as well, if a step leads to it. -/
theorem progression_add_one {start stop : Int} {step : Nat} (hstep : 1 ≤ step)
    (hle : start ≤ stop + 1) : progression start step (stop + 1) =
      progression start step stop ++ if (step : Int) ∣ stop + 1 - start then [stop + 1] else [] :=
  ((counts_iff hstep).mp (((counts_iff hstep).mpr rfl).add_one hstep hle)).symm

end CronSchedule
