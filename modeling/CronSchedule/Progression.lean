/-!
# Bounded progressions

`progression start step stop` lists `start`, `start + step`, … as far as `stop`; past `stop` it
lists nothing. Its length is found by division, so a step far larger than the span costs nothing.

Main statement: for a positive step it lists exactly the numbers of the span whose distance from
the start is a multiple of the step (`mem_progression`).
-/

namespace CronSchedule

/-- The numbers `start`, `start + step`, … that do not exceed `stop`. -/
def progression (start : Int) (step : Nat) (stop : Int) : List Int :=
  if start ≤ stop then
    (List.range ((stop - start).toNat / step + 1)).map fun k => start + (step * k : Nat)
  else []

/-- A progression lists the multiples of the step above the start, up to the stop. -/
theorem mem_progression {start stop v : Int} {step : Nat} (hstep : 1 ≤ step) :
    v ∈ progression start step stop ↔
      ∃ k : Nat, v = start + (step * k : Nat) ∧ v ≤ stop := by
  rw [progression]
  split
  · next h =>
    simp only [List.mem_map, List.mem_range]
    constructor
    · rintro ⟨k, hk, rfl⟩
      refine ⟨k, rfl, ?_⟩
      have := (Nat.le_div_iff_mul_le (by omega)).mp (Nat.lt_succ_iff.mp hk)
      rw [Nat.mul_comm] at this
      omega
    · rintro ⟨k, rfl, hk⟩
      refine ⟨k, Nat.lt_succ_iff.mpr ((Nat.le_div_iff_mul_le (by omega)).mpr ?_), rfl⟩
      rw [Nat.mul_comm]
      omega
  · next h =>
    simp only [List.not_mem_nil, false_iff]
    rintro ⟨k, rfl, hk⟩
    omega

/-- Nothing listed lies outside the span. -/
theorem progression_bounds {start stop v : Int} {step : Nat} (hstep : 1 ≤ step)
    (h : v ∈ progression start step stop) : start ≤ v ∧ v ≤ stop := by
  obtain ⟨k, rfl, hk⟩ := (mem_progression hstep).mp h
  omega

/-- A span that is not empty lists its start first. -/
theorem progression_of_le {start stop : Int} {step : Nat} (h : start ≤ stop) :
    ∃ rest, progression start step stop = start :: rest := by
  rw [progression, if_pos h, List.range_succ_eq_map, List.map_cons, Nat.mul_zero]
  exact ⟨_, congrArg (· :: _) (Int.add_zero start)⟩

end CronSchedule
