import CronSchedule.Proofs.Field.Listing

/-!
# Sets that fit their field

* `ValueSet.Shaped f set` — the set is kept in the representation that the field calls for: days of
  the month as such, with the mark for the last day exactly where the 31st is listed, years as a
  list, and everything else in one word that counts from the least value.
* `ValueSet.Fits f set` — it is shaped so, it lists a value, and it lists only values in the bound.

Main statements: **the text of a field compiles to a set that fits the field**
(`Field.fits_of_compile`). Of such a set nothing need be known but its list: a number in the bound
is contained exactly when it is listed (`Fits.contains_iff_mem`), and a day is contained in a month
when it is listed, or is the last of the month where the 31st is listed (`Fits.containsDay_iff`).
-/

namespace CronSchedule

namespace ValueSet

/-- The representation that a field calls for. -/
inductive Shaped (f : Field) : ValueSet → Prop
  /-- Any field may be unrestricted. -/
  | every : Shaped f every
  | dense {set : DenseSet} : f ≠ .dayOfMonth → f ≠ .year → set.base = f.lo → Shaped f (dense set)
  | monthDays {set : MonthDays} : f = .dayOfMonth → set.days.base = f.lo →
      (set.lastDay = true ↔ 31 ∈ set.toList) → Shaped f (monthDays set)
  | years {set : YearSet} : f = .year → Shaped f (years set)

/-- A set in the representation of its field that lists a value, and only values in the bound. -/
structure Fits (f : Field) (set : ValueSet) : Prop where
  shaped : set.Shaped f
  ne_nil : set.toList f ≠ []
  bounds : ∀ v ∈ set.toList f, f.lo ≤ v ∧ v ≤ f.hi

/-! ### Compiled sets fit -/

/-- An unrestricted field lists exactly the values in its bound. -/
theorem mem_toList_every_iff {f : Field} {v : Int} :
    v ∈ every.toList f ↔ f.lo ≤ v ∧ v ≤ f.hi := by
  unfold toList
  rw [mem_progression (Nat.le_refl 1)]
  refine ⟨?_, fun h => ⟨(v - f.lo).toNat, by omega, h.2⟩⟩
  intro h
  obtain ⟨k, rfl, hk⟩ := h
  exact ⟨by omega, hk⟩

/-- An unrestricted field fits. -/
theorem fits_every (f : Field) : every.Fits f where
  shaped := .every
  ne_nil := List.ne_nil_of_mem (mem_toList_every_iff.mpr ⟨Int.le_refl _, f.lo_le_hi⟩)
  bounds := fun _ hv => mem_toList_every_iff.mp hv

/-- A restricted field is kept in the representation it calls for, where the values are in its
bound. -/
theorem shaped_ofSelection {f : Field} {values : List Int}
    (hvalues : ∀ v ∈ values, f.lo ≤ v ∧ v ≤ f.hi) :
    (ofSelection f (.listed values)).Shaped f := by
  cases f with
  | dayOfMonth =>
    refine .monthDays rfl (DenseSet.base_ofList _ _) ?_
    show values.contains Field.dayOfMonth.hi = true ↔ 31 ∈ (DenseSet.ofList _ values).toList
    rw [DenseSet.mem_toList_ofList_iff (by decide) hvalues, List.contains_iff_mem]
    rfl
  | year => exact .years rfl
  | _ => exact .dense (by decide) (by decide) (DenseSet.base_ofList _ _)

end ValueSet

/-- **The text of a field compiles to a set that fits the field.** -/
theorem Field.fits_of_compile {f : Field} {text : Fragment} {set : ValueSet}
    (h : f.compile text = .ok set) : set.Fits f := by
  obtain ⟨s, hs, rfl⟩ := Field.compile_eq_ok_iff.mp h
  cases s with
  | whole => exact ValueSet.fits_every f
  | listed values =>
    obtain ⟨hne, hbounds⟩ := Field.toList_of_select hs
    exact ⟨ValueSet.shaped_ofSelection (Field.bounds_of_select hs), hne, hbounds⟩

/-! ### Membership -/

namespace ValueSet

variable {f : Field} {set : ValueSet}

/-- **A number in the bound is contained exactly when it is listed.** -/
theorem Fits.contains_iff_mem (h : set.Fits f) {v : Int} (hv : f.lo ≤ v ∧ v ≤ f.hi) :
    set.contains v = true ↔ v ∈ set.toList f := by
  have hreach : f.WithinReach v := Field.withinReach_of_bounds hv
  unfold Field.WithinReach at hreach
  cases h.shaped with
  | every => simp [contains, mem_toList_every_iff, hv]
  | dense _ _ hbase => exact DenseSet.contains_iff_mem_toList (hbase ▸ hreach)
  | monthDays _ hbase => exact DenseSet.contains_iff_mem_toList (hbase ▸ hreach)
  | years => exact List.contains_iff_mem

/-- A set that fits contains a number in the bound. -/
theorem Fits.exists_contains (h : set.Fits f) :
    ∃ v, (f.lo ≤ v ∧ v ≤ f.hi) ∧ set.contains v = true := by
  obtain ⟨v, hv⟩ := List.exists_mem_of_ne_nil _ h.ne_nil
  exact ⟨v, h.bounds v hv, (h.contains_iff_mem (h.bounds v hv)).mpr hv⟩

/-- **A day is contained in a month when it is listed**, or is the last of the month where the 31st
is listed. -/
theorem Fits.containsDay_iff (h : set.Fits .dayOfMonth) {day : Int} (hday : 1 ≤ day ∧ day ≤ 31)
    {monthLength : Int} :
    set.containsDay day monthLength = true ↔ day ∈ set.toList .dayOfMonth ∨
      (31 ∈ set.toList .dayOfMonth ∧ day = monthLength) := by
  have hcontains : set.contains day = true ↔ day ∈ set.toList .dayOfMonth := h.contains_iff_mem hday
  cases h.shaped with
  | every => exact iff_of_true rfl (.inl (hcontains.mp rfl))
  | dense hne => exact absurd rfl hne
  | years hyear => exact nomatch hyear
  | @monthDays days _ _ hlast =>
    show (days.days.contains day || (days.lastDay && day == monthLength)) = true ↔ _
    rw [Bool.or_eq_true, Bool.and_eq_true, hlast, beq_iff_eq]
    exact or_congr_left hcontains

end ValueSet

end CronSchedule
