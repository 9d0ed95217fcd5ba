import CronSchedule.Proofs.ValueSet.Membership

/-!
# Listing a compiled set

The members of a set are listed in ascending order, and the set of that list is the set again.

* **Small sets** (`DenseSet.mem_toList_iff`, `DenseSet.pairwise_toList`): the list of a set has the
  numbers of its bits, ascending; `DenseSet.ofList_toList` is the round trip, for every set. Of
  signed 32-bit numbers a set contains just those it lists
  (`DenseSet.contains_iff_mem_toList_of_word`), and the set of a list lists just those near its base
  (`DenseSet.mem_toList_ofList_iff_of_word`).
* **Years** (`YearSet.ofList_years`): a list that is ascending already is kept as it is.
* **Compiled selections**: of values in the bound of their field, the compiled set lists just those
  (`mem_toList_ofSelection_iff`), in ascending order (`pairwise_toList_ofSelection`), and is
  compiled again from its list (`ofSelection_toList`).
-/

namespace CronSchedule

/-! ### Small sets -/

namespace DenseSet

/-- The listed numbers are those at the bits of the set. -/
theorem mem_toList_iff {s : DenseSet} {v : Int} :
    v ∈ s.toList ↔ ∃ k : Nat, k < 64 ∧ s.bits.getLsbD k = true ∧ s.base + (k : Int) = v := by
  rw [toList, List.mem_map]
  simp only [List.mem_filter, List.mem_range, and_assoc]

/-- A small set is listed in ascending order. -/
theorem pairwise_toList (s : DenseSet) : s.toList.Pairwise (· < ·) := by
  rw [toList, List.pairwise_map]
  refine List.Pairwise.imp ?_ (List.pairwise_lt_range.filter _)
  intro k l hkl
  omega

/-- A listed number lies fewer than 64 above the base. -/
theorem bounds_of_mem_toList {s : DenseSet} {v : Int} (h : v ∈ s.toList) :
    s.base ≤ v ∧ v < s.base + 64 := by
  obtain ⟨k, hk, -, rfl⟩ := mem_toList_iff.mp h
  omega

/-- A set contains the numbers whose distance from the base is the place of a bit that is set. -/
theorem contains_iff_exists_getLsbD {s : DenseSet} {v : Int} :
    s.contains v = true ↔
      ∃ k : Nat, k < 64 ∧ s.bits.getLsbD k = true ∧ offset s.base v = (k : Int) := by
  rw [contains, Bool.and_eq_true, decide_eq_true_eq]
  constructor
  · rintro ⟨hk, hbit⟩
    exact ⟨(offset s.base v).toNat, by omega, hbit, by omega⟩
  · rintro ⟨k, hk, hbit, hoffset⟩
    rw [hoffset, Int.toNat_natCast]
    exact ⟨by omega, hbit⟩

/-- A number whose distance fits in the word is contained exactly when it is listed. -/
theorem contains_iff_mem_toList {s : DenseSet} {v : Int}
    (hv : -2147483648 ≤ v - s.base ∧ v - s.base < 2147483648) :
    s.contains v = true ↔ v ∈ s.toList := by
  rw [contains_iff_exists_getLsbD, mem_toList_iff, offset_eq_sub hv]
  refine exists_congr fun k => and_congr_right fun _ => and_congr_right fun _ => ?_
  omega

/-- **A signed 32-bit number is contained exactly when it is listed**, also where its distance from
the base wraps around. -/
theorem contains_iff_mem_toList_of_word {s : DenseSet}
    (hbase : -2147483648 ≤ s.base ∧ s.base ≤ 2147483584) {v : Int}
    (hv : -2147483648 ≤ v ∧ v ≤ 2147483647) : s.contains v = true ↔ v ∈ s.toList := by
  rw [contains_iff_exists_getLsbD, mem_toList_iff]
  refine exists_congr fun k => and_congr_right fun hk => and_congr_right fun _ => ?_
  exact offset_eq_natCast_iff hbase hv hk

/-- **The set of the list of a small set is that set.** -/
theorem ofList_toList (s : DenseSet) : ofList s.base s.toList = s := by
  have hbits : (ofList s.base s.toList).bits = s.bits := by
    apply BitVec.eq_of_getLsbD_eq
    intro k hk
    rw [Bool.eq_iff_iff, getLsbD_ofList]
    -- a listed number stands at its own bit
    have hoffset : ∀ l : Nat, l < 64 → offset s.base (s.base + (l : Int)) = l := by
      intro l hl
      rw [offset_eq_sub (by omega)]
      omega
    constructor
    · rintro ⟨-, v, hv, hvk⟩
      obtain ⟨l, hl, hbit, rfl⟩ := mem_toList_iff.mp hv
      rw [hoffset l hl] at hvk
      have hlk : l = k := by omega
      exact hlk ▸ hbit
    · intro hbit
      exact ⟨hk, s.base + (k : Int), mem_toList_iff.mpr ⟨k, hk, hbit, rfl⟩, hoffset k hk⟩
  have hbase := base_ofList s.base s.toList
  cases s
  rw [DenseSet.mk.injEq] at *
  exact ⟨hbase, hbits⟩

/-- So is the set of the list of the set of a list. -/
theorem ofList_toList_ofList (base : Int) (values : List Int) :
    ofList base (ofList base values).toList = ofList base values := by
  have hround := ofList_toList (ofList base values)
  rwa [base_ofList] at hround

/-- **The set of a list lists the numbers of the list that lie fewer than 64 above the base.** -/
theorem mem_toList_ofList_iff_of_word {base : Int}
    (hbase : -2147483648 ≤ base ∧ base ≤ 2147483584) {values : List Int}
    (hvalues : ∀ v ∈ values, -2147483648 ≤ v ∧ v ≤ 2147483647) {v : Int} :
    v ∈ (ofList base values).toList ↔ v ∈ values ∧ 0 ≤ v - base ∧ v - base < 64 := by
  rw [mem_toList_iff, base_ofList]
  constructor
  · rintro ⟨k, hk, hbit, hplace⟩
    obtain ⟨-, w, hw, hoffset⟩ := getLsbD_ofList.mp hbit
    have hwv : w = v := by
      rw [← (offset_eq_natCast_iff hbase (hvalues w hw) hk).mp hoffset, hplace]
    subst hwv
    exact ⟨hw, by omega⟩
  · rintro ⟨hv, hnear⟩
    have hk : (v - base).toNat < 64 := by omega
    have hplace : base + ((v - base).toNat : Int) = v := by omega
    have hoffset := (offset_eq_natCast_iff hbase (hvalues v hv) hk).mpr hplace
    exact ⟨(v - base).toNat, hk, getLsbD_ofList.mpr ⟨hk, v, hv, hoffset⟩, hplace⟩

/-- The small set of values in the bound of a field lists just those values. -/
theorem mem_toList_ofList_iff {f : Field} (hf : f ≠ .year) {values : List Int}
    (hvalues : ∀ v ∈ values, f.lo ≤ v ∧ v ≤ f.hi) {v : Int} :
    v ∈ (ofList f.lo values).toList ↔ v ∈ values := by
  have hwords : ∀ v ∈ values, -2147483648 ≤ v ∧ v ≤ 2147483647 := fun v hv =>
    Field.word_of_bounds (hvalues v hv)
  rw [mem_toList_ofList_iff_of_word f.lo_bounds hwords]
  refine and_iff_left_of_imp fun hv => ?_
  have hbounds := hvalues v hv
  exact ⟨by omega, Field.sub_lo_lt hf hbounds.2⟩

end DenseSet

/-! ### Years -/

/-- A number below all others is added in front of them. -/
theorem insertAscending_eq_cons {v : Int} {values : List Int} (h : ∀ w ∈ values, v < w) :
    insertAscending v values = v :: values := by
  cases values with
  | nil => rfl
  | cons w values => rw [insertAscending, if_pos (h w List.mem_cons_self)]

/-- **The set of an ascending list of years lists them as they are.** -/
theorem YearSet.years_ofList {values : List Int} (h : values.Pairwise (· < ·)) :
    (ofList values).years = values := by
  induction values with
  | nil => rfl
  | cons v values ih =>
    obtain ⟨hv, hvalues⟩ := List.pairwise_cons.mp h
    show insertAscending v (ofList values).years = v :: values
    rw [ih hvalues]
    exact insertAscending_eq_cons hv

/-- The set of the list of a set of years is that set. -/
theorem YearSet.ofList_years (s : YearSet) : ofList s.years = s := by
  have hyears := years_ofList s.ascending
  cases s
  rw [YearSet.mk.injEq]
  exact hyears

/-! ### Compiled selections -/

section

variable {f : Field} {values : List Int}

/-- **A compiled selection lists the values of the selection.** -/
theorem mem_toList_ofSelection_iff (hvalues : ∀ v ∈ values, f.lo ≤ v ∧ v ≤ f.hi) {v : Int} :
    v ∈ (ValueSet.ofSelection f (.listed values)).toList f ↔ v ∈ values := by
  cases f with
  | year => exact List.contains_iff_mem.symm.trans (YearSet.contains_ofList values v)
  | _ => exact DenseSet.mem_toList_ofList_iff (by decide) hvalues

/-- A compiled selection lists its values in ascending order. -/
theorem pairwise_toList_ofSelection :
    ((ValueSet.ofSelection f (.listed values)).toList f).Pairwise (· < ·) := by
  cases f with
  | year => exact (YearSet.ofList values).ascending
  | _ => exact DenseSet.pairwise_toList _

/-- The days of the month of a list are those of the ascending list. -/
theorem MonthDays.ofList_toList
    (hvalues : ∀ v ∈ values, Field.dayOfMonth.lo ≤ v ∧ v ≤ Field.dayOfMonth.hi) :
    ofList (ofList values).toList = ofList values := by
  have hlast : (ofList values).toList.contains Field.dayOfMonth.hi =
      values.contains Field.dayOfMonth.hi := by
    rw [Bool.eq_iff_iff, List.contains_iff_mem, List.contains_iff_mem]
    exact DenseSet.mem_toList_ofList_iff (by decide) hvalues
  have hdays : DenseSet.ofList Field.dayOfMonth.lo (ofList values).toList =
      DenseSet.ofList Field.dayOfMonth.lo values :=
    DenseSet.ofList_toList_ofList _ values
  rw [ofList, hlast, hdays]
  rfl

/-- **A compiled selection is compiled again from the list of its values.** -/
theorem ofSelection_toList (hvalues : ∀ v ∈ values, f.lo ≤ v ∧ v ≤ f.hi) :
    ValueSet.ofSelection f (.listed ((ValueSet.ofSelection f (.listed values)).toList f)) =
      ValueSet.ofSelection f (.listed values) := by
  cases f with
  | year => exact congrArg ValueSet.years (YearSet.ofList_years _)
  | dayOfMonth => exact congrArg ValueSet.monthDays (MonthDays.ofList_toList hvalues)
  | _ => exact congrArg ValueSet.dense (DenseSet.ofList_toList_ofList _ values)

end

end CronSchedule
