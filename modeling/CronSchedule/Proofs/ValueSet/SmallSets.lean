import CronSchedule.Proofs.ValueSet.Listing
import Mathlib.Data.List.Sort

/-!
# Small sets are finite sets

A small set can be made of any signed 32-bit numbers, unchecked, repeated and in any order. Those
that lie fewer than 64 above the base are its members, and nothing else can be seen of it.

* **Listing** (`DenseSet.toList_eq_iff_pairwise`): the list of a set is the one strictly ascending
  list with its members.
* **Size** (`DenseSet.toNat_cpop_bits`): the size is the number of ones in the word.
* **Extensionality** (`DenseSet.eq_iff_contains_eq`): sets with one base are equal when they
  contain the same numbers.
* `DenseSet.Keeps f values s` — the set has the members that a list has near the least value of a
  field: listed, contained, counted, and rebuilt from its list.

Main statement: **the set of a list keeps the members of the list, and sets of fields with the same
least value are equal when they contain the same numbers** (`DenseSet.ofList_keeps`).
-/

namespace CronSchedule

namespace DenseSet

/-- A set with the members of a list of numbers that lie fewer than 64 above the least value of a
field. -/
structure Keeps (f : Field) (values : List Int) (s : DenseSet) : Prop where
  /-- It is listed as the one strictly ascending list of these members. -/
  toList_eq_iff : ∀ members : List Int, s.toList = members ↔
    members.Pairwise (· < ·) ∧ ∀ v, v ∈ members ↔ v ∈ values ∧ 0 ≤ v - f.lo ∧ v - f.lo < 64
  /-- It contains a signed 32-bit number exactly when it lists it. -/
  contains_iff : ∀ v, -2147483648 ≤ v → v ≤ 2147483647 → (s.contains v = true ↔ v ∈ s.toList)
  /-- The ones of its word are as many as its members. -/
  toNat_cpop_bits : s.bits.cpop.toNat = s.toList.length
  /-- Its size is the number of its members. -/
  size_eq : s.size = s.toList.length
  /-- It is empty when its size is zero. -/
  isEmpty_iff : s.isEmpty = true ↔ s.size = 0
  /-- It is made again from its list. -/
  ofList_toList : ofList f.lo s.toList = s

/-! ### Listing -/

/-- A set is listed as any strictly ascending list with its members. -/
theorem toList_eq_iff_pairwise {s : DenseSet} {members : List Int} :
    s.toList = members ↔ members.Pairwise (· < ·) ∧ ∀ v, v ∈ members ↔ v ∈ s.toList := by
  constructor
  · rintro rfl
    exact ⟨pairwise_toList s, fun _ => Iff.rfl⟩
  · rintro ⟨hascending, hmem⟩
    exact (pairwise_toList s).eq_of_mem_iff hascending fun v => (hmem v).symm

/-! ### Size -/

/-- The ones among the lowest bits of a word, counted one by one. -/
theorem cpopNatRec_eq_countP {w : Nat} (x : BitVec w) (n : Nat) :
    x.cpopNatRec n 0 = (List.range n).countP fun k => x.getLsbD k := by
  induction n with
  | zero => rfl
  | succ n ih =>
    have hbit : (x.getLsbD n).toNat = [n].countP fun k => x.getLsbD k := by
      rw [List.countP_singleton]
      cases x.getLsbD n <;> rfl
    calc x.cpopNatRec (n + 1) 0
        = x.cpopNatRec n 0 + (x.getLsbD n).toNat := by
          rw [BitVec.cpopNatRec_succ, BitVec.cpopNatRec_eq, Nat.zero_add]
      _ = (List.range n ++ [n]).countP fun k => x.getLsbD k := by
          rw [ih, hbit, List.countP_append]
      _ = (List.range (n + 1)).countP fun k => x.getLsbD k := by rw [List.range_succ]

/-- **The size of a set is the number of ones in its word.** -/
theorem toNat_cpop_bits (s : DenseSet) : s.bits.cpop.toNat = s.size := by
  rw [BitVec.toNat_cpop, cpopNatRec_eq_countP, size]

/-- A set is empty when its size is zero. -/
theorem isEmpty_iff_size_eq_zero {s : DenseSet} : s.isEmpty = true ↔ s.size = 0 := by
  rw [isEmpty, beq_iff_eq, size, List.countP_eq_zero]
  constructor
  · intro hbits k _
    rw [hbits, BitVec.getLsbD_zero]
    exact Bool.false_ne_true
  · intro hnone
    apply BitVec.eq_of_getLsbD_eq
    intro k hk
    rw [BitVec.getLsbD_zero]
    exact Bool.eq_false_iff.mpr (hnone k (List.mem_range.mpr hk))

/-! ### Extensionality -/

/-- Sets with one base are equal when they are listed alike. -/
theorem eq_of_toList_eq {s t : DenseSet} (hbase : s.base = t.base) (h : s.toList = t.toList) :
    s = t :=
  calc s = ofList s.base s.toList := (ofList_toList s).symm
    _ = ofList t.base t.toList := by rw [hbase, h]
    _ = t := ofList_toList t

/-- **Sets with one base are equal when they contain the same signed 32-bit numbers.** -/
theorem eq_iff_contains_eq {s t : DenseSet} (hst : s.base = t.base)
    (hbase : -2147483648 ≤ s.base ∧ s.base ≤ 2147483584) :
    s = t ↔ ∀ v, -2147483648 ≤ v → v ≤ 2147483647 → s.contains v = t.contains v := by
  constructor
  · rintro rfl v - -
    rfl
  · intro h
    apply eq_of_toList_eq hst
    rw [toList_eq_iff_pairwise]
    refine ⟨pairwise_toList t, fun v => ?_⟩
    by_cases hv : -2147483648 ≤ v ∧ v ≤ 2147483647
    · rw [← contains_iff_mem_toList_of_word hbase hv,
        ← contains_iff_mem_toList_of_word (hst ▸ hbase) hv, h v hv.1 hv.2]
    · -- no member of either set lies outside the signed 32-bit numbers
      constructor
      · intro hmem
        have := bounds_of_mem_toList hmem
        omega
      · intro hmem
        have := bounds_of_mem_toList hmem
        omega

/-! ### Sets of fields -/

/-- **A small set is a finite set.** Made of any signed 32-bit numbers, it keeps those that lie fewer
than 64 above the least value of its field; and it is equal to the set of any other field with the
same least value that contains the same numbers. -/
theorem ofList_keeps (f : Field) {values : List Int}
    (hvalues : ∀ v ∈ values, -2147483648 ≤ v ∧ v ≤ 2147483647) :
    (ofList f.lo values).Keeps f values ∧
    ∀ (g : Field) (others : List Int), g.lo = f.lo →
      (ofList f.lo values = ofList g.lo others ↔
        ∀ v, -2147483648 ≤ v → v ≤ 2147483647 →
          (ofList f.lo values).contains v = (ofList g.lo others).contains v) := by
  have hlo := f.lo_bounds
  have hbase : -2147483648 ≤ (ofList f.lo values).base ∧
      (ofList f.lo values).base ≤ 2147483584 := by
    rwa [base_ofList]
  constructor
  · exact {
      toList_eq_iff := fun members => by
        rw [toList_eq_iff_pairwise]
        simp only [mem_toList_ofList_iff_of_word hlo hvalues]
      contains_iff := fun _ hmin hmax => contains_iff_mem_toList_of_word hbase ⟨hmin, hmax⟩
      toNat_cpop_bits := (toNat_cpop_bits _).trans (length_toList _).symm
      size_eq := (length_toList _).symm
      isEmpty_iff := isEmpty_iff_size_eq_zero
      ofList_toList := ofList_toList_ofList f.lo values }
  · intro g others hfg
    exact eq_iff_contains_eq (by rw [base_ofList, base_ofList, hfg]) hbase

/-- Months at the two ends of the word of bits, one of them repeated, the number behind its end, and
the least number, whose distance wraps around; beside them days of the month, which have the same
least value. -/
theorem ofList_keeps_at_ends_of_word :
    (∀ v ∈ ([64, 65, 1, 1, -2147483648] : List Int), -2147483648 ≤ v ∧ v ≤ 2147483647) ∧
    (ofList Field.month.lo [64, 65, 1, 1, -2147483648]).Keeps .month
      [64, 65, 1, 1, -2147483648] ∧
    (ofList Field.month.lo [64, 65, 1, 1, -2147483648]).toList = [1, 64] ∧
    ∀ v, -2147483648 ≤ v → v ≤ 2147483647 →
      (ofList Field.month.lo [64, 65, 1, 1, -2147483648]).contains v =
        (ofList Field.dayOfMonth.lo [1, 64]).contains v := by
  have hvalues : ∀ v ∈ ([64, 65, 1, 1, -2147483648] : List Int),
      -2147483648 ≤ v ∧ v ≤ 2147483647 := by decide
  obtain ⟨hkeeps, hequal⟩ := ofList_keeps .month hvalues
  refine ⟨hvalues, hkeeps, by decide, ?_⟩
  exact (hequal .dayOfMonth [1, 64] rfl).mp (by decide)

end DenseSet

end CronSchedule
