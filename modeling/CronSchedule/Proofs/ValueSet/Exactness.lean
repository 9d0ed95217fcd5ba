import CronSchedule.Proofs.Field.Selection
import CronSchedule.Proofs.ValueSet.Listing
import Mathlib.Data.List.Sort

/-!
# A compiled field is what was selected

A field is kept in one of three representations: a word of bits that counts from its least value,
such a word with a mark for the last day of the month, or an ascending list. Nothing is lost and
nothing is added in any of them.

* **Listing** (`toList_ofSelection_eq_mergeSort`): what is kept of values that repeat nothing is
  their sorted list.
* **Far numbers** (`DenseSet.contains_ofList_iff_of_word`): the distance of a signed 32-bit number
  from the least value may wrap around, but never into the word of bits.
* `ValueSet.Holds f values set` — a set that holds just the values of a list: listed, asked for a
  number, and asked for a day in a month of a given length.

Main statement: **compiling adds no refusal to selecting and takes none away, leaves unrestricted
what is selected as a whole, and holds what is listed** (`Field.compile_exact`).
-/

namespace CronSchedule

/-- A set that holds the values of a list for a field. -/
structure ValueSet.Holds (f : Field) (values : List Int) (set : ValueSet) : Prop where
  /-- Its members are the values, sorted. -/
  toList_eq : set.toList f = values.mergeSort (· ≤ ·)
  /-- It contains just the values, among the numbers whose distance fits in a signed 32-bit
  word. -/
  contains_iff : ∀ v, f.WithinReach v → (set.contains v = true ↔ v ∈ values)
  /-- Among signed 32-bit numbers, it contains as days the values and, for a day of the month with
  the 31st among the values, the last day of a month of any length. -/
  containsDay_iff : ∀ day monthLength : Int, -2147483648 ≤ day → day ≤ 2147483647 →
    (set.containsDay day monthLength = true ↔
      day ∈ values ∨ (f = .dayOfMonth ∧ 31 ∈ values ∧ day = monthLength))

section

variable {f : Field} {values : List Int}

/-! ### Listing -/

/-- **What is kept of values that repeat nothing is their sorted list.** -/
theorem toList_ofSelection_eq_mergeSort (hvalues : ∀ v ∈ values, f.lo ≤ v ∧ v ≤ f.hi)
    (hnodup : values.Nodup) :
    (ValueSet.ofSelection f (.listed values)).toList f = values.mergeSort (· ≤ ·) := by
  have hascending : ((ValueSet.ofSelection f (.listed values)).toList f).Pairwise (· < ·) :=
    pairwise_toList_ofSelection
  have hperm : ((ValueSet.ofSelection f (.listed values)).toList f).Perm
      (values.mergeSort (· ≤ ·)) := by
    refine List.Perm.trans ?_ (List.mergeSort_perm values _).symm
    apply (List.perm_ext_iff_of_nodup (hascending.imp Int.ne_of_lt) hnodup).mpr
    exact fun v => mem_toList_ofSelection_iff hvalues
  exact hperm.eq_of_pairwise' (hascending.imp Int.le_of_lt) (List.pairwise_mergeSort' _ values)

/-! ### Far numbers -/

/-- **The small set of values in the bound of a field contains just those values** among all signed
32-bit numbers. -/
theorem DenseSet.contains_ofList_iff_of_word (hf : f ≠ .year)
    (hvalues : ∀ v ∈ values, f.lo ≤ v ∧ v ≤ f.hi) {v : Int}
    (hv : -2147483648 ≤ v ∧ v ≤ 2147483647) :
    (ofList f.lo values).contains v = true ↔ v ∈ values := by
  have hbase : -2147483648 ≤ (ofList f.lo values).base ∧
      (ofList f.lo values).base ≤ 2147483584 := by
    rw [base_ofList]
    exact f.lo_bounds
  rw [contains_iff_mem_toList_of_word hbase hv, mem_toList_ofList_iff hf hvalues]

/-! ### Days -/

/-- A compiled selection of values in the bound contains as days the values, and the last day of a
month where the 31st of the month is one of them. -/
theorem containsDay_ofSelection_iff_of_word (hvalues : ∀ v ∈ values, f.lo ≤ v ∧ v ≤ f.hi)
    {day monthLength : Int} (hday : -2147483648 ≤ day ∧ day ≤ 2147483647) :
    (ValueSet.ofSelection f (.listed values)).containsDay day monthLength = true ↔
      day ∈ values ∨ (f = .dayOfMonth ∧ 31 ∈ values ∧ day = monthLength) := by
  cases f with
  | dayOfMonth =>
    have hdays := DenseSet.contains_ofList_iff_of_word (f := .dayOfMonth) (by decide) hvalues hday
    simp only [true_and]
    exact MonthDays.containsIn_ofList_iff_of_days hdays monthLength
  | year =>
    simp only [reduceCtorEq, false_and, or_false]
    exact YearSet.contains_ofList values day
  | _ =>
    simp only [reduceCtorEq, false_and, or_false]
    exact DenseSet.contains_ofList_iff_of_word (by decide) hvalues hday

end

/-! ### Compiling -/

namespace Field

variable {f : Field} {text : Fragment}

/-- What the text of a field lists is compiled to a set that holds it. -/
theorem holds_of_select {values : List Int} (h : f.select text = .ok (.listed values)) :
    (ValueSet.ofSelection f (.listed values)).Holds f values where
  toList_eq := toList_ofSelection_eq_mergeSort (bounds_of_select h) (nodup_of_select h)
  contains_iff _ hv := contains_ofSelection_iff (inBound_of_select h) fun _ => hv
  containsDay_iff _ _ hlo hhi := containsDay_ofSelection_iff_of_word (bounds_of_select h) ⟨hlo, hhi⟩

/-- **A compiled field is what was selected.** A text is refused as a field when nothing is selected
by it, for the same cause; it compiles to the unrestricted field when it selects the whole of it;
and when it lists values, it compiles to a set that holds them. -/
theorem compile_exact (f : Field) (text : Fragment) :
    (∀ e, f.compile text = .error e ↔ f.select text = .error e) ∧
    (f.compile text = .ok .every ↔ f.select text = .ok .whole) ∧
    ∀ values, f.select text = .ok (.listed values) →
      ∃ set, f.compile text = .ok set ∧ set.Holds f values := by
  refine ⟨fun e => map_eq_error_iff, ?_, ?_⟩
  · simp only [compile_eq_ok_iff, ValueSet.ofSelection_eq_every_iff]
    constructor
    · rintro ⟨s, hs, rfl⟩
      exact hs
    · intro h
      exact ⟨.whole, h, rfl⟩
  · intro values h
    exact ⟨_, compile_eq_ok_iff.mpr ⟨_, h, rfl⟩, holds_of_select h⟩

/-- The last day of the month, two days before it and the middle of the month, in the order in which
they are first mentioned, and years further apart than a word has bits. -/
theorem compile_exact_at_last_days :
    (Field.dayOfMonth.select "L,-2,15,31".toList = .ok (.listed [31, 29, 15]) ∧
      ∃ set, Field.dayOfMonth.compile "L,-2,15,31".toList = .ok set ∧
        set.Holds .dayOfMonth [31, 29, 15]) ∧
    (Field.year.select "2099-1970/43".toList = .ok (.listed [2099, 1970]) ∧
      ∃ set, Field.year.compile "2099-1970/43".toList = .ok set ∧
        set.Holds .year [2099, 1970]) := by
  have hdays : Field.dayOfMonth.select "L,-2,15,31".toList = .ok (.listed [31, 29, 15]) := by
    decide +kernel
  have hyears : Field.year.select "2099-1970/43".toList = .ok (.listed [2099, 1970]) := by
    decide +kernel
  exact ⟨⟨hdays, (compile_exact _ _).2.2 _ hdays⟩, hyears, (compile_exact _ _).2.2 _ hyears⟩

end Field

end CronSchedule
