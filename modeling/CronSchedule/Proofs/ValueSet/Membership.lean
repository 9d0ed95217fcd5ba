import CronSchedule.Proofs.Acceptance
import CronSchedule.ValueSet

/-!
# Membership in compiled sets

* `Selection.Admits s v` — a selection admits a number: any number where the whole field is
  selected, and otherwise a listed one.
* `Field.WithinReach f v` — the distance of a number from the least value of a field fits in a
  signed 32-bit word, so that it does not wrap around.
* **Wrapping** (`DenseSet.offset_eq_natCast_iff`): where the distance of a signed 32-bit number wraps
  around, it is no place in the word of bits.

Main statements: for a selection of values in the bound of its field, the compiled set contains a
number within reach exactly when the selection admits it (`contains_ofSelection_iff`), and contains
a day in a month of a given length when the selection admits the day, or admits the 31st and the day
is the last of the month (`containsDay_ofSelection_iff`).
-/

namespace CronSchedule

/-- Whether a selection admits a number. -/
def Selection.Admits : Selection → Int → Prop
  | whole, _ => True
  | listed values, v => v ∈ values

/-- Whether the distance of a number from the least value of a field fits in a signed 32-bit
word. -/
def Field.WithinReach (f : Field) (v : Int) : Prop :=
  -2147483648 ≤ v - f.lo ∧ v - f.lo < 2147483648

/-- The values that a selection lists lie in the bound of its field. -/
def Selection.InBound (f : Field) : Selection → Prop
  | whole => True
  | listed values => ∀ v ∈ values, f.lo ≤ v ∧ v ≤ f.hi

/-! ### Distances -/

/-- A distance that fits in the word is the difference. -/
theorem DenseSet.offset_eq_sub {base v : Int}
    (h : -2147483648 ≤ v - base ∧ v - base < 2147483648) : offset base v = v - base := by
  rw [offset, Int.bmod_eq_iff (by decide)]
  omega

/-- A number in the bits of a word stands at its distance from the base: a distance that wraps
around lands elsewhere, for the word ends below the greatest signed 32-bit number. -/
theorem DenseSet.offset_eq_natCast_iff {base v : Int} {k : Nat}
    (hbase : -2147483648 ≤ base ∧ base ≤ 2147483584) (hv : -2147483648 ≤ v ∧ v ≤ 2147483647)
    (hk : k < 64) : offset base v = (k : Int) ↔ base + (k : Int) = v := by
  rw [offset, Int.bmod_eq_iff (by decide)]
  constructor
  · rintro ⟨-, -, hdvd⟩
    omega
  · rintro rfl
    exact ⟨by omega, by omega, 0, by omega⟩

/-- The word of bits of a field ends far below the greatest signed 32-bit number. -/
theorem Field.lo_bounds (f : Field) : -2147483648 ≤ f.lo ∧ f.lo ≤ 2147483584 := by
  cases f <;> decide

/-- Values in the bound of a field are signed 32-bit numbers. -/
theorem Field.word_of_bounds {f : Field} {v : Int} (h : f.lo ≤ v ∧ v ≤ f.hi) :
    -2147483648 ≤ v ∧ v ≤ 2147483647 := by
  have hlo := f.lo_bounds
  have hhi : f.hi ≤ 2147483647 := by cases f <;> decide
  omega

/-- Values in the bound of a field are within its reach. -/
theorem Field.withinReach_of_bounds {f : Field} {v : Int} (h : f.lo ≤ v ∧ v ≤ f.hi) :
    f.WithinReach v := by
  have hwidth : f.hi - f.lo < 2147483648 := by cases f <;> decide
  unfold WithinReach
  omega

/-- The values of every field but the year lie fewer than 64 apart. -/
theorem Field.sub_lo_lt {f : Field} (hf : f ≠ .year) {v : Int} (h : v ≤ f.hi) :
    v - f.lo < 64 := by
  have hwidth : f.hi - f.lo < 64 := by
    cases f with
    | year => exact absurd rfl hf
    | _ => decide
  omega

/-! ### Sets of values in the bound -/

section

variable {f : Field} {values : List Int}

/-- The small set of values in the bound of a field contains just those values. -/
theorem DenseSet.contains_ofList_iff (hf : f ≠ .year)
    (hvalues : ∀ v ∈ values, f.lo ≤ v ∧ v ≤ f.hi) {v : Int} (hv : f.WithinReach v) :
    (DenseSet.ofList f.lo values).contains v = true ↔ v ∈ values := by
  rw [contains_ofList, offset_eq_sub hv]
  have hoffset : ∀ w ∈ values, offset f.lo w = w - f.lo := fun w hw =>
    offset_eq_sub (Field.withinReach_of_bounds (hvalues w hw))
  constructor
  · rintro ⟨-, w, hw, heq⟩
    rw [hoffset w hw] at heq
    have hwv : w = v := by omega
    exact hwv ▸ hw
  · intro hmem
    have hbounds := hvalues v hmem
    have hwidth := Field.sub_lo_lt hf hbounds.2
    exact ⟨by omega, v, hmem, hoffset v hmem⟩

/-- Where the small set of a list contains a day exactly when it is in the list, the days of the
month of the list contain it, and with the 31st the last day of a month. -/
theorem MonthDays.containsIn_ofList_iff_of_days {day : Int}
    (hdays : (DenseSet.ofList Field.dayOfMonth.lo values).contains day = true ↔ day ∈ values)
    (monthLength : Int) :
    (MonthDays.ofList values).containsIn day monthLength = true ↔
      day ∈ values ∨ (31 ∈ values ∧ day = monthLength) := by
  have hlast : values.contains Field.dayOfMonth.hi = true ↔ 31 ∈ values := List.contains_iff_mem
  rw [containsIn, ofList, Bool.or_eq_true, hdays, Bool.and_eq_true, hlast, beq_iff_eq]

/-- The days of the month of values in the bound contain those days, and with the 31st the last day
of a month. -/
theorem MonthDays.containsIn_ofList_iff
    (hvalues : ∀ v ∈ values, Field.dayOfMonth.lo ≤ v ∧ v ≤ Field.dayOfMonth.hi) {day : Int}
    (hday : Field.dayOfMonth.WithinReach day) {monthLength : Int} :
    (MonthDays.ofList values).containsIn day monthLength = true ↔
      day ∈ values ∨ (31 ∈ values ∧ day = monthLength) :=
  containsIn_ofList_iff_of_days (DenseSet.contains_ofList_iff (by decide) hvalues hday) monthLength

end

/-! ### Compiled selections -/

/-- A field's text is compiled exactly when it is selected, to the set of what is selected. -/
theorem Field.compile_eq_ok_iff {f : Field} {text : Fragment} {set : ValueSet} :
    f.compile text = .ok set ↔ ∃ s, f.select text = .ok s ∧ ValueSet.ofSelection f s = set := by
  rw [compile, map_eq_ok_iff]

/-- **A compiled selection contains what the selection admits.** Years are kept as they are, so for
them every number is within reach. -/
theorem contains_ofSelection_iff {f : Field} {s : Selection} (hs : s.InBound f) {v : Int}
    (hv : f ≠ .year → f.WithinReach v) :
    (ValueSet.ofSelection f s).contains v = true ↔ s.Admits v := by
  cases s with
  | whole => simp [ValueSet.ofSelection, ValueSet.contains, Selection.Admits]
  | listed values =>
    cases f with
    | year => exact YearSet.contains_ofList values v
    | _ => exact DenseSet.contains_ofList_iff (by decide) hs (hv (by decide))

/-- **A compiled day of the month contains the days that the selection admits**, and the last day of
a month where it admits the 31st. -/
theorem containsDay_ofSelection_iff {s : Selection} (hs : s.InBound .dayOfMonth) {day : Int}
    (hday : Field.dayOfMonth.WithinReach day) {monthLength : Int} :
    (ValueSet.ofSelection .dayOfMonth s).containsDay day monthLength = true ↔
      s.Admits day ∨ (s.Admits 31 ∧ day = monthLength) := by
  cases s with
  | whole => simp [ValueSet.ofSelection, ValueSet.containsDay, ValueSet.contains, Selection.Admits]
  | listed values => exact MonthDays.containsIn_ofList_iff hs hday

end CronSchedule
