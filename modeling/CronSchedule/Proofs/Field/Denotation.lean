import CronSchedule.Field.Value
import CronSchedule.Proofs.Acceptance
import CronSchedule.Proofs.Field.Names

/-!
# The number a word denotes

* `Field.Denotes f word v` — the number a word denotes in a field, before it is held against the
  bound: a literal that is not negative denotes itself, with day 7 of the week as day 0, a negative
  one counts down from the greatest value, and a name denotes its value.
* `Field.HasValue f text v` — the number lies in the bound; **a value is read exactly from such a
  text** (`readValue_eq_ok_iff`).
* `Field.HasStart f text start` — the number is at most the greatest value, and is raised to the
  least one where it lies below; **a start is read exactly from such a text**
  (`readStart_eq_ok_iff`).
-/

namespace CronSchedule.Field

/-- The number a word denotes in a field. -/
inductive Denotes (f : Field) (word : Fragment) : Int → Prop
  /-- A literal that is not negative denotes itself; day 7 of the week is day 0. -/
  | literal {raw : Int} : readInteger? word = some raw → 0 ≤ raw → Denotes f word (f.fold raw)
  /-- A negative literal counts down from the greatest value. -/
  | fromLast {raw : Int} : readInteger? word = some raw → raw < 0 → Denotes f word (f.hi + raw)
  /-- A name denotes its value. -/
  | name {v : Int} : f.Names word v → Denotes f word v

/-! ### Values of literals and names -/

/-- A number below the greatest value is no day 7. -/
theorem fold_of_le_hi {f : Field} {v : Int} (h : v ≤ f.hi) : f.fold v = v := by
  rw [fold, if_neg]
  rintro ⟨rfl, rfl⟩
  exact absurd h (by decide)

/-- A value is accepted when it lies in the bound after folding. -/
theorem checkValue_eq_ok_iff {f : Field} {value v : Int} :
    f.checkValue value = .ok v ↔ v = f.fold value ∧ f.lo ≤ v ∧ v ≤ f.hi := by
  simp only [checkValue]
  split
  · next hout =>
    constructor
    · intro h
      simp at h
    · rintro ⟨rfl, hlo, hhi⟩
      omega
  · next hin =>
    constructor
    · intro h
      cases h
      omega
    · rintro ⟨rfl, -⟩
      rfl

/-- The start of a literal or a name is accepted when it is at most the greatest value. -/
theorem resolveStart_eq_ok_iff {f : Field} {raw v : Int} :
    f.resolveStart raw = .ok v ↔
      ∃ w, w = (if raw < 0 then f.hi + raw else f.fold raw) ∧ w ≤ f.hi ∧ v = max w f.lo := by
  rw [resolveStart, Int.add_comm raw]
  generalize (if raw < 0 then f.hi + raw else f.fold raw) = w
  split
  · next hout =>
    constructor
    · intro h
      simp at h
    · rintro ⟨_, rfl, hle, -⟩
      omega
  · next hin =>
    constructor
    · intro h
      cases h
      exact ⟨w, rfl, by omega, rfl⟩
    · rintro ⟨_, rfl, -, rfl⟩
      rfl

/-- The empty word denotes nothing. -/
theorem Denotes.ne_nil {f : Field} {word : Fragment} {v : Int} (h : f.Denotes word v) :
    word ≠ [] := by
  rintro rfl
  cases h with
  | literal hraw => exact nomatch hraw
  | fromLast hraw => exact nomatch hraw
  | name hname =>
    rw [← resolveAlias_eq_ok_iff] at hname
    cases f <;> exact nomatch hname

/-- What a literal denotes. -/
theorem denotes_iff_of_readInteger? {f : Field} {word : Fragment} {raw v : Int}
    (h : readInteger? word = some raw) :
    f.Denotes word v ↔ v = if raw < 0 then f.hi + raw else f.fold raw := by
  constructor
  · rintro (⟨hraw, hsign⟩ | ⟨hraw, hsign⟩ | hname)
    · rw [h] at hraw
      cases hraw
      rw [if_neg (by omega)]
    · rw [h] at hraw
      cases hraw
      rw [if_pos hsign]
    · rw [readInteger?_of_names hname] at h
      exact nomatch h
  · rintro rfl
    split
    · next hsign => exact .fromLast h hsign
    · next hsign => exact .literal h (by omega)

/-- What a word that is no literal denotes. -/
theorem denotes_iff_of_readInteger?_eq_none {f : Field} {word : Fragment} {v : Int}
    (h : readInteger? word = none) : f.Denotes word v ↔ f.Names word v := by
  constructor
  · rintro (⟨hraw, -⟩ | ⟨hraw, -⟩ | hname)
    · rw [h] at hraw
      exact nomatch hraw
    · rw [h] at hraw
      exact nomatch hraw
    · exact hname
  · exact .name

/-- A wildcard denotes no number. -/
theorem not_denotes_wildcard {f : Field} {word : Fragment} {v : Int}
    (hword : word = ['*'] ∨ word = ['?']) : ¬f.Denotes word v := by
  have hnone : readInteger? word = none := by rcases hword with rfl | rfl <;> decide
  rw [denotes_iff_of_readInteger?_eq_none hnone, ← resolveAlias_eq_ok_iff]
  intro h
  rcases hword with rfl | rfl <;> cases f <;> exact nomatch h

/-! ### Reading a word -/

/-- A text has a value when the number denoted without the blanks around it lies in the bound. -/
def HasValue (f : Field) (text : Fragment) (v : Int) : Prop :=
  f.Denotes (trim text) v ∧ f.lo ≤ v ∧ v ≤ f.hi

/-- A text has a start when the number denoted is at most the greatest value; a number below the
least value is raised to it. -/
def HasStart (f : Field) (text : Fragment) (start : Int) : Prop :=
  ∃ v, f.Denotes (trim text) v ∧ v ≤ f.hi ∧ start = max v f.lo

/-- A start lies in the bound. -/
theorem HasStart.bounds {f : Field} {text : Fragment} {start : Int} (h : f.HasStart text start) :
    f.lo ≤ start ∧ start ≤ f.hi := by
  obtain ⟨v, -, hle, rfl⟩ := h
  have := f.lo_le_hi
  omega

/-- **A value is read exactly from a text that has it.** -/
theorem readValue_eq_ok_iff {f : Field} {token text : Fragment} {v : Int} :
    f.readValue token text = .ok v ↔ f.HasValue text v := by
  simp only [readValue, HasValue]
  split
  · next hempty =>
    constructor
    · exact fun h => nomatch h
    · exact fun h => absurd hempty h.1.ne_nil
  · split
    · next raw hraw =>
      rw [denotes_iff_of_readInteger? hraw, resolveValue, checkValue_eq_ok_iff]
      split
      · next hsign => rw [fold_of_le_hi (by omega), Int.add_comm]
      · rfl
    · next hraw =>
      rw [denotes_iff_of_readInteger?_eq_none hraw, bind_eq_ok_iff]
      constructor
      · rintro ⟨w, hw, hv⟩
        have hbounds := resolveAlias_bounds hw
        obtain ⟨rfl, hin⟩ := checkValue_eq_ok_iff.mp hv
        rw [fold_of_le_hi hbounds.2] at hin ⊢
        exact ⟨resolveAlias_eq_ok_iff.mp hw, hin⟩
      · rintro ⟨hname, hin⟩
        exact ⟨v, resolveAlias_eq_ok_iff.mpr hname, checkValue_of_mem hin⟩

/-- A text has one value at most. -/
theorem HasValue.unique {f : Field} {text : Fragment} {v w : Int} (hv : f.HasValue text v)
    (hw : f.HasValue text w) : v = w := by
  have hread : f.readValue [] text = .ok v := readValue_eq_ok_iff.mpr hv
  rw [readValue_eq_ok_iff.mpr hw] at hread
  cases hread
  rfl

/-- A written `7` is day 0 of the week. -/
theorem HasValue.eq_zero_of_seven {text : Fragment} {v : Int} (hv : dayOfWeek.HasValue text v)
    (hseven : trim text = ['7']) : v = 0 := by
  have hdenotes := hv.1
  have hread : readInteger? ['7'] = some 7 := by decide
  rwa [hseven, denotes_iff_of_readInteger? hread] at hdenotes

/-- **A start is read exactly from a text that has it.** -/
theorem readStart_eq_ok_iff {f : Field} {token text : Fragment} {start : Int} :
    f.readStart token text = .ok start ↔ f.HasStart text start := by
  simp only [readStart, HasStart]
  split
  · next hempty =>
    constructor
    · exact fun h => nomatch h
    · rintro ⟨w, hw, -⟩
      exact absurd hempty hw.ne_nil
  · split
    · next raw hraw =>
      simp only [denotes_iff_of_readInteger? hraw, resolveStart_eq_ok_iff]
    · next hraw =>
      simp only [denotes_iff_of_readInteger?_eq_none hraw, bind_eq_ok_iff, resolveStart_eq_ok_iff]
      -- the value of a name is in the bound, so neither folding nor counting down touches it
      have hname_start : ∀ {w : Int}, f.Names (trim text) w →
          (if w < 0 then f.hi + w else f.fold w) = w := by
        intro w hw
        have hbounds := resolveAlias_bounds (resolveAlias_eq_ok_iff.mpr hw)
        have hlo : 0 ≤ f.lo := by cases f <;> decide
        rw [if_neg (by omega), fold_of_le_hi hbounds.2]
      constructor
      · rintro ⟨w, hw, _, rfl, hle, hstart⟩
        have hname := resolveAlias_eq_ok_iff.mp hw
        rw [hname_start hname] at hle hstart
        exact ⟨w, hname, hle, hstart⟩
      · rintro ⟨w, hname, hle, hstart⟩
        exact ⟨w, resolveAlias_eq_ok_iff.mpr hname, w, (hname_start hname).symm, hle, hstart⟩

end CronSchedule.Field
