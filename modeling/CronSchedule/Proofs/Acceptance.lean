import CronSchedule.Field
import Mathlib.Data.List.Forall2
import Mathlib.Tactic.Choose

/-!
# When a composed check accepts

A reading is put together from smaller ones: one after the other, one for each member of a list,
one for each field. This file says when the whole accepts, in terms of the parts.

* **One after the other** (`bind_eq_ok_iff`, `map_eq_ok_iff`), and when it refuses
  (`bind_eq_error_iff`, `map_eq_error_iff`); renaming refusals (`mapError_bind`).
* **A list** (`mapM_eq_ok_iff`, `exists_mapM_eq_ok_iff`): a list is accepted exactly when its
  members are, one by one, and its results are those of its members (`exists_mem_iff_of_forall₂`),
  in front of each of them and behind it (`forall₂_append_cons_iff`); otherwise it is refused for
  the first member that is (`mapM_eq_error_iff`).
* **A row of fields**: stopping at the first refusal and gathering all refusals accept the same
  rows with the same results (`traverse_eq_ok_iff`, `collect_eq_ok_iff`); a row that is refused is
  refused at first with the first of all refusals (`traverse_eq_error_iff`,
  `collect_eq_error_iff`).
-/

namespace CronSchedule

variable {α β ε : Type}

/-! ### One after the other -/

/-- A first step followed by a second accepts when both do. -/
theorem bind_eq_ok_iff {x : Except ε α} {k : α → Except ε β} {b : β} :
    (x >>= k) = .ok b ↔ ∃ a, x = .ok a ∧ k a = .ok b := by
  cases x with
  | error e => simp [bind, Except.bind]
  | ok a => simp [bind, Except.bind]

/-- A first step followed by a second refuses when the first does, or the second after it. -/
theorem bind_eq_error_iff {x : Except ε α} {k : α → Except ε β} {e : ε} :
    (x >>= k) = .error e ↔ x = .error e ∨ ∃ a, x = .ok a ∧ k a = .error e := by
  cases x with
  | error e' => simp [bind, Except.bind]
  | ok a => simp [bind, Except.bind]

/-- A result that is changed afterwards is accepted when it was before. -/
theorem map_eq_ok_iff {x : Except ε α} {g : α → β} {b : β} :
    (g <$> x) = .ok b ↔ ∃ a, x = .ok a ∧ g a = b := by
  cases x with
  | error e => simp [Functor.map, Except.map]
  | ok a => simp [Functor.map, Except.map]

/-- Changing a result afterwards has no part in whether there is one. -/
theorem exists_map_eq_ok_iff {x : Except ε α} {g : α → β} :
    (∃ b, (g <$> x) = .ok b) ↔ ∃ a, x = .ok a := by
  simp only [map_eq_ok_iff]
  constructor
  · rintro ⟨-, a, ha, -⟩
    exact ⟨a, ha⟩
  · rintro ⟨a, ha⟩
    exact ⟨g a, a, ha, rfl⟩

/-- A result that is changed afterwards is refused when it was before, and for the same cause. -/
theorem map_eq_error_iff {x : Except ε α} {g : α → β} {e : ε} :
    (g <$> x) = .error e ↔ x = .error e := by
  cases x with
  | error e' => simp [Functor.map, Except.map]
  | ok a => simp [Functor.map, Except.map]

/-- Refusals of two steps are renamed step by step. -/
theorem mapError_bind {ε' : Type} (rename : ε → ε') (x : Except ε α) (k : α → Except ε β) :
    (x >>= k).mapError rename = x.mapError rename >>= fun a => (k a).mapError rename := by
  cases x with
  | error e => rfl
  | ok a => rfl

/-! ### A list -/

/-- A list is accepted exactly when its members are, one by one. -/
theorem mapM_eq_ok_iff {check : α → Except ε β} {xs : List α} {ys : List β} :
    xs.mapM check = .ok ys ↔ List.Forall₂ (fun x y => check x = .ok y) xs ys := by
  induction xs generalizing ys with
  | nil => simp [pure, Except.pure, eq_comm]
  | cons x xs ih =>
    rw [List.mapM_cons, bind_eq_ok_iff, List.forall₂_cons_left_iff]
    constructor
    · rintro ⟨y, hy, h⟩
      obtain ⟨rest, hrest, h⟩ := bind_eq_ok_iff.mp h
      cases h
      exact ⟨y, rest, hy, ih.mp hrest, rfl⟩
    · rintro ⟨y, rest, hy, hrest, rfl⟩
      exact ⟨y, hy, bind_eq_ok_iff.mpr ⟨rest, ih.mpr hrest, rfl⟩⟩

/-- Some results are found for a list exactly when each member is accepted. -/
theorem exists_mapM_eq_ok_iff {check : α → Except ε β} {xs : List α} :
    (∃ ys, xs.mapM check = .ok ys) ↔ ∀ x ∈ xs, ∃ y, check x = .ok y := by
  simp only [mapM_eq_ok_iff]
  induction xs with
  | nil => simp
  | cons x xs ih =>
    rw [List.forall_mem_cons, ← ih]
    simp only [List.forall₂_cons_left_iff]
    constructor
    · rintro ⟨-, y, ys, hy, hys, rfl⟩
      exact ⟨⟨y, hy⟩, ys, hys⟩
    · rintro ⟨⟨y, hy⟩, ys, hys⟩
      exact ⟨y :: ys, y, ys, hy, hys, rfl⟩

/-- A list is refused for what the first of its members is refused for that is refused. -/
theorem mapM_eq_error_iff {check : α → Except ε β} {xs : List α} {e : ε} :
    xs.mapM check = .error e ↔ ∃ front x back, xs = front ++ x :: back ∧
      (∀ y ∈ front, ∃ b, check y = .ok b) ∧ check x = .error e := by
  induction xs with
  | nil => simp [pure, Except.pure]
  | cons x xs ih =>
    rw [List.mapM_cons, bind_eq_error_iff]
    constructor
    · rintro (hx | ⟨b, hb, h⟩)
      · exact ⟨[], x, xs, rfl, List.forall_mem_nil _, hx⟩
      · rcases bind_eq_error_iff.mp h with h | ⟨bs, -, h⟩
        · obtain ⟨front, y, back, rfl, hfront, hy⟩ := ih.mp h
          exact ⟨x :: front, y, back, rfl, List.forall_mem_cons.mpr ⟨⟨b, hb⟩, hfront⟩, hy⟩
        · exact nomatch h
    · rintro ⟨front, y, back, hxs, hfront, hy⟩
      cases front with
      | nil =>
        cases hxs
        exact .inl hy
      | cons z front =>
        cases hxs
        obtain ⟨⟨b, hb⟩, hfront⟩ := List.forall_mem_cons.mp hfront
        refine .inr ⟨b, hb, bind_eq_error_iff.mpr (.inl ?_)⟩
        exact ih.mpr ⟨front, y, back, rfl, hfront, hy⟩

/-- Where a list is accepted, some result has a property exactly when some member is accepted with
a result that has it. -/
theorem exists_mem_iff_of_forall₂ {check : α → Except ε β} {xs : List α} {ys : List β}
    (h : List.Forall₂ (fun x y => check x = .ok y) xs ys) {P : β → Prop} :
    (∃ y ∈ ys, P y) ↔ ∃ x ∈ xs, ∃ y, check x = .ok y ∧ P y := by
  induction h with
  | nil => simp
  | @cons x y xs ys hxy _ ih =>
    rw [List.exists_mem_cons_iff, List.exists_mem_cons_iff, ih]
    refine or_congr_left ⟨fun hy => ⟨y, hxy, hy⟩, ?_⟩
    rintro ⟨z, hz, hP⟩
    rw [hxy] at hz
    cases hz
    exact hP

/-- Lists are related one by one, one of them split around a member, exactly when the other is split
alike. -/
theorem forall₂_append_cons_iff {R : α → β → Prop} {front back : List α} {x : α} {ys : List β} :
    List.Forall₂ R (front ++ x :: back) ys ↔ ∃ front' y back', ys = front' ++ y :: back' ∧
      List.Forall₂ R front front' ∧ R x y ∧ List.Forall₂ R back back' := by
  constructor
  · intro h
    induction front generalizing ys with
    | nil =>
      obtain ⟨y, back', hxy, hback, rfl⟩ := List.forall₂_cons_left_iff.mp h
      exact ⟨[], y, back', rfl, .nil, hxy, hback⟩
    | cons z front ih =>
      obtain ⟨z', rest, hz, hrest, rfl⟩ := List.forall₂_cons_left_iff.mp h
      obtain ⟨front', y, back', rfl, hfront, hxy, hback⟩ := ih hrest
      exact ⟨z' :: front', y, back', rfl, .cons hz hfront, hxy, hback⟩
  · rintro ⟨front', y, back', rfl, hfront, hxy, hback⟩
    exact List.rel_append hfront (.cons hxy hback)

/-! ### A row of fields -/

/-- A statement about every field is seven statements. -/
theorem Field.forall_iff {P : Field → Prop} :
    (∀ f, P f) ↔ P .second ∧ P .minute ∧ P .hour ∧ P .dayOfMonth ∧ P .month ∧ P .dayOfWeek ∧
      P .year := by
  constructor
  · exact fun h => ⟨h _, h _, h _, h _, h _, h _, h _⟩
  · rintro ⟨h₀, h₁, h₂, h₃, h₄, h₅, h₆⟩ f
    cases f <;> assumption

namespace PerField

variable {check : Field → α → Except ε β} {row : PerField α}

/-- The check that stops at the first refusal accepts a row when every field is accepted. -/
theorem traverse_eq_ok_iff {out : PerField β} :
    row.traverse check = .ok out ↔ ∀ f, check f (row.get f) = .ok (out.get f) := by
  obtain ⟨second, minute, hour, dayOfMonth, month, dayOfWeek, year⟩ := out
  simp only [traverse, bind_eq_ok_iff, Field.forall_iff, get, pure, Except.pure, Except.ok.injEq,
    PerField.mk.injEq]
  constructor
  · rintro ⟨_, h₀, _, h₁, _, h₂, _, h₃, _, h₄, _, h₅, _, h₆, rfl, rfl, rfl, rfl, rfl, rfl, rfl⟩
    exact ⟨h₀, h₁, h₂, h₃, h₄, h₅, h₆⟩
  · rintro ⟨h₀, h₁, h₂, h₃, h₄, h₅, h₆⟩
    exact ⟨_, h₀, _, h₁, _, h₂, _, h₃, _, h₄, _, h₅, _, h₆, rfl, rfl, rfl, rfl, rfl, rfl, rfl⟩

/-- The check that gathers refusals accepts a row when every field is accepted. -/
theorem collect_eq_ok_iff {out : PerField β} :
    row.collect check = .ok out ↔ ∀ f, check f (row.get f) = .ok (out.get f) := by
  rw [collect, Field.forall_iff]
  split
  · next h₀ h₁ h₂ h₃ h₄ h₅ h₆ =>
    obtain ⟨second, minute, hour, dayOfMonth, month, dayOfWeek, year⟩ := out
    simp [get, h₀, h₁, h₂, h₃, h₄, h₅, h₆]
  · next hnone =>
    simp only [reduceCtorEq, false_iff]
    rintro ⟨h₀, h₁, h₂, h₃, h₄, h₅, h₆⟩
    exact hnone _ _ _ _ _ _ _ h₀ h₁ h₂ h₃ h₄ h₅ h₆

/-- A field stands among the refusals with the reason for which the check refuses it. -/
theorem mem_refusals_iff {f : Field} {cause : ε} :
    (f, cause) ∈ row.refusals check ↔ check f (row.get f) = .error cause := by
  rw [refusals, List.mem_filterMap]
  constructor
  · rintro ⟨g, -, hg⟩
    split at hg
    · exact nomatch hg
    · next hcause =>
      cases hg
      exact hcause
  · intro h
    exact ⟨f, f.mem_all, by rw [h]⟩

/-- There is no refusal exactly when every field is accepted. -/
theorem refusals_eq_nil_iff :
    row.refusals check = [] ↔ ∃ out : PerField β, ∀ f, check f (row.get f) = .ok (out.get f) := by
  constructor
  · intro hnil
    have haccepted : ∀ f, ∃ b, check f (row.get f) = .ok b := by
      intro f
      cases hcheck : check f (row.get f) with
      | ok b => exact ⟨b, rfl⟩
      | error cause =>
        have hmem := mem_refusals_iff.mpr hcheck
        rw [hnil] at hmem
        exact absurd hmem List.not_mem_nil
    choose result hresult using haccepted
    exact ⟨ofFn result, fun f => by rw [get_ofFn, hresult]⟩
  · rintro ⟨out, hout⟩
    rw [List.eq_nil_iff_forall_not_mem]
    rintro ⟨f, cause⟩ hmem
    have hcause := mem_refusals_iff.mp hmem
    rw [hout f] at hcause
    exact nomatch hcause

/-- A row that is refused is refused with all refusals, and there is at least one. -/
theorem collect_eq_error_iff {causes : List (Field × ε)} :
    row.collect check = .error causes ↔ causes = row.refusals check ∧ causes ≠ [] := by
  cases hcollect : row.collect check with
  | ok out =>
    have hnil := refusals_eq_nil_iff.mpr ⟨out, collect_eq_ok_iff.mp hcollect⟩
    simp [hnil]
  | error causes' =>
    have hcauses : causes' = row.refusals check := by
      unfold collect at hcollect
      split at hcollect
      · exact nomatch hcollect
      · cases hcollect
        rfl
    have hne : causes' ≠ [] := by
      intro hnil
      obtain ⟨out, hout⟩ := refusals_eq_nil_iff.mp (hcauses ▸ hnil)
      rw [collect_eq_ok_iff.mpr hout] at hcollect
      exact nomatch hcollect
    constructor
    · intro h
      cases h
      exact ⟨hcauses, hne⟩
    · rintro ⟨rfl, -⟩
      rw [hcauses]

/-- The check that stops at the first refusal reports the first of all refusals. -/
theorem traverse_eq_error_iff {cause : ε} :
    row.traverse check = .error cause ↔ ∃ f rest, row.refusals check = (f, cause) :: rest := by
  simp only [traverse, refusals, Field.all, List.filterMap_cons, get]
  -- field by field: a refusal here is the first of all, and after an acceptance the next decides
  rcases check .second row.second with _ | _
  · simp [bind, Except.bind]
  rcases check .minute row.minute with _ | _
  · simp [bind, Except.bind]
  rcases check .hour row.hour with _ | _
  · simp [bind, Except.bind]
  rcases check .dayOfMonth row.dayOfMonth with _ | _
  · simp [bind, Except.bind]
  rcases check .month row.month with _ | _
  · simp [bind, Except.bind]
  rcases check .dayOfWeek row.dayOfWeek with _ | _
  · simp [bind, Except.bind]
  rcases check .year row.year with _ | _
  · simp [bind, Except.bind]
  simp [bind, Except.bind, pure, Except.pure]

end PerField

end CronSchedule
