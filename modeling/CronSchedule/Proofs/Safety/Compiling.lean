import CronSchedule.Proofs.Safety.Reading
import CronSchedule.Proofs.ValueSet.Fitting

/-!
# Compiling fields without faults

A small set is one word, and its bits are set, found and looked at by shifts. All of them stay in
the word: a number is a bit only after its distance from the base was found to be below 64.

* `Checked.insert`, `Checked.denseOfList` — the set of a list (`Checked.denseOfList_eq_ok`).
* `Checked.contains` — membership, of any number in any set (`Checked.contains_eq_ok`).
* `Checked.members`, `Checked.values` — the members of a set (`Checked.values_eq_ok`).

Main statement: **a field is compiled without faults** (`Checked.runs_compile`).
-/

namespace CronSchedule

namespace Checked

/-! ### Small sets -/

/-- A small set with a number added, if its bit is in the word. -/
def insert (s : DenseSet) (v : Int) : Except Fault DenseSet := do
  let k ← subHalf v s.base
  if 0 ≤ k ∧ k < 64 then
    let bit ← shift k
    return { s with bits := s.bits ||| bit }
  else return s

theorem insert_eq_ok {s : DenseSet} {v : Int}
    (h : -2147483648 ≤ v - s.base ∧ v - s.base ≤ 2147483647) : insert s v = .ok (s.insert v) := by
  have hoffset : DenseSet.offset s.base v = v - s.base := DenseSet.offset_eq_sub (by omega)
  rw [insert, bind_eq_ok (subHalf_eq_ok h), DenseSet.insert, hoffset]
  split
  · next hk =>
    rw [bind_eq_ok (shift_eq_ok hk)]
    rfl
  · rfl

theorem foldlM_insert_eq_ok {values : List Int} {s : DenseSet}
    (h : ∀ v ∈ values, -2147483648 ≤ v - s.base ∧ v - s.base ≤ 2147483647) :
    values.foldlM insert s = .ok (values.foldl DenseSet.insert s) := by
  induction values generalizing s with
  | nil => rfl
  | cons v values ih =>
    rw [List.foldlM_cons, bind_eq_ok (insert_eq_ok (h v List.mem_cons_self)), List.foldl_cons]
    refine ih fun w hw => ?_
    rw [DenseSet.base_insert]
    exact h w (List.mem_cons_of_mem v hw)

/-- The set of a list of values of a field, which must be a narrow one. -/
def denseOfList (f : Field) (values : List Int) : Except Fault DenseSet :=
  if f.span ≤ 64 then values.foldlM insert (DenseSet.empty f.lo) else .error .assertion

theorem denseOfList_eq_ok {f : Field} (hf : f ≠ .year) {values : List Int}
    (h : ∀ v ∈ values, f.lo ≤ v ∧ v ≤ f.hi) :
    denseOfList f values = .ok (DenseSet.ofList f.lo values) := by
  have hspan : f.span ≤ 64 := by
    cases f with
    | year => exact absurd rfl hf
    | _ => decide
  rw [denseOfList, if_pos hspan]
  refine foldlM_insert_eq_ok fun v hv => ?_
  show -2147483648 ≤ v - f.lo ∧ v - f.lo ≤ 2147483647
  have := Field.sub_lo_lt hf (h v hv).2
  have := h v hv
  omega

/-- A bit of a word is not set when nothing is left of the word there. -/
theorem and_twoPow_eq_zero_iff {bits : BitVec 64} {k : Nat} (hk : k < 64) :
    bits &&& BitVec.twoPow 64 k = 0#64 ↔ bits.getLsbD k = false := by
  rw [BitVec.and_twoPow]
  split
  · next hbit =>
    have hne : BitVec.twoPow 64 k ≠ 0#64 := by
      intro hzero
      have hbit' := congrArg (BitVec.getLsbD · k) hzero
      simp [hk] at hbit'
    simp [hne, hbit]
  · next hbit => simpa using hbit

/-- Whether a number is in a small set; the distance from the base may wrap around. -/
def contains (s : DenseSet) (v : Int) : Except Fault Bool := do
  let k := DenseSet.offset s.base v
  if 0 ≤ k ∧ k < 64 then
    let bit ← shift k
    return decide (s.bits &&& bit ≠ 0#64)
  else return false

/-- **Membership is decided without faults**, for any number and any set. -/
theorem contains_eq_ok (s : DenseSet) (v : Int) : contains s v = .ok (s.contains v) := by
  rw [contains, DenseSet.contains]
  split
  · next hk =>
    have hbit := @and_twoPow_eq_zero_iff s.bits (DenseSet.offset s.base v).toNat (by omega)
    rw [bind_eq_ok (shift_eq_ok hk), decide_eq_true hk, Bool.true_and]
    simp only [ne_eq, hbit]
    simp [pure, Except.pure]
  · next hk =>
    rw [decide_eq_false hk]
    rfl

/-- The members of a small set, ascending. -/
def members (s : DenseSet) : Except Fault (List Int) := do
  let found ← (List.range 64).mapM fun (k : Nat) => do
    let bit ← shift k
    if s.bits &&& bit = 0#64 then return none else return some (← addHalf k s.base)
  return found.filterMap id

theorem members_eq_ok {s : DenseSet} (h : 0 ≤ s.base ∧ s.base ≤ 2099) :
    members s = .ok s.toList := by
  have hfound : ∀ k ∈ List.range 64, (do
      let bit ← shift (k : Int)
      if s.bits &&& bit = 0#64 then return none else return some (← addHalf k s.base)) =
      (.ok (if s.bits.getLsbD k then some (s.base + k) else none) :
        Except Fault (Option Int)) := by
    intro k hk
    rw [List.mem_range] at hk
    rw [bind_eq_ok (shift_eq_ok (by omega)), Int.toNat_natCast]
    by_cases hbit : s.bits.getLsbD k = true
    · have hne : ¬s.bits &&& BitVec.twoPow 64 k = 0#64 := by
        rw [and_twoPow_eq_zero_iff hk, hbit]
        exact Bool.noConfusion
      rw [if_neg hne, if_pos hbit, bind_eq_ok (addHalf_eq_ok (by omega)), Int.add_comm]
      rfl
    · rw [if_pos ((and_twoPow_eq_zero_iff hk).mpr (by simpa using hbit)), if_neg hbit]
      rfl
  rw [members, bind_eq_ok (mapM_eq_ok hfound), List.filterMap_map, DenseSet.toList,
    ← List.filterMap_eq_map, List.filterMap_filter]
  rfl

/-! ### Sets of values -/

/-- The members of a set, ascending; the whole bound of the field where every number is admitted. -/
def values (f : Field) : ValueSet → Except Fault (List Int)
  | .every => .ok (progression f.lo 1 f.hi)
  | .dense set => members set
  | .monthDays set => members set.days
  | .years set => .ok set.years

theorem values_eq_ok {f : Field} {set : ValueSet} (h : set.Shaped f) :
    values f set = .ok (set.toList f) := by
  have := lo_hi_small f
  have := f.lo_le_hi
  cases h with
  | every => rfl
  | dense _ _ hbase => exact members_eq_ok (by omega)
  | monthDays _ hbase => exact members_eq_ok (by omega)
  | years => rfl

/-- The set of a list of values, in the representation its field calls for. -/
def build (f : Field) (values : List Int) : Except Fault ValueSet :=
  match f with
  | .dayOfMonth => do
    let days ← denseOfList .dayOfMonth values
    return .monthDays ⟨days, values.contains Field.dayOfMonth.hi⟩
  | .year => .ok (.years (.ofList values))
  | _ => .dense <$> denseOfList f values

theorem build_eq_ok {f : Field} {values : List Int} (h : ∀ v ∈ values, f.lo ≤ v ∧ v ≤ f.hi) :
    build f values = .ok (.ofSelection f (.listed values)) := by
  cases f with
  | dayOfMonth =>
    rw [build, bind_eq_ok (denseOfList_eq_ok (by decide) h)]
    rfl
  | year => rfl
  | _ =>
    rw [build, denseOfList_eq_ok (by decide) h]
    · rfl
    all_goals decide

/-- The set of values that the text of a field denotes. The reader of a field is found by the
position of the field, and the members of the set are listed for the log. -/
def compile (f : Field) (text : Fragment) : Checked ValueSet := do
  let reader ← of (index Field.all f.index)
  let set ← match ← select reader text with
    | .whole => pure .every
    | .listed values => of (build reader values)
  let _ ← of (values reader set)
  return set

/-- **A field is compiled without faults.** -/
theorem runs_compile (f : Field) (text : Fragment) :
    Runs (compile f text) (f.compile text) := by
  rw [compile, Field.compile, map_eq_pure_bind]
  refine .of_bind (index_eq_ok f.getElem?_all_index) ?_
  refine (runs_select f text).bind fun s hs => ?_
  cases s with
  | whole =>
    show Runs (of (values f .every) >>= fun _ => pure ValueSet.every) _
    exact .of_bind (values_eq_ok .every) (.pure _)
  | listed values =>
    have hbounds := Field.bounds_of_select hs
    exact .of_bind (build_eq_ok hbounds)
      (.of_bind (values_eq_ok (ValueSet.shaped_ofSelection hbounds)) (.pure _))

end Checked

end CronSchedule
