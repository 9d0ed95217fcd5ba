/-!
# Small sets of numbers in one word

A `DenseSet` keeps the numbers within 64 of its base as the bits of one word. Numbers are signed
32-bit words, and the distance of a number from the base is taken in that width.

* `DenseSet.ofList` — the set of a list; a number too far from the base is left out.
* `DenseSet.contains`, `DenseSet.toList`, `DenseSet.size`.

Main statements: an inserted number adds its own bit and no other (`DenseSet.getLsbD_insert`), so
that membership in the set of a list is a matter of distances (`DenseSet.contains_ofList`).
-/

namespace CronSchedule

/-- A set of numbers `base`, …, `base + 63`, one bit for each. -/
structure DenseSet where
  base : Int
  bits : BitVec 64
deriving DecidableEq, Repr

namespace DenseSet

/-- How far a number lies above the base, in signed 32-bit arithmetic. -/
def offset (base v : Int) : Int := (v - base).bmod 4294967296

/-- The empty set at a base. -/
def empty (base : Int) : DenseSet := ⟨base, 0#64⟩

/-- The set with a number added, if its bit is in the word. -/
def insert (s : DenseSet) (v : Int) : DenseSet :=
  let k := offset s.base v
  if 0 ≤ k ∧ k < 64 then { s with bits := s.bits ||| BitVec.twoPow 64 k.toNat } else s

/-- The set of a list of numbers. -/
def ofList (base : Int) (values : List Int) : DenseSet :=
  values.foldl insert (empty base)

/-- Whether a number is in the set. -/
def contains (s : DenseSet) (v : Int) : Bool :=
  let k := offset s.base v
  decide (0 ≤ k ∧ k < 64) && s.bits.getLsbD k.toNat

/-- The numbers of the set, ascending. -/
def toList (s : DenseSet) : List Int :=
  ((List.range 64).filter fun k => s.bits.getLsbD k).map fun (k : Nat) => s.base + (k : Int)

/-- How many numbers are in the set. -/
def size (s : DenseSet) : Nat :=
  (List.range 64).countP fun k => s.bits.getLsbD k

/-- Whether no number is in the set. -/
def isEmpty (s : DenseSet) : Bool := s.bits == 0#64

/-! ### The bits of a set -/

@[simp] theorem base_insert (s : DenseSet) (v : Int) : (s.insert v).base = s.base := by
  simp only [insert]
  split <;> rfl

@[simp] theorem base_foldl_insert (values : List Int) (s : DenseSet) :
    (values.foldl insert s).base = s.base := by
  induction values generalizing s with
  | nil => rfl
  | cons v values ih => exact (ih _).trans (base_insert s v)

/-- The set of a list keeps the base it is given. -/
@[simp] theorem base_ofList (base : Int) (values : List Int) :
    (ofList base values).base = base :=
  base_foldl_insert values (empty base)

/-- An inserted number adds its own bit and no other. -/
theorem getLsbD_insert (s : DenseSet) (v : Int) (k : Nat) :
    (s.insert v).bits.getLsbD k =
      (s.bits.getLsbD k || decide (k < 64 ∧ offset s.base v = (k : Int))) := by
  simp only [insert]
  split
  · next h =>
    rw [BitVec.getLsbD_or, BitVec.getLsbD_twoPow, ← Bool.decide_and]
    congr 2
    exact propext (by omega)
  · next h =>
    rw [decide_eq_false (by omega), Bool.or_false]

/-- The bits of the set of a list are those of its numbers. -/
theorem getLsbD_foldl_insert (values : List Int) (s : DenseSet) (k : Nat) :
    (values.foldl insert s).bits.getLsbD k =
      (s.bits.getLsbD k || values.any fun v => decide (k < 64 ∧ offset s.base v = (k : Int))) := by
  induction values generalizing s with
  | nil => simp
  | cons v values ih =>
    rw [List.foldl_cons, ih, getLsbD_insert, base_insert, List.any_cons, Bool.or_assoc]

/-- The bits of the set of a list are the distances of its numbers. -/
theorem getLsbD_ofList {base : Int} {values : List Int} {k : Nat} :
    (ofList base values).bits.getLsbD k = true ↔
      k < 64 ∧ ∃ v ∈ values, offset base v = (k : Int) := by
  rw [ofList, getLsbD_foldl_insert, empty, BitVec.getLsbD_zero, Bool.false_or, List.any_eq_true]
  simp only [decide_eq_true_eq]
  constructor
  · rintro ⟨v, hv, hk, hoffset⟩
    exact ⟨hk, v, hv, hoffset⟩
  · rintro ⟨hk, v, hv, hoffset⟩
    exact ⟨v, hv, hk, hoffset⟩

/-- A number is in the set of a list exactly when its distance is below 64 and is the distance of a
number of the list. -/
theorem contains_ofList (base : Int) (values : List Int) (v : Int) :
    (ofList base values).contains v = true ↔
      (0 ≤ offset base v ∧ offset base v < 64) ∧ ∃ w ∈ values, offset base w = offset base v := by
  rw [contains, base_ofList, Bool.and_eq_true, decide_eq_true_eq, getLsbD_ofList]
  refine and_congr_right fun h => ?_
  have hk : (offset base v).toNat < 64 := by omega
  rw [Int.toNat_of_nonneg h.1, and_iff_right hk]

/-- The size is the number of members listed. -/
theorem length_toList (s : DenseSet) : s.toList.length = s.size := by
  rw [toList, List.length_map, size, List.countP_eq_length_filter]

end DenseSet

end CronSchedule
