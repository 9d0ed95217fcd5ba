/-!
# Sets of years

Years lie too far apart for one word, so a set of them is the list of its members, strictly
ascending.

* `YearSet.ofList` — the set of a list.
* `YearSet.contains`, `YearSet.size`.

Main statement: membership in the set of a list is membership in the list
(`YearSet.contains_ofList`).
-/

namespace CronSchedule

/-- A list with a number added at its place. -/
def insertAscending (v : Int) : List Int → List Int
  | [] => [v]
  | w :: rest =>
    if v < w then v :: w :: rest
    else if v = w then w :: rest
    else w :: insertAscending v rest

theorem mem_insertAscending {v x : Int} :
    ∀ {values : List Int}, x ∈ insertAscending v values ↔ x = v ∨ x ∈ values
  | [] => by simp [insertAscending]
  | w :: rest => by
    rw [insertAscending]
    split
    · simp
    · split
      · next h =>
        subst h
        simp
      · rw [List.mem_cons, mem_insertAscending, List.mem_cons]
        constructor
        · rintro (h | h | h)
          · exact .inr (.inl h)
          · exact .inl h
          · exact .inr (.inr h)
        · rintro (h | h | h)
          · exact .inr (.inl h)
          · exact .inl h
          · exact .inr (.inr h)

/-- Adding a number keeps a list ascending. -/
theorem pairwise_insertAscending {v : Int} :
    ∀ {values : List Int}, values.Pairwise (· < ·) → (insertAscending v values).Pairwise (· < ·)
  | [], _ => by simp [insertAscending]
  | w :: rest, h => by
    have hw := List.pairwise_cons.mp h
    rw [insertAscending]
    split
    · next hv =>
      refine List.pairwise_cons.mpr ⟨fun x hx => ?_, h⟩
      rcases List.mem_cons.mp hx with rfl | hx
      · exact hv
      · exact Int.lt_trans hv (hw.1 x hx)
    · split
      · exact h
      · refine List.pairwise_cons.mpr ⟨fun x hx => ?_, pairwise_insertAscending hw.2⟩
        rcases mem_insertAscending.mp hx with rfl | hx
        · omega
        · exact hw.1 x hx

/-- A set of years, ascending. -/
structure YearSet where
  years : List Int
  ascending : years.Pairwise (· < ·)
deriving DecidableEq, Repr

namespace YearSet

/-- The empty set. -/
def empty : YearSet := ⟨[], .nil⟩

/-- The set with a year added. -/
def insert (s : YearSet) (year : Int) : YearSet :=
  ⟨insertAscending year s.years, pairwise_insertAscending s.ascending⟩

/-- The set of a list of years. -/
def ofList (values : List Int) : YearSet := values.foldr (fun v s => s.insert v) empty

/-- Whether a year is in the set. -/
def contains (s : YearSet) (year : Int) : Bool := s.years.contains year

/-- How many years are in the set. -/
def size (s : YearSet) : Nat := s.years.length

/-- Whether no year is in the set. -/
def isEmpty (s : YearSet) : Bool := s.years.isEmpty

/-- Membership in the set of a list is membership in the list. -/
theorem contains_ofList (values : List Int) (year : Int) :
    (ofList values).contains year = true ↔ year ∈ values := by
  rw [contains, List.contains_iff_mem]
  induction values with
  | nil => simp [ofList, empty]
  | cons v values ih =>
    rw [List.mem_cons, ← ih]
    exact mem_insertAscending

end YearSet

end CronSchedule
