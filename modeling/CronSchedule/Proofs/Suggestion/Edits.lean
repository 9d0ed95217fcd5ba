import Mathlib.Order.Bounds.Basic
import CronSchedule.Proofs.Safety.Suggesting

/-!
# The table of distances finds the fewest edits

An edit inserts, deletes or replaces one character, anywhere in a text. The edits that turn one text
into another may be taken in any order and may meet the same place more than once, while the table
goes through both texts once, from left to right.

* `Edit`, `Edits` — one edit, and a number of edits one after another.
* `fewestEdits` — the recursion behind the table: what becomes of the two first characters.

No edit brings a text nearer to another by more than one (`fewestEdits_le_of_edit`), so that no way
takes fewer edits than the recursion counts, and there is a way that takes as many
(`edits_fewestEdits`). The entries of the table are the values of the recursion at the beginnings of
both texts, read backwards (`editDistance_eq_fewestEdits`).

Main statement: **the distance of two texts is the least number of edits between them**, and with it
the distance of texts is a metric (`editDistance_counts_edits`).
-/

namespace CronSchedule

/-- One character is inserted, deleted or replaced. To replace it by itself is an edit, too. -/
inductive Edit : Fragment → Fragment → Prop
  | insert (front : Fragment) (c : Char) (back : Fragment) :
      Edit (front ++ back) (front ++ c :: back)
  | delete (front : Fragment) (c : Char) (back : Fragment) :
      Edit (front ++ c :: back) (front ++ back)
  | replace (front : Fragment) (c d : Char) (back : Fragment) :
      Edit (front ++ c :: back) (front ++ d :: back)

/-- A number of edits one after another turns the one text into the other. -/
inductive Edits : Nat → Fragment → Fragment → Prop
  | none (a : Fragment) : Edits 0 a a
  | more {n : Nat} {a b c : Fragment} (first : Edit a b) (rest : Edits n b c) : Edits (n + 1) a c

variable {a b : Fragment} {n : Nat}

/-! ### Edits -/

/-- What was edited can be edited back. -/
theorem Edit.symm (h : Edit a b) : Edit b a := by
  cases h with
  | insert front c back => exact .delete front c back
  | delete front c back => exact .insert front c back
  | replace front c d back => exact .replace front d c back

/-- Behind one more character the edit is the same. -/
theorem Edit.cons (c : Char) (h : Edit a b) : Edit (c :: a) (c :: b) := by
  cases h with
  | insert front d back => exact .insert (c :: front) d back
  | delete front d back => exact .delete (c :: front) d back
  | replace front d e back => exact .replace (c :: front) d e back

/-- An edit of a text is one of the text read backwards. -/
theorem Edit.reverse (h : Edit a b) : Edit a.reverse b.reverse := by
  cases h with
  | insert front c back => simpa using Edit.insert back.reverse c front.reverse
  | delete front c back => simpa using Edit.delete back.reverse c front.reverse
  | replace front c d back => simpa using Edit.replace back.reverse c d front.reverse

/-- A single edit. -/
theorem Edit.edits (h : Edit a b) : Edits 1 a b :=
  .more h (.none b)

/-- Edits that follow edits. -/
theorem Edits.trans {m : Nat} {c : Fragment} (h : Edits m a b) (h' : Edits n b c) :
    Edits (n + m) a c := by
  induction h with
  | none => exact h'
  | more first _ ih => exact .more first (ih h')

/-- The way back takes as many edits. -/
theorem Edits.symm (h : Edits n a b) : Edits n b a := by
  induction h with
  | none a => exact .none a
  | more first _ ih =>
    rw [Nat.add_comm]
    exact ih.trans first.symm.edits

theorem Edits.cons (c : Char) (h : Edits n a b) : Edits n (c :: a) (c :: b) := by
  induction h with
  | none a => exact .none (c :: a)
  | more first _ ih => exact .more (first.cons c) ih

theorem Edits.reverse (h : Edits n a b) : Edits n a.reverse b.reverse := by
  induction h with
  | none a => exact .none a.reverse
  | more first _ ih => exact .more first.reverse ih

/-- Edits of two texts are those of the texts read backwards. -/
theorem edits_reverse_iff : Edits n a.reverse b.reverse ↔ Edits n a b := by
  constructor
  · intro h
    have hback := h.reverse
    rwa [List.reverse_reverse, List.reverse_reverse] at hback
  · exact Edits.reverse

/-- Without edits a text stays what it is. -/
theorem edits_zero_iff : Edits 0 a b ↔ a = b := by
  constructor
  · intro h
    cases h
    rfl
  · rintro rfl
    exact .none a

/-! ### The recursion behind the table -/

/-- The fewest edits on the way from one text to another. The first character of the one is deleted,
the first of the other inserted, or the one is replaced by the other where they differ. -/
def fewestEdits : Fragment → Fragment → Nat
  | [], b => b.length
  | _ :: a, [] => a.length + 1
  | c :: a, d :: b =>
    min (min (fewestEdits a (d :: b) + 1) (fewestEdits (c :: a) b + 1))
      (fewestEdits a b + if c = d then 0 else 1)
termination_by a b => a.length + b.length

@[simp]
theorem fewestEdits_nil_left (b : Fragment) : fewestEdits [] b = b.length := by
  rw [fewestEdits]

@[simp]
theorem fewestEdits_nil_right (a : Fragment) : fewestEdits a [] = a.length := by
  cases a <;> simp [fewestEdits]

theorem fewestEdits_cons_cons (c d : Char) (a b : Fragment) :
    fewestEdits (c :: a) (d :: b) =
      min (min (fewestEdits a (d :: b) + 1) (fewestEdits (c :: a) b + 1))
        (fewestEdits a b + if c = d then 0 else 1) := by
  rw [fewestEdits]

/-- A text is emptied by deleting its characters one by one. -/
theorem edits_length_nil (a : Fragment) : Edits a.length a [] := by
  induction a with
  | nil => exact .none []
  | cons c a ih => exact .more (.delete [] c a) ih

/-- **There is a way that takes as many edits as the recursion counts.** -/
theorem edits_fewestEdits (a b : Fragment) : Edits (fewestEdits a b) a b := by
  induction a, b using fewestEdits.induct with
  | case1 b =>
    rw [fewestEdits_nil_left]
    exact (edits_length_nil b).symm
  | case2 c a => simpa using edits_length_nil (c :: a)
  | case3 c a d b hdelete hinsert hreplace =>
    have hdeleted : Edits (fewestEdits a (d :: b) + 1) (c :: a) (d :: b) :=
      .more (.delete [] c a) hdelete
    have hinserted : Edits (fewestEdits (c :: a) b + 1) (c :: a) (d :: b) := by
      have hlast : Edits 1 b (d :: b) := (Edit.insert [] d b).edits
      rw [Nat.add_comm]
      exact hinsert.trans hlast
    have hreplaced : Edits (fewestEdits a b + if c = d then 0 else 1) (c :: a) (d :: b) := by
      split
      · next hsame => exact hsame ▸ hreplace.cons c
      · exact .more (.replace [] c d a) (hreplace.cons d)
    rw [fewestEdits_cons_cons]
    apply min_rec' (Edits · (c :: a) (d :: b))
    · apply min_rec' (Edits · (c :: a) (d :: b)) hdeleted hinserted
    · exact hreplaced

/-! ### One edit counts for one at most

Each of the next statements compares the recursion at two texts that differ in front of a common
rest. They are by induction on the other text, along the row of the table. -/

theorem fewestEdits_cons_left_le (c : Char) (a b : Fragment) :
    fewestEdits (c :: a) b ≤ fewestEdits a b + 1 := by
  cases b with
  | nil => simp
  | cons d b =>
    rw [fewestEdits_cons_cons]
    omega

theorem fewestEdits_cons_right_le (d : Char) (a b : Fragment) :
    fewestEdits a (d :: b) ≤ fewestEdits a b + 1 := by
  cases a with
  | nil => simp
  | cons c a =>
    rw [fewestEdits_cons_cons]
    omega

/-- Deleting the first character does no better than the character itself does. -/
theorem fewestEdits_le_cons_left (c : Char) (a b : Fragment) :
    fewestEdits a b ≤ fewestEdits (c :: a) b + 1 := by
  induction b with
  | nil => simp; omega
  | cons d b ih =>
    have hinsert := fewestEdits_cons_right_le d a b
    rw [fewestEdits_cons_cons]
    omega

/-- Replacing the first character changes the count by one at most. -/
theorem fewestEdits_cons_le_cons (c d : Char) (a b : Fragment) :
    fewestEdits (c :: a) b ≤ fewestEdits (d :: a) b + 1 := by
  induction b with
  | nil => simp
  | cons e b ih =>
    have hrest : (if c = e then 0 else 1) ≤ 1 := by split <;> omega
    simp only [fewestEdits_cons_cons]
    omega

/-- What holds of two texts holds of them behind a common first character. -/
theorem fewestEdits_cons_le_of_le {a' : Fragment}
    (h : ∀ b, fewestEdits a b ≤ fewestEdits a' b + 1) (c : Char) (b : Fragment) :
    fewestEdits (c :: a) b ≤ fewestEdits (c :: a') b + 1 := by
  induction b with
  | nil => simpa using h []
  | cons d b ih =>
    have hdelete := h (d :: b)
    have hreplace := h b
    simp only [fewestEdits_cons_cons]
    omega

/-- **One edit counts for one at most.** -/
theorem fewestEdits_le_of_edit {a' : Fragment} (h : Edit a a') (b : Fragment) :
    fewestEdits a b ≤ fewestEdits a' b + 1 := by
  cases h with
  | insert front c back =>
    induction front generalizing b with
    | nil => exact fewestEdits_le_cons_left c back b
    | cons d front ih => exact fewestEdits_cons_le_of_le ih d b
  | delete front c back =>
    induction front generalizing b with
    | nil => exact fewestEdits_cons_left_le c back b
    | cons d front ih => exact fewestEdits_cons_le_of_le ih d b
  | replace front c d back =>
    induction front generalizing b with
    | nil => exact fewestEdits_cons_le_cons c d back b
    | cons e front ih => exact fewestEdits_cons_le_of_le ih e b

@[simp]
theorem fewestEdits_self (a : Fragment) : fewestEdits a a = 0 := by
  induction a with
  | nil => rw [fewestEdits_nil_left, List.length_nil]
  | cons c a ih => simp [fewestEdits_cons_cons, ih]

/-- No way takes fewer edits than the recursion counts. -/
theorem fewestEdits_le_of_edits (h : Edits n a b) : fewestEdits a b ≤ n := by
  induction h with
  | none a => exact (fewestEdits_self a).le
  | more first _ ih => exact (fewestEdits_le_of_edit first _).trans (Nat.succ_le_succ ih)

/-- **The recursion counts the fewest edits.** -/
theorem fewestEdits_isLeast (a b : Fragment) : IsLeast {n | Edits n a b} (fewestEdits a b) :=
  ⟨edits_fewestEdits a b, fun _ h => fewestEdits_le_of_edits h⟩

/-! ### The entries of the table -/

/-- The entries of a row beside the characters of `text`, where `read` is what was read of the one
text and `passed` what was passed of the other, both backwards. -/
def entriesFrom (read passed : Fragment) : Fragment → List Nat
  | [] => []
  | d :: text => fewestEdits read (d :: passed) :: entriesFrom read (d :: passed) text

/-- The row of the table after `read`. -/
def rowAfter (text read : Fragment) : List Nat :=
  fewestEdits read [] :: entriesFrom read [] text

/-- Below the entries after `read` stand those after one more character. -/
theorem distanceEntries_entriesFrom (c : Char) (read passed text : Fragment) :
    distanceEntries c (fewestEdits (c :: read) passed) (fewestEdits read passed) text
        (entriesFrom read passed text) = entriesFrom (c :: read) passed text := by
  induction text generalizing passed with
  | nil => rfl
  | cons d text ih =>
    rw [entriesFrom, distanceEntries, ← fewestEdits_cons_cons, entriesFrom]
    exact congrArg _ (ih (d :: passed))

/-- One step of the loop over the rows. -/
theorem distanceRow_rowAfter (c : Char) (text read : Fragment) :
    distanceRow text (rowAfter text read) c = rowAfter text (c :: read) := by
  have hentries := distanceEntries_entriesFrom c read [] text
  simp only [fewestEdits_nil_right, List.length_cons] at hentries
  simp [rowAfter, distanceRow, hentries]

/-- The whole loop. -/
theorem foldl_distanceRow_rowAfter (a text read : Fragment) :
    a.foldl (distanceRow text) (rowAfter text read) = rowAfter text (a.reverse ++ read) := by
  induction a generalizing read with
  | nil => rfl
  | cons c a ih => simp [distanceRow_rowAfter, ih]

/-- Before the first character the entries count those of the other text. -/
theorem entriesFrom_nil (passed text : Fragment) :
    entriesFrom [] passed text = List.range' (passed.length + 1) text.length := by
  induction text generalizing passed with
  | nil => rfl
  | cons d text ih => simp [entriesFrom, ih, List.range'_succ]

theorem rowAfter_nil (text : Fragment) : rowAfter text [] = List.range (text.length + 1) := by
  rw [rowAfter, entriesFrom_nil, fewestEdits_nil_left, List.range_eq_range', List.range'_succ]
  rfl

/-- The last entry of a row is beside the whole text. -/
theorem getLast?_entriesFrom (read passed text : Fragment) :
    (fewestEdits read passed :: entriesFrom read passed text).getLast? =
      some (fewestEdits read (text.reverse ++ passed)) := by
  induction text generalizing passed with
  | nil => rfl
  | cons d text ih =>
    rw [entriesFrom, List.getLast?_cons_cons, ih]
    simp

/-- **The table computes the recursion**, from the ends of both texts. -/
theorem editDistance_eq_fewestEdits (a b : Fragment) :
    editDistance a b = fewestEdits a.reverse b.reverse := by
  rw [editDistance, ← rowAfter_nil, foldl_distanceRow_rowAfter, rowAfter, getLast?_entriesFrom]
  simp

/-! ### The distance -/

/-- The distance of two texts is the least number of edits between them. -/
theorem isLeast_editDistance (a b : Fragment) : IsLeast {n | Edits n a b} (editDistance a b) := by
  obtain ⟨hmem, hleast⟩ := fewestEdits_isLeast a.reverse b.reverse
  rw [editDistance_eq_fewestEdits]
  exact ⟨edits_reverse_iff.mp hmem, fun n h => hleast (edits_reverse_iff.mpr h)⟩

theorem editDistance_eq_zero_iff : editDistance a b = 0 ↔ a = b := by
  obtain ⟨hmem, hleast⟩ := isLeast_editDistance a b
  constructor
  · intro hzero
    apply edits_zero_iff.mp
    rwa [hzero] at hmem
  · intro hsame
    exact Nat.le_zero.mp (hleast (edits_zero_iff.mpr hsame))

theorem editDistance_comm (a b : Fragment) : editDistance a b = editDistance b a := by
  obtain ⟨hmem, hleast⟩ := isLeast_editDistance b a
  apply (isLeast_editDistance a b).unique
  exact ⟨Edits.symm hmem, fun n h => hleast (Edits.symm h)⟩

theorem editDistance_triangle (a b c : Fragment) :
    editDistance a c ≤ editDistance a b + editDistance b c := by
  rw [Nat.add_comm]
  apply (isLeast_editDistance a c).2
  exact (isLeast_editDistance a b).1.trans (isLeast_editDistance b c).1

/-- **The distance of two texts is the least number of edits between them.** The two rows that are
filled in turn end in it, it is zero between a text and itself only, and it is a metric. -/
theorem editDistance_counts_edits (a b : Fragment) :
    Checked.distance a b = .ok (editDistance a b) ∧
      IsLeast {n | Edits n a b} (editDistance a b) ∧
      (editDistance a b = 0 ↔ a = b) ∧
      editDistance a b = editDistance b a ∧
      ∀ c, editDistance a c ≤ editDistance a b + editDistance b c :=
  ⟨Checked.distance_eq_ok a b, isLeast_editDistance a b, editDistance_eq_zero_iff,
    editDistance_comm a b, editDistance_triangle a b⟩

end CronSchedule
