import CronSchedule.Text.Blank

/-!
# Edit distance

How many characters must be inserted, deleted or replaced to turn one text into another. The
distances from all beginnings of one text to all beginnings of the other form a table; it is filled
row by row, and only the last row is kept.

* `distanceRow` — the row below a given one.
* `editDistance` — the distance of two texts.

Main statement: every row has one entry more than the text beside it (`length_distanceRow`).
-/

namespace CronSchedule

/-- The entries of a row from the second on: `left` is the entry before, `diagonal` the one above
that, and the list holds the entries above the rest of the row. -/
def distanceEntries (c : Char) : Nat → Nat → Fragment → List Nat → List Nat
  | left, diagonal, d :: text, above :: row =>
    let entry := min (min (above + 1) (left + 1)) (diagonal + if c = d then 0 else 1)
    entry :: distanceEntries c entry above text row
  | _, _, _, _ => []

/-- The row below `row` in the table of a text, one character `c` further down. -/
def distanceRow (text : Fragment) (row : List Nat) (c : Char) : List Nat :=
  match row with
  | [] => []
  | above :: row => (above + 1) :: distanceEntries c (above + 1) above text row

/-- The least number of characters to insert, delete or replace on the way from `a` to `b`. -/
def editDistance (a b : Fragment) : Nat :=
  ((a.foldl (distanceRow b) (List.range (b.length + 1))).getLast?).getD 0

example : editDistance "kitten".toList "sitting".toList = 3 ∧
    editDistance [] "abc".toList = 3 ∧ editDistance "abc".toList "abc".toList = 0 := by decide

theorem length_distanceEntries {c : Char} {left diagonal : Nat} {text : Fragment} {row : List Nat}
    (h : row.length = text.length) :
    (distanceEntries c left diagonal text row).length = text.length := by
  induction text generalizing left diagonal row with
  | nil => cases row <;> simp [distanceEntries]
  | cons d text ih =>
    cases row with
    | nil => simp at h
    | cons above row => simp [distanceEntries, ih (by simpa using h)]

/-- Every row has one entry more than the text beside it. -/
theorem length_distanceRow {text : Fragment} {row : List Nat} {c : Char}
    (h : row.length = text.length + 1) : (distanceRow text row c).length = text.length + 1 := by
  cases row with
  | nil => simp at h
  | cons above row => simp [distanceRow, length_distanceEntries (by simpa using h)]

end CronSchedule
