import CronSchedule.Proofs.Safety.Operations
import CronSchedule.Suggestion

/-!
# Suggesting names without faults

The table of edit distances is filled in two rows that are used in turn: each entry is computed from
the row above and from the entry before it, all taken by their index, and written at its own.

* `Checked.writeEntry`, `Checked.fillRow`, `Checked.nextRows` — the loops over the columns and the
  rows. A loop over columns goes on as the row it fills does (`Checked.foldlM_writeEntry_eq_ok`),
  and a loop over rows as the table does (`Checked.foldlM_nextRows_eq_ok`).
* `Checked.distance`, `Checked.nearest` — the distance of two texts, and the name nearest to a word.

Main statement: **a name is suggested without faults** (`Checked.suggest_eq_ok`).
-/

namespace CronSchedule

namespace Checked

/-! ### Rows of the table -/

/-- A row with the entry at `j` written: `i` and `j` count the characters of both texts from one. -/
def writeEntry (a b : Fragment) (i : Nat) (prev curr : List Nat) (j : Nat) :
    Except Fault (List Nat) := do
  let c ← index a (i - 1)
  let d ← index b (j - 1)
  let above ← index prev j
  let left ← index curr (j - 1)
  let diagonal ← index prev (j - 1)
  write curr j (min (min (above + 1) (left + 1)) (diagonal + if c = d then 0 else 1))

/-- The row beside the `i`-th character of the first text, written over another row. -/
def fillRow (a b : Fragment) (i : Nat) (prev curr : List Nat) : Except Fault (List Nat) := do
  let curr ← write curr 0 i
  (List.range' 1 b.length).foldlM (writeEntry a b i prev) curr

/-- The next row and the row above it, which change places with the two before. -/
def nextRows (a b : Fragment) (rows : List Nat × List Nat) (i : Nat) :
    Except Fault (List Nat × List Nat) := do
  let curr ← fillRow a b i rows.1 rows.2
  return (curr, rows.1)

/-- The last row of the table and the row above it. -/
def fillTable (a b : Fragment) : Except Fault (List Nat × List Nat) :=
  (List.range' 1 a.length).foldlM (nextRows a b)
    (List.range (b.length + 1), List.replicate (b.length + 1) 0)

/-- The distance of two texts, the last entry of the last row. -/
def distance (a b : Fragment) : Except Fault Nat := do
  let rows ← fillTable a b
  index rows.1 b.length

/-- What stands behind a front is the member at its length. -/
theorem index_append_cons {α : Type} {front : List α} {i : Nat} (h : front.length = i) (x : α)
    (rest : List α) : index (front ++ x :: rest) i = .ok x := by
  subst h
  exact index_eq_ok (by simp)

/-- It can be replaced. -/
theorem write_append_cons {α : Type} {front : List α} {i : Nat} (h : front.length = i) (x y : α)
    (rest : List α) : write (front ++ x :: rest) i y = .ok (front ++ y :: rest) := by
  subst h
  rw [write_eq_ok (by simp)]
  simp

/-- **The loop over the columns goes on as the row does.** In front of the character at `k` are the
entry `left` of the row that is filled and the entry `diagonal` of the row above. -/
theorem foldlM_writeEntry_eq_ok {a : Fragment} {i : Nat} {c : Char} (hc : index a (i - 1) = .ok c)
    {k left diagonal : Nat} {passed text : Fragment} {front above before tail : List Nat}
    (hpassed : passed.length = k) (hfront : front.length = k) (hbefore : before.length = k)
    (habove : above.length = text.length) (htail : tail.length = text.length) :
    (List.range' (k + 1) text.length).foldlM
        (writeEntry a (passed ++ text) i (before ++ diagonal :: above)) (front ++ left :: tail) =
      .ok (front ++ left :: distanceEntries c left diagonal text above) := by
  induction text generalizing k left diagonal passed front above before tail with
  | nil =>
    rw [List.eq_nil_of_length_eq_zero htail]
    rfl
  | cons d text ih =>
    obtain ⟨entry_above, above, rfl⟩ := List.exists_cons_of_length_eq_add_one habove
    obtain ⟨x, tail, rfl⟩ := List.exists_cons_of_length_eq_add_one htail
    rw [List.length_cons, List.range'_succ, List.foldlM_cons]
    have hentry : writeEntry a (passed ++ d :: text) i (before ++ diagonal :: entry_above :: above)
        (front ++ left :: x :: tail) (k + 1) =
          .ok (front ++ [left] ++ min (min (entry_above + 1) (left + 1))
            (diagonal + if c = d then 0 else 1) :: tail) := by
      have hnext_above : index (before ++ diagonal :: entry_above :: above) (k + 1) =
          .ok entry_above := by
        have := @index_append_cons _ (before ++ [diagonal]) (k + 1) (by simp [hbefore]) entry_above
          above
        rwa [List.append_assoc] at this
      have hwrite (y : Nat) : write (front ++ left :: x :: tail) (k + 1) y =
          .ok (front ++ [left] ++ y :: tail) := by
        have := @write_append_cons _ (front ++ [left]) (k + 1) (by simp [hfront]) x y tail
        rwa [List.append_assoc front [left] (x :: tail)] at this
      rw [writeEntry, Nat.add_sub_cancel, bind_eq_ok hc,
        bind_eq_ok (index_append_cons hpassed d text), bind_eq_ok hnext_above,
        bind_eq_ok (index_append_cons hfront left (x :: tail)),
        bind_eq_ok (index_append_cons hbefore diagonal (entry_above :: above)), hwrite]
    rw [bind_eq_ok hentry]
    have hnext := @ih (k + 1) (min (min (entry_above + 1) (left + 1))
      (diagonal + if c = d then 0 else 1)) entry_above (passed ++ [d]) (front ++ [left]) above
      (before ++ [diagonal]) tail (by simp [hpassed]) (by simp [hfront]) (by simp [hbefore])
      (by simpa using habove) (by simpa using htail)
    simp only [List.append_assoc, List.singleton_append] at hnext ⊢
    exact hnext

/-- A row is filled with what stands below the row above. -/
theorem fillRow_eq_ok {a b : Fragment} {i : Nat} {c : Char} (hc : index a i = .ok c)
    {above : Nat} {prev curr : List Nat} (habove : above = i) (hprev : prev.length = b.length)
    (hcurr : curr.length = b.length + 1) :
    fillRow a b (i + 1) (above :: prev) curr = .ok (distanceRow b (above :: prev) c) := by
  subst habove
  obtain ⟨x, tail, rfl⟩ := List.exists_cons_of_length_eq_add_one hcurr
  have hwrite : write (x :: tail) 0 (above + 1) = .ok ((above + 1) :: tail) :=
    write_eq_ok (Nat.zero_lt_succ _) _
  rw [fillRow, bind_eq_ok hwrite]
  exact @foldlM_writeEntry_eq_ok a (above + 1) c hc 0 (above + 1) above [] b [] prev [] tail rfl rfl
    rfl hprev (by simpa using hcurr)

/-- The first entry of a row counts the rows above it. -/
theorem head_distanceRow {b : Fragment} {row : List Nat} {k : Nat} (h : row.head? = some k)
    (c : Char) : (distanceRow b row c).head? = some (k + 1) := by
  cases row with
  | nil => cases h
  | cons above row =>
    cases h
    rfl

/-- **The loop over the rows goes on as the table does.** -/
theorem foldlM_nextRows_eq_ok {b passed text : Fragment} {k : Nat} {prev curr : List Nat}
    (hpassed : passed.length = k) (hhead : prev.head? = some k)
    (hprev : prev.length = b.length + 1) (hcurr : curr.length = b.length + 1) :
    ∃ above, (List.range' (k + 1) text.length).foldlM (nextRows (passed ++ text) b) (prev, curr) =
      .ok (text.foldl (distanceRow b) prev, above) := by
  induction text generalizing k passed prev curr with
  | nil => exact ⟨curr, rfl⟩
  | cons c text ih =>
    have hrow : fillRow (passed ++ c :: text) b (k + 1) prev curr = .ok (distanceRow b prev c) := by
      obtain ⟨above, rest, rfl⟩ := List.exists_cons_of_length_eq_add_one hprev
      exact fillRow_eq_ok (index_append_cons hpassed c text) (Option.some.inj hhead)
        (by simpa using hprev) hcurr
    obtain ⟨above, hrest⟩ := @ih (passed ++ [c]) (k + 1) (distanceRow b prev c) prev
      (by simp [hpassed]) (head_distanceRow hhead c) (length_distanceRow hprev) hprev
    rw [List.append_assoc, List.singleton_append] at hrest
    refine ⟨above, ?_⟩
    rw [List.length_cons, List.range'_succ, List.foldlM_cons, nextRows, hrow]
    exact hrest

/-- The rows of a table have one entry more than the text beside them. -/
theorem length_foldl_distanceRow {b text : Fragment} {row : List Nat}
    (h : row.length = b.length + 1) : (text.foldl (distanceRow b) row).length = b.length + 1 := by
  induction text generalizing row with
  | nil => exact h
  | cons c text ih => exact ih (length_distanceRow h)

/-- **The distance of two texts is found without faults.** -/
theorem distance_eq_ok (a b : Fragment) : distance a b = .ok (editDistance a b) := by
  obtain ⟨above, htable⟩ : ∃ above,
      fillTable a b = .ok (a.foldl (distanceRow b) (List.range (b.length + 1)), above) :=
    @foldlM_nextRows_eq_ok b [] a 0 _ _ rfl (by simp [List.range_succ_eq_map]) (by simp) (by simp)
  have hlength := @length_foldl_distanceRow b a (List.range (b.length + 1)) (by simp)
  have hlast : (a.foldl (distanceRow b) (List.range (b.length + 1)))[b.length]? =
      some (editDistance a b) := by
    rw [editDistance, List.getLast?_eq_getElem?, hlength, Nat.add_sub_cancel,
      List.getElem?_eq_getElem (by omega)]
    rfl
  rw [distance, bind_eq_ok htable]
  exact index_eq_ok hlast

/-! ### The nearest name -/

/-- The nearer one of the name that is nearest so far and another. -/
def nearer (word : Fragment) (best : Option (String × Nat)) (name : String) :
    Except Fault (Option (String × Nat)) := do
  let d ← distance (lowerCase word) (lowerCase name.toList)
  match best with
  | none => return some (name, d)
  | some (_, least) => if d < least then return some (name, d) else return best

/-- The name nearest to a word with its distance; of two equally near ones the earlier. -/
def nearest (word : Fragment) (names : List String) : Except Fault (Option (String × Nat)) :=
  names.foldlM (nearer word) none

/-- The name to suggest for a word. -/
def suggest (word : Fragment) (names : List String) : Except Fault (Option String) := do
  match ← nearest word names with
  | none => return none
  | some (name, d) => if d ≤ suggestionReach word name then return some name else return none

/-- A name with its distance from a word. -/
def withDistance (word : Fragment) (name : String) : String × Nat := (name, nameDistance word name)

/-- The loop over further names keeps the one that minimizes the distance. -/
theorem foldlM_nearer_eq_ok (word : Fragment) (best : String) (names : List String) :
    names.foldlM (nearer word) (some (withDistance word best)) =
      .ok (some (withDistance word (names.foldl (minOn (nameDistance word)) best))) := by
  induction names generalizing best with
  | nil => rfl
  | cons name names ih =>
    have hname : nearer word (some (withDistance word best)) name =
        .ok (some (withDistance word (minOn (nameDistance word) best name))) := by
      rw [nearer, bind_eq_ok (distance_eq_ok _ _), minOn]
      by_cases hless : nameDistance word name < nameDistance word best
      · rw [if_neg (Nat.not_le.mpr hless)]
        exact if_pos hless
      · rw [if_pos (Nat.not_lt.mp hless)]
        exact if_neg hless
    rw [List.foldlM_cons, bind_eq_ok hname, ih, List.foldl_cons]

/-- The nearest name is the one that minimizes the distance. -/
theorem nearest_eq_ok (word : Fragment) (names : List String) :
    nearest word names = .ok ((names.minOn? (nameDistance word)).map (withDistance word)) := by
  cases names with
  | nil => rfl
  | cons name names =>
    have hname : nearer word none name = .ok (some (withDistance word name)) := by
      rw [nearer, bind_eq_ok (distance_eq_ok _ _)]
      rfl
    rw [nearest, List.foldlM_cons, bind_eq_ok hname]
    exact foldlM_nearer_eq_ok word name names

/-- **A name is suggested without faults.** -/
theorem suggest_eq_ok (word : Fragment) (names : List String) :
    suggest word names = .ok (CronSchedule.suggest word names) := by
  rw [suggest, bind_eq_ok (nearest_eq_ok word names), CronSchedule.suggest]
  cases names.minOn? (nameDistance word) with
  | none => rfl
  | some name =>
    rw [Option.map_some, Option.filter_some]
    by_cases hnear : nameDistance word name ≤ suggestionReach word name
    · rw [if_pos (decide_eq_true hnear)]
      exact if_pos hnear
    · rw [if_neg (by simpa using hnear)]
      exact if_neg hnear

end Checked

end CronSchedule
