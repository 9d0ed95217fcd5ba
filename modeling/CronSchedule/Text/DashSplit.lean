import CronSchedule.Text.Blank

/-!
# Splitting a range at its dashes

A dash that starts a segment is the sign of a number; any other dash separates two segments. So
`-5-3` has the segments `-5` and `3`, and `5--1` has `5` and `-1`.

* `dashSplit` — the segments of a fragment, at least one.

Main statement: the segments joined by dashes give the fragment back
(`intercalate_dashSplit`).
-/

namespace CronSchedule

/-- The segments of a fragment; `atStart` says that the next character is the first of its
segment, where a dash is a sign. -/
def dashSegments (atStart : Bool) : Fragment → List Fragment
  | [] => [[]]
  | c :: text =>
    if c = '-' ∧ atStart = false then [] :: dashSegments true text
    else (dashSegments false text).modifyHead (c :: ·)

/-- The segments of a range, split at each dash that is not the first of its segment. -/
def dashSplit (text : Fragment) : List Fragment :=
  dashSegments true text

/-- A sign belongs to the number behind it. -/
example : dashSplit "-5-3".toList = ["-5".toList, "3".toList] ∧
    dashSplit "5--1".toList = ["5".toList, "-1".toList] ∧
    dashSplit "5-".toList = ["5".toList, []] := by decide

/-- There is always a segment. -/
theorem dashSegments_ne_nil (atStart : Bool) (text : Fragment) :
    dashSegments atStart text ≠ [] := by
  induction text generalizing atStart with
  | nil => simp [dashSegments]
  | cons c text ih =>
    rw [dashSegments]
    split
    · simp
    · cases h : dashSegments false text with
      | nil => exact absurd h (ih false)
      | cons segment rest => simp

/-- The segments joined by dashes give the fragment back, wherever its first segment began. -/
theorem intercalate_dashSegments (atStart : Bool) (text : Fragment) :
    ['-'].intercalate (dashSegments atStart text) = text := by
  induction text generalizing atStart with
  | nil => simp [dashSegments]
  | cons c text ih =>
    rw [dashSegments]
    split
    · next h =>
      obtain ⟨segment, rest, heq⟩ := List.exists_cons_of_ne_nil (dashSegments_ne_nil true text)
      have := ih true
      rw [heq] at this ⊢
      simp [List.intercalate_cons_cons, this, h.1]
    · obtain ⟨segment, rest, heq⟩ := List.exists_cons_of_ne_nil (dashSegments_ne_nil false text)
      have := ih false
      rw [heq] at this ⊢
      cases rest with
      | nil => simpa using this
      | cons other rest =>
        simp only [List.modifyHead_cons, List.intercalate_cons_cons, List.cons_append] at this ⊢
        rw [this]

/-- The segments joined by dashes give the fragment back. -/
theorem intercalate_dashSplit (text : Fragment) : ['-'].intercalate (dashSplit text) = text :=
  intercalate_dashSegments true text

end CronSchedule
