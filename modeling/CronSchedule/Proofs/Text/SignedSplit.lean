import CronSchedule.Proofs.Safety.Splitting
import CronSchedule.Proofs.Text.Digits

/-!
# The signed split of a range

A dash in a range is the sign of the number behind it or stands between two numbers, and nothing but
its place tells which. That is enough: no text can be taken apart in two ways.

* **Bytes** (`Checked.splitRange_eq_ok_iff`): one pass over the bytes of a text, which cuts wherever
  a segment has begun, finds the segments of the text and nothing else.
* **Numbers** (`dashSplit_intercalate_of_numbers`): of numbers with dashes between them the split
  returns just these numbers, whatever their signs.

Main statement: **every text has one list of segments, and the dash split returns it**
(`dashSplit_unique_signed_split`).
-/

namespace CronSchedule

/-- **The pass over the bytes of a text finds its segments**, and nothing else. -/
theorem Checked.splitRange_eq_ok_iff {text : Fragment} {segments : List Fragment} :
    splitRange text = .ok segments ↔ Segments text segments := by
  rw [splitRange_eq_ok, Except.ok.injEq, segments_iff]

/-- In a run of dashes, signs and separators take turns. -/
example : Checked.splitRange "--ä---1".toList =
    .ok ["-".toList, "ä".toList, "-".toList, "1".toList] := by decide

/-- **The dash split is the one signed split.** It is a list of segments of the text: there is at
least one, only the last may be empty, none has a dash behind its first character, and with dashes
between them they are the text. No other list is, and a pass over the bytes finds just this one. -/
theorem dashSplit_unique_signed_split (text : Fragment) :
    Segments text (dashSplit text) ∧
    (∀ segments, Segments text segments → segments = dashSplit text) ∧
    ∀ segments, Checked.splitRange text = .ok segments ↔ Segments text segments := by
  refine ⟨segments_dashSplit text, ?_, fun _ => Checked.splitRange_eq_ok_iff⟩
  intro segments hsegments
  exact (segments_iff.mp hsegments).symm

/-- **Numbers with dashes between them are told apart again**, whatever their signs: a sign stands
at the front of its number only, and no number is empty. -/
theorem dashSplit_intercalate_of_numbers {words : List Fragment} (hne : words ≠ [])
    (hwords : ∀ word ∈ words, ∃ n, readInteger? word = some n) :
    dashSplit (['-'].intercalate words) = words := by
  apply segments_iff.mp
  refine ⟨hne, ?_, ?_, rfl⟩
  · intro word hword
    obtain ⟨n, hn⟩ := hwords word hword
    exact dash_not_mem_tail_of_readInteger? hn
  · rintro word hword rfl
    obtain ⟨n, hn⟩ := hwords [] (List.dropLast_subset words hword)
    have hnone : readInteger? [] = none := by decide
    exact nomatch hnone.symm.trans hn

end CronSchedule
