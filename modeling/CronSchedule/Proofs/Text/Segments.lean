import CronSchedule.Text.DashSplit

/-!
# The segments of a range

A dash separates two segments of a range unless it is the first character of its segment, where it
is a sign.

* `Segments text segments` — the segments of a text, said without an algorithm.
* **There is one such list** (`segments_iff`): it is what the dash split returns. A text is one
  segment when it has no dash behind its first character (`dashSplit_eq_singleton_iff`), and two
  when it is two such texts, the first not empty, with a dash between them
  (`dashSplit_eq_pair_iff`).
* **A dash separates** when the segment in front of it is not empty (`dashSplit_append_dash_iff`).
-/

namespace CronSchedule

/-- The segments of a text, between the dashes that are no signs. -/
structure Segments (text : Fragment) (segments : List Fragment) : Prop where
  /-- There is at least one segment. -/
  ne_nil : segments ≠ []
  /-- No segment has a dash behind its first character. -/
  dash_not_mem_tail : ∀ segment ∈ segments, '-' ∉ segment.tail
  /-- Only the last segment may be empty. -/
  ne_nil_of_mem_dropLast : ∀ segment ∈ segments.dropLast, segment ≠ []
  /-- The segments with dashes between them are the text. -/
  join : ['-'].intercalate segments = text

/-! ### The dash split, segment by segment -/

/-- Characters in front of the next dash stay in the segment that has begun. -/
theorem dashSegments_append {segment : Fragment} (h : '-' ∉ segment) (rest : Fragment) :
    dashSegments false (segment ++ rest) =
      (dashSegments false rest).modifyHead (segment ++ ·) := by
  induction segment with
  | nil =>
    obtain ⟨first, others, hsplit⟩ := List.exists_cons_of_ne_nil (dashSegments_ne_nil false rest)
    rw [List.nil_append, hsplit]
    rfl
  | cons c segment ih =>
    have hc : c ≠ '-' := fun hc => h (hc ▸ List.mem_cons_self)
    obtain ⟨first, others, hsplit⟩ := List.exists_cons_of_ne_nil (dashSegments_ne_nil false rest)
    rw [List.cons_append, dashSegments, if_neg (fun hdash => hc hdash.1),
      ih (fun hmem => h (List.mem_cons_of_mem _ hmem)), hsplit]
    rfl

/-- A text without a dash behind its first character is one segment. -/
theorem dashSplit_of_segment {segment : Fragment} (h : '-' ∉ segment.tail) :
    dashSplit segment = [segment] := by
  cases segment with
  | nil => rfl
  | cons c segment =>
    rw [List.tail_cons] at h
    have hrest := dashSegments_append h []
    rw [List.append_nil] at hrest
    rw [dashSplit, dashSegments, if_neg (fun hdash => Bool.noConfusion hdash.2), hrest]
    simp [dashSegments]

/-- A segment that is not empty ends at the next dash. -/
theorem dashSplit_append_dash {segment : Fragment} (hne : segment ≠ []) (h : '-' ∉ segment.tail)
    (rest : Fragment) : dashSplit (segment ++ '-' :: rest) = segment :: dashSplit rest := by
  cases segment with
  | nil => exact absurd rfl hne
  | cons c segment =>
    rw [List.tail_cons] at h
    rw [dashSplit, List.cons_append, dashSegments, if_neg (fun hdash => Bool.noConfusion hdash.2),
      dashSegments_append h, dashSegments, if_pos ⟨rfl, rfl⟩]
    simp [dashSplit]

/-! ### The segments are unique -/

/-- A text with a dash behind its first character begins with a segment that ends at one. -/
theorem exists_segment_append_dash {text : Fragment} (h : '-' ∈ text.tail) :
    ∃ segment rest, text = segment ++ '-' :: rest ∧ segment ≠ [] ∧ '-' ∉ segment.tail := by
  cases text with
  | nil => exact absurd h List.not_mem_nil
  | cons c tail =>
    obtain ⟨segment, rest, htail, hsegment⟩ := List.eq_append_cons_of_mem h
    rw [List.tail_cons] at htail
    exact ⟨c :: segment, rest, by rw [htail, List.cons_append], List.cons_ne_nil _ _, hsegment⟩

/-- What holds of single segments, and of a segment in front of a dash whenever it holds of the text
behind the dash, holds of every text. -/
theorem segment_induction {P : Fragment → Prop} (one : ∀ segment, '-' ∉ segment.tail → P segment)
    (cut : ∀ segment rest, segment ≠ [] → '-' ∉ segment.tail → P rest → P (segment ++ '-' :: rest))
    (text : Fragment) : P text := by
  induction hlength : text.length using Nat.strongRecOn generalizing text with
  | _ n ih =>
    by_cases hdash : '-' ∈ text.tail
    · obtain ⟨segment, rest, rfl, hne, hsegment⟩ := exists_segment_append_dash hdash
      apply cut segment rest hne hsegment
      apply ih rest.length _ rest rfl
      rw [← hlength, List.length_append, List.length_cons]
      omega
    · exact one text hdash

/-- The dash split returns segments. -/
theorem segments_dashSplit (text : Fragment) : Segments text (dashSplit text) := by
  induction text using segment_induction with
  | one segment hsegment =>
    rw [dashSplit_of_segment hsegment]
    exact ⟨List.cons_ne_nil _ _, by simpa using hsegment, by simp, List.intercalate_singleton⟩
  | cut segment rest hne hsegment ih =>
    rw [dashSplit_append_dash hne hsegment]
    refine ⟨List.cons_ne_nil _ _, ?_, ?_, ?_⟩
    · intro other hother
      rcases List.mem_cons.mp hother with rfl | hother
      · exact hsegment
      · exact ih.dash_not_mem_tail other hother
    · intro other hother
      rw [List.dropLast_cons_of_ne_nil ih.ne_nil] at hother
      rcases List.mem_cons.mp hother with rfl | hother
      · exact hne
      · exact ih.ne_nil_of_mem_dropLast other hother
    · rw [List.intercalate_cons_of_ne_nil ih.ne_nil, ih.join, List.append_assoc,
        List.singleton_append]

/-- **The segments of a text are what its dash split returns**, and nothing else is. -/
theorem segments_iff {text : Fragment} {segments : List Fragment} :
    Segments text segments ↔ dashSplit text = segments := by
  constructor
  · rintro ⟨hne, htail, hdrop, rfl⟩
    induction segments with
    | nil => exact absurd rfl hne
    | cons segment rest ih =>
      have hsegment := htail segment List.mem_cons_self
      by_cases hrest : rest = []
      · rw [hrest, List.intercalate_singleton]
        exact dashSplit_of_segment hsegment
      · rw [List.dropLast_cons_of_ne_nil hrest] at hdrop
        have hsegment_ne := hdrop segment List.mem_cons_self
        rw [List.intercalate_cons_of_ne_nil hrest, List.append_assoc, List.singleton_append,
          dashSplit_append_dash hsegment_ne hsegment]
        rw [ih hrest (fun other h => htail other (List.mem_cons_of_mem _ h))
          (fun other h => hdrop other (List.mem_cons_of_mem _ h))]
  · rintro rfl
    exact segments_dashSplit text

/-- A text is one segment when it has no dash behind its first character. -/
theorem dashSplit_eq_singleton_iff {text segment : Fragment} :
    dashSplit text = [segment] ↔ text = segment ∧ '-' ∉ segment.tail := by
  constructor
  · intro h
    have hsegments := segments_iff.mpr h
    have hjoin := hsegments.join
    rw [List.intercalate_singleton] at hjoin
    exact ⟨hjoin.symm, hsegments.dash_not_mem_tail segment List.mem_cons_self⟩
  · rintro ⟨rfl, h⟩
    exact dashSplit_of_segment h

/-- A text is two segments when it is the two with a dash between them, of which neither has a dash
behind its first character and the first is not empty. -/
theorem dashSplit_eq_pair_iff {text left right : Fragment} :
    dashSplit text = [left, right] ↔
      text = left ++ '-' :: right ∧ left ≠ [] ∧ '-' ∉ left.tail ∧ '-' ∉ right.tail := by
  constructor
  · intro h
    have hsegments := segments_iff.mpr h
    have hjoin := hsegments.join
    rw [List.intercalate_cons_cons, List.intercalate_singleton, List.append_assoc,
      List.singleton_append] at hjoin
    exact ⟨hjoin.symm, hsegments.ne_nil_of_mem_dropLast left (by simp),
      hsegments.dash_not_mem_tail left (by simp), hsegments.dash_not_mem_tail right (by simp)⟩
  · rintro ⟨rfl, hne, hleft, hright⟩
    rw [dashSplit_append_dash hne hleft, dashSplit_of_segment hright]

/-! ### Longer texts -/

/-- What is put behind a text goes on with its last segment. -/
theorem dashSplit_append {text last : Fragment} {front : List Fragment}
    (h : dashSplit text = front ++ [last]) (rest : Fragment) :
    dashSplit (text ++ rest) = front ++ dashSplit (last ++ rest) := by
  induction text using segment_induction generalizing front with
  | one segment hsegment =>
    rw [dashSplit_of_segment hsegment, List.singleton_eq_append_iff] at h
    obtain ⟨rfl, hlast⟩ | ⟨-, hlast⟩ := h
    · cases hlast
      rfl
    · exact nomatch hlast
  | cut segment behind hne hsegment ih =>
    rw [dashSplit_append_dash hne hsegment, List.cons_eq_append_iff] at h
    obtain ⟨-, hbehind⟩ | ⟨others, rfl, hothers⟩ := h
    · exact absurd (List.tail_eq_of_cons_eq hbehind).symm (dashSegments_ne_nil true behind)
    · rw [List.append_assoc, List.cons_append, dashSplit_append_dash hne hsegment, ih hothers,
        List.cons_append]

/-- **A dash separates two segments** when the segment in front of it is not empty. -/
theorem dashSplit_append_dash_iff {left right : Fragment} :
    dashSplit (left ++ '-' :: right) = dashSplit left ++ dashSplit right ↔
      (dashSplit left).getLast? ≠ some [] := by
  obtain ⟨front, last, hleft⟩ :=
    (dashSplit left).eq_nil_or_concat.resolve_left (dashSegments_ne_nil true left)
  rw [List.concat_eq_append] at hleft
  have hlast : '-' ∉ last.tail := (segments_iff.mpr hleft).dash_not_mem_tail last (by simp)
  rw [dashSplit_append hleft, hleft, List.append_assoc, List.append_cancel_left_eq,
    List.getLast?_concat]
  by_cases hempty : last = []
  · subst hempty
    -- the dash is the sign of a segment that begins here
    obtain ⟨first, others, hfirst⟩ := List.exists_cons_of_ne_nil (dashSegments_ne_nil false right)
    simp [dashSplit, dashSegments, hfirst]
  · simp [dashSplit_append_dash hempty hlast, hempty]

end CronSchedule
