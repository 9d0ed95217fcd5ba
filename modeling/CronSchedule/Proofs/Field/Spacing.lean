import CronSchedule.Proofs.Field.Layout
import Mathlib.Logic.Relation

/-!
# Blanks around separators

Blanks may be put in a field where they stand at a separator:

* `AroundRange before after` — a text between the two is one range of a field, with any blanks
  around it;
* `RangeDash before left right after` — between them stands a range, and in it a dash that
  separates two segments;
* `Spaced text other` — blanks put at an end of a text, beside a comma or a slash, or beside a range
  dash, but not between it and a sign;
* `SignParted text other` — blanks put between a range dash and the sign behind it.

The parts of a field are the same when it is spaced (`fieldParts_of_spaced`). A sign behind blanks
does not begin its segment: it is taken for another range dash, so a range from which a sign is
parted has too many parts.

Main statement: **blanks around separators change neither what a field selects nor why it is
refused**, and a parted sign is refused (`Field.select_of_spaced`).
-/

namespace CronSchedule

variable {blanks text : Fragment}

/-! ### Blanks among segments -/

/-- Blanks behind a segment belong to it. -/
theorem dash_not_mem_tail_append_blanks (hblanks : ∀ c ∈ blanks, isBlank c = true)
    (h : '-' ∉ text.tail) : '-' ∉ (text ++ blanks).tail := by
  have hdash : '-' ∉ blanks := not_mem_of_blanks rfl hblanks
  cases text with
  | nil => exact fun hmem => hdash (List.mem_of_mem_tail hmem)
  | cons c text => simpa [hdash] using h

/-- Blanks behind a text belong to its last segment. -/
theorem dashSplit_append_blanks (hblanks : ∀ c ∈ blanks, isBlank c = true)
    {front : List Fragment} {last : Fragment} (h : dashSplit text = front ++ [last]) :
    dashSplit (text ++ blanks) = front ++ [last ++ blanks] := by
  have hlast : '-' ∉ last.tail := (segments_iff.mpr h).dash_not_mem_tail last (by simp)
  rw [dashSplit_append h, dashSplit_of_segment (dash_not_mem_tail_append_blanks hblanks hlast)]

/-- There is a last segment. -/
theorem exists_dashSplit_eq_append (text : Fragment) :
    ∃ front last, dashSplit text = front ++ [last] := by
  obtain ⟨front, last, h⟩ :=
    (dashSplit text).eq_nil_or_concat.resolve_left (dashSegments_ne_nil true text)
  exact ⟨front, last, by rw [h, List.concat_eq_append]⟩

/-- Blanks behind a text are trimmed from its last segment. -/
theorem map_trim_dashSplit_append (hblanks : ∀ c ∈ blanks, isBlank c = true) (text : Fragment) :
    (dashSplit (text ++ blanks)).map trim = (dashSplit text).map trim := by
  obtain ⟨front, last, h⟩ := exists_dashSplit_eq_append text
  rw [dashSplit_append_blanks hblanks h, h, List.map_append, List.map_append, List.map_singleton,
    List.map_singleton, trim_append_blanks hblanks]

/-- Blanks in front of a text are trimmed from its first segment, if that does not begin on a sign. -/
theorem map_trim_dashSplit_blanks_append (hblanks : ∀ c ∈ blanks, isBlank c = true)
    (h : text.head? ≠ some '-') :
    (dashSplit (blanks ++ text)).map trim = (dashSplit text).map trim := by
  have hdash : '-' ∉ blanks := not_mem_of_blanks rfl hblanks
  have hsegment {segment : Fragment} (hhead : segment.head? ≠ some '-')
      (htail : '-' ∉ segment.tail) : '-' ∉ (blanks ++ segment).tail := by
    have hmem : '-' ∉ segment := by
      cases segment with
      | nil => exact List.not_mem_nil
      | cons c segment => simpa [eq_comm] using And.intro hhead htail
    exact fun hmem' => (List.mem_append.mp (List.mem_of_mem_tail hmem')).elim hdash hmem
  by_cases htail : '-' ∈ text.tail
  · obtain ⟨segment, rest, rfl, hne, hseg⟩ := exists_segment_append_dash htail
    rw [List.head?_append_of_ne_nil _ hne] at h
    rw [← List.append_assoc, dashSplit_append_dash (by simp [hne]) (hsegment h hseg),
      dashSplit_append_dash hne hseg, List.map_cons, List.map_cons, trim_blanks_append hblanks]
  · rw [dashSplit_of_segment (hsegment h htail), dashSplit_of_segment htail, List.map_singleton,
      List.map_singleton, trim_blanks_append hblanks]

/-- The parts of a range that does not begin with a blank are its segments, trimmed. -/
theorem rangeParts_of_head (h : ∀ c, text.head? = some c → isBlank c = false) :
    rangeParts text = (dashSplit text).map trim := by
  obtain ⟨front, back, htext, hfront, hback⟩ := exists_eq_blanks_trim_blanks text
  cases front with
  | nil =>
    conv_rhs => rw [htext, List.nil_append]
    rw [map_trim_dashSplit_append hback, rangeParts]
  | cons c front =>
    have hblank := h c (by rw [htext]; rfl)
    rw [hfront c List.mem_cons_self] at hblank
    exact Bool.noConfusion hblank

/-! ### Ranges in a field -/

/-- A text between the two is one range of a field, with any blanks around it: in front of them is
nothing or a comma, and behind them is nothing, a comma or a slash. -/
structure AroundRange (before after : Fragment) : Prop where
  /-- The last character in front that is not blank, if any. -/
  opens : ∀ c, (before.rdropWhile isBlank).getLast? = some c → c = ','
  /-- The first character behind that is not blank, if any. -/
  closes : ∀ c, (after.dropWhile isBlank).head? = some c → c = ',' ∨ c = '/'

/-- Blanks around a range do not change its parts. -/
theorem rangeParts_blanks {front back : Fragment} (hfront : ∀ c ∈ front, isBlank c = true)
    (hback : ∀ c ∈ back, isBlank c = true) (range : Fragment) :
    rangeParts (front ++ (range ++ back)) = rangeParts range := by
  rw [rangeParts, trim_blanks_append_blanks hfront hback, rangeParts]

/-- The parts of a range alone in its token. -/
theorem tokenParts_of_slash_not_mem {range : Fragment} (h : '/' ∉ range) :
    tokenParts range = (rangeParts range, []) := by
  rw [tokenParts, List.splitOn_eq_singleton h]
  rfl

/-- The parts of a range in front of a slash. -/
theorem tokenParts_append_slash {range : Fragment} (h : '/' ∉ range) (behind : Fragment) :
    tokenParts (range ++ '/' :: behind) = (rangeParts range, (behind.splitOn '/').map trim) := by
  rw [tokenParts, List.splitOn_append_cons_self, List.splitOn_eq_singleton h]
  rfl

/-- The parts of one token. -/
theorem fieldParts_of_comma_not_mem {token : Fragment} (h : ',' ∉ token) :
    fieldParts token = [tokenParts token] := by
  rw [fieldParts, List.splitOn_eq_singleton h, List.map_singleton]

/-- The parts of two texts with a comma between them. -/
theorem fieldParts_append_comma (text rest : Fragment) :
    fieldParts (text ++ ',' :: rest) = fieldParts text ++ fieldParts rest := by
  rw [fieldParts, List.splitOn_append_cons_self, List.map_append, fieldParts, fieldParts]

/-- Blanks around a text do not change its parts. -/
theorem fieldParts_blanks {front back : Fragment} (hfront : ∀ c ∈ front, isBlank c = true)
    (hback : ∀ c ∈ back, isBlank c = true) (text : Fragment) :
    fieldParts (front ++ (text ++ back)) = fieldParts text :=
  fieldParts_eq_of_map_trim (map_trim_splitOn_blanks rfl hfront hback text)

/-- A range in front of a slash is the first part of a text, with the same parts behind it. -/
theorem exists_fieldParts_append_slash (rest : Fragment) :
    ∃ steps back, ∀ range, ',' ∉ range → '/' ∉ range →
      fieldParts (range ++ '/' :: rest) = (rangeParts range, steps) :: back := by
  have hcomma {range steps : Fragment} (h : ',' ∉ range) (hsteps : ',' ∉ steps) :
      ',' ∉ range ++ '/' :: steps := by
    simpa using And.intro h hsteps
  by_cases hrest : ',' ∈ rest
  · obtain ⟨steps, behind, rfl, hsteps⟩ := List.eq_append_cons_of_mem hrest
    refine ⟨(steps.splitOn '/').map trim, fieldParts behind, fun range hrange hslash => ?_⟩
    rw [← List.cons_append, ← List.append_assoc, fieldParts_append_comma,
      fieldParts_of_comma_not_mem (hcomma hrange hsteps), tokenParts_append_slash hslash]
    rfl
  · refine ⟨(rest.splitOn '/').map trim, [], fun range hrange hslash => ?_⟩
    rw [fieldParts_of_comma_not_mem (hcomma hrange hrest), tokenParts_append_slash hslash]

/-- A range that begins a text is its first part, with the same parts behind it. -/
theorem exists_fieldParts_append {after : Fragment}
    (h : ∀ c, (after.dropWhile isBlank).head? = some c → c = ',' ∨ c = '/') :
    ∃ steps back, ∀ range, ',' ∉ range → '/' ∉ range →
      fieldParts (range ++ after) = (rangeParts range, steps) :: back := by
  have hblanks : ∀ c ∈ after.takeWhile isBlank, isBlank c = true :=
    List.all_eq_true.mp List.all_takeWhile
  rw [← List.takeWhile_append_dropWhile (p := isBlank) (l := after)]
  generalize after.takeWhile isBlank = blanks at hblanks
  have hnot_mem {mark : Char} (hmark : isBlank mark = false) {range : Fragment}
      (h : mark ∉ range) : mark ∉ range ++ blanks :=
    fun hmem => (List.mem_append.mp hmem).elim h (not_mem_of_blanks hmark hblanks)
  have hparts (range : Fragment) : rangeParts (range ++ blanks) = rangeParts range :=
    rangeParts_blanks (List.forall_mem_nil _) hblanks range
  cases hafter : after.dropWhile isBlank with
  | nil =>
    refine ⟨[], [], fun range hcomma hslash => ?_⟩
    rw [List.append_nil, fieldParts_of_comma_not_mem (hnot_mem rfl hcomma),
      tokenParts_of_slash_not_mem (hnot_mem rfl hslash), hparts]
  | cons c rest =>
    rw [hafter] at h
    rcases h c rfl with rfl | rfl
    · refine ⟨[], fieldParts rest, fun range hcomma hslash => ?_⟩
      rw [← List.append_assoc, fieldParts_append_comma,
        fieldParts_of_comma_not_mem (hnot_mem rfl hcomma),
        tokenParts_of_slash_not_mem (hnot_mem rfl hslash), hparts]
      rfl
    · obtain ⟨steps, back, hback⟩ := exists_fieldParts_append_slash rest
      refine ⟨steps, back, fun range hcomma hslash => ?_⟩
      rw [← List.append_assoc, hback _ (hnot_mem rfl hcomma) (hnot_mem rfl hslash), hparts]

/-- **A range is a part of its field**, with the same parts in front of it and behind it whatever the
range is. -/
theorem AroundRange.exists_fieldParts {before after : Fragment} (h : AroundRange before after) :
    ∃ front steps back, ∀ range, ',' ∉ range → '/' ∉ range →
      fieldParts (before ++ (range ++ after)) = front ++ (rangeParts range, steps) :: back := by
  have hblanks : ∀ c ∈ before.rtakeWhile isBlank, isBlank c = true :=
    fun c => List.mem_rtakeWhile_imp
  obtain ⟨steps, back, hback⟩ := exists_fieldParts_append h.closes
  have hopens := h.opens
  rw [← @List.rdropWhile_append_rtakeWhile _ isBlank before]
  generalize before.rtakeWhile isBlank = blanks at hblanks
  have hparts {range : Fragment} (hcomma : ',' ∉ range) (hslash : '/' ∉ range) :
      fieldParts (blanks ++ (range ++ after)) = (rangeParts range, steps) :: back := by
    rw [← List.append_nil (range ++ after),
      fieldParts_blanks hblanks (List.forall_mem_nil _), hback range hcomma hslash]
  rcases (before.rdropWhile isBlank).eq_nil_or_concat with hbefore | ⟨front, c, hbefore⟩
  · refine ⟨[], steps, back, fun range hcomma hslash => ?_⟩
    rw [hbefore, List.nil_append, hparts hcomma hslash, List.nil_append]
  · rw [List.concat_eq_append] at hbefore
    obtain rfl : c = ',' := hopens c (by rw [hbefore, List.getLast?_concat])
    refine ⟨fieldParts front, steps, back, fun range hcomma hslash => ?_⟩
    rw [hbefore, List.append_assoc, List.append_assoc, List.singleton_append,
      fieldParts_append_comma, hparts hcomma hslash]

/-! ### Range dashes -/

/-- Between `before` and `after` stands a range without blanks in front, and the dash between `left`
and `right` separates two of its segments. -/
structure RangeDash (before left right after : Fragment) : Prop extends
    AroundRange before after where
  /-- The range does not begin with a blank: those belong to `before`. -/
  head : ∀ c, left.head? = some c → isBlank c = false
  /-- It is one range. -/
  not_mem : ∀ mark, mark = ',' ∨ mark = '/' → mark ∉ left ∧ mark ∉ right
  /-- The dash split separates at the dash. -/
  splits : dashSplit (left ++ '-' :: right) = dashSplit left ++ dashSplit right

namespace RangeDash

variable {before left right after : Fragment}

/-- The dash separates whatever stands behind it, and whatever blanks stand in front. -/
theorem dashSplit_eq (h : RangeDash before left right after)
    (hblanks : ∀ c ∈ blanks, isBlank c = true) (behind : Fragment) :
    (dashSplit (left ++ blanks ++ '-' :: behind)).map trim =
      (dashSplit left).map trim ++ (dashSplit behind).map trim := by
  obtain ⟨front, last, hleft⟩ := exists_dashSplit_eq_append left
  have hlast : last ≠ [] := by
    have := dashSplit_append_dash_iff.mp h.splits
    rw [hleft, List.getLast?_concat] at this
    exact fun hnil => this (congrArg some hnil)
  have hsplits : dashSplit (left ++ blanks ++ '-' :: behind) =
      dashSplit (left ++ blanks) ++ dashSplit behind := by
    rw [dashSplit_append_dash_iff, dashSplit_append_blanks hblanks hleft, List.getLast?_concat]
    simp [hlast]
  rw [hsplits, List.map_append, map_trim_dashSplit_append hblanks]

/-- The range does not begin with a blank, whatever stands behind its first segment. -/
theorem head_append (h : RangeDash before left right after) (behind : Fragment) :
    ∀ c, (left ++ behind).head? = some c → isBlank c = false := by
  have hleft : left ≠ [] := by
    rintro rfl
    exact dashSplit_append_dash_iff.mp h.splits rfl
  rw [List.head?_append_of_ne_nil _ hleft]
  exact h.head

/-- The parts of a range with other blanks in front of the dash and another text behind it. -/
theorem rangeParts_eq_of_blanks (h : RangeDash before left right after)
    (hblanks : ∀ c ∈ blanks, isBlank c = true) (behind : Fragment) :
    rangeParts (left ++ blanks ++ '-' :: behind) =
      (dashSplit left).map trim ++ (dashSplit behind).map trim := by
  have hhead := h.head_append (blanks ++ '-' :: behind)
  rw [← List.append_assoc] at hhead
  rw [rangeParts_of_head hhead, h.dashSplit_eq hblanks]

/-- The parts of a range with another text behind the dash. -/
theorem rangeParts_eq (h : RangeDash before left right after) (behind : Fragment) :
    rangeParts (left ++ '-' :: behind) =
      (dashSplit left).map trim ++ (dashSplit behind).map trim := by
  have := h.rangeParts_eq_of_blanks (List.forall_mem_nil _) behind
  rwa [List.append_nil] at this

end RangeDash

/-! ### Spacing -/

/-- Blanks put at the ends of a field or beside a separator in it; a sign stays at its range dash. -/
inductive Spaced : Fragment → Fragment → Prop
  /-- In front of the text and behind it. -/
  | ends {front back : Fragment} (text : Fragment) : (∀ c ∈ front, isBlank c = true) →
      (∀ c ∈ back, isBlank c = true) → Spaced text (front ++ (text ++ back))
  /-- In front of a comma or a slash, and behind it. -/
  | mark {mark : Char} {front back : Fragment} (before after : Fragment) : mark = ',' ∨ mark = '/' →
      (∀ c ∈ front, isBlank c = true) → (∀ c ∈ back, isBlank c = true) →
      Spaced (before ++ mark :: after) (before ++ (front ++ mark :: (back ++ after)))
  /-- In front of a range dash, and behind it unless a sign stands there. -/
  | dash {before left right after front back : Fragment} : RangeDash before left right after →
      (∀ c ∈ front, isBlank c = true) → (∀ c ∈ back, isBlank c = true) →
      (back ≠ [] → right.head? ≠ some '-') →
      Spaced (before ++ (left ++ '-' :: right ++ after))
        (before ++ (left ++ front ++ '-' :: (back ++ right) ++ after))

/-- Blanks put between a range dash and the sign behind it. -/
inductive SignParted : Fragment → Fragment → Prop
  /-- There is at least one blank. -/
  | intro {before left right after blanks : Fragment} : RangeDash before left ('-' :: right) after →
      (∀ c ∈ blanks, isBlank c = true) → blanks ≠ [] →
      SignParted (before ++ (left ++ '-' :: '-' :: right ++ after))
        (before ++ (left ++ '-' :: (blanks ++ '-' :: right) ++ after))

/-- Texts without commas that make the same parts of every token make the same parts of every
field. -/
theorem fieldParts_congr {middle middle' : Fragment} (hcomma : ',' ∉ middle)
    (hcomma' : ',' ∉ middle')
    (h : ∀ front back, tokenParts (front ++ (middle ++ back)) = tokenParts (front ++ (middle' ++ back)))
    (before after : Fragment) :
    fieldParts (before ++ (middle ++ after)) = fieldParts (before ++ (middle' ++ after)) := by
  have hnot_mem {front middle back : Fragment} (hfront : ',' ∉ front) (hmiddle : ',' ∉ middle)
      (hback : ',' ∉ back) : ',' ∉ front ++ (middle ++ back) := by
    simpa using And.intro hfront (And.intro hmiddle hback)
  induction before using @cut_induction _ ',' with
  | piece front hfront =>
    by_cases hafter : ',' ∈ after
    · obtain ⟨back, rest, rfl, hback⟩ := List.eq_append_cons_of_mem hafter
      have hcut (middle : Fragment) :
          front ++ (middle ++ (back ++ ',' :: rest)) = front ++ (middle ++ back) ++ ',' :: rest := by
        simp
      rw [hcut, hcut, fieldParts_append_comma, fieldParts_append_comma,
        fieldParts_of_comma_not_mem (hnot_mem hfront hcomma hback),
        fieldParts_of_comma_not_mem (hnot_mem hfront hcomma' hback), h]
    · rw [fieldParts_of_comma_not_mem (hnot_mem hfront hcomma hafter),
        fieldParts_of_comma_not_mem (hnot_mem hfront hcomma' hafter), h]
  | cut front rest hfront ih =>
    rw [List.append_assoc, List.append_assoc, List.cons_append, List.cons_append,
      fieldParts_append_comma, fieldParts_append_comma, ih]

section

variable {front back : Fragment} (hfront : ∀ c ∈ front, isBlank c = true)
  (hback : ∀ c ∈ back, isBlank c = true)

include hfront hback

/-- Blanks beside a separator do not change the trimmed pieces. -/
theorem map_trim_splitOn_mark {mark : Char} (hmark : isBlank mark = false)
    (before after : Fragment) :
    ((before ++ (front ++ mark :: (back ++ after))).splitOn mark).map trim =
      ((before ++ mark :: after).splitOn mark).map trim := by
  have hnone : ∀ c ∈ ([] : Fragment), isBlank c = true := List.forall_mem_nil _
  have hbefore := map_trim_splitOn_blanks hmark hnone hfront before
  have hafter := map_trim_splitOn_blanks hmark hback hnone after
  rw [List.append_nil] at hafter
  rw [← List.append_assoc, List.splitOn_append_cons_self, List.map_append, hafter,
    List.splitOn_append_cons_self, List.map_append, ← hbefore, List.nil_append]

/-- Blanks beside a comma or a slash do not change the parts of a field. -/
theorem fieldParts_mark {mark : Char} (hmark : mark = ',' ∨ mark = '/') (before after : Fragment) :
    fieldParts (before ++ (front ++ mark :: (back ++ after))) =
      fieldParts (before ++ mark :: after) := by
  rcases hmark with rfl | rfl
  · exact fieldParts_eq_of_map_trim (map_trim_splitOn_mark hfront hback rfl before after)
  · have hcomma : ',' ∉ front ++ '/' :: back := by
      have hcomma_blank : isBlank ',' = false := rfl
      simp [not_mem_of_blanks hcomma_blank hfront, not_mem_of_blanks hcomma_blank hback]
    have hslash (left right : Fragment) :
        tokenParts (left ++ (front ++ '/' :: back ++ right)) = tokenParts (left ++ '/' :: right) := by
      rw [List.append_assoc, List.cons_append]
      exact tokenParts_eq_of_map_trim (map_trim_splitOn_mark hfront hback rfl left right)
    have hparts := fieldParts_congr hcomma (by decide : ',' ∉ ['/']) hslash before after
    rwa [List.append_assoc, List.cons_append] at hparts

end

namespace RangeDash

variable {before left right after : Fragment}

/-- Blanks beside a range dash do not change the parts of its range, if no sign is parted from it. -/
theorem rangeParts_spaced (h : RangeDash before left right after) {front back : Fragment}
    (hfront : ∀ c ∈ front, isBlank c = true) (hback : ∀ c ∈ back, isBlank c = true)
    (hsign : back ≠ [] → right.head? ≠ some '-') :
    rangeParts (left ++ front ++ '-' :: (back ++ right)) = rangeParts (left ++ '-' :: right) := by
  have hbehind : (dashSplit (back ++ right)).map trim = (dashSplit right).map trim := by
    by_cases hnil : back = []
    · rw [hnil, List.nil_append]
    · exact map_trim_dashSplit_blanks_append hback (hsign hnil)
  rw [h.rangeParts_eq_of_blanks hfront, hbehind, h.rangeParts_eq]

/-- A range has several parts. -/
theorem two_le_length_rangeParts (h : RangeDash before left right after) :
    2 ≤ (rangeParts (left ++ '-' :: right)).length := by
  have hleft := List.length_pos_iff.mpr (dashSegments_ne_nil true left)
  have hright := List.length_pos_iff.mpr (dashSegments_ne_nil true right)
  rw [h.rangeParts_eq, List.length_append, List.length_map, List.length_map]
  exact Nat.add_le_add hleft hright

/-- A sign behind blanks is one more range dash. -/
theorem three_le_length_rangeParts (h : RangeDash before left right after)
    (hblanks : ∀ c ∈ blanks, isBlank c = true) (hne : blanks ≠ []) (behind : Fragment) :
    3 ≤ (rangeParts (left ++ '-' :: (blanks ++ '-' :: behind))).length := by
  have hleft := List.length_pos_iff.mpr (dashSegments_ne_nil true left)
  have hbehind := List.length_pos_iff.mpr (dashSegments_ne_nil true behind)
  have hdash : '-' ∉ blanks.tail :=
    fun hmem => not_mem_of_blanks rfl hblanks (List.mem_of_mem_tail hmem)
  rw [h.rangeParts_eq, dashSplit_append_dash hne hdash, List.length_append, List.length_map,
    List.length_map, List.length_cons]
  exact Nat.add_le_add hleft (Nat.succ_le_succ hbehind)

/-- The parts of the field around a range are the same whatever stands at its dash. -/
theorem exists_fieldParts_dash (h : RangeDash before left right after) :
    ∃ parts steps rest, ∀ {front back : Fragment}, (∀ c ∈ front, isBlank c = true) →
      (∀ c ∈ back, isBlank c = true) →
      fieldParts (before ++ (left ++ front ++ '-' :: (back ++ right) ++ after)) =
        parts ++ (rangeParts (left ++ front ++ '-' :: (back ++ right)), steps) :: rest := by
  obtain ⟨parts, steps, rest, hparts⟩ := h.toAroundRange.exists_fieldParts
  refine ⟨parts, steps, rest, fun {front back} hfront hback => hparts _ ?_ ?_⟩
  · obtain ⟨hleft, hright⟩ := h.not_mem ',' (.inl rfl)
    have hcomma : isBlank ',' = false := rfl
    simp [hleft, hright, not_mem_of_blanks hcomma hfront, not_mem_of_blanks hcomma hback]
  · obtain ⟨hleft, hright⟩ := h.not_mem '/' (.inr rfl)
    have hslash : isBlank '/' = false := rfl
    simp [hleft, hright, not_mem_of_blanks hslash hfront, not_mem_of_blanks hslash hback]

end RangeDash

/-- **Spacing a field does not change its parts.** -/
theorem fieldParts_of_spaced {other : Fragment} (h : Spaced text other) :
    fieldParts other = fieldParts text := by
  have hnone : ∀ c ∈ ([] : Fragment), isBlank c = true := List.forall_mem_nil _
  cases h with
  | ends text hfront hback => exact fieldParts_blanks hfront hback text
  | mark before after hmark hfront hback => exact fieldParts_mark hfront hback hmark before after
  | dash hdash hfront hback hsign =>
    obtain ⟨parts, steps, rest, hparts⟩ := hdash.exists_fieldParts_dash
    have hplain := hparts hnone hnone
    rw [List.append_nil, List.nil_append] at hplain
    rw [hparts hfront hback, hplain, hdash.rangeParts_spaced hfront hback hsign]

namespace Field

/-- **Blanks around separators change neither what a field selects nor why it is refused**; only the
text that a refusal quotes has them too. A sign that blanks part from its range dash is refused: a
field that is accepted without them is refused for a malformed range, and one that is refused is
refused for that or for the same as before. -/
theorem select_of_spaced (f : Field) :
    (∀ text other : Fragment, Relation.ReflTransGen Spaced text other →
      SameUnquoted (f.select text) (f.select other)) ∧
    ∀ text other : Fragment, SignParted text other →
      (∀ s, f.select text = .ok s →
        (f.select other).mapError ParseError.unquoted = .error (.malformedRange f [])) ∧
      ∀ e, f.select text = .error e → ∃ e', f.select other = .error e' ∧
        (e'.unquoted = .malformedRange f [] ∨ e'.unquoted = e.unquoted) := by
  constructor
  · intro text other h
    have hparts : fieldParts text = fieldParts other := by
      induction h with
      | refl => rfl
      | tail _ hspaced ih => rw [ih, fieldParts_of_spaced hspaced]
    exact select_sameUnquoted hparts
  · rintro text other ⟨hdash, hblanks, hne⟩
    obtain ⟨parts, steps, rest, hparts⟩ := hdash.exists_fieldParts_dash
    have hnone : ∀ c ∈ ([] : Fragment), isBlank c = true := List.forall_mem_nil _
    have htext := hparts hnone hnone
    have hother := hparts hnone hblanks
    rw [List.append_nil] at htext hother
    obtain ⟨e', he', hcause⟩ : RefusedRange f (f.select _) (f.select _) :=
      select_refusedRange htext hother hdash.two_le_length_rangeParts
        (hdash.three_le_length_rangeParts hblanks hne _)
    rw [List.nil_append] at hcause
    constructor
    · intro s hs
      rcases hcause with hcause | hcause
      · rw [he']
        exact congrArg Except.error hcause
      · rw [hs] at hcause
        exact nomatch hcause
    · intro e he
      refine ⟨e', he', hcause.imp_right fun hcause => ?_⟩
      rw [he] at hcause
      exact (Except.error.inj hcause).symm

/-- Every other hour from the fifth before the last to hour 3, and the last hour, with blanks at its
dash, its slash and its comma; and up to the hour before the last, with a blank in front of the sign,
from an hour and from no hour. -/
theorem select_of_spaced_hours :
    (Relation.ReflTransGen Spaced "-5-3/2,L".toList "-5 -\t3 /2, L ".toList ∧
      hour.select "-5-3/2,L".toList = .ok (.listed [18, 20, 22, 0, 2, 23]) ∧
      SameUnquoted (hour.select "-5-3/2,L".toList) (hour.select "-5 -\t3 /2, L ".toList)) ∧
    (SignParted "20--1".toList "20- -1".toList ∧
      hour.select "20--1".toList = .ok (.listed [20, 21, 22]) ∧
      (hour.select "20- -1".toList).mapError ParseError.unquoted =
        .error (.malformedRange hour [])) ∧
    SignParted "24--1".toList "24- -1".toList ∧
      hour.select "24--1".toList = .error (.outOfRange hour 24) ∧
      ∃ e', hour.select "24- -1".toList = .error e' ∧
        (e'.unquoted = .malformedRange hour [] ∨
          e'.unquoted = (ParseError.outOfRange hour 24).unquoted) := by
  have hspace : ∀ c ∈ [' '], isBlank c = true := List.forall_mem_singleton.mpr rfl
  have hspaced : Relation.ReflTransGen Spaced "-5-3/2,L".toList "-5 -\t3 /2, L ".toList := by
    have hdash : RangeDash [] ['-', '5'] ['3'] ['/', '2', ',', 'L'] := by
      refine ⟨⟨?_, ?_⟩, ?_, ?_, by decide⟩
      · rintro c ⟨⟩
      · rintro c ⟨⟩
        exact .inr rfl
      · rintro c ⟨⟩
        rfl
      · rintro mark (rfl | rfl) <;> decide
    have htab : ∀ c ∈ ['\t'], isBlank c = true := List.forall_mem_singleton.mpr rfl
    have hslash : Spaced _ _ := @Spaced.mark '/' [' '] [] ['-', '5', ' ', '-', '\t', '3']
      ['2', ',', 'L'] (.inr rfl) hspace (List.forall_mem_nil _)
    have hcomma : Spaced _ _ := @Spaced.mark ',' [] [' '] ['-', '5', ' ', '-', '\t', '3', ' ', '/', '2']
      ['L'] (.inl rfl) (List.forall_mem_nil _) hspace
    have hends : Spaced _ _ := @Spaced.ends [] [' ']
      ['-', '5', ' ', '-', '\t', '3', ' ', '/', '2', ',', ' ', 'L'] (List.forall_mem_nil _) hspace
    exact .tail (.tail (.tail (.single (@Spaced.dash [] _ _ _ [' '] ['\t'] hdash hspace htab
      (by decide))) hslash) hcomma) hends
  have halone : AroundRange [] [] := ⟨by rintro c ⟨⟩, by rintro c ⟨⟩⟩
  have hparted : SignParted "20--1".toList "20- -1".toList := by
    have hdash : RangeDash [] ['2', '0'] ['-', '1'] [] := by
      refine ⟨halone, ?_, ?_, by decide⟩
      · rintro c ⟨⟩
        rfl
      · rintro mark (rfl | rfl) <;> decide
    exact @SignParted.intro [] ['2', '0'] ['1'] [] [' '] hdash hspace (by decide)
  have hparted_late : SignParted "24--1".toList "24- -1".toList := by
    have hdash : RangeDash [] ['2', '4'] ['-', '1'] [] := by
      refine ⟨halone, ?_, ?_, by decide⟩
      · rintro c ⟨⟩
        rfl
      · rintro mark (rfl | rfl) <;> decide
    exact @SignParted.intro [] ['2', '4'] ['1'] [] [' '] hdash hspace (by decide)
  have hhour : hour.select "20--1".toList = .ok (.listed [20, 21, 22]) := by
    decide +kernel
  have hlate : hour.select "24--1".toList = .error (.outOfRange hour 24) := by
    decide +kernel
  exact ⟨⟨hspaced, by decide +kernel, (select_of_spaced hour).1 _ _ hspaced⟩,
    ⟨hparted, hhour, ((select_of_spaced hour).2 _ _ hparted).1 _ hhour⟩,
    hparted_late, hlate, ((select_of_spaced hour).2 _ _ hparted_late).2 _ hlate⟩

/-- From hour 20 to the hour before the last, with a blank behind the range dash: the sign is taken
for a second range dash. -/
theorem select_parted_sign_ne :
    dashSplit "20--1".toList = ["20".toList, "-1".toList] ∧
      hour.select "20--1".toList = .ok (.listed [20, 21, 22]) ∧
      hour.select "20- -1".toList = .error (.malformedRange hour "20- -1".toList) := by
  decide +kernel

end Field

end CronSchedule
