import CronSchedule.Proofs.Acceptance
import CronSchedule.Proofs.Text.Segments
import CronSchedule.Proofs.Text.Trimming
import CronSchedule.Selection

/-!
# The parts of a field

What is read of a field are its parts, without the blanks around them:

* `rangeParts range` — the segments of a range, trimmed;
* `tokenParts token` — those of its range, and what stands behind its slashes;
* `fieldParts text` — those of its tokens.

A refusal may quote the text it is about, with its blanks. Readings are compared up to that:

* `ParseError.unquoted` — a refusal without the token or the field it quotes;
* `SameUnquoted x y` — the same result, or refusals that are the same when nothing is quoted.

Main statements: **fields with the same parts are read alike** (`Field.select_sameUnquoted`), reader
by reader from the values upward; and a token whose range has more than two parts is refused
(`Field.readToken_refusedRange`), and with it the field (`Field.select_refusedRange`).
-/

namespace CronSchedule

/-! ### Results up to what a refusal quotes -/

/-- A refusal without the token or the field it quotes. A name and a value that are refused stay:
no blanks stand around a name. -/
def ParseError.unquoted : ParseError → ParseError
  | emptyPart f _ => emptyPart f []
  | nonPositiveStep f _ => nonPositiveStep f []
  | malformedToken f _ => malformedToken f []
  | malformedRange f _ => malformedRange f []
  | e => e

section

variable {α β γ : Type} {x y : Except ParseError α}

/-- The same result, or refusals that are the same up to what they quote. -/
def SameUnquoted (x y : Except ParseError α) : Prop :=
  x.mapError ParseError.unquoted = y.mapError ParseError.unquoted

/-- A result is the same as itself. -/
theorem SameUnquoted.refl (x : Except ParseError α) : SameUnquoted x x := rfl

/-- One reading after another has the same result when both have. -/
theorem SameUnquoted.bind {k l : α → Except ParseError β} (h : SameUnquoted x y)
    (hk : ∀ a, SameUnquoted (k a) (l a)) : SameUnquoted (x >>= k) (y >>= l) := by
  rw [SameUnquoted, mapError_bind, mapError_bind, h, funext hk]

/-- The same results changed afterwards in the same way are the same. -/
theorem SameUnquoted.map (h : SameUnquoted x y) (g : α → β) : SameUnquoted (g <$> x) (g <$> y) := by
  rw [map_eq_pure_bind, map_eq_pure_bind]
  exact h.bind fun a => .refl _

/-- Lists whose members are read alike, one by one, are read alike. -/
theorem SameUnquoted.mapM {read read' : γ → Except ParseError α} {xs ys : List γ}
    (h : List.Forall₂ (fun x y => SameUnquoted (read x) (read' y)) xs ys) :
    SameUnquoted (xs.mapM read) (ys.mapM read') := by
  induction h with
  | nil => exact .refl _
  | cons hxy _ ih =>
    rw [List.mapM_cons, List.mapM_cons]
    exact hxy.bind fun a => ih.bind fun rest => .refl _

/-- The second reading is refused for a malformed range, or for what the first is refused for. -/
def RefusedRange (f : Field) (x y : Except ParseError α) : Prop :=
  ∃ e, y = .error e ∧ (e.unquoted = .malformedRange f [] ∨ SameUnquoted x (.error e))

/-- What is refused for a malformed range at the second step is refused so in two. -/
theorem RefusedRange.bind {f : Field} {k l : α → Except ParseError β} (h : SameUnquoted x y)
    (hk : ∀ a, RefusedRange f (k a) (l a)) : RefusedRange f (x >>= k) (y >>= l) := by
  cases y with
  | error e =>
    refine ⟨e, rfl, .inr ?_⟩
    rw [SameUnquoted, mapError_bind, h]
    rfl
  | ok b =>
    cases x with
    | error e => exact nomatch h
    | ok a =>
      cases h
      exact hk b

/-- What is refused for a malformed range at the first step is refused so in two. -/
theorem RefusedRange.bind_left {f : Field} (h : RefusedRange f x y)
    (k l : α → Except ParseError β) : RefusedRange f (x >>= k) (y >>= l) := by
  obtain ⟨e, rfl, he⟩ := h
  refine ⟨e, rfl, he.imp_right fun h => ?_⟩
  rw [SameUnquoted, mapError_bind, h]
  rfl

end

/-! ### Parts -/

/-- The segments of a range, without the blanks around it and around them. -/
def rangeParts (range : Fragment) : List Fragment := (dashSplit (trim range)).map trim

/-- The parts of a token: those of its range, and the texts behind its slashes. -/
def tokenParts (token : Fragment) : List Fragment × List Fragment :=
  (rangeParts ((token.splitOn '/').headD []), (token.splitOn '/').tail.map trim)

/-- The parts of the tokens of a field. -/
def fieldParts (text : Fragment) : List (List Fragment × List Fragment) :=
  (text.splitOn ',').map tokenParts

/-- A range that begins on a sign, stepped, and a value. -/
example : fieldParts " -5 - 3/ 2 ,\tmon".toList =
    [(["-5".toList, "3".toList], ["2".toList]), (["mon".toList], [])] := by decide

/-- Trimming a range does not change its parts. -/
theorem rangeParts_trim (range : Fragment) : rangeParts (trim range) = rangeParts range := by
  rw [rangeParts, trim_trim, rangeParts]

/-- A range is one part when it has no dash but a sign. -/
theorem rangeParts_eq_singleton_iff {range part : Fragment} :
    rangeParts range = [part] ↔ trim range = part ∧ '-' ∉ part.tail := by
  rw [rangeParts, List.map_eq_singleton_iff]
  constructor
  · rintro ⟨segment, hsegment, rfl⟩
    obtain ⟨htrim, hdash⟩ := dashSplit_eq_singleton_iff.mp hsegment
    rw [← htrim, trim_trim, htrim]
    exact ⟨rfl, hdash⟩
  · rintro ⟨rfl, hdash⟩
    exact ⟨trim range, dashSplit_of_segment hdash, trim_trim range⟩

/-- Tokens with the same trimmed pieces between slashes have the same parts. -/
theorem tokenParts_eq_of_map_trim {token other : Fragment}
    (h : (token.splitOn '/').map trim = (other.splitOn '/').map trim) :
    tokenParts token = tokenParts other := by
  obtain ⟨range, steps, htoken⟩ := List.exists_cons_of_ne_nil (List.splitOn_ne_nil '/' token)
  obtain ⟨range', steps', hother⟩ := List.exists_cons_of_ne_nil (List.splitOn_ne_nil '/' other)
  rw [htoken, hother, List.map_cons, List.map_cons, List.cons_eq_cons] at h
  rw [tokenParts, tokenParts, htoken, hother, List.headD_cons, List.headD_cons, List.tail_cons,
    List.tail_cons, h.2, ← rangeParts_trim, h.1, rangeParts_trim]

/-- Trimming a token does not change its parts. -/
theorem tokenParts_trim (token : Fragment) : tokenParts (trim token) = tokenParts token :=
  tokenParts_eq_of_map_trim (map_trim_splitOn_trim rfl token)

/-- A token is blank when its one part is. -/
theorem tokenParts_eq_nil_iff {token : Fragment} :
    tokenParts token = ([[]], []) ↔ trim token = [] := by
  rw [@trim_eq_nil_iff_map_trim_splitOn '/' rfl, tokenParts]
  obtain ⟨range, steps, htoken⟩ := List.exists_cons_of_ne_nil (List.splitOn_ne_nil '/' token)
  rw [htoken, List.headD_cons, List.tail_cons, Prod.mk.injEq, rangeParts_eq_singleton_iff,
    List.map_cons, List.cons_eq_cons]
  simp

/-! ### Reading by parts -/

variable {f : Field} {text text' : Fragment}

/-- A value is read from a text without the blanks around it. -/
theorem Field.readValue_sameUnquoted (h : trim text = trim text') (token token' : Fragment) :
    SameUnquoted (f.readValue token text) (f.readValue token' text') := by
  simp only [readValue, h]
  split
  · rfl
  · exact .refl _

/-- So is the start of a stepped sequence. -/
theorem Field.readStart_sameUnquoted (h : trim text = trim text') (token token' : Fragment) :
    SameUnquoted (f.readStart token text) (f.readStart token' text') := by
  simp only [readStart, h]
  split
  · rfl
  · exact .refl _

namespace Term

/-- So is a step. -/
theorem readStep_sameUnquoted (h : trim text = trim text') (token token' : Fragment) :
    SameUnquoted (readStep f token text) (readStep f token' text') := by
  simp only [readStep, h]
  split
  · split
    · exact .refl _
    · rfl
  · rfl

/-- A text of several segments is neither blank nor a wildcard. -/
theorem ne_of_length_dashSplit_ne_one {range : Fragment} (h : (dashSplit range).length ≠ 1) :
    range ≠ [] ∧ ¬(range = ['*'] ∨ range = ['?']) := by
  refine ⟨?_, not_or.mpr ⟨?_, ?_⟩⟩
  · rintro rfl
    exact h rfl
  · rintro rfl
    exact h rfl
  · rintro rfl
    exact h rfl

/-- A range of two segments is read as its ends. -/
theorem readRange_of_pair {left right : Fragment} (h : dashSplit (trim text) = [left, right])
    (token : Fragment) (step : Option Nat) :
    readRange f token text step = (do
      let start ← f.readValue token left
      if f = .dayOfWeek ∧ trim right = ['7'] then
        return rangeToSunday (if trim left = ['7'] then 7 else start) (step.getD 1)
      else
        return range start (← f.readValue token right) (step.getD 1)) := by
  have hlength : (dashSplit (trim text)).length ≠ 1 := by
    rw [h]
    exact Nat.succ_succ_ne_one 0
  obtain ⟨hempty, hwild⟩ := ne_of_length_dashSplit_ne_one hlength
  simp only [readRange, if_neg hempty, if_neg hwild, h]

/-- A range of more segments is refused. -/
theorem readRange_of_many (h : 3 ≤ (rangeParts text).length) (token : Fragment)
    (step : Option Nat) : readRange f token text step = .error (.malformedRange f token) := by
  rw [rangeParts, List.length_map] at h
  obtain ⟨hempty, hwild⟩ :=
    ne_of_length_dashSplit_ne_one (Nat.ne_of_gt (Nat.lt_of_lt_of_le (by decide) h))
  simp only [readRange, if_neg hempty, if_neg hwild]
  split
  · next hsplit =>
    rw [hsplit] at h
    exact absurd h (by simp)
  · next hsplit =>
    rw [hsplit] at h
    exact absurd h (by simp)
  · rfl

/-- **Ranges with the same parts are read alike.** -/
theorem readRange_sameUnquoted (h : rangeParts text = rangeParts text') (token token' : Fragment)
    (step : Option Nat) :
    SameUnquoted (readRange f token text step) (readRange f token' text' step) := by
  rcases hsplit : dashSplit (trim text) with _ | ⟨left, _ | ⟨right, _ | ⟨third, others⟩⟩⟩
  · exact absurd hsplit (dashSegments_ne_nil true _)
  · -- one segment is the whole of the range
    have hsame : trim text = trim text' := by
      obtain ⟨htext, hdash⟩ := dashSplit_eq_singleton_iff.mp hsplit
      have hpart : rangeParts text = [left] := rangeParts_eq_singleton_iff.mpr ⟨htext, hdash⟩
      rw [htext, (rangeParts_eq_singleton_iff.mp (h ▸ hpart)).1]
    simp only [readRange, ← hsame, hsplit]
    split
    · rfl
    · split
      · exact .refl _
      · split
        · exact (Field.readValue_sameUnquoted rfl token token').map _
        · exact (Field.readStart_sameUnquoted rfl token token').map _
  · have hparts : rangeParts text' = [trim left, trim right] := by
      rw [← h, rangeParts, hsplit]
      rfl
    obtain ⟨left', behind, hsplit', hleft, hbehind⟩ := List.map_eq_cons_iff.mp hparts
    obtain ⟨right', rfl, hright⟩ := List.map_eq_singleton_iff.mp hbehind
    rw [readRange_of_pair hsplit, readRange_of_pair hsplit', hleft, hright]
    refine (Field.readValue_sameUnquoted hleft.symm token token').bind fun start => ?_
    split
    · exact .refl _
    · exact (Field.readValue_sameUnquoted hright.symm token token').bind fun stop => .refl _
  · have hlength : 3 ≤ (rangeParts text).length := by
      rw [rangeParts, hsplit]
      simp
    rw [readRange_of_many hlength, readRange_of_many (h ▸ hlength)]
    rfl

/-! ### Tokens -/

variable {token token' : Fragment}

/-- **Tokens with the same parts are read alike.** -/
theorem read_sameUnquoted (h : tokenParts token = tokenParts token') :
    SameUnquoted (read f token) (read f token') := by
  obtain ⟨range, steps, htoken⟩ := List.exists_cons_of_ne_nil (List.splitOn_ne_nil '/' token)
  obtain ⟨range', steps', htoken'⟩ := List.exists_cons_of_ne_nil (List.splitOn_ne_nil '/' token')
  simp only [tokenParts, htoken, htoken', List.headD_cons, List.tail_cons, Prod.mk.injEq] at h
  obtain ⟨hrange, hsteps⟩ := h
  rw [read, read, htoken, htoken']
  rcases steps with _ | ⟨step, _ | ⟨second, others⟩⟩
  · rw [List.map_eq_nil_iff.mp hsteps.symm]
    exact readRange_sameUnquoted hrange token token' none
  · obtain ⟨step', rfl, hstep⟩ := List.map_eq_singleton_iff.mp hsteps.symm
    exact (readStep_sameUnquoted hstep.symm token token').bind fun n =>
      readRange_sameUnquoted hrange token token' (some n)
  · obtain ⟨step', _, rfl, -, hothers⟩ := List.map_eq_cons_iff.mp hsteps.symm
    obtain ⟨second', others', rfl, -, -⟩ := List.map_eq_cons_iff.mp hothers
    rfl

/-- **A token whose range has more than two parts is refused** for it, or for what stands behind
its slashes. -/
theorem read_refusedRange (hsteps : (tokenParts token).2 = (tokenParts token').2)
    (hmany : 3 ≤ (tokenParts token').1.length) :
    RefusedRange f (read f token) (read f token') := by
  obtain ⟨range, steps, htoken⟩ := List.exists_cons_of_ne_nil (List.splitOn_ne_nil '/' token)
  obtain ⟨range', steps', htoken'⟩ := List.exists_cons_of_ne_nil (List.splitOn_ne_nil '/' token')
  simp only [tokenParts, htoken, htoken', List.headD_cons, List.tail_cons] at hsteps hmany
  rw [read, read, htoken, htoken']
  rcases steps with _ | ⟨step, _ | ⟨second, others⟩⟩
  · rw [List.map_eq_nil_iff.mp hsteps.symm]
    exact ⟨_, readRange_of_many hmany token' none, .inl rfl⟩
  · obtain ⟨step', rfl, hstep⟩ := List.map_eq_singleton_iff.mp hsteps.symm
    exact RefusedRange.bind (readStep_sameUnquoted hstep.symm token token') fun n =>
      ⟨_, readRange_of_many hmany token' (some n), .inl rfl⟩
  · obtain ⟨step', _, rfl, -, hothers⟩ := List.map_eq_cons_iff.mp hsteps.symm
    obtain ⟨second', others', rfl, -, -⟩ := List.map_eq_cons_iff.mp hothers
    exact ⟨_, rfl, .inr rfl⟩

end Term

namespace Field

variable {token token' other : Fragment}

/-- A token in its field is read by its parts. -/
theorem readToken_sameUnquoted (h : tokenParts token = tokenParts token') (text other : Fragment) :
    SameUnquoted (f.readToken text token) (f.readToken other token') := by
  have hblank : trim token = [] ↔ trim token' = [] := by
    rw [← tokenParts_eq_nil_iff, h, tokenParts_eq_nil_iff]
  unfold readToken
  by_cases htoken : trim token = []
  · rw [if_pos htoken, if_pos (hblank.mp htoken)]
    rfl
  · rw [if_neg htoken, if_neg (mt hblank.mpr htoken)]
    exact Term.read_sameUnquoted (by rw [tokenParts_trim, h, tokenParts_trim])

/-- A token is not blank when its range has several parts. -/
theorem trim_ne_nil_of_tokenParts (h : 2 ≤ (tokenParts token).1.length) : trim token ≠ [] := by
  intro hblank
  rw [tokenParts_eq_nil_iff.mpr hblank] at h
  exact absurd h (by decide)

/-- **A token in its field whose range has more than two parts is refused** for it, or for what
stands behind its slashes. -/
theorem readToken_refusedRange (hsteps : (tokenParts token).2 = (tokenParts token').2)
    (hseveral : 2 ≤ (tokenParts token).1.length) (hmany : 3 ≤ (tokenParts token').1.length)
    (text other : Fragment) : RefusedRange f (f.readToken text token) (f.readToken other token') := by
  unfold readToken
  rw [if_neg (trim_ne_nil_of_tokenParts hseveral),
    if_neg (trim_ne_nil_of_tokenParts (Nat.le_of_succ_le hmany))]
  rw [← tokenParts_trim token, ← tokenParts_trim token'] at hsteps
  exact Term.read_refusedRange hsteps (by rwa [tokenParts_trim])

end Field

/-! ### Fields -/

/-- Texts with the same trimmed pieces between commas have the same parts. -/
theorem fieldParts_eq_of_map_trim {other : Fragment}
    (h : (text.splitOn ',').map trim = (other.splitOn ',').map trim) :
    fieldParts text = fieldParts other := by
  have htrim (text : Fragment) : fieldParts text = ((text.splitOn ',').map trim).map tokenParts := by
    rw [fieldParts, List.map_map]
    exact List.map_congr_left fun token _ => (tokenParts_trim token).symm
  rw [htrim, h, ← htrim]

/-- Trimming a text does not change its parts. -/
theorem fieldParts_trim (text : Fragment) : fieldParts (trim text) = fieldParts text :=
  fieldParts_eq_of_map_trim (map_trim_splitOn_trim rfl text)

/-- A text is blank when its one token is. -/
theorem fieldParts_eq_nil_iff : fieldParts text = [([[]], [])] ↔ trim text = [] := by
  rw [@trim_eq_nil_iff_map_trim_splitOn ',' rfl, fieldParts, List.map_eq_singleton_iff,
    List.map_eq_singleton_iff]
  simp only [tokenParts_eq_nil_iff]

namespace Field

variable {other : Fragment}

/-- **Fields with the same parts are read alike.** -/
theorem select_sameUnquoted (h : fieldParts text = fieldParts other) :
    SameUnquoted (f.select text) (f.select other) := by
  have hblank : trim text = [] ↔ trim other = [] := by
    rw [← fieldParts_eq_nil_iff, h, fieldParts_eq_nil_iff]
  refine SameUnquoted.map ?_ _
  unfold readTerms
  by_cases htext : trim text = []
  · rw [if_pos htext, if_pos (hblank.mp htext)]
    rfl
  · rw [if_neg htext, if_neg (mt hblank.mpr htext)]
    have hparts : List.Forall₂ (fun token token' => tokenParts token = tokenParts token')
        ((trim text).splitOn ',') ((trim other).splitOn ',') := by
      rw [← List.forall₂_map_right_iff, ← List.forall₂_map_left_iff, List.forall₂_eq_eq_eq]
      rw [← fieldParts_trim text, ← fieldParts_trim other] at h
      exact h
    exact SameUnquoted.mapM (hparts.imp fun token token' htoken =>
      readToken_sameUnquoted htoken (trim text) (trim other))

/-- **A field in which one range has more than two parts is refused** for it, or for what the field
is refused for with any other range of several parts in its place. -/
theorem select_refusedRange {front back : List (List Fragment × List Fragment)}
    {ends ends' steps : List Fragment} (htext : fieldParts text = front ++ (ends, steps) :: back)
    (hother : fieldParts other = front ++ (ends', steps) :: back) (hseveral : 2 ≤ ends.length)
    (hmany : 3 ≤ ends'.length) : RefusedRange f (f.select text) (f.select other) := by
  have hne {ends : List Fragment} (h : 2 ≤ ends.length) :
      front ++ (ends, steps) :: back ≠ [([[]], [])] := by
    intro heq
    have hmem : (ends, steps) ∈ [([[]], [])] := by
      rw [← heq]
      simp
    cases List.mem_singleton.mp hmem
    exact absurd h (by decide)
  have hblank : trim text ≠ [] := mt fieldParts_eq_nil_iff.mpr (htext ▸ hne hseveral)
  have hblank' : trim other ≠ [] :=
    mt fieldParts_eq_nil_iff.mpr (hother ▸ hne (Nat.le_of_succ_le hmany))
  rw [← fieldParts_trim] at htext hother
  obtain ⟨tokens, behind, htokens, hfront, hbehind⟩ := List.map_eq_append_iff.mp htext
  obtain ⟨token, rest, rfl, htoken, hrest⟩ := List.map_eq_cons_iff.mp hbehind
  obtain ⟨tokens', behind', htokens', hfront', hbehind'⟩ := List.map_eq_append_iff.mp hother
  obtain ⟨token', rest', rfl, htoken', hrest'⟩ := List.map_eq_cons_iff.mp hbehind'
  have hparts : List.Forall₂ (fun token token' => tokenParts token = tokenParts token')
      tokens tokens' := by
    rw [← List.forall₂_map_right_iff, ← List.forall₂_map_left_iff, List.forall₂_eq_eq_eq, hfront,
      hfront']
  unfold select readTerms
  rw [map_eq_pure_bind, map_eq_pure_bind, if_neg hblank, if_neg hblank', htokens, htokens',
    List.mapM_append, List.mapM_append, List.mapM_cons, List.mapM_cons]
  refine RefusedRange.bind_left (.bind ?_ fun _ => .bind_left (.bind_left ?_ _ _) _ _) _ _
  · exact SameUnquoted.mapM (hparts.imp fun token token' htoken =>
      readToken_sameUnquoted htoken (trim text) (trim other))
  · exact readToken_refusedRange (by rw [htoken, htoken']) (by rwa [htoken]) (by rwa [htoken'])
      (trim text) (trim other)

end Field

end CronSchedule
