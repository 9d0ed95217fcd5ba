import CronSchedule.Proofs.Schedule.Alternatives
import CronSchedule.Proofs.Validation.Agreement
import CronSchedule.Proofs.Validation.Warnings

/-!
# What a report tells, and where

The findings on an expression are those on its alternatives, one alternative after the other, and
each of them lies in the alternative it was found in.

* `Place.index?`, `Place.Before` — the alternative of a place, and the order of places: by
  alternative, and in an alternative by field.
* `Faulty text path cause` — at a path of an expression something is refused, and for what cause:
  a blank alternative, one with a wrong number of words, or a field of any other.
* `Report.Tells r text` — a report that tells just these, each once and in order, and warns of no
  alternative in which something is refused.
* `Report.problemsAt`, `Report.warningsAt` — the findings at one alternative.

Findings of either kind are gathered alternative by alternative
(`Report.Gathers.findings_checkAlternatives`), so those at one alternative are the findings on that
alternative alone (`Report.Gathers.filter_findings_validate`), whatever its neighbours are.

Main statement: **a report tells every fault once, in its place, and no alternative shows in what is
found at another** (`validate_tells_each_fault_once`).
-/

namespace CronSchedule

/-! ### Places in order -/

/-- The index of the alternative in which a place lies. -/
def Place.index? : Place → Option Nat
  | expression => none
  | alternative index | field index _ => some index

/-- The order of places: by alternative, and in an alternative by field. -/
inductive Place.Before : Place → Place → Prop
  | alternatives {p q : Place} {i j : Nat} : p.index? = some i → q.index? = some j → i < j →
      Before p q
  | fields {index : Nat} {f g : Field} : f.index < g.index → Before (field index f) (field index g)

/-! ### Faults -/

/-- At a path of an expression something is refused, for a cause. -/
inductive Faulty (text : Fragment) : String → ParseError → Prop
  /-- A blank alternative. -/
  | blankAlternative {i : Nat} : (alternatives text)[i]? = some [] →
      Faulty text s!"alternatives[{i}]" (.emptyAlternative (trim text) i)
  /-- An alternative with a number of words other than five, six or seven. -/
  | fieldCount {i : Nat} {alternative : Fragment} : (alternatives text)[i]? = some alternative →
      alternative ≠ [] → (words alternative).length ∉ [5, 6, 7] →
      Faulty text s!"alternatives[{i}]" (.fieldCount alternative (words alternative).length)
  /-- A field of any other alternative, with the defaults of the alternative written out. -/
  | field {i : Nat} {alternative : Fragment} {row : PerField Fragment} {f : Field}
      {cause : ParseError} : (alternatives text)[i]? = some alternative →
      row.toList = paddedWords (words alternative) → f.compile (row.get f) = .error cause →
      Faulty text s!"alternatives[{i}].{f.name}" cause

/-- A report that tells the faults of an expression, and nothing else. -/
structure Report.Tells (r : Report) (text : Fragment) : Prop where
  /-- There is a problem at a path with a wording exactly when something is refused there for a
  cause of that wording. -/
  exact : ∀ path cause message,
    (∃ p ∈ r.problems, p.place.path = path ∧ p.cause = cause ∧ p.message = message) ↔
      Faulty text path cause ∧ message = cause.message
  /-- Each problem lies behind the one in front of it, so there is no more than one at a place. -/
  ordered : r.problems.Pairwise fun p q => p.place.Before q.place
  /-- No alternative has a problem and a warning. -/
  apart : ∀ w ∈ r.warnings, ∀ p ∈ r.problems, w.place.index? ≠ p.place.index?

/-- The problems at the alternative at an index. -/
def Report.problemsAt (r : Report) (index : Nat) : List Problem :=
  r.problems.filter fun p => p.place.index? = some index

/-- The warnings of the alternative at an index. -/
def Report.warningsAt (r : Report) (index : Nat) : List Warning :=
  r.warnings.filter fun w => w.place.index? = some index

/-! ### Members and their indices -/

section

variable {α β : Type} {found : β × Nat → List α}

/-- Of what is found in each member with its index, only what is found in the member at one index
is kept. -/
theorem flatMap_ite_zipIdx {members : List β} {first i : Nat} {member : β}
    (h : members[i]? = some member) :
    ((members.zipIdx first).flatMap fun item => if item.2 = first + i then found item else []) =
      found (member, first + i) := by
  induction members generalizing first i with
  | nil => exact nomatch h
  | cons other members ih =>
    rw [List.zipIdx_cons, List.flatMap_cons]
    cases i with
    | zero =>
      -- the members behind this one have greater indices
      have hrest : ((members.zipIdx (first + 1)).flatMap fun item =>
          if item.2 = first then found item else []) = [] := by
        rw [List.flatMap_eq_nil_iff]
        intro item hitem
        have hle := (List.mem_zipIdx_iff_le_and_getElem?_sub.mp hitem).1
        exact if_neg (by omega)
      cases h
      simp only [Nat.add_zero, if_true, hrest, List.append_nil]
    | succ i =>
      have hindex : first + (i + 1) = first + 1 + i := by omega
      rw [if_neg (by omega), List.nil_append, hindex]
      exact ih h

/-- What is found in each member lies at its index, so what lies at an index is what is found in the
member there. -/
theorem filter_flatMap_zipIdx {index? : α → Option Nat}
    (hindex : ∀ item, ∀ x ∈ found item, index? x = some item.2) {members : List β} {i : Nat}
    {member : β} (h : members[i]? = some member) :
    (members.zipIdx.flatMap found).filter (fun x => index? x = some i) = found (member, i) := by
  have hfilter : ∀ item : β × Nat, (found item).filter (fun x => index? x = some i) =
      if item.2 = i then found item else [] := by
    intro item
    split
    · next hitem =>
      rw [List.filter_eq_self]
      intro x hx
      rw [hindex item x hx, hitem, decide_eq_true rfl]
    · next hitem =>
      rw [List.filter_eq_nil_iff]
      intro x hx
      simpa only [hindex item x hx, Option.some.injEq, decide_eq_true_eq] using hitem
  have hkept : (members.zipIdx.flatMap fun item =>
      if item.2 = 0 + i then found item else []) = found (member, 0 + i) :=
    flatMap_ite_zipIdx h
  rw [Nat.zero_add] at hkept
  simp only [List.filter_flatMap, hfilter, hkept]

/-- Members and their indices stand in the order of the indices. -/
theorem pairwise_zipIdx (members : List β) :
    members.zipIdx.Pairwise fun a b => a.2 < b.2 := by
  rw [← List.pairwise_map (f := Prod.snd) (R := (· < ·)), List.zipIdx_map_snd]
  exact List.pairwise_lt_range' 1

end

/-! ### Findings of one alternative -/

section

variable {mode : DayMatch} {expression alternative : Fragment} {index : Nat}

/-- The problems that a report on an alternative lists. -/
theorem problems_checkAlternative (mode : DayMatch) (expression alternative : Fragment)
    (index : Nat) : (checkAlternative mode expression alternative index).problems =
      alternativeProblems expression alternative index :=
  (lists_checkAlternative mode expression alternative index).problems_eq

/-- The problem of a field lies in that field, and has its cause. -/
theorem Problem.place_ofField (index : Nat) (f : Field) (cause : ParseError) :
    (ofField index f cause).place = .field index f ∧ (ofField index f cause).cause = cause := by
  rw [ofField.eq_def]
  split
  · exact ⟨rfl, rfl⟩
  · exact ⟨rfl, rfl⟩

/-- **The problems of an alternative**: one of a blank or miscounted alternative as a whole, and
otherwise one of each field that is refused. -/
theorem mem_alternativeProblems_iff {p : Problem} :
    p ∈ alternativeProblems expression alternative index ↔
      (alternative = [] ∧
        p = .general (.alternative index) (.emptyAlternative expression index)) ∨
      (alternative ≠ [] ∧ (words alternative).length ∉ [5, 6, 7] ∧
        p = .general (.alternative index)
          (.fieldCount alternative (words alternative).length)) ∨
      ∃ row : PerField Fragment, row.toList = paddedWords (words alternative) ∧
        ∃ f cause, f.compile (row.get f) = .error cause ∧ p = .ofField index f cause := by
  have hnone (hcount : (words alternative).length ∉ [5, 6, 7]) :
      ¬∃ row : PerField Fragment, row.toList = paddedWords (words alternative) ∧
        ∃ f cause, f.compile (row.get f) = .error cause ∧ p = .ofField index f cause := by
    rintro ⟨row, hrow, -⟩
    exact hcount (length_of_toList_eq_paddedWords hrow)
  unfold alternativeProblems
  by_cases hblank : alternative = []
  · -- a blank alternative has no words
    subst hblank
    simp [hnone (by decide)]
  · rw [if_neg hblank]
    cases hrow : fieldWords alternative with
    | error e =>
      obtain ⟨hcount, rfl⟩ := fieldWords_eq_error_iff.mp hrow
      simp only [List.mem_singleton, hblank, hcount, hnone hcount, false_and, ne_eq,
        not_false_eq_true, true_and, false_or, or_false]
    | ok row =>
      rw [fieldWords_eq_ok_iff] at hrow
      have hcount := length_of_toList_eq_paddedWords hrow
      have hmem : p ∈ (row.refusals Field.compile).map
            (fun refusal => Problem.ofField index refusal.1 refusal.2) ↔
          ∃ f cause, f.compile (row.get f) = .error cause ∧ p = .ofField index f cause := by
        simp only [List.mem_map, Prod.exists, PerField.mem_refusals_iff, eq_comm]
      have hrow_unique : ∀ other : PerField Fragment,
          other.toList = paddedWords (words alternative) ↔ other = row := by
        intro other
        rw [← hrow]
        exact ⟨PerField.toList_injective, congrArg PerField.toList⟩
      simp only [hmem, hrow_unique, exists_eq_left, hblank, hcount, not_true_eq_false, false_and,
        and_false, false_or]

/-- Every problem of an alternative lies in it. -/
theorem index?_of_mem_alternativeProblems {p : Problem}
    (h : p ∈ alternativeProblems expression alternative index) : p.place.index? = some index := by
  rcases mem_alternativeProblems_iff.mp h with ⟨-, rfl⟩ | ⟨-, -, rfl⟩ | ⟨row, -, f, cause, -, rfl⟩
  · rfl
  · rfl
  · rw [(Problem.place_ofField index f cause).1]
    rfl

/-- Every warning of an alternative lies in it. -/
theorem index?_of_mem_warnings_checkAlternative {w : Warning}
    (h : w ∈ (checkAlternative mode expression alternative index).warnings) :
    w.place.index? = some index := by
  obtain ⟨p, -, hw⟩ := mem_warnings_checkAlternative_iff.mp h
  rcases Pattern.mem_warnings_iff.mp hw with ⟨rfl, -⟩ | ⟨rfl, -⟩
  · rfl
  · rfl

/-- The refusals of a row stand in the order of its fields. -/
theorem pairwise_refusals {α β ε : Type} {check : Field → α → Except ε β} {row : PerField α} :
    (row.refusals check).Pairwise fun a b => a.1.index < b.1.index := by
  have hall : Field.all.Pairwise fun f g => f.index < g.index := by decide
  unfold PerField.refusals
  refine hall.filterMap _ ?_
  intro f g hfg a ha b hb
  split at ha
  · exact nomatch ha
  · cases ha
    split at hb
    · exact nomatch hb
    · cases hb
      exact hfg

/-- The problems of an alternative stand in the order of their places. -/
theorem pairwise_alternativeProblems : (alternativeProblems expression alternative index).Pairwise
    fun p q => p.place.Before q.place := by
  unfold alternativeProblems
  split
  · exact List.pairwise_singleton _ _
  · split
    · exact List.pairwise_singleton _ _
    · rw [List.pairwise_map]
      refine pairwise_refusals.imp ?_
      intro a b hab
      rw [(Problem.place_ofField index a.1 a.2).1, (Problem.place_ofField index b.1 b.2).1]
      exact .fields hab

/-- What is found at an alternative that is not blank is found there in any expression. -/
theorem checkAlternative_of_ne_nil (h : alternative ≠ []) (other : Fragment) :
    checkAlternative mode other alternative index =
      checkAlternative mode expression alternative index := by
  rw [checkAlternative, if_neg h, checkAlternative, if_neg h]

end

/-! ### Findings of one kind -/

/-- A kind of finding that a report gathers alternative by alternative, each in its place. -/
structure Report.Gathers {α : Type} (findings : Report → List α) (place : α → Place) : Prop where
  /-- Nothing is found in nothing. -/
  empty : findings .empty = []
  /-- What two reports find is found one after the other. -/
  append : ∀ a b : Report, findings (a.append b) = findings a ++ findings b
  /-- What is found in an alternative lies there. -/
  place : ∀ mode expression alternative index,
    ∀ x ∈ findings (checkAlternative mode expression alternative index),
      (place x).index? = some index

/-- Problems are gathered. -/
theorem Report.gathers_problems : Gathers problems Problem.place := by
  refine ⟨rfl, fun _ _ => rfl, ?_⟩
  intro mode expression alternative index p hp
  rw [problems_checkAlternative] at hp
  exact index?_of_mem_alternativeProblems hp

/-- Warnings are gathered. -/
theorem Report.gathers_warnings : Gathers warnings Warning.place :=
  ⟨rfl, fun _ _ => rfl, fun _ _ _ _ _ => index?_of_mem_warnings_checkAlternative⟩

namespace Report.Gathers

variable {α : Type} {findings : Report → List α} {place : α → Place} {mode : DayMatch}
  {text : Fragment}

/-- What is found in alternatives is what is found in each of them, one after the other. -/
theorem findings_checkAlternatives (h : Gathers findings place) (mode : DayMatch)
    (expression : Fragment) (index : Nat) (rest : List Fragment) :
    findings (checkAlternatives mode expression index rest) =
      (rest.zipIdx index).flatMap fun item =>
        findings (checkAlternative mode expression item.1 item.2) := by
  induction rest generalizing index with
  | nil => exact h.empty
  | cons alternative rest ih =>
    rw [checkAlternatives, h.append, ih, List.zipIdx_cons, List.flatMap_cons]

/-- What is found in an expression that is not blank. -/
theorem findings_validate (h : Gathers findings place) (hblank : trim text ≠ []) :
    findings (validate mode text) = (alternatives text).zipIdx.flatMap fun item =>
      findings (checkAlternative mode (trim text) item.1 item.2) := by
  simp only [validate]
  rw [if_neg hblank, h.findings_checkAlternatives, alternatives_trim]

/-- Something is found in an expression when it is found in an alternative, at its index. -/
theorem mem_findings_validate_iff (h : Gathers findings place) (hblank : trim text ≠ []) {x : α} :
    x ∈ findings (validate mode text) ↔ ∃ i alternative,
      (alternatives text)[i]? = some alternative ∧
        x ∈ findings (checkAlternative mode (trim text) alternative i) := by
  rw [h.findings_validate hblank, List.mem_flatMap]
  constructor
  · rintro ⟨⟨alternative, i⟩, hitem, hx⟩
    exact ⟨i, alternative, List.mk_mem_zipIdx_iff_getElem?.mp hitem, hx⟩
  · rintro ⟨i, alternative, hi, hx⟩
    exact ⟨(alternative, i), List.mk_mem_zipIdx_iff_getElem?.mpr hi, hx⟩

/-- **What is found at an alternative is what is found in it.** -/
theorem filter_findings_validate (h : Gathers findings place) (hblank : trim text ≠ []) {i : Nat}
    {alternative : Fragment} (hi : (alternatives text)[i]? = some alternative) :
    (findings (validate mode text)).filter (fun x => (place x).index? = some i) =
      findings (checkAlternative mode (trim text) alternative i) := by
  rw [h.findings_validate hblank]
  exact filter_flatMap_zipIdx (fun item => h.place mode (trim text) item.1 item.2) hi

end Report.Gathers

/-! ### Everything, and once -/

section

variable {mode : DayMatch} {text : Fragment}

/-- The problems of an expression are those of its alternatives. -/
theorem mem_problems_validate_iff (hblank : trim text ≠ []) {p : Problem} :
    p ∈ (validate mode text).problems ↔ ∃ i alternative,
      (alternatives text)[i]? = some alternative ∧
        p ∈ alternativeProblems (trim text) alternative i := by
  simp only [Report.gathers_problems.mem_findings_validate_iff hblank, problems_checkAlternative]

/-- **Every fault is told, and nothing else.** -/
theorem exists_problem_iff_faulty (hblank : trim text ≠ []) {path : String} {cause : ParseError} :
    (∃ p ∈ (validate mode text).problems, p.place.path = path ∧ p.cause = cause) ↔
      Faulty text path cause := by
  simp only [mem_problems_validate_iff hblank]
  constructor
  · rintro ⟨p, ⟨i, alternative, hi, hp⟩, rfl, rfl⟩
    rcases mem_alternativeProblems_iff.mp hp with
      ⟨rfl, rfl⟩ | ⟨hne, hcount, rfl⟩ | ⟨row, hrow, f, cause, hcause, rfl⟩
    · exact .blankAlternative hi
    · exact .fieldCount hi hne hcount
    · obtain ⟨hplace, hofField⟩ := Problem.place_ofField i f cause
      rw [hplace, hofField]
      exact .field hi hrow hcause
  · intro h
    cases h with
    | @blankAlternative i hi =>
      exact ⟨_, ⟨i, [], hi, mem_alternativeProblems_iff.mpr (.inl ⟨rfl, rfl⟩)⟩, rfl, rfl⟩
    | @fieldCount i alternative hi hne hcount =>
      exact ⟨_, ⟨i, alternative, hi,
        mem_alternativeProblems_iff.mpr (.inr (.inl ⟨hne, hcount, rfl⟩))⟩, rfl, rfl⟩
    | @field i alternative row f cause hi hrow hcause =>
      obtain ⟨hplace, hofField⟩ := Problem.place_ofField i f cause
      refine ⟨.ofField i f cause, ⟨i, alternative, hi, ?_⟩, ?_, hofField⟩
      · exact mem_alternativeProblems_iff.mpr (.inr (.inr ⟨row, hrow, f, cause, hcause, rfl⟩))
      · rw [hplace]
        rfl

/-- The problems of an expression stand in the order of their places. -/
theorem pairwise_problems_validate (hblank : trim text ≠ []) :
    (validate mode text).problems.Pairwise fun p q => p.place.Before q.place := by
  rw [Report.gathers_problems.findings_validate hblank, List.pairwise_flatMap]
  simp only [problems_checkAlternative]
  refine ⟨fun item _ => pairwise_alternativeProblems, (pairwise_zipIdx _).imp ?_⟩
  intro a b hab p hp q hq
  exact .alternatives (index?_of_mem_alternativeProblems hp) (index?_of_mem_alternativeProblems hq)
    hab

/-- An alternative that gets a warning has no problem. -/
theorem index?_ne_of_mem_validate (hblank : trim text ≠ []) {w : Warning} {p : Problem}
    (hw : w ∈ (validate mode text).warnings) (hp : p ∈ (validate mode text).problems) :
    w.place.index? ≠ p.place.index? := by
  obtain ⟨i, alternative, hi, hw⟩ :=
    (Report.gathers_warnings.mem_findings_validate_iff hblank).mp hw
  obtain ⟨j, other, hj, hp⟩ := (Report.gathers_problems.mem_findings_validate_iff hblank).mp hp
  rw [Report.gathers_warnings.place _ _ _ _ w hw, Report.gathers_problems.place _ _ _ _ p hp]
  intro hindex
  cases hindex
  rw [hi] at hj
  cases hj
  rw [checkAlternative_warnings (List.ne_nil_of_mem hw)] at hp
  exact absurd hp List.not_mem_nil

/-- A report tells the faults of an expression that is not blank. -/
theorem validate_tells (mode : DayMatch) (hblank : trim text ≠ []) :
    (validate mode text).Tells text where
  exact path cause message := by
    have htold : (∃ p ∈ (validate mode text).problems, p.place.path = path ∧ p.cause = cause) ↔
        Faulty text path cause :=
      exists_problem_iff_faulty hblank
    rw [← htold]
    constructor
    · rintro ⟨p, hp, rfl, rfl, rfl⟩
      exact ⟨⟨p, hp, rfl, rfl⟩, rfl⟩
    · rintro ⟨⟨p, hp, rfl, rfl⟩, rfl⟩
      exact ⟨p, hp, rfl, rfl, rfl⟩
  ordered := pairwise_problems_validate hblank
  apart _ hw _ hp := index?_ne_of_mem_validate hblank hw hp

end

/-! ### Neighbours -/

section

variable {text text' : Fragment} {front back : List Fragment} {piece other neighbour : Fragment}
  {i : Nat}

/-- A piece of a text is an alternative of it, trimmed. -/
theorem getElem?_alternatives_of_pieces {pieces : List Fragment} (hpieces : Pieces '|' text pieces)
    (hi : pieces[i]? = some piece) : (alternatives text)[i]? = some (trim piece) := by
  rw [alternatives_eq_of_pieces hpieces, List.getElem?_map, hi, Option.map_some]

/-- A text with an alternative that is not blank is not blank. -/
theorem trim_ne_nil_of_getElem?_alternatives (hi : (alternatives text)[i]? = some neighbour)
    (hne : neighbour ≠ []) : trim text ≠ [] := by
  intro hblank
  rw [trim_eq_nil_iff_alternatives.mp hblank] at hi
  exact hne (List.mem_singleton.mp (List.mem_of_getElem? hi))

/-- A member other than the one that is replaced stays at its index. -/
theorem getElem?_replaced {α : Type} {front back : List α} {old new : α} {i : Nat}
    (hi : i ≠ front.length) : (front ++ old :: back)[i]? = (front ++ new :: back)[i]? := by
  rcases Nat.lt_or_gt_of_ne hi with hlt | hgt
  · rw [List.getElem?_append_left hlt, List.getElem?_append_left hlt]
  · rw [List.getElem?_append_right hgt.le, List.getElem?_append_right hgt.le,
      List.getElem?_cons, List.getElem?_cons]
    have hne : i - front.length ≠ 0 := by omega
    rw [if_neg hne, if_neg hne]

/-- What is found of a kind at an alternative does not change when another one is replaced. -/
theorem Report.Gathers.filter_replaced {α : Type} {findings : Report → List α} {place : α → Place}
    (h : Gathers findings place) (mode : DayMatch)
    (hpieces : Pieces '|' text (front ++ piece :: back))
    (hother : Pieces '|' text' (front ++ other :: back)) (hi : i ≠ front.length)
    (hneighbour : (front ++ piece :: back)[i]? = some neighbour) (hne : trim neighbour ≠ []) :
    (findings (validate mode text')).filter (fun x => (place x).index? = some i) =
      (findings (validate mode text)).filter (fun x => (place x).index? = some i) := by
  have hhere := getElem?_alternatives_of_pieces hpieces hneighbour
  have hthere : (alternatives text')[i]? = some (trim neighbour) := by
    rw [getElem?_replaced hi] at hneighbour
    exact getElem?_alternatives_of_pieces hother hneighbour
  rw [h.filter_findings_validate (trim_ne_nil_of_getElem?_alternatives hhere hne) hhere,
    h.filter_findings_validate (trim_ne_nil_of_getElem?_alternatives hthere hne) hthere,
    checkAlternative_of_ne_nil hne]

end

/-- **Every fault is told once, in its place, and no alternative shows in what is found at
another.** The problems of an expression that is not blank are those of its blank alternatives, of those with a
wrong number of words and of the fields of all others, in this order and with nothing else, and an
alternative with a problem gets no warning. So whatever stands between two bars in place of an
alternative, the problems and the warnings at each of the others that is not blank are the same. -/
theorem validate_tells_each_fault_once (mode : DayMatch) :
    (∀ text, trim text ≠ [] → (validate mode text).Tells text) ∧
    ∀ text text' front piece other back,
      Pieces '|' text (front ++ piece :: back) → Pieces '|' text' (front ++ other :: back) →
      ∀ i neighbour, i ≠ front.length → (front ++ piece :: back)[i]? = some neighbour →
        trim neighbour ≠ [] →
        (validate mode text').problemsAt i = (validate mode text).problemsAt i ∧
          (validate mode text').warningsAt i = (validate mode text).warningsAt i := by
  refine ⟨fun text => validate_tells mode, ?_⟩
  intro text text' front piece other back hpieces hother i neighbour hi hneighbour hne
  constructor
  · exact Report.gathers_problems.filter_replaced mode hpieces hother hi hneighbour hne
  · exact Report.gathers_warnings.filter_replaced mode hpieces hother hi hneighbour hne

/-- Two bad fields are told in front of an alternative, and a day that never occurs behind it,
whether two words stand there or none. -/
theorem validate_tells_around_replaced_alternative :
    (validate .all "0 25 * FEV *|1 2|0 9 30 2 *".toList).Tells
      "0 25 * FEV *|1 2|0 9 30 2 *".toList ∧
    (validate .all "0 25 * FEV *||0 9 30 2 *".toList).problemsAt 0 =
      (validate .all "0 25 * FEV *|1 2|0 9 30 2 *".toList).problemsAt 0 ∧
    ((validate .all "0 25 * FEV *|1 2|0 9 30 2 *".toList).problemsAt 0).map
        (fun p => p.place.path) = ["alternatives[0].hour", "alternatives[0].month"] ∧
    (validate .all "0 25 * FEV *||0 9 30 2 *".toList).warningsAt 2 =
      (validate .all "0 25 * FEV *|1 2|0 9 30 2 *".toList).warningsAt 2 ∧
    (validate .all "0 25 * FEV *|1 2|0 9 30 2 *".toList).warningsAt 2 =
      [⟨.field 2 .dayOfMonth, .dayNeverOccurs⟩] := by
  obtain ⟨htells, hlocal⟩ := validate_tells_each_fault_once .all
  have hpieces : Pieces '|' "0 25 * FEV *|1 2|0 9 30 2 *".toList
      (["0 25 * FEV *".toList] ++ "1 2".toList :: ["0 9 30 2 *".toList]) :=
    pieces_iff.mpr (by decide +kernel)
  have hother : Pieces '|' "0 25 * FEV *||0 9 30 2 *".toList
      (["0 25 * FEV *".toList] ++ [] :: ["0 9 30 2 *".toList]) :=
    pieces_iff.mpr (by decide +kernel)
  have hat := hlocal _ _ _ _ _ _ hpieces hother
  have hfront := hat 0 "0 25 * FEV *".toList (by decide) rfl (by decide +kernel)
  have hback := hat 2 "0 9 30 2 *".toList (by decide) rfl (by decide +kernel)
  exact ⟨htells _ (by decide +kernel), hfront.1, by decide +kernel, hback.2, by decide +kernel⟩

end CronSchedule
