import CronSchedule.Proofs.Field.Refusals
import CronSchedule.Proofs.Schedule.Parsing
import CronSchedule.Validation

/-!
# Validation agrees with parsing

Parsing stops at the first refusal; validation goes on and gathers all of them. Both are held
against one list of problems, in which the day-matching mode has no part.

* `alternativeProblems`, `alternativesProblems`, `expressionProblems` — the problems of an
  alternative, of alternatives and of an expression. They are what a report lists
  (`lists_checkAlternative`, `lists_checkAlternatives`, `lists_validate`).
* **One alternative** (`problems_of_parseAlternative_eq_ok`,
  `problems_of_parseAlternative_eq_error`): no problem where it is parsed, and otherwise at first
  the one for which parsing refuses it.
* **All alternatives** (`problems_of_parseAlternatives_eq_ok`,
  `problems_of_parseAlternatives_eq_error`): the same, by induction over the alternatives in front
  of the first that is refused.
* `Reached`, `RefusedAt` — where the first refusal of an expression lies.

Main statement: **a report is valid, has no problems and belongs to an expression that is parsed,
all three or none, and the first problem is the refusal of the parse**
(`validate_agrees_with_parse`).
-/

namespace CronSchedule

/-! ### The problems of an expression -/

/-- The problems of the alternative at an index. -/
def alternativeProblems (expression alternative : Fragment) (index : Nat) : List Problem :=
  if alternative = [] then [.general (.alternative index) (.emptyAlternative expression index)]
  else
    match fieldWords alternative with
    | .error cause => [.general (.alternative index) cause]
    | .ok row => (row.refusals Field.compile).map fun refusal => .ofField index refusal.1 refusal.2

/-- The problems of alternatives, the first of which stands at an index. -/
def alternativesProblems (expression : Fragment) : Nat → List Fragment → List Problem
  | _, [] => []
  | index, alternative :: rest =>
    alternativeProblems expression alternative index ++
      alternativesProblems expression (index + 1) rest

/-- The problems of an expression. -/
def expressionProblems (text : Fragment) : List Problem :=
  if trim text = [] then [.general .expression .emptyExpression]
  else alternativesProblems (trim text) 0 (alternatives (trim text))

/-! ### What a report lists -/

/-- A report that lists given problems, and is valid exactly where there are none. -/
structure Report.Lists (r : Report) (problems : List Problem) : Prop where
  problems_eq : r.problems = problems
  valid_eq : r.valid = problems.isEmpty

/-- A report with one problem lists it. -/
theorem Report.lists_error (p : Problem) : (Report.empty.error p).Lists [p] := ⟨rfl, rfl⟩

/-- Two reports, one after the other, list what both list. -/
theorem Report.Lists.append {a b : Report} {problems others : List Problem}
    (ha : a.Lists problems) (hb : b.Lists others) : (a.append b).Lists (problems ++ others) := by
  constructor
  · rw [Report.append, ha.problems_eq, hb.problems_eq]
  · rw [Report.append, ha.valid_eq, hb.valid_eq]
    cases problems with
    | nil => rfl
    | cons p problems => rfl

/-- The report on an alternative lists its problems. -/
theorem lists_checkAlternative (mode : DayMatch) (expression alternative : Fragment)
    (index : Nat) : (checkAlternative mode expression alternative index).Lists
      (alternativeProblems expression alternative index) := by
  rw [checkAlternative, alternativeProblems]
  by_cases hblank : alternative = []
  · rw [if_pos hblank, if_pos hblank]
    exact Report.lists_error _
  · rw [if_neg hblank, if_neg hblank]
    cases fieldWords alternative with
    | error cause => exact Report.lists_error _
    | ok row =>
      cases hcollect : row.collect Field.compile with
      | ok sets =>
        -- every field is accepted: warnings at most
        have hnil := PerField.refusals_eq_nil_iff.mpr ⟨sets, PerField.collect_eq_ok_iff.mp hcollect⟩
        simp only [hcollect, hnil, Report.foldl_warn]
        exact ⟨rfl, rfl⟩
      | error causes =>
        obtain ⟨rfl, -⟩ := PerField.collect_eq_error_iff.mp hcollect
        simp only [hcollect, Report.foldl_error]
        exact ⟨rfl, by simp [Report.empty]⟩

/-- The report on alternatives lists their problems. -/
theorem lists_checkAlternatives (mode : DayMatch) (expression : Fragment) (index : Nat)
    (rest : List Fragment) : (checkAlternatives mode expression index rest).Lists
      (alternativesProblems expression index rest) := by
  induction rest generalizing index with
  | nil => exact ⟨rfl, rfl⟩
  | cons alternative rest ih =>
    exact (lists_checkAlternative mode expression alternative index).append (ih (index + 1))

/-- **The report on an expression lists its problems**, under every mode. -/
theorem lists_validate (mode : DayMatch) (text : Fragment) :
    (validate mode text).Lists (expressionProblems text) := by
  simp only [validate, expressionProblems]
  split
  · exact Report.lists_error _
  · exact lists_checkAlternatives mode _ 0 _

/-! ### One alternative -/

/-- The place of a refusal in the alternative at an index: its field, if it has one. -/
def ParseError.placeIn (index : Nat) (e : ParseError) : Place :=
  match e.field? with
  | none => .alternative index
  | some f => .field index f

/-- A problem that tells a refusal, at its place in the alternative at an index. -/
structure Problem.Tells (p : Problem) (e : ParseError) (index : Nat) : Prop where
  cause : p.cause = e
  place : p.place = e.placeIn index

/-- The problem of a field tells its refusal. -/
theorem Problem.tells_ofField {f : Field} {e : ParseError} (h : e.field? = some f) (index : Nat) :
    (Problem.ofField index f e).Tells e index := by
  have hplace : e.placeIn index = .field index f := by rw [ParseError.placeIn, h]
  rw [ofField.eq_def]
  split
  · exact ⟨rfl, hplace.symm⟩
  · exact ⟨rfl, hplace.symm⟩

variable {mode : DayMatch} {expression alternative : Fragment} {index : Nat} {e : ParseError}

/-- An alternative that is parsed has no problem. -/
theorem problems_of_parseAlternative_eq_ok {p : Pattern}
    (h : Schedule.parseAlternative mode expression alternative index = .ok p) :
    alternativeProblems expression alternative index = [] := by
  have hparse := Schedule.parseAlternative_eq_ok_iff.mp h
  have hblank := Pattern.ne_nil_of_parse hparse
  obtain ⟨row, hrow, hparse⟩ := bind_eq_ok_iff.mp hparse
  obtain ⟨sets, hsets, -⟩ := bind_eq_ok_iff.mp hparse
  have hnil := PerField.refusals_eq_nil_iff.mpr ⟨sets, PerField.traverse_eq_ok_iff.mp hsets⟩
  rw [alternativeProblems, if_neg hblank, hrow]
  simp only [hnil, List.map_nil]

/-- The first problem of an alternative that is refused is its refusal. -/
theorem problems_of_parseAlternative_eq_error
    (h : Schedule.parseAlternative mode expression alternative index = .error e) :
    ∃ p rest, alternativeProblems expression alternative index = p :: rest ∧ p.Tells e index := by
  unfold Schedule.parseAlternative at h
  unfold alternativeProblems
  by_cases hblank : alternative = []
  · rw [if_pos hblank] at h ⊢
    cases h
    exact ⟨_, _, rfl, rfl, rfl⟩
  · rw [if_neg hblank] at h ⊢
    rcases bind_eq_error_iff.mp h with hcount | ⟨row, hrow, h⟩
    · rw [hcount]
      obtain ⟨-, rfl⟩ := fieldWords_eq_error_iff.mp hcount
      exact ⟨_, _, rfl, rfl, rfl⟩
    · rw [hrow]
      rcases bind_eq_error_iff.mp h with htraverse | ⟨sets, -, h⟩
      · obtain ⟨f, rest, hrefusals, hfield⟩ := refusals_of_traverse_compile_eq_error htraverse
        simp only [hrefusals, List.map_cons]
        exact ⟨_, _, rfl, Problem.tells_ofField hfield index⟩
      · exact nomatch h

/-! ### All alternatives -/

/-- Alternatives that are all parsed have no problem. -/
theorem problems_of_parseAlternatives_eq_ok {rest : List Fragment} {patterns : List Pattern}
    (h : Schedule.parseAlternatives mode expression index rest = .ok patterns) :
    alternativesProblems expression index rest = [] := by
  induction rest generalizing index patterns with
  | nil => rfl
  | cons alternative rest ih =>
    obtain ⟨p, hp, h⟩ := bind_eq_ok_iff.mp h
    obtain ⟨others, hothers, -⟩ := bind_eq_ok_iff.mp h
    rw [alternativesProblems, problems_of_parseAlternative_eq_ok hp, ih hothers, List.append_nil]

/-- The first problem of alternatives, one of which is refused, is the refusal of the first that is
refused; those in front of it are parsed. -/
theorem problems_of_parseAlternatives_eq_error {rest : List Fragment}
    (h : Schedule.parseAlternatives mode expression index rest = .error e) :
    ∃ before alternative after, rest = before ++ alternative :: after ∧
      (∀ earlier ∈ before, ∃ p, Pattern.parse mode earlier = .ok p) ∧
      Schedule.parseAlternative mode expression alternative (index + before.length) = .error e ∧
      ∃ p others, alternativesProblems expression index rest = p :: others ∧
        p.Tells e (index + before.length) := by
  induction rest generalizing index with
  | nil => exact nomatch h
  | cons alternative rest ih =>
    unfold alternativesProblems
    rcases bind_eq_error_iff.mp h with hhere | ⟨pattern, hpattern, h⟩
    · obtain ⟨p, others, hproblems, htells⟩ := problems_of_parseAlternative_eq_error hhere
      refine ⟨[], alternative, rest, rfl, ?_, hhere, p,
        others ++ alternativesProblems expression (index + 1) rest, ?_, htells⟩
      · exact fun _ hmem => absurd hmem List.not_mem_nil
      · rw [hproblems, List.cons_append]
    · rcases bind_eq_error_iff.mp h with hlater | ⟨patterns, -, h⟩
      · -- one alternative further on, so the index of the rest is one more
        obtain ⟨before, refused, after, rfl, hbefore, hrefused, p, others, hproblems, htells⟩ :=
          ih hlater
        have hindex : index + 1 + before.length = index + (alternative :: before).length := by
          rw [List.length_cons]
          omega
        rw [hindex] at hrefused htells
        refine ⟨alternative :: before, refused, after, rfl, ?_, hrefused, p, others, ?_, htells⟩
        · intro earlier hmem
          rcases List.mem_cons.mp hmem with rfl | hmem
          · exact ⟨pattern, Schedule.parseAlternative_eq_ok_iff.mp hpattern⟩
          · exact hbefore earlier hmem
        · rw [problems_of_parseAlternative_eq_ok hpattern, List.nil_append, hproblems]
      · exact nomatch h

/-! ### The first refusal of an expression -/

/-- An alternative of an expression such that every alternative in front of it is parsed. -/
structure Reached (mode : DayMatch) (expression : Fragment) (index : Nat)
    (alternative : Fragment) : Prop where
  /-- The expression is not blank. -/
  ne_nil : expression ≠ []
  /-- The alternative stands at the index, behind those that are parsed. -/
  place : ∃ before after, alternatives expression = before ++ alternative :: after ∧
    before.length = index ∧ ∀ earlier ∈ before, ∃ p, Pattern.parse mode earlier = .ok p

/-- Where the first refusal of an expression lies: the cause and the path of its place. -/
inductive RefusedAt (mode : DayMatch) (text : Fragment) : ParseError → String → Prop
  /-- A blank expression is refused as a whole. -/
  | blankExpression : trim text = [] → RefusedAt mode text .emptyExpression ""
  /-- A blank alternative is refused as a whole. -/
  | blankAlternative {i : Nat} : Reached mode (trim text) i [] →
      RefusedAt mode text (.emptyAlternative (trim text) i) s!"alternatives[{i}]"
  /-- So is an alternative with a wrong number of words. -/
  | fieldCount {i : Nat} {alternative : Fragment} : Reached mode (trim text) i alternative →
      alternative ≠ [] → (words alternative).length ∉ [5, 6, 7] →
      RefusedAt mode text (.fieldCount alternative (words alternative).length)
        s!"alternatives[{i}]"
  /-- Every other alternative is refused for one of its fields. -/
  | field {i : Nat} {alternative : Fragment} {e : ParseError} {f : Field} :
      Reached mode (trim text) i alternative → alternative ≠ [] →
      Pattern.parse mode alternative = .error e → e.field? = some f →
      RefusedAt mode text e s!"alternatives[{i}].{f.name}"

/-- The place of the refusal of an alternative that is reached. -/
theorem Reached.refusedAt {text : Fragment} (hreached : Reached mode (trim text) index alternative)
    (h : Schedule.parseAlternative mode (trim text) alternative index = .error e) :
    RefusedAt mode text e (e.placeIn index).path := by
  unfold Schedule.parseAlternative at h
  by_cases hblank : alternative = []
  · rw [if_pos hblank] at h
    cases h
    subst hblank
    exact .blankAlternative hreached
  · rw [if_neg hblank] at h
    rcases bind_eq_error_iff.mp h with hcount | ⟨row, -, hrow⟩
    · obtain ⟨hlength, rfl⟩ := fieldWords_eq_error_iff.mp hcount
      exact .fieldCount hreached hblank hlength
    · rcases bind_eq_error_iff.mp hrow with htraverse | ⟨sets, -, hsets⟩
      · obtain ⟨f, rest, -, hfield⟩ := refusals_of_traverse_compile_eq_error htraverse
        rw [ParseError.placeIn, hfield]
        exact .field hreached hblank h hfield
      · exact nomatch hsets

/-- An expression that is parsed has no problem. -/
theorem problems_of_parse_eq_ok {text : Fragment} {s : Schedule}
    (h : Schedule.parse mode text = .ok s) : expressionProblems text = [] := by
  rw [Schedule.parse] at h
  unfold expressionProblems
  by_cases hblank : trim text = []
  · rw [if_pos hblank] at h
    simp at h
  · rw [if_neg hblank] at h ⊢
    obtain ⟨patterns, hpatterns, -⟩ := bind_eq_ok_iff.mp h
    exact problems_of_parseAlternatives_eq_ok hpatterns

/-- The first problem of an expression that is refused is its refusal, at its place. -/
theorem problems_of_parse_eq_error {text : Fragment}
    (h : Schedule.parse mode text = .error e) :
    ∃ p rest, expressionProblems text = p :: rest ∧ p.cause = e ∧
      RefusedAt mode text e p.place.path := by
  rw [Schedule.parse] at h
  unfold expressionProblems
  by_cases hblank : trim text = []
  · rw [if_pos hblank] at h ⊢
    cases h
    exact ⟨_, _, rfl, rfl, .blankExpression hblank⟩
  · rw [if_neg hblank] at h ⊢
    rcases bind_eq_error_iff.mp h with h | ⟨patterns, -, h⟩
    · obtain ⟨before, alternative, after, hall, hbefore, hrefused, p, rest, hproblems, htells⟩ :=
        problems_of_parseAlternatives_eq_error h
      rw [Nat.zero_add] at hrefused htells
      have hreached : Reached mode (trim text) before.length alternative :=
        ⟨hblank, before, after, hall, rfl, hbefore⟩
      refine ⟨p, rest, hproblems, htells.cause, ?_⟩
      rw [htells.place]
      exact hreached.refusedAt hrefused
    · cases h

/-- An expression is parsed exactly when it has no problem. -/
theorem expressionProblems_eq_nil_iff {text : Fragment} :
    expressionProblems text = [] ↔ ∃ s, Schedule.parse mode text = .ok s := by
  constructor
  · intro hnil
    cases hparse : Schedule.parse mode text with
    | ok s => exact ⟨s, rfl⟩
    | error e =>
      obtain ⟨p, rest, hproblems, -⟩ := problems_of_parse_eq_error hparse
      rw [hnil] at hproblems
      exact nomatch hproblems
  · rintro ⟨s, hs⟩
    exact problems_of_parse_eq_ok hs

/-- A valid expression is parsed. -/
theorem exists_parse_of_valid {text : Fragment} (h : (validate mode text).valid = true) :
    ∃ s, Schedule.parse mode text = .ok s := by
  rw [(lists_validate mode text).valid_eq, List.isEmpty_iff] at h
  exact expressionProblems_eq_nil_iff.mp h

/-- **Validation agrees with parsing.** A report is valid exactly when it has no problems, exactly
when the expression is parsed; the first problem of an expression that is refused has the wording
and the place of its refusal; and neither problems nor validity depend on the mode. -/
theorem validate_agrees_with_parse (mode : DayMatch) (text : Fragment) :
    ((validate mode text).valid = true ↔ (validate mode text).problems = []) ∧
    ((validate mode text).problems = [] ↔ ∃ s, Schedule.parse mode text = .ok s) ∧
    (∀ e, Schedule.parse mode text = .error e →
      ∃ p rest, (validate mode text).problems = p :: rest ∧ p.message = e.message ∧
        RefusedAt mode text e p.place.path) ∧
    ∀ other : DayMatch, (validate other text).problems = (validate mode text).problems ∧
      (validate other text).valid = (validate mode text).valid := by
  have hlists := lists_validate mode text
  rw [hlists.problems_eq, hlists.valid_eq]
  refine ⟨List.isEmpty_iff, expressionProblems_eq_nil_iff, ?_, ?_⟩
  · intro e he
    obtain ⟨p, rest, hproblems, rfl, hplace⟩ := problems_of_parse_eq_error he
    exact ⟨p, rest, hproblems, rfl, hplace⟩
  · intro other
    have hother := lists_validate other text
    exact ⟨hother.problems_eq, hother.valid_eq⟩

/-- Of two bad alternatives, and two bad fields in the first of them, the earliest is reported
first, where the parse stops. -/
theorem validate_agrees_at_bad_alternatives :
    Schedule.parse .all "0 9 * * * | 0 25 * FEV * | 1 2".toList = .error (.outOfRange .hour 25) ∧
      ∃ p rest,
        (validate .all "0 9 * * * | 0 25 * FEV * | 1 2".toList).problems = p :: rest ∧
        p.message = (ParseError.outOfRange .hour 25).message ∧
        RefusedAt .all "0 9 * * * | 0 25 * FEV * | 1 2".toList (.outOfRange .hour 25)
          p.place.path := by
  have hparse : Schedule.parse .all "0 9 * * * | 0 25 * FEV * | 1 2".toList =
      .error (.outOfRange .hour 25) := by
    decide +kernel
  exact ⟨hparse, (validate_agrees_with_parse .all _).2.2.1 _ hparse⟩

end CronSchedule
