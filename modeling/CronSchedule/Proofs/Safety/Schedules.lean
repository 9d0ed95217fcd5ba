import CronSchedule.Proofs.Safety.Compiling
import CronSchedule.Proofs.Safety.Suggesting
import CronSchedule.Validation

/-!
# Parsing and validating without faults

* `Checked.parsePattern`, `Checked.parse` — the parsers of an alternative and of an expression.
* `Checked.validate` — the report on an expression. The sets of an alternative are gathered in a
  list while its fields are checked, and the fields that its days are looked up by are taken from
  there by their index: there are seven sets in it whenever no field was refused
  (`Checked.foldlM_checkField_eq_ok`, `compiledWords_eq_toList`).

Main statement: **parsing and validating fault nowhere** (`parsing_and_validating_run`).
-/

namespace CronSchedule

/-- What stands at a field of a row is the member of its list at the index of the field. -/
theorem PerField.getElem?_toList {α : Type} (row : PerField α) (f : Field) :
    row.toList[f.index]? = some (row.get f) := by
  rw [PerField.toList, List.getElem?_map, f.getElem?_all_index]
  rfl

/-- The list of a row beside the list of all fields has what stands at each of them. -/
theorem PerField.zip_toList {α : Type} (row : PerField α) :
    Field.all.zip row.toList = Field.all.map fun f => (f, row.get f) := by
  rfl

namespace Checked

variable (mode : DayMatch)

/-! ### Parsing -/

/-- The sets of a row of fields, compiled in their order. -/
def compileRow (row : PerField Fragment) : Checked (PerField ValueSet) := do
  let second ← compile .second row.second
  let minute ← compile .minute row.minute
  let hour ← compile .hour row.hour
  let dayOfMonth ← compile .dayOfMonth row.dayOfMonth
  let month ← compile .month row.month
  let dayOfWeek ← compile .dayOfWeek row.dayOfWeek
  let year ← compile .year row.year
  return ⟨second, minute, hour, dayOfMonth, month, dayOfWeek, year⟩

theorem runs_compileRow (row : PerField Fragment) :
    Runs (compileRow row) (row.traverse Field.compile) := by
  refine (runs_compile .second _).bind fun second _ => ?_
  refine (runs_compile .minute _).bind fun minute _ => ?_
  refine (runs_compile .hour _).bind fun hour _ => ?_
  refine (runs_compile .dayOfMonth _).bind fun dayOfMonth _ => ?_
  refine (runs_compile .month _).bind fun month _ => ?_
  refine (runs_compile .dayOfWeek _).bind fun dayOfWeek _ => ?_
  exact (runs_compile .year _).bind fun year _ => .pure _

/-- The pattern of one alternative. -/
def parsePattern (alternative : Fragment) : Checked Pattern := do
  let row ← fieldWords alternative
  let sets ← compileRow row
  return ⟨sets, mode⟩

theorem runs_parsePattern (alternative : Fragment) :
    Runs (parsePattern mode alternative) (Pattern.parse mode alternative) :=
  (runs_fieldWords alternative).bind fun row _ =>
    (runs_compileRow row).bind fun _ _ => .pure _

/-- The patterns of alternatives, the first of which stands at an index. -/
def parseAlternatives (expression : Fragment) : Nat → List Fragment → Checked (List Pattern)
  | _, [] => return []
  | i, alternative :: rest => do
    if alternative = [] then throw (.emptyAlternative expression i)
    let pattern ← parsePattern mode alternative
    let patterns ← parseAlternatives expression (i + 1) rest
    return pattern :: patterns

theorem runs_parseAlternatives (expression : Fragment) (i : Nat) (rest : List Fragment) :
    Runs (parseAlternatives mode expression i rest)
      (Schedule.parseAlternatives mode expression i rest) := by
  induction rest generalizing i with
  | nil => exact .pure []
  | cons alternative rest ih =>
    rw [parseAlternatives, Schedule.parseAlternatives, Schedule.parseAlternative]
    split
    · exact .throw _
    · refine (runs_parsePattern mode alternative).bind fun pattern _ => ?_
      exact (ih (i + 1)).bind fun patterns _ => .pure (pattern :: patterns)

/-- The schedule of an expression. -/
def parse (text : Fragment) : Checked Schedule := do
  let expression := trim text
  if expression = [] then throw .emptyExpression
  else
    let patterns ← parseAlternatives mode expression 0 (alternatives expression)
    return ⟨expression, patterns⟩

/-- **An expression is parsed without faults.** -/
theorem runs_parse (text : Fragment) : Runs (parse mode text) (Schedule.parse mode text) := by
  simp only [parse, Schedule.parse]
  split
  · exact .throw _
  · exact (runs_parseAlternatives mode _ 0 _).bind fun patterns _ => .pure _

/-! ### Checking the fields of an alternative -/

/-- A problem of a field; for an unknown name the nearest one is suggested. -/
def problem (i : Nat) (f : Field) (cause : ParseError) : Except Fault Problem :=
  match cause with
  | .unknownAlias _ name => do
    let suggestion ← suggest name f.aliases
    return ⟨.field i f, cause, suggestion⟩
  | _ => return ⟨.field i f, cause, none⟩

theorem problem_eq_ok (i : Nat) (f : Field) (cause : ParseError) :
    problem i f cause = .ok (.ofField i f cause) := by
  cases cause with
  | unknownAlias g name =>
    rw [problem, bind_eq_ok (suggest_eq_ok name f.aliases)]
    rfl
  | _ => rfl

/-- What is known of an alternative after some of its fields. -/
structure FieldChecks where
  /-- The sets of those that compile, in their order. -/
  sets : List ValueSet
  /-- Whether one of them was refused. -/
  failed : Bool
  report : Report

/-- What is known after another field. -/
def checkField (i : Nat) (checks : FieldChecks) (word : Field × Fragment) :
    Except Fault FieldChecks := do
  match ← (compile word.1 word.2).run with
  | .ok set => return { checks with sets := checks.sets ++ [set] }
  | .error cause =>
    let problem ← problem i word.1 cause
    return { checks with failed := true, report := checks.report.error problem }

/-- The set of a field that compiles is added. -/
theorem checkField_of_compile {word : Field × Fragment} {set : ValueSet}
    (h : word.1.compile word.2 = .ok set) (i : Nat) (checks : FieldChecks) :
    checkField i checks word = .ok { checks with sets := checks.sets ++ [set] } := by
  rw [checkField, bind_eq_ok (runs_compile word.1 word.2), h]
  rfl

/-- The problem of a field that is refused is reported. -/
theorem checkField_of_refusal {word : Field × Fragment} {cause : ParseError}
    (h : word.1.compile word.2 = .error cause) (i : Nat) (checks : FieldChecks) :
    checkField i checks word =
      .ok { checks with
        failed := true, report := checks.report.error (.ofField i word.1 cause) } := by
  rw [checkField, bind_eq_ok (runs_compile word.1 word.2), h]
  exact bind_eq_ok (problem_eq_ok i word.1 cause) _

/-- The sets of the fields that compile. -/
def compiledWords (words : List (Field × Fragment)) : List ValueSet :=
  words.filterMap fun word => (word.1.compile word.2).toOption

/-- The fields that are refused, each with the cause. -/
def refusedWords (words : List (Field × Fragment)) : List (Field × ParseError) :=
  words.filterMap fun word =>
    match word.1.compile word.2 with
    | .ok _ => none
    | .error cause => some (word.1, cause)

/-- **The loop over the fields gathers the sets of those that compile and the problems of those that
are refused.** -/
theorem foldlM_checkField_eq_ok (i : Nat) (words : List (Field × Fragment))
    (checks : FieldChecks) :
    words.foldlM (checkField i) checks =
      .ok ⟨checks.sets ++ compiledWords words, checks.failed || !(refusedWords words).isEmpty,
        (refusedWords words).foldl (fun r refusal => r.error (.ofField i refusal.1 refusal.2))
          checks.report⟩ := by
  induction words generalizing checks with
  | nil => simp [compiledWords, refusedWords, pure, Except.pure]
  | cons word words ih =>
    rw [List.foldlM_cons]
    cases hword : word.1.compile word.2 with
    | ok set =>
      have hcompiled : compiledWords (word :: words) = set :: compiledWords words :=
        List.filterMap_cons_some (by rw [hword]; rfl)
      have hrefused : refusedWords (word :: words) = refusedWords words :=
        List.filterMap_cons_none (by rw [hword])
      rw [bind_eq_ok (checkField_of_compile hword i checks), ih, hcompiled, hrefused]
      simp only [List.append_assoc, List.singleton_append]
    | error cause =>
      have hcompiled : compiledWords (word :: words) = compiledWords words :=
        List.filterMap_cons_none (by rw [hword]; rfl)
      have hrefused : refusedWords (word :: words) = (word.1, cause) :: refusedWords words :=
        List.filterMap_cons_some (by rw [hword])
      rw [bind_eq_ok (checkField_of_refusal hword i checks), ih, hcompiled, hrefused, Bool.true_or,
        List.isEmpty_cons, Bool.not_false, Bool.or_true, List.foldl_cons]

/-- The refusals among the fields of a row are those of the row. -/
theorem refusedWords_zip (row : PerField Fragment) :
    refusedWords (Field.all.zip row.toList) = row.refusals Field.compile := by
  rw [row.zip_toList, refusedWords, List.filterMap_map, PerField.refusals]
  refine List.filterMap_congr fun f _ => ?_
  rw [Function.comp_apply]
  cases f.compile (row.get f) with
  | ok _ => rfl
  | error _ => rfl

/-- Of a row that is accepted, the sets of all fields are gathered. -/
theorem compiledWords_zip {row : PerField Fragment} {sets : PerField ValueSet}
    (h : ∀ f : Field, f.compile (row.get f) = .ok (sets.get f)) :
    compiledWords (Field.all.zip row.toList) = sets.toList := by
  rw [row.zip_toList, compiledWords, List.filterMap_map, PerField.toList, ← List.filterMap_eq_map]
  refine List.filterMap_congr fun f _ => ?_
  rw [Function.comp_apply, h f]
  rfl

/-! ### Warnings -/

/-- Whether some selected month has a selected day in some year. -/
def dayOccurs (dayOfMonth month : ValueSet) : Except Fault Bool :=
  match dayOfMonth with
  | .every => return true
  | .monthDays ⟨_, true⟩ => return true
  | days => do
    let days ← values .dayOfMonth days
    let months ← values .month month
    return months.any fun m => days.any fun d => decide (d ≤ daysInMonth longestYear m)

theorem dayOccurs_eq_ok {dayOfMonth month : ValueSet} (hday : dayOfMonth.Shaped .dayOfMonth)
    (hmonth : month.Shaped .month) :
    dayOccurs dayOfMonth month = .ok (CronSchedule.dayOccurs dayOfMonth month) := by
  have hlists : (do
      let days ← values .dayOfMonth dayOfMonth
      let months ← values .month month
      return months.any fun m => days.any fun d => decide (d ≤ daysInMonth longestYear m)) =
      (.ok ((month.toList .month).any fun m => (dayOfMonth.toList .dayOfMonth).any fun d =>
        decide (d ≤ daysInMonth longestYear m)) : Except Fault Bool) := by
    rw [bind_eq_ok (values_eq_ok hday), bind_eq_ok (values_eq_ok hmonth)]
    rfl
  cases dayOfMonth with
  | every => rfl
  | monthDays set =>
    obtain ⟨days, lastDay⟩ := set
    cases lastDay with
    | true => rfl
    | false => exact hlists
  | dense | years => exact hlists

/-- The warnings on the sets of an alternative. -/
def warnings (sets : List ValueSet) (i : Nat) : Except Fault (List Warning) := do
  let dayOfMonth ← index sets Field.dayOfMonth.index
  let dayOfWeek ← index sets Field.dayOfWeek.index
  let month ← index sets Field.month.index
  let bothRestricted := !dayOfMonth.isEvery && !dayOfWeek.isEvery
  let restricted : List Warning :=
    if bothRestricted ∧ mode = .all then [⟨.alternative i, .bothDaysRestricted⟩] else []
  if bothRestricted ∧ mode = .either then return restricted
  else if ← dayOccurs dayOfMonth month then return restricted
  else return restricted ++ [⟨.field i .dayOfMonth, .dayNeverOccurs⟩]

theorem warnings_eq_ok {sets : PerField ValueSet} (h : ∀ f, (sets.get f).Shaped f) (i : Nat) :
    warnings mode sets.toList i = .ok (Pattern.warnings ⟨sets, mode⟩ i) := by
  have hday : index sets.toList Field.dayOfMonth.index = .ok sets.dayOfMonth :=
    index_eq_ok (sets.getElem?_toList .dayOfMonth)
  have hweekday : index sets.toList Field.dayOfWeek.index = .ok sets.dayOfWeek :=
    index_eq_ok (sets.getElem?_toList .dayOfWeek)
  have hmonth : index sets.toList Field.month.index = .ok sets.month :=
    index_eq_ok (sets.getElem?_toList .month)
  have hoccurs : dayOccurs sets.dayOfMonth sets.month =
      .ok (CronSchedule.dayOccurs sets.dayOfMonth sets.month) :=
    dayOccurs_eq_ok (h .dayOfMonth) (h .month)
  have hrestricted : (!sets.dayOfMonth.isEvery && !sets.dayOfWeek.isEvery) =
      Pattern.bothDaysRestricted ⟨sets, mode⟩ := rfl
  rw [warnings, bind_eq_ok hday, bind_eq_ok hweekday, bind_eq_ok hmonth, Pattern.warnings,
    hrestricted]
  generalize Pattern.bothDaysRestricted ⟨sets, mode⟩ = both
  by_cases heither : both = true ∧ mode = .either
  · simp [heither, pure, Except.pure]
  · dsimp only
    rw [if_neg heither, bind_eq_ok hoccurs]
    cases CronSchedule.dayOccurs sets.dayOfMonth sets.month with
    | true => simp [pure, Except.pure]
    | false => simp [heither, pure, Except.pure]

/-! ### Checking an expression -/

/-- The findings on the alternative at an index. -/
def checkAlternative (expression alternative : Fragment) (i : Nat) : Except Fault Report :=
  if alternative = [] then
    return Report.empty.error (.general (.alternative i) (.emptyAlternative expression i))
  else do
    match ← (fieldWords alternative).run with
    | .error cause => return Report.empty.error (.general (.alternative i) cause)
    | .ok row =>
      let checks ← (Field.all.zip row.toList).foldlM (checkField i) ⟨[], false, .empty⟩
      if checks.failed then return checks.report
      else
        let warnings ← warnings mode checks.sets i
        return warnings.foldl Report.warn checks.report

theorem checkAlternative_eq_ok (expression alternative : Fragment) (i : Nat) :
    checkAlternative mode expression alternative i =
      .ok (CronSchedule.checkAlternative mode expression alternative i) := by
  rw [checkAlternative, CronSchedule.checkAlternative]
  split
  · rfl
  · rw [bind_eq_ok (runs_fieldWords alternative)]
    cases CronSchedule.fieldWords alternative with
    | error cause => rfl
    | ok row =>
      simp only [bind_eq_ok (foldlM_checkField_eq_ok i (Field.all.zip row.toList) _),
        refusedWords_zip, List.nil_append, Bool.false_or]
      cases hrow : row.collect Field.compile with
      | ok sets =>
        have hsets := PerField.collect_eq_ok_iff.mp hrow
        have hnone : row.refusals Field.compile = [] :=
          PerField.refusals_eq_nil_iff.mpr ⟨sets, hsets⟩
        have hwarnings := warnings_eq_ok mode (fun f => (Field.fits_of_compile (hsets f)).shaped) i
        rw [hnone, compiledWords_zip hsets, if_neg (by decide), bind_eq_ok hwarnings]
        rfl
      | error refusals =>
        obtain ⟨rfl, hne⟩ := PerField.collect_eq_error_iff.mp hrow
        rw [if_pos (by simpa using hne)]
        rfl

/-- The findings on alternatives, the first of which stands at an index. -/
def checkAlternatives (expression : Fragment) : Nat → List Fragment → Except Fault Report
  | _, [] => return .empty
  | i, alternative :: rest => do
    let report ← checkAlternative mode expression alternative i
    let others ← checkAlternatives expression (i + 1) rest
    return report.append others

theorem checkAlternatives_eq_ok (expression : Fragment) (i : Nat) (rest : List Fragment) :
    checkAlternatives mode expression i rest =
      .ok (CronSchedule.checkAlternatives mode expression i rest) := by
  induction rest generalizing i with
  | nil => rfl
  | cons alternative rest ih =>
    rw [checkAlternatives, bind_eq_ok (checkAlternative_eq_ok mode expression alternative i),
      bind_eq_ok (ih (i + 1))]
    rfl

/-- The findings on an expression. -/
def validate (text : Fragment) : Except Fault Report :=
  let expression := trim text
  if expression = [] then return Report.empty.error (.general .expression .emptyExpression)
  else checkAlternatives mode expression 0 (alternatives expression)

/-- **An expression is validated without faults.** -/
theorem validate_eq_ok (text : Fragment) :
    validate mode text = .ok (CronSchedule.validate mode text) := by
  simp only [validate, CronSchedule.validate]
  split
  · rfl
  · exact checkAlternatives_eq_ok mode _ 0 _

end Checked

/-- **Parsing and validating fault nowhere.** The parsers of an expression, of an alternative and of
a field and the report on an expression, with operations that fault where a machine has no result,
run through on every text, and end in the results and the refusals of the plain ones; and whether a
number is in a small set is found by shifts that do not leave the word. -/
theorem parsing_and_validating_run :
    (∀ mode text, Checked.Runs (Checked.parse mode text) (Schedule.parse mode text)) ∧
    (∀ mode alternative,
      Checked.Runs (Checked.parsePattern mode alternative) (Pattern.parse mode alternative)) ∧
    (∀ f text, Checked.Runs (Checked.compile f text) (f.compile text)) ∧
    (∀ mode text, Checked.validate mode text = .ok (validate mode text)) ∧
    ∀ set v, Checked.contains set v = .ok (set.contains v) :=
  ⟨Checked.runs_parse, Checked.runs_parsePattern, Checked.runs_compile, Checked.validate_eq_ok,
    Checked.contains_eq_ok⟩

end CronSchedule
