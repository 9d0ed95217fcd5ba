import CronSchedule.Proofs.Safety.Splitting
import CronSchedule.Selection

/-!
# Reading fields without faults

The readers of a field with the operations of a machine: sums and numbers in words, texts cut at
bytes, and values listed by a step as soon as a token is read.

Each reader runs like its counterpart (`Checked.runs_resolveValue` to `Checked.runs_select`). What
one of them relies on, another has seen to: a sum fits since a numeral fits in a word
(`readInteger?_bounds`), a number can be moved to a shorter word once it is in the bound, and a step
is positive and fits since it was read.

Main statement: **a field is read without faults** (`Checked.runs_select`).
-/

namespace CronSchedule

namespace Checked

variable (f : Field)

/-! ### Values -/

/-- The bounds of a field fit in any word. -/
theorem lo_hi_small : 0 ≤ f.lo ∧ f.hi ≤ 2099 := by cases f <;> decide

/-- The value a number stands for, in a shorter word once it is in the bound. -/
def checkValue (value : Int) : Checked Int := do
  let v := f.fold value
  if v < f.lo ∨ f.hi < v then throw (.outOfRange f v) else of (narrow v)

theorem runs_checkValue (value : Int) : Runs (checkValue f value) (f.checkValue value) := by
  have := lo_hi_small f
  simp only [checkValue, Field.checkValue]
  split
  · exact .throw _
  · exact .of (narrow_eq_ok (by omega))

/-- The value of a literal. -/
def resolveValue (raw : Int) : Checked Int := do
  let value ← if raw < 0 then of (addWord raw f.hi) else pure raw
  checkValue f value

theorem runs_resolveValue {raw : Int} (h : fitsWord raw = true) :
    Runs (resolveValue f raw) (f.resolveValue raw) := by
  have := lo_hi_small f
  have := f.lo_le_hi
  unfold resolveValue Field.resolveValue
  split
  · next hneg => exact .of_bind (addWord_eq_ok h hneg (by omega)) (runs_checkValue f _)
  · exact runs_checkValue f raw

/-- The beginning of a stepped sequence, in a shorter word once it is in the bound. -/
def resolveStart (raw : Int) : Checked Int := do
  let v ← if raw < 0 then of (addWord raw f.hi) else pure (f.fold raw)
  if f.hi < v then throw (.outOfRange f v) else of (narrow (max v f.lo))

theorem runs_resolveStart {raw : Int} (h : fitsWord raw = true) :
    Runs (resolveStart f raw) (f.resolveStart raw) := by
  have := lo_hi_small f
  have := f.lo_le_hi
  have hstart (v : Int) :
      Runs (if f.hi < v then throw (.outOfRange f v) else of (narrow (max v f.lo)))
        (if f.hi < v then .error (.outOfRange f v) else .ok (max v f.lo)) := by
    split
    · exact .throw _
    · exact .of (narrow_eq_ok (by omega))
  unfold resolveStart Field.resolveStart
  split
  · next hneg => exact .of_bind (addWord_eq_ok h hneg (by omega)) (hstart _)
  · exact hstart _

/-- The value a name stands for, its place among the names counted from the least value. -/
def resolveAlias (name : Fragment) : Checked Int :=
  if sameIgnoringCase name Field.lastAlias.toList then pure f.hi
  else
    match Field.findRow? name f.names with
    | some row => do
      let place ← of (narrow row)
      of (addHalf place f.lo)
    | none => throw (.unknownAlias f name)

theorem runs_resolveAlias (name : Fragment) :
    Runs (resolveAlias f name) (f.resolveAlias name) := by
  have hnames : f.names.length ≤ 12 := by cases f <;> decide
  have := lo_hi_small f
  have := f.lo_le_hi
  unfold resolveAlias Field.resolveAlias
  split
  · exact .pure _
  · cases hrow : Field.findRow? name f.names with
    | none => exact .throw _
    | some row =>
      have := Field.findRow?_lt_length hrow
      simp only [Int.add_comm f.lo]
      exact .of_bind (narrow_eq_ok (by omega)) (.of (addHalf_eq_ok (by omega)))

/-- What a name stands for fits in a word. -/
theorem fitsWord_of_resolveAlias {name : Fragment} {v : Int} (h : f.resolveAlias name = .ok v) :
    fitsWord v = true := by
  have := Field.resolveAlias_bounds h
  have := lo_hi_small f
  rw [fitsWord, decide_eq_true_eq]
  omega

/-- The value that a fragment of a token stands for. -/
def readValue (token text : Fragment) : Checked Int :=
  let text := trim text
  if text = [] then throw (.emptyPart f token)
  else
    match readInteger? text with
    | some raw => resolveValue f raw
    | none => resolveAlias f text >>= checkValue f

theorem runs_readValue (token text : Fragment) :
    Runs (readValue f token text) (f.readValue token text) := by
  simp only [readValue, Field.readValue]
  split
  · exact .throw _
  · cases hraw : readInteger? (trim text) with
    | some raw => exact runs_resolveValue f (readInteger?_bounds hraw)
    | none => exact (runs_resolveAlias f _).bind fun v _ => runs_checkValue f v

/-- The beginning of a stepped sequence that a fragment of a token stands for. -/
def readStart (token text : Fragment) : Checked Int :=
  let text := trim text
  if text = [] then throw (.emptyPart f token)
  else
    match readInteger? text with
    | some raw => resolveStart f raw
    | none => resolveAlias f text >>= resolveStart f

theorem runs_readStart (token text : Fragment) :
    Runs (readStart f token text) (f.readStart token text) := by
  simp only [readStart, Field.readStart]
  split
  · exact .throw _
  · cases hraw : readInteger? (trim text) with
    | some raw => exact runs_resolveStart f (readInteger?_bounds hraw)
    | none =>
      exact (runs_resolveAlias f _).bind fun v hv =>
        runs_resolveStart f (fitsWord_of_resolveAlias f hv)

/-! ### Ranges -/

/-- A step that is positive and fits in a word. -/
def IsStep (step : Nat) : Prop := 1 ≤ step ∧ step ≤ greatestWord

/-- The step behind a slash, in a word without a sign. -/
def readStep (token text : Fragment) : Checked Nat :=
  match readInteger? (trim text) with
  | some n => if 1 ≤ n then pure (min n.toNat greatestWord) else throw (.nonPositiveStep f token)
  | none => throw (.nonPositiveStep f token)

theorem runs_readStep (token text : Fragment) :
    Runs (readStep f token text) (Term.readStep f token text) := by
  unfold readStep Term.readStep
  cases hn : readInteger? (trim text) with
  | none => exact .throw _
  | some n =>
    have hfits := readInteger?_bounds hn
    rw [fitsWord, decide_eq_true_eq] at hfits
    have hmin : min n.toNat greatestWord = n.toNat := by
      unfold greatestWord
      omega
    simp only [hmin]
    split
    · exact .pure _
    · exact .throw _

/-- A step that is read is positive and fits in a word. -/
theorem isStep_of_readStep {token text : Fragment} {step : Nat}
    (h : Term.readStep f token text = .ok step) : IsStep step := by
  refine ⟨Term.readStep_pos h, ?_⟩
  unfold Term.readStep at h
  split at h
  · next n hn =>
    have hfits := readInteger?_bounds hn
    rw [fitsWord, decide_eq_true_eq] at hfits
    split at h
    · cases h
      unfold greatestWord
      omega
    · cases h
  · cases h

/-- What a range lists; nothing where it is the whole field. -/
def readRange (token text : Fragment) (step : Option Nat) : Checked (Option (List Int)) := do
  let text := trim text
  if text = [] then throw (.emptyPart f token)
  else if text = ['*'] ∨ text = ['?'] then
    match step with
    | none => return none
    | some step => return some (← of (enumerate f.lo f.hi step))
  else
    match ← of (splitRange text) with
    | [single] =>
      match step with
      | none => return some [← readValue f token single]
      | some step =>
        let start ← readStart f token single
        return some (← of (enumerate start f.hi step))
    | [left, right] =>
      let start ← readValue f token left
      let step := step.getD 1
      if f = .dayOfWeek ∧ trim right = ['7'] then
        let days ← of (enumerate (if trim left = ['7'] then 7 else start) 7 step)
        return some (days.map (· % 7))
      else
        let stop ← readValue f token right
        if start ≤ stop then return some (← of (enumerate start stop step))
        else
          let front ← of (enumerate start f.hi step)
          let back ← of (enumerate f.lo stop step)
          return some (front ++ back)
    | _ => throw (.malformedRange f token)

/-- What a term lists; nothing where it is the whole field. -/
def listed : Term → Option (List Int)
  | .whole => none
  | t => some (t.values f)

theorem runs_readRange (token text : Fragment) {step : Option Nat}
    (h : ∀ s, step = some s → IsStep s) :
    Runs (readRange f token text step) (listed f <$> Term.readRange f token text step) := by
  have hstep : IsStep (step.getD 1) := by
    cases step with
    | none => exact ⟨Nat.le_refl 1, by decide⟩
    | some s => exact h s rfl
  simp only [readRange, Term.readRange]
  split
  · exact .throw _
  · split
    · cases step with
      | none => exact .pure _
      | some s => exact .of_bind (enumerate_eq_ok (h s rfl) _ _) (.pure _)
    · refine .of_bind (splitRange_eq_ok _) ?_
      rcases dashSplit (trim text) with _ | ⟨left, _ | ⟨right, _ | ⟨third, others⟩⟩⟩
      · exact .throw _
      · cases step with
        | none =>
          rw [Functor.map_map, map_eq_pure_bind]
          exact (runs_readValue f token left).bind fun v _ => .pure _
        | some s =>
          rw [Functor.map_map, map_eq_pure_bind]
          exact (runs_readStart f token left).bind fun start _ =>
            .of_bind (enumerate_eq_ok (h s rfl) _ _) (.pure _)
      · rw [map_bind]
        refine (runs_readValue f token left).bind fun start _ => ?_
        split
        · exact .of_bind (enumerate_eq_ok hstep _ _) (.pure _)
        · rw [map_bind]
          refine (runs_readValue f token right).bind fun stop _ => ?_
          show Runs _ (.ok (some (if start ≤ stop then _ else _)))
          split
          · exact .of_bind (enumerate_eq_ok hstep _ _) (.pure _)
          · exact .of_bind (enumerate_eq_ok hstep _ _)
              (.of_bind (enumerate_eq_ok hstep _ _) (.pure _))
      · exact .throw _

/-! ### Tokens and fields -/

/-- What a token lists; nothing where it is the whole field. -/
def read (token : Fragment) : Checked (Option (List Int)) :=
  match token.splitOn '/' with
  | [text] => readRange f token text none
  | [text, step] => readStep f token step >>= fun step => readRange f token text (some step)
  | _ => throw (.malformedToken f token)

theorem runs_read (token : Fragment) : Runs (read f token) (listed f <$> Term.read f token) := by
  unfold read Term.read
  rcases token.splitOn '/' with _ | ⟨text, _ | ⟨step, _ | ⟨third, others⟩⟩⟩
  · exact .throw _
  · exact runs_readRange f token text fun s hs => nomatch hs
  · rw [map_bind]
    refine (runs_readStep f token step).bind fun n hn => runs_readRange f token text fun s hs => ?_
    cases hs
    exact isStep_of_readStep f hn
  · exact .throw _

/-- What a token of a field lists; a blank token is reported with the whole text. -/
def readToken (text token : Fragment) : Checked (Option (List Int)) :=
  let token := trim token
  if token = [] then throw (.emptyPart f text) else read f token

theorem runs_readToken (text token : Fragment) :
    Runs (readToken f text token) (listed f <$> f.readToken text token) := by
  simp only [readToken, Field.readToken]
  split
  · exact .throw _
  · exact runs_read f _

/-- The distinct values of all lists, or the whole field where a token is. -/
def gather (lists : List (Option (List Int))) : Selection :=
  if none ∈ lists then .whole else .listed (lists.flatMap (·.getD [])).eraseDups

/-- What the tokens list, gathered, is the union of their terms. -/
theorem gather_map_listed (terms : List Term) :
    gather (terms.map (listed f)) = Selection.ofTerms f terms := by
  have hnone (t : Term) : listed f t = none ↔ t = .whole := by cases t <;> simp [listed]
  have hwhole : none ∈ terms.map (listed f) ↔ .whole ∈ terms := by
    simp only [List.mem_map, hnone, exists_eq_right]
  rw [gather, Selection.ofTerms]
  simp only [hwhole]
  split
  · rfl
  · next hmem =>
    rw [List.flatMap_map]
    have hvalues : ∀ t ∈ terms, (listed f t).getD [] = t.values f := by
      intro t ht
      cases t with
      | whole => exact absurd ht hmem
      | _ => rfl
    rw [List.flatMap_congr hvalues]

/-- What the text of a field selects. -/
def select (text : Fragment) : Checked Selection :=
  let text := trim text
  if text = [] then throw (.emptyPart f text)
  else gather <$> (text.splitOn ',').mapM (readToken f text)

/-- **A field is read without faults.** -/
theorem runs_select (text : Fragment) : Runs (select f text) (f.select text) := by
  simp only [select, Field.select, Field.readTerms]
  split
  · exact .throw _
  · have hlists : Runs (((trim text).splitOn ',').mapM (readToken f (trim text)))
        (List.map (listed f) <$> ((trim text).splitOn ',').mapM (f.readToken (trim text))) :=
      .mapM fun token _ => runs_readToken f (trim text) token
    have hgather := hlists.map gather
    rw [Functor.map_map] at hgather
    simpa only [gather_map_listed] using hgather

end Checked

end CronSchedule
