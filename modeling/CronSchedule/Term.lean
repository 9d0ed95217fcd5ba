import CronSchedule.Field.Value
import CronSchedule.Progression
import CronSchedule.Text.DashSplit

/-!
# The tokens of a field

A field is written as tokens with commas between them. A token is a whole-field wildcard `*` or
`?`, a value or a range of two values, each with or without a step behind a slash.

* `Term` — what a token says.
* `Term.values` — the values it lists, in order.
* `Term.read` — the term that a token denotes, or why it denotes none.

Main statement: every term that is read has a positive step (`Term.step_pos_of_read`).
-/

namespace CronSchedule

/-- What one token of a field says. -/
inductive Term where
  /-- The whole field, without restriction: `*`. -/
  | whole
  /-- Every so many values from the least one on: `*` with a step. -/
  | wholeBy (step : Nat)
  /-- One value. -/
  | value (v : Int)
  /-- Every so many values from a start to the greatest one: a value with a step. -/
  | valueBy (start : Int) (step : Nat)
  /-- Every so many values between two ends; a range that runs backwards goes on to the greatest
  value and starts again at the least. -/
  | range (start stop : Int) (step : Nat)
  /-- Every so many days of the week up to a Sunday that ends the week as day `7`. -/
  | rangeToSunday (start : Int) (step : Nat)
deriving DecidableEq, Repr

namespace Term

/-! ### What a term lists -/

/-- The values a term lists, in order. -/
def values (f : Field) : Term → List Int
  | whole => progression f.lo 1 f.hi
  | wholeBy step => progression f.lo step f.hi
  | value v => [v]
  | valueBy start step => progression start step f.hi
  | range start stop step =>
    if start ≤ stop then progression start step stop
    else progression start step f.hi ++ progression f.lo step stop
  | rangeToSunday start step => (progression start step 7).map (· % 7)

/-! ### Reading a token -/

/-- The step behind a slash: an integer numeral of at least one. -/
def readStep (f : Field) (token text : Fragment) : Except ParseError Nat :=
  match readInteger? (trim text) with
  | some n => if 1 ≤ n then .ok n.toNat else .error (.nonPositiveStep f token)
  | none => .error (.nonPositiveStep f token)

/-- The term of a range, with the step that stood behind it. The end of a range of days that is
written `7` means the Sunday after the others; a range from such a `7` to itself is that Sunday. -/
def readRange (f : Field) (token text : Fragment) (step : Option Nat) : Except ParseError Term :=
  let text := trim text
  if text = [] then .error (.emptyPart f token)
  else if text = ['*'] ∨ text = ['?'] then
    match step with
    | none => .ok whole
    | some step => .ok (wholeBy step)
  else
    match dashSplit text with
    | [single] =>
      match step with
      | none => value <$> f.readValue token single
      | some step => (valueBy · step) <$> f.readStart token single
    | [left, right] => do
      let start ← f.readValue token left
      if f = .dayOfWeek ∧ trim right = ['7'] then
        return rangeToSunday (if trim left = ['7'] then 7 else start) (step.getD 1)
      else
        return range start (← f.readValue token right) (step.getD 1)
    | _ => .error (.malformedRange f token)

/-- The term a token denotes; the step is read before the range. -/
def read (f : Field) (token : Fragment) : Except ParseError Term :=
  match token.splitOn '/' with
  | [text] => readRange f token text none
  | [text, step] => readStep f token step >>= fun step => readRange f token text (some step)
  | _ => .error (.malformedToken f token)

/-- A range of days up to Sunday, a wrapped range and a start below the least value. -/
example : (read .dayOfWeek "5-7".toList).toOption.map (values .dayOfWeek) = some [5, 6, 0] ∧
    (read .hour "22-1".toList).toOption.map (values .hour) = some [22, 23, 0, 1] ∧
    (read .dayOfMonth "0/10".toList).toOption.map (values .dayOfMonth) = some [1, 11, 21, 31] := by
  decide

/-! ### Steps are positive -/

/-- The step of a term; a term without one goes by single values. -/
def step : Term → Nat
  | whole | value _ => 1
  | wholeBy step | valueBy _ step | range _ _ step | rangeToSunday _ step => step

theorem readStep_pos {f : Field} {token text : Fragment} {n : Nat}
    (h : readStep f token text = .ok n) : 1 ≤ n := by
  rw [readStep] at h
  split at h
  · split at h
    · cases h
      omega
    · exact nomatch h
  · exact nomatch h

theorem readRange_step {f : Field} {token text : Fragment} {step : Option Nat} {t : Term}
    (h : readRange f token text step = .ok t) : t.step = step.getD 1 := by
  simp only [readRange] at h
  split at h
  · exact nomatch h
  split at h
  · cases step <;> (cases h; rfl)
  split at h
  · cases step with
    | none =>
      cases hv : f.readValue token ‹_› with
      | error e => simp [hv, Functor.map, Except.map] at h
      | ok v =>
        simp only [hv, Functor.map, Except.map, Except.ok.injEq] at h
        rw [← h]
        rfl
    | some s =>
      cases hv : f.readStart token ‹_› with
      | error e => simp [hv, Functor.map, Except.map] at h
      | ok v =>
        simp only [hv, Functor.map, Except.map, Except.ok.injEq] at h
        rw [← h]
        rfl
  · next left right _ =>
    cases hv : f.readValue token left with
    | error e => simp [hv, bind, Except.bind] at h
    | ok v =>
      simp only [hv, bind, Except.bind] at h
      split at h
      · cases h
        rfl
      · cases hw : f.readValue token right with
        | error e => simp [hw] at h
        | ok w =>
          simp only [hw] at h
          cases h
          rfl
  · exact nomatch h

/-- Every term that is read has a positive step. -/
theorem step_pos_of_read {f : Field} {token : Fragment} {t : Term} (h : read f token = .ok t) :
    1 ≤ t.step := by
  rw [read] at h
  split at h
  · rw [readRange_step h]
    decide
  · next text step _ =>
    cases hs : readStep f token step with
    | error e => simp [hs, bind, Except.bind] at h
    | ok s =>
      simp only [hs, bind, Except.bind] at h
      rw [readRange_step h]
      exact readStep_pos hs
  · exact nomatch h

end Term

end CronSchedule
