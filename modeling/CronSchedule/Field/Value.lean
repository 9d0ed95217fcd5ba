import CronSchedule.Field.Alias
import CronSchedule.Text.Numeral

/-!
# Values of a field

A number written in a field is first turned into a value, then held against the field's bound.

* `Field.fold` — day `7` of the week is Sunday, day `0`.
* `Field.checkValue` — a value inside the bound, after folding.
* `Field.resolveValue` — a negative number `-k` counts down from the greatest value.
* `Field.resolveStart` — where a stepped sequence begins: only the upper bound is enforced, and a
  start below the least value is raised to it.

Main statements: whatever these accept lies in the bound (`Field.checkValue_bounds`,
`Field.resolveStart_bounds`), and a value in the bound is accepted unchanged
(`Field.checkValue_of_mem`).
-/

namespace CronSchedule.Field

/-- Day `7` of the week is Sunday, day `0`; every other number is itself. -/
def fold (f : Field) (value : Int) : Int :=
  if f = dayOfWeek ∧ value = 7 then 0 else value

/-- The value a number stands for, refused outside the bound. -/
def checkValue (f : Field) (value : Int) : Except ParseError Int :=
  let v := f.fold value
  if v < f.lo ∨ f.hi < v then .error (.outOfRange f v) else .ok v

/-- The value of a literal: `-k` stands `k` below the greatest value. -/
def resolveValue (f : Field) (raw : Int) : Except ParseError Int :=
  f.checkValue (if raw < 0 then raw + f.hi else raw)

/-- The beginning of a stepped sequence: below the least value it is raised to it. -/
def resolveStart (f : Field) (raw : Int) : Except ParseError Int :=
  let v := if raw < 0 then raw + f.hi else f.fold raw
  if f.hi < v then .error (.outOfRange f v) else .ok (max v f.lo)

/-! ### What is accepted -/

theorem checkValue_bounds {f : Field} {value v : Int} (h : f.checkValue value = .ok v) :
    f.lo ≤ v ∧ v ≤ f.hi := by
  simp only [checkValue] at h
  split at h
  · exact nomatch h
  · cases h
    omega

theorem resolveStart_bounds {f : Field} {raw v : Int} (h : f.resolveStart raw = .ok v) :
    f.lo ≤ v ∧ v ≤ f.hi := by
  have := f.lo_le_hi
  simp only [resolveStart] at h
  generalize (if raw < 0 then raw + f.hi else f.fold raw) = w at h
  split at h
  · exact nomatch h
  · cases h
    omega

/-- A value in the bound is accepted unchanged. -/
theorem checkValue_of_mem {f : Field} {v : Int} (h : f.lo ≤ v ∧ v ≤ f.hi) :
    f.checkValue v = .ok v := by
  have hfold : f.fold v = v := by
    rw [fold, if_neg]
    rintro ⟨rfl, rfl⟩
    exact absurd h.2 (by decide)
  rw [checkValue, hfold, if_neg (by omega)]

/-! ### Reading a value -/

/-- The value that a fragment of `token` stands for: a literal or a name, inside the bound. -/
def readValue (f : Field) (token text : Fragment) : Except ParseError Int :=
  let text := trim text
  if text = [] then .error (.emptyPart f token)
  else
    match readInteger? text with
    | some raw => f.resolveValue raw
    | none => f.resolveAlias text >>= f.checkValue

/-- The beginning of a stepped sequence that a fragment of `token` stands for. -/
def readStart (f : Field) (token text : Fragment) : Except ParseError Int :=
  let text := trim text
  if text = [] then .error (.emptyPart f token)
  else
    match readInteger? text with
    | some raw => f.resolveStart raw
    | none => f.resolveAlias text >>= f.resolveStart

end CronSchedule.Field
