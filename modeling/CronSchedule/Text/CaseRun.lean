import CronSchedule.Text.Blank

/-!
# Case mappings as runs of code points

Letters with a second case lie in runs: neighbours, or every other code point, whose other form
lies at one distance. A case mapping is a list of such runs and a list of the code points that
become several.

* `CaseRun` — a run and the distance of the other form.
* `mapCase` — a text under a mapping of this kind; what the mapping does not list stays.
-/

namespace CronSchedule

/-- Every `stride`-th code point from `start` to `stop`, with the distance of its other form. -/
structure CaseRun where
  start : Nat
  stop : Nat
  stride : Nat
  shift : Int
deriving DecidableEq, Repr

/-- Whether a code point lies in a run. -/
def CaseRun.covers (r : CaseRun) (n : Nat) : Bool :=
  r.start ≤ n && n ≤ r.stop && (n - r.start) % r.stride == 0

/-- The other form of a code point under a mapping. -/
def mapCodePoint (runs : List CaseRun) (expansions : List (Nat × List Nat)) (n : Nat) : List Nat :=
  match expansions.lookup n with
  | some image => image
  | none =>
    match runs.find? (·.covers n) with
    | some r => [((n : Int) + r.shift).toNat]
    | none => [n]

/-- A text under a case mapping. -/
def mapCase (runs : List CaseRun) (expansions : List (Nat × List Nat)) (text : Fragment) :
    Fragment :=
  text.flatMap fun c => (mapCodePoint runs expansions c.toNat).map Char.ofNat

end CronSchedule
