import CronSchedule.Proofs.Acceptance
import CronSchedule.ParseError
import CronSchedule.Progression
import CronSchedule.Text.Numeral

/-!
# Operations that may fault

A machine has no result for every operation: a list has no member past its end, a word does not hold
every sum. The readers are written once more with such operations, and those that have no result
fault. Lengths and positions of texts, and distances, which are no greater, are held in words that
always suffice for them.

* `Fault` — what went wrong.
* `Checked.index`, `Checked.write`, `Checked.addWord`, `Checked.narrow`, `Checked.addHalf`,
  `Checked.subHalf`, `Checked.shift`, `Checked.enumerate` — the operations.
* `Checked` — a reading with such operations, which may also refuse what it reads.
* `Checked.Runs x r` — a reading faults nowhere, and ends in the result or the refusal `r`.

A reading that is put together from others runs when they do (`Checked.Runs.bind`,
`Checked.Runs.of_bind`, `Checked.Runs.mapM`); what the first step accepted is at hand in the second.
-/

namespace CronSchedule

/-- What goes wrong where an operation has no result. -/
inductive Fault where
  /-- A list has no member at an index. -/
  | index
  /-- A text is cut within a character or outside its bytes. -/
  | slice
  /-- A sum or a difference does not fit in its word. -/
  | overflow
  /-- A number does not fit in the shorter word it is moved to. -/
  | narrowing
  /-- A step is zero or does not fit in a word. -/
  | step
  /-- A word is shifted by its width or more, or by a negative number. -/
  | shift
  /-- What is asserted does not hold. -/
  | assertion
deriving DecidableEq, Repr

/-- A reading that may fault, or refuse what it reads. -/
abbrev Checked (α : Type) := ExceptT ParseError (Except Fault) α

namespace Checked

variable {α β γ : Type}

/-- An operation as a reading, which refuses nothing. -/
def of (x : Except Fault α) : Checked α := ExceptT.lift x

/-! ### Operations -/

/-- The member of a list at an index. -/
def index (xs : List α) (i : Nat) : Except Fault α :=
  match xs[i]? with
  | some a => .ok a
  | none => .error .index

/-- A list with another member at an index. -/
def write (xs : List α) (i : Nat) (a : α) : Except Fault (List α) :=
  if i < xs.length then .ok (xs.set i a) else .error .index

/-- A sum in a signed 64-bit word. -/
def addWord (a b : Int) : Except Fault Int :=
  if fitsWord (a + b) then .ok (a + b) else .error .overflow

/-- Whether an integer fits in a signed 32-bit word. -/
def fitsHalf (n : Int) : Bool := decide (-2147483648 ≤ n ∧ n ≤ 2147483647)

/-- A number moved to a signed 32-bit word. -/
def narrow (n : Int) : Except Fault Int := if fitsHalf n then .ok n else .error .narrowing

/-- A sum in a signed 32-bit word. -/
def addHalf (a b : Int) : Except Fault Int :=
  if fitsHalf (a + b) then .ok (a + b) else .error .overflow

/-- A difference in a signed 32-bit word. -/
def subHalf (a b : Int) : Except Fault Int :=
  if fitsHalf (a - b) then .ok (a - b) else .error .overflow

/-- The bit at a place of a 64-bit word. -/
def shift (k : Int) : Except Fault (BitVec 64) :=
  if 0 ≤ k ∧ k < 64 then .ok (1#64 <<< k.toNat) else .error .shift

/-- The greatest 64-bit word without a sign. -/
def greatestWord : Nat := 18446744073709551615

/-- The numbers from one to another by a step. -/
def enumerate (start stop : Int) (step : Nat) : Except Fault (List Int) :=
  if 1 ≤ step ∧ step ≤ greatestWord then .ok (progression start step stop) else .error .step

/-- A list has a member at an index below its length. -/
theorem index_eq_ok {xs : List α} {i : Nat} {a : α} (h : xs[i]? = some a) : index xs i = .ok a := by
  rw [index, h]

/-- A member of a list can be replaced. -/
theorem write_eq_ok {xs : List α} {i : Nat} (h : i < xs.length) (a : α) :
    write xs i a = .ok (xs.set i a) :=
  if_pos h

/-- A small number is moved unchanged. -/
theorem narrow_eq_ok {n : Int} (h : -2147483648 ≤ n ∧ n ≤ 2147483647) : narrow n = .ok n := by
  rw [narrow, if_pos]
  exact decide_eq_true h

/-- A small sum fits. -/
theorem addHalf_eq_ok {a b : Int} (h : -2147483648 ≤ a + b ∧ a + b ≤ 2147483647) :
    addHalf a b = .ok (a + b) := by
  rw [addHalf, if_pos]
  exact decide_eq_true h

/-- A small difference fits. -/
theorem subHalf_eq_ok {a b : Int} (h : -2147483648 ≤ a - b ∧ a - b ≤ 2147483647) :
    subHalf a b = .ok (a - b) := by
  rw [subHalf, if_pos]
  exact decide_eq_true h

/-- A negative word and a number that is not negative have a sum in the word. -/
theorem addWord_eq_ok {a b : Int} (ha : fitsWord a = true) (hneg : a < 0)
    (hb : 0 ≤ b ∧ b ≤ 9223372036854775807) : addWord a b = .ok (a + b) := by
  rw [fitsWord, decide_eq_true_eq] at ha
  rw [addWord, if_pos]
  rw [fitsWord, decide_eq_true_eq]
  omega

/-- The bit at a place below 64. -/
theorem shift_eq_ok {k : Int} (h : 0 ≤ k ∧ k < 64) : shift k = .ok (BitVec.twoPow 64 k.toNat) :=
  if_pos h

/-- A positive word is a step. -/
theorem enumerate_eq_ok {step : Nat} (h : 1 ≤ step ∧ step ≤ greatestWord) (start stop : Int) :
    enumerate start stop step = .ok (progression start step stop) :=
  if_pos h

/-! ### Readings without faults -/

/-- A reading faults nowhere, and ends in a result or a refusal. -/
def Runs (x : Checked α) (r : Except ParseError α) : Prop := x.run = .ok r

namespace Runs

/-- A result. -/
protected theorem pure (a : α) : Runs (pure a) (.ok a) := rfl

/-- A refusal. -/
protected theorem throw (e : ParseError) : Runs (throw e : Checked α) (.error e) := rfl

/-- A reading that turns the result of another into its own, and a second after it, which faults
nowhere after what the other accepted. -/
protected theorem bind_map {x : Checked β} {r : Except ParseError α} {g : α → β}
    {k : β → Checked γ} {l : α → Except ParseError γ} (hx : Runs x (g <$> r))
    (hk : ∀ a, r = .ok a → Runs (k (g a)) (l a)) : Runs (x >>= k) (r >>= l) := by
  have hrun : (x >>= k).run = x.run >>= fun r => ExceptT.bindCont k r := rfl
  rw [Runs, hrun, hx]
  cases r with
  | error e => rfl
  | ok a => exact hk a rfl

/-- One reading after another. -/
protected theorem bind {x : Checked α} {r : Except ParseError α} {k : α → Checked β}
    {l : α → Except ParseError β} (hx : Runs x r) (hk : ∀ a, r = .ok a → Runs (k a) (l a)) :
    Runs (x >>= k) (r >>= l) := by
  rw [← id_map r] at hx
  exact hx.bind_map hk

/-- A reading whose result is changed afterwards. -/
protected theorem map {x : Checked α} {r : Except ParseError α} (hx : Runs x r) (g : α → β) :
    Runs (g <$> x) (g <$> r) := by
  rw [map_eq_pure_bind, map_eq_pure_bind]
  exact hx.bind fun a _ => .pure (g a)

/-- An operation that has a result. -/
protected theorem of {x : Except Fault α} {a : α} (hx : x = .ok a) : Runs (of x) (.ok a) := by
  subst hx
  rfl

/-- A reading after an operation that has a result. -/
protected theorem of_bind {x : Except Fault α} {a : α} {k : α → Checked β}
    {r : Except ParseError β} (hx : x = .ok a) (hk : Runs (k a) r) : Runs (of x >>= k) r := by
  subst hx
  exact hk

/-- The readings of a list, each with the result of another turned into its own. -/
protected theorem mapM {read : α → Checked γ} {read' : α → Except ParseError β}
    {g : β → γ} {xs : List α} (h : ∀ x ∈ xs, Runs (read x) (g <$> read' x)) :
    Runs (xs.mapM read) (List.map g <$> xs.mapM read') := by
  induction xs with
  | nil => exact .pure []
  | cons x xs ih =>
    rw [List.mapM_cons, List.mapM_cons, map_bind]
    refine (h x List.mem_cons_self).bind_map fun b _ => ?_
    rw [map_bind]
    refine (ih fun y hy => h y (List.mem_cons_of_mem _ hy)).bind_map fun bs _ => ?_
    exact .pure (g b :: bs.map g)

end Runs

/-- Operations on a list that have results have a list of them. -/
theorem mapM_eq_ok {op : α → Except Fault β} {g : α → β} {xs : List α}
    (h : ∀ x ∈ xs, op x = .ok (g x)) : xs.mapM op = .ok (xs.map g) := by
  rw [mapM_eq_ok_iff, List.forall₂_map_right_iff]
  exact List.forall₂_same.mpr h

/-- One operation after another. -/
theorem bind_eq_ok {x : Except Fault α} {a : α} (h : x = .ok a) (k : α → Except Fault β) :
    (x >>= k) = k a := by
  rw [h]
  rfl

end Checked

end CronSchedule
