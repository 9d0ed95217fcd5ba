/-!
# The seven fields of a schedule

* `Field` — second, minute, hour, day of the month, month, day of the week, year.
* `Field.lo`, `Field.hi` — the inclusive bound of a field's values; Sunday is day `0`.
* `PerField` — one thing for each field, in the order in which an expression writes them.
* `PerField.traverse`, `PerField.collect` — a check run field by field, which stops at the first
  refusal or reports all of them.

Main statements: a field's bound is never empty (`Field.lo_le_hi`), and what is built for each field
is found there again (`PerField.get_ofFn`).
-/

namespace CronSchedule

/-! ### Fields and bounds -/

/-- One position of a schedule expression, in the order of the seven-field form. -/
inductive Field where
  | second
  | minute
  | hour
  | dayOfMonth
  | month
  | dayOfWeek
  | year
deriving DecidableEq, Repr

namespace Field

/-- All fields in the order of an expression. -/
def all : List Field := [second, minute, hour, dayOfMonth, month, dayOfWeek, year]

/-- Every field is listed. -/
theorem mem_all (f : Field) : f ∈ all := by cases f <;> decide

/-- The least value of a field. -/
def lo : Field → Int
  | second | minute | hour | dayOfWeek => 0
  | dayOfMonth | month => 1
  | year => 1970

/-- The greatest value of a field. -/
def hi : Field → Int
  | second | minute => 59
  | hour => 23
  | dayOfMonth => 31
  | month => 12
  | dayOfWeek => 6
  | year => 2099

theorem lo_le_hi (f : Field) : f.lo ≤ f.hi := by cases f <;> decide

/-- The number of values in a field's bound. -/
def span (f : Field) : Nat := (f.hi - f.lo + 1).toNat

/-- The position of a field in an expression, from zero. -/
def index : Field → Nat
  | second => 0
  | minute => 1
  | hour => 2
  | dayOfMonth => 3
  | month => 4
  | dayOfWeek => 5
  | year => 6

/-- A field stands at its index in the list of all fields. -/
theorem getElem?_all_index (f : Field) : all[f.index]? = some f := by cases f <;> rfl

/-- The name of a field in messages and paths. -/
def name : Field → String
  | second => "second"
  | minute => "minute"
  | hour => "hour"
  | dayOfMonth => "day-of-month"
  | month => "month"
  | dayOfWeek => "day-of-week"
  | year => "year"

/-- Names tell the fields apart. -/
theorem name_injective {f g : Field} (h : f.name = g.name) : f = g := by
  cases f <;> cases g <;> simp_all [name]

end Field

/-! ### One thing for each field -/

/-- One thing for each field of a schedule. -/
structure PerField (α : Type) where
  second : α
  minute : α
  hour : α
  dayOfMonth : α
  month : α
  dayOfWeek : α
  year : α
deriving DecidableEq, Repr

namespace PerField

variable {α β ε : Type}

/-- What stands at a field. -/
def get (row : PerField α) : Field → α
  | .second => row.second
  | .minute => row.minute
  | .hour => row.hour
  | .dayOfMonth => row.dayOfMonth
  | .month => row.month
  | .dayOfWeek => row.dayOfWeek
  | .year => row.year

/-- The row that has `f field` at every field. -/
def ofFn (f : Field → α) : PerField α :=
  ⟨f .second, f .minute, f .hour, f .dayOfMonth, f .month, f .dayOfWeek, f .year⟩

@[simp] theorem get_ofFn (f : Field → α) (field : Field) : (ofFn f).get field = f field := by
  cases field <;> rfl

/-- Rows that agree at every field are equal. -/
theorem ext_get {row other : PerField α} (h : ∀ field, row.get field = other.get field) :
    row = other := by
  cases row
  cases other
  simp only [mk.injEq]
  exact ⟨h .second, h .minute, h .hour, h .dayOfMonth, h .month, h .dayOfWeek, h .year⟩

/-- What stands in the row, in the order of the fields. -/
def toList (row : PerField α) : List α := Field.all.map row.get

/-- The row of results of a check run field by field, or the first refusal. -/
def traverse (check : Field → α → Except ε β) (row : PerField α) : Except ε (PerField β) := do
  let second ← check .second row.second
  let minute ← check .minute row.minute
  let hour ← check .hour row.hour
  let dayOfMonth ← check .dayOfMonth row.dayOfMonth
  let month ← check .month row.month
  let dayOfWeek ← check .dayOfWeek row.dayOfWeek
  let year ← check .year row.year
  return ⟨second, minute, hour, dayOfMonth, month, dayOfWeek, year⟩

/-- The refusals of a check run at every field, each with its field, in the order of the fields. -/
def refusals (check : Field → α → Except ε β) (row : PerField α) : List (Field × ε) :=
  Field.all.filterMap fun field =>
    match check field (row.get field) with
    | .ok _ => none
    | .error cause => some (field, cause)

/-- The row of results of a check run at every field, or all of its refusals. -/
def collect (check : Field → α → Except ε β) (row : PerField α) :
    Except (List (Field × ε)) (PerField β) :=
  match check .second row.second, check .minute row.minute, check .hour row.hour,
    check .dayOfMonth row.dayOfMonth, check .month row.month, check .dayOfWeek row.dayOfWeek,
    check .year row.year with
  | .ok second, .ok minute, .ok hour, .ok dayOfMonth, .ok month, .ok dayOfWeek, .ok year =>
    .ok ⟨second, minute, hour, dayOfMonth, month, dayOfWeek, year⟩
  | _, _, _, _, _, _, _ => .error (row.refusals check)

end PerField

end CronSchedule
