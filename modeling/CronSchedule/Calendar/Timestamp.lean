import CronSchedule.Calendar.Instant
import CronSchedule.Text.Numeral

/-!
# Timestamps with an offset

Timestamps are read and written in the form of RFC 3339: a date, a time of day with an optional
fraction, and the offset of the clock from UTC.

* `Timestamp` — an instant on the clock's face, the fraction of its second, a mark for a leap
  second, and the offset.
* `Timestamp.parse`, `Timestamp.render`.

A leap second, written as second `60`, follows second `59` of its minute and keeps the fields of
that second. A fraction is cut at nanoseconds and written with three, six or nine digits, whichever
is the shortest that loses nothing.
-/

namespace CronSchedule

/-- A reading of a clock that knows its offset from UTC. -/
structure Timestamp where
  /-- What the clock shows; during a leap second, the second before it. -/
  instant : Instant
  leapSecond : Bool
  nanosecond : Nat
  /-- The minutes by which the clock is ahead of UTC. -/
  offset : Int
deriving DecidableEq, Repr

/-- Why a text is no timestamp. -/
inductive TimestampError where
  /-- The text ends too soon. -/
  | tooShort
  /-- A character stands where another kind of character should. -/
  | invalid
  /-- A number names no date, time or offset. -/
  | outOfRange
  /-- More text follows the timestamp. -/
  | trailing
deriving DecidableEq, Repr

/-- The wording of a refusal. -/
def TimestampError.message : TimestampError → String
  | tooShort => "premature end of input"
  | invalid => "input contains invalid characters"
  | outOfRange => "input is out of range"
  | trailing => "trailing input"

namespace Timestamp

/-! ### Reading -/

/-- The number written with so many digits in front of a text, and the text behind it. -/
def takeNumber (width : Nat) (text : Fragment) : Except TimestampError (Nat × Fragment) :=
  if text.length < width then .error .tooShort
  else
    match readNatural? (text.take width) with
    | some n => .ok (n, text.drop width)
    | none => .error .invalid

/-- The text behind one of some characters. -/
def skipOneOf (allowed : List Char) : Fragment → Except TimestampError Fragment
  | [] => .error .tooShort
  | c :: text => if c ∈ allowed then .ok text else .error .invalid

/-- A date and the text behind it. -/
def takeDate (text : Fragment) : Except TimestampError (Date × Fragment) := do
  let (year, text) ← takeNumber 4 text
  let (month, text) ← takeNumber 2 (← skipOneOf ['-'] text)
  let (day, text) ← takeNumber 2 (← skipOneOf ['-'] text)
  match Date.ofParts? year month day with
  | some date => return (date, text)
  | none => throw .outOfRange

/-- The nanoseconds of a fraction, if a point begins one, and the text behind it; digits past the
ninth are dropped. -/
def takeFraction : Fragment → Except TimestampError (Nat × Fragment)
  | '.' :: text =>
    let digits := (text.takeWhile Char.isDigit).take 9
    match readNatural? digits with
    | some n => .ok (n * Nat.pow 10 (9 - digits.length), text.dropWhile Char.isDigit)
    | none => .error (if text.isEmpty then .tooShort else .invalid)
  | text => .ok (0, text)

/-- The minutes of an offset and the text behind it; `Z` is no offset, and the typographic minus
sign counts as a minus. -/
def takeOffset : Fragment → Except TimestampError (Int × Fragment)
  | 'Z' :: text | 'z' :: text => .ok (0, text)
  | [] => .error .tooShort
  | sign :: text => do
    let _ ← skipOneOf ['+', '-', '\u2212'] [sign]
    let (hours, text) ← takeNumber 2 text
    let (minutes, text) ← takeNumber 2 (← skipOneOf [':'] text)
    if 60 ≤ minutes ∨ 24 ≤ hours then throw .outOfRange
    let offset : Int := hours * 60 + minutes
    return (if sign = '+' then offset else -offset, text)

/-- The timestamp a text denotes, or why it denotes none. -/
def parse (text : Fragment) : Except TimestampError Timestamp := do
  if (String.ofList text).utf8ByteSize < 19 then throw .tooShort
  let (date, text) ← takeDate text
  let (hour, text) ← takeNumber 2 (← skipOneOf ['T', 't', ' '] text)
  let (minute, text) ← takeNumber 2 (← skipOneOf [':'] text)
  let (second, text) ← takeNumber 2 (← skipOneOf [':'] text)
  let (nanosecond, text) ← takeFraction text
  let leapSecond := second == 60
  match Instant.ofParts? date hour minute (if leapSecond then 59 else second) with
  | none => throw .outOfRange
  | some instant =>
    let (offset, text) ← takeOffset text
    if text ≠ [] then throw .trailing
    return { instant, leapSecond, nanosecond, offset }

/-! ### Writing -/

/-- A number with zeros in front, to so many digits at least. -/
def padded (width n : Nat) : String :=
  String.ofList ((Nat.toDigits 10 n).leftpad width '0')

/-- A year with four digits; outside those, with a sign. -/
def renderYear (year : Int) : String :=
  if 0 ≤ year ∧ year ≤ 9999 then padded 4 year.toNat
  else (if year < 0 then "-" else "+") ++ padded 4 year.natAbs

/-- A fraction with three, six or nine digits, none where there is none. -/
def renderFraction (nanosecond : Nat) : String :=
  if nanosecond = 0 then ""
  else if nanosecond % 1000000 = 0 then "." ++ padded 3 (nanosecond / 1000000)
  else if nanosecond % 1000 = 0 then "." ++ padded 6 (nanosecond / 1000)
  else "." ++ padded 9 nanosecond

/-- An offset with its sign; none at all is written as a positive one. -/
def renderOffset (offset : Int) : String :=
  let minutes := offset.natAbs
  (if offset < 0 then "-" else "+") ++ padded 2 (minutes / 60) ++ ":" ++ padded 2 (minutes % 60)

/-- The text of a timestamp. -/
def render (t : Timestamp) : String :=
  let date := t.instant.date
  let second := t.instant.second.toNat + if t.leapSecond then 1 else 0
  renderYear date.year ++ "-" ++ padded 2 date.month.toNat ++ "-" ++ padded 2 date.day.toNat ++
    "T" ++ padded 2 t.instant.hour.toNat ++ ":" ++ padded 2 t.instant.minute.toNat ++
    ":" ++ padded 2 second ++ renderFraction t.nanosecond ++ renderOffset t.offset

end Timestamp

end CronSchedule
