import CronSchedule.Text.Blank

/-!
# Integer numerals

* `readNatural?` — the number that a non-empty run of decimal digits denotes.
* `readInteger?` — the same with at most one sign in front, refused outside the signed 64-bit
  range.

Main statements: the decimal digits of a number read back as that number
(`readNatural?_toDigits`), and whatever is read fits in 64 bits (`readInteger?_bounds`).
-/

namespace CronSchedule

/-! ### Digits -/

/-- The number a run of decimal digits denotes; nothing for an empty run or another character. -/
def readNatural? (digits : Fragment) : Option Nat :=
  if digits ≠ [] ∧ digits.all Char.isDigit then some (Nat.ofDigitChars 10 digits 0) else none

/-- The decimal digits of a number read back as that number. -/
theorem readNatural?_toDigits (n : Nat) : readNatural? (Nat.toDigits 10 n) = some n := by
  have hdigits : (Nat.toDigits 10 n).all Char.isDigit = true :=
    List.all_eq_true.mpr fun _ h => Nat.isDigit_of_mem_toDigits (by decide) (by decide) h
  rw [readNatural?, if_pos ⟨Nat.toDigits_ne_nil, hdigits⟩, Nat.ofDigitChars_ten_toDigits]

/-- Zeros in front of the digits change nothing. -/
theorem readNatural?_zero_cons {digits : Fragment} (h : digits ≠ []) :
    readNatural? ('0' :: digits) = readNatural? digits := by
  simp [readNatural?, h, Nat.ofDigitChars]

/-! ### Signed numerals -/

/-- The integer a run of digits denotes behind at most one sign. -/
def readSigned? : Fragment → Option Int
  | '+' :: digits => (readNatural? digits).map fun n => (n : Int)
  | '-' :: digits => (readNatural? digits).map fun n => -(n : Int)
  | digits => (readNatural? digits).map fun n => (n : Int)

/-- Whether an integer fits in a signed 64-bit word. -/
def fitsWord (n : Int) : Bool :=
  decide (-9223372036854775808 ≤ n ∧ n ≤ 9223372036854775807)

/-- The integer a numeral denotes, if it fits in a signed 64-bit word. -/
def readInteger? (text : Fragment) : Option Int :=
  (readSigned? text).filter fitsWord

/-- Whatever is read fits in a signed 64-bit word. -/
theorem readInteger?_bounds {text : Fragment} {n : Int} (h : readInteger? text = some n) :
    fitsWord n = true := by
  simpa using (Option.filter_eq_some_iff.mp h).2

/-- Signs and leading zeros are accepted; blanks, a lone sign and numbers past the word are not. -/
example : readInteger? "+007".toList = some 7 ∧ readInteger? "-0".toList = some 0 ∧
    readInteger? " 7".toList = none ∧ readInteger? "-".toList = none ∧
    readInteger? "9223372036854775808".toList = none ∧
    readInteger? "-9223372036854775808".toList = some (-9223372036854775808) := by decide

end CronSchedule
