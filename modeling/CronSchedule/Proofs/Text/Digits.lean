import CronSchedule.Proofs.Text.Trimming
import CronSchedule.Text.Numeral

/-!
# Decimal digits

* A decimal digit is neither blank nor one of the marks of an expression (`isDigit_ne_mark`,
  `isBlank_of_isDigit`), so that digits can stand anywhere as a word of their own.
* **A number written in decimal is read as that number** (`readInteger?_toDigits`), and behind its
  first character whatever is read as a number has digits only (`isDigit_of_mem_tail`).
* `numeral v` — the decimal numeral of a number; of one that is not negative it is its digits
  (`numeral_natCast`).
-/

namespace CronSchedule

/-! ### Digits -/

/-- The code points of the decimal digits. -/
theorem isDigit_bounds {c : Char} (h : c.isDigit = true) : 48 ≤ c.toNat ∧ c.toNat ≤ 57 := by
  simp only [Char.isDigit, Bool.and_eq_true, decide_eq_true_eq] at h
  exact ⟨h.1, h.2⟩

/-- A digit is no blank. -/
theorem isBlank_of_isDigit {c : Char} (h : c.isDigit = true) : isBlank c = false := by
  have hbounds := isDigit_bounds h
  unfold isBlank
  simp
  omega

/-- A digit is no other character than a digit. -/
theorem isDigit_ne_mark {c mark : Char} (h : c.isDigit = true) (hmark : mark.isDigit = false) :
    c ≠ mark := by
  rintro rfl
  rw [h] at hmark
  exact nomatch hmark

/-- The decimal digits of a number are digits. -/
theorem isDigit_of_mem_toDigits {n : Nat} {c : Char} (h : c ∈ Nat.toDigits 10 n) :
    c.isDigit = true :=
  Nat.isDigit_of_mem_toDigits (by decide) (by decide) h

/-! ### Reading digits -/

/-- Digits are read without a sign. -/
theorem readSigned?_of_digits {digits : Fragment} (h : ∀ c ∈ digits, c.isDigit = true) :
    readSigned? digits = (readNatural? digits).map fun n : Nat => (n : Int) := by
  have hsign : ∀ mark rest, mark.isDigit = false → digits ≠ mark :: rest := by
    rintro mark rest hmark rfl
    exact isDigit_ne_mark (h mark List.mem_cons_self) hmark rfl
  rw [readSigned?.eq_def]
  split
  · exact absurd rfl (hsign _ _ (by decide))
  · exact absurd rfl (hsign _ _ (by decide))
  · cases readNatural? digits <;> rfl

/-- The digits of a number are read as that number, without a sign. -/
theorem readSigned?_toDigits (n : Nat) : readSigned? (Nat.toDigits 10 n) = some (n : Int) := by
  rw [readSigned?_of_digits fun _ => isDigit_of_mem_toDigits, readNatural?_toDigits]
  rfl

/-- **A number written in decimal is read as that number.** -/
theorem readInteger?_toDigits {n : Nat} (h : n ≤ 9223372036854775807) :
    readInteger? (Nat.toDigits 10 n) = some (n : Int) := by
  have hfits : fitsWord (n : Int) = true := by
    unfold fitsWord
    rw [decide_eq_true_eq]
    omega
  rw [readInteger?, readSigned?_toDigits, Option.filter_some, if_pos hfits]

/-- What is read is digits, behind at most one sign. -/
theorem exists_digits_of_readInteger? {text : Fragment} {n : Int} (h : readInteger? text = some n) :
    ∃ digits k, readNatural? digits = some k ∧
      (text = '+' :: digits ∨ text = '-' :: digits ∨ text = digits) := by
  obtain ⟨hsigned, -⟩ := Option.filter_eq_some_iff.mp h
  rw [readSigned?.eq_def] at hsigned
  split at hsigned
  · next digits =>
    cases hk : readNatural? digits with
    | none => simp [hk] at hsigned
    | some k => exact ⟨digits, k, hk, .inl rfl⟩
  · next digits =>
    cases hk : readNatural? digits with
    | none => simp [hk] at hsigned
    | some k => exact ⟨digits, k, hk, .inr (.inl rfl)⟩
  · cases hk : readNatural? text with
    | none => simp [hk] at hsigned
    | some k => exact ⟨text, k, hk, .inr (.inr rfl)⟩

/-- Behind its first character a numeral has digits only. -/
theorem isDigit_of_mem_tail {text : Fragment} {n : Int} (h : readInteger? text = some n) {c : Char}
    (hc : c ∈ text.tail) : c.isDigit = true := by
  obtain ⟨digits, k, hk, htext⟩ := exists_digits_of_readInteger? h
  have hmem : c ∈ digits := by
    rcases htext with rfl | rfl | rfl
    · exact hc
    · exact hc
    · exact List.mem_of_mem_tail hc
  rw [readNatural?] at hk
  split at hk
  · next hall => exact List.all_eq_true.mp hall.2 c hmem
  · cases hk

/-- No dash stands behind the first character of a numeral. -/
theorem dash_not_mem_tail_of_readInteger? {word : Fragment} {n : Int}
    (h : readInteger? word = some n) : '-' ∉ word.tail :=
  fun hdash => isDigit_ne_mark (isDigit_of_mem_tail h hdash) (by decide) rfl

/-! ### Numerals -/

/-- The decimal numeral of a number. -/
def numeral (v : Int) : Fragment := (toString v).toList

/-- The numeral of a number that is not negative is its digits. -/
theorem numeral_natCast (n : Nat) : numeral (n : Int) = Nat.toDigits 10 n := by
  show (Nat.repr n).toList = _
  rw [Nat.repr, String.toList_ofList]

/-- A numeral of a number that is not negative is a run of digits. -/
theorem isDigit_of_mem_numeral {v : Int} (hv : 0 ≤ v) {c : Char} (h : c ∈ numeral v) :
    c.isDigit = true := by
  obtain ⟨n, rfl⟩ := Int.eq_ofNat_of_zero_le hv
  rw [numeral_natCast] at h
  exact isDigit_of_mem_toDigits h

/-- It is read as the number, if it fits in a signed 64-bit word. -/
theorem readInteger?_numeral {v : Int} (hv : 0 ≤ v ∧ v ≤ 9223372036854775807) :
    readInteger? (numeral v) = some v := by
  obtain ⟨n, rfl⟩ := Int.eq_ofNat_of_zero_le hv.1
  rw [numeral_natCast]
  exact readInteger?_toDigits (by omega)

end CronSchedule
