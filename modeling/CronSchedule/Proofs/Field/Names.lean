import CronSchedule.Field.Alias
import CronSchedule.Text.Numeral

/-!
# What a name stands for

* `Field.Names f word v` — a word is a name of a value: `L` in any case names the greatest one, and
  either name of a row the value of the row.
* **Resolving a name finds the value it names** (`resolveAlias_eq_ok_iff`). The search stops at the
  first row that matches; that it finds the row of any match rests on the rows having no name in
  common (`names_disjoint`), nor with `L` (`last_not_mem_names`).
* **No name is a numeral** (`readInteger?_of_names`), so that a word cannot mean two things.
-/

namespace CronSchedule

/-- Two texts are the same up to case when their lower-case forms are equal. -/
theorem sameIgnoringCase_iff {a b : Fragment} :
    sameIgnoringCase a b = true ↔ a.map Char.toLower = b.map Char.toLower := by
  rw [sameIgnoringCase, beq_iff_eq]

namespace Field

/-- Whether a word is the short or the long name of a row. -/
def InRow (word : Fragment) (row : String × String) : Prop :=
  sameIgnoringCase word row.1.toList = true ∨ sameIgnoringCase word row.2.toList = true

/-- The value that a word names. -/
inductive Names (f : Field) (word : Fragment) : Int → Prop
  /-- `L` names the greatest value. -/
  | last : sameIgnoringCase word lastAlias.toList = true → Names f word f.hi
  /-- The names of a row name the value as far above the least one as the row is from the first. -/
  | row {i : Nat} {row : String × String} : f.names[i]? = some row → InRow word row →
      Names f word (f.lo + i)

/-! ### The names are distinct -/

/-- The names of a row in lower case. -/
def lowerNames (row : String × String) : List Fragment :=
  [row.1.toList.map Char.toLower, row.2.toList.map Char.toLower]

/-- A word is in a row when its lower-case form is one of the row's. -/
theorem inRow_iff {word : Fragment} {row : String × String} :
    InRow word row ↔ word.map Char.toLower ∈ lowerNames row := by
  rw [InRow, sameIgnoringCase_iff, sameIgnoringCase_iff, lowerNames, List.mem_cons,
    List.mem_singleton]

/-- No two rows of a field have a name in common. -/
theorem names_disjoint (f : Field) :
    f.names.Pairwise fun r s => ∀ name ∈ lowerNames r, name ∉ lowerNames s := by
  cases f <;> decide

/-- `L` is in no row. -/
theorem last_not_mem_names (f : Field) :
    ∀ row ∈ f.names, lastAlias.toList.map Char.toLower ∉ lowerNames row := by
  cases f <;> decide

/-! ### The search finds the row -/

/-- Where no two rows have a name in common, the search finds the row that a word is in. -/
theorem findRow?_eq_some_iff {word : Fragment} {rows : List (String × String)}
    (hdisjoint : rows.Pairwise fun r s => ∀ name ∈ lowerNames r, name ∉ lowerNames s) {i : Nat} :
    findRow? word rows = some i ↔ ∃ row, rows[i]? = some row ∧ InRow word row := by
  induction rows generalizing i with
  | nil => simp [findRow?]
  | cons first rows ih =>
    obtain ⟨hfirst, hrest⟩ := List.pairwise_cons.mp hdisjoint
    have hcond : (sameIgnoringCase word first.1.toList || sameIgnoringCase word first.2.toList)
        = true ↔ InRow word first := by
      rw [Bool.or_eq_true, InRow]
    unfold findRow?
    split
    · next hword =>
      have hin := hcond.mp hword
      cases i with
      | zero => simp [hin]
      | succ i =>
        -- a later row cannot hold the word, since the first one does
        simp only [Option.some.injEq, List.getElem?_cons_succ]
        constructor
        · intro h
          exact absurd h.symm (Nat.succ_ne_zero i)
        · rintro ⟨row, hrow, hinrow⟩
          have hmem := List.mem_of_getElem? hrow
          exact absurd (inRow_iff.mp hinrow) (hfirst row hmem _ (inRow_iff.mp hin))
    · next hword =>
      have hnotin : ¬InRow word first := fun hin => hword (hcond.mpr hin)
      cases i with
      | zero => simp [hnotin]
      | succ i => simp [ih hrest]

/-- **Resolving a name finds the value it names**, and nothing else is resolved. -/
theorem resolveAlias_eq_ok_iff {f : Field} {word : Fragment} {v : Int} :
    f.resolveAlias word = .ok v ↔ f.Names word v := by
  unfold resolveAlias
  split
  · next hlast =>
    constructor
    · intro h
      cases h
      exact .last hlast
    · rintro (_ | ⟨hrow, hin⟩)
      · rfl
      · have hmem := List.mem_of_getElem? hrow
        have hlower := inRow_iff.mp hin
        rw [sameIgnoringCase_iff.mp hlast] at hlower
        exact absurd hlower (f.last_not_mem_names _ hmem)
  · next hlast =>
    split
    · next i hi =>
      obtain ⟨row, hrow, hin⟩ := (findRow?_eq_some_iff f.names_disjoint).mp hi
      constructor
      · intro h
        cases h
        exact .row hrow hin
      · rintro (hlast' | ⟨hrow', hin'⟩)
        · exact absurd hlast' hlast
        · have hj := (findRow?_eq_some_iff f.names_disjoint).mpr ⟨_, hrow', hin'⟩
          rw [hi] at hj
          cases hj
          rfl
    · next hnone =>
      constructor
      · exact fun h => nomatch h
      · rintro (hlast' | ⟨hrow, hin⟩)
        · exact absurd hlast' hlast
        · rw [(findRow?_eq_some_iff f.names_disjoint).mpr ⟨_, hrow, hin⟩] at hnone
          exact nomatch hnone

/-! ### Names are no numerals -/

/-- Whether a character can begin a numeral. -/
def beginsNumeral (c : Char) : Bool := c = '+' || c = '-' || c.isDigit

/-- A numeral begins with a sign or a digit. -/
theorem head_of_readInteger? {text : Fragment} {n : Int} (h : readInteger? text = some n) :
    ∃ c rest, text = c :: rest ∧ beginsNumeral c = true := by
  obtain ⟨hsigned, -⟩ := Option.filter_eq_some_iff.mp h
  rw [readSigned?.eq_def] at hsigned
  split at hsigned
  · exact ⟨_, _, rfl, by decide⟩
  · exact ⟨_, _, rfl, by decide⟩
  · obtain ⟨k, hk, -⟩ := Option.map_eq_some_iff.mp hsigned
    unfold readNatural? at hk
    split at hk
    · next hdigits =>
      obtain ⟨c, rest, rfl⟩ := List.exists_cons_of_ne_nil hdigits.1
      have hc := List.all_eq_true.mp hdigits.2 c List.mem_cons_self
      exact ⟨c, rest, rfl, by rw [beginsNumeral, hc, Bool.or_true]⟩
    · exact nomatch hk

/-- A character that begins a numeral has no case. -/
theorem toLower_of_beginsNumeral {c : Char} (h : beginsNumeral c = true) : c.toLower = c := by
  simp only [beginsNumeral, Bool.or_eq_true, decide_eq_true_eq] at h
  rcases h with (rfl | rfl) | h
  · decide
  · decide
  · have hval := (Char.isDigit_iff_toNat.mp h).2
    unfold Char.toLower
    rw [dif_neg]
    rintro ⟨hupper, -⟩
    have hupper' : 'A'.toNat ≤ c.toNat := hupper
    exact absurd (Nat.le_trans hupper' hval) (by decide)

/-- Whether the lower-case form of a word begins like a numeral. -/
def likeNumeral (lower : Fragment) : Bool := lower.head?.any beginsNumeral

theorem last_not_likeNumeral : likeNumeral (lastAlias.toList.map Char.toLower) = false := by decide

/-- No name in a row begins like a numeral. -/
theorem names_not_likeNumeral (f : Field) :
    ∀ row ∈ f.names, ∀ name ∈ lowerNames row, likeNumeral name = false := by
  cases f <;> decide

/-- No name begins like a numeral. -/
theorem not_names_of_beginsNumeral {f : Field} {c : Char} {rest : Fragment} {v : Int}
    (hc : beginsNumeral c = true) : ¬f.Names (c :: rest) v := by
  intro h
  have hlike : likeNumeral ((c :: rest).map Char.toLower) = true := by
    rw [likeNumeral, List.map_cons, toLower_of_beginsNumeral hc]
    exact hc
  rcases h with hlast | ⟨hrow, hin⟩
  · rw [sameIgnoringCase_iff.mp hlast, last_not_likeNumeral] at hlike
    exact Bool.noConfusion hlike
  · have hmem := List.mem_of_getElem? hrow
    rw [f.names_not_likeNumeral _ hmem _ (inRow_iff.mp hin)] at hlike
    exact Bool.noConfusion hlike

/-- A word that begins like a numeral is refused as a name, in every field. -/
theorem resolveAlias_of_beginsNumeral {f : Field} {c : Char} {rest : Fragment}
    (hc : beginsNumeral c = true) :
    f.resolveAlias (c :: rest) = .error (.unknownAlias f (c :: rest)) := by
  have hnone : ∀ v, f.resolveAlias (c :: rest) ≠ .ok v :=
    fun v hv => not_names_of_beginsNumeral hc (resolveAlias_eq_ok_iff.mp hv)
  unfold resolveAlias at hnone ⊢
  split
  · next hlast => exact absurd (if_pos hlast) (hnone f.hi)
  · next hlast =>
    rw [if_neg hlast] at hnone
    split
    · next row hrow => exact absurd (by rw [hrow]) (hnone (f.lo + row))
    · rfl

/-- **No name is a numeral.** -/
theorem readInteger?_of_names {f : Field} {word : Fragment} {v : Int} (h : f.Names word v) :
    readInteger? word = none := by
  rw [Option.eq_none_iff_forall_ne_some]
  intro n hn
  obtain ⟨c, rest, rfl, hc⟩ := head_of_readInteger? hn
  exact not_names_of_beginsNumeral hc h

end Field

end CronSchedule
