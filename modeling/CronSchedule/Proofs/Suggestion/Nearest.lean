import CronSchedule.Field.Alias
import CronSchedule.Proofs.Suggestion.Edits

/-!
# The nearest name, and how far it may be

The name to suggest is sought among all names, then measured: the search goes by the distance of the
lower-cased texts, in characters, while the reach is half the length of the longer text as it was
written, in bytes.

* `FirstNearest` — the first of the names that are nearest to a word.
* `characterReach` — half the number of characters of the longer of the two lower-cased texts, the
  unit of the distance.
* `KeepsCharacterReach` — whether for a word just that nearest name is suggested whose distance is
  within the reach in characters.

A text has no more characters in lower case than bytes (`length_lowerCase_le`), and as many where it
is ASCII only (`length_lowerCase_of_isAscii`). So every nearest name within the reach in characters
is suggested, and for words in other alphabets some beyond it: `L` for `é`
(`not_keepsCharacterReach_of_accent`).

Main statement: **the name that is suggested is the first of the nearest ones, if it is within the
reach in bytes; for ASCII texts this is the reach in characters** (`suggest_first_nearest`).
-/

namespace CronSchedule

/-! ### The first of the least -/

section Least

variable {α : Type} {f : α → Nat} {l : List α} {x : α}

/-- What is least among what stands behind it, and less than what stands before, is the minimum. -/
theorem minOn?_append_cons {front back : List α} (hfront : ∀ y ∈ front, f x < f y)
    (hback : ∀ y ∈ back, f x ≤ f y) : (front ++ x :: back).minOn? f = some x := by
  induction front with
  | nil =>
    rw [List.nil_append, List.minOn?_cons]
    cases hmin : back.minOn? f with
    | none => rfl
    | some y => rw [Option.elim_some, minOn, if_pos (hback y (List.minOn?_mem hmin))]
  | cons z front ih =>
    have hlater := ih fun y hy => hfront y (List.mem_cons_of_mem z hy)
    have hless : ¬f z ≤ f x := Nat.not_le.mpr (hfront z List.mem_cons_self)
    rw [List.cons_append, List.minOn?_cons, hlater, Option.elim_some, minOn, if_neg hless]

/-- **The minimum of a list is the first of its least members.** -/
theorem minOn?_eq_some_iff : l.minOn? f = some x ↔
    ∃ front back, l = front ++ x :: back ∧ (∀ y ∈ front, f x < f y) ∧ ∀ y ∈ back, f x ≤ f y := by
  constructor
  · intro h
    induction l with
    | nil => cases h
    | cons z l ih =>
      rw [List.minOn?_cons] at h
      cases hmin : l.minOn? f with
      | none =>
        have hnil : l = [] := by
          by_contra hne
          simpa [hmin] using (List.isSome_minOn?_iff (f := f)).mpr hne
        rw [hmin] at h
        cases h
        exact ⟨[], [], by simp [hnil], by simp, by simp⟩
      | some y =>
        have hleast (w : α) (hw : w ∈ l) : f y ≤ f w := by
          have hle := List.apply_get_minOn?_le_of_mem (f := f) hw
          simpa only [hmin, Option.get_some] using hle
        rw [hmin, Option.elim_some, minOn] at h
        split at h
        · next hle =>
          cases h
          exact ⟨[], l, rfl, by simp, fun w hw => hle.trans (hleast w hw)⟩
        · next hnot =>
          cases h
          obtain ⟨front, back, rfl, hfront, hback⟩ := ih hmin
          exact ⟨z :: front, back, rfl, List.forall_mem_cons.mpr ⟨Nat.not_le.mp hnot, hfront⟩, hback⟩
  · rintro ⟨front, back, rfl, hfront, hback⟩
    exact minOn?_append_cons hfront hback

end Least

/-! ### Lower case -/

/-- Only the capital i with a dot becomes several characters. -/
theorem lookup_lowerExpansions {n : Nat} (h : n ≠ 0x130) : lowerExpansions.lookup n = none := by
  rw [lowerExpansions, List.lookup_cons, beq_false_of_ne h, List.lookup_nil]

/-- It becomes two. -/
theorem length_mapCodePoint_lower (n : Nat) :
    (mapCodePoint lowerRuns lowerExpansions n).length = if n = 0x130 then 2 else 1 := by
  by_cases hdotted : n = 0x130
  · rw [hdotted]
    rfl
  · rw [if_neg hdotted, mapCodePoint, lookup_lowerExpansions hdotted]
    cases lowerRuns.find? (·.covers n) <;> rfl

/-- So does it in a text; either form of a sigma is one character. -/
theorem length_lowerForms (before : Fragment) (c : Char) (behind : Fragment) :
    (lowerForms before c behind).length = if c.toNat = 0x130 then 2 else 1 := by
  unfold lowerForms
  split
  · next hsigma =>
    rw [hsigma]
    rfl
  · simp [mapCase, length_mapCodePoint_lower]

theorem utf8ByteSize_ofList_cons (c : Char) (text : Fragment) :
    (String.ofList (c :: text)).utf8ByteSize =
      c.utf8Size + (String.ofList text).utf8ByteSize := by
  rw [String.ofList_cons, String.utf8ByteSize_append, String.utf8ByteSize_singleton]

/-- The rest of a text has no more characters in lower case than bytes, whatever stands before. -/
theorem length_lowerRest_le (before text : Fragment) :
    (lowerRest before text).length ≤ (String.ofList text).utf8ByteSize := by
  induction text generalizing before with
  | nil => simp [lowerRest]
  | cons c text ih =>
    have hcharacter : (lowerForms before c text).length ≤ c.utf8Size := by
      rw [length_lowerForms]
      split
      · next hdotted =>
        have hc : c = '\u0130' := Char.toNat_inj.mp hdotted
        rw [hc]
        decide
      · exact c.utf8Size_pos
    rw [lowerRest, List.length_append, utf8ByteSize_ofList_cons]
    exact Nat.add_le_add hcharacter (ih (c :: before))

/-- A text has no more characters in lower case than bytes. -/
theorem length_lowerCase_le (text : Fragment) :
    (lowerCase text).length ≤ (String.ofList text).utf8ByteSize :=
  length_lowerRest_le [] text

/-- The rest of a text has as many if it is ASCII only. -/
theorem length_lowerRest_of_isAscii {text : Fragment} (h : ∀ c ∈ text, c.isAscii = true)
    (before : Fragment) :
    (lowerRest before text).length = (String.ofList text).utf8ByteSize := by
  induction text generalizing before with
  | nil => simp [lowerRest]
  | cons c text ih =>
    obtain ⟨hc, htext⟩ := List.forall_mem_cons.mp h
    have hval : c.toNat < 128 := by simpa [Char.isAscii] using hc
    have hle : c.val ≤ 127 := UInt32.le_iff_toNat_le.mpr (Nat.le_of_lt_succ hval)
    have hbyte : c.utf8Size = 1 := if_pos hle
    have hplain : c.toNat ≠ 0x130 := by omega
    rw [lowerRest, List.length_append, utf8ByteSize_ofList_cons, ih htext, length_lowerForms,
      if_neg hplain, hbyte]

/-- A text that is ASCII only has as many. -/
theorem length_lowerCase_of_isAscii {text : Fragment} (h : ∀ c ∈ text, c.isAscii = true) :
    (lowerCase text).length = (String.ofList text).utf8ByteSize :=
  length_lowerRest_of_isAscii h []

/-! ### The reach -/

variable {word : Fragment} {names : List String} {name : String}

/-- Half the number of characters of the longer of a word and a name, both in lower case. -/
def characterReach (word : Fragment) (name : String) : Nat :=
  max (lowerCase word).length (lowerCase name.toList).length / 2

/-- The reach in characters is within the reach in bytes. -/
theorem characterReach_le (word : Fragment) (name : String) :
    characterReach word name ≤ suggestionReach word name := by
  have hword := length_lowerCase_le word
  have hname := length_lowerCase_le name.toList
  rw [String.ofList_toList] at hname
  unfold characterReach suggestionReach
  omega

/-- For ASCII texts both are the same. -/
theorem characterReach_of_isAscii (hword : ∀ c ∈ word, c.isAscii = true)
    (hname : ∀ c ∈ name.toList, c.isAscii = true) :
    characterReach word name = suggestionReach word name := by
  rw [characterReach, length_lowerCase_of_isAscii hword, length_lowerCase_of_isAscii hname,
    String.ofList_toList, suggestionReach]

/-! ### The name that is suggested -/

/-- The first of the names that are nearest to a word: those before it are farther off, and those
behind it are not nearer. -/
def FirstNearest (word : Fragment) (names : List String) (name : String) : Prop :=
  ∃ front back, names = front ++ name :: back ∧
    (∀ other ∈ front, nameDistance word name < nameDistance word other) ∧
    ∀ other ∈ back, nameDistance word name ≤ nameDistance word other

/-- What is suggested is the first nearest name, within the reach in bytes. -/
theorem suggest_eq_some_iff : suggest word names = some name ↔
    FirstNearest word names name ∧ nameDistance word name ≤ suggestionReach word name := by
  rw [suggest, Option.filter_eq_some_iff, minOn?_eq_some_iff, decide_eq_true_iff, FirstNearest]

/-- Of two forms of a word the one with the final sigma is the nearer. -/
example : suggest "ΑΣ".toList ["ασ", "ας"] = some "ας" := by decide +kernel

/-- Whether just that first nearest name is suggested whose distance is within the reach in
characters, the unit of the distance. -/
def KeepsCharacterReach (word : Fragment) (names : List String) : Prop :=
  ∀ name, suggest word names = some name ↔
    FirstNearest word names name ∧ nameDistance word name ≤ characterReach word name

/-- The distance from `é` to `L` is one, and both are one character long, but `é` has two bytes. -/
theorem not_keepsCharacterReach_of_accent :
    ¬KeepsCharacterReach "é".toList Field.hour.aliases := by
  intro h
  have hsuggest : suggest "é".toList Field.hour.aliases = some "L" := by decide +kernel
  have hfar : ¬nameDistance "é".toList "L" ≤ characterReach "é".toList "L" := by decide +kernel
  exact hfar ((h "L").mp hsuggest).2

/-- The reach in characters is kept if no nearest name lies between the two reaches. -/
theorem keepsCharacterReach_iff : KeepsCharacterReach word names ↔
    ∀ name, FirstNearest word names name →
      nameDistance word name ≤ suggestionReach word name →
        nameDistance word name ≤ characterReach word name := by
  unfold KeepsCharacterReach
  simp only [suggest_eq_some_iff]
  refine forall_congr' fun name => ?_
  have hwithin := characterReach_le word name
  constructor
  · intro h hfirst hreach
    exact (h.mp ⟨hfirst, hreach⟩).2
  · intro h
    refine and_congr_right fun hfirst => ?_
    exact ⟨h hfirst, fun hreach => hreach.trans hwithin⟩

/-- **The name that is suggested is the first of the nearest ones, if it is within the reach in
bytes.** The reach in characters is kept where no nearest name lies between both reaches, and so
wherever the word and the names are ASCII only. -/
theorem suggest_first_nearest (word : Fragment) (names : List String) :
    Checked.suggest word names = .ok (suggest word names) ∧
      (∀ name, suggest word names = some name ↔
        FirstNearest word names name ∧ nameDistance word name ≤ suggestionReach word name) ∧
      (suggest word names = none ↔
        ∀ name, FirstNearest word names name →
          suggestionReach word name < nameDistance word name) ∧
      (KeepsCharacterReach word names ↔
        ∀ name, FirstNearest word names name →
          nameDistance word name ≤ suggestionReach word name →
            nameDistance word name ≤ characterReach word name) ∧
      ((∀ c ∈ word, c.isAscii = true) → (∀ name ∈ names, ∀ c ∈ name.toList, c.isAscii = true) →
        KeepsCharacterReach word names) := by
  refine ⟨Checked.suggest_eq_ok word names, fun _ => suggest_eq_some_iff, ?_,
    keepsCharacterReach_iff, ?_⟩
  · simp only [Option.eq_none_iff_forall_ne_some, ne_eq, suggest_eq_some_iff, not_and, Nat.not_le]
  · intro hword hnames
    apply keepsCharacterReach_iff.mpr
    rintro name ⟨front, back, rfl, -, -⟩ hreach
    rwa [characterReach_of_isAscii hword (hnames name (by simp))]

/-- Of two spellings of a month the nearer one is suggested, one character off. -/
theorem suggest_first_nearest_of_misspelt_month :
    KeepsCharacterReach "Febuary".toList ["feb", "february"] ∧
      suggest "Febuary".toList ["feb", "february"] = some "february" := by
  have hword : ∀ c ∈ "Febuary".toList, c.isAscii = true := List.all_eq_true.mp (by decide)
  have hnames : ∀ name ∈ ["feb", "february"], ∀ c ∈ name.toList, c.isAscii = true := by
    simp [Char.isAscii]
  exact ⟨(suggest_first_nearest _ _).2.2.2.2 hword hnames, by decide +kernel⟩

end CronSchedule
