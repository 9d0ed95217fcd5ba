import CronSchedule.Proofs.Field.Literals

/-!
# Names that stand in a field

The resolver finds a name by its row, and the list of aliases is what is offered to the reader of a
message. Both describe the same names.

* **A word is resolved exactly when it is an alias of its field**, up to the case of its letters
  (`Field.exists_resolveAlias_iff`).
* **What it resolves to is in the bound**, so it passes the check of values unchanged
  (`Field.checkValue_of_names`), as a value and as the start of a stepped sequence
  (`Field.readValue_of_names`, `Field.readStart_of_names`).
* A name has letters only (`Field.isAlpha_of_names`), so that it can stand in a field as one value,
  and **alone it selects the value it names** (`Field.select_of_names`).
-/

namespace CronSchedule

/-! ### Letters -/

/-- The letters lie between A and Z and between a and z. -/
theorem isAlpha_iff_toNat {c : Char} : c.isAlpha = true ↔
    (65 ≤ c.toNat ∧ c.toNat ≤ 90) ∨ (97 ≤ c.toNat ∧ c.toNat ≤ 122) := by
  change (decide (65 ≤ c.val ∧ c.val ≤ 90) ||
    (decide (97 ≤ c.val) && decide (c.val ≤ 122))) = true ↔ _
  simp only [Bool.or_eq_true, Bool.and_eq_true, decide_eq_true_eq, UInt32.le_iff_toNat_le]
  exact Iff.rfl

/-- A letter is no blank. -/
theorem isBlank_of_isAlpha {c : Char} (h : c.isAlpha = true) : isBlank c = false := by
  have hbounds := isAlpha_iff_toNat.mp h
  unfold isBlank
  simp
  omega

/-- What is a letter in lower case is a letter. -/
theorem isAlpha_of_isAlpha_toLower {c : Char} (h : c.toLower.isAlpha = true) : c.isAlpha = true := by
  unfold Char.toLower at h
  split at h
  · next hupper =>
    apply isAlpha_iff_toNat.mpr
    exact .inl ⟨UInt32.le_iff_toNat_le.mp hupper.1, UInt32.le_iff_toNat_le.mp hupper.2⟩
  · exact h

namespace Field

variable {f : Field} {word : Fragment} {v : Int}

/-- The names in the rows of a field have letters only, and at least one. -/
theorem lowerNames_isAlpha (f : Field) : ∀ row ∈ f.names, ∀ name ∈ lowerNames row,
    name ≠ [] ∧ name.all Char.isAlpha = true := by
  cases f <;> decide

/-- A name has letters only, and at least one. -/
theorem isAlpha_of_names (h : f.Names word v) : word ≠ [] ∧ ∀ c ∈ word, c.isAlpha = true := by
  have hlower : word.map Char.toLower ≠ [] ∧ (word.map Char.toLower).all Char.isAlpha = true := by
    rcases h with hlast | ⟨hrow, hin⟩
    · rw [sameIgnoringCase_iff.mp hlast]
      decide
    · exact f.lowerNames_isAlpha _ (List.mem_of_getElem? hrow) _ (inRow_iff.mp hin)
  simp only [ne_eq, List.map_eq_nil_iff, List.all_eq_true, List.forall_mem_map] at hlower
  exact ⟨hlower.1, fun c hc => isAlpha_of_isAlpha_toLower (hlower.2 c hc)⟩

/-- So it can stand in a field as one value. -/
theorem valueWord_of_names (h : f.Names word v) : ValueWord word := by
  obtain ⟨hne, halpha⟩ := isAlpha_of_names h
  have hnone : ∀ mark ∈ ['-', ',', '/', '*', '?'], ¬mark.isAlpha = true := by
    simp [isAlpha_iff_toNat]
  apply valueWord_of_marks hne (fun c hc => isBlank_of_isAlpha (halpha c hc))
  · intro mark hmark hmem
    exact hnone mark (List.mem_cons_of_mem _ hmark) (halpha mark hmem)
  · intro hdash
    exact hnone '-' List.mem_cons_self (halpha '-' (List.mem_of_mem_tail hdash))

/-! ### Names and aliases -/

/-- The aliases of a field are `L` and both names of each row. -/
theorem mem_aliases_iff {name : String} :
    name ∈ f.aliases ↔ name = lastAlias ∨ ∃ row ∈ f.names, name = row.1 ∨ name = row.2 := by
  simp only [aliases, List.mem_cons, List.mem_flatMap]
  refine or_congr_right (exists_congr fun row => and_congr_right fun _ => ?_)
  split
  · next hsame => simp [hsame]
  · simp

/-- **A word is resolved exactly when it is an alias of its field**, up to case. -/
theorem exists_resolveAlias_iff : (∃ v, f.resolveAlias word = .ok v) ↔
    ∃ name ∈ f.aliases, sameIgnoringCase word name.toList = true := by
  simp only [resolveAlias_eq_ok_iff, mem_aliases_iff]
  constructor
  · rintro ⟨v, hlast | ⟨hrow, hin⟩⟩
    · exact ⟨lastAlias, .inl rfl, hlast⟩
    · rcases hin with hshort | hlong
      · exact ⟨_, .inr ⟨_, List.mem_of_getElem? hrow, .inl rfl⟩, hshort⟩
      · exact ⟨_, .inr ⟨_, List.mem_of_getElem? hrow, .inr rfl⟩, hlong⟩
  · rintro ⟨name, rfl | ⟨row, hmem, hname⟩, hsame⟩
    · exact ⟨f.hi, .last hsame⟩
    · obtain ⟨i, hi⟩ := List.getElem?_of_mem hmem
      refine ⟨f.lo + i, .row hi ?_⟩
      rcases hname with rfl | rfl
      · exact .inl hsame
      · exact .inr hsame

/-- An alias is resolved. -/
theorem exists_names_of_mem_aliases {name : String} (h : name ∈ f.aliases) :
    ∃ v, f.Names name.toList v := by
  obtain ⟨v, hv⟩ := exists_resolveAlias_iff.mpr ⟨name, h, sameIgnoringCase_iff.mpr rfl⟩
  exact ⟨v, resolveAlias_eq_ok_iff.mp hv⟩

/-! ### Their values -/

/-- The value of a name lies in the bound. -/
theorem bounds_of_names (h : f.Names word v) : f.lo ≤ v ∧ v ≤ f.hi :=
  resolveAlias_bounds (resolveAlias_eq_ok_iff.mpr h)

/-- **The value of a name passes the check of values unchanged.** -/
theorem checkValue_of_names (h : f.Names word v) : f.checkValue v = .ok v :=
  checkValue_of_mem (bounds_of_names h)

/-- A name is read as its value. -/
theorem readValue_of_names {text : Fragment} (h : f.Names (trim text) v) (token : Fragment) :
    f.readValue token text = .ok v :=
  readValue_eq_ok_iff.mpr ⟨.name h, bounds_of_names h⟩

/-- It is the start of a stepped sequence at its value. -/
theorem readStart_of_names {text : Fragment} (h : f.Names (trim text) v) (token : Fragment) :
    f.readStart token text = .ok v := by
  obtain ⟨hlo, hhi⟩ := bounds_of_names h
  exact readStart_eq_ok_iff.mpr ⟨v, .name h, hhi, by omega⟩

/-- **A name alone selects the value it names.** -/
theorem select_of_names (h : f.Names word v) : f.select word = .ok (.listed [v]) := by
  have hword := valueWord_of_names h
  have htrim : trim word = word := trim_of_bare hword.bare
  rw [select_of_valueWord hword, readValue_of_names (htrim.symm ▸ h) word]
  rfl

end Field

end CronSchedule
