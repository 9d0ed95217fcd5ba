import CronSchedule.Proofs.Field.Selection
import CronSchedule.Proofs.Text.Digits
import CronSchedule.Proofs.ValueSet.Listing

/-!
# A compiled field reads back

A compiled field is printed as a star or as the ascending list of its values.

* **A list of values is selected as it is** (`Field.select_listing`), where it is not empty, lies in
  the bound and has no value twice.
* **What is printed is compiled to the same set** (`Field.compile_render`), for every set that the
  text of a field compiles to; and it is a word without a bar (`Field.render_ne_nil`,
  `Field.mem_render`), so that it can stand as a field of an expression.
-/

namespace CronSchedule

/-! ### Values as tokens -/

/-- Values in the bound of a field are not negative and fit in a signed 64-bit word. -/
theorem Field.word_bounds {f : Field} {v : Int} (hv : f.lo ≤ v ∧ v ≤ f.hi) :
    0 ≤ v ∧ v ≤ 9223372036854775807 := by
  have hbounds : 0 ≤ f.lo ∧ f.hi ≤ 9223372036854775807 := by cases f <;> decide
  omega

/-- A numeral of a number that is not negative is a run of digits, so no mark stands in it. -/
theorem not_mem_numeral {v : Int} (hv : 0 ≤ v) {mark : Char} (hmark : mark.isDigit = false) :
    mark ∉ numeral v :=
  fun hmem => isDigit_ne_mark (isDigit_of_mem_numeral hv hmem) hmark rfl

/-- There are no blanks around a numeral. -/
theorem trim_numeral {v : Int} (hv : 0 ≤ v) : trim (numeral v) = numeral v := by
  apply trim_of_bare
  apply bare_of_no_blank
  intro c hc
  exact isBlank_of_isDigit (isDigit_of_mem_numeral hv hc)

namespace Field

/-- The numeral of a value in the bound of a field has that value. -/
theorem hasValue_numeral {f : Field} {v : Int} (hv : f.lo ≤ v ∧ v ≤ f.hi) :
    f.HasValue (numeral v) v := by
  have hword := word_bounds hv
  refine ⟨?_, hv⟩
  rw [trim_numeral hword.1, denotes_iff_of_readInteger? (readInteger?_numeral hword),
    if_neg (by omega), fold_of_le_hi hv.2]

/-- As a token it says that value. -/
theorem tokenSays_numeral {f : Field} {v : Int} (hv : f.lo ≤ v ∧ v ≤ f.hi) :
    f.TokenSays (numeral v) (.value v) := by
  have hnonneg := (word_bounds hv).1
  apply TokenSays.plain
  · exact not_mem_numeral hnonneg (by decide)
  · rw [trim_numeral hnonneg]
    apply RangeSays.value
    · intro hmem
      exact not_mem_numeral hnonneg (by decide) (List.mem_of_mem_tail hmem)
    · exact hasValue_numeral hv

/-! ### Lists of values -/

variable {f : Field} {values : List Int}

/-- A list of values is written as their numerals with commas between them. -/
theorem toList_listing (values : List Int) :
    (ValueSet.render.listing values).toList = [','].intercalate (values.map numeral) := by
  rw [ValueSet.render.listing, String.toList_intercalate, List.map_map]
  rfl

/-- A list of values that are not negative is made of digits and commas. -/
theorem mem_listing (hvalues : ∀ v ∈ values, 0 ≤ v) {c : Char}
    (h : c ∈ (ValueSet.render.listing values).toList) : c.isDigit = true ∨ c = ',' := by
  rw [toList_listing] at h
  obtain hcomma | ⟨token, htoken, hc⟩ := mem_of_mem_intercalate h
  · exact .inr hcomma
  · obtain ⟨v, hv, rfl⟩ := List.mem_map.mp htoken
    exact .inl (isDigit_of_mem_numeral (hvalues v hv) hc)

/-- No blank stands in a list of values. -/
theorem isBlank_of_mem_listing (hvalues : ∀ v ∈ values, 0 ≤ v) {c : Char}
    (h : c ∈ (ValueSet.render.listing values).toList) : isBlank c = false := by
  rcases mem_listing hvalues h with h | rfl
  · exact isBlank_of_isDigit h
  · decide

/-- A list of values in the bound says those values. -/
theorem says_listing (hne : values ≠ []) (hvalues : ∀ v ∈ values, f.lo ≤ v ∧ v ≤ f.hi) :
    f.Says (ValueSet.render.listing values).toList (values.map .value) := by
  have hnonneg : ∀ v ∈ values, 0 ≤ v := fun v hv => (word_bounds (hvalues v hv)).1
  have hbare : Bare (ValueSet.render.listing values).toList :=
    bare_of_no_blank fun c => isBlank_of_mem_listing hnonneg
  refine ⟨values.map numeral, ?_, ?_⟩
  · rw [trim_of_bare hbare]
    refine ⟨by simpa using hne, ?_, (toList_listing values).symm⟩
    intro token htoken
    obtain ⟨v, hv, rfl⟩ := List.mem_map.mp htoken
    exact not_mem_numeral (hnonneg v hv) (by decide)
  · rw [List.forall₂_map_left_iff, List.forall₂_map_right_iff, List.forall₂_same]
    intro v hv
    rw [trim_numeral (hnonneg v hv)]
    exact tokenSays_numeral (hvalues v hv)

end Field

/-- Where no value stands twice there is nothing to erase. -/
theorem eraseDups_of_nodup {values : List Int} (h : values.Nodup) : values.eraseDups = values := by
  induction values with
  | nil => rfl
  | cons v values ih =>
    obtain ⟨hv, hvalues⟩ := List.nodup_cons.mp h
    have hfilter : values.filter (fun w => !w == v) = values := by
      rw [List.filter_eq_self]
      intro w hw
      simp only [Bool.not_eq_true', beq_eq_false_iff_ne]
      rintro rfl
      exact hv hw
    rw [List.eraseDups_cons, hfilter, ih hvalues]

/-- Single values, none of them twice, select those values. -/
theorem Selection.ofTerms_values {f : Field} {values : List Int} (h : values.Nodup) :
    ofTerms f (values.map .value) = listed values := by
  have hwhole : Term.whole ∉ values.map Term.value := by simp
  have hvalues : (values.map Term.value).flatMap (Term.values f) = values := by
    rw [List.flatMap_map]
    exact List.flatMap_singleton' values
  rw [ofTerms, if_neg hwhole, hvalues, eraseDups_of_nodup h]

namespace Field

variable {f : Field} {values : List Int}

/-- **A list of values is selected as it is.** -/
theorem select_listing (hne : values ≠ []) (hvalues : ∀ v ∈ values, f.lo ≤ v ∧ v ≤ f.hi)
    (hnodup : values.Nodup) :
    f.select (ValueSet.render.listing values).toList = .ok (.listed values) :=
  select_eq_ok_iff.mpr ⟨_, says_listing hne hvalues, Selection.ofTerms_values hnodup⟩

/-- A star is selected as the whole field. -/
theorem select_star (f : Field) : f.select ['*'] = .ok .whole := by
  cases f <;> rfl

/-! ### Printing a compiled field -/

/-- An unrestricted field is printed as a star. -/
theorem toList_render_whole (f : Field) :
    (ValueSet.ofSelection f .whole).render.toList = ['*'] := by
  show "*".toList = ['*']
  decide

/-- A restricted field is printed as the list of its members. -/
theorem render_ofSelection (f : Field) (values : List Int) :
    (ValueSet.ofSelection f (.listed values)).render =
      ValueSet.render.listing ((ValueSet.ofSelection f (.listed values)).toList f) := by
  cases f <;> rfl

/-- The members of a field that was selected, as the list that is printed: there is one, and they
lie in the bound. -/
theorem toList_of_select {text : Fragment} (h : f.select text = .ok (.listed values)) :
    (ValueSet.ofSelection f (.listed values)).toList f ≠ [] ∧
      ∀ v ∈ (ValueSet.ofSelection f (.listed values)).toList f, f.lo ≤ v ∧ v ≤ f.hi := by
  have hbounds := bounds_of_select h
  constructor
  · obtain ⟨v, hv⟩ := List.exists_mem_of_ne_nil _ (ne_nil_of_select h)
    exact List.ne_nil_of_mem ((mem_toList_ofSelection_iff hbounds).mpr hv)
  · intro v hv
    exact hbounds v ((mem_toList_ofSelection_iff hbounds).mp hv)

/-- **What is printed of a compiled field is compiled to the same set.** -/
theorem compile_render {text : Fragment} {set : ValueSet} (h : f.compile text = .ok set) :
    f.compile set.render.toList = .ok set := by
  obtain ⟨s, hs, rfl⟩ := compile_eq_ok_iff.mp h
  rw [compile_eq_ok_iff]
  cases s with
  | whole =>
    rw [toList_render_whole]
    exact ⟨.whole, f.select_star, rfl⟩
  | listed values =>
    obtain ⟨hne, hbounds⟩ := toList_of_select hs
    have hnodup : ((ValueSet.ofSelection f (.listed values)).toList f).Nodup :=
      pairwise_toList_ofSelection.imp fun hlt => Int.ne_of_lt hlt
    rw [render_ofSelection]
    exact ⟨_, select_listing hne hbounds hnodup, ofSelection_toList (bounds_of_select hs)⟩

/-- What is printed of a compiled field is not empty. -/
theorem render_ne_nil {text : Fragment} {set : ValueSet} (h : f.compile text = .ok set) :
    set.render.toList ≠ [] := by
  intro hempty
  have hcompile := compile_render h
  rw [hempty] at hcompile
  cases f <;> exact nomatch hcompile

/-- Neither a blank nor a bar stands in what is printed of a compiled field. -/
theorem mem_render {text : Fragment} {set : ValueSet} (h : f.compile text = .ok set) {c : Char}
    (hc : c ∈ set.render.toList) : isBlank c = false ∧ c ≠ '|' := by
  obtain ⟨s, hs, rfl⟩ := compile_eq_ok_iff.mp h
  cases s with
  | whole =>
    rw [toList_render_whole, List.mem_singleton] at hc
    subst hc
    decide
  | listed values =>
    obtain ⟨-, hbounds⟩ := toList_of_select hs
    have hnonneg : ∀ v ∈ (ValueSet.ofSelection f (.listed values)).toList f, 0 ≤ v :=
      fun v hv => (word_bounds (hbounds v hv)).1
    rw [render_ofSelection] at hc
    refine ⟨isBlank_of_mem_listing hnonneg hc, ?_⟩
    rintro rfl
    rcases mem_listing hnonneg hc with hdigit | hcomma
    · exact nomatch hdigit
    · exact nomatch hcomma

end Field

end CronSchedule
