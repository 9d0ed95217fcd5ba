import CronSchedule.Proofs.Field.Grammar
import CronSchedule.Proofs.Progression
import CronSchedule.Proofs.ValueSet.Membership

/-!
# What a field selects

* `Field.Lists f t values` — the values that a term lists, in order, said by counting.
* `Field.Selects f terms s` — what terms select: the whole field where one of them is a wildcard
  without a step, and otherwise the values they list, each where it is first mentioned.
* `Term.InBound f t` — a term whose numbers lie in the bound of the field and whose step is at least
  one. Every term that is read is one (`inBound_of_tokenSays`), and it lists at least one value and
  only values in the bound (`values_ne_nil`, `values_bounds`).

Main statements: **a field's text is accepted exactly when the grammar derives it, and it selects
what its terms select** (`select_eq_ok_iff_selects`); a selection that is listed has a value,
repeats none and has only values in the bound (`ne_nil_of_select`, `nodup_of_select`,
`bounds_of_select`).
-/

namespace CronSchedule

namespace Field

/-! ### What terms list and select -/

/-- The values that a term lists, in order. A wildcard without a step lists none in particular. -/
inductive Lists (f : Field) : Term → List Int → Prop
  | wholeBy {step : Nat} {values : List Int} : Counts step f.hi f.lo values →
      Lists f (.wholeBy step) values
  | value {v : Int} : Lists f (.value v) [v]
  | valueBy {start : Int} {step : Nat} {values : List Int} : Counts step f.hi start values →
      Lists f (.valueBy start step) values
  | range {start stop : Int} {step : Nat} {values : List Int} : start ≤ stop →
      Counts step stop start values → Lists f (.range start stop step) values
  | backward {start stop : Int} {step : Nat} {upper lower : List Int} : stop < start →
      Counts step f.hi start upper → Counts step stop f.lo lower →
      Lists f (.range start stop step) (upper ++ lower)
  | toSunday {start : Int} {step : Nat} {values : List Int} : Counts step 7 start values →
      Lists f (.rangeToSunday start step) (values.map (· % 7))

/-- What terms select. -/
inductive Selects (f : Field) (terms : List Term) : Selection → Prop
  /-- A wildcard without a step selects the whole field. -/
  | whole : Term.whole ∈ terms → Selects f terms .whole
  /-- Otherwise the listed values are selected, each where it is first mentioned. -/
  | listed {lists : List (List Int)} : Term.whole ∉ terms →
      List.Forall₂ f.Lists terms lists → Selects f terms (.listed lists.flatten.eraseDups)

end Field

/-! ### Terms in the bound of a field -/

namespace Term

/-- A term whose numbers lie in the bound of a field and whose step is at least one. -/
def InBound (f : Field) : Term → Prop
  | whole => True
  | wholeBy step => 1 ≤ step
  | value v => f.lo ≤ v ∧ v ≤ f.hi
  | valueBy start step => (f.lo ≤ start ∧ start ≤ f.hi) ∧ 1 ≤ step
  | range start stop step => (f.lo ≤ start ∧ start ≤ f.hi) ∧ (f.lo ≤ stop ∧ stop ≤ f.hi) ∧ 1 ≤ step
  | rangeToSunday start step => f = .dayOfWeek ∧ (0 ≤ start ∧ start ≤ 7) ∧ 1 ≤ step

/-- The numbers of a range that is read lie in the bound. -/
theorem inBound_of_rangeSays {f : Field} {step : Option Nat} {text : Fragment} {t : Term}
    (h : f.RangeSays step text t) (hstep : ∀ n, step = some n → 1 ≤ n) : t.InBound f := by
  have hgetD : 1 ≤ step.getD 1 := by
    cases step with
    | none => exact Nat.le_refl 1
    | some n => exact hstep n rfl
  cases h with
  | whole => trivial
  | wholeBy => exact hstep _ rfl
  | value _ hv => exact hv.2
  | valueBy _ hstart => exact ⟨hstart.bounds, hstep _ rfl⟩
  | range _ hstart hstop => exact ⟨hstart.2, hstop.2, hgetD⟩
  | toSunday _ hstart hsunday =>
    obtain ⟨rfl, -⟩ := hsunday
    refine ⟨rfl, ?_, hgetD⟩
    have hlo : Field.dayOfWeek.lo = 0 := rfl
    have hhi : Field.dayOfWeek.hi = 6 := rfl
    have hbounds := hstart.2
    split <;> omega

/-- The numbers of a token that is read lie in the bound, and its step is at least one. -/
theorem inBound_of_tokenSays {f : Field} {token : Fragment} {t : Term}
    (h : f.TokenSays token t) : t.InBound f := by
  cases h with
  | plain _ hsays => exact inBound_of_rangeSays hsays (fun n hn => nomatch hn)
  | stepped _ _ hstep hsays =>
    refine inBound_of_rangeSays hsays fun n hn => ?_
    cases hn
    exact hstep.2

/-- The terms of a field lie in its bound. -/
theorem inBound_of_says {f : Field} {text : Fragment} {terms : List Term}
    (h : f.Says text terms) : ∀ t ∈ terms, t.InBound f := by
  obtain ⟨tokens, -, hterms⟩ := h
  induction hterms with
  | nil => exact fun t ht => absurd ht List.not_mem_nil
  | cons htoken _ ih =>
    intro t ht
    rcases List.mem_cons.mp ht with rfl | ht
    · exact inBound_of_tokenSays htoken
    · exact ih t ht

/-- A term in the bound that is not the whole field lists the values that counting finds. -/
theorem lists_iff {f : Field} {t : Term} (ht : t.InBound f) (hwhole : t ≠ whole)
    {list : List Int} : f.Lists t list ↔ list = t.values f := by
  constructor
  · intro h
    cases h with
    | wholeBy h => exact (counts_iff ht).mp h
    | value => rfl
    | valueBy h => exact (counts_iff ht.2).mp h
    | range hle h => rw [values, if_pos hle, (counts_iff ht.2.2).mp h]
    | backward hlt hupper hlower =>
      rw [values, if_neg (by omega), (counts_iff ht.2.2).mp hupper, (counts_iff ht.2.2).mp hlower]
    | toSunday h => rw [values, (counts_iff ht.2.2).mp h]
  · rintro rfl
    cases t with
    | whole => exact absurd rfl hwhole
    | wholeBy => exact .wholeBy ((counts_iff ht).mpr rfl)
    | value => exact .value
    | valueBy => exact .valueBy ((counts_iff ht.2).mpr rfl)
    | range start stop =>
      rw [values]
      split
      · next hle => exact .range hle ((counts_iff ht.2.2).mpr rfl)
      · next hlt =>
        exact .backward (by omega) ((counts_iff ht.2.2).mpr rfl) ((counts_iff ht.2.2).mpr rfl)
    | rangeToSunday => exact .toSunday ((counts_iff ht.2.2).mpr rfl)

/-- A term in the bound lists only values in the bound. -/
theorem values_bounds {f : Field} {t : Term} (ht : t.InBound f) :
    ∀ v ∈ t.values f, f.lo ≤ v ∧ v ≤ f.hi := by
  intro v hv
  cases t with
  | whole => exact progression_bounds (Nat.le_refl 1) hv
  | wholeBy => exact progression_bounds ht hv
  | value => rwa [List.mem_singleton.mp hv]
  | valueBy =>
    have := progression_bounds ht.2 hv
    have := ht.1
    omega
  | range start stop =>
    obtain ⟨hstart, hstop, hstep⟩ := ht
    rw [values] at hv
    split at hv
    · have := progression_bounds hstep hv
      omega
    · rcases List.mem_append.mp hv with hv | hv
      · have := progression_bounds hstep hv
        omega
      · have := progression_bounds hstep hv
        omega
  | rangeToSunday =>
    obtain ⟨rfl, hstart, hstep⟩ := ht
    obtain ⟨day, -, rfl⟩ := List.mem_map.mp hv
    have hlo : Field.dayOfWeek.lo = 0 := rfl
    have hhi : Field.dayOfWeek.hi = 6 := rfl
    omega

/-- A term in the bound lists at least one value. -/
theorem values_ne_nil {f : Field} {t : Term} (ht : t.InBound f) : t.values f ≠ [] := by
  have hprogression : ∀ {start stop : Int} {step : Nat}, start ≤ stop →
      progression start step stop ≠ [] := by
    intro start stop step hle
    obtain ⟨rest, hrest⟩ : ∃ rest, progression start step stop = start :: rest :=
      progression_of_le hle
    rw [hrest]
    exact List.cons_ne_nil _ _
  cases t with
  | whole => exact hprogression f.lo_le_hi
  | wholeBy => exact hprogression f.lo_le_hi
  | value => exact List.cons_ne_nil _ _
  | valueBy => exact hprogression ht.1.2
  | range start stop =>
    rw [values]
    split
    · next hle => exact hprogression hle
    · exact List.append_ne_nil_of_left_ne_nil (hprogression ht.1.2) _
  | rangeToSunday =>
    unfold values
    simpa using hprogression ht.2.1.2

end Term

namespace Field

/-! ### Selections -/

/-- Terms in the bound, none of them the whole field, list what each of them lists. -/
theorem forall₂_lists_iff {f : Field} {terms : List Term} (hterms : ∀ t ∈ terms, t.InBound f)
    (hwhole : Term.whole ∉ terms) {lists : List (List Int)} :
    List.Forall₂ f.Lists terms lists ↔ lists = terms.map (Term.values f) := by
  induction terms generalizing lists with
  | nil => rw [List.forall₂_nil_left_iff, List.map_nil]
  | cons t terms ih =>
    have ht := hterms t List.mem_cons_self
    have ht_ne : t ≠ .whole := fun h => hwhole (h ▸ List.mem_cons_self)
    have hrest_iff : ∀ {rest : List (List Int)}, List.Forall₂ f.Lists terms rest ↔
        rest = terms.map (Term.values f) :=
      ih (fun u hu => hterms u (List.mem_cons_of_mem _ hu))
        (fun h => hwhole (List.mem_cons_of_mem _ h))
    rw [List.forall₂_cons_left_iff, List.map_cons]
    constructor
    · rintro ⟨values, rest, hvalues, hrest, rfl⟩
      rw [(Term.lists_iff ht ht_ne).mp hvalues, hrest_iff.mp hrest]
    · rintro rfl
      exact ⟨_, _, (Term.lists_iff ht ht_ne).mpr rfl, hrest_iff.mpr rfl, rfl⟩

/-- Terms in the bound select the union of what they list. -/
theorem selects_iff {f : Field} {terms : List Term} (hterms : ∀ t ∈ terms, t.InBound f)
    {s : Selection} : f.Selects terms s ↔ Selection.ofTerms f terms = s := by
  rw [Selection.ofTerms, List.flatMap_def]
  constructor
  · rintro (hwhole | ⟨hwhole, hlists⟩)
    · rw [if_pos hwhole]
    · rw [if_neg hwhole, (forall₂_lists_iff hterms hwhole).mp hlists]
  · rintro rfl
    split
    · next hwhole => exact .whole hwhole
    · next hwhole => exact .listed hwhole ((forall₂_lists_iff hterms hwhole).mpr rfl)

/-- A field's text selects the union of the terms it says. -/
theorem select_eq_ok_iff {f : Field} {text : Fragment} {s : Selection} :
    f.select text = .ok s ↔ ∃ terms, f.Says text terms ∧ Selection.ofTerms f terms = s := by
  rw [select, map_eq_ok_iff]
  exact exists_congr fun terms => and_congr_left' readTerms_eq_ok_iff

/-- A selection that is listed has a value. -/
theorem ne_nil_of_select {f : Field} {text : Fragment} {values : List Int}
    (h : f.select text = .ok (.listed values)) : values ≠ [] := by
  obtain ⟨terms, hsays, hterms⟩ := select_eq_ok_iff.mp h
  -- there is a first token, and the term it says lists a value
  obtain ⟨tokens, hpieces, htokens⟩ := id hsays
  obtain ⟨token, rest, rfl⟩ := List.exists_cons_of_ne_nil hpieces.ne_nil
  obtain ⟨t, terms, -, -, rfl⟩ := List.forall₂_cons_left_iff.mp htokens
  have ht := Term.inBound_of_says hsays t List.mem_cons_self
  obtain ⟨v, hv⟩ := List.exists_mem_of_ne_nil _ (Term.values_ne_nil ht)
  have hmem := (Selection.mem_of_ofTerms hterms v).mpr ⟨t, List.mem_cons_self, hv⟩
  exact List.ne_nil_of_mem hmem

/-- A selection that is listed repeats no value. -/
theorem nodup_of_select {f : Field} {text : Fragment} {values : List Int}
    (h : f.select text = .ok (.listed values)) : values.Nodup := by
  obtain ⟨terms, -, hterms⟩ := select_eq_ok_iff.mp h
  exact Selection.nodup_of_ofTerms hterms

/-- A selection that is listed has only values in the bound. -/
theorem bounds_of_select {f : Field} {text : Fragment} {values : List Int}
    (h : f.select text = .ok (.listed values)) : ∀ v ∈ values, f.lo ≤ v ∧ v ≤ f.hi := by
  obtain ⟨terms, hsays, hterms⟩ := select_eq_ok_iff.mp h
  intro v hv
  obtain ⟨t, ht, hvt⟩ := (Selection.mem_of_ofTerms hterms v).mp hv
  exact Term.values_bounds (Term.inBound_of_says hsays t ht) v hvt

/-- What the text of a field selects lies in the bound of the field. -/
theorem inBound_of_select {f : Field} {text : Fragment} {s : Selection}
    (h : f.select text = .ok s) : s.InBound f := by
  cases s with
  | whole => trivial
  | listed values => exact bounds_of_select h

/-- **The grammar of a field, its acceptance and its meaning.** A text is accepted exactly when the
grammar derives terms from it, and it selects what those terms select: the whole field exactly when
one of them is a wildcard without a step, and otherwise the values they count, each where it is
first mentioned. -/
theorem select_eq_ok_iff_selects (f : Field) (text : Fragment) :
    ((∃ s, f.select text = .ok s) ↔ ∃ terms, f.Says text terms) ∧
      ∀ s, f.select text = .ok s ↔ ∃ terms, f.Says text terms ∧ f.Selects terms s := by
  constructor
  · constructor
    · rintro ⟨s, hs⟩
      obtain ⟨terms, hsays, -⟩ := select_eq_ok_iff.mp hs
      exact ⟨terms, hsays⟩
    · rintro ⟨terms, hsays⟩
      exact ⟨_, select_eq_ok_iff.mpr ⟨terms, hsays, rfl⟩⟩
  · intro s
    rw [select_eq_ok_iff]
    constructor
    · rintro ⟨terms, hsays, hterms⟩
      exact ⟨terms, hsays, (selects_iff (Term.inBound_of_says hsays)).mpr hterms⟩
    · rintro ⟨terms, hsays, hterms⟩
      exact ⟨terms, hsays, (selects_iff (Term.inBound_of_says hsays)).mp hterms⟩

end Field

end CronSchedule
