import CronSchedule.Proofs.Schedule.Replacement

/-!
# Adding to a field

* `Selection.Grows s t` — a selection that lists what another lists, or is the whole field.
* `Field.Unrestricts f word other` — one text of a field of the day lists days, and the other is the
  whole field.

A text with more tokens selects at least as much (`Field.exists_select_append`), and what selects
more is compiled to a set that admits more at every time (`ValueSet.firesAt_of_grows`), be it near
the bound of the field or not, for a set of days and its last day too.

Main statement: **adding to a field takes no instants away**, unless a list of days becomes the
whole field and both fields of the day have to admit the day from then on
(`WrittenField.fires_of_added`).
-/

namespace CronSchedule

/-! ### Selections that grow -/

/-- A selection lists what another one lists, or is the whole field. -/
inductive Selection.Grows : Selection → Selection → Prop
  | whole {s : Selection} : Grows s .whole
  | listed {values others : List Int} : values ⊆ others → Grows (.listed values) (.listed others)

/-- A union of more selections grows. -/
theorem Selection.Unites.grows {front back : List Selection} {s t : Selection}
    (hs : Unites front s) (ht : Unites (front ++ back) t) : s.Grows t := by
  cases t with
  | whole => exact .whole
  | listed others =>
    cases s with
    | whole =>
      have hwhole := hs.eq_whole_iff.mp rfl
      exact nomatch ht.eq_whole_iff.mpr (List.mem_append_left back hwhole)
    | listed values =>
      refine .listed fun v hv => ?_
      obtain ⟨u, hu, hadmits⟩ := hs.admits_iff.mp (show (Selection.listed values).Admits v from hv)
      exact ht.admits_iff.mpr ⟨u, List.mem_append_left back hu, hadmits⟩

/-- A field with more behind a comma is accepted if both texts are, and selects more. -/
theorem Field.exists_select_append {f : Field} {text added : Fragment} {s : Selection}
    (hs : f.select text = .ok s) (hadded : ∃ t, f.select added = .ok t) :
    ∃ t, f.select (text ++ ',' :: added) = .ok t ∧ s.Grows t := by
  have hpieces : Pieces ',' text (text.splitOn ',') := pieces_iff.mpr rfl
  have hmore : Pieces ',' added (added.splitOn ',') := pieces_iff.mpr rfl
  have hall : Pieces ',' (text ++ ',' :: added) (text.splitOn ',' ++ added.splitOn ',') :=
    pieces_iff.mpr (List.splitOn_append_cons_self _ _)
  obtain ⟨front, hfront, hunites⟩ := (select_eq_ok_iff_unites hpieces).mp hs
  obtain ⟨u, hu⟩ := hadded
  obtain ⟨back, hback, -⟩ := (select_eq_ok_iff_unites hmore).mp hu
  obtain ⟨t, ht⟩ := (exists_select_iff hall).mpr (List.forall_mem_append.mpr
    ⟨(exists_select_iff hpieces).mp ⟨s, hs⟩, (exists_select_iff hmore).mp ⟨u, hu⟩⟩)
  obtain ⟨selections, hselections, hunites'⟩ := (select_eq_ok_iff_unites hall).mp ht
  -- every token selects one thing, so those of the longer text select what they did
  have hunique : Relator.RightUnique fun (token : Fragment) t => f.select token = .ok t :=
    fun _ _ _ hone hother => Except.ok.inj (hone.symm.trans hother)
  have happend : selections = front ++ back :=
    List.right_unique_forall₂' hunique hselections (List.rel_append hfront hback)
  exact ⟨t, ht, hunites.grows (happend ▸ hunites')⟩

/-! ### Sets that admit more -/

/-- A list with more values makes a small set that contains more. -/
theorem DenseSet.contains_ofList_of_subset {base v : Int} {values others : List Int}
    (h : values ⊆ others) (hv : (ofList base values).contains v = true) :
    (ofList base others).contains v = true := by
  obtain ⟨hword, w, hw, hoffset⟩ := (contains_ofList base values v).mp hv
  exact (contains_ofList base others v).mpr ⟨hword, w, h hw, hoffset⟩

/-- **A selection that grows is compiled to a set that admits more**, at every time. -/
theorem ValueSet.firesAt_of_grows {f : Field} {s t : Selection} (h : s.Grows t) {time : TimeFields}
    (hs : (ofSelection f s).firesAt f time = true) : (ofSelection f t).firesAt f time = true := by
  cases h with
  | whole => exact firesAt_whole f time
  | @listed values others hsubset =>
    cases f with
    | dayOfMonth =>
      have hlast : values.contains Field.dayOfMonth.hi = true →
          others.contains Field.dayOfMonth.hi = true := by
        rw [List.contains_iff_mem, List.contains_iff_mem]
        exact fun hmem => hsubset hmem
      change (MonthDays.ofList values).containsIn time.dayOfMonth time.monthLength = true at hs
      show (MonthDays.ofList others).containsIn time.dayOfMonth time.monthLength = true
      unfold MonthDays.containsIn MonthDays.ofList at hs ⊢
      rw [Bool.or_eq_true, Bool.and_eq_true] at hs ⊢
      exact hs.imp (DenseSet.contains_ofList_of_subset hsubset) (And.imp_left hlast)
    | year =>
      exact (YearSet.contains_ofList _ _).mpr (hsubset ((YearSet.contains_ofList _ _).mp hs))
    | _ => exact DenseSet.contains_ofList_of_subset hsubset hs

/-! ### Texts with more in a field -/

/-- Of two texts of a field of the day, the one lists days and the other is the whole field. -/
def Field.Unrestricts (f : Field) (word other : Fragment) : Prop :=
  f ∈ Field.days ∧ (∃ values, f.select word = .ok (.listed values)) ∧ f.select other = .ok .whole

/-- **Adding to a field takes nothing away.** Let a word be written for a field in an accepted text,
and let another text without blanks be accepted for that field. With a comma and that text behind
the word, the text is accepted, and it fires wherever it did, at any seven numbers; under `either`
unless a field of the day that was restricted is not any more. -/
theorem WrittenField.fires_of_added {mode : DayMatch} {text : Fragment} {s : Schedule}
    (h : Schedule.parse mode text = .ok s) {f : Field} {word : Fragment}
    (place : WrittenField text f word) {added : Fragment}
    (hblank : ∀ c ∈ added, isBlank c = false) (hadded : ∃ t, f.select added = .ok t) :
    ∃ t, Schedule.parse mode (place.replace (word ++ ',' :: added)) = .ok t ∧
      (mode = .all ∨ ¬f.Unrestricts word (word ++ ',' :: added) →
        ∀ time bySecond, s.fires time bySecond = true → t.fires time bySecond = true) := by
  obtain ⟨front, back, row, hpatterns, hword, hreplace⟩ := place.parse_replace h
  obtain ⟨grown, hgrown, hgrows⟩ := Field.exists_select_append hword hadded
  have hwritten : ∀ c ∈ word ++ ',' :: added, isBlank c = false :=
    List.forall_mem_append.mpr ⟨place.not_blank, List.forall_mem_cons.mpr ⟨rfl, hblank⟩⟩
  obtain ⟨t, ht, ht_patterns⟩ := hreplace hwritten hgrown
  refine ⟨t, ht, fun hkept time bySecond => ?_⟩
  refine Schedule.fires_of_patterns hpatterns ht_patterns (Pattern.fires_of_row (f := f) ?_ ?_ ?_)
  · exact fun g hg => (PerField.get_set_of_ne hg).symm
  · rw [PerField.get_set_self]
    exact ValueSet.firesAt_of_grows hgrows
  · rintro rfl hday hlisted
    rw [PerField.get_set_self]
    rintro rfl
    obtain hall | hkept := hkept
    · exact nomatch hall
    · refine hkept ⟨hday, ?_, hgrown⟩
      cases hvalues : row.get f with
      | whole => exact absurd hvalues hlisted
      | listed values => exact ⟨values, hvalues ▸ hword⟩

/-- The thirteenth of the month in the second of two alternatives. -/
def thirteenth : WrittenField "30 9 * * 1|0 0 13 * fri".toList .dayOfMonth "13".toList where
  before := ["30 9 * * 1".toList]
  front := "0 0 ".toList
  back := " * fri".toList
  after := []
  pieces := pieces_iff.mpr (by decide +kernel)
  blank_front c hc := by
    cases hc
    rfl
  blank_back c hc := by
    cases hc
    rfl
  ne_nil := by decide
  not_blank := not_blank_of_any (by decide)
  index := by decide +kernel

/-- With the twentieth behind it nothing is lost under `either`. With a wildcard behind it, a
thirteenth that is no Friday is: the exception is needed. -/
theorem fires_of_added_to_thirteenth :
    ∃ s t, Schedule.parse .either "30 9 * * 1|0 0 13 * fri".toList = .ok s ∧
      Schedule.parse .either "30 9 * * 1|0 0 13,20 * fri".toList = .ok t ∧
      (∀ time bySecond, s.fires time bySecond = true → t.fires time bySecond = true) ∧
      Field.dayOfMonth.Unrestricts "13".toList "13,*".toList ∧
      ∃ u, Schedule.parse .either (thirteenth.replace "13,*".toList) = .ok u ∧
        s.fires ⟨0, 0, 0, 13, 2, 4, 2025⟩ true = true ∧
        u.fires ⟨0, 0, 0, 13, 2, 4, 2025⟩ true = false := by
  let monday : PerField Selection :=
    ⟨.listed [0], .listed [30], .listed [9], .whole, .whole, .listed [1], .whole⟩
  let friday (days : Selection) : PerField Selection :=
    ⟨.listed [0], .listed [0], .listed [0], days, .whole, .listed [5], .whole⟩
  have hparse : Schedule.parse .either "30 9 * * 1|0 0 13 * fri".toList =
      .ok ⟨"30 9 * * 1|0 0 13 * fri".toList,
        [.ofSelections .either monday, .ofSelections .either (friday (.listed [13]))]⟩ := by
    decide +kernel
  have hlost : Schedule.parse .either (thirteenth.replace "13,*".toList) =
      .ok ⟨"30 9 * * 1|0 0 13,* * fri".toList,
        [.ofSelections .either monday, .ofSelections .either (friday .whole)]⟩ := by
    decide +kernel
  have hblank : ∀ c ∈ "20".toList, isBlank c = false := not_blank_of_any (by decide)
  obtain ⟨t, ht, hmore⟩ :=
    thirteenth.fires_of_added hparse hblank ⟨.listed [20], by decide +kernel⟩
  have hkept : ¬Field.dayOfMonth.Unrestricts "13".toList "13,20".toList := by
    rintro ⟨-, -, hwhole⟩
    have hselect : Field.dayOfMonth.select "13,20".toList = .ok (.listed [13, 20]) := by
      decide +kernel
    exact nomatch hselect.symm.trans hwhole
  refine ⟨_, t, hparse, ht, hmore (.inr hkept), ⟨by decide, ⟨[13], by decide +kernel⟩,
    by decide +kernel⟩, _, hlost, ?_, ?_⟩
  · decide +kernel
  · decide +kernel

end CronSchedule
