import CronSchedule.Proofs.Schedule.Alternatives
import CronSchedule.Proofs.Schedule.Canonical
import CronSchedule.Proofs.Validation.Agreement
import CronSchedule.Proofs.Validation.Warnings

/-!
# One text under both modes

What the two ways to combine the day fields have in common, and where they part.

* `Pattern.withDayMatch`, `Schedule.withDayMatch` — the same sets under another mode.

The mode has no part in parsing: a text is parsed or refused under every mode alike, to the same
sets (`Pattern.parse_withDayMatch`, then `Schedule.parse_withDayMatch` over all alternatives). It
counts only for the day, and only where both day fields are restricted: there one of them is enough
under `either` (`Pattern.dayFires_either_of_all`), and everywhere else the modes agree
(`Pattern.dayFires_withDayMatch_eq`).

Main statement: **`either` extends `all`, and where validation under `all` has no advice on the day
fields the two are the same** (`Schedule.either_extends_all`).
-/

namespace CronSchedule

/-- A pattern with the same sets under a mode. -/
def Pattern.withDayMatch (mode : DayMatch) (p : Pattern) : Pattern := { p with dayMatch := mode }

/-- A schedule with the same sets under a mode. -/
def Schedule.withDayMatch (mode : DayMatch) (s : Schedule) : Schedule :=
  { s with patterns := s.patterns.map (Pattern.withDayMatch mode) }

/-! ### Parsing under another mode -/

section

variable (mode other : DayMatch)

/-- An alternative is parsed under another mode to the same sets, or refused for the same cause. -/
theorem Pattern.parse_withDayMatch (alternative : Fragment) :
    Pattern.parse other alternative = withDayMatch other <$> Pattern.parse mode alternative := by
  unfold Pattern.parse
  simp only [map_bind, map_pure]
  rfl

namespace Schedule

/-- So is the alternative at an index. -/
theorem parseAlternative_withDayMatch (expression alternative : Fragment) (index : Nat) :
    parseAlternative other expression alternative index =
      Pattern.withDayMatch other <$> parseAlternative mode expression alternative index := by
  unfold parseAlternative
  split
  · rfl
  · exact Pattern.parse_withDayMatch mode other alternative

/-- So are alternatives, one after the other. -/
theorem parseAlternatives_withDayMatch (expression : Fragment) (index : Nat)
    (rest : List Fragment) :
    parseAlternatives other expression index rest =
      List.map (Pattern.withDayMatch other) <$> parseAlternatives mode expression index rest := by
  induction rest generalizing index with
  | nil => rfl
  | cons alternative rest ih =>
    rw [parseAlternatives, parseAlternatives, parseAlternative_withDayMatch mode other, ih]
    simp only [map_bind, bind_map_left, map_pure, List.map_cons]

/-- **The mode has no part in parsing**: under another mode the same texts are parsed, to the same
sets, and the others are refused for the same causes. -/
theorem parse_withDayMatch (text : Fragment) :
    parse other text = withDayMatch other <$> parse mode text := by
  by_cases hblank : trim text = []
  · rw [parse_of_trim_eq_nil hblank, parse_of_trim_eq_nil hblank]
    rfl
  · rw [parse_of_trim_ne_nil hblank, parse_of_trim_ne_nil hblank,
      parseAlternatives_withDayMatch mode other, Functor.map_map, Functor.map_map]
    rfl

end Schedule

end

/-! ### Firing under another mode -/

namespace Pattern

variable {p : Pattern} {time : TimeFields}

/-- Both day fields together are always enough. -/
theorem dayFires_of_both (hday : p.monthDayFires time = true)
    (hweekday : p.weekdayFires time = true) : p.dayFires time = true := by
  unfold dayFires
  simp [hday, hweekday]

/-- Under `all`, both day fields must admit the day. -/
theorem dayFires_all_iff : (p.withDayMatch .all).dayFires time = true ↔
    p.monthDayFires time = true ∧ p.weekdayFires time = true := by
  rw [dayFires, if_neg (by simp [withDayMatch]), Bool.and_eq_true]
  rfl

/-- What is enough under `all` is enough under `either`. -/
theorem dayFires_either_of_all (h : (p.withDayMatch .all).dayFires time = true) :
    (p.withDayMatch .either).dayFires time = true := by
  obtain ⟨hday, hweekday⟩ := dayFires_all_iff.mp h
  exact dayFires_of_both hday hweekday

/-- Where not both day fields are restricted, the modes agree. -/
theorem dayFires_withDayMatch_eq (h : p.bothDaysRestricted = false) (mode other : DayMatch) :
    (p.withDayMatch mode).dayFires time = (p.withDayMatch other).dayFires time := by
  have hboth (m : DayMatch) : (p.withDayMatch m).dayFires time =
      (p.monthDayFires time && p.weekdayFires time) := by
    have hnot : ¬((p.withDayMatch m).dayMatch = .either ∧
        (p.withDayMatch m).bothDaysRestricted = true) := by
      rintro ⟨-, hrestricted⟩
      have : p.bothDaysRestricted = true := hrestricted
      rw [h] at this
      exact nomatch this
    rw [dayFires, if_neg hnot]
    rfl
  rw [hboth mode, hboth other]

/-- The mode counts for the day alone. -/
theorem fires_withDayMatch (mode : DayMatch) (bySecond : Bool) :
    (p.withDayMatch mode).fires time bySecond =
      ((!bySecond || p.sets.second.contains time.second) && p.sets.minute.contains time.minute &&
        p.sets.hour.contains time.hour && p.sets.month.contains time.month &&
        p.sets.year.contains time.year && (p.withDayMatch mode).dayFires time) := rfl

/-- A pattern that fires under `all` fires under `either`. -/
theorem fires_either_of_all {bySecond : Bool}
    (h : (p.withDayMatch .all).fires time bySecond = true) :
    (p.withDayMatch .either).fires time bySecond = true := by
  rw [fires_withDayMatch, Bool.and_eq_true] at h ⊢
  exact ⟨h.1, dayFires_either_of_all h.2⟩

/-- Where not both day fields are restricted, a pattern fires under both modes or none. -/
theorem fires_withDayMatch_eq (h : p.bothDaysRestricted = false) (mode other : DayMatch)
    (bySecond : Bool) :
    (p.withDayMatch mode).fires time bySecond = (p.withDayMatch other).fires time bySecond := by
  rw [fires_withDayMatch, fires_withDayMatch, dayFires_withDayMatch_eq h mode other]

end Pattern

/-! ### Schedules -/

namespace Schedule

variable {s : Schedule} {time : TimeFields} {bySecond : Bool}

/-- A schedule that fires under `all` fires under `either`. -/
theorem fires_either_of_all (h : (s.withDayMatch .all).fires time bySecond = true) :
    (s.withDayMatch .either).fires time bySecond = true := by
  unfold fires withDayMatch at h ⊢
  rw [List.any_map, List.any_eq_true] at h ⊢
  obtain ⟨p, hp, hfires⟩ := h
  exact ⟨p, hp, Pattern.fires_either_of_all hfires⟩

/-- A schedule none of whose patterns restricts both day fields fires under both modes or none. -/
theorem fires_withDayMatch_eq (h : ∀ p ∈ s.patterns, p.bothDaysRestricted = false)
    (mode other : DayMatch) :
    (s.withDayMatch mode).fires time bySecond = (s.withDayMatch other).fires time bySecond := by
  unfold fires withDayMatch
  rw [List.any_map, List.any_map, Bool.eq_iff_iff, List.any_eq_true, List.any_eq_true]
  refine exists_congr fun p => and_congr_right fun hp => ?_
  show (p.withDayMatch mode).fires time bySecond = true ↔
    (p.withDayMatch other).fires time bySecond = true
  rw [Pattern.fires_withDayMatch_eq (h p hp) mode other]

/-- A schedule has the mode under which it was parsed. -/
theorem withDayMatch_of_parse {mode : DayMatch} {text : Fragment} (h : parse mode text = .ok s) :
    s.withDayMatch mode = s := by
  have hself := parse_withDayMatch mode mode text
  rw [h] at hself
  exact (Except.ok.inj hself).symm

/-- Every pattern of a schedule is parsed from an alternative that stands at some index. -/
theorem exists_alternative_of_mem_patterns {mode : DayMatch} {text : Fragment}
    (h : parse mode text = .ok s) {p : Pattern} (hp : p ∈ s.patterns) :
    ∃ (i : Nat) (alternative : Fragment), (alternatives (trim text))[i]? = some alternative ∧
      Pattern.parse mode alternative = .ok p := by
  obtain ⟨alternative, hmem, q, hq, rfl⟩ :=
    (exists_mem_iff_of_forall₂ (P := (· = p)) (forall₂_of_parse h)).mp ⟨p, hp, rfl⟩
  rw [← alternatives_trim] at hmem
  obtain ⟨i, hi⟩ := List.getElem?_of_mem hmem
  exact ⟨i, alternative, hi, hq⟩

/-- Without the advice on the day fields, no pattern that is parsed under `all` restricts both. -/
theorem bothDaysRestricted_of_no_advice {text : Fragment} (h : parse .all text = .ok s)
    (hsilent : ∀ w ∈ (validate .all text).warnings, ∀ i : Nat,
      w.place.path ≠ s!"alternatives[{i}]") :
    ∀ p ∈ s.patterns, p.bothDaysRestricted = false := by
  intro p hp
  obtain ⟨i, alternative, hi, hparse⟩ := exists_alternative_of_mem_patterns h hp
  by_contra hrestricted
  rw [Bool.not_eq_false] at hrestricted
  have hmode : p.dayMatch = .all := (Pattern.compile_of_parse hparse).1
  have hwarning : ⟨.alternative i, .bothDaysRestricted⟩ ∈ (validate .all text).warnings :=
    mem_warnings_validate_iff.mpr ⟨i, alternative, hi, p, hparse,
      Pattern.mem_warnings_iff.mpr (.inl ⟨rfl, hrestricted, hmode⟩)⟩
  exact hsilent _ hwarning i rfl

/-- **`either` extends `all`.** A text is parsed under both modes or under none, to the same sets in
every slot or with the same refusal, and what the schedule under `all` admits, the one under
`either` does too. A valid text without the advice on the day fields of one of its alternatives has
two schedules that admit the same. -/
theorem either_extends_all (text : Fragment) :
    ((∃ s, parse .all text = .ok s) ↔ ∃ t, parse .either text = .ok t) ∧
    (∀ e, parse .all text = .error e ↔ parse .either text = .error e) ∧
    (∀ s t, parse .all text = .ok s → parse .either text = .ok t →
      List.Forall₂ (fun p q : Pattern => (∀ f, p.sets.get f = q.sets.get f) ∧
        p.dayMatch = .all ∧ q.dayMatch = .either) s.patterns t.patterns ∧
      ∀ time bySecond, s.fires time bySecond = true → t.fires time bySecond = true) ∧
    ((validate .all text).valid = true →
      (∀ w ∈ (validate .all text).warnings, ∀ i : Nat, w.place.path ≠ s!"alternatives[{i}]") →
      ∃ s t, parse .all text = .ok s ∧ parse .either text = .ok t ∧
        ∀ time bySecond, s.fires time bySecond = t.fires time bySecond) := by
  have hok (t : Schedule) : parse .either text = .ok t ↔
      ∃ s, parse .all text = .ok s ∧ s.withDayMatch .either = t := by
    rw [parse_withDayMatch .all .either, map_eq_ok_iff]
  refine ⟨?_, ?_, ?_, ?_⟩
  · constructor
    · rintro ⟨s, hs⟩
      exact ⟨_, (hok _).mpr ⟨s, hs, rfl⟩⟩
    · rintro ⟨t, ht⟩
      obtain ⟨s, hs, -⟩ := (hok t).mp ht
      exact ⟨s, hs⟩
  · intro e
    rw [parse_withDayMatch .all .either, map_eq_error_iff]
  · intro s t hs ht
    obtain ⟨s', hs', rfl⟩ := (hok t).mp ht
    cases hs.symm.trans hs'
    constructor
    · apply List.forall₂_map_right_iff.mpr
      rw [List.forall₂_same]
      intro p hp
      obtain ⟨piece, hpiece⟩ := parse_of_mem_patterns hs hp
      exact ⟨fun f => rfl, (Pattern.compile_of_parse hpiece).1, rfl⟩
    · intro time bySecond hfires
      rw [← withDayMatch_of_parse hs] at hfires
      exact fires_either_of_all hfires
  · intro hvalid hsilent
    obtain ⟨s, hs⟩ := exists_parse_of_valid hvalid
    refine ⟨s, _, hs, (hok _).mpr ⟨s, hs, rfl⟩, fun time bySecond => ?_⟩
    conv_lhs => rw [← withDayMatch_of_parse hs]
    exact fires_withDayMatch_eq (bothDaysRestricted_of_no_advice hs hsilent) .all .either

/-- A thirteenth that is no Friday is admitted under `either` alone. Beside a day of the week that
is not restricted, be it by a list with a wildcard, there is nothing to tell the modes apart, even
where a day that never occurs is advised against. -/
theorem either_extends_all_on_thirteenth :
    (∃ s t, parse .all "0 0 13 * fri".toList = .ok s ∧ parse .either "0 0 13 * fri".toList = .ok t ∧
      (∀ time bySecond, s.fires time bySecond = true → t.fires time bySecond = true) ∧
      s.fires ⟨0, 0, 0, 13, 5, 2, 2025⟩ true = false ∧
      t.fires ⟨0, 0, 0, 13, 5, 2, 2025⟩ true = true) ∧
    (validate .all "0 0 13 * 1,* | 0 0 30 2 ?".toList).valid = true ∧
    (∀ w ∈ (validate .all "0 0 13 * 1,* | 0 0 30 2 ?".toList).warnings, ∀ i : Nat,
      w.place.path ≠ s!"alternatives[{i}]") ∧
    ∃ s t, parse .all "0 0 13 * 1,* | 0 0 30 2 ?".toList = .ok s ∧
      parse .either "0 0 13 * 1,* | 0 0 30 2 ?".toList = .ok t ∧
      ∀ time bySecond, s.fires time bySecond = t.fires time bySecond := by
  have hwarnings : (validate .all "0 0 13 * 1,* | 0 0 30 2 ?".toList).warnings =
      [⟨.field 1 .dayOfMonth, .dayNeverOccurs⟩] := by
    decide +kernel
  have hvalid : (validate .all "0 0 13 * 1,* | 0 0 30 2 ?".toList).valid = true := by
    decide +kernel
  have hsilent : ∀ w ∈ (validate .all "0 0 13 * 1,* | 0 0 30 2 ?".toList).warnings, ∀ i : Nat,
      w.place.path ≠ s!"alternatives[{i}]" := by
    intro w hw i hpath
    rw [hwarnings, List.mem_singleton] at hw
    have hplace : w.place = .alternative i := Place.path_injective hpath
    rw [hw] at hplace
    exact nomatch hplace
  refine ⟨?_, hvalid, hsilent, (either_extends_all _).2.2.2 hvalid hsilent⟩
  let row : PerField Selection :=
    ⟨.listed [0], .listed [0], .listed [0], .listed [13], .whole, .listed [5], .whole⟩
  have hall : parse .all "0 0 13 * fri".toList =
      .ok ⟨"0 0 13 * fri".toList, [.ofSelections .all row]⟩ := by
    decide +kernel
  have heither : parse .either "0 0 13 * fri".toList =
      .ok ⟨"0 0 13 * fri".toList, [.ofSelections .either row]⟩ := by
    decide +kernel
  obtain ⟨-, hmore⟩ := (either_extends_all _).2.2.1 _ _ hall heither
  refine ⟨_, _, hall, heither, hmore, ?_, ?_⟩
  · decide +kernel
  · decide +kernel

end Schedule

end CronSchedule
