import CronSchedule.Proofs.Field.Shorthands
import CronSchedule.Proofs.Schedule.Alternatives
import CronSchedule.Proofs.Schedule.Firing

/-!
# One field of a text written anew

* `WrittenField text f word` — a place in a text at which a word is written for a field: the
  alternative that it stands in, and what stands around it there.
* `WrittenField.replace` — the text with another word at that place.
* `PerField.set` — a row with another member for one field.
* `ValueSet.firesAt` — whether a set admits the number that a time has for its field.

Every word of an alternative is written for a field (`exists_writtenField`). An accepted field has
no bar in it (`Field.bar_not_mem_of_select`) and takes the place of one word, so the text is cut as
before, and the words of the alternative change at one index (`WrittenField.toList_set`).

Main statements: **a field that is written anew is all that changes**: one pattern of the schedule
becomes that of its row with the new selection (`WrittenField.parse_replace`); and a pattern whose
sets admit more fires where it did, as long as one of two days that was enough still is
(`Pattern.fires_mono`).
-/

namespace CronSchedule

/-! ### Rows -/

/-- A row with another member for one field. -/
def PerField.set {α : Type} (row : PerField α) (f : Field) (a : α) : PerField α :=
  .ofFn fun g => if g = f then a else row.get g

section

variable {α : Type} {row : PerField α} {f g : Field} {a : α}

@[simp] theorem PerField.get_set_self : (row.set f a).get f = a := by
  rw [set, get_ofFn, if_pos rfl]

theorem PerField.get_set_of_ne (h : g ≠ f) : (row.set f a).get g = row.get g := by
  rw [set, get_ofFn, if_neg h]

/-- The members of such a row change at the index of the field. -/
theorem PerField.toList_set : (row.set f a).toList = row.toList.set f.index a := by
  cases f <;> rfl

end

/-! ### Words at an index -/

/-- The first seven numbers are the indices of the fields. -/
theorem Field.exists_index : ∀ {i : Nat}, i < 7 → ∃ f : Field, f.index = i
  | 0, _ => ⟨.second, rfl⟩
  | 1, _ => ⟨.minute, rfl⟩
  | 2, _ => ⟨.hour, rfl⟩
  | 3, _ => ⟨.dayOfMonth, rfl⟩
  | 4, _ => ⟨.month, rfl⟩
  | 5, _ => ⟨.dayOfWeek, rfl⟩
  | 6, _ => ⟨.year, rfl⟩

/-- How many fields are left out in front of a number of words: of five, the second. -/
def leftOut (count : Nat) : Nat := if count = 5 then 1 else 0

/-- A word at an index stands behind the defaults that are written out in front. -/
theorem paddedWords_set {ws : List Fragment} {i : Nat} (h : i < ws.length) (word : Fragment) :
    paddedWords (ws.set i word) = (paddedWords ws).set (leftOut ws.length + i) word := by
  unfold paddedWords leftOut
  rw [List.length_set]
  split
  · rw [List.append_assoc, List.append_assoc, List.set_append_right _ _ (Nat.le_add_right 1 i),
      List.length_singleton, Nat.add_sub_cancel_left, List.set_append_left _ _ h]
  · rw [Nat.zero_add]
    split
    · rw [List.set_append_left _ _ h]
    · rfl

/-! ### A field has no bar -/

namespace Field

variable {f : Field} {text word : Fragment}

/-- No bar stands in a word that denotes a number. -/
theorem Denotes.bar_not_mem {v : Int} (h : f.Denotes word v) : '|' ∉ word := by
  intro hbar
  have hliteral {raw : Int} (hraw : readInteger? word = some raw) : False :=
    absurd (beginsNumeral_of_mem hraw hbar) (by decide)
  cases h with
  | literal hraw => exact hliteral hraw
  | fromLast hraw => exact hliteral hraw
  | name hname => exact absurd ((isAlpha_of_names hname).2 _ hbar) (by decide)

/-- None stands in a text that denotes one without the blanks around it. -/
theorem bar_not_mem_of_denotes {v : Int} (h : f.Denotes (trim text) v) : '|' ∉ text :=
  fun hbar => h.bar_not_mem (mem_trim_of_mem rfl hbar)

/-- None stands in a range. -/
theorem RangeSays.bar_not_mem {step : Option Nat} {t : Term} (h : f.RangeSays step text t) :
    '|' ∉ text := by
  have hwildcard (hwild : IsWildcard text) : '|' ∉ text := by
    rcases hwild with rfl | rfl
    · decide
    · decide
  have hdash {left right : Fragment} (hleft : '|' ∉ left) (hright : '|' ∉ right) :
      '|' ∉ left ++ '-' :: right := by
    simp [hleft, hright]
  cases h with
  | whole hwild => exact hwildcard hwild
  | wholeBy hwild => exact hwildcard hwild
  | value _ hv => exact bar_not_mem_of_denotes hv.1
  | valueBy _ hstart =>
    obtain ⟨v, hv, -⟩ := hstart
    exact bar_not_mem_of_denotes hv
  | range _ hleft hright =>
    exact hdash (bar_not_mem_of_denotes hleft.1) (bar_not_mem_of_denotes hright.1)
  | toSunday _ hleft hsunday =>
    refine hdash (bar_not_mem_of_denotes hleft.1) fun hbar => ?_
    have htrim := mem_trim_of_mem rfl hbar
    rw [hsunday.2] at htrim
    exact absurd htrim (by decide)

/-- None stands in a token. -/
theorem TokenSays.bar_not_mem {t : Term} (h : f.TokenSays word t) : '|' ∉ word := by
  have hrange {range : Fragment} {step : Option Nat} (hterm : f.RangeSays step (trim range) t) :
      '|' ∉ range :=
    fun hbar => hterm.bar_not_mem (mem_trim_of_mem rfl hbar)
  cases h with
  | plain _ hterm => exact hrange hterm
  | stepped _ _ hstep hterm =>
    have hbehind := hstep.not_mem (show isBlank '|' = false from rfl) (by decide)
    simp [hrange hterm, hbehind]

/-- **No bar stands in an accepted field.** -/
theorem bar_not_mem_of_select {s : Selection} (h : f.select text = .ok s) : '|' ∉ text := by
  have hpieces : Pieces ',' text (text.splitOn ',') := pieces_iff.mpr rfl
  intro hbar
  rw [← hpieces.join] at hbar
  rcases mem_of_mem_intercalate hbar with hcomma | ⟨token, htoken, hbar⟩
  · exact absurd hcomma (by decide)
  · have haccepted := (exists_select_iff hpieces).mp ⟨s, h⟩ token htoken
    obtain ⟨t, ht⟩ :=
      (exists_select_token_iff (hpieces.sep_not_mem token htoken) text).mp haccepted
    exact (readToken_eq_ok_iff.mp ht).bar_not_mem (mem_trim_of_mem rfl hbar)

end Field

/-! ### A written field -/

/-- A text is looked through for blanks. -/
theorem not_blank_of_any {text : Fragment} (h : text.any isBlank = false) :
    ∀ c ∈ text, isBlank c = false :=
  fun c hc => Bool.eq_false_iff.mpr (List.any_eq_false.mp h c hc)

/-- A word that is written in a text for a field: the text is cut at its bars, and the word stands
in one of its alternatives, with a blank or an end of the alternative on either side. -/
structure WrittenField (text : Fragment) (f : Field) (word : Fragment) where
  /-- The alternatives in front. -/
  before : List Fragment
  /-- What stands in front of the word in its alternative. -/
  front : Fragment
  /-- What stands behind it. -/
  back : Fragment
  /-- The alternatives behind. -/
  after : List Fragment
  pieces : Pieces '|' text (before ++ (front ++ word ++ back) :: after)
  blank_front : ∀ c, front.getLast? = some c → isBlank c = true
  blank_back : ∀ c, back.head? = some c → isBlank c = true
  ne_nil : word ≠ []
  not_blank : ∀ c ∈ word, isBlank c = false
  /-- The words in front are the fields in front that are written. -/
  index : f.index = leftOut ((words front).length + 1 + (words back).length) + (words front).length

/-- **Every word of an alternative is written for a field**, where the alternative has five, six or
seven words. -/
theorem exists_writtenField {text piece : Fragment} {before after : List Fragment}
    (hpieces : Pieces '|' text (before ++ piece :: after)) {ws us : List Fragment} {word : Fragment}
    (hwords : words piece = ws ++ word :: us) (hlength : (words piece).length ∈ [5, 6, 7]) :
    ∃ (f : Field) (place : WrittenField text f word), place.before = before ∧
      words place.front = ws := by
  have hmem : word ∈ words piece := hwords ▸ List.mem_append_right _ List.mem_cons_self
  rw [hwords, List.length_append, List.length_cons] at hlength
  simp only [List.mem_cons, List.not_mem_nil, or_false] at hlength
  obtain ⟨f, hf⟩ : ∃ f : Field, f.index = leftOut (ws.length + 1 + us.length) + ws.length := by
    apply Field.exists_index
    unfold leftOut
    split
    · omega
    · omega
  obtain ⟨front, back, rfl, hfront, hback, rfl, rfl⟩ := exists_eq_of_words_eq_append hwords
  exact ⟨f, ⟨before, front, back, after, hpieces, hfront, hback, ne_nil_of_mem_words hmem,
    fun c hc => (of_mem_words hmem hc).2, hf⟩, rfl, rfl⟩

namespace WrittenField

variable {text word : Fragment} {f : Field}

/-- The text with another word for the field. -/
def replace (place : WrittenField text f word) (other : Fragment) : Fragment :=
  ['|'].intercalate (place.before ++ (place.front ++ other ++ place.back) :: place.after)

variable (place : WrittenField text f word)

/-- The words of the alternative are those in front, the word, and those behind. -/
theorem words_eq {other : Fragment} (hne : other ≠ []) (hblank : ∀ c ∈ other, isBlank c = false) :
    words (place.front ++ other ++ place.back) =
      words place.front ++ other :: words place.back := by
  rw [words_append_of_head place.blank_back, words_append_of_getLast place.blank_front,
    words_of_no_blank hne hblank, List.append_assoc, List.singleton_append]

/-- Another word in its place changes the member of its field only. -/
theorem toList_set {row : PerField Fragment}
    (hrow : row.toList = paddedWords (words (place.front ++ word ++ place.back))) {other : Fragment}
    (hne : other ≠ []) (hblank : ∀ c ∈ other, isBlank c = false) :
    (row.set f other).toList = paddedWords (words (place.front ++ other ++ place.back)) := by
  rw [place.words_eq place.ne_nil place.not_blank] at hrow
  have hwords : words place.front ++ other :: words place.back =
      (words place.front ++ word :: words place.back).set (words place.front).length other := by
    rw [List.set_append_right _ _ le_rfl, Nat.sub_self, List.set_cons_zero]
  have hlength : (words place.front ++ word :: words place.back).length =
      (words place.front).length + 1 + (words place.back).length := by
    rw [List.length_append, List.length_cons, Nat.add_assoc, Nat.add_comm 1]
  rw [place.words_eq hne hblank, hwords, paddedWords_set (by omega), PerField.toList_set, hrow,
    place.index, hlength]

/-- The word is the member of its field. -/
theorem get_eq {row : PerField Fragment}
    (hrow : row.toList = paddedWords (words (place.front ++ word ++ place.back))) :
    row.get f = word := by
  have hself : row.set f word = row :=
    PerField.toList_injective ((place.toList_set hrow place.ne_nil place.not_blank).trans hrow.symm)
  rw [← hself, PerField.get_set_self]

/-- With a word that has no bar in it, the text is cut at the same bars. -/
theorem pieces_replace {other : Fragment} (hbar : '|' ∉ other) :
    Pieces '|' (place.replace other)
      (place.before ++ (place.front ++ other ++ place.back) :: place.after) := by
  have hpiece := place.pieces.sep_not_mem (place.front ++ word ++ place.back) (by simp)
  refine place.pieces.replace ?_
  simp only [List.mem_append, not_or] at hpiece ⊢
  exact ⟨⟨hpiece.1.1, hbar⟩, hpiece.2⟩

/-- **A field that is written anew is all that changes.** In an accepted text the word of a field is
accepted. Another word without blanks that is accepted gives an accepted text, and of the patterns
only that of the alternative changes, to the one of its row with the new selection. -/
theorem parse_replace {mode : DayMatch} {s : Schedule} (h : Schedule.parse mode text = .ok s) :
    ∃ (front back : List Pattern) (row : PerField Selection),
      s.patterns = front ++ .ofSelections mode row :: back ∧ f.select word = .ok (row.get f) ∧
      ∀ {other : Fragment} {selection : Selection}, (∀ c ∈ other, isBlank c = false) →
        f.select other = .ok selection →
          ∃ t, Schedule.parse mode (place.replace other) = .ok t ∧
            t.patterns = front ++ .ofSelections mode (row.set f selection) :: back := by
  have hall := Schedule.forall₂_of_parse h
  rw [alternatives_eq_of_pieces place.pieces, List.forall₂_map_left_iff] at hall
  simp only [Pattern.parse_trim_eq_ok_iff] at hall
  obtain ⟨front, p, back, hpatterns, hfront, hp, hback⟩ := forall₂_append_cons_iff.mp hall
  obtain ⟨fields, row, hfields, hselect, rfl⟩ := Pattern.parse_eq_ok_iff.mp hp
  refine ⟨front, back, row, hpatterns, place.get_eq hfields ▸ hselect f, ?_⟩
  intro other selection hblank hother
  have hne : other ≠ [] := by
    rintro rfl
    exact nomatch hother
  have hreplaced : Pattern.parse mode (place.front ++ other ++ place.back) =
      .ok (.ofSelections mode (row.set f selection)) := by
    refine Pattern.parse_eq_ok_iff.mpr
      ⟨fields.set f other, _, place.toList_set hfields hne hblank, fun g => ?_, rfl⟩
    by_cases hg : g = f
    · subst hg
      rw [PerField.get_set_self, PerField.get_set_self, hother]
    · rw [PerField.get_set_of_ne hg, PerField.get_set_of_ne hg, hselect g]
  apply Schedule.exists_parse_of_forall₂
  rw [alternatives_eq_of_pieces (place.pieces_replace (Field.bar_not_mem_of_select hother)),
    List.forall₂_map_left_iff]
  simp only [Pattern.parse_trim_eq_ok_iff]
  exact forall₂_append_cons_iff.mpr ⟨front, _, back, rfl, hfront, hreplaced, hback⟩

end WrittenField

/-! ### Firing with another field -/

/-- Whether a set admits the number that a time has for a field; a day of the month is looked at in
its month. -/
def ValueSet.firesAt (set : ValueSet) (f : Field) (time : TimeFields) : Bool :=
  if f = .dayOfMonth then set.containsDay time.dayOfMonth time.monthLength
  else set.contains (time.get f)

/-- The whole field is admitted at every time. -/
theorem ValueSet.firesAt_whole (f : Field) (time : TimeFields) :
    (ofSelection f .whole).firesAt f time = true := by
  unfold firesAt
  split
  · rfl
  · rfl

/-- The two fields of the day. -/
def Field.days : List Field := [.dayOfMonth, .dayOfWeek]

namespace Pattern

variable {time : TimeFields} {bySecond : Bool}

/-- A pattern each of whose sets admits what the set of another does fires where that one does,
unless one day was enough there and is not here. -/
theorem fires_mono {p q : Pattern}
    (hsets : ∀ f, (p.sets.get f).firesAt f time = true → (q.sets.get f).firesAt f time = true)
    (hmode : q.dayMatch = p.dayMatch)
    (hdays : p.dayMatch = .either → p.bothDaysRestricted = true → q.bothDaysRestricted = true)
    (h : p.fires time bySecond = true) : q.fires time bySecond = true := by
  have hday : p.dayFires time = true → q.dayFires time = true := by
    have hmonthDay : p.monthDayFires time = true → q.monthDayFires time = true :=
      hsets .dayOfMonth
    have hweekday : p.weekdayFires time = true → q.weekdayFires time = true :=
      hsets .dayOfWeek
    unfold dayFires
    rw [hmode]
    split
    · next hone =>
      rw [if_pos ⟨hone.1, hdays hone.1 hone.2⟩, Bool.or_eq_true, Bool.or_eq_true]
      exact Or.imp hmonthDay hweekday
    · rw [Bool.and_eq_true]
      rintro ⟨hleft, hright⟩
      split
      · rw [hmonthDay hleft, Bool.true_or]
      · rw [hmonthDay hleft, hweekday hright, Bool.and_self]
  simp only [fires, Bool.and_eq_true, Bool.or_eq_true] at h ⊢
  obtain ⟨⟨⟨⟨⟨hsecond, hminute⟩, hhour⟩, hmonth⟩, hyear⟩, hdayFires⟩ := h
  exact ⟨⟨⟨⟨⟨hsecond.imp_right (hsets .second), hsets .minute hminute⟩, hsets .hour hhour⟩,
    hsets .month hmonth⟩, hsets .year hyear⟩, hday hdayFires⟩

/-- So it is for the patterns of rows that differ in one field. -/
theorem fires_of_row {mode : DayMatch} {row other : PerField Selection} {f : Field}
    (hsame : ∀ g, g ≠ f → row.get g = other.get g)
    (hset : (ValueSet.ofSelection f (row.get f)).firesAt f time = true →
      (ValueSet.ofSelection f (other.get f)).firesAt f time = true)
    (hdays : mode = .either → f ∈ Field.days → row.get f ≠ .whole → other.get f ≠ .whole)
    (h : (ofSelections mode row).fires time bySecond = true) :
    (ofSelections mode other).fires time bySecond = true := by
  have hrestricted (hmode : mode = .either) {g : Field} (hg : g ∈ Field.days)
      (hwhole : row.get g ≠ .whole) : other.get g ≠ .whole := by
    by_cases hgf : g = f
    · subst hgf
      exact hdays hmode hg hwhole
    · rwa [← hsame g hgf]
  refine fires_mono (p := ofSelections mode row) (fun g => ?_) rfl (fun hmode => ?_) h
  · unfold ofSelections
    rw [PerField.get_ofFn, PerField.get_ofFn]
    by_cases hgf : g = f
    · subst hgf
      exact hset
    · rw [hsame g hgf]
      exact id
  · rw [bothDaysRestricted_ofSelections, bothDaysRestricted_ofSelections]
    rintro ⟨hmonthDay, hweekday⟩
    exact ⟨hrestricted hmode (g := .dayOfMonth) (by decide) hmonthDay,
      hrestricted hmode (g := .dayOfWeek) (by decide) hweekday⟩

end Pattern

/-- A schedule that has one other pattern fires where it did, if that pattern does. -/
theorem Schedule.fires_of_patterns {s t : Schedule} {front back : List Pattern} {p q : Pattern}
    (hs : s.patterns = front ++ p :: back) (ht : t.patterns = front ++ q :: back)
    {time : TimeFields} {bySecond : Bool}
    (hfires : p.fires time bySecond = true → q.fires time bySecond = true)
    (h : s.fires time bySecond = true) : t.fires time bySecond = true := by
  unfold fires at h ⊢
  rw [hs, List.any_append, List.any_cons, Bool.or_eq_true, Bool.or_eq_true] at h
  rw [ht, List.any_append, List.any_cons, Bool.or_eq_true, Bool.or_eq_true]
  exact h.imp_right (Or.imp_left hfires)

end CronSchedule
