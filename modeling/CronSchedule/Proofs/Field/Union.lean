import CronSchedule.Proofs.Field.Listing
import CronSchedule.Proofs.Text.Trimming
import Mathlib.Data.List.Sort

/-!
# A group of tokens is their union

The tokens between the commas of a field are read one by one, and each of them could stand alone.

* `Selection.Unites selections s` — the union of selections: the whole field where one of them is
  that, and otherwise what they list, each value where it is first mentioned.
* `Field.GroupRefused f text tokens e` — the first token of a group that is refused alone, and for
  what cause the group is refused.
* **Erasing repetitions** (`eraseDups_flatten_map_eraseDups`): it makes no difference whether they
  are erased before lists are joined as well.
* **Reading** (`Field.readTerms_eq_mapM`, `Field.select_token`): a group is read token by token, and
  a token alone in the same way, but for the cause of a blank one.
* **Order and repetition** (`Selection.Unites.admits_iff`): what a union admits depends only on
  which selections are united.

Main statement: **a group selects the union of what its tokens select alone, and is refused for what
the first of them is refused for that is refused alone** (`Field.select_group_is_union`).
-/

namespace CronSchedule

/-! ### Unions and refusals -/

/-- The union of selections. -/
inductive Selection.Unites (selections : List Selection) : Selection → Prop
  /-- It is the whole field where one of them is that. -/
  | whole : Selection.whole ∈ selections → Unites selections .whole
  /-- Otherwise it lists what they list, each value where it is first mentioned. -/
  | listed {lists : List (List Int)} : selections = lists.map Selection.listed →
      Unites selections (.listed lists.flatten.eraseDups)

/-- What a group of tokens is refused for: behind tokens that are accepted alone stands one that is
refused alone. -/
inductive Field.GroupRefused (f : Field) (text : Fragment) (tokens : List Fragment) :
    ParseError → Prop
  /-- The group is refused for the same cause. -/
  | token {front back : List Fragment} {token : Fragment} {e : ParseError} :
      tokens = front ++ token :: back → (∀ earlier ∈ front, ∃ s, f.select earlier = .ok s) →
      trim token ≠ [] → f.select token = .error e → GroupRefused f text tokens e
  /-- A blank token is reported with the whole text of the group. -/
  | blank {front back : List Fragment} {token : Fragment} :
      tokens = front ++ token :: back → (∀ earlier ∈ front, ∃ s, f.select earlier = .ok s) →
      trim token = [] → f.select token = .error (.emptyPart f []) →
      GroupRefused f text tokens (.emptyPart f (trim text))

/-! ### Erasing repetitions -/

/-- Erasing repetitions twice is erasing them once. -/
theorem eraseDups_eraseDups (values : List Int) : values.eraseDups.eraseDups = values.eraseDups :=
  eraseDups_of_nodup (Selection.nodup_eraseDups values)

/-- Values may be dropped before repetitions are erased or afterwards. -/
theorem eraseDups_filter (p : Int → Bool) :
    ∀ values : List Int, (values.filter p).eraseDups = values.eraseDups.filter p
  | [] => rfl
  | v :: values => by
    have ih := eraseDups_filter p (values.filter fun w => !w == v)
    rw [List.eraseDups_cons]
    by_cases hv : p v = true
    · rw [List.filter_cons_of_pos hv, List.filter_cons_of_pos hv, List.eraseDups_cons,
        List.filter_comm, ih]
    · -- where the first value is dropped, its repetitions are dropped with it
      have hdropped : (values.filter fun w => !w == v).filter p = values.filter p := by
        rw [List.filter_filter]
        apply List.filter_congr
        intro w _
        by_cases hwv : w = v
        · subst hwv
          simp [hv]
        · simp [hwv]
      rw [List.filter_cons_of_neg hv, List.filter_cons_of_neg hv, ← ih, hdropped]
termination_by values => values.length
decreasing_by simpa using Nat.lt_succ_of_le (List.length_filter_le _ _)

/-- Repetitions may be erased in two lists before these are joined. -/
theorem eraseDups_append_eraseDups (front back : List Int) :
    (front.eraseDups ++ back.eraseDups).eraseDups = (front ++ back).eraseDups := by
  have hremove : back.eraseDups.removeAll front.eraseDups = (back.removeAll front).eraseDups := by
    unfold List.removeAll
    rw [eraseDups_filter]
    apply List.filter_congr
    intro v _
    rw [Bool.eq_iff_iff]
    simp
  rw [List.eraseDups_append, List.eraseDups_append, hremove, eraseDups_eraseDups,
    eraseDups_eraseDups]

/-- **Repetitions may be erased in every list before the lists are joined.** -/
theorem eraseDups_flatten_map_eraseDups (lists : List (List Int)) :
    (lists.map List.eraseDups).flatten.eraseDups = lists.flatten.eraseDups := by
  induction lists with
  | nil => rfl
  | cons values lists ih =>
    rw [List.map_cons, List.flatten_cons, List.flatten_cons, ← eraseDups_append_eraseDups,
      eraseDups_eraseDups, ih, eraseDups_append_eraseDups]

/-! ### Unions of terms -/

namespace Selection

/-- A term alone selects the whole field or the values it lists. -/
theorem ofTerms_singleton (f : Field) (t : Term) :
    ofTerms f [t] = if t = .whole then whole else listed (t.values f).eraseDups := by
  unfold ofTerms
  simp only [List.mem_singleton, List.flatMap_singleton, eq_comm]

/-- Terms that list the same values select the same, if neither is the whole field. -/
theorem ofTerms_singleton_congr {f : Field} {t u : Term} (ht : t ≠ .whole) (hu : u ≠ .whole)
    (h : t.values f = u.values f) : ofTerms f [t] = ofTerms f [u] := by
  rw [ofTerms_singleton, ofTerms_singleton, if_neg ht, if_neg hu, h]

/-- **Terms select the union of what each of them selects alone.** -/
theorem unites_ofTerms_iff {f : Field} {terms : List Term} {s : Selection} :
    Unites (terms.map fun t => ofTerms f [t]) s ↔ ofTerms f terms = s := by
  have hwhole : whole ∈ terms.map (fun t => ofTerms f [t]) ↔ .whole ∈ terms := by
    simp [ofTerms_singleton]
  by_cases hmem : .whole ∈ terms
  · rw [ofTerms, if_pos hmem]
    constructor
    · intro hunites
      cases hunites with
      | whole => rfl
      | listed hlists =>
        rw [hlists] at hwhole
        simpa using hwhole.mpr hmem
    · rintro rfl
      exact .whole (hwhole.mpr hmem)
  · have hlisted : terms.map (fun t => ofTerms f [t]) =
        (terms.map fun t => (t.values f).eraseDups).map listed := by
      rw [List.map_map]
      apply List.map_congr_left
      intro t ht
      have hne : t ≠ .whole := fun h => hmem (h ▸ ht)
      rw [ofTerms_singleton, if_neg hne]
      rfl
    have herase : (terms.map fun t => (t.values f).eraseDups).flatten.eraseDups =
        (terms.flatMap (Term.values f)).eraseDups := by
      rw [List.flatMap_def, ← eraseDups_flatten_map_eraseDups (terms.map (Term.values f)),
        List.map_map]
      rfl
    rw [ofTerms, if_neg hmem, ← herase]
    constructor
    · intro hunites
      cases hunites with
      | whole hin => exact absurd (hwhole.mp hin) hmem
      | listed hlists =>
        rw [hlisted] at hlists
        have hinjective : Function.Injective listed := fun _ _ h => listed.inj h
        rw [List.map_injective_iff.mpr hinjective hlists]
    · rintro rfl
      exact .listed hlisted

/-- The union is the whole field exactly where one of the selections is. -/
theorem Unites.eq_whole_iff {selections : List Selection} {s : Selection}
    (h : Unites selections s) : s = .whole ↔ .whole ∈ selections := by
  cases h with
  | whole hmem => exact iff_of_true rfl hmem
  | listed hlists => simp [hlists]

/-- **The union admits what one of the selections admits.** -/
theorem Unites.admits_iff {selections : List Selection} {s : Selection} (h : Unites selections s)
    {v : Int} : s.Admits v ↔ ∃ t ∈ selections, t.Admits v := by
  cases h with
  | whole hmem => exact iff_of_true trivial ⟨.whole, hmem, trivial⟩
  | @listed lists hlists =>
    show v ∈ lists.flatten.eraseDups ↔ _
    simp only [hlists, List.mem_eraseDups, List.mem_flatten, List.mem_map, exists_exists_and_eq_and]
    rfl

/-- Selections of values in the bound that admit the same numbers, both or none of them as the whole
field, are compiled to the same set. -/
theorem ofSelection_congr {f : Field} {s other : Selection} (hs : s.InBound f)
    (hother : other.InBound f) (hwhole : s = .whole ↔ other = .whole)
    (hadmits : ∀ v, s.Admits v ↔ other.Admits v) :
    ValueSet.ofSelection f s = ValueSet.ofSelection f other := by
  cases s with
  | whole => rw [hwhole.mp rfl]
  | listed values =>
    cases other with
    | whole => exact nomatch hwhole.mpr rfl
    | listed others =>
      have htoList : (ValueSet.ofSelection f (.listed values)).toList f =
          (ValueSet.ofSelection f (.listed others)).toList f := by
        apply pairwise_toList_ofSelection.eq_of_mem_iff pairwise_toList_ofSelection
        intro v
        rw [mem_toList_ofSelection_iff hs, mem_toList_ofSelection_iff hother]
        exact hadmits v
      rw [← ofSelection_toList hs, htoList, ofSelection_toList hother]

end Selection

/-! ### Reading a group -/

namespace Field

variable {f : Field} {text token : Fragment} {tokens : List Fragment}

/-- A token is read without the blanks around it. -/
theorem readToken_trim (f : Field) (text token : Fragment) :
    f.readToken text (trim token) = f.readToken text token := by
  simp only [readToken, trim_trim]

/-- A blank token is reported with the text it stands in. -/
theorem readToken_of_trim_eq_nil (h : trim token = []) (text : Fragment) :
    f.readToken text token = .error (.emptyPart f text) := by
  simp only [readToken, if_pos h]

/-- The text in which any other token stands does not count. -/
theorem readToken_of_trim_ne_nil (h : trim token ≠ []) (text other : Fragment) :
    f.readToken text token = f.readToken other token := by
  simp only [readToken, if_neg h]

/-- **A group is read token by token**, whether or not it is blank. -/
theorem readTerms_eq_mapM (h : Pieces ',' text tokens) :
    f.readTerms text = tokens.mapM (f.readToken (trim text)) := by
  have htrim (pieces : List Fragment) : pieces.mapM (f.readToken (trim text)) =
      (pieces.map trim).mapM (f.readToken (trim text)) := by
    rw [List.mapM_map]
    congr 1
    funext token
    exact (f.readToken_trim _ token).symm
  simp only [readTerms]
  split
  · next hblank =>
    -- a blank text is one blank token
    have htokens := (@trim_eq_nil_iff_map_trim_splitOn ',' rfl _).mp hblank
    rw [pieces_iff.mp h] at htokens
    rw [htrim, htokens, hblank]
    rfl
  · rw [htrim, map_trim_splitOn_trim rfl, pieces_iff.mp h, ← htrim]

/-- A token alone selects what its term selects. -/
theorem select_token (h : ',' ∉ token) :
    f.select token = (fun t => Selection.ofTerms f [t]) <$> f.readToken (trim token) token := by
  have hpieces : Pieces ',' token [token] := pieces_iff.mpr (List.splitOn_eq_singleton h)
  rw [select, readTerms_eq_mapM hpieces]
  cases hread : f.readToken (trim token) token with
  | error e => simp [hread, bind, Except.bind, Functor.map, Except.map]
  | ok t => simp [hread, bind, Except.bind, pure, Except.pure, Functor.map, Except.map]

/-- A token alone selects what its term selects, in whatever text it is read. -/
theorem select_token_eq_ok_iff (h : ',' ∉ token) (text : Fragment) {s : Selection} :
    f.select token = .ok s ↔
      ∃ t, f.readToken text token = .ok t ∧ Selection.ofTerms f [t] = s := by
  rw [select_token h, map_eq_ok_iff]
  simp only [readToken_eq_ok_iff]

/-- A token is accepted alone exactly when it is read in a text. -/
theorem exists_select_token_iff (h : ',' ∉ token) (text : Fragment) :
    (∃ s, f.select token = .ok s) ↔ ∃ t, f.readToken text token = .ok t := by
  rw [select_token h, exists_map_eq_ok_iff]
  simp only [readToken_eq_ok_iff]

/-! ### What a group selects -/

/-- **A group is accepted exactly when each of its tokens is accepted alone.** -/
theorem exists_select_iff (h : Pieces ',' text tokens) :
    (∃ s, f.select text = .ok s) ↔ ∀ token ∈ tokens, ∃ s, f.select token = .ok s := by
  rw [select, exists_map_eq_ok_iff, readTerms_eq_mapM h, exists_mapM_eq_ok_iff]
  refine forall₂_congr fun token htoken => ?_
  exact (exists_select_token_iff (h.sep_not_mem token htoken) _).symm

/-- What tokens select alone is what their terms select. -/
theorem forall₂_select_iff (hcomma : ∀ token ∈ tokens, ',' ∉ token) (text : Fragment)
    {selections : List Selection} :
    List.Forall₂ (fun token s => f.select token = .ok s) tokens selections ↔
      ∃ terms, List.Forall₂ (fun token t => f.readToken text token = .ok t) tokens terms ∧
        selections = terms.map fun t => Selection.ofTerms f [t] := by
  induction tokens generalizing selections with
  | nil => simp
  | cons token tokens ih =>
    obtain ⟨htoken, hrest⟩ := List.forall_mem_cons.mp hcomma
    simp only [List.forall₂_cons_left_iff, select_token_eq_ok_iff htoken text, ih hrest]
    constructor
    · rintro ⟨-, -, ⟨t, ht, rfl⟩, ⟨terms, hterms, rfl⟩, rfl⟩
      exact ⟨t :: terms, ⟨t, terms, ht, hterms, rfl⟩, rfl⟩
    · rintro ⟨-, ⟨t, terms, ht, hterms, rfl⟩, rfl⟩
      exact ⟨_, _, ⟨t, ht, rfl⟩, ⟨terms, hterms, rfl⟩, rfl⟩

/-- **A group selects the union of what its tokens select alone.** -/
theorem select_eq_ok_iff_unites (h : Pieces ',' text tokens) {s : Selection} :
    f.select text = .ok s ↔ ∃ selections,
      List.Forall₂ (fun token t => f.select token = .ok t) tokens selections ∧
        Selection.Unites selections s := by
  simp only [forall₂_select_iff h.sep_not_mem (trim text)]
  rw [select, map_eq_ok_iff, readTerms_eq_mapM h]
  simp only [mapM_eq_ok_iff]
  constructor
  · rintro ⟨terms, hterms, hs⟩
    exact ⟨_, ⟨terms, hterms, rfl⟩, Selection.unites_ofTerms_iff.mpr hs⟩
  · rintro ⟨-, ⟨terms, hterms, rfl⟩, hunites⟩
    exact ⟨terms, hterms, Selection.unites_ofTerms_iff.mp hunites⟩

/-! ### What a group is refused for -/

/-- A blank token alone is refused as an empty one. -/
theorem select_of_trim_eq_nil (h : trim token = []) :
    f.select token = .error (.emptyPart f []) := by
  rw [select, map_eq_error_iff, readTerms, if_pos h, h]

/-- A token that is not blank is refused alone for what it is refused for in a text. -/
theorem select_token_eq_error_iff (hcomma : ',' ∉ token) (h : trim token ≠ []) (text : Fragment)
    {e : ParseError} : f.select token = .error e ↔ f.readToken text token = .error e := by
  rw [select_token hcomma, map_eq_error_iff, readToken_of_trim_ne_nil h (trim token) text]

/-- **A group is refused for what the first of its tokens is refused for that is refused alone.** -/
theorem select_eq_error_iff (h : Pieces ',' text tokens) {e : ParseError} :
    f.select text = .error e ↔ f.GroupRefused text tokens e := by
  have haccepted : ∀ front ⊆ tokens, ((∀ earlier ∈ front, ∃ t,
      f.readToken (trim text) earlier = .ok t) ↔
        ∀ earlier ∈ front, ∃ s, f.select earlier = .ok s) := by
    intro front hfront
    refine forall₂_congr fun earlier hmem => ?_
    exact (exists_select_token_iff (h.sep_not_mem _ (hfront hmem)) _).symm
  rw [select, map_eq_error_iff, readTerms_eq_mapM h, mapM_eq_error_iff]
  constructor
  · rintro ⟨front, token, back, rfl, hfront, htoken⟩
    rw [haccepted front (List.subset_append_left _ _)] at hfront
    have hcomma := h.sep_not_mem token (List.mem_append_right _ List.mem_cons_self)
    by_cases hblank : trim token = []
    · rw [readToken_of_trim_eq_nil hblank] at htoken
      cases htoken
      exact .blank rfl hfront hblank (select_of_trim_eq_nil hblank)
    · exact .token rfl hfront hblank ((select_token_eq_error_iff hcomma hblank _).mpr htoken)
  · intro hrefused
    cases hrefused with
    | @token front back token _ hsplit hfront hblank htoken =>
      subst hsplit
      rw [← haccepted front (List.subset_append_left _ _)] at hfront
      have hcomma := h.sep_not_mem token (List.mem_append_right _ List.mem_cons_self)
      exact ⟨front, token, back, rfl, hfront,
        (select_token_eq_error_iff hcomma hblank _).mp htoken⟩
    | @blank front back token hsplit hfront hblank =>
      subst hsplit
      rw [← haccepted front (List.subset_append_left _ _)] at hfront
      exact ⟨front, token, back, rfl, hfront, readToken_of_trim_eq_nil hblank _⟩

/-! ### Order and repetition -/

/-- **Groups of the same tokens compile to the same set**, in any order and with any repetitions. -/
theorem compile_eq_of_same_tokens {other : Fragment} {others : List Fragment} {set : ValueSet}
    (h : Pieces ',' text tokens) (hother : Pieces ',' other others)
    (hsame : ∀ token, token ∈ others ↔ token ∈ tokens) (hset : f.compile text = .ok set) :
    f.compile other = .ok set := by
  obtain ⟨s, hs, rfl⟩ := compile_eq_ok_iff.mp hset
  obtain ⟨t, ht⟩ : ∃ t, f.select other = .ok t := by
    rw [exists_select_iff hother]
    intro token htoken
    exact (exists_select_iff h).mp ⟨s, hs⟩ token ((hsame token).mp htoken)
  obtain ⟨selections, hselections, hunites⟩ := (select_eq_ok_iff_unites h).mp hs
  obtain ⟨others', hothers', hunites'⟩ := (select_eq_ok_iff_unites hother).mp ht
  have hmem {P : Selection → Prop} : (∃ u ∈ others', P u) ↔ ∃ u ∈ selections, P u := by
    rw [exists_mem_iff_of_forall₂ hothers', exists_mem_iff_of_forall₂ hselections]
    simp only [hsame]
  refine compile_eq_ok_iff.mpr ⟨t, ht, ?_⟩
  apply Selection.ofSelection_congr (inBound_of_select ht) (inBound_of_select hs)
  · rw [hunites'.eq_whole_iff, hunites.eq_whole_iff]
    simpa using hmem (P := (· = .whole))
  · intro v
    rw [hunites'.admits_iff, hunites.admits_iff]
    exact hmem

/-- **A group of tokens is their ordered union.** It is accepted exactly when each of its tokens is
accepted alone; it selects the whole field where one of them does, and otherwise what they list, one
after the other and each value where it is first mentioned; it is refused for what the first of them
is refused for that is refused alone. So the tokens may be put in another order or repeated, and an
accepted field compiles to the same set. -/
theorem select_group_is_union (f : Field) {text : Fragment} {tokens : List Fragment}
    (h : Pieces ',' text tokens) :
    ((∃ s, f.select text = .ok s) ↔ ∀ token ∈ tokens, ∃ s, f.select token = .ok s) ∧
    (∀ s, f.select text = .ok s ↔ ∃ selections,
      List.Forall₂ (fun token t => f.select token = .ok t) tokens selections ∧
        Selection.Unites selections s) ∧
    (∀ e, f.select text = .error e ↔ f.GroupRefused text tokens e) ∧
    ∀ other others, Pieces ',' other others → (∀ token, token ∈ others ↔ token ∈ tokens) →
      ∀ set, f.compile text = .ok set → f.compile other = .ok set := by
  refine ⟨exists_select_iff h, fun s => select_eq_ok_iff_unites h, ?_, ?_⟩
  · exact fun e => select_eq_error_iff h
  · intro other others hother hsame set hset
    exact compile_eq_of_same_tokens h hother hsame hset

/-- A name, a range that wraps around the week and a repeated day, in two orders; and a group whose
second token is blank, in front of one that is out of the bound. -/
theorem select_group_of_weekdays :
    (Field.dayOfWeek.select "FRI,6-1,SUN".toList = .ok (.listed [5, 6, 0, 1]) ∧
      ∃ set, Field.dayOfWeek.compile "FRI,6-1,SUN".toList = .ok set ∧
        Field.dayOfWeek.compile "SUN,6-1,SUN,FRI".toList = .ok set) ∧
    Field.dayOfWeek.GroupRefused " MON, ,8 ".toList [" MON".toList, " ".toList, "8 ".toList]
      (.emptyPart .dayOfWeek "MON, ,8".toList) := by
  have hpieces : Pieces ',' "FRI,6-1,SUN".toList ["FRI".toList, "6-1".toList, "SUN".toList] :=
    pieces_iff.mpr (by decide +kernel)
  have hother : Pieces ',' "SUN,6-1,SUN,FRI".toList
      ["SUN".toList, "6-1".toList, "SUN".toList, "FRI".toList] :=
    pieces_iff.mpr (by decide +kernel)
  have hblank : Pieces ',' " MON, ,8 ".toList [" MON".toList, " ".toList, "8 ".toList] :=
    pieces_iff.mpr (by decide +kernel)
  have hselect : Field.dayOfWeek.select "FRI,6-1,SUN".toList = .ok (.listed [5, 6, 0, 1]) := by
    decide +kernel
  obtain ⟨set, hset⟩ : ∃ set, Field.dayOfWeek.compile "FRI,6-1,SUN".toList = .ok set :=
    ⟨_, compile_eq_ok_iff.mpr ⟨_, hselect, rfl⟩⟩
  have hsame : ∀ token, token ∈ ["SUN".toList, "6-1".toList, "SUN".toList, "FRI".toList] ↔
      token ∈ ["FRI".toList, "6-1".toList, "SUN".toList] := by
    intro token
    simp only [List.mem_cons, List.not_mem_nil, or_false]
    tauto
  have hrefused : Field.dayOfWeek.select " MON, ,8 ".toList =
      .error (.emptyPart .dayOfWeek "MON, ,8".toList) := by
    decide +kernel
  refine ⟨⟨hselect, set, hset, ?_⟩, ?_⟩
  · exact (select_group_is_union .dayOfWeek hpieces).2.2.2 _ _ hother hsame set hset
  · exact ((select_group_is_union .dayOfWeek hblank).2.2.1 _).mp hrefused

end Field

end CronSchedule
