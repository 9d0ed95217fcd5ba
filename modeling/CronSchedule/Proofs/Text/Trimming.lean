import CronSchedule.Proofs.Text.Pieces
import Mathlib.Data.List.DropRight

/-!
# Blanks around texts and words

* `Bare text` — a text with no blank at either end. Trimming makes a text bare (`bare_trim`) and
  leaves a bare text as it is (`trim_of_bare`), so trimming twice is trimming once (`trim_trim`),
  and blanks put around a text change nothing (`trim_blanks_append_blanks`).
* **A text is its trimmed text between blanks** (`exists_eq_blanks_trim_blanks`), hence its words
  are those of the trimmed text (`words_trim`). So are its pieces between separators, once they are
  trimmed (`map_trim_splitOn_trim`).
* A text without words is blank (`words_eq_nil_iff`), and what stands in a word is not
  (`of_mem_words`).
* **A word of a text stands in it** between the words in front and those behind
  (`exists_eq_of_words_eq_append`), and **words with single spaces between them read back as those
  words** (`words_intercalate`).
-/

namespace CronSchedule

/-! ### Bare texts -/

/-- A text with no blank at either end; the empty text is one. -/
structure Bare (text : Fragment) : Prop where
  /-- The first character is not blank. -/
  head : ∀ c, text.head? = some c → isBlank c = false
  /-- The last character is not blank. -/
  last : ∀ c, text.getLast? = some c → isBlank c = false

/-- Trimming drops the blanks behind a text after those in front of it. -/
theorem trim_eq_rdropWhile (text : Fragment) :
    trim text = (text.dropWhile isBlank).rdropWhile isBlank := rfl

/-- Trimming makes a text bare. -/
theorem bare_trim (text : Fragment) : Bare (trim text) := by
  constructor
  · intro c hc
    -- what is left after dropping behind is a beginning of what was left after dropping in front
    obtain ⟨behind, hbehind⟩ := List.rdropWhile_prefix isBlank (text.dropWhile isBlank)
    rw [← trim_eq_rdropWhile] at hbehind
    have hhead := List.head?_dropWhile_not isBlank text
    rw [← hbehind, List.head?_append, hc] at hhead
    exact hhead
  · intro c hc
    rw [List.getLast?_eq_some_iff] at hc
    obtain ⟨front, hfront⟩ := hc
    have hne : (text.dropWhile isBlank).rdropWhile isBlank ≠ [] := by
      rw [← trim_eq_rdropWhile, hfront]
      simp
    have hlast := List.rdropWhile_last_not isBlank (text.dropWhile isBlank) hne
    simp only [← trim_eq_rdropWhile, hfront, List.getLast_append_singleton] at hlast
    exact Bool.eq_false_iff.mpr hlast

/-- Trimming leaves a bare text as it is. -/
theorem trim_of_bare {text : Fragment} (h : Bare text) : trim text = text := by
  have hfront : text.dropWhile isBlank = text := by
    cases text with
    | nil => rfl
    | cons c text => exact List.dropWhile_cons_of_neg (Bool.eq_false_iff.mp (h.head c rfl))
  rw [trim_eq_rdropWhile, hfront, List.rdropWhile_eq_self_iff]
  intro hne
  exact Bool.eq_false_iff.mp (h.last _ (List.getLast?_eq_some_getLast hne))

/-- Trimming twice is trimming once. -/
theorem trim_trim (text : Fragment) : trim (trim text) = trim text :=
  trim_of_bare (bare_trim text)

/-- Blanks put around a text are trimmed away with its own. -/
theorem trim_blanks_append_blanks {front back : Fragment} (hfront : ∀ c ∈ front, isBlank c = true)
    (hback : ∀ c ∈ back, isBlank c = true) (text : Fragment) :
    trim (front ++ (text ++ back)) = trim text := by
  have hnil : back.dropWhile isBlank = [] := (dropWhile_isBlank_eq_nil_iff back).mpr hback
  have hreverse (rest : Fragment) :
      (back.reverse ++ rest).dropWhile isBlank = rest.dropWhile isBlank := by
    apply List.dropWhile_append_of_pos
    simpa using hback
  unfold trim
  rw [List.dropWhile_append_of_pos hfront, List.dropWhile_append, hnil]
  by_cases hblank : text.dropWhile isBlank = []
  · simp [hblank]
  · rw [if_neg (by simpa using hblank), List.reverse_append, hreverse]

/-- So are blanks put in front of it. -/
theorem trim_blanks_append {front : Fragment} (h : ∀ c ∈ front, isBlank c = true)
    (text : Fragment) : trim (front ++ text) = trim text := by
  have := trim_blanks_append_blanks h (List.forall_mem_nil _) text
  rwa [List.append_nil] at this

/-- So are blanks put behind it. -/
theorem trim_append_blanks {back : Fragment} (h : ∀ c ∈ back, isBlank c = true)
    (text : Fragment) : trim (text ++ back) = trim text :=
  trim_blanks_append_blanks (List.forall_mem_nil _) h text

/-- A text without blanks is bare. -/
theorem bare_of_no_blank {text : Fragment} (h : ∀ c ∈ text, isBlank c = false) : Bare text :=
  ⟨fun c hc => h c (List.mem_of_mem_head? hc), fun c hc => h c (List.mem_of_getLast? hc)⟩

/-- Bare texts that are not empty, with anything between them, are a bare text. -/
theorem Bare.append {text behind : Fragment} (htext : Bare text) (hbehind : Bare behind)
    (hne : text ≠ []) (hne_behind : behind ≠ []) (between : Fragment) :
    Bare (text ++ (between ++ behind)) := by
  constructor
  · intro c hc
    rw [List.head?_append_of_ne_nil _ hne] at hc
    exact htext.head c hc
  · intro c hc
    rw [← List.append_assoc, List.getLast?_append_of_ne_nil _ hne_behind] at hc
    exact hbehind.last c hc

/-- So are any number of them, but at least one, with separators between them. -/
theorem bare_intercalate {sep : Char} {pieces : List Fragment} (hne : pieces ≠ [])
    (h : ∀ piece ∈ pieces, piece ≠ [] ∧ Bare piece) :
    [sep].intercalate pieces ≠ [] ∧ Bare ([sep].intercalate pieces) := by
  induction pieces with
  | nil => exact absurd rfl hne
  | cons piece pieces ih =>
    obtain ⟨hpiece, hbare⟩ := h piece List.mem_cons_self
    by_cases hempty : pieces = []
    · rw [hempty, List.intercalate_singleton]
      exact ⟨hpiece, hbare⟩
    · obtain ⟨hrest, hbare_rest⟩ := ih hempty fun q hq => h q (List.mem_cons_of_mem _ hq)
      rw [List.intercalate_cons_of_ne_nil hempty, List.append_assoc]
      exact ⟨List.append_ne_nil_of_left_ne_nil hpiece _,
        hbare.append hbare_rest hpiece hrest [sep]⟩

/-- A text is its trimmed text between blanks. -/
theorem exists_eq_blanks_trim_blanks (text : Fragment) :
    ∃ front back, text = front ++ (trim text ++ back) ∧ (∀ c ∈ front, isBlank c = true) ∧
      ∀ c ∈ back, isBlank c = true := by
  refine ⟨text.takeWhile isBlank, (text.dropWhile isBlank).rtakeWhile isBlank, ?_, ?_, ?_⟩
  · rw [trim_eq_rdropWhile, List.rdropWhile_append_rtakeWhile, List.takeWhile_append_dropWhile]
  · exact List.all_eq_true.mp List.all_takeWhile
  · exact fun c => List.mem_rtakeWhile_imp

/-! ### Trimmed pieces -/

section

variable {sep : Char} {front back : Fragment}

/-- A separator that is not blank does not stand among blanks. -/
theorem not_mem_of_blanks (hsep : isBlank sep = false) (h : ∀ c ∈ front, isBlank c = true) :
    sep ∉ front := by
  intro hmem
  rw [h sep hmem] at hsep
  exact nomatch hsep

/-- It stands in a text only where it stands between the blanks around it. -/
theorem mem_trim_of_mem (hsep : isBlank sep = false) {text : Fragment} (h : sep ∈ text) :
    sep ∈ trim text := by
  obtain ⟨front, back, htext, hfront, hback⟩ := exists_eq_blanks_trim_blanks text
  rw [htext, List.mem_append, List.mem_append] at h
  rcases h with h | h | h
  · exact absurd h (not_mem_of_blanks hsep hfront)
  · exact h
  · exact absurd h (not_mem_of_blanks hsep hback)

/-- Blanks around a text without a separator are trimmed from its one piece. -/
theorem map_trim_splitOn_blanks_of_not_mem (hsep : isBlank sep = false)
    (hfront : ∀ c ∈ front, isBlank c = true) (hback : ∀ c ∈ back, isBlank c = true)
    {text : Fragment} (h : sep ∉ text) :
    ((front ++ (text ++ back)).splitOn sep).map trim = (text.splitOn sep).map trim := by
  have hwhole : sep ∉ front ++ (text ++ back) := by
    rw [List.mem_append, List.mem_append, not_or, not_or]
    exact ⟨not_mem_of_blanks hsep hfront, h, not_mem_of_blanks hsep hback⟩
  rw [List.splitOn_eq_singleton hwhole, List.splitOn_eq_singleton h, List.map_singleton,
    List.map_singleton, trim_blanks_append_blanks hfront hback]

/-- Blanks around a text are trimmed from its first piece and from its last. -/
theorem map_trim_splitOn_blanks (hsep : isBlank sep = false)
    (hfront : ∀ c ∈ front, isBlank c = true) (hback : ∀ c ∈ back, isBlank c = true)
    (text : Fragment) :
    ((front ++ (text ++ back)).splitOn sep).map trim = (text.splitOn sep).map trim := by
  have hnone : ∀ c ∈ ([] : Fragment), isBlank c = true := List.forall_mem_nil _
  -- behind the first separator, the blanks in front are gone
  induction text using cut_induction generalizing front with
  | piece text htext => exact map_trim_splitOn_blanks_of_not_mem hsep hfront hback htext
  | cut text rest htext ih =>
    have hcut : front ++ (text ++ sep :: rest ++ back) =
        front ++ (text ++ []) ++ sep :: ([] ++ (rest ++ back)) := by
      simp
    rw [hcut, List.splitOn_append_cons_self, List.map_append,
      map_trim_splitOn_blanks_of_not_mem hsep hfront hnone htext, ih hnone, ← List.map_append,
      List.splitOn_append_cons_self]

/-- **The blanks around a text do not count** for its trimmed pieces. -/
theorem map_trim_splitOn_trim (hsep : isBlank sep = false) (text : Fragment) :
    ((trim text).splitOn sep).map trim = (text.splitOn sep).map trim := by
  obtain ⟨front, back, htext, hfront, hback⟩ := exists_eq_blanks_trim_blanks text
  conv_rhs => rw [htext, map_trim_splitOn_blanks hsep hfront hback]

/-- A text is blank exactly when it has one piece and that is blank. -/
theorem trim_eq_nil_iff_map_trim_splitOn (hsep : isBlank sep = false) {text : Fragment} :
    trim text = [] ↔ (text.splitOn sep).map trim = [[]] := by
  constructor
  · intro h
    rw [← map_trim_splitOn_trim hsep, h]
    rfl
  · intro h
    obtain ⟨piece, hpiece, hblank⟩ := List.map_eq_singleton_iff.mp h
    rw [(splitOn_eq_singleton_iff.mp hpiece).1, hblank]

end

/-! ### Words -/

/-- Where there is nothing there are no words. -/
theorem words_nil : words [] = [] := rfl

/-- A blank in front of a text belongs to no word. -/
theorem words_cons_blank {c : Char} (hc : isBlank c = true) (text : Fragment) :
    words (c :: text) = words text :=
  words_append_blank hc [] text

/-- Blanks in front of a text belong to no word. -/
theorem words_blanks_append {blanks : Fragment} (h : ∀ c ∈ blanks, isBlank c = true)
    (text : Fragment) : words (blanks ++ text) = words text := by
  induction blanks with
  | nil => rfl
  | cons c blanks ih =>
    rw [List.cons_append, words_cons_blank (h c List.mem_cons_self),
      ih fun d hd => h d (List.mem_cons_of_mem _ hd)]

/-- Blanks behind a text belong to no word. -/
theorem words_append_blanks {blanks : Fragment} (h : ∀ c ∈ blanks, isBlank c = true)
    (text : Fragment) : words (text ++ blanks) = words text := by
  cases blanks with
  | nil => rw [List.append_nil]
  | cons c blanks =>
    have hblanks : words blanks = [] := by
      have := words_blanks_append (fun d hd => h d (List.mem_cons_of_mem c hd)) []
      rwa [List.append_nil] at this
    rw [words_append_blank (h c List.mem_cons_self), hblanks, List.append_nil]

/-- The words of a text are those of the trimmed text. -/
theorem words_trim (text : Fragment) : words (trim text) = words text := by
  obtain ⟨front, back, htext, hfront, hback⟩ := exists_eq_blanks_trim_blanks text
  conv_rhs => rw [htext, words_blanks_append hfront, words_append_blanks hback]

/-- What stands in a word stands in the text and is not blank. -/
theorem of_mem_words {text word : Fragment} (h : word ∈ words text) {c : Char} (hc : c ∈ word) :
    c ∈ text ∧ isBlank c = false :=
  of_mem_splitOnP (List.mem_of_mem_filter h) hc

/-- A text has no word exactly when there is nothing but blanks. -/
theorem words_eq_nil_iff {text : Fragment} :
    words text = [] ↔ ∀ c ∈ text, isBlank c = true := by
  constructor
  · intro h
    induction text with
    | nil => simp
    | cons c text ih =>
      by_cases hc : isBlank c = true
      · rw [words_cons_blank hc] at h
        simpa [hc] using ih h
      · -- what is not blank in front belongs to the first word
        obtain ⟨first, rest, hsplit⟩ :=
          List.exists_cons_of_ne_nil (List.splitOnP_ne_nil isBlank text)
        rw [words, List.splitOnP_cons_eq_if_modifyHead, if_neg hc, hsplit] at h
        simp at h
  · intro h
    have := words_append_blanks h []
    rwa [List.nil_append] at this

/-- No word goes across the front of a text that begins with a blank. -/
theorem words_append_of_head {rest : Fragment} (h : ∀ c, rest.head? = some c → isBlank c = true)
    (text : Fragment) : words (text ++ rest) = words text ++ words rest := by
  cases rest with
  | nil => rw [List.append_nil, words_nil, List.append_nil]
  | cons c rest =>
    have hc := h c rfl
    rw [words_append_blank hc, words_cons_blank hc]

/-- Nor across the end of a text that ends with a blank. -/
theorem words_append_of_getLast {text : Fragment}
    (h : ∀ c, text.getLast? = some c → isBlank c = true) (rest : Fragment) :
    words (text ++ rest) = words text ++ words rest := by
  rcases List.eq_nil_or_concat text with rfl | ⟨front, c, rfl⟩
  · rw [words_nil, List.nil_append, List.nil_append]
  · have hc := h c (by simp)
    rw [List.concat_eq_append, List.append_assoc, List.singleton_append, words_append_blank hc,
      words_append_blank hc, words_nil, List.append_nil]

/-- The first word of a text stands behind blanks, and in front of a blank or nothing. -/
theorem exists_eq_of_words_eq_cons {text word : Fragment} {ws : List Fragment}
    (h : words text = word :: ws) : ∃ blanks back, text = blanks ++ (word ++ back) ∧
      (∀ c ∈ blanks, isBlank c = true) ∧ (∀ c, back.head? = some c → isBlank c = true) ∧
      words back = ws := by
  induction text with
  | nil => exact nomatch h
  | cons c text ih =>
    by_cases hc : isBlank c = true
    · rw [words_cons_blank hc] at h
      obtain ⟨blanks, back, rfl, hblanks, hback, hwords⟩ := ih h
      exact ⟨c :: blanks, back, rfl, List.forall_mem_cons.mpr ⟨hc, hblanks⟩, hback, hwords⟩
    · -- what is not blank in front is the first word
      have hword : ∀ d ∈ (c :: text).takeWhile (!isBlank ·), isBlank d = false := by
        intro d hd
        simpa using List.all_eq_true.mp List.all_takeWhile d hd
      have hne : (c :: text).takeWhile (!isBlank ·) ≠ [] := by
        simp [hc]
      have hback : ∀ d, ((c :: text).dropWhile (!isBlank ·)).head? = some d →
          isBlank d = true := by
        intro d hd
        have hnot := List.head?_dropWhile_not (!isBlank ·) (c :: text)
        rw [hd] at hnot
        simpa using hnot
      have htext : (c :: text) = (c :: text).takeWhile (!isBlank ·) ++
          (c :: text).dropWhile (!isBlank ·) :=
        List.takeWhile_append_dropWhile.symm
      rw [htext, words_append_of_head hback, words_of_no_blank hne hword, List.singleton_append,
        List.cons.injEq] at h
      exact ⟨[], _, by rw [← h.1]; exact htext, List.forall_mem_nil _, hback, h.2⟩

/-- **A word of a text stands in it between the words in front and those behind**, with blanks or
nothing on either side. -/
theorem exists_eq_of_words_eq_append {text word : Fragment} {ws us : List Fragment}
    (h : words text = ws ++ word :: us) : ∃ front back, text = front ++ word ++ back ∧
      (∀ c, front.getLast? = some c → isBlank c = true) ∧
      (∀ c, back.head? = some c → isBlank c = true) ∧ words front = ws ∧ words back = us := by
  induction ws generalizing text with
  | nil =>
    obtain ⟨blanks, back, rfl, hblanks, hback, hwords⟩ := exists_eq_of_words_eq_cons h
    exact ⟨blanks, back, (List.append_assoc ..).symm,
      fun c hc => hblanks c (List.mem_of_getLast? hc), hback, words_eq_nil_iff.mpr hblanks, hwords⟩
  | cons first ws ih =>
    have hmem : first ∈ words text := h ▸ List.mem_cons_self
    have hword : word ∈ words text := h ▸ List.mem_append_right _ List.mem_cons_self
    have hfirst : words first = [first] :=
      words_of_no_blank (ne_nil_of_mem_words hmem) fun c hc => (of_mem_words hmem hc).2
    obtain ⟨c, tail, hcons⟩ := List.exists_cons_of_ne_nil (ne_nil_of_mem_words hword)
    have hc : isBlank c = false := (of_mem_words hword (hcons ▸ List.mem_cons_self)).2
    obtain ⟨blanks, rest, rfl, hblanks, hrest, hwords⟩ := exists_eq_of_words_eq_cons h
    obtain ⟨front, back, rfl, hfront, hback, hws, hus⟩ := ih hwords
    -- something blank stands between the first word and the other
    have hne : front ≠ [] := by
      rintro rfl
      rw [hrest c (by rw [hcons]; rfl)] at hc
      exact nomatch hc
    have hhead : ∀ d, front.head? = some d → isBlank d = true := by
      intro d hd
      refine hrest d ?_
      rw [List.append_assoc, List.head?_append_of_ne_nil _ hne, hd]
    refine ⟨blanks ++ (first ++ front), back, by simp, ?_, hback, ?_, hus⟩
    · intro d hd
      rw [List.getLast?_append_of_ne_nil _ (List.append_ne_nil_of_right_ne_nil _ hne),
        List.getLast?_append_of_ne_nil _ hne] at hd
      exact hfront d hd
    · rw [words_blanks_append hblanks, words_append_of_head hhead, hfirst, hws,
        List.singleton_append]

/-- Words with single spaces between them read back as those words. -/
theorem words_intercalate {ws : List Fragment}
    (h : ∀ w ∈ ws, w ≠ [] ∧ ∀ c ∈ w, isBlank c = false) : words ([' '].intercalate ws) = ws := by
  induction ws with
  | nil => rfl
  | cons w ws ih =>
    obtain ⟨hne, hblank⟩ := h w List.mem_cons_self
    by_cases hws : ws = []
    · rw [hws, List.intercalate_singleton]
      exact words_of_no_blank hne hblank
    · rw [List.intercalate_cons_of_ne_nil hws, List.append_assoc, List.singleton_append,
        words_append_blank (by decide), words_of_no_blank hne hblank,
        ih fun v hv => h v (List.mem_cons_of_mem _ hv), List.singleton_append]

end CronSchedule
