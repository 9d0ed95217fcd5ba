import CronSchedule.Text.Blank

/-!
# Texts cut at separators

* `Pieces sep text pieces` — the pieces of a text between separators, said without an algorithm:
  at least one piece, no separator inside a piece, and the text is the pieces joined by separators.
* **There is one such list** (`pieces_iff`): it is the one that splitting returns. The two shapes a
  token can have, without and with one separator, follow (`splitOn_eq_singleton_iff`,
  `splitOn_eq_pair_iff`), and pieces may be put in another order (`Pieces.of_perm`) or replaced
  (`Pieces.replace`).
* An induction over the separators of a text (`cut_induction`).
-/

namespace CronSchedule

/-- The pieces of a text between separators. -/
structure Pieces (sep : Char) (text : Fragment) (pieces : List Fragment) : Prop where
  /-- There is at least one piece. -/
  ne_nil : pieces ≠ []
  /-- No piece contains the separator. -/
  sep_not_mem : ∀ piece ∈ pieces, sep ∉ piece
  /-- The pieces with separators between them are the text. -/
  join : [sep].intercalate pieces = text

/-- What stands in joined pieces is a separator or stands in a piece. -/
theorem mem_of_mem_intercalate {sep c : Char} {pieces : List Fragment}
    (h : c ∈ [sep].intercalate pieces) : c = sep ∨ ∃ piece ∈ pieces, c ∈ piece := by
  induction pieces with
  | nil => exact absurd h List.not_mem_nil
  | cons piece pieces ih =>
    by_cases hempty : pieces = []
    · rw [hempty, List.intercalate_singleton] at h
      exact .inr ⟨piece, List.mem_cons_self, h⟩
    · rw [List.intercalate_cons_of_ne_nil hempty, List.append_assoc, List.mem_append,
        List.mem_append, List.mem_singleton] at h
      rcases h with h | h | h
      · exact .inr ⟨piece, List.mem_cons_self, h⟩
      · exact .inl h
      · obtain hsep | ⟨other, hother, hc⟩ := ih h
        · exact .inl hsep
        · exact .inr ⟨other, List.mem_cons_of_mem _ hother, hc⟩

/-- What stands in a piece that splitting returns stands in the text and is no separator. -/
theorem of_mem_splitOnP {isSep : Char → Bool} {c : Char} :
    ∀ {text piece : Fragment}, piece ∈ text.splitOnP isSep → c ∈ piece → c ∈ text ∧ isSep c = false
  | [], piece, h, hc => by
    rw [List.splitOnP_nil, List.mem_singleton] at h
    rw [h] at hc
    exact absurd hc List.not_mem_nil
  | d :: text, piece, h, hc => by
    obtain ⟨first, rest, hsplit⟩ := List.exists_cons_of_ne_nil (List.splitOnP_ne_nil isSep text)
    have ih {p : Fragment} (hp : p ∈ first :: rest) (hcp : c ∈ p) :
        c ∈ d :: text ∧ isSep c = false := by
      obtain ⟨htext, hsep⟩ := of_mem_splitOnP (hsplit ▸ hp) hcp
      exact ⟨List.mem_cons_of_mem d htext, hsep⟩
    rw [List.splitOnP_cons_eq_if_modifyHead, hsplit] at h
    split at h
    · rcases List.mem_cons.mp h with rfl | h
      · exact absurd hc List.not_mem_nil
      · exact ih h hc
    · next hd =>
      rcases List.mem_cons.mp h with rfl | h
      · rcases List.mem_cons.mp hc with rfl | hc
        · exact ⟨List.mem_cons_self, Bool.eq_false_iff.mpr hd⟩
        · exact ih List.mem_cons_self hc
      · exact ih (List.mem_cons_of_mem _ h) hc

/-- No piece that splitting returns contains the separator. -/
theorem sep_not_mem_of_mem_splitOn {sep : Char} {text piece : Fragment}
    (h : piece ∈ text.splitOn sep) : sep ∉ piece := by
  intro hsep
  rw [List.splitOn_eq_splitOnP] at h
  simpa using (of_mem_splitOnP h hsep).2

/-- **The pieces of a text are what splitting it returns**, and nothing else is. -/
theorem pieces_iff {sep : Char} {text : Fragment} {pieces : List Fragment} :
    Pieces sep text pieces ↔ text.splitOn sep = pieces := by
  constructor
  · rintro ⟨hne, hsep, rfl⟩
    exact List.splitOn_intercalate sep hsep hne
  · rintro rfl
    exact ⟨List.splitOn_ne_nil sep text, fun _ => sep_not_mem_of_mem_splitOn,
      List.intercalate_splitOn sep⟩

/-- What stands in a piece of a text stands in the text. -/
theorem Pieces.mem_of_mem {sep c : Char} {text piece : Fragment} {pieces : List Fragment}
    (h : Pieces sep text pieces) (hpiece : piece ∈ pieces) (hc : c ∈ piece) : c ∈ text := by
  rw [← pieces_iff.mp h, List.splitOn_eq_splitOnP] at hpiece
  exact (of_mem_splitOnP hpiece hc).1

/-- The pieces of a text in another order are the pieces of another text. -/
theorem Pieces.of_perm {sep : Char} {text : Fragment} {pieces permuted : List Fragment}
    (h : Pieces sep text pieces) (hperm : pieces.Perm permuted) :
    Pieces sep ([sep].intercalate permuted) permuted := by
  refine ⟨?_, ?_, rfl⟩
  · rintro rfl
    exact h.ne_nil (List.perm_nil.mp hperm)
  · intro piece hpiece
    exact h.sep_not_mem piece (hperm.mem_iff.mpr hpiece)

/-- So are they with another piece for one of them, if there is no separator in it. -/
theorem Pieces.replace {sep : Char} {text piece other : Fragment} {front back : List Fragment}
    (h : Pieces sep text (front ++ piece :: back)) (hother : sep ∉ other) :
    Pieces sep ([sep].intercalate (front ++ other :: back)) (front ++ other :: back) := by
  have hsep := h.sep_not_mem
  rw [List.forall_mem_append, List.forall_mem_cons] at hsep
  refine ⟨by simp, ?_, rfl⟩
  exact List.forall_mem_append.mpr ⟨hsep.1, List.forall_mem_cons.mpr ⟨hother, hsep.2.2⟩⟩

/-- A text is one piece when the separator does not occur in it. -/
theorem splitOn_eq_singleton_iff {sep : Char} {text piece : Fragment} :
    text.splitOn sep = [piece] ↔ text = piece ∧ sep ∉ piece := by
  rw [← pieces_iff]
  constructor
  · rintro ⟨-, hsep, hjoin⟩
    rw [List.intercalate_singleton] at hjoin
    exact ⟨hjoin.symm, hsep piece (List.mem_singleton.mpr rfl)⟩
  · rintro ⟨rfl, hsep⟩
    exact ⟨List.cons_ne_nil _ _, by simpa using hsep, List.intercalate_singleton⟩

/-- A text is two pieces when the separator occurs in it once, between them. -/
theorem splitOn_eq_pair_iff {sep : Char} {text left right : Fragment} :
    text.splitOn sep = [left, right] ↔
      text = left ++ sep :: right ∧ sep ∉ left ∧ sep ∉ right := by
  have hjoin : [sep].intercalate [left, right] = left ++ sep :: right := by
    rw [List.intercalate_cons_cons, List.intercalate_singleton, List.append_assoc,
      List.singleton_append]
  rw [← pieces_iff]
  constructor
  · rintro ⟨-, hsep, h⟩
    exact ⟨h.symm.trans hjoin, hsep left (by simp), hsep right (by simp)⟩
  · rintro ⟨rfl, hleft, hright⟩
    refine ⟨List.cons_ne_nil _ _, ?_, hjoin⟩
    intro piece hpiece
    rcases List.mem_cons.mp hpiece with rfl | hpiece
    · exact hleft
    · rw [List.mem_singleton.mp hpiece]
      exact hright

/-- What holds of texts without a separator, and of such a text in front of a separator whenever it
holds of the text behind it, holds of every text. -/
theorem cut_induction {P : Fragment → Prop} {sep : Char} (piece : ∀ text, sep ∉ text → P text)
    (cut : ∀ text rest, sep ∉ text → P rest → P (text ++ sep :: rest)) (text : Fragment) :
    P text := by
  induction hlength : text.length using Nat.strongRecOn generalizing text with
  | _ n ih =>
    by_cases hsep : sep ∈ text
    · obtain ⟨front, rest, rfl, hfront⟩ := List.eq_append_cons_of_mem hsep
      apply cut front rest hfront
      apply ih rest.length _ rest rfl
      rw [← hlength, List.length_append, List.length_cons]
      omega
    · exact piece text hsep

end CronSchedule
