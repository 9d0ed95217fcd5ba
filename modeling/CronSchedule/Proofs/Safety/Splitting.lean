import CronSchedule.Expression
import CronSchedule.Proofs.Safety.Operations
import CronSchedule.Proofs.Text.Segments

/-!
# Cutting texts without faults

* `Checked.slice` — the text between two of its bytes in UTF-8; between two bytes of one character
  there is nothing to cut.
* `Checked.splitRange` — the segments of a range, found byte by byte. **It cuts between characters
  only, and returns what the dash split returns** (`Checked.splitRange_eq_ok`): the byte of a dash
  stands in no other character (`Checked.dashByte_mem_iff`).
* `Checked.fieldWords` — the fields of an alternative, taken from its words by their index
  (`Checked.runs_fieldWords`).
-/

namespace CronSchedule

namespace Checked

/-! ### Bytes -/

/-- The bytes of a text in UTF-8. -/
def bytes (text : Fragment) : List UInt8 := text.flatMap String.utf8EncodeChar

/-- The byte of a dash. -/
def dashByte : UInt8 := 45

/-- The bytes of two texts. -/
theorem bytes_append (text rest : Fragment) : bytes (text ++ rest) = bytes text ++ bytes rest :=
  List.flatMap_append

/-- The bytes of a character and a text. -/
theorem bytes_cons (c : Char) (text : Fragment) :
    bytes (c :: text) = String.utf8EncodeChar c ++ bytes text :=
  List.flatMap_cons

/-- The byte of a dash is the byte of its number alone. -/
theorem dashByte_eq_ofNat_iff {n : Nat} (h : n < 256) : dashByte = UInt8.ofNat n ↔ n = 45 := by
  rw [← UInt8.toNat_inj, UInt8.toNat_ofNat', Nat.mod_eq_of_lt h]
  exact eq_comm

/-- The byte of a dash stands in no other character. -/
theorem dashByte_mem_iff {c : Char} : dashByte ∈ String.utf8EncodeChar c ↔ c = '-' := by
  have hsize : c.val.toNat < 1114112 := by
    rcases c.valid with h | ⟨-, h⟩
    · exact Nat.lt_trans h (by decide)
    · exact h
  have hdash : c.val.toNat = 45 ↔ c = '-' := by
    rw [Char.ext_iff, ← UInt32.toNat_inj]
    rfl
  -- past the first 128 characters every byte is at least 128
  simp only [String.utf8EncodeChar]
  split
  · rw [List.mem_singleton, dashByte_eq_ofNat_iff (by omega), hdash]
  · have hne : c ≠ '-' := fun h => absurd (hdash.mpr h) (by omega)
    simp only [hne, iff_false]
    split
    · simp only [List.mem_cons, List.not_mem_nil, or_false, not_or]
      refine ⟨?_, ?_⟩ <;>
        exact (dashByte_eq_ofNat_iff (by omega)).not.mpr (by omega)
    · split
      · simp only [List.mem_cons, List.not_mem_nil, or_false, not_or]
        refine ⟨?_, ?_, ?_⟩ <;>
          exact (dashByte_eq_ofNat_iff (by omega)).not.mpr (by omega)
      · simp only [List.mem_cons, List.not_mem_nil, or_false, not_or]
        refine ⟨?_, ?_, ?_, ?_⟩ <;>
          exact (dashByte_eq_ofNat_iff (by omega)).not.mpr (by omega)

/-! ### Slices -/

/-- A text cut behind a number of bytes, if that is between two of its characters or at an end. -/
def cutAt? (n : Nat) : Fragment → Option (Fragment × Fragment)
  | [] => if n = 0 then some ([], []) else none
  | c :: text =>
    if n = 0 then some ([], c :: text)
    else if c.utf8Size ≤ n then
      (cutAt? (n - c.utf8Size) text).map fun cut => (c :: cut.1, cut.2)
    else none

/-- The text from one of its bytes to another. -/
def slice (text : Fragment) (start stop : Nat) : Except Fault Fragment :=
  match cutAt? stop text with
  | some (front, _) =>
    match cutAt? start front with
    | some (_, piece) => .ok piece
    | none => .error .slice
  | none => .error .slice

/-- A text is cut behind the bytes of its front. -/
theorem cutAt?_append (front behind : Fragment) :
    cutAt? (bytes front).length (front ++ behind) = some (front, behind) := by
  induction front with
  | nil => cases behind <;> rfl
  | cons c front ih =>
    have hlength : (bytes (c :: front)).length = c.utf8Size + (bytes front).length := by
      rw [bytes_cons, List.length_append, String.length_utf8EncodeChar]
    have hpos := c.utf8Size_pos
    rw [hlength, List.cons_append, cutAt?, if_neg (by omega), if_pos (by omega),
      Nat.add_sub_cancel_left, ih]
    rfl

/-- A piece of a text is the slice between its ends. -/
theorem slice_eq_ok (front piece behind : Fragment) :
    slice (front ++ (piece ++ behind)) (bytes front).length (bytes (front ++ piece)).length =
      .ok piece := by
  rw [← List.append_assoc, slice, cutAt?_append]
  simp only [cutAt?_append]

/-- A dash is cut from what stands beside it, and an umlaut is not cut. -/
example : slice "ä-b".toList 0 2 = .ok "ä".toList ∧ slice "ä-b".toList 3 4 = .ok "b".toList ∧
    slice "ä-b".toList 1 2 = .error .slice := by decide

/-! ### Splitting a range -/

/-- The segments of a text found in the bytes from one on, behind those that were found before; the
last of them begins at `start`. -/
def splitFrom (text : Fragment) (i start : Nat) (segments : List Fragment) :
    List UInt8 → Except Fault (List Fragment)
  | [] => do return segments ++ [← slice text start (bytes text).length]
  | byte :: rest =>
    if byte = dashByte ∧ start < i then do
      let segment ← slice text start i
      splitFrom text (i + 1) (i + 1) (segments ++ [segment]) rest
    else splitFrom text (i + 1) start segments rest

/-- The segments of a range, split at each dash that is not the first of its segment. -/
def splitRange (text : Fragment) : Except Fault (List Fragment) :=
  splitFrom text 0 0 [] (bytes text)

/-- Bytes that are no dashes are passed over. -/
theorem splitFrom_append {passed : List UInt8} (h : dashByte ∉ passed) (text : Fragment)
    (i start : Nat) (segments : List Fragment) (rest : List UInt8) :
    splitFrom text i start segments (passed ++ rest) =
      splitFrom text (i + passed.length) start segments rest := by
  induction passed generalizing i with
  | nil => rfl
  | cons byte passed ih =>
    rw [List.mem_cons, not_or] at h
    rw [List.cons_append, splitFrom, if_neg (fun hdash => h.1 hdash.1.symm), ih h.2,
      List.length_cons, Nat.add_right_comm, Nat.add_assoc]

/-- A character separates when it is a dash behind a segment that has begun, and else it is passed
over. -/
theorem splitFrom_bytes_cons (c : Char) (text : Fragment) (i start : Nat)
    (segments : List Fragment) (rest : Fragment) :
    splitFrom text i start segments (bytes (c :: rest)) =
      if c = '-' ∧ start < i then do
        let segment ← slice text start i
        splitFrom text (i + 1) (i + 1) (segments ++ [segment]) (bytes rest)
      else splitFrom text (i + c.utf8Size) start segments (bytes rest) := by
  by_cases hdash : c = '-'
  · subst hdash
    have hbytes : bytes ('-' :: rest) = dashByte :: bytes rest := bytes_cons '-' rest
    rw [hbytes, splitFrom]
    simp only [true_and]
    rfl
  · rw [if_neg fun h => hdash h.1, bytes_cons, splitFrom_append (mt dashByte_mem_iff.mp hdash),
      String.length_utf8EncodeChar]

/-- The bytes of a text and a character behind it. -/
theorem length_bytes_concat (text : Fragment) (c : Char) :
    (bytes (text ++ [c])).length = (bytes text).length + c.utf8Size := by
  rw [bytes_append, List.length_append, bytes_cons, List.length_append,
    String.length_utf8EncodeChar]
  rfl

/-- A segment has begun when it has bytes. -/
theorem length_bytes_lt_iff {front segment : Fragment} :
    (bytes front).length < (bytes (front ++ segment)).length ↔ segment.isEmpty = false := by
  rw [bytes_append, List.length_append]
  cases segment with
  | nil => simp [bytes]
  | cons c segment =>
    have := c.utf8Size_pos
    rw [bytes_cons, List.length_append, String.length_utf8EncodeChar]
    simp only [List.isEmpty_cons, iff_true]
    omega

/-- What is left of a text is split as the dash split goes on, where `segment` is what the last
segment has so far. -/
theorem splitFrom_eq_ok (front segment rest : Fragment) (segments : List Fragment) :
    splitFrom (front ++ (segment ++ rest)) (bytes (front ++ segment)).length (bytes front).length
        segments (bytes rest) =
      .ok (segments ++ (dashSegments segment.isEmpty rest).modifyHead (segment ++ ·)) := by
  induction rest generalizing front segment segments with
  | nil =>
    have hslice := slice_eq_ok front segment []
    rw [List.append_nil] at hslice
    rw [List.append_nil]
    show (slice (front ++ segment) _ _ >>= fun last => pure (segments ++ [last])) = _
    rw [bind_eq_ok hslice, dashSegments, List.modifyHead_cons, List.append_nil]
    rfl
  | cons c rest ih =>
    simp only [splitFrom_bytes_cons, length_bytes_lt_iff, dashSegments]
    split
    · next hdash =>
      -- the segment ends here, and the next one begins behind the dash
      obtain ⟨rfl, -⟩ := hdash
      have hcut : front ++ (segment ++ '-' :: rest) = front ++ segment ++ ['-'] ++ ([] ++ rest) := by
        simp
      have hend : (bytes (front ++ segment ++ ['-'])).length = (bytes (front ++ segment)).length + 1 :=
        length_bytes_concat (front ++ segment) '-'
      have hnext := ih (front ++ segment ++ ['-']) [] (segments ++ [segment])
      rw [List.append_nil, hend] at hnext
      rw [bind_eq_ok (slice_eq_ok front segment ('-' :: rest)), hcut]
      obtain ⟨first, others, hsplit⟩ :=
        List.exists_cons_of_ne_nil (dashSegments_ne_nil true rest)
      rw [List.isEmpty_nil, hsplit] at hnext
      rw [hsplit]
      simpa using hnext
    · -- the segment goes on
      have hcut : front ++ (segment ++ c :: rest) = front ++ (segment ++ [c] ++ rest) := by simp
      have hend : (bytes (front ++ segment)).length + c.utf8Size =
          (bytes (front ++ (segment ++ [c]))).length := by
        rw [← List.append_assoc, length_bytes_concat]
      obtain ⟨first, others, hsplit⟩ :=
        List.exists_cons_of_ne_nil (dashSegments_ne_nil false rest)
      have hbegun : (segment ++ [c]).isEmpty = false := by simp
      rw [hcut, hend, ih, hbegun, hsplit]
      simp

/-- **A range is split without faults**, into the segments that the dash split returns. -/
theorem splitRange_eq_ok (text : Fragment) : splitRange text = .ok (dashSplit text) := by
  obtain ⟨first, others, hsplit⟩ := List.exists_cons_of_ne_nil (dashSegments_ne_nil true text)
  have h := splitFrom_eq_ok [] [] text []
  rw [List.isEmpty_nil, hsplit] at h
  rw [dashSplit, hsplit]
  exact h

/-! ### The fields of an alternative -/

/-- The seven fields of an alternative, with the defaults for those it leaves out. -/
def fieldWords (alternative : Fragment) : Checked (PerField Fragment) := do
  let parts := words alternative
  let offset ← match parts.length with
    | 5 => pure 0
    | 6 | 7 => pure 1
    | count => throw (.fieldCount alternative count)
  let second ← if offset = 1 then of (index parts 0) else pure ['0']
  let minute ← of (index parts offset)
  let hour ← of (index parts (offset + 1))
  let dayOfMonth ← of (index parts (offset + 2))
  let month ← of (index parts (offset + 3))
  let dayOfWeek ← of (index parts (offset + 4))
  return ⟨second, minute, hour, dayOfMonth, month, dayOfWeek, parts[6]?.getD ['*']⟩

/-- **The fields of an alternative are found without faults.** -/
theorem runs_fieldWords (alternative : Fragment) :
    Runs (fieldWords alternative) (CronSchedule.fieldWords alternative) := by
  rw [fieldWords, CronSchedule.fieldWords]
  rcases words alternative with
    _ | ⟨a, _ | ⟨b, _ | ⟨c, _ | ⟨d, _ | ⟨e, _ | ⟨g, _ | ⟨h, _ | ⟨i, rest⟩⟩⟩⟩⟩⟩⟩⟩ <;> rfl

end Checked

end CronSchedule
