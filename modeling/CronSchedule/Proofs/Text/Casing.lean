import CronSchedule.Settings
import Mathlib.Data.List.Basic
import Mathlib.Data.Nat.Bitwise

/-!
# Upper case is reached in one step

A case mapping is a table, so that mapping twice comes to the same as mapping once is a property of
the table: what it leads to, it does not list.

* `listed`, `images` — the code points a mapping lists, and those it leads to.
* `Conclusive` — no code point is both.
* `bits` — code points as the bits of a number: two lists of them are held against each other in
  one operation, where a comparison of all pairs would be long.

Main statement: **upper case stays as it is in upper case** (`upperProfile_upperProfile`).
-/

namespace CronSchedule

/-! ### The code points of a table -/

/-- The code points of a run. -/
def CaseRun.codePoints (r : CaseRun) : List Nat :=
  (List.range ((r.stop - r.start) / r.stride + 1)).map fun k => r.start + r.stride * k

/-- A run covers its code points only. -/
theorem CaseRun.mem_codePoints_of_covers {r : CaseRun} {n : Nat} (h : r.covers n = true) :
    n ∈ r.codePoints := by
  simp only [covers, Bool.and_eq_true, decide_eq_true_iff, beq_iff_eq] at h
  obtain ⟨⟨hstart, hstop⟩, hstride⟩ := h
  refine List.mem_map.mpr ⟨(n - r.start) / r.stride, List.mem_range.mpr ?_, ?_⟩
  · exact Nat.lt_succ_of_le (Nat.div_le_div_right (by omega))
  · have := Nat.mul_div_cancel' (Nat.dvd_of_mod_eq_zero hstride)
    omega

section

variable (runs : List CaseRun) (expansions : List (Nat × List Nat))

/-- The code points that a mapping lists. -/
def listed : List Nat := expansions.map Prod.fst ++ runs.flatMap CaseRun.codePoints

/-- The code points that a mapping leads to. -/
def images : List Nat :=
  expansions.flatMap Prod.snd ++
    runs.flatMap fun r => r.codePoints.map fun (n : Nat) => ((n : Int) + r.shift).toNat

/-- A mapping lists nothing that it leads to. -/
structure Conclusive : Prop where
  /-- The mapping leads to characters. -/
  valid : ∀ n ∈ images runs expansions, n.isValidChar
  /-- It leaves them alone. -/
  disjoint : (images runs expansions).Disjoint (listed runs expansions)

end

/-! ### Mapping twice -/

section

variable {runs : List CaseRun} {expansions : List (Nat × List Nat)}

/-- What a mapping does not list, it leaves alone. -/
theorem mapCodePoint_of_not_mem_listed {n : Nat} (h : n ∉ listed runs expansions) :
    mapCodePoint runs expansions n = [n] := by
  rw [listed, List.mem_append, not_or] at h
  have hlookup : expansions.lookup n = none := by
    refine List.lookup_eq_none_iff.mpr fun e he => bne_iff_ne.mpr ?_
    rintro rfl
    exact h.1 (List.mem_map_of_mem he)
  have hfind : runs.find? (·.covers n) = none := by
    refine List.find?_eq_none.mpr fun r hr hcovers => h.2 ?_
    exact List.mem_flatMap.mpr ⟨r, hr, r.mem_codePoints_of_covers hcovers⟩
  rw [mapCodePoint, hlookup, hfind]

/-- A mapping leaves a code point alone, or leads to its images. -/
theorem mapCodePoint_cases (n : Nat) :
    mapCodePoint runs expansions n = [n] ∨
      ∀ m ∈ mapCodePoint runs expansions n, m ∈ images runs expansions := by
  unfold mapCodePoint
  split
  · next image himage =>
    obtain ⟨before, after, hsplit, -⟩ := List.lookup_eq_some_iff.mp himage
    refine .inr fun m hm => List.mem_append_left _ (List.mem_flatMap.mpr ⟨(n, image), ?_, hm⟩)
    rw [hsplit]
    exact List.mem_append_right _ (List.mem_cons_self ..)
  · split
    · next r hr =>
      have hcovers : r.covers n = true := List.find?_some (p := (CaseRun.covers · n)) hr
      refine .inr fun m hm => List.mem_append_right _ (List.mem_flatMap.mpr
        ⟨r, List.mem_of_find?_eq_some hr, ?_⟩)
      rw [List.mem_singleton.mp hm]
      exact List.mem_map_of_mem (r.mem_codePoints_of_covers hcovers)
    · exact .inl rfl

/-- A code point of a character is the code point of its character. -/
theorem toNat_charOfNat {n : Nat} (h : n.isValidChar) : (Char.ofNat n).toNat = n := by
  rw [Char.ofNat, dif_pos h]
  rfl

/-- A conclusive mapping leaves alone what it gives for a character. -/
theorem Conclusive.map_of_mem (h : Conclusive runs expansions) {c : Char} {m : Nat}
    (hm : m ∈ mapCodePoint runs expansions c.toNat) :
    (mapCodePoint runs expansions (Char.ofNat m).toNat).map Char.ofNat = [Char.ofNat m] := by
  rcases @mapCodePoint_cases runs expansions c.toNat with hself | himages
  · rw [hself, List.mem_singleton] at hm
    rw [hm, Char.ofNat_toNat, hself, List.map_singleton, Char.ofNat_toNat]
  · have himage := himages m hm
    rw [toNat_charOfNat (h.valid m himage), mapCodePoint_of_not_mem_listed (h.disjoint himage),
      List.map_singleton]

/-- A conclusive mapping is over in one step. -/
theorem Conclusive.mapCase_mapCase (h : Conclusive runs expansions) (text : Fragment) :
    mapCase runs expansions (mapCase runs expansions text) = mapCase runs expansions text := by
  unfold mapCase
  rw [List.flatMap_assoc]
  refine List.flatMap_congr fun c _ => ?_
  rw [List.flatMap_map, List.map_eq_flatMap]
  exact List.flatMap_congr fun m hm => h.map_of_mem hm

end

/-! ### Checking a table -/

/-- Code points as the bits of a number. -/
def bits (l : List Nat) : Nat := l.foldr (fun n number => number ||| 1 <<< n) 0

/-- The bits of code points are these code points. -/
theorem testBit_bits {l : List Nat} {n : Nat} : (bits l).testBit n = true ↔ n ∈ l := by
  induction l with
  | nil => simp [bits]
  | cons m l ih =>
    have hcons : bits (m :: l) = bits l ||| 1 <<< m := rfl
    rw [hcons, Nat.testBit_or, Bool.or_eq_true, ih, Nat.shiftLeft_eq, Nat.one_mul,
      Nat.testBit_two_pow, decide_eq_true_iff, List.mem_cons, or_comm, eq_comm]

/-- Lists whose bits have nothing in common have nothing in common. -/
theorem disjoint_of_bits {l l' : List Nat} (h : bits l &&& bits l' = 0) : l.Disjoint l' := by
  intro n hn hn'
  have hboth : (bits l &&& bits l').testBit n = true := by
    rw [Nat.testBit_and, testBit_bits.mpr hn, testBit_bits.mpr hn', Bool.and_self]
  rw [h, Nat.zero_testBit] at hboth
  exact nomatch hboth

/-! ### Upper case -/

/-- The upper-case mapping lists nothing that it leads to. -/
theorem conclusive_upper : Conclusive upperRuns upperExpansions := by
  refine ⟨?_, disjoint_of_bits ?_⟩
  · decide +kernel
  · decide +kernel

/-- **Upper case stays as it is** in upper case. -/
theorem upperProfile_upperProfile (profile : String) :
    upperProfile (upperProfile profile) = upperProfile profile := by
  unfold upperProfile
  rw [String.toList_ofList, upperCase, upperCase, conclusive_upper.mapCase_mapCase]

end CronSchedule
