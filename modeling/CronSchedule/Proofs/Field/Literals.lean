import CronSchedule.Proofs.Field.Grammar
import CronSchedule.Proofs.Text.Digits

/-!
# What a number selects

* `ValueWord word` — a word that stands in a field as one value: no blanks around it, no separator
  in it, no wildcard. **It selects the value it is read as** (`Field.select_of_valueWord`).
* `decimal zeros k` — the decimal digits of a number behind any number of zeros. They are read as
  the number if it fits in a signed 64-bit word, with and without a minus sign in front
  (`readInteger?_decimal`, `readInteger?_minus_decimal`).

Main statement: **a number selects itself inside the bound of its field, and behind a minus sign
what lies that far below the greatest value** (`Field.select_decimal`). Two kinds of literals are no
such numbers: a zero behind a minus sign is the number zero and counts down from nothing, and digits
that do not fit in the word are looked up as a name (`Field.select_minus_zero_ne`).
-/

namespace CronSchedule

/-! ### Words that are values -/

/-- A word that stands in a field as one value. -/
structure ValueWord (word : Fragment) : Prop where
  /-- There is a character. -/
  ne_nil : word ≠ []
  /-- There are no blanks at the ends. -/
  bare : Bare word
  /-- It is one token. -/
  comma_not_mem : ',' ∉ word
  /-- There is no step. -/
  slash_not_mem : '/' ∉ word
  /-- It is one segment. -/
  dash_not_mem_tail : '-' ∉ word.tail
  /-- It is no wildcard. -/
  not_wildcard : ¬Field.IsWildcard word

/-- A word without blanks and marks, and without a dash behind its first character, can stand as a
value. -/
theorem valueWord_of_marks {word : Fragment} (hne : word ≠ [])
    (hblank : ∀ c ∈ word, isBlank c = false) (hmark : ∀ mark ∈ [',', '/', '*', '?'], mark ∉ word)
    (hdash : '-' ∉ word.tail) : ValueWord word := by
  refine ⟨hne, bare_of_no_blank hblank, hmark ',' (by simp), hmark '/' (by simp), hdash, ?_⟩
  rintro (rfl | rfl)
  · exact hmark '*' (by simp) (by simp)
  · exact hmark '?' (by simp) (by simp)

/-- What can begin a numeral is not blank. -/
theorem isBlank_of_beginsNumeral {c : Char} (h : Field.beginsNumeral c = true) :
    isBlank c = false := by
  simp only [Field.beginsNumeral, Bool.or_eq_true, decide_eq_true_eq] at h
  rcases h with (rfl | rfl) | h
  · decide
  · decide
  · exact isBlank_of_isDigit h

/-- A word of digits and signs can stand as a value when no dash is behind its first character. -/
theorem valueWord_of_beginsNumeral {word : Fragment} (hne : word ≠ [])
    (h : ∀ c ∈ word, Field.beginsNumeral c = true) (hdash : '-' ∉ word.tail) : ValueWord word := by
  have hnone : ∀ mark ∈ [',', '/', '*', '?'], ¬Field.beginsNumeral mark = true := by
    simp [Field.beginsNumeral]
  apply valueWord_of_marks hne (fun c hc => isBlank_of_beginsNumeral (h c hc)) _ hdash
  exact fun mark hmark hmem => hnone mark hmark (h mark hmem)

/-- What stands in a literal can begin one. -/
theorem beginsNumeral_of_mem {word : Fragment} {raw : Int} (h : readInteger? word = some raw)
    {c : Char} (hc : c ∈ word) : Field.beginsNumeral c = true := by
  obtain ⟨first, rest, rfl, hfirst⟩ := Field.head_of_readInteger? h
  rcases List.mem_cons.mp hc with rfl | hrest
  · exact hfirst
  · rw [Field.beginsNumeral, isDigit_of_mem_tail h hrest, Bool.or_true]

/-- So a literal can. -/
theorem valueWord_of_readInteger? {word : Fragment} {raw : Int} (h : readInteger? word = some raw) :
    ValueWord word := by
  obtain ⟨c, rest, hword, -⟩ := Field.head_of_readInteger? h
  apply valueWord_of_beginsNumeral (by simp [hword])
  · exact fun d hd => beginsNumeral_of_mem h hd
  · exact dash_not_mem_tail_of_readInteger? h

namespace Field

variable {f : Field} {word : Fragment}

/-- A word that is a value is read as that value, or as the start of a stepped sequence. -/
theorem readRange_of_valueWord (h : ValueWord word) (token : Fragment) (step : Option Nat) :
    Term.readRange f token word step =
      match step with
      | none => .value <$> f.readValue token word
      | some step => (.valueBy · step) <$> f.readStart token word := by
  cases step <;>
    simp only [Term.readRange, trim_of_bare h.bare, if_neg h.ne_nil, if_neg h.not_wildcard,
      dashSplit_of_segment h.dash_not_mem_tail]

/-- In a field it is that value alone. -/
theorem readTerms_of_valueWord (h : ValueWord word) :
    f.readTerms word = (fun v => [.value v]) <$> f.readValue word word := by
  have htrim : trim word = word := trim_of_bare h.bare
  have htoken : f.readToken word word = .value <$> f.readValue word word := by
    rw [readToken, htrim, if_neg h.ne_nil, Term.read,
      splitOn_eq_singleton_iff.mpr ⟨rfl, h.slash_not_mem⟩]
    exact readRange_of_valueWord h word none
  rw [readTerms, htrim, if_neg h.ne_nil, splitOn_eq_singleton_iff.mpr ⟨rfl, h.comma_not_mem⟩,
    List.mapM_cons, List.mapM_nil, htoken]
  cases f.readValue word word with
  | error e => rfl
  | ok v => rfl

/-- **A word that is a value selects that value**, or is refused as it is. -/
theorem select_of_valueWord (h : ValueWord word) :
    f.select word = (fun v => .listed [v]) <$> f.readValue word word := by
  rw [select, readTerms_of_valueWord h, Functor.map_map]
  congr 1

/-- A literal selects the value its number resolves to. -/
theorem select_of_readInteger? (h : ValueWord word) {raw : Int} (hraw : readInteger? word = some raw) :
    f.select word = (fun v => .listed [v]) <$> f.resolveValue raw := by
  rw [select_of_valueWord h, readValue, trim_of_bare h.bare, if_neg h.ne_nil, hraw]

/-- A word that begins like a literal and is none is refused as a name. -/
theorem select_of_beginsNumeral {c : Char} {rest : Fragment} (h : ValueWord (c :: rest))
    (hc : beginsNumeral c = true) (hnone : readInteger? (c :: rest) = none) :
    f.select (c :: rest) = .error (.unknownAlias f (c :: rest)) := by
  rw [select_of_valueWord h, readValue, trim_of_bare h.bare, if_neg h.ne_nil, hnone,
    resolveAlias_of_beginsNumeral hc]
  rfl

end Field

/-! ### Decimal literals -/

/-- The decimal digits of a number behind zeros. -/
def decimal (zeros k : Nat) : Fragment := List.replicate zeros '0' ++ Nat.toDigits 10 k

/-- They are digits. -/
theorem isDigit_of_mem_decimal {zeros k : Nat} {c : Char} (h : c ∈ decimal zeros k) :
    c.isDigit = true := by
  rcases List.mem_append.mp h with h | h
  · rw [List.eq_of_mem_replicate h]
    decide
  · exact isDigit_of_mem_toDigits h

/-- There is a first one. -/
theorem exists_decimal_eq_cons (zeros k : Nat) :
    ∃ c rest, decimal zeros k = c :: rest ∧ c.isDigit = true := by
  obtain ⟨c, rest, h⟩ := List.exists_cons_of_ne_nil
    (List.append_ne_nil_of_right_ne_nil (List.replicate zeros '0') (Nat.toDigits_ne_nil (n := k)))
  have hmem : c ∈ decimal zeros k := by
    rw [decimal, h]
    exact List.mem_cons_self
  exact ⟨c, rest, h, isDigit_of_mem_decimal hmem⟩

/-- The zeros in front do not count. -/
theorem readNatural?_decimal (zeros k : Nat) : readNatural? (decimal zeros k) = some k := by
  induction zeros with
  | zero => exact readNatural?_toDigits k
  | succ zeros ih =>
    obtain ⟨c, rest, hne, -⟩ := exists_decimal_eq_cons zeros k
    have hcons : decimal (zeros + 1) k = '0' :: decimal zeros k := rfl
    rw [hcons, readNatural?_zero_cons (hne ▸ List.cons_ne_nil c rest), ih]

/-- **Decimal digits are read as their number**, if it fits in a signed 64-bit word. -/
theorem readInteger?_decimal (zeros k : Nat) :
    readInteger? (decimal zeros k) = if k ≤ 9223372036854775807 then some (k : Int) else none := by
  rw [readInteger?, readSigned?_of_digits fun _ => isDigit_of_mem_decimal, readNatural?_decimal,
    Option.map_some, Option.filter_some]
  refine if_congr ?_ rfl rfl
  rw [fitsWord, decide_eq_true_eq]
  omega

/-- **Behind a minus sign they are read as its opposite**, if that fits. -/
theorem readInteger?_minus_decimal (zeros k : Nat) :
    readInteger? ('-' :: decimal zeros k) =
      if k ≤ 9223372036854775808 then some (-(k : Int)) else none := by
  have hsigned : readSigned? ('-' :: decimal zeros k) = some (-(k : Int)) := by
    rw [readSigned?, readNatural?_decimal]
    rfl
  rw [readInteger?, hsigned, Option.filter_some]
  refine if_congr ?_ rfl rfl
  rw [fitsWord, decide_eq_true_eq]
  omega

/-- A word that begins with a digit or a minus sign, with nothing but digits behind, can stand as a
value. -/
theorem valueWord_of_digits {c : Char} {rest : Fragment} (hc : c = '-' ∨ c.isDigit = true)
    (hrest : ∀ d ∈ rest, d.isDigit = true) : ValueWord (c :: rest) := by
  apply valueWord_of_beginsNumeral (List.cons_ne_nil _ _)
  · intro d hd
    rcases List.mem_cons.mp hd with rfl | hd
    · rcases hc with rfl | hc
      · decide
      · rw [Field.beginsNumeral, hc, Bool.or_true]
    · rw [Field.beginsNumeral, hrest d hd, Bool.or_true]
  · exact fun hdash => isDigit_ne_mark (hrest '-' hdash) (by decide) rfl

/-- Decimal digits can stand as a value. -/
theorem valueWord_decimal (zeros k : Nat) : ValueWord (decimal zeros k) := by
  obtain ⟨c, rest, hcons, hc⟩ := exists_decimal_eq_cons zeros k
  rw [hcons]
  refine valueWord_of_digits (.inr hc) fun d hd => ?_
  exact isDigit_of_mem_decimal (hcons ▸ List.mem_cons_of_mem c hd)

/-- So can digits behind a minus sign. -/
theorem valueWord_minus_decimal (zeros k : Nat) : ValueWord ('-' :: decimal zeros k) :=
  valueWord_of_digits (.inl rfl) fun _ => isDigit_of_mem_decimal

namespace Field

/-! ### Resolving a number -/

/-- A number that is not negative resolves to itself, with day 7 of the week as day 0. -/
theorem resolveValue_natCast (f : Field) (k : Nat) :
    f.resolveValue k =
      if f.lo ≤ k ∧ k ≤ f.hi then .ok (k : Int)
      else if f = .dayOfWeek ∧ k = 7 then .ok 0
      else .error (.outOfRange f k) := by
  rw [resolveValue, if_neg (by omega)]
  split
  · next hin => exact checkValue_of_mem hin
  · next hout =>
    split
    · next hseven =>
      obtain ⟨rfl, rfl⟩ := hseven
      rfl
    · next hseven =>
      have hfold : f.fold k = k := if_neg fun h => hseven ⟨h.1, by omega⟩
      rw [checkValue, hfold, if_pos (by omega)]

/-- A negative number resolves to what lies that far below the greatest value. -/
theorem resolveValue_neg_natCast (f : Field) {k : Nat} (hk : 1 ≤ k) :
    f.resolveValue (-k) =
      if f.lo ≤ f.hi - k then .ok (f.hi - k) else .error (.outOfRange f (f.hi - k)) := by
  rw [resolveValue, if_pos (by omega), show -(k : Int) + f.hi = f.hi - k by omega]
  split
  · next hlo => exact checkValue_of_mem ⟨hlo, by omega⟩
  · next hlo => rw [checkValue, fold_of_le_hi (by omega), if_pos (by omega)]

/-! ### Selecting a number -/

/-- **What a number selects.** Written in decimal, with any zeros in front, a number selects itself
inside the bound, and 7 as a day of the week selects day 0; any other number is out of range. Behind
a minus sign it selects what lies that far below the greatest value, or is out of range; but a zero
is the same with and without the sign. Digits that do not fit in a signed 64-bit word are no
literal, and are refused as an unknown name. -/
theorem select_decimal (f : Field) (zeros k : Nat) :
    (f.select (decimal zeros k) =
      if f.lo ≤ k ∧ k ≤ f.hi then .ok (.listed [(k : Int)])
      else if f = .dayOfWeek ∧ k = 7 then .ok (.listed [0])
      else if k ≤ 9223372036854775807 then .error (.outOfRange f k)
      else .error (.unknownAlias f (decimal zeros k))) ∧
    f.select ('-' :: decimal zeros k) =
      if k = 0 then f.select (decimal zeros 0)
      else if f.lo ≤ f.hi - k then .ok (.listed [f.hi - k])
      else if k ≤ 9223372036854775808 then .error (.outOfRange f (f.hi - k))
      else .error (.unknownAlias f ('-' :: decimal zeros k)) := by
  have hbounds : 0 ≤ f.lo ∧ f.hi ≤ 2099 := by cases f <;> decide
  have hzero : readInteger? (decimal zeros 0) = some 0 := readInteger?_decimal zeros 0
  constructor
  · by_cases hfits : k ≤ 9223372036854775807
    · have hraw : readInteger? (decimal zeros k) = some (k : Int) := by
        rw [readInteger?_decimal, if_pos hfits]
      rw [select_of_readInteger? (valueWord_decimal zeros k) hraw, resolveValue_natCast,
        if_pos hfits]
      split
      · rfl
      · split <;> rfl
    · obtain ⟨c, rest, hcons, hc⟩ := exists_decimal_eq_cons zeros k
      have hnone : readInteger? (decimal zeros k) = none := by
        rw [readInteger?_decimal, if_neg hfits]
      have hword := valueWord_decimal zeros k
      rw [if_neg (by omega), if_neg (by omega), if_neg hfits]
      rw [hcons] at hnone hword ⊢
      exact select_of_beginsNumeral hword (by rw [beginsNumeral, hc, Bool.or_true]) hnone
  · have hword := valueWord_minus_decimal zeros k
    by_cases hk : k = 0
    · subst hk
      rw [if_pos rfl, select_of_readInteger? hword (readInteger?_minus_decimal zeros 0),
        select_of_readInteger? (valueWord_decimal zeros 0) hzero]
      rfl
    · rw [if_neg hk]
      by_cases hfits : k ≤ 9223372036854775808
      · have hraw : readInteger? ('-' :: decimal zeros k) = some (-(k : Int)) := by
          rw [readInteger?_minus_decimal, if_pos hfits]
        rw [select_of_readInteger? hword hraw, resolveValue_neg_natCast f (by omega),
          if_pos hfits]
        split <;> rfl
      · have hnone : readInteger? ('-' :: decimal zeros k) = none := by
          rw [readInteger?_minus_decimal, if_neg hfits]
        rw [if_neg (by omega), if_neg hfits]
        exact select_of_beginsNumeral hword (by decide) hnone

/-- A zero behind a minus sign does not select the greatest minute, though that is in the bound; and
a number past the signed 64-bit word is not refused as out of range, though it is no minute. -/
theorem select_minus_zero_ne :
    (minute.lo ≤ minute.hi - (0 : Nat) ∧
      minute.select ('-' :: decimal 0 0) = .ok (.listed [0]) ∧
      minute.select ('-' :: decimal 0 0) ≠ .ok (.listed [minute.hi - (0 : Nat)])) ∧
    ¬((9223372036854775808 : Nat) : Int) ≤ minute.hi ∧
      ∀ v, minute.select (decimal 0 9223372036854775808) ≠ .error (.outOfRange minute v) := by
  have hlong : minute.select (decimal 0 9223372036854775808) =
      .error (.unknownAlias minute (decimal 0 9223372036854775808)) := by
    decide +kernel
  refine ⟨⟨by decide, by decide +kernel, by decide +kernel⟩, by decide, ?_⟩
  rintro v hv
  rw [hlong] at hv
  exact nomatch hv

end Field

end CronSchedule
