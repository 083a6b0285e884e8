import Mathlib.Data.List.Induction
import StyleSieve.Css.Written
import StyleSieve.Proofs.Selector.Name
import StyleSieve.Proofs.Text.Digits
import StyleSieve.Proofs.Text.Trim

/-!
# Names that style sheets write

A style sheet writes every name in one spelling. Selectors read this spelling as the name again
as long as they admit its characters, and stop at the first character that they do not admit.

* `isSpelling_writtenName`: the escapes of a written name stand for the characters of the name.
* `readName_writtenName`: a written name is read up to its end.
* `stops_writtenName`: a name with other characters is read up to the first of them.
-/

namespace StyleSieve.Selector

open Text
open Css (writtenInName writtenAtStart writtenName)

variable {c d : Char} {name rest taken after : List Char}

/-- A character that may stand in the name of a selector, in some spelling. -/
def isWritable (c : Char) : Bool := c.toNat < 0x80 || isBeyondAscii c

/-! ## Characters -/

theorem toNat_lt_of_isAsciiLetter (h : isAsciiLetter c = true) : c.toNat < 0x80 := by
  simp only [isAsciiLetter, Char.le_def, UInt32.le_iff_toNat_le, Bool.or_eq_true,
    Bool.and_eq_true, decide_eq_true_eq] at h
  change (97 ≤ c.toNat ∧ c.toNat ≤ 122) ∨ (65 ≤ c.toNat ∧ c.toNat ≤ 90) at h
  omega

theorem isNameStart_css (h : isNameStart c = true) : Css.isNameStart c = true := by
  simp only [isNameStart, isBeyondAscii, Bool.or_eq_true, Bool.and_eq_true,
    decide_eq_true_eq] at h
  simp only [Css.isNameStart, Bool.or_eq_true, decide_eq_true_eq]
  rcases h with h | h
  · exact Or.inl h
  · exact Or.inr (by omega)

theorem isNamePart_css (h : isNamePart c = true) : Css.isNamePart c = true := by
  simp only [isNamePart, Bool.or_eq_true] at h
  simp only [Css.isNamePart, Bool.or_eq_true]
  rcases h with (h | h) | h
  · exact Or.inl (Or.inl (isNameStart_css h))
  · exact Or.inl (Or.inr h)
  · exact Or.inr h

/-- Among the characters that may be written, selectors and style sheets agree on those that
start a name. -/
theorem isNameStart_of_css (hWritable : isWritable c = true) (h : Css.isNameStart c = true) :
    isNameStart c = true := by
  simp only [isWritable, Bool.or_eq_true, decide_eq_true_eq] at hWritable
  simp only [Css.isNameStart, Bool.or_eq_true, decide_eq_true_eq] at h
  simp only [isNameStart, Bool.or_eq_true]
  rcases h with h | h
  · exact Or.inl h
  · exact Or.inr (hWritable.resolve_left (by omega))

theorem isNamePart_of_css (hWritable : isWritable c = true) (h : Css.isNamePart c = true) :
    isNamePart c = true := by
  simp only [Css.isNamePart, Bool.or_eq_true] at h
  simp only [isNamePart, Bool.or_eq_true]
  rcases h with (h | h) | h
  · exact Or.inl (Or.inl (isNameStart_of_css hWritable h))
  · exact Or.inl (Or.inr h)
  · exact Or.inr h

theorem letter_or_digit_of_isHexDigit (h : isHexDigit c = true) :
    isAsciiLetter c = true ∨ isAsciiDigit c = true := by
  have hLetter : (97 ≤ c.toNat ∧ c.toNat ≤ 102) ∨ (65 ≤ c.toNat ∧ c.toNat ≤ 70) →
      isAsciiLetter c = true := by
    intro hBounds
    simp only [isAsciiLetter, Char.le_def, UInt32.le_iff_toNat_le, Bool.or_eq_true,
      Bool.and_eq_true, decide_eq_true_eq]
    change (97 ≤ c.toNat ∧ c.toNat ≤ 122) ∨ (65 ≤ c.toNat ∧ c.toNat ≤ 90)
    omega
  simp only [isHexDigit, Char.le_def, UInt32.le_iff_toNat_le, Bool.or_eq_true, Bool.and_eq_true,
    decide_eq_true_eq, or_assoc] at h
  rcases h with h | h
  · exact Or.inr h
  · exact Or.inl (hLetter h)

theorem isHexDigit_isNamePart (h : isHexDigit c = true) : Css.isNamePart c = true := by
  rcases letter_or_digit_of_isHexDigit h with h | h <;> simp [Css.isNamePart, Css.isNameStart, h]

theorem isWritable_of_isNamePart (h : isNamePart c = true) : isWritable c = true := by
  simp only [isNamePart, isNameStart, Bool.or_eq_true, beq_iff_eq] at h
  simp only [isWritable, Bool.or_eq_true, decide_eq_true_eq]
  rcases h with (((hLetter | rfl) | hBeyond) | hDigit) | rfl
  · exact Or.inl (toNat_lt_of_isAsciiLetter hLetter)
  · exact Or.inl (by decide)
  · exact Or.inr hBeyond
  · have hDigits : ∀ c ∈ ['0', '1', '2', '3', '4', '5', '6', '7', '8', '9'], c.toNat < 0x80 := by
      decide
    exact Or.inl (hDigits c (mem_of_isAsciiDigit hDigit))
  · exact Or.inl (by decide)

/-! ## Written names -/

theorem isSpelling_hexLetter (d : Char) (hHex : isHexDigit d = true) :
    IsSpelling ['\\', d, ' '] [escapedChar (digitsValue 16 [d])] := by
  have hDigits : ∀ e ∈ [d], isHexDigit e = true := by simpa using hHex
  exact .hex hDigits (by simp) (by simp)

theorem isSpelling_writtenInName (h : isWritable c = true) : IsSpelling (writtenInName c) [c] := by
  unfold writtenInName
  split
  · rename_i hPart
    exact .part (isNamePart_of_css h hPart)
  split
  · rename_i hLine
    rw [beq_iff_eq.mp hLine]
    exact isSpelling_hexLetter 'A' (by decide)
  split
  · rename_i hLine
    rw [beq_iff_eq.mp hLine]
    exact isSpelling_hexLetter 'D' (by decide)
  split
  · rename_i hLine
    rw [beq_iff_eq.mp hLine]
    exact isSpelling_hexLetter 'C' (by decide)
  · rename_i hPart hFeed hReturn hForm
    refine .escape ?_ ?_
    · exact Bool.eq_false_iff.mpr fun hHex => hPart (isHexDigit_isNamePart hHex)
    · simp [isLineEnd, Bool.eq_false_iff.mpr hFeed, Bool.eq_false_iff.mpr hReturn,
        Bool.eq_false_iff.mpr hForm]

theorem writtenAtStart_digit (h : isAsciiDigit c = true) :
    writtenAtStart c = ['\\', '3', c, ' '] := by
  have hDigits : ∀ c ∈ ['0', '1', '2', '3', '4', '5', '6', '7', '8', '9'],
      writtenAtStart c = ['\\', '3', c, ' '] := by decide
  exact hDigits c (mem_of_isAsciiDigit h)

theorem isSpelling_digit (h : isAsciiDigit c = true) : IsSpelling ['\\', '3', c, ' '] [c] := by
  have hDigits : ∀ c ∈ ['0', '1', '2', '3', '4', '5', '6', '7', '8', '9'],
      (∀ d ∈ ['3', c], isHexDigit d = true) ∧ escapedChar (digitsValue 16 ['3', c]) = c := by
    decide
  obtain ⟨hHex, hValue⟩ := hDigits c (mem_of_isAsciiDigit h)
  have hSpelling := IsSpelling.hex hHex (List.cons_ne_nil _ _) (by simp)
  rwa [hValue] at hSpelling

theorem isSpelling_writtenAtStart (h : isWritable c = true) :
    IsSpelling (writtenAtStart c) [c] := by
  by_cases hDigit : isAsciiDigit c = true
  · rw [writtenAtStart_digit hDigit]
    exact isSpelling_digit hDigit
  unfold writtenAtStart
  rw [if_neg hDigit]
  split
  · rename_i hStart
    refine .part (isNamePart_of_css h ?_)
    simp [Css.isNamePart, hStart]
  split
  · rename_i hHyphen
    rw [beq_iff_eq.mp hHyphen]
    exact .escape (by decide) (by decide)
  · exact isSpelling_writtenInName h

theorem isSpelling_flatMap (h : ∀ c ∈ name, isWritable c = true) :
    IsSpelling (name.flatMap writtenInName) name :=
  .flatMap fun c hc => isSpelling_writtenInName (h c hc)

theorem writtenName_cons (hHyphen : c ≠ '-') (rest : List Char) :
    writtenName (c :: rest) = writtenAtStart c ++ rest.flatMap writtenInName := by
  unfold writtenName
  split <;> simp_all

theorem writtenName_hyphen (hHyphen : c ≠ '-') (rest : List Char) :
    writtenName ('-' :: c :: rest) = '-' :: writtenAtStart c ++ rest.flatMap writtenInName := by
  rw [writtenName]
  exact fun hSame => hHyphen hSame

/-- A name is written by its first character, and by the second behind a hyphen. -/
theorem writtenName_cases {motive : List Char → Prop} (nil : motive [])
    (lone : motive ['-']) (double : ∀ rest, motive ('-' :: '-' :: rest))
    (hyphen : ∀ c rest, c ≠ '-' → motive ('-' :: c :: rest))
    (plain : ∀ c rest, c ≠ '-' → motive (c :: rest)) (name : List Char) : motive name := by
  match name with
  | [] => exact nil
  | c :: rest =>
    by_cases hFirst : c = '-'
    · subst hFirst
      match rest with
      | [] => exact lone
      | d :: rest =>
        by_cases hSecond : d = '-'
        · subst hSecond
          exact double rest
        · exact hyphen d rest hSecond
    · exact plain c rest hFirst

/-- The escapes in a written name stand for the characters of the name. -/
theorem isSpelling_writtenName (h : ∀ c ∈ name, isWritable c = true) :
    IsSpelling (writtenName name) name := by
  have hHyphen : IsSpelling ['-'] ['-'] := .part (by decide)
  induction name using writtenName_cases with
  | nil => exact .nil
  | lone => exact .escape (by decide) (by decide)
  | double rest =>
    exact (hHyphen.append hHyphen).append (isSpelling_flatMap fun c hc => h c (by simp [hc]))
  | hyphen c rest hSecond =>
    rw [writtenName_hyphen hSecond]
    exact (hHyphen.append (isSpelling_writtenAtStart (h c (by simp)))).append
      (isSpelling_flatMap fun d hd => h d (by simp [hd]))
  | plain c rest hFirst =>
    rw [writtenName_cons hFirst]
    exact (isSpelling_writtenAtStart (h c (by simp))).append
      (isSpelling_flatMap fun d hd => h d (by simp [hd]))

/-! ## Where a written name starts -/

theorem toNat_of_not_isWritable (h : isWritable c = false) : 0x7F < c.toNat := by
  simp only [isWritable, Bool.or_eq_false_iff, decide_eq_false_iff_not] at h
  omega

/-- A first character is written as it is if it may start a name, and escaped otherwise. -/
theorem writtenAtStart_cases (hHyphen : c ≠ '-') :
    (Css.isNameStart c = true ∧ writtenAtStart c = [c]) ∨
      ∃ d more, writtenAtStart c = '\\' :: d :: more ∧ isLineEnd d = false := by
  by_cases hDigit : isAsciiDigit c = true
  · exact Or.inr ⟨'3', [c, ' '], writtenAtStart_digit hDigit, by decide⟩
  by_cases hStart : Css.isNameStart c = true
  · exact Or.inl ⟨hStart, by simp [writtenAtStart, hDigit, hStart]⟩
  have hPart : Css.isNamePart c = false := by
    simp [Css.isNamePart, hDigit, hStart, hHyphen]
  have hWritten : writtenAtStart c = writtenInName c := by
    simp [writtenAtStart, hDigit, hStart, hHyphen]
  rw [hWritten, writtenInName, hPart]
  refine Or.inr ?_
  by_cases hFeed : c = '\n'
  · exact ⟨'A', [' '], by simp [hFeed], by decide⟩
  by_cases hReturn : c = '\r'
  · exact ⟨'D', [' '], by simp [hReturn], by decide⟩
  by_cases hForm : c = '\x0c'
  · exact ⟨'C', [' '], by simp [hForm], by decide⟩
  · exact ⟨c, [], by simp [hFeed, hReturn, hForm], by simp [isLineEnd, hFeed, hReturn, hForm]⟩

theorem startsPlainName_writtenAtStart (hWritable : isWritable c = true) (hHyphen : c ≠ '-')
    (rest : List Char) : startsPlainName (writtenAtStart c ++ rest) = true := by
  rcases writtenAtStart_cases hHyphen with ⟨hStart, hWritten⟩ | ⟨d, more, hWritten, hLine⟩
  · have hStart := isNameStart_of_css hWritable hStart
    have hSlash : c ≠ '\\' := by
      rintro rfl
      cases hStart
    rw [hWritten, List.singleton_append, startsPlainName]
    · exact hStart
    · exact fun d more hSame => absurd hSame hSlash
  · rw [hWritten]
    simp [startsPlainName, hLine]

theorem startsName_writtenName (hName : name ≠ []) (h : ∀ c ∈ name, isWritable c = true)
    (rest : List Char) : startsName (writtenName name ++ rest) = true := by
  induction name using writtenName_cases with
  | nil => exact absurd rfl hName
  | lone => rfl
  | double more => rfl
  | hyphen c more hSecond =>
    have hStart := startsPlainName_writtenAtStart (h c (by simp)) hSecond
    rw [writtenName_hyphen hSecond]
    unfold startsName
    split
    · rfl
    · rename_i hRest
      cases hRest
      change startsPlainName (writtenAtStart c ++ more.flatMap writtenInName ++ rest) = true
      rw [List.append_assoc]
      exact hStart _
    · rename_i hOther
      exact absurd rfl (hOther _)
  | plain c more hFirst =>
    rw [writtenName_cons hFirst, List.append_assoc]
    exact startsName_of_plain (startsPlainName_writtenAtStart (h c (by simp)) hFirst _)

/-- A written name is read up to its end, and on into what follows if that goes on with it. -/
theorem readName_writtenName (hName : name ≠ []) (h : ∀ c ∈ name, isWritable c = true)
    (hEnds : EndsName rest) : readName (writtenName name ++ rest) = some (writtenName name, rest) := by
  rw [(isSpelling_writtenName h).readName (startsName_writtenName hName h rest), hEnds,
    List.append_nil]

/-! ## Where a written name ends -/

theorem getLast?_writtenInName (h : isBlank c = false) : (writtenInName c).getLast? = some c := by
  have hFeed : c ≠ '\n' := by
    rintro rfl
    cases h
  have hReturn : c ≠ '\r' := by
    rintro rfl
    cases h
  have hForm : c ≠ '\x0c' := by
    rintro rfl
    cases h
  unfold writtenInName
  cases Css.isNamePart c <;> simp [hFeed, hReturn, hForm]

theorem getLast?_flatMap (h : ∀ c ∈ name.getLast?, isBlank c = false) :
    (name.flatMap writtenInName).getLast? = name.getLast? := by
  induction name using List.reverseRecOn with
  | nil => rfl
  | append_singleton rest c ih =>
    have hLast := getLast?_writtenInName (h c (by simp))
    rw [List.flatMap_append, List.getLast?_append, List.flatMap_singleton, hLast]
    simp

theorem getLast?_writtenAtStart (h : isBlank c = false) (hDigit : isAsciiDigit c = false) :
    (writtenAtStart c).getLast? = some c := by
  by_cases hHyphen : c = '-'
  · subst hHyphen
    rfl
  have hWritten : writtenAtStart c = writtenInName c := by
    by_cases hStart : Css.isNameStart c = true
    · simp [writtenAtStart, writtenInName, hDigit, hStart, Css.isNamePart]
    · simp [writtenAtStart, hDigit, hStart, hHyphen]
  rw [hWritten, getLast?_writtenInName h]

theorem getLast?_fromStart (h : ∀ d ∈ (c :: rest).getLast?, isBlank d = false) :
    (writtenAtStart c ++ rest.flatMap writtenInName).getLast? = (c :: rest).getLast? ∨
      isAsciiDigit c = true ∧ rest = [] := by
  cases rest with
  | nil =>
    cases hDigit : isAsciiDigit c with
    | true => exact Or.inr ⟨rfl, rfl⟩
    | false =>
      refine Or.inl ?_
      rw [List.flatMap_nil, List.append_nil, getLast?_writtenAtStart (h c rfl) hDigit]
      rfl
  | cons d more =>
    rw [List.getLast?_cons_cons] at h
    rw [List.getLast?_append, getLast?_flatMap h, List.getLast?_cons_cons]
    simp [List.getLast?_cons]

/-- A written name ends with the last character of the name, unless it is a digit alone or behind
a hyphen. -/
theorem getLast?_writtenName (h : ∀ c ∈ name.getLast?, isBlank c = false) :
    (writtenName name).getLast? = name.getLast? ∨
      ∃ d, isAsciiDigit d = true ∧ (name = [d] ∨ name = ['-', d]) := by
  induction name using writtenName_cases with
  | nil => exact Or.inl rfl
  | lone => exact Or.inl rfl
  | double rest =>
    have hRest : ∀ c ∈ rest.getLast?, isBlank c = false := by
      intro c hc
      refine h c ?_
      rw [Option.mem_def] at hc ⊢
      rw [List.getLast?_cons_cons, List.getLast?_cons, hc]
      rfl
    refine Or.inl ?_
    change ('-' :: '-' :: rest.flatMap writtenInName).getLast? = _
    rw [List.getLast?_cons_cons, List.getLast?_cons_cons, List.getLast?_cons, List.getLast?_cons,
      getLast?_flatMap hRest]
  | hyphen c rest hSecond =>
    rw [List.getLast?_cons_cons] at h ⊢
    rw [writtenName_hyphen hSecond]
    rcases getLast?_fromStart h with hLast | ⟨hDigit, rfl⟩
    · refine Or.inl ?_
      rw [List.cons_append, List.getLast?_cons, hLast]
      simp [List.getLast?_cons]
    · exact Or.inr ⟨c, hDigit, Or.inr rfl⟩
  | plain c rest hFirst =>
    rw [writtenName_cons hFirst]
    rcases getLast?_fromStart h with hLast | ⟨hDigit, rfl⟩
    · exact Or.inl hLast
    · exact Or.inr ⟨c, hDigit, Or.inl rfl⟩

/-- A written name keeps its meaning at the end of a text without the blank that may end it. -/
theorem readName_trimmed (hName : name ≠ []) (h : ∀ c ∈ name, isWritable c = true)
    (hStop : ∀ c ∈ name.getLast?, isBlank c = false) :
    readName (trimEndChars (writtenName name)) = some (trimEndChars (writtenName name), []) ∧
      unescape (trimEndChars (writtenName name)) = name := by
  rcases getLast?_writtenName hStop with hLast | ⟨d, hDigit, hName⟩
  · have hSpelling := isSpelling_writtenName h
    have hTrimmed : trimEndChars (writtenName name) = writtenName name :=
      trimEndChars_of_stop fun c hc => hStop c (by rwa [Option.mem_def, ← hLast])
    have hEnds : EndsName [] := rfl
    have hRead := readName_writtenName hName h hEnds
    rw [List.append_nil] at hRead
    rw [hTrimmed]
    exact ⟨hRead, hSpelling.unescape_eq⟩
  · have hDigits : ∀ d ∈ ['0', '1', '2', '3', '4', '5', '6', '7', '8', '9'],
        ∀ name ∈ [[d], ['-', d]], readName (trimEndChars (writtenName name)) =
          some (trimEndChars (writtenName name), []) ∧
            unescape (trimEndChars (writtenName name)) = name := by
      decide +kernel
    exact hDigits d (mem_of_isAsciiDigit hDigit) name (by simpa using hName)

/-! ## Names with other characters -/

/-- A name is read in `x` up to a character that no name can be written with. -/
def Stops (x : List Char) : Prop :=
  ∃ taken c after, isWritable c = false ∧
    ∀ rest, splitName isNamePart 0 (x ++ rest) = (taken, c :: after ++ rest)

theorem IsSpelling.stops {x y value : List Char} (h : IsSpelling x value) (hStops : Stops y) :
    Stops (x ++ y) := by
  obtain ⟨taken, c, after, hc, hSplit⟩ := hStops
  refine ⟨x ++ taken, c, after, hc, fun rest => ?_⟩
  rw [List.append_assoc, h.split, hSplit]

theorem Stops.append {x : List Char} (h : Stops x) (y : List Char) : Stops (x ++ y) := by
  obtain ⟨taken, c, after, hc, hSplit⟩ := h
  refine ⟨taken, c, after ++ y, hc, fun rest => ?_⟩
  rw [List.append_assoc, hSplit]
  simp

theorem stops_of_not_isWritable (h : isWritable c = false) : Stops [c] := by
  have hBeyond := toNat_of_not_isWritable h
  have hSlash : c ≠ '\\' := by
    rintro rfl
    exact absurd hBeyond (by decide)
  have hPart : isNamePart c = false := by
    refine Bool.eq_false_iff.mpr fun hPart => ?_
    rw [isWritable_of_isNamePart hPart] at h
    cases h
  exact ⟨[], c, [], h, splitName_stop_of_not hSlash hPart⟩

theorem isNameStart_css_of_not_isWritable (h : isWritable c = false) :
    Css.isNameStart c = true := by
  simp [Css.isNameStart, toNat_of_not_isWritable h]

theorem writtenInName_of_not_isWritable (h : isWritable c = false) : writtenInName c = [c] := by
  have hStart := isNameStart_css_of_not_isWritable h
  simp [writtenInName, Css.isNamePart, hStart]

theorem writtenAtStart_of_not_isWritable (h : isWritable c = false) :
    writtenAtStart c = [c] := by
  have hStart := isNameStart_css_of_not_isWritable h
  have hDigit : isAsciiDigit c = false := by
    refine Bool.eq_false_iff.mpr fun hDigit => ?_
    have hPart : isNamePart c = true := by simp [isNamePart, hDigit]
    rw [isWritable_of_isNamePart hPart] at h
    cases h
  simp [writtenAtStart, hStart, hDigit]

theorem stops_flatMap (h : ∃ c ∈ name, isWritable c = false) :
    Stops (name.flatMap writtenInName) := by
  induction name with
  | nil => simp at h
  | cons c rest ih =>
    rw [List.flatMap_cons]
    cases hc : isWritable c with
    | false =>
      rw [writtenInName_of_not_isWritable hc]
      exact (stops_of_not_isWritable hc).append _
    | true =>
      refine (isSpelling_writtenInName hc).stops (ih ?_)
      obtain ⟨d, hd, hNot⟩ := h
      rcases List.mem_cons.mp hd with rfl | hd
      · rw [hc] at hNot
        cases hNot
      · exact ⟨d, hd, hNot⟩

theorem stops_writtenAtStart (h : ∃ d ∈ c :: rest, isWritable d = false) :
    Stops (writtenAtStart c ++ rest.flatMap writtenInName) := by
  cases hc : isWritable c with
  | false =>
    rw [writtenAtStart_of_not_isWritable hc]
    exact (stops_of_not_isWritable hc).append _
  | true =>
    refine (isSpelling_writtenAtStart hc).stops (stops_flatMap ?_)
    obtain ⟨d, hd, hNot⟩ := h
    rcases List.mem_cons.mp hd with rfl | hd
    · rw [hc] at hNot
      cases hNot
    · exact ⟨d, hd, hNot⟩

theorem stops_writtenName (h : ∃ c ∈ name, isWritable c = false) : Stops (writtenName name) := by
  have hHyphen : IsSpelling ['-'] ['-'] := .part (by decide)
  obtain ⟨c, hMem, hc⟩ := h
  have hNot : c ≠ '-' := by
    rintro rfl
    cases hc
  induction name using writtenName_cases with
  | nil => cases hMem
  | lone => exact absurd (List.mem_singleton.mp hMem) hNot
  | double rest =>
    have hRest : c ∈ rest := by simpa [hNot] using hMem
    exact (hHyphen.append hHyphen).stops (stops_flatMap ⟨c, hRest, hc⟩)
  | hyphen d rest hSecond =>
    have hRest : c ∈ d :: rest := (List.mem_cons.mp hMem).resolve_left hNot
    rw [writtenName_hyphen hSecond]
    exact hHyphen.stops (stops_writtenAtStart ⟨c, hRest, hc⟩)
  | plain d rest hFirst =>
    rw [writtenName_cons hFirst]
    exact stops_writtenAtStart ⟨c, hMem, hc⟩

end StyleSieve.Selector
