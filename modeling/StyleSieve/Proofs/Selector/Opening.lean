import Mathlib.Data.List.Forall2
import StyleSieve.Proofs.Selector.Steps

/-!
# Pseudo selectors with selectors as arguments

The names of these pseudo selectors have no escapes, and style sheets read and write them as they
stand.

* `isBareName_of_isSelectorFunction`: what such a name looks like to a style sheet.
* `lexemes_opener`: the opening of such a pseudo selector.
* `readSelectorFunction_of_readName`: only a whole name opens a pseudo selector.
-/

namespace StyleSieve.Selector

open Text
open Css (isPlain lexemes Lexeme writtenName writtenAtStart writtenInName)

variable {name rest cs head after u : List Char} {c d p : Char}

/-! ## Names without escapes -/

/-- A name that a style sheet reads as it stands. -/
structure IsBareName (name : List Char) : Prop where
  starts : Css.startsName name = true
  parts : ∀ c ∈ name, Css.isNamePart c = true

theorem IsBareName.ne_nil (h : IsBareName name) : name ≠ [] := by
  rintro rfl
  cases h.starts

/-- What a name without escapes starts with. -/
theorem IsBareName.cases (h : IsBareName name) :
    (∃ rest, name = '-' :: '-' :: rest) ∨
      (∃ c rest, name = '-' :: c :: rest ∧ Css.isNameStart c = true) ∨
        ∃ c rest, name = c :: rest ∧ Css.isNameStart c = true := by
  obtain ⟨c, rest, rfl⟩ := List.exists_cons_of_ne_nil h.ne_nil
  have hSlash : ∀ d, Css.isNamePart d = true → (d == '\\') = false := by
    intro d hd
    refine beq_eq_false_iff_ne.mpr ?_
    rintro rfl
    exact absurd hd (by decide)
  have hFirst := hSlash c (h.parts c List.mem_cons_self)
  have hStart := h.starts
  cases rest with
  | nil =>
    simp only [Css.startsName, hFirst, Bool.and_false, Bool.false_and, Bool.or_false] at hStart
    exact Or.inr (Or.inr ⟨c, [], rfl, hStart⟩)
  | cons d rest =>
    have hSecond := hSlash d (h.parts d (by simp))
    simp only [Css.startsName, hFirst, hSecond, Bool.false_and, Bool.or_false, Bool.or_eq_true,
      Bool.and_eq_true, beq_iff_eq] at hStart
    rcases hStart with hStart | ⟨rfl, hStart | rfl⟩
    · exact Or.inr (Or.inr ⟨c, d :: rest, rfl, hStart⟩)
    · exact Or.inr (Or.inl ⟨d, rest, rfl, hStart⟩)
    · exact Or.inl ⟨rest, rfl⟩

theorem isAsciiDigit_of_isNameStart (h : Css.isNameStart c = true) : isAsciiDigit c = false := by
  refine Bool.eq_false_iff.mpr fun hDigit => ?_
  have hDigits : ∀ c ∈ ['0', '1', '2', '3', '4', '5', '6', '7', '8', '9'],
      Css.isNameStart c = false := by decide
  rw [hDigits c (mem_of_isAsciiDigit hDigit)] at h
  cases h

theorem writtenAtStart_of_isNameStart (h : Css.isNameStart c = true) : writtenAtStart c = [c] := by
  rw [writtenAtStart, isAsciiDigit_of_isNameStart h, if_neg Bool.false_ne_true, if_pos h]

theorem flatMap_writtenInName (h : ∀ c ∈ name, Css.isNamePart c = true) :
    name.flatMap writtenInName = name := by
  induction name with
  | nil => rfl
  | cons c rest ih =>
    rw [List.flatMap_cons, ih fun d hd => h d (List.mem_cons_of_mem c hd), writtenInName,
      if_pos (h c List.mem_cons_self)]
    rfl

/-- A name without escapes is written as it stands. -/
theorem IsBareName.writtenName_eq (h : IsBareName name) : writtenName name = name := by
  have hParts := h.parts
  rcases h.cases with ⟨rest, rfl⟩ | ⟨c, rest, rfl, hStart⟩ | ⟨c, rest, rfl, hStart⟩
  · have hRest : ∀ c ∈ rest, Css.isNamePart c = true := fun c hc => hParts c (by simp [hc])
    change '-' :: '-' :: rest.flatMap writtenInName = _
    rw [flatMap_writtenInName hRest]
  · have hRest : ∀ c ∈ rest, Css.isNamePart c = true := fun c hc => hParts c (by simp [hc])
    have hHyphen : c ≠ '-' := by
      rintro rfl
      exact absurd hStart (by decide)
    rw [writtenName_hyphen hHyphen, writtenAtStart_of_isNameStart hStart, flatMap_writtenInName hRest]
    rfl
  · have hRest : ∀ c ∈ rest, Css.isNamePart c = true := fun c hc => hParts c (by simp [hc])
    have hHyphen : c ≠ '-' := by
      rintro rfl
      exact absurd hStart (by decide)
    rw [writtenName_cons hHyphen, writtenAtStart_of_isNameStart hStart, flatMap_writtenInName hRest]
    rfl

theorem exists_of_isSelectorFunction (h : isSelectorFunction name = true) :
    ∃ f ∈ selectorFunctions, List.Forall₂ (fun c p => sameIgnoringCase c p = true) name f.toList := by
  obtain ⟨f, hf, hSame⟩ := List.any_eq_true.mp h
  rw [Bool.and_eq_true, beq_iff_eq, List.all_eq_true] at hSame
  refine ⟨f, hf, List.forall₂_iff_zip.mpr ⟨hSame.1.symm, fun hMem => ?_⟩⟩
  exact hSame.2 _ hMem

/-- The characters of the listed names. -/
def openerChars : List Char :=
  ['a', 'b', 'c', 'd', 'e', 'f', 'g', 'h', 'i', 'j', 'k', 'l', 'm', 'n', 'o', 'p', 'q', 'r', 's',
    't', 'u', 'v', 'w', 'x', 'y', 'z', '-']

/-- What is the same but for its case starts names, unless it is the same hyphen. -/
theorem eq_or_isNameStart (hp : p ∈ openerChars) (h : sameIgnoringCase c p = true) :
    c = p ∨ Css.isNameStart c = true := by
  by_cases hLow : c.toNat < 0x80
  · have hSiblings : ∀ p ∈ openerChars, ∀ n ∈ caseSiblings p.toNat, n < 0x80 → n = p.toNat := by
      decide
    have hLower : lowerCode c.toNat = if 65 ≤ c.toNat ∧ c.toNat ≤ 90 then c.toNat + 32 else c.toNat := by
      rw [lowerCode, if_pos hLow]
      simp
    rw [sameIgnoringCase, List.contains_iff_mem, hLower] at h
    by_cases hCapital : 65 ≤ c.toNat ∧ c.toNat ≤ 90
    · have hLetter : isAsciiLetter c = true := by
        simp only [isAsciiLetter, Char.le_def, UInt32.le_iff_toNat_le, Bool.or_eq_true,
          Bool.and_eq_true, decide_eq_true_eq]
        exact Or.inr hCapital
      exact Or.inr (by simp [Css.isNameStart, hLetter])
    · rw [if_neg hCapital] at h
      exact Or.inl (Char.toNat_inj.mp (hSiblings p hp _ h hLow))
  · have hBeyond : 0x7F < c.toNat := by omega
    exact Or.inr (by simp [Css.isNameStart, hBeyond])

theorem isNamePart_of_sameIgnoringCase (hp : p ∈ openerChars) (h : sameIgnoringCase c p = true) :
    Css.isNamePart c = true := by
  have hChars : ∀ c ∈ openerChars, Css.isNamePart c = true := by decide
  rcases eq_or_isNameStart hp h with rfl | hStart
  · exact hChars c hp
  · simp [Css.isNamePart, hStart]

theorem isNameStart_of_sameIgnoringCase (hp : p ∈ openerChars) (hHyphen : p ≠ '-')
    (h : sameIgnoringCase c p = true) : Css.isNameStart c = true := by
  have hLetters : ∀ c ∈ openerChars, c ≠ '-' → Css.isNameStart c = true := by decide
  rcases eq_or_isNameStart hp h with rfl | hStart
  · exact hLetters c hp hHyphen
  · exact hStart

theorem isNamePart_of_forall₂ {letters : List Char}
    (h : List.Forall₂ (fun c p => sameIgnoringCase c p = true) name letters)
    (hChars : ∀ p ∈ letters, p ∈ openerChars) : ∀ c ∈ name, Css.isNamePart c = true := by
  induction h with
  | nil => nofun
  | @cons c p cs ps hSame hMore ih =>
    intro d hd
    rcases List.mem_cons.mp hd with rfl | hd
    · exact isNamePart_of_sameIgnoringCase (hChars p List.mem_cons_self) hSame
    · exact ih (fun q hq => hChars q (List.mem_cons_of_mem p hq)) d hd

/-- A listed name is read and written by a style sheet as it stands, whatever its case. -/
theorem isBareName_of_isSelectorFunction (h : isSelectorFunction name = true) : IsBareName name := by
  obtain ⟨f, hf, hSame⟩ := exists_of_isSelectorFunction h
  have hListed : ∀ f ∈ selectorFunctions, (∀ p ∈ f.toList, p ∈ openerChars) ∧
      (f.toList.head?.any fun p => p != '-' || f.toList.tail.head?.any (· != '-')) = true := by
    decide
  obtain ⟨hChars, hStarts⟩ := hListed f hf
  obtain ⟨p, hp, hFirst⟩ : ∃ p ∈ f.toList.head?, p ≠ '-' ∨ ∃ q ∈ f.toList.tail.head?, q ≠ '-' := by
    simpa [Option.any_eq_true] using hStarts
  generalize f.toList = letters at hSame hChars hp hFirst
  constructor
  · cases hSame with
    | nil => cases hp
    | @cons c p' cs ps hSame hMore =>
      obtain rfl : p' = p := by simpa using hp
      by_cases hStart : Css.isNameStart c = true
      · change (Css.isNameStart c || _ || _) = true
        rw [hStart]
        rfl
      · -- only a hyphen starts no name, and a letter follows it
        have hHyphen : p' = '-' := by
          by_contra hLetter
          exact hStart (isNameStart_of_sameIgnoringCase (hChars p' List.mem_cons_self) hLetter hSame)
        obtain rfl := (eq_or_isNameStart (hChars p' List.mem_cons_self) hSame).resolve_right hStart
        obtain ⟨q, hq, hLetter⟩ := hFirst.resolve_left fun hLetter => hLetter hHyphen
        cases hMore with
        | nil => cases hq
        | @cons d q' cs ps hSame' hMore =>
          obtain rfl : q' = q := by simpa using hq
          have hSecond := isNameStart_of_sameIgnoringCase (hChars q' (by simp)) hLetter hSame'
          subst hHyphen
          change (_ || true && (Css.isNameStart d || _ || _) || _) = true
          rw [hSecond]
          simp
  · exact isNamePart_of_forall₂ hSame hChars

theorem readSelectorFunction_of_not (h : isSelectorFunction (cs.takeWhile (· != '(')) = false) :
    readSelectorFunction cs = none := by
  unfold readSelectorFunction
  dsimp only
  rw [h]
  split <;> rfl

theorem takeWhile_listed (h : isSelectorFunction name = true) (rest : List Char) :
    (name ++ '(' :: rest).takeWhile (· != '(') = name := by
  have hParts : ∀ c ∈ name, (c != '(') = true := by
    intro c hc
    refine bne_iff_ne.mpr ?_
    rintro rfl
    exact absurd ((isBareName_of_isSelectorFunction h).parts _ hc) (by decide)
  rw [List.takeWhile_append_of_pos hParts, List.takeWhile_cons_of_neg (by decide), List.append_nil]

/-- The opening of a pseudo selector with selectors as arguments is its name, a parenthesis and
spacing. -/
theorem readSelectorFunction_iff :
    readSelectorFunction cs = some (head, after) ↔
      ∃ name gap, isSelectorFunction name = true ∧ head = name ++ ['('] ∧ IsGap gap ∧
        skipSpacing after = after ∧ cs = name ++ '(' :: (gap ++ after) := by
  constructor
  · intro h
    unfold readSelectorFunction at h
    dsimp only at h
    split at h
    · rename_i rest hRest
      split at h
      · rename_i hListed
        cases h
        obtain ⟨gap, hGap, hText, -⟩ := exists_gap rest
        refine ⟨_, gap, hListed, rfl, hGap, skipSpacing_skipSpacing rest, ?_⟩
        have hWhole := List.takeWhile_append_dropWhile (p := (· != '(')) (l := cs)
        rw [drop_length_takeWhile] at hRest
        rw [← hText, ← hRest, hWhole]
      · cases h
    · cases h
  · rintro ⟨name, gap, hListed, rfl, hGap, hAfter, rfl⟩
    unfold readSelectorFunction
    dsimp only
    rw [takeWhile_listed hListed, List.drop_left]
    change (if isSelectorFunction name = true then _ else none) = _
    rw [if_pos hListed, skipSpacing_append hGap, hAfter]

/-- A name goes no further than a character that ends it. -/
theorem splitName_prefix {isPart : Char → Bool} (h : ∀ c ∈ u, c ≠ '\\') (hSlash : d ≠ '\\')
    (hPart : isPart d = false) (rest : List Char) : (splitName isPart 0 (u ++ d :: rest)).1 <+: u := by
  induction u with
  | nil => simp only [List.nil_append, splitName_stop_of_not hSlash hPart, List.nil_prefix]
  | cons c u ih =>
    by_cases hFirst : isPart c = true
    · rw [List.cons_append, splitName_part (h c List.mem_cons_self) hFirst, List.prefix_cons_inj]
      exact ih fun e he => h e (List.mem_cons_of_mem c he)
    · rw [List.cons_append, splitName_stop_of_not (h c List.mem_cons_self) (by simpa using hFirst)]
      exact List.nil_prefix

/-- Only a whole name opens a pseudo selector. -/
theorem readSelectorFunction_of_readName (hName : readName (name ++ rest) = some (name, rest))
    (hEnds : EndsCssName rest) (hOther : ∀ more, rest = '(' :: more → isSelectorFunction name = false) :
    readSelectorFunction (name ++ rest) = none := by
  cases hRead : readSelectorFunction (name ++ rest) with
  | none => rfl
  | some r =>
    obtain ⟨u, gap, hListed, -, -, -, hText⟩ := readSelectorFunction_iff.mp hRead
    have hBare := isBareName_of_isSelectorFunction hListed
    have hSlash : ∀ c ∈ u, c ≠ '\\' := by
      rintro _ hc rfl
      exact absurd (hBare.parts _ hc) (by decide)
    have hParen : '(' ≠ '\\' ∧ isNamePart '(' = false := by decide
    have hPrefix := splitName_prefix hSlash hParen.1 hParen.2 (gap ++ r.2)
    rw [← hText, (readName_iff.mp hName).2] at hPrefix
    obtain ⟨w, rfl⟩ := hPrefix
    rw [List.append_assoc, List.append_cancel_left_eq] at hText
    cases w with
    | nil =>
      rw [List.append_nil, hOther _ hText] at hListed
      cases hListed
    | cons d w =>
      have hPart := hBare.parts d (by simp)
      rw [(hEnds d (by rw [hText]; rfl)).1] at hPart
      cases hPart

end StyleSieve.Selector
