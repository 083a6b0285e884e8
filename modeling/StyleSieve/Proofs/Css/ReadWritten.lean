import StyleSieve.Proofs.Css.Ends
import StyleSieve.Proofs.Stylesheet.ReadBack

/-!
# Reading what is written of a lexeme

What is written of a lexeme is read as this lexeme again, in front of every text that does not go on
with it.

* `lexemes_writtenName`, `lexemes_writtenFunction`, `lexemes_writtenHash`: names.
* `lexemes_numeral`: numbers.
* `lexemes_writtenRange`, `lexemes_writtenText`, `lexemes_writtenUrl`, `lexemes_writtenJoint`: others.
-/

namespace StyleSieve.Css

open Text

variable {c d : Char} {cs rest r value digits unit : List Char} {l : Lexeme} {ls : List Lexeme}

/-! ## Names -/

theorem head_flatMap_writtenInName [Surrogates] (hSome : value ≠ [])
    (h : (value.flatMap writtenInName ++ r).head? = some d) : isNamePart d = true ∨ d = '\\' := by
  obtain ⟨c, rest, rfl⟩ := List.exists_cons_of_ne_nil hSome
  rw [List.flatMap_cons] at h
  rcases writtenInName_cases c with ⟨hPart, hWritten⟩ | ⟨text, hWritten, -⟩
  · rw [hWritten] at h
    cases h
    exact Or.inl hPart
  · rw [hWritten] at h
    cases h
    exact Or.inr rfl

theorem writtenAtStart_eq_cons [Surrogates] (h : writtenAtStart d ++ r = c :: rest) :
    c = '\\' ∨ isNameStart d = true ∧ c = d ∧ rest = r := by
  rcases writtenAtStart_cases d with ⟨hStart, hWritten⟩ | ⟨text, hWritten, -⟩
  · rw [hWritten] at h
    cases h
    exact Or.inr ⟨hStart, rfl, rfl⟩
  · rw [hWritten] at h
    cases h
    exact Or.inl rfl

/-- A name whose text starts with neither a hyphen nor a backslash starts with this character. -/
theorem writtenName_eq_cons [Surrogates] (hText : writtenName value ++ r = c :: rest) (hSome : value ≠ [])
    (hHyphen : c ≠ '-') (hSlash : c ≠ '\\') :
    ∃ more, value = c :: more ∧ rest = more.flatMap writtenInName ++ r := by
  rw [writtenName.eq_def] at hText
  split at hText
  · exact absurd rfl hSome
  · exact absurd (List.cons.inj hText).1.symm hSlash
  · exact absurd (List.cons.inj hText).1.symm hHyphen
  · exact absurd (List.cons.inj hText).1.symm hHyphen
  · rename_i d more _ _ _
    rw [List.append_assoc] at hText
    rcases writtenAtStart_eq_cons hText with hIs | ⟨-, rfl, hRest⟩
    · exact absurd hIs hSlash
    · exact ⟨more, rfl, hRest⟩

/-- A name in front of a text is something else together with this text. -/
def IsOdd (value r : List Char) : Prop :=
  (∃ c, value = [c] ∧ startsCodeRange c r = true) ∨ value = ['-', '-'] ∧ r.head? = some '>'

theorem isOdd_of_startsOdd [Surrogates] (hSome : value ≠ []) (hText : writtenName value ++ r = c :: rest)
    (hOdd : Selector.startsOdd c rest = true) : IsOdd value r := by
  rw [Selector.startsOdd, Bool.or_eq_true] at hOdd
  rcases hOdd with hRange | hArrow
  · have hLetter := hRange
    simp only [startsCodeRange, Bool.and_eq_true, Bool.or_eq_true, beq_iff_eq] at hLetter
    obtain ⟨⟨hLetter, hPlus⟩, -⟩ := hLetter
    have hOther : c ≠ '-' ∧ c ≠ '\\' := by rcases hLetter with rfl | rfl <;> decide
    obtain ⟨more, rfl, rfl⟩ := writtenName_eq_cons hText hSome hOther.1 hOther.2
    by_cases hMore : more = []
    · subst hMore
      exact Or.inl ⟨c, rfl, hRange⟩
    · exact absurd (head_flatMap_writtenInName hMore hPlus) (by decide)
  · rw [Bool.and_eq_true, beq_iff_eq, List.isPrefixOf_iff_prefix] at hArrow
    obtain ⟨rfl, after, rfl⟩ := hArrow
    rw [writtenName.eq_def] at hText
    split at hText
    · exact absurd rfl hSome
    · exact absurd (List.cons.inj hText).1 (by decide)
    · rename_i more
      have hBehind : more.flatMap writtenInName ++ r = '>' :: after :=
        (List.cons.inj (List.cons.inj hText).2).2
      by_cases hMore : more = []
      · subst hMore
        rw [List.flatMap_nil, List.nil_append] at hBehind
        exact Or.inr ⟨rfl, by rw [hBehind]; rfl⟩
      · have hHead : (more.flatMap writtenInName ++ r).head? = some '>' := by rw [hBehind]; rfl
        exact absurd (head_flatMap_writtenInName hMore hHead) (by decide)
    · rename_i d more hHyphen
      rw [List.append_assoc, List.cons_append] at hText
      rcases writtenAtStart_eq_cons (List.cons.inj hText).2 with hSlash | ⟨-, hSame, -⟩
      · cases hSlash
      · exact absurd hSame.symm hHyphen
    · rename_i d more _ _ _
      rw [List.append_assoc] at hText
      rcases writtenAtStart_eq_cons hText with hSlash | ⟨hStart, rfl, -⟩
      · cases hSlash
      · cases hStart

/-- A name is read again where no name goes on and nothing else starts with it. -/
theorem lexemes_writtenName [Surrogates] (hSome : value ≠ []) (hEnds : EndsName r)
    (hParen : r.head? ≠ some '(')
    (hOdd : ¬IsOdd value r) : lexemes (writtenName value ++ r) = .name value :: lexemes r := by
  have hRead := readName_writtenName hSome hEnds
  have hStart := startsName_writtenName hSome r
  have hRest : (writtenName value ++ r).drop (writtenName value).length = r := List.drop_left
  have hPos := readName_pos hStart
  rw [hRead] at hPos
  generalize (writtenName value).length = n at hRead hRest hPos
  cases hText : writtenName value ++ r with
  | nil =>
    rw [hText] at hStart
    cases hStart
  | cons c rest =>
    rw [hText] at hRead hStart hRest
    have hStep : step c rest = ([.name value], n - 1) := by
      have hRange := Bool.eq_false_iff.mpr fun h => hOdd (isOdd_of_startsOdd hSome hText h)
      rw [Selector.step_name hStart hRange]
      unfold nameStep
      rw [hRead]
      dsimp only
      rw [hRest]
      split
      · exact absurd rfl hParen
      · rfl
    obtain ⟨n, rfl⟩ := Nat.exists_eq_succ_of_ne_zero hPos
    rw [List.drop_succ_cons] at hRest
    rw [lexemes_of_step hStep, Nat.succ_sub_one, hRest]
    rfl

/-- What is read of a name with a parenthesis behind it. -/
theorem nameStep_paren [Surrogates] {after : List Char} {n : Nat}
    (hRead : readName (c :: rest) = (value, n))
    (hRest : (c :: rest).drop n = '(' :: after) :
    nameStep c rest =
      if !isUrlName value || (after.dropWhile isBlank).head? == some '"' ||
          (after.dropWhile isBlank).head? == some '\'' then ([.function value], n)
      else ((addressStep (after.dropWhile isBlank)).1,
        n + (after.takeWhile isBlank).length + (addressStep (after.dropWhile isBlank)).2) := by
  unfold nameStep
  simp only [hRead, hRest, drop_length_takeWhile]

/-- A function is read again if it opens no address. -/
theorem lexemes_writtenFunction [Surrogates] (hSome : value ≠ [])
    (hUrl : isUrlName value = true → StartsQuoted r) :
    lexemes (writtenName value ++ '(' :: r) = .function value :: lexemes r := by
  have hEnds : EndsName ('(' :: r) := by
    intro c more hSame
    cases hSame
    exact ⟨rfl, nofun⟩
  have hOdd : ¬IsOdd value ('(' :: r) := by
    rintro (⟨c, -, hRange⟩ | ⟨-, hHead⟩)
    · rw [startsCodeRange, Bool.and_eq_true, Bool.and_eq_true] at hRange
      exact absurd hRange.1.2 (by simp)
    · cases hHead
  have hRead := readName_writtenName hSome hEnds
  have hStart := startsName_writtenName hSome ('(' :: r)
  have hRest : (writtenName value ++ '(' :: r).drop (writtenName value).length = '(' :: r := List.drop_left
  generalize (writtenName value).length = n at hRead hRest
  cases hText : writtenName value ++ '(' :: r with
  | nil =>
    rw [hText] at hStart
    cases hStart
  | cons c rest =>
    rw [hText] at hRead hStart hRest
    have hStep : step c rest = ([.function value], n) := by
      have hRange := Bool.eq_false_iff.mpr fun h => hOdd (isOdd_of_startsOdd hSome hText h)
      rw [Selector.step_name hStart hRange]
      rw [nameStep_paren hRead hRest]
      refine if_pos ?_
      cases hUrlName : isUrlName value with
      | false => rfl
      | true => simpa [StartsQuoted] using hUrl hUrlName
    have hBehind : rest.drop n = r := by
      have hDrop := congrArg (List.drop 1) hRest
      rw [List.drop_drop, Nat.add_comm, ← List.drop_drop] at hDrop
      exact hDrop
    rw [lexemes_of_step hStep, hBehind]
    rfl

/-- A keyword is read as far as its name goes. -/
theorem lexemes_at [Surrogates] (h : startsName rest = true) :
    lexemes ('@' :: rest) = .atName (readName rest).1 :: lexemes (rest.drop (readName rest).2) := by
  have hStep : step '@' rest = ([.atName (readName rest).1], (readName rest).2) := by
    change signStep '@' rest = _
    rw [signStep_at, if_pos h]
  exact lexemes_of_step hStep

/-- What stands behind `#` is read as far as a name goes. -/
theorem lexemes_hash [Surrogates] (h : (readName rest).1 ≠ []) :
    lexemes ('#' :: rest) =
      .hash (readName rest).1 (startsName rest) :: lexemes (rest.drop (readName rest).2) := by
  have hStep : step '#' rest = ([.hash (readName rest).1 (startsName rest)], (readName rest).2) := by
    change signStep '#' rest = _
    cases rest with
    | nil =>
      rw [readName] at h
      exact absurd rfl h
    | cons d more =>
      rw [signStep_hash, if_pos ?_]
      by_contra hOther
      have hEnds : EndsName (d :: more) := endsName_of_not fun _ _ hSame => by
        cases hSame
        exact hOther
      rw [readName_of_endsName hEnds] at h
      exact h rfl
  exact lexemes_of_step hStep

theorem writtenInName_of_isAsciiDigit (h : isAsciiDigit d = true) : writtenInName d = [d] := by
  rw [writtenInName, isNamePart, h, Bool.or_true, Bool.true_or, if_pos rfl]

/-- No name starts with a hyphen in front of a digit or a point. -/
theorem not_startsName_hyphen (h : isAsciiDigit d = true ∨ d = '.') (rest : List Char) :
    startsName ('-' :: d :: rest) = false := by
  have hAll : ∀ d ∈ ['0', '1', '2', '3', '4', '5', '6', '7', '8', '9', '.'],
      ∀ rest, startsName ('-' :: d :: rest) = false := by
    intro d hd rest
    simp only [List.mem_cons, List.not_mem_nil, or_false] at hd
    rcases hd with rfl | rfl | rfl | rfl | rfl | rfl | rfl | rfl | rfl | rfl | rfl <;> rfl
  refine hAll d ?_ rest
  rcases h with hDigit | rfl
  · exact List.mem_append_left ['.'] (mem_of_isAsciiDigit hDigit)
  · decide

theorem lexemes_writtenHash [Surrogates] {alone : Bool} (hSome : value ≠ [])
    (hDigit : alone = false → IsDigitValue value) (hEnds : EndsName r) :
    lexemes ((Lexeme.hash value alone).written ++ r) = .hash value alone :: lexemes r := by
  have hShape : ∀ text : List Char, readName (text ++ r) = (value, text.length) →
      startsName (text ++ r) = alone → lexemes ('#' :: (text ++ r)) = .hash value alone :: lexemes r := by
    intro text hRead hStarts
    have hHash := @lexemes_hash (text ++ r) _ (by rw [hRead]; exact hSome)
    rw [hRead, hStarts, List.drop_left] at hHash
    exact hHash
  cases alone with
  | true => exact hShape _ (readName_writtenName hSome hEnds) (startsName_writtenName hSome r)
  | false =>
    refine hShape _ (readName_flatMap value hEnds) ?_
    rcases hDigit rfl with rfl | ⟨d, more, hIs, rfl | rfl⟩
    · exact not_startsName_of_endsName hEnds
    · rw [List.flatMap_cons, writtenInName_of_isAsciiDigit hIs]
      exact startsName_of_isAsciiDigit hIs _
    · rw [List.flatMap_cons, List.flatMap_cons, writtenInName_of_isAsciiDigit hIs]
      exact not_startsName_hyphen (Or.inl hIs) _

/-! ## Numbers -/

theorem IsNumeral.ne_nil (h : IsNumeral digits) : digits ≠ [] := by
  obtain ⟨n, hn, rfl⟩ := h
  simp [NumeralParts.text, hn.some]

theorem step_of_isNumeral (h : IsNumeral digits) (hText : digits ++ r = c :: rest) :
    isBlank c = false ∧ startsCodeRange c rest = false ∧ startsName (c :: rest) = false := by
  obtain ⟨n, hn, rfl⟩ := h
  obtain ⟨d, more, hMantissa, hFirst⟩ := hn.head_mantissa
  rw [NumeralParts.text, hMantissa] at hText
  rcases hn.sign with hNone | hPlus | hMinus
  · rw [hNone] at hText
    obtain ⟨rfl, -⟩ := List.cons.inj hText
    have hHead := step_of_head_readMantissa rest hFirst
    exact ⟨hHead.1, hHead.2.1, hHead.2.2.1⟩
  · rw [hPlus] at hText
    obtain ⟨rfl, -⟩ := List.cons.inj hText
    exact ⟨rfl, rfl, rfl⟩
  · rw [hMinus] at hText
    obtain ⟨rfl, rfl⟩ := List.cons.inj hText
    exact ⟨rfl, rfl, not_startsName_hyphen hFirst _⟩

/-- The digits of a number are read again, with what is behind them. -/
theorem lexemes_numeral [Surrogates] (h : IsNumeral digits) (hEnds : EndsNumeral digits r) :
    lexemes (digits ++ r) =
      if startsName r then .dimension digits (readName r).1 :: lexemes (r.drop (readName r).2)
      else if r.head? == some '%' then .percentage digits :: lexemes (r.drop 1)
      else .number digits :: lexemes r := by
  have hRead := readNumber_append_of_isNumeral h hEnds
  have hRest : (digits ++ r).drop digits.length = r := List.drop_left
  obtain ⟨c, more, hDigits⟩ := List.exists_cons_of_ne_nil h.ne_nil
  have hText : digits ++ r = c :: (more ++ r) := by rw [hDigits]; rfl
  obtain ⟨hBlank, hRange, hName⟩ := step_of_isNumeral h hText
  rw [hText] at hRead hRest ⊢
  have hLength : digits.length = more.length + 1 := by rw [hDigits]; rfl
  have hStep := step_numberStep hBlank hRange hName (by rw [hRead]; exact h.ne_nil)
  have hDrop : (more ++ r).drop more.length = r := List.drop_left
  rw [hRead] at hStep
  rw [lexemes_cons, hStep]
  unfold numberStep
  rw [hRest]
  dsimp only
  split
  · dsimp only
    rw [hLength, Nat.add_sub_cancel, ← List.drop_drop, hDrop]
    rfl
  split
  · dsimp only
    rw [hLength, ← List.drop_drop, hDrop]
    rfl
  · dsimp only
    rw [hLength, Nat.add_sub_cancel, hDrop]
    rfl

/-- What starts like a name goes on with no digits. -/
theorem readMantissa_of_startsName (h : startsName r = true) : readMantissa r = [] := by
  by_contra hSome
  cases r with
  | nil => cases h
  | cons c rest =>
    rw [(step_of_head_readMantissa _ (head_of_readMantissa hSome)).2.2.1] at h
    cases h

theorem readExponent_of_startsName (h : startsName r = false) : readExponent r = [] := by
  cases r with
  | nil => rfl
  | cons e more =>
    rw [readExponent, if_neg fun hLetter => ?_]
    rw [Bool.or_eq_true, beq_iff_eq, beq_iff_eq] at hLetter
    rcases hLetter with rfl | rfl <;> cases h

/-- No exponent without digits. -/
theorem readExponent_cons_eq_nil (hSign : d ≠ '+' ∧ d ≠ '-') (hDigit : isAsciiDigit d = false) :
    readExponent (c :: d :: rest) = [] := by
  have hNone : readSign (d :: rest) = [] := by
    rw [readSign, if_neg (by simpa using hSign)]
  rw [readExponent, hNone]
  dsimp only
  rw [List.length_nil, List.drop_zero, List.takeWhile_cons_of_neg (by simp [hDigit])]
  simp

/-- A unit is no exponent of the digits in front of it. -/
theorem readExponent_writtenUnit [Surrogates] (hSome : unit ≠ []) (hUnit : startsExponent unit = false) :
    readExponent (writtenUnit unit ++ r) = [] := by
  obtain ⟨e, rest, rfl⟩ := List.exists_cons_of_ne_nil hSome
  unfold writtenUnit
  dsimp only
  split
  · rfl
  · rename_i hPlain
    cases hText : writtenName (e :: rest) ++ r with
    | nil => rfl
    | cons c more =>
      by_cases hLetter : c = 'e' ∨ c = 'E'
      · obtain ⟨tail, hSame, rfl⟩ := writtenName_eq_cons hText hSome
          (by rcases hLetter with rfl | rfl <;> decide) (by rcases hLetter with rfl | rfl <;> decide)
        cases hSame
        have hIs : (e == 'e' || e == 'E') = true := by simpa using hLetter
        rw [hIs, Bool.true_and, Bool.or_eq_true, not_or] at hPlain
        obtain ⟨d, tail, rfl⟩ := List.exists_cons_of_ne_nil fun h => hPlain.1 (List.isEmpty_iff.mpr h)
        have hHyphen : d ≠ '-' := by simpa using hPlain.2
        have hDigit : isAsciiDigit d = false := by
          rw [startsExponent, hIs, Bool.true_and] at hUnit
          exact hUnit
        rw [List.flatMap_cons]
        rcases writtenInName_cases d with ⟨hPart, hWritten⟩ | ⟨text, hWritten, -⟩
        · rw [hWritten]
          refine readExponent_cons_eq_nil ⟨?_, hHyphen⟩ hDigit
          rintro rfl
          cases hPart
        · rw [hWritten]
          exact readExponent_cons_eq_nil (by decide) (by decide)
      · rw [readExponent, if_neg (by simpa using hLetter)]

theorem startsName_writtenUnit [Surrogates] (hSome : unit ≠ []) (r : List Char) :
    startsName (writtenUnit unit ++ r) = true := by
  obtain ⟨e, rest, rfl⟩ := List.exists_cons_of_ne_nil hSome
  unfold writtenUnit
  dsimp only
  split
  · rfl
  · exact startsName_writtenName hSome r

theorem readName_writtenUnit [Surrogates] (hSome : unit ≠ []) (hLower : loweredUnit unit = unit)
    (hEnds : EndsName r) :
    readName (writtenUnit unit ++ r) = (unit, (writtenUnit unit).length) := by
  obtain ⟨e, rest, rfl⟩ := List.exists_cons_of_ne_nil hSome
  unfold writtenUnit
  dsimp only
  split
  · rename_i hLetter
    rw [Bool.and_eq_true] at hLetter
    have hIs : e = 'e' := by
      have hCases : e = 'e' ∨ e = 'E' := by simpa using hLetter.1
      refine hCases.resolve_right ?_
      rintro rfl
      rw [loweredUnit, if_pos hLetter.2] at hLower
      exact absurd (List.cons.inj hLower).1 (by decide)
    subst hIs
    have hEscape : IsEscape 'e' ['6', '5', ' '] :=
      isEscape_digits ['6', '5'] (by simp) (by decide) (by simp) (by decide)
    change readName ('\\' :: (['6', '5', ' '] ++ (rest.flatMap writtenInName ++ r))) = _
    rw [readName_escape hEscape, readName_flatMap _ hEnds]
    simp
  · exact readName_writtenName hSome hEnds

theorem lexemes_writtenNumber [Surrogates] (h : IsNumeral digits) (hName : startsName r = false)
    (hMantissa : readMantissa r = []) (hPercent : r.head? ≠ some '%') :
    lexemes (digits ++ r) = .number digits :: lexemes r := by
  rw [lexemes_numeral h ⟨hMantissa, Or.inr (readExponent_of_startsName hName)⟩, hName,
    if_neg Bool.false_ne_true, if_neg (by simpa using hPercent)]

theorem lexemes_writtenPercentage [Surrogates] (h : IsNumeral digits) (r : List Char) :
    lexemes (digits ++ '%' :: r) = .percentage digits :: lexemes r := by
  have hName : startsName ('%' :: r) = false := rfl
  rw [lexemes_numeral h ⟨rfl, Or.inr rfl⟩, hName, if_neg Bool.false_ne_true, if_pos (by rfl)]
  rfl

theorem lexemes_writtenDimension [Surrogates] (h : (Lexeme.dimension digits unit).IsSound)
    (hEnds : EndsName r) :
    lexemes (digits ++ (writtenUnit unit ++ r)) = .dimension digits unit :: lexemes r := by
  obtain ⟨hDigits, hSome, hLower, hExponent⟩ := h
  have hStarts := startsName_writtenUnit hSome r
  have hBehind : EndsNumeral digits (writtenUnit unit ++ r) :=
    ⟨readMantissa_of_startsName hStarts, hExponent.imp_right (readExponent_writtenUnit hSome)⟩
  rw [lexemes_numeral hDigits hBehind, if_pos hStarts, readName_writtenUnit hSome hLower hEnds,
    List.drop_left]

/-! ## Other lexemes -/

theorem lexemes_writtenRange [Surrogates] {first last : Nat} (h : (Lexeme.codeRange first last).IsSound)
    (hEnds : EndsCodeRange r) :
    lexemes ((Lexeme.codeRange first last).written ++ r) = .codeRange first last :: lexemes r := by
  have hRead := readCodeRange_written h.1 h.2 hEnds
  have hText : (Lexeme.codeRange first last).written ++ r =
      'U' :: ('+' :: (writtenRange first last ++ r)) := rfl
  have hStarts : startsCodeRange 'U' ('+' :: (writtenRange first last ++ r)) = true := by
    obtain ⟨d, more, hDigits⟩ := List.exists_cons_of_ne_nil (upperHex_ne_nil first)
    have hHex := List.all_eq_true.mp (isHexDigit_upperHex first) d (by simp [hDigits])
    rw [writtenRange, hDigits]
    change (true && true && (isHexDigit d || d == '?')) = true
    rw [hHex]
    rfl
  have hStep : step 'U' ('+' :: (writtenRange first last ++ r)) =
      ([.codeRange first last], (writtenRange first last).length + 1) := by
    unfold step
    rw [if_neg (by decide), if_pos hStarts, List.drop_succ_cons, List.drop_zero, hRead]
  rw [hText, lexemes_of_step hStep, List.drop_succ_cons, List.drop_left]
  rfl

theorem lexemes_writtenText [Surrogates] (value r : List Char) :
    lexemes ('"' :: (value.flatMap writtenInString ++ '"' :: r)) =
      .text ('"' :: value.flatMap writtenInString ++ ['"']) :: lexemes r := by
  have hStep : step '"' (value.flatMap writtenInString ++ '"' :: r) =
      ([.text ('"' :: value.flatMap writtenInString ++ ['"'])],
        (value.flatMap writtenInString).length + 1) := by
    change stringStep '"' _ = _
    unfold stringStep
    rw [readString_flatMap]
  rw [lexemes_of_step hStep, ← List.drop_drop, List.drop_left]
  rfl

theorem lexemes_writtenUrl [Surrogates] (h : ∀ c ∈ value, isControl c = false) (r : List Char) :
    lexemes (['u', 'r', 'l', '('] ++ (value.flatMap writtenInUrl ++ ')' :: r)) =
      .url (['u', 'r', 'l', '('] ++ value.flatMap writtenInUrl ++ [')']) :: lexemes r := by
  have hRead := readUrl_flatMap h r
  have hHead : ∀ c ∈ (value.flatMap writtenInUrl ++ ')' :: r).head?,
      isBlank c = false ∧ c ≠ '"' ∧ c ≠ '\'' := by
    intro c hc
    cases value with
    | nil =>
      cases hc
      decide
    | cons d more =>
      rw [List.flatMap_cons] at hc
      rcases writtenInUrl_cases (h d List.mem_cons_self) with
        ⟨hPlain, hWritten⟩ | ⟨text, hWritten, -⟩
      · rw [hWritten] at hc
        cases hc
        exact ⟨hPlain.2.1, hPlain.2.2.2.1, hPlain.2.2.2.2.1⟩
      · rw [hWritten] at hc
        cases hc
        decide
  have hText : ['u', 'r', 'l', '('] ++ (value.flatMap writtenInUrl ++ ')' :: r) =
      'u' :: ('r' :: 'l' :: '(' :: (value.flatMap writtenInUrl ++ ')' :: r)) := rfl
  have hBehind :
      (value.flatMap writtenInUrl ++ ')' :: r).drop ((value.flatMap writtenInUrl).length + 1) = r := by
    rw [← List.drop_drop, List.drop_left]
    rfl
  rw [hText]
  generalize value.flatMap writtenInUrl ++ ')' :: r = after at hRead hHead hBehind ⊢
  have hGap : after.takeWhile isBlank = [] ∧ after.dropWhile isBlank = after := by
    cases after with
    | nil => exact ⟨rfl, rfl⟩
    | cons c more =>
      have hFirst : ¬isBlank c = true := by simp [(hHead c rfl).1]
      exact ⟨List.takeWhile_cons_of_neg hFirst, List.dropWhile_cons_of_neg hFirst⟩
  have hQuote : (after.head? == some '"' || after.head? == some '\'') = false := by
    rw [Bool.or_eq_false_iff, beq_eq_false_iff_ne, beq_eq_false_iff_ne]
    exact ⟨fun hDouble => (hHead _ hDouble).2.1 rfl, fun hSingle => (hHead _ hSingle).2.2 rfl⟩
  have hName : readName ('u' :: 'r' :: 'l' :: '(' :: after) = (['u', 'r', 'l'], 3) := by
    have hStop : readName ('(' :: after) = ([], 0) := readName_of_endsName fun c more hSame => by
      cases hSame
      exact ⟨rfl, nofun⟩
    rw [readName_part (by rfl), readName_part (by rfl), readName_part (by rfl), hStop]
  have hStep : step 'u' ('r' :: 'l' :: '(' :: after) =
      ([.url (['u', 'r', 'l', '('] ++ value.flatMap writtenInUrl ++ [')'])],
        3 + ((value.flatMap writtenInUrl).length + 1)) := by
    have hUrl : (!isUrlName ['u', 'r', 'l']) = false := by decide
    rw [Selector.step_name (by rfl) (by rfl), nameStep_paren hName rfl, hGap.1, hGap.2, hUrl, Bool.false_or,
      hQuote, if_neg Bool.false_ne_true, addressStep, hRead]
    rfl
  rw [lexemes_of_step hStep, ← List.drop_drop]
  change _ :: lexemes (after.drop _) = _
  rw [hBehind]

theorem lexemes_writtenJoint [Surrogates] {sign : List Char} (h : sign ∈ jointSigns ∨ sign = markupEnd)
    (r : List Char) : lexemes (sign ++ r) = .sign sign :: lexemes r := by
  simp only [jointSigns, markupEnd, List.mem_cons, List.not_mem_nil, or_false] at h
  rcases h with (rfl | rfl | rfl | rfl | rfl | rfl | rfl) | rfl
  · exact lexemes_of_step (show step '<' _ = ([.sign ['<', '!', '-', '-']], 3) from rfl)
  · exact lexemes_of_step (show step '|' _ = ([.sign ['|', '|']], 1) from rfl)
  · exact lexemes_of_step (show step '~' _ = ([.sign ['~', '=']], 1) from rfl)
  · exact lexemes_of_step (show step '|' _ = ([.sign ['|', '=']], 1) from rfl)
  · exact lexemes_of_step (show step '^' _ = ([.sign ['^', '=']], 1) from rfl)
  · exact lexemes_of_step (show step '$' _ = ([.sign ['$', '=']], 1) from rfl)
  · exact lexemes_of_step (show step '*' _ = ([.sign ['*', '=']], 1) from rfl)
  · exact lexemes_of_step (show step '-' _ = ([.sign markupEnd], 2) from rfl)

end StyleSieve.Css
