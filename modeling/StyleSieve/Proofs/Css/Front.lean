import StyleSieve.Proofs.Selector.Opening
import StyleSieve.Proofs.Css.WrittenNumber

/-!
# What a text starts with

The first lexeme of a text tells with which characters it starts, as far as they could belong to a
lexeme in front of the text.

* `front_of_startsName`, `front_of_readMantissa`: the first lexeme of a text that starts like a name or a
  number.
* `endsName_of_front`: where a name ends.
-/

namespace StyleSieve.Css

open Text

variable {c d : Char} {cs rest r : List Char} {l : Lexeme}

/-! ## The first lexeme -/

/-- The first lexeme of a text. -/
def front [Surrogates] (cs : List Char) : Option Lexeme := (lexemes cs).head?

theorem front_cons [Surrogates] (c : Char) (rest : List Char) :
    front (c :: rest) = (step c rest).1.head? := by
  unfold front
  rw [lexemes_cons]
  obtain ⟨l, more, hLexemes⟩ := List.exists_cons_of_ne_nil (isFrontStep_step c rest).ne_nil
  rw [hLexemes]
  rfl

theorem front_nil [Surrogates] : front [] = none := by rw [front, lexemes_nil]; rfl

namespace Lexeme

/-- A lexeme that a text starts with if it starts like a name. -/
def isWord : Lexeme → Bool
  | .name _ => true
  | .function _ => true
  | .url _ => true
  | .codeRange _ _ => true
  | .sign ['-', '-', '>'] => true
  | .flaw .badUrl => true
  | _ => false

/-- A number of any kind. -/
def isNumeric : Lexeme → Bool
  | .number _ => true
  | .percentage _ => true
  | .dimension _ _ => true
  | _ => false

/-- A lexeme that could go on with a name in front of it. -/
def continuesName (l : Lexeme) : Bool := l.isWord || l.isNumeric || l == .sign ['-']

end Lexeme

/-! ## Steps -/

/-- Where no name and no range of code points starts, a number is read if there is one. -/
theorem step_numberStep [Surrogates] (hBlank : isBlank c = false) (hRange : startsCodeRange c rest = false)
    (hName : startsName (c :: rest) = false) (hSome : readNumber (c :: rest) ≠ []) :
    step c rest = numberStep c rest (readNumber (c :: rest)) := by
  have hMarkup : ¬(c == '-' && ['-', '>'].isPrefixOf rest) = true := by
    intro hMarkup
    rw [Bool.and_eq_true, beq_iff_eq, List.isPrefixOf_iff_prefix] at hMarkup
    obtain ⟨rfl, more, rfl⟩ := hMarkup
    cases hName
  unfold step
  rw [hBlank, hRange, if_neg Bool.false_ne_true, if_neg Bool.false_ne_true, if_neg hMarkup, hName,
    if_neg Bool.false_ne_true]
  dsimp only
  rw [if_neg (by simpa using hSome)]

/-- Where nothing else starts, there is a sign. -/
theorem step_signStep [Surrogates] (hBlank : isBlank c = false) (hRange : startsCodeRange c rest = false)
    (hName : startsName (c :: rest) = false) (hNone : readNumber (c :: rest) = []) :
    step c rest = signStep c rest := by
  have hMarkup : ¬(c == '-' && ['-', '>'].isPrefixOf rest) = true := by
    intro hMarkup
    rw [Bool.and_eq_true, beq_iff_eq, List.isPrefixOf_iff_prefix] at hMarkup
    obtain ⟨rfl, more, rfl⟩ := hMarkup
    cases hName
  unfold step
  rw [hBlank, hRange, if_neg Bool.false_ne_true, if_neg Bool.false_ne_true, if_neg hMarkup, hName,
    if_neg Bool.false_ne_true, hNone]
  rfl

theorem isWord_nameStep [Surrogates] (c : Char) (rest : List Char) :
    ∃ l ∈ (nameStep c rest).1.head?, l.isWord = true := by
  unfold nameStep addressStep
  generalize readName (c :: rest) = name
  obtain ⟨value, n⟩ := name
  dsimp only
  split
  · split
    · exact ⟨_, rfl, rfl⟩
    · generalize readUrl _ = url
      obtain ⟨address, k, ending⟩ := url
      cases ending <;> exact ⟨_, rfl, rfl⟩
  · exact ⟨_, rfl, rfl⟩

theorem isNumeric_numberStep [Surrogates] (c : Char) (rest digits : List Char) :
    ∃ l ∈ (numberStep c rest digits).1.head?, l.isNumeric = true := by
  unfold numberStep
  dsimp only
  split
  · exact ⟨_, rfl, rfl⟩
  · split <;> exact ⟨_, rfl, rfl⟩

/-! ## Names and numbers -/

/-- A text that starts like a name. -/
theorem front_of_startsName [Surrogates] (h : startsName cs = true) : ∃ l ∈ front cs, l.isWord = true := by
  cases cs with
  | nil => cases h
  | cons c rest =>
    rw [front_cons]
    cases hOdd : Selector.startsOdd c rest with
    | false =>
      rw [Selector.step_name h hOdd]
      exact isWord_nameStep c rest
    | true =>
      unfold step
      rw [if_neg (by simp [Selector.not_isBlank_of_startsName h])]
      split
      · exact ⟨_, rfl, rfl⟩
      · rename_i hRange
        rw [Selector.startsOdd, Bool.eq_false_iff.mpr hRange, Bool.false_or] at hOdd
        rw [if_pos hOdd]
        exact ⟨_, rfl, rfl⟩

theorem startsName_of_isAsciiDigit (h : isAsciiDigit c = true) (rest : List Char) :
    startsName (c :: rest) = false := by
  have hAll : ∀ c ∈ ['0', '1', '2', '3', '4', '5', '6', '7', '8', '9'],
      ∀ rest, startsName (c :: rest) = false := by
    intro c hc rest
    simp only [List.mem_cons, List.not_mem_nil, or_false] at hc
    rcases hc with rfl | rfl | rfl | rfl | rfl | rfl | rfl | rfl | rfl | rfl <;> rfl
  exact hAll c (mem_of_isAsciiDigit h) rest

/-- The first character of a mantissa is a digit or a point, so nothing else starts there. -/
theorem head_of_readMantissa (h : readMantissa (c :: rest) ≠ []) :
    isAsciiDigit c = true ∨ c = '.' := by
  rw [Ne, readMantissa_eq_nil_iff, not_and_or] at h
  rcases h with hDigits | hFraction
  · refine Or.inl (Bool.of_not_eq_false fun hOther => hDigits ?_)
    exact List.takeWhile_cons_of_neg (by simp [hOther])
  · refine Or.inr ?_
    by_contra hOther
    refine hFraction ?_
    unfold readFraction
    split
    · rename_i hSame
      exact absurd (List.cons.inj hSame).1 hOther
    · rfl

theorem step_of_head_readMantissa (rest : List Char) (h : isAsciiDigit c = true ∨ c = '.') :
    isBlank c = false ∧ startsCodeRange c rest = false ∧ startsName (c :: rest) = false ∧
      readSign (c :: rest) = [] := by
  rcases h with hDigit | rfl
  · have hAll : ∀ c ∈ ['0', '1', '2', '3', '4', '5', '6', '7', '8', '9'],
        isBlank c = false ∧ (c == 'U' || c == 'u') = false ∧ (c == '+' || c == '-') = false := by
      decide
    obtain ⟨hBlank, hRange, hSign⟩ := hAll c (mem_of_isAsciiDigit hDigit)
    refine ⟨hBlank, ?_, startsName_of_isAsciiDigit hDigit rest, ?_⟩
    · rw [startsCodeRange, hRange]
      rfl
    · rw [readSign, hSign, if_neg Bool.false_ne_true]
  · exact ⟨rfl, rfl, rfl, rfl⟩

/-- A text that starts like the digits of a number. -/
theorem front_of_readMantissa [Surrogates] (h : readMantissa cs ≠ []) :
    ∃ l ∈ front cs, l.isNumeric = true := by
  cases cs with
  | nil => exact absurd rfl h
  | cons c rest =>
    obtain ⟨hBlank, hRange, hName, hSign⟩ := step_of_head_readMantissa rest (head_of_readMantissa h)
    have hNumber : readNumber (c :: rest) ≠ [] := fun hNone =>
      h ((readNumber_eq_nil_iff_of_readSign hSign).mp hNone)
    rw [front_cons, step_numberStep hBlank hRange hName hNumber]
    exact isNumeric_numberStep c rest _

/-- A text that starts like a part of a name. -/
theorem front_of_isNamePart [Surrogates] (rest : List Char) (h : isNamePart c = true) :
    ∃ l ∈ front (c :: rest), l.continuesName = true := by
  rw [isNamePart, Bool.or_eq_true, Bool.or_eq_true] at h
  have hWord : startsName (c :: rest) = true → ∃ l ∈ front (c :: rest), l.continuesName = true := by
    intro hName
    obtain ⟨l, hl, hIs⟩ := front_of_startsName hName
    exact ⟨l, hl, by rw [Lexeme.continuesName, hIs, Bool.true_or, Bool.true_or]⟩
  have hNumeric : (∃ l ∈ front (c :: rest), l.isNumeric = true) →
      ∃ l ∈ front (c :: rest), l.continuesName = true := by
    rintro ⟨l, hl, hIs⟩
    exact ⟨l, hl, by rw [Lexeme.continuesName, hIs, Bool.or_true, Bool.true_or]⟩
  rcases h with (hStart | hDigit) | hHyphen
  · exact hWord (by simp [startsName, hStart])
  · refine hNumeric (front_of_readMantissa ?_)
    rw [Ne, readMantissa_eq_nil_iff, not_and_or]
    refine Or.inl ?_
    rw [List.takeWhile_cons_of_pos hDigit]
    exact List.cons_ne_nil _ _
  · obtain rfl := eq_of_beq hHyphen
    cases hName : startsName ('-' :: rest) with
    | true => exact hWord hName
    | false =>
      by_cases hNumber : readNumber ('-' :: rest) = []
      · rw [front_cons, step_signStep rfl rfl hName hNumber]
        exact ⟨.sign ['-'], rfl, rfl⟩
      · refine hNumeric ?_
        rw [front_cons, step_numberStep rfl rfl hName hNumber]
        exact isNumeric_numberStep '-' rest _

/-- Where nothing starts that could go on with a name, a name ends. -/
theorem endsName_of_front [Surrogates] (h : ∀ l ∈ front r, l.continuesName = false) : EndsName r := by
  rintro c more rfl
  constructor
  · refine Bool.eq_false_iff.mpr fun hPart => ?_
    obtain ⟨l, hl, hIs⟩ := front_of_isNamePart more hPart
    rw [h l hl] at hIs
    cases hIs
  · rintro rfl
    refine Bool.eq_false_iff.mpr fun hEscapes => ?_
    have hName : startsName ('\\' :: more) = true := by simp [startsName, hEscapes]
    obtain ⟨l, hl, hIs⟩ := front_of_startsName hName
    have hOther := h l hl
    rw [Lexeme.continuesName, hIs] at hOther
    cases hOther

end StyleSieve.Css
