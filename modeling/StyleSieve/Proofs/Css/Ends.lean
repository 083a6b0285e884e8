import StyleSieve.Proofs.Css.Takes

/-!
# Lexemes that leave a lexeme in front of them alone

Whether a text goes on with a lexeme in front of it is told by the first lexemes of the text.

* `Lexeme.IsSound`: lexemes with a spelling that is read as them.
* `Lexeme.EndsBefore`: lexemes that leave a lexeme in front of them alone.
* `lexemes_single`, `signStands_of_ends`: where a single sign is read as it stands.
-/

namespace StyleSieve.Css

open Text

variable {c d : Char} {cs rest r value digits unit text name : List Char} {l : Lexeme} {ls : List Lexeme}

/-! ## Lexemes and what follows them -/

/-- Whether a unit goes on with the digits in front of it as an exponent. -/
def startsExponent : List Char → Bool
  | e :: d :: _ => (e == 'e' || e == 'E') && isAsciiDigit d
  | _ => false

/-- A unit as it is read where it is written in a way that keeps it apart from the digits. -/
def loweredUnit : List Char → List Char
  | 'E' :: rest => if rest.isEmpty || rest.head? == some '-' then 'e' :: rest else 'E' :: rest
  | unit => unit

/-- The end of a comment of markup. -/
def markupEnd : List Char := ['-', '-', '>']

/-- A value that is no name where it is written behind `#`. -/
def IsDigitValue (value : List Char) : Prop :=
  value = ['-'] ∨ ∃ d more, isAsciiDigit d = true ∧ (value = d :: more ∨ value = '-' :: d :: more)

/-- A lexeme with a spelling that is read as this lexeme. -/
def Lexeme.IsSound : Lexeme → Prop
  | .blank t => t ≠ [] ∧ t.all isBlank = true
  | .comment t => (readComment (t ++ ['*', '/'])).1 = t
  | .sign t => (∃ c, t = [c] ∧ isSignChar c = true) ∨ t ∈ jointSigns ∨ t = markupEnd
  | .name v => v ≠ []
  | .atName v => v ≠ []
  | .hash v alone => v ≠ [] ∧ (alone = false → IsDigitValue v)
  | .text written => ∃ value : List Char, written = '"' :: value.flatMap writtenInString ++ ['"']
  | .url written => ∃ value : List Char, (∀ c ∈ value, isControl c = false) ∧
      written = ['u', 'r', 'l', '('] ++ value.flatMap writtenInUrl ++ [')']
  | .codeRange first last => first < 16 ^ 6 ∧ last < 16 ^ 6
  | .number digits => IsNumeral digits
  | .percentage digits => IsNumeral digits
  | .dimension digits unit => IsNumeral digits ∧ unit ≠ [] ∧ loweredUnit unit = unit ∧
      (hasExponent digits = true ∨ startsExponent unit = false)
  | .function v => v ≠ []
  | .opening c => c ∈ ['{', '[', '(']
  | .closing c => c ∈ ['}', ']', ')']
  | .flaw _ => False

namespace Lexeme

/-- A blank. -/
def isGap : Lexeme → Bool
  | .blank _ => true
  | _ => false

/-- A string, or where one could not be read. -/
def isQuoted : Lexeme → Bool
  | .text _ => true
  | .flaw .badString => true
  | _ => false

/-- What a lexeme says as a name, if it starts with one. -/
def nameValue : Lexeme → List Char
  | .name value => value
  | .function value => value
  | _ => []

/-- A lexeme that makes a range of code points out of `u+`. -/
def startsRange (l : Lexeme) : Bool := l == .sign ['?'] || l.nameValue.head?.any isHexDigit

end Lexeme

/-- A name does not become a range of code points or the end of a comment of markup with the
lexemes behind it. -/
def StaysName (value : List Char) : List Lexeme → Bool
  | .sign ['+'] :: l :: _ => !((value == ['u'] || value == ['U']) && l.startsRange)
  | .sign ['>'] :: _ => value != ['-', '-']
  | _ => true

/-- Lexemes that make a comment of markup with `<` in front of them. -/
def startsMarkup : List Lexeme → Bool
  | .sign ['!'] :: l :: _ => l == .sign markupEnd || ['-', '-'].isPrefixOf l.nameValue
  | _ => false

/-- The arguments of a function that could be an address start with a string. -/
def StartsWithString : List Lexeme → Prop
  | .blank _ :: l :: _ => l.isQuoted = true
  | l :: _ => l.isQuoted = true
  | [] => False

namespace Lexeme

/-- The first lexemes of a text leave a single sign in front of them alone. -/
def signEnds (c : Char) (ls : List Lexeme) : Prop :=
  match c with
  | '@' => ∀ l ∈ ls.head?, l.isWord = false
  | '#' => ∀ l ∈ ls.head?, l.continuesName = false
  | '-' => ∀ l ∈ ls.head?, l.continuesName = false
  | '+' => ∀ l ∈ ls.head?, l.isNumeric = false
  | '.' => ∀ l ∈ ls.head?, l.isNumeric = false
  | '|' => ∀ l ∈ ls.head?, l ∉ [.sign ['|'], .sign ['|', '|'], .sign ['|', '='], .sign ['=']]
  | '~' => ∀ l ∈ ls.head?, l ≠ .sign ['=']
  | '^' => ∀ l ∈ ls.head?, l ≠ .sign ['=']
  | '$' => ∀ l ∈ ls.head?, l ≠ .sign ['=']
  | '*' => ∀ l ∈ ls.head?, l ≠ .sign ['=']
  | '/' => ∀ l ∈ ls.head?, l ∉ [.sign ['*'], .sign ['*', '=']]
  | '<' => startsMarkup ls = false
  | '\\' => ∃ text more, ls = .blank ('\n' :: text) :: more
  | _ => True

/-- The first lexemes of a text leave a lexeme in front of them alone. -/
def EndsBefore (l : Lexeme) (ls : List Lexeme) : Prop :=
  match l with
  | .blank _ => ∀ l' ∈ ls.head?, l'.isGap = false
  | .name value =>
    (∀ l' ∈ ls.head?, l'.continuesName = false ∧ l' ≠ .opening '(') ∧ StaysName value ls = true
  | .atName _ => ∀ l' ∈ ls.head?, l'.continuesName = false
  | .hash _ _ => ∀ l' ∈ ls.head?, l'.continuesName = false
  | .dimension _ _ => ∀ l' ∈ ls.head?, l'.continuesName = false
  | .number _ => ∀ l' ∈ ls.head?, l'.isWord = false ∧ l'.isNumeric = false ∧ l' ≠ .sign ['%']
  | .codeRange _ _ => ∀ l' ∈ ls.head?, l'.isNumeric = false ∧ l'.nameValue = [] ∧ l' ≠ .sign ['?']
  | .function name => isUrlName name = true → StartsWithString ls
  | .sign [c] => signEnds c ls
  | _ => True

end Lexeme

/-! ## Fronts -/

theorem lexemes_eq_of_front [Surrogates] (h : l ∈ front cs) : ∃ more, lexemes cs = l :: more := by
  rw [front, Option.mem_def, List.head?_eq_some_iff] at h
  exact h

theorem lexemes_of_step [Surrogates] {n : Nat} (h : step c rest = (ls, n)) :
    lexemes (c :: rest) = ls ++ lexemes (rest.drop n) := by
  rw [lexemes_cons, h]

theorem head_of_isUrlName (h : isUrlName (c :: rest) = true) : c = 'u' ∨ c = 'U' := by
  have hFirst : (if 'A' ≤ c && c ≤ 'Z' then Char.ofNat (c.toNat + 32) else c) = 'u' :=
    (List.cons.inj (eq_of_beq h)).1
  split at hFirst
  · rename_i hCapital
    simp only [Char.le_def, UInt32.le_iff_toNat_le, Bool.and_eq_true, decide_eq_true_eq] at hCapital
    obtain ⟨hFrom, hTo⟩ : 65 ≤ c.toNat ∧ c.toNat ≤ 90 := hCapital
    have hCodes : ∀ n < 26, Char.ofNat (n + 65 + 32) = 'u' → Char.ofNat (n + 65) = 'U' := by decide
    have hCode := hCodes (c.toNat - 65) (by omega)
    rw [Nat.sub_add_cancel hFrom, Char.ofNat_toNat] at hCode
    exact Or.inr (hCode hFirst)
  · exact Or.inl hFirst

/-- What a text that starts like a name says. -/
theorem front_nameValue [Surrogates] (hName : startsName (c :: rest) = true) (hPart : isNamePart c = true)
    (hLetter : c ≠ 'u' ∧ c ≠ 'U') (hMarkup : ¬markupEnd <+: c :: rest) :
    ∃ l ∈ front (c :: rest), l.nameValue = (readName (c :: rest)).1 := by
  have hOdd : Selector.startsOdd c rest = false := by
    rw [Selector.startsOdd, Bool.or_eq_false_iff]
    constructor
    · simp [startsCodeRange, hLetter]
    · refine Bool.eq_false_iff.mpr fun hArrow => ?_
      rw [Bool.and_eq_true, beq_iff_eq, List.isPrefixOf_iff_prefix] at hArrow
      obtain ⟨rfl, more, rfl⟩ := hArrow
      exact hMarkup ⟨more, rfl⟩
  have hValue : isUrlName (readName (c :: rest)).1 = false := by
    rw [readName_part hPart]
    exact Bool.eq_false_iff.mpr fun hUrl => (head_of_isUrlName hUrl).elim hLetter.1 hLetter.2
  rw [front_cons, Selector.step_name hName hOdd]
  unfold nameStep
  dsimp only
  split
  · rw [hValue]
    exact ⟨_, rfl, rfl⟩
  · exact ⟨_, rfl, rfl⟩

/-! ## Signs -/

theorem isSignChar_cases (h : isSignChar c = true) :
    isBlank c = false ∧ (c = '-' ∨ isNamePart c = false) ∧
      c ∉ ['{', '}', '[', ']', '(', ')', '"', '\''] := by
  rw [isSignChar, Bool.or_eq_true] at h
  rcases h with hHyphen | h
  · obtain rfl := eq_of_beq hHyphen
    decide
  · simp at h
    simp [h]

theorem signStep_hash_of_endsName [Surrogates] (h : EndsName r) : signStep '#' r = ([.sign ['#']], 0) := by
  cases r with
  | nil => rfl
  | cons d more =>
    obtain ⟨hOther, hSlash⟩ := h d more rfl
    rw [signStep_hash, if_neg ?_]
    rw [hOther, Bool.false_or, Bool.and_eq_true, beq_iff_eq]
    rintro ⟨hSame, hEscape⟩
    rw [hSlash hSame] at hEscape
    cases hEscape

theorem SignStands.signStep_eq [Surrogates] (stands : SignStands c r)
    (hBrackets : c ∉ ['{', '}', '[', ']', '(', ')', '"', '\'']) : signStep c r = ([.sign [c]], 0) := by
  by_cases hAt : c = '@'
  · subst hAt
    rw [signStep_at, stands.at_ rfl, if_neg Bool.false_ne_true]
  by_cases hHash : c = '#'
  · subst hHash
    exact signStep_hash_of_endsName (stands.hash rfl)
  have hComment : ¬(c = '/' ∧ r.head? = some '*') := fun h => stands.slash h.1 h.2
  have hMarkup : ¬(c = '<' ∧ ['!', '-', '-'] <+: r) := fun h => stands.less h.1 h.2
  have hBars : ¬(c = '|' ∧ r.head? = some '|') := fun h => stands.bar h.1 h.2
  have hEquals : ¬(c ∈ ['~', '|', '^', '$', '*'] ∧ r.head? = some '=') := fun h => stands.equals h.1 h.2
  simp only [List.mem_cons, List.not_mem_nil, or_false, not_or] at hBrackets hEquals
  unfold signStep
  rw [if_neg (by simpa using hAt), if_neg (by simpa using hHash), if_neg (by simp [hBrackets]),
    if_neg (by simp [hBrackets]), if_neg (by simp [hBrackets]), if_neg (by simpa using hComment),
    if_neg (by simpa [List.isPrefixOf_iff_prefix] using hMarkup), if_neg (by simpa using hBars),
    if_neg (by simpa [or_assoc] using hEquals)]

theorem lexemes_single [Surrogates] (h : isSignChar c = true) (stands : SignStands c r) :
    lexemes (c :: r) = .sign [c] :: lexemes r := by
  obtain ⟨hBlank, -, hBrackets⟩ := isSignChar_cases h
  have hRange : startsCodeRange c r = false := by
    refine Bool.eq_false_iff.mpr fun hRange => ?_
    simp only [startsCodeRange, Bool.and_eq_true, Bool.or_eq_true, beq_iff_eq] at hRange
    rcases hRange.1.1 with rfl | rfl <;> revert h <;> decide
  have hStep := step_signStep hBlank hRange stands.noName stands.noNumber
  rw [lexemes_of_step (hStep.trans (stands.signStep_eq hBrackets))]
  rfl

/-! ### Where a sign ends -/

theorem front_blank [Surrogates] (hBlank : isBlank c = true) : ∃ l ∈ front (c :: rest), l.isGap = true := by
  unfold front
  rw [lexemes_blank hBlank]
  exact ⟨_, rfl, rfl⟩

/-- A text whose first lexeme is a blank starts with it. -/
theorem head_of_lexemes_blank [Surrogates] {gap : List Char} (h : lexemes r = .blank (c :: gap) :: ls) :
    r.head? = some c := by
  have hFront : .blank (c :: gap) ∈ front r := by
    rw [front, h]
    rfl
  obtain ⟨rest, hRest⟩ := prefix_verbatim_of_front hFront
  rw [← hRest]
  rfl

/-- A text whose first lexeme is no word. -/
theorem not_startsName_of_front [Surrogates] (h : ∀ l ∈ front r, l.isWord = false) :
    startsName r = false := by
  refine Bool.eq_false_iff.mpr fun hName => ?_
  obtain ⟨l, hl, hWord⟩ := front_of_startsName hName
  rw [h l hl] at hWord
  cases hWord

/-- A text whose first lexeme is no number. -/
theorem readMantissa_of_front [Surrogates] (h : ∀ l ∈ front r, l.isNumeric = false) :
    readMantissa r = [] := by
  by_contra hSome
  obtain ⟨l, hl, hNumeric⟩ := front_of_readMantissa hSome
  rw [h l hl] at hNumeric
  cases hNumeric

theorem continuesName_eq_false (h : l.continuesName = false) :
    l.isWord = false ∧ l.isNumeric = false ∧ l ≠ .sign ['-'] := by
  simpa [Lexeme.continuesName, and_assoc] using h

theorem front_bar [Surrogates] : ∃ l ∈ front ('|' :: rest),
    l ∈ [.sign ['|'], .sign ['|', '|'], .sign ['|', '=']] := by
  have hStep : step '|' rest = signStep '|' rest := rfl
  rw [front_cons, hStep]
  unfold signStep
  simp only [Char.reduceBEq, Bool.false_and, Bool.true_and, Bool.or_self, Bool.or_false, Bool.or_true,
    Bool.false_eq_true, if_false]
  split
  · exact ⟨_, rfl, by simp⟩
  split
  · exact ⟨_, rfl, by simp⟩
  · exact ⟨_, rfl, by simp⟩

theorem front_star [Surrogates] : ∃ l ∈ front ('*' :: rest), l ∈ [.sign ['*'], .sign ['*', '=']] := by
  have hStep : step '*' rest = signStep '*' rest := rfl
  rw [front_cons, hStep]
  unfold signStep
  simp only [Char.reduceBEq, Bool.false_and, Bool.true_and, Bool.or_self, Bool.or_true, Bool.false_eq_true,
    if_false]
  split
  · exact ⟨_, rfl, by simp⟩
  · exact ⟨_, rfl, by simp⟩

theorem not_startsName_of_endsName (h : EndsName r) : startsName ('-' :: r) = false := by
  cases r with
  | nil => rfl
  | cons d more =>
    obtain ⟨hPart, hSlash⟩ := h d more rfl
    have hStart : isNameStart d = false ∧ d ≠ '-' := by
      simp only [isNamePart, Bool.or_eq_false_iff, beq_eq_false_iff_ne] at hPart
      exact ⟨hPart.1.1, hPart.2⟩
    have hEscape : (d == '\\' && escapes more) = false := by
      rw [Bool.and_eq_false_imp, beq_iff_eq]
      exact hSlash
    change (false || true && (isNameStart d || d == '-' || _) || false) = false
    rw [hStart.1, beq_false_of_ne hStart.2, hEscape]
    rfl

theorem startsMarkup_lexemes [Surrogates] (h : ['!', '-', '-'] <+: r) :
    startsMarkup (lexemes r) = true := by
  obtain ⟨more, rfl⟩ := h
  have hFirst : lexemes ('!' :: '-' :: '-' :: more) = .sign ['!'] :: lexemes ('-' :: '-' :: more) :=
    lexemes_of_step (show step '!' _ = ([.sign ['!']], 0) from rfl)
  change startsMarkup (lexemes ('!' :: '-' :: '-' :: more)) = true
  rw [hFirst]
  by_cases hMarkup : markupEnd <+: '-' :: '-' :: more
  · obtain ⟨rest, hRest⟩ := hMarkup
    rw [← hRest]
    have hEnd : lexemes ('-' :: '-' :: '>' :: rest) = .sign markupEnd :: lexemes rest :=
      lexemes_of_step (show step '-' _ = ([.sign markupEnd], 2) from rfl)
    change startsMarkup (_ :: lexemes ('-' :: '-' :: '>' :: rest)) = true
    rw [hEnd]
    rfl
  · obtain ⟨l, hl, hValue⟩ := front_nameValue (by rfl) (by rfl) (by decide) hMarkup
    obtain ⟨rest, hRest⟩ := lexemes_eq_of_front hl
    rw [readName_part (by rfl), readName_part (by rfl)] at hValue
    rw [hRest]
    change (_ || ['-', '-'].isPrefixOf l.nameValue) = true
    rw [hValue]
    simp [List.isPrefixOf]

theorem startsName_of_signEnds [Surrogates] (h : isSignChar c = true)
    (hEnds : Lexeme.signEnds c (lexemes r)) :
    startsName (c :: r) = false := by
  by_cases hHyphen : c = '-'
  · subst hHyphen
    exact not_startsName_of_endsName (endsName_of_front hEnds)
  by_cases hSlash : c = '\\'
  · subst hSlash
    obtain ⟨text, more, hBlank⟩ := hEnds
    have hLine : r.head? = some '\n' := head_of_lexemes_blank hBlank
    simp [startsName, isNameStart, isAsciiLetter, escapes, hLine]
  · have hPart := (isSignChar_cases h).2.1.resolve_left hHyphen
    simp only [isNamePart, Bool.or_eq_false_iff] at hPart
    simp [startsName, hPart.1.1, hHyphen, hSlash]

theorem readNumber_of_signEnds [Surrogates] (h : isSignChar c = true)
    (hEnds : Lexeme.signEnds c (lexemes r)) :
    readNumber (c :: r) = [] := by
  by_cases hSign : c = '+' ∨ c = '-'
  · refine (readNumber_sign_eq_nil_iff hSign).mpr (readMantissa_of_front fun l hl => ?_)
    rcases hSign with rfl | rfl
    · exact hEnds l hl
    · exact (continuesName_eq_false (hEnds l hl)).2.1
  have hRead : readSign (c :: r) = [] := by
    rw [readSign, if_neg (by simpa using hSign)]
  rw [readNumber_eq_nil_iff_of_readSign hRead]
  by_contra hSome
  rcases head_of_readMantissa hSome with hDigit | rfl
  · rcases (isSignChar_cases h).2.1 with rfl | hPart
    · cases hDigit
    · simp [isNamePart, hDigit] at hPart
  · have hFraction := (readMantissa_eq_nil_iff.mp (readMantissa_of_front hEnds)).1
    exact hSome (readMantissa_eq_nil_iff.mpr ⟨rfl, hFraction⟩)

/-- Where lexemes leave a sign in front of them alone, it is read as this sign. -/
theorem signStands_of_ends [Surrogates] (h : isSignChar c = true) (hEnds : Lexeme.signEnds c (lexemes r)) :
    SignStands c r where
  noName := startsName_of_signEnds h hEnds
  noNumber := readNumber_of_signEnds h hEnds
  at_ := by
    rintro rfl
    exact not_startsName_of_front hEnds
  hash := by
    rintro rfl
    exact endsName_of_front hEnds
  slash := by
    rintro rfl hStar
    obtain ⟨more, rfl⟩ := List.head?_eq_some_iff.mp hStar
    obtain ⟨l, hl, hIs⟩ := @front_star more _
    exact hEnds l hl hIs
  less := by
    rintro rfl hMarkup
    have hNone : startsMarkup (lexemes r) = false := hEnds
    rw [startsMarkup_lexemes hMarkup] at hNone
    cases hNone
  bar := by
    rintro rfl hBar
    obtain ⟨more, rfl⟩ := List.head?_eq_some_iff.mp hBar
    obtain ⟨l, hl, hIs⟩ := @front_bar more _
    exact hEnds l hl (by simp at hIs ⊢; tauto)
  equals := by
    intro hSign hEqual
    obtain ⟨more, rfl⟩ := List.head?_eq_some_iff.mp hEqual
    have hFront : .sign ['='] ∈ front ('=' :: more) := by
      rw [front_cons]
      rfl
    simp only [List.mem_cons, List.not_mem_nil, or_false] at hSign
    rcases hSign with rfl | rfl | rfl | rfl | rfl
    · exact hEnds _ hFront rfl
    · exact hEnds _ hFront (by simp)
    · exact hEnds _ hFront rfl
    · exact hEnds _ hFront rfl
    · exact hEnds _ hFront rfl

end StyleSieve.Css
