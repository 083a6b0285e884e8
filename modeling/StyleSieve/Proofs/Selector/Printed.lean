import StyleSieve.Proofs.Selector.AttributeTerm
import StyleSieve.Proofs.Selector.Lists
import StyleSieve.Proofs.Selector.Opening
import StyleSieve.Proofs.Selector.Scan
import StyleSieve.Proofs.Selector.Spelling

/-!
# Printed selector lists

A selector list as it is composed of names, conditions and further selector lists, and how it
is printed. What is printed is read as what was composed.

* `scan_text`: the tokens of what is printed, whatever follows.
* `SelectorList.lists`: these tokens have the structure of the selector list.
* `parse_text`: parsing undoes printing.
-/

namespace StyleSieve.Selector.Printed

open Text
open Css (writtenName)

/-! ## Names and arguments -/

/-- The name of a tag, a class or an id. -/
structure Name where
  chars : List Char
  ne_nil : chars ≠ []
  writable : ∀ c ∈ chars, isWritable c = true

/-- A lower-case letter, a digit, a hyphen or an underscore. -/
def isPlain (c : Char) : Bool := ('a' ≤ c && c ≤ 'z') || isAsciiDigit c || c == '-' || c == '_'

/-- The name of an attribute or of a pseudo selector. -/
structure PlainName where
  chars : List Char
  starts : startsName chars = true
  plain : ∀ c ∈ chars, isPlain c = true

/-- A text as argument of a pseudo selector. -/
structure Argument where
  chars : List Char
  ne_nil : chars ≠ []
  bare : IsBare chars
  flat : ∀ c ∈ chars, c ≠ '(' ∧ c ≠ ')'

/-- What joins two compound selectors. -/
inductive Combinator where
  | descendant
  | child
  | next
  | subsequent

def Combinator.text : Combinator → List Char
  | .descendant => [' ']
  | .child => [' ', '>', ' ']
  | .next => [' ', '+', ' ']
  | .subsequent => [' ', '~', ' ']

/-! ## Plain names -/

def plainChars : List Char :=
  ['a', 'b', 'c', 'd', 'e', 'f', 'g', 'h', 'i', 'j', 'k', 'l', 'm', 'n', 'o', 'p', 'q', 'r', 's',
    't', 'u', 'v', 'w', 'x', 'y', 'z', '0', '1', '2', '3', '4', '5', '6', '7', '8', '9', '-', '_']

theorem mem_of_isPlain {c : Char} (h : isPlain c = true) : c ∈ plainChars := by
  simp only [isPlain, isAsciiDigit, Char.le_def, UInt32.le_iff_toNat_le, Bool.or_eq_true,
    Bool.and_eq_true, decide_eq_true_eq, beq_iff_eq, or_assoc] at h
  rcases h with h | h | rfl | rfl
  · change 97 ≤ c.toNat ∧ c.toNat ≤ 122 at h
    obtain ⟨hLow, hHigh⟩ := h
    rw [← Char.ofNat_toNat c]
    generalize c.toNat = n at hLow hHigh
    interval_cases n <;> decide
  · change 48 ≤ c.toNat ∧ c.toNat ≤ 57 at h
    obtain ⟨hLow, hHigh⟩ := h
    rw [← Char.ofNat_toNat c]
    generalize c.toNat = n at hLow hHigh
    interval_cases n <;> decide
  · decide
  · decide

/-- What every reader makes of a plain character. -/
structure IsRegular (c : Char) : Prop where
  part : isNamePart c = true
  inName : c ≠ '\\' ∧ endsAttributeName c = false
  open_ne : c ≠ '('
  blank : isBlank c = false
  lower : lowerChar c = c
  sigma : c ≠ 'Σ'
  dotted : c ≠ 'İ'

theorem isRegular_of_isPlain {c : Char} (h : isPlain c = true) : IsRegular c := by
  have hAll : ∀ c ∈ plainChars, isNamePart c = true ∧ (c ≠ '\\' ∧ endsAttributeName c = false) ∧
      c ≠ '(' ∧ isBlank c = false ∧ lowerChar c = c ∧ c ≠ 'Σ' ∧ c ≠ 'İ' := by
    decide +kernel
  obtain ⟨hPart, hInName, hOpen, hBlank, hLower, hSigma, hDotted⟩ := hAll c (mem_of_isPlain h)
  exact ⟨hPart, hInName, hOpen, hBlank, hLower, hSigma, hDotted⟩

section Plain

variable {name rest : List Char}

theorem isSpelling_plain (h : ∀ c ∈ name, isPlain c = true) : IsSpelling name name := by
  have hSpelling : IsSpelling (name.flatMap fun c => [c]) name :=
    .flatMap fun c hc => .part (isRegular_of_isPlain (h c hc)).part
  simpa using hSpelling

theorem lowerChars_plain (h : ∀ c ∈ name, isPlain c = true) : lowerChars name = name := by
  suffices hFrom : ∀ before, lowerFrom before name = name from hFrom []
  induction name with
  | nil => exact fun before => rfl
  | cons c more ih =>
    intro before
    have hc := isRegular_of_isPlain (h c List.mem_cons_self)
    rw [lowerFrom, if_neg (by simpa using hc.sigma), if_neg (by simpa using hc.dotted), hc.lower,
      ih fun d hd => h d (List.mem_cons_of_mem c hd)]

theorem unescape_plain (h : ∀ c ∈ name, isPlain c = true) : unescape name = name :=
  (isSpelling_plain h).unescape_eq

/-- The opening of a pseudo selector stands for its name. -/
theorem openingName_plain (h : ∀ c ∈ name, isPlain c = true) : openingName (name ++ ['(']) = name := by
  have hBare : (((name ++ ['(']).reverse.dropWhile isBlank).dropWhile (· == '(')).reverse = name := by
    rw [List.reverse_append, List.reverse_singleton, List.singleton_append,
      List.dropWhile_cons_of_neg (by decide), List.dropWhile_cons_of_pos (by decide)]
    cases hReverse : name.reverse with
    | nil => simpa using hReverse.symm
    | cons c more =>
      have hOpen := (isRegular_of_isPlain (h c (by
        rw [← List.mem_reverse, hReverse]
        exact List.mem_cons_self))).open_ne
      rw [List.dropWhile_cons_of_neg (by simpa using hOpen), ← hReverse, List.reverse_reverse]
  unfold openingName
  dsimp only
  rw [hBare, unescape_plain h, lowerChars_plain h]

theorem readName_plain (hStart : startsName name = true) (h : ∀ c ∈ name, isPlain c = true)
    (hEnds : EndsName rest) : readName (name ++ rest) = some (name, rest) := by
  rw [(isSpelling_plain h).readName (startsName_append hStart rest), hEnds, List.append_nil]

theorem takeWhile_plain (h : ∀ c ∈ name, isPlain c = true) (rest : List Char) :
    (name ++ rest).takeWhile (· != '(') = name ++ rest.takeWhile (· != '(') := by
  refine List.takeWhile_append_of_pos fun c hc => ?_
  simpa using (isRegular_of_isPlain (h c hc)).open_ne

end Plain

/-! ## Pseudo selectors with selectors as arguments -/

/-- The characters that may follow a simple selector. -/
def delimiters : List Char := [' ', '.', '#', '[', ':', ',', '>', '+', '~', ')']

theorem not_isSelectorFunction_of_delimiter {name : List Char} {d : Char} (hd : d ∈ delimiters)
    (hMem : d ∈ name) : isSelectorFunction name = false := by
  refine Bool.eq_false_iff.mpr fun hFunction => ?_
  obtain ⟨f, hf, hSame⟩ := exists_of_isSelectorFunction hFunction
  have hNone : ∀ d ∈ delimiters, ∀ f ∈ selectorFunctions, ∀ p ∈ f.toList,
      sameIgnoringCase d p = false := by
    decide +kernel
  obtain ⟨hLength, hZip⟩ := List.forall₂_iff_zip.mp hSame
  obtain ⟨p, hp⟩ : ∃ p, (d, p) ∈ name.zip f.toList := by
    obtain ⟨i, hi, rfl⟩ := List.getElem_of_mem hMem
    refine ⟨f.toList[i], List.mem_iff_getElem.mpr ⟨i, ?_, ?_⟩⟩
    · rw [List.length_zip]
      omega
    · simp
  have hDiffers := hNone d hd f hf p (List.of_mem_zip hp).2
  rw [hZip hp] at hDiffers
  cases hDiffers

/-- A plain name of one of these pseudo selectors is spelled as in the list. -/
theorem not_isSelectorFunction_of_plain {name : List Char} (h : ∀ c ∈ name, isPlain c = true)
    (hName : String.ofList name ∉ selectorFunctions) : isSelectorFunction name = false := by
  refine Bool.eq_false_iff.mpr fun hFunction => ?_
  obtain ⟨f, hf, hSame⟩ := exists_of_isSelectorFunction hFunction
  have hEqual : ∀ c ∈ plainChars, ∀ f ∈ selectorFunctions, ∀ p ∈ f.toList,
      sameIgnoringCase c p = true → c = p := by
    decide +kernel
  obtain ⟨hLength, hZip⟩ := List.forall₂_iff_zip.mp hSame
  have hWhole : List.Forall₂ (· = ·) name f.toList := by
    refine List.forall₂_iff_zip.mpr ⟨hLength, fun hMem => ?_⟩
    obtain ⟨hc, hp⟩ := List.of_mem_zip hMem
    exact hEqual _ (mem_of_isPlain (h _ hc)) f hf _ hp (hZip hMem)
  rw [List.forall₂_eq_eq_eq] at hWhole
  subst hWhole
  exact hName (by rwa [String.ofList_toList])

/-! ## Selector lists -/

mutual

/-- A simple selector in any place of a compound selector. -/
inductive Simple where
  | hasClass (name : Name)
  | hasId (name : Name)
  | bracketed (name : PlainName) (condition : Option (AttributeOperator × String))
  | pseudo (kind : PseudoKind) (name : PlainName)
  | function (kind : PseudoKind) (name : PlainName)
      (hName : String.ofList name.chars ∉ selectorFunctions) (argument : Argument)
  | nested (kind : PseudoKind) (name : String) (hName : name ∈ selectorFunctions)
      (arguments : SelectorList)

inductive Simples where
  | nil
  | cons (first : Simple) (rest : Simples)

/-- A compound selector, which starts with a tag, with the universal selector or with neither. -/
inductive Compound where
  | tag (name : Name) (rest : Simples)
  | universal (rest : Simples)
  | simple (first : Simple) (rest : Simples)

inductive Complex where
  | single (compound : Compound)
  | joined (compound : Compound) (combinator : Combinator) (rest : Complex)

inductive SelectorList where
  | single (complex : Complex)
  | more (complex : Complex) (rest : SelectorList)

end

/-! ## Printing -/

def colons : PseudoKind → List Char
  | .ofClass => [':']
  | .ofElement => [':', ':']

/-- The condition on the value of an attribute, and the closing bracket. -/
def conditionText : Option (AttributeOperator × String) → List Char
  | none => [']']
  | some (op, value) => op.sign.toList ++ (writtenValue value.toList ++ [']'])

mutual

def Simple.text : Simple → List Char
  | .hasClass name => '.' :: writtenName name.chars
  | .hasId name => '#' :: writtenName name.chars
  | .bracketed name condition => '[' :: (name.chars ++ conditionText condition)
  | .pseudo kind name => colons kind ++ name.chars
  | .function kind name _ argument =>
    colons kind ++ (name.chars ++ '(' :: (argument.chars ++ [')']))
  | .nested kind name _ arguments => colons kind ++ (name.toList ++ '(' :: (arguments.text ++ [')']))

def Simples.text : Simples → List Char
  | .nil => []
  | .cons first rest => first.text ++ rest.text

def Compound.text : Compound → List Char
  | .tag name rest => writtenName name.chars ++ rest.text
  | .universal rest => '*' :: rest.text
  | .simple first rest => first.text ++ rest.text

def Complex.text : Complex → List Char
  | .single compound => compound.text
  | .joined compound combinator rest => compound.text ++ (combinator.text ++ rest.text)

def SelectorList.text : SelectorList → List Char
  | .single complex => complex.text
  | .more complex rest => complex.text ++ ([',', ' '] ++ rest.text)

end

/-! ## Meaning -/

mutual

def Simple.term : Simple → Term
  | .hasClass name => .hasClass (String.ofList name.chars)
  | .hasId name => .hasId (String.ofList name.chars)
  | .bracketed name condition => .attribute (String.ofList name.chars) condition
  | .pseudo kind name => .pseudo kind (String.ofList name.chars) none
  | .function kind name _ argument =>
    .pseudo kind (String.ofList name.chars) (some (String.ofList argument.chars))
  | .nested kind name _ arguments => .nested kind name arguments.complexes

def Simples.terms : Simples → List Term
  | .nil => []
  | .cons first rest => first.term :: rest.terms

def Compound.terms : Compound → List Term
  | .tag name rest => .tag (String.ofList name.chars) :: rest.terms
  | .universal rest => .universal :: rest.terms
  | .simple first rest => first.term :: rest.terms

def Complex.terms : Complex → List Term
  | .single compound => compound.terms
  | .joined compound _ rest => compound.terms ++ rest.terms

def SelectorList.complexes : SelectorList → List ComplexSelector
  | .single complex => [complex.terms]
  | .more complex rest => complex.terms :: rest.complexes

end

/-! ## Tokens -/

mutual

def Simple.tokens : Simple → List Token
  | .hasClass name => [.hasClass (writtenName name.chars)]
  | .hasId name => [.hasId (writtenName name.chars)]
  | .bracketed name condition => [.attribute ('[' :: (name.chars ++ conditionText condition))]
  | .pseudo kind name => [.pseudo kind name.chars]
  | .function kind name _ argument => [.function kind (name.chars ++ ['(']) (some argument.chars)]
  | .nested kind name _ arguments =>
    .opening kind (name.toList ++ ['(']) :: (arguments.tokens ++ [.closing])

def Simples.tokens : Simples → List Token
  | .nil => []
  | .cons first rest => first.tokens ++ rest.tokens

def Compound.tokens : Compound → List Token
  | .tag name rest => .tag (writtenName name.chars) :: rest.tokens
  | .universal rest => .universal :: rest.tokens
  | .simple first rest => first.tokens ++ rest.tokens

def Complex.tokens : Complex → List Token
  | .single compound => compound.tokens
  | .joined compound _ rest => compound.tokens ++ .combinator :: rest.tokens

def SelectorList.tokens : SelectorList → List Token
  | .single complex => complex.tokens
  | .more complex rest => complex.tokens ++ .comma :: rest.tokens

end

/-! ## Slices of what is printed -/

/-- A simple selector may end in front of this text. -/
def Delimits (rest : List Char) : Prop := ∀ c ∈ rest.head?, c ∈ delimiters

theorem endsName_of_delimits {rest : List Char} (h : Delimits rest) : EndsName rest := by
  cases rest with
  | nil => rfl
  | cons d more =>
    have hStops : ∀ d ∈ delimiters, d ≠ '\\' ∧ isNamePart d = false := by decide
    obtain ⟨hSlash, hPart⟩ := hStops d (h d rfl)
    exact splitName_stop_of_not hSlash hPart more

theorem readSelectorFunction_of_delimits {name rest : List Char}
    (hName : ∀ c ∈ name, isPlain c = true) (hRest : Delimits rest) :
    readSelectorFunction (name ++ rest) = none := by
  cases rest with
  | nil =>
    unfold readSelectorFunction
    dsimp only
    rw [takeWhile_plain hName, List.takeWhile_nil, List.append_nil, List.drop_length]
  | cons d more =>
    have hOpen : ∀ d ∈ delimiters, d ≠ '(' := by decide
    refine readSelectorFunction_of_not ?_
    rw [takeWhile_plain hName, List.takeWhile_cons_of_pos (by simpa using hOpen d (hRest d rfl))]
    exact not_isSelectorFunction_of_delimiter (hRest d rfl) (by simp)

theorem takesPseudo_name {kind : PseudoKind} (name : PlainName) {rest : List Char}
    (hRest : Delimits rest) : Token.TakesPseudo kind rest (.pseudo kind name.chars) name.chars := by
  have hRead := readName_plain name.starts name.plain (endsName_of_delimits hRest)
  refine .name (readSelectorFunction_of_delimits name.plain hRest) ?_ hRead
  unfold readFunction
  rw [hRead]
  split
  · rename_i hSame
    cases hSame
    exact absurd (hRest '(' rfl) (by decide)
  · rfl

theorem Argument.skipSpacing_chars (argument : Argument) (rest : List Char) :
    skipSpacing (argument.chars ++ rest) = argument.chars ++ rest := by
  obtain ⟨c, more, hChars⟩ := List.exists_cons_of_ne_nil argument.ne_nil
  have hBlank : isBlank c = false := argument.bare.start c (by rw [hChars]; rfl)
  rw [hChars, List.cons_append]
  refine skipSpacing_cons (Bool.eq_false_iff.mpr fun hSpacing => ?_) _
  rcases eq_of_isSpacing hSpacing with rfl | rfl | rfl | rfl | rfl <;> cases hBlank

theorem Argument.readArgument (argument : Argument) (rest : List Char) :
    readArgument (argument.chars ++ ')' :: rest) = some (some argument.chars, rest) := by
  have hFlat : ∀ c ∈ argument.chars, (c != '(' && c != ')') = true := by
    intro c hc
    simpa using argument.flat c hc
  unfold Selector.readArgument
  dsimp only
  rw [List.takeWhile_append_of_pos hFlat, List.takeWhile_cons_of_neg (by decide), List.append_nil,
    List.drop_left]
  simp [argument.ne_nil]

theorem takesPseudo_function {kind : PseudoKind} (name : PlainName)
    (hName : String.ofList name.chars ∉ selectorFunctions) (argument : Argument) (rest : List Char) :
    Token.TakesPseudo kind rest (.function kind (name.chars ++ ['(']) (some argument.chars))
      (name.chars ++ '(' :: (argument.chars ++ [')'])) := by
  have hText : name.chars ++ '(' :: (argument.chars ++ [')']) ++ rest =
      name.chars ++ '(' :: (argument.chars ++ ')' :: rest) := by simp
  have hEnds : EndsName ('(' :: (argument.chars ++ ')' :: rest)) :=
    splitName_stop_of_not (by decide) (by decide) _
  have hOther : readSelectorFunction (name.chars ++ '(' :: (argument.chars ++ ')' :: rest)) = none := by
    refine readSelectorFunction_of_not ?_
    rw [takeWhile_plain name.plain, List.takeWhile_cons_of_neg (by decide), List.append_nil]
    exact not_isSelectorFunction_of_plain name.plain hName
  have hHead : readFunction readName (name.chars ++ '(' :: (argument.chars ++ ')' :: rest)) =
      some (name.chars ++ ['('], argument.chars ++ ')' :: rest) := by
    unfold readFunction
    rw [readName_plain name.starts name.plain hEnds]
    change some (name.chars ++ ['('], skipSpacing (argument.chars ++ ')' :: rest)) = _
    rw [argument.skipSpacing_chars]
  rw [← hText] at hOther hHead
  exact .function hOther hHead (argument.readArgument rest)

/-- The listed names are plain and recognised. -/
theorem isSelectorFunction_of_mem {name : String} (h : name ∈ selectorFunctions) :
    isSelectorFunction name.toList = true ∧ name.toList ≠ [] ∧ ∀ c ∈ name.toList, isPlain c = true := by
  have hAll : ∀ name ∈ selectorFunctions, isSelectorFunction name.toList = true ∧
      name.toList ≠ [] ∧ ∀ c ∈ name.toList, isPlain c = true := by
    decide +kernel
  exact hAll name h

theorem takesPseudo_nested {kind : PseudoKind} {name : String} (hName : name ∈ selectorFunctions)
    {rest : List Char} (hRest : skipSpacing rest = rest) :
    Token.TakesPseudo kind rest (.opening kind (name.toList ++ ['('])) (name.toList ++ ['(']) := by
  obtain ⟨hFunction, -, hPlain⟩ := isSelectorFunction_of_mem hName
  have hHead : readSelectorFunction (name.toList ++ '(' :: rest) =
      some (name.toList ++ ['('], rest) := by
    unfold readSelectorFunction
    dsimp only
    rw [takeWhile_plain hPlain, List.takeWhile_cons_of_neg (by decide), List.append_nil,
      List.drop_left]
    change (if isSelectorFunction name.toList = true then _ else none) = _
    rw [if_pos hFunction, hRest]
  refine .opening ?_
  rw [List.append_assoc]
  exact hHead

theorem takes_colons {kind : PseudoKind} {rest text : List Char} {token : Token} {b : Bool}
    (hColon : ∀ c ∈ text.head?, c ≠ ':') (hSome : text ≠ [])
    (h : Token.TakesPseudo kind rest token text) :
    Token.Takes rest b token (colons kind ++ text) := by
  cases kind with
  | ofElement => exact .ofElement h
  | ofClass =>
    refine .ofClass ?_ h
    intro more hText
    obtain ⟨c, text, rfl⟩ := List.exists_cons_of_ne_nil hSome
    exact hColon c rfl (List.cons.inj hText).1

theorem PlainName.ne_nil (name : PlainName) : name.chars ≠ [] := by
  intro hNil
  have hStart := name.starts
  rw [hNil] at hStart
  cases hStart

theorem head_ne_colon {name : List Char} (hSome : name ≠ []) (h : ∀ c ∈ name, isPlain c = true)
    (rest : List Char) : ∀ c ∈ (name ++ rest).head?, c ≠ ':' := by
  obtain ⟨d, more, rfl⟩ := List.exists_cons_of_ne_nil hSome
  have hd := (isRegular_of_isPlain (h d List.mem_cons_self)).part
  rintro c hc rfl
  cases Option.some.inj hc
  cases hd

/-! ## Attributes -/

theorem takesTail_condition (condition : Option (AttributeOperator × String)) (rest : List Char) :
    TakesTail ['~', '|', '^', '$', '*'] readStrictValue rest (conditionText condition) := by
  match condition with
  | none => exact .bare isGap_nil
  | some (op, value) =>
    have hOp : IsOperator ['~', '|', '^', '$', '*'] op.sign.toList := by
      cases op with
      | equals => exact Or.inl rfl
      | includes => exact Or.inr ⟨'~', by decide, rfl⟩
      | dashMatch => exact Or.inr ⟨'|', by decide, rfl⟩
      | beginsWith => exact Or.inr ⟨'^', by decide, rfl⟩
      | endsWith => exact Or.inr ⟨'$', by decide, rfl⟩
      | contains => exact Or.inr ⟨'*', by decide, rfl⟩
    have hValue : readStrictValue (writtenValue value.toList ++ ([] ++ ([] ++ ']' :: rest))) =
        some (writtenValue value.toList, [] ++ ([] ++ ']' :: rest)) := by
      have hQuoted := readQuoted_written value.toList (']' :: rest)
      have hText : writtenValue value.toList ++ ([] ++ ([] ++ ']' :: rest)) =
          '"' :: (value.toList.flatMap Css.writtenInString ++ '"' :: ']' :: rest) := by
        simp [writtenValue]
      rw [hText]
      exact hQuoted
    exact .compared isGap_nil hOp isGap_nil hValue isGap_nil (Or.inl rfl)

/-- What stands behind the name of an attribute ends the name for every reader. -/
theorem conditionText_cases (condition : Option (AttributeOperator × String)) :
    ∃ c more, conditionText condition = c :: more ∧ c ≠ '\\' ∧ isNamePart c = false ∧
      endsAttributeName c = true ∧ behindNamespace (c :: more) = none := by
  match condition with
  | none => exact ⟨']', [], rfl, by decide, by decide, by decide, rfl⟩
  | some (op, value) =>
    cases op with
    | equals => exact ⟨'=', _, rfl, by decide, by decide, by decide, rfl⟩
    | includes => exact ⟨'~', _, rfl, by decide, by decide, by decide, rfl⟩
    | dashMatch => exact ⟨'|', _, rfl, by decide, by decide, by decide, rfl⟩
    | beginsWith => exact ⟨'^', _, rfl, by decide, by decide, by decide, rfl⟩
    | endsWith => exact ⟨'$', _, rfl, by decide, by decide, by decide, rfl⟩
    | contains => exact ⟨'*', _, rfl, by decide, by decide, by decide, rfl⟩

theorem takes_bracketed {b : Bool} (name : PlainName)
    (condition : Option (AttributeOperator × String)) (rest : List Char) :
    Token.Takes rest b (.attribute ('[' :: (name.chars ++ conditionText condition)))
      ('[' :: (name.chars ++ conditionText condition)) := by
  obtain ⟨c, more, hCondition, hSlash, hPart, -, -⟩ := conditionText_cases condition
  have hEnds : EndsName (conditionText condition ++ rest) := by
    rw [hCondition]
    exact splitName_stop_of_not hSlash hPart _
  refine .bracketed (readStrictAttribute_iff.mpr
    ⟨[], [], name.chars, conditionText condition, by simp, isGap_nil, Or.inl rfl, ?_,
      takesTail_condition condition rest⟩)
  exact readName_plain name.starts name.plain hEnds

theorem attributeTerm?_bracketed (name : PlainName)
    (condition : Option (AttributeOperator × String)) :
    attributeTerm? ('[' :: (name.chars ++ conditionText condition)) =
      some (.attribute (String.ofList name.chars) condition) := by
  obtain ⟨c, more, hCondition, hSlash, -, hEnds, hSpace⟩ := conditionText_cases condition
  have hName : IsInName endsAttributeName name.chars :=
    fun c hc => (isRegular_of_isPlain (name.plain c hc)).inName
  have hTerm : ∀ written, readCondition (conditionText condition) = some written →
      attributeTerm? ('[' :: (name.chars ++ conditionText condition)) =
        some (attributeOf name.chars written) := by
    intro written hWritten
    rw [hCondition] at hWritten ⊢
    exact attributeTerm?_named hName name.ne_nil hSlash hEnds hSpace hWritten
  match condition, hTerm with
  | none, hTerm =>
    have hClosed : readCondition (conditionText none) = some none := by rfl
    rw [hTerm none hClosed, attributeOf, unescape_plain name.plain]
    rfl
  | some (op, value), hTerm =>
    have hValue := unescape_writtenInString value.toList []
    rw [List.append_nil, unescape, List.append_nil] at hValue
    rw [hTerm _ (readCondition_written op value.toList), attributeOf, unescape_plain name.plain]
    change some (Term.attribute _ (some (op, String.ofList (unescape _)))) = _
    rw [hValue, String.ofList_toList]

/-! ## Scanning what is printed -/

variable {rest : List Char}

theorem delimits_nil : Delimits [] := by
  intro c hc
  cases hc

theorem Simple.delimits (simple : Simple) (rest : List Char) : Delimits (simple.text ++ rest) := by
  intro c hc
  cases simple with
  | pseudo kind name => cases kind <;> (cases Option.some.inj hc; decide)
  | function kind name hName argument => cases kind <;> (cases Option.some.inj hc; decide)
  | nested kind name hName arguments => cases kind <;> (cases Option.some.inj hc; decide)
  | _ =>
    cases Option.some.inj hc
    decide

theorem Simples.delimits (simples : Simples) (hRest : Delimits rest) :
    Delimits (simples.text ++ rest) := by
  cases simples with
  | nil => exact hRest
  | cons first more =>
    rw [Simples.text, List.append_assoc]
    exact first.delimits _

theorem Combinator.delimits (combinator : Combinator) (rest : List Char) :
    Delimits (combinator.text ++ rest) := by
  intro c hc
  cases combinator <;> (cases Option.some.inj hc; decide)

theorem Name.readName (name : Name) (hRest : Delimits rest) :
    readName (writtenName name.chars ++ rest) = some (writtenName name.chars, rest) :=
  readName_writtenName name.ne_nil name.writable (endsName_of_delimits hRest)

/-- The text may be the start of a compound selector. -/
def StartsCompound (text : List Char) : Prop :=
  ∃ c more, text = c :: more ∧ isSpacing c = false ∧ c ∉ ['>', '+', '~', ',', ')']

theorem StartsCompound.skipSpacing_eq {text : List Char} (h : StartsCompound text) :
    skipSpacing text = text := by
  obtain ⟨c, more, rfl, hSpacing, -⟩ := h
  exact skipSpacing_cons hSpacing more

theorem startsCompound_of_startsName {text : List Char} (h : startsName text = true) :
    StartsCompound text := by
  rcases startsName_cases h with ⟨d, more, rfl, -⟩ | ⟨c, more, rfl, hPart⟩
  · exact ⟨_, _, rfl, by decide, by decide⟩
  · have hOther : ∀ d ∈ [' ', '\t', '\r', '\n', '\x0c', '>', '+', '~', ',', ')'],
        isNamePart d = false := by
      decide
    refine ⟨c, more, rfl, Bool.eq_false_iff.mpr fun hSpacing => ?_, fun hSign => ?_⟩
    · rcases eq_of_isSpacing hSpacing with rfl | rfl | rfl | rfl | rfl <;>
        exact absurd hPart (by decide)
    · have hFalse := hOther c (by simp only [List.mem_cons] at hSign ⊢; tauto)
      rw [hPart] at hFalse
      cases hFalse

theorem Simple.startsCompound (simple : Simple) (rest : List Char) :
    StartsCompound (simple.text ++ rest) := by
  have hStart : ∀ c ∈ ['.', '#', '[', ':'], ∀ more, StartsCompound (c :: more) := by
    intro c hc more
    have hPlain : ∀ c ∈ ['.', '#', '[', ':'],
        isSpacing c = false ∧ c ∉ ['>', '+', '~', ',', ')'] := by decide
    exact ⟨c, more, rfl, hPlain c hc⟩
  cases simple with
  | hasClass name => exact hStart '.' (by decide) _
  | hasId name => exact hStart '#' (by decide) _
  | bracketed name condition => exact hStart '[' (by decide) _
  | pseudo kind name => cases kind <;> exact hStart ':' (by decide) _
  | function kind name hName argument => cases kind <;> exact hStart ':' (by decide) _
  | nested kind name hName arguments => cases kind <;> exact hStart ':' (by decide) _

theorem Compound.startsCompound (compound : Compound) (rest : List Char) :
    StartsCompound (compound.text ++ rest) := by
  cases compound with
  | tag name more =>
    rw [Compound.text, List.append_assoc]
    exact startsCompound_of_startsName (startsName_writtenName name.ne_nil name.writable _)
  | universal more => exact ⟨_, _, rfl, by decide, by decide⟩
  | simple first more =>
    rw [Compound.text, List.append_assoc]
    exact first.startsCompound _

theorem Complex.startsCompound (complex : Complex) (rest : List Char) :
    StartsCompound (complex.text ++ rest) := by
  cases complex with
  | single compound => exact compound.startsCompound rest
  | joined compound combinator more =>
    rw [Complex.text, List.append_assoc]
    exact compound.startsCompound _

theorem SelectorList.startsCompound (list : SelectorList) (rest : List Char) :
    StartsCompound (list.text ++ rest) := by
  cases list with
  | single complex => exact complex.startsCompound rest
  | more complex others =>
    rw [SelectorList.text, List.append_assoc]
    exact complex.startsCompound _

theorem Combinator.takes (combinator : Combinator) (hRest : StartsCompound rest) :
    Token.Takes rest false .combinator combinator.text := by
  cases combinator with
  | descendant => exact .descendant isGap_space (by decide) hRest.skipSpacing_eq (by
    obtain ⟨c, more, rfl, -, hSign⟩ := hRest
    simpa using hSign)
  | child => exact .joint (by decide) isGap_space isGap_space hRest.skipSpacing_eq
  | next => exact .joint (by decide) isGap_space isGap_space hRest.skipSpacing_eq
  | subsequent => exact .joint (by decide) isGap_space isGap_space hRest.skipSpacing_eq

mutual

theorem Simple.scan_text {b : Bool} {rest : List Char} : (simple : Simple) → Delimits rest →
    Token.scan b (simple.text ++ rest) = simple.tokens ++ Token.scan false rest
  | .hasClass name, hRest => Token.scan_takes (.hasClass (name.readName hRest))
  | .hasId name, hRest => Token.scan_takes (.hasId (name.readName hRest))
  | .bracketed name condition, _ => Token.scan_takes (takes_bracketed name condition rest)
  | .pseudo kind name, hRest =>
    Token.scan_takes (takes_colons (by simpa using head_ne_colon name.ne_nil name.plain [])
      name.ne_nil (takesPseudo_name name hRest))
  | .function kind name hName argument, _ =>
    Token.scan_takes (takes_colons (head_ne_colon name.ne_nil name.plain _) (by simp)
      (takesPseudo_function name hName argument rest))
  | .nested kind name hName arguments, hRest => by
    have hText : (Simple.nested kind name hName arguments).text ++ rest =
        (colons kind ++ (name.toList ++ ['('])) ++ (arguments.text ++ ([')'] ++ rest)) := by
      simp [Simple.text]
    have hClosing : Delimits ([')'] ++ rest) := by
      intro c hc
      cases Option.some.inj hc
      decide
    obtain ⟨-, hSome, hPlain⟩ := isSelectorFunction_of_mem hName
    have hOpening : Token.TakesPseudo kind (arguments.text ++ ([')'] ++ rest)) _ _ :=
      takesPseudo_nested hName (arguments.startsCompound ([')'] ++ rest)).skipSpacing_eq
    rw [hText, Token.scan_takes (takes_colons (head_ne_colon hSome hPlain _) (by simp) hOpening),
      Simple.tokens]
    change _ :: Token.scan true _ = _
    have hTakes : Token.Takes rest false .closing [')'] := .closing isGap_nil
    rw [arguments.scan_text hClosing, Token.scan_takes hTakes]
    simp [Token.opensCompound]

theorem Simples.scan_text {rest : List Char} : (simples : Simples) → Delimits rest →
    Token.scan false (simples.text ++ rest) = simples.tokens ++ Token.scan false rest
  | .nil, _ => rfl
  | .cons first more, hRest => by
    rw [Simples.text, Simples.tokens, List.append_assoc, List.append_assoc,
      first.scan_text (more.delimits hRest), more.scan_text hRest]

theorem Compound.scan_text {rest : List Char} : (compound : Compound) → Delimits rest →
    Token.scan true (compound.text ++ rest) = compound.tokens ++ Token.scan false rest
  | .tag name more, hRest => by
    rw [Compound.text, Compound.tokens, List.append_assoc,
      Token.scan_takes (.tag (name.readName (more.delimits hRest)))]
    exact congrArg _ (more.scan_text hRest)
  | .universal more, hRest => by
    change Token.scan true (['*'] ++ (more.text ++ rest)) = _
    rw [Token.scan_takes .universal]
    exact congrArg _ (more.scan_text hRest)
  | .simple first more, hRest => by
    rw [Compound.text, Compound.tokens, List.append_assoc, List.append_assoc,
      first.scan_text (more.delimits hRest), more.scan_text hRest]

theorem Complex.scan_text {rest : List Char} : (complex : Complex) → Delimits rest →
    Token.scan true (complex.text ++ rest) = complex.tokens ++ Token.scan false rest
  | .single compound, hRest => compound.scan_text hRest
  | .joined compound combinator more, hRest => by
    rw [Complex.text, Complex.tokens, List.append_assoc, List.append_assoc, List.append_assoc,
      compound.scan_text (combinator.delimits _),
      Token.scan_takes (combinator.takes (more.startsCompound rest))]
    exact congrArg (compound.tokens ++ .combinator :: ·) (more.scan_text hRest)

theorem SelectorList.scan_text {rest : List Char} : (list : SelectorList) → Delimits rest →
    Token.scan true (list.text ++ rest) = list.tokens ++ Token.scan false rest
  | .single complex, hRest => complex.scan_text hRest
  | .more complex others, hRest => by
    have hComma : Delimits ([',', ' '] ++ (others.text ++ rest)) := by
      intro c hc
      cases Option.some.inj hc
      decide
    have hTakes : Token.Takes (others.text ++ rest) false .comma [',', ' '] :=
      .comma isGap_nil isGap_space (others.startsCompound rest).skipSpacing_eq
    rw [SelectorList.text, SelectorList.tokens, List.append_assoc, List.append_assoc,
      List.append_assoc, complex.scan_text hComma, Token.scan_takes hTakes]
    exact congrArg (complex.tokens ++ .comma :: ·) (others.scan_text hRest)

end

/-! ## Gathering what is scanned -/

theorem gather_name (name : Name) : gather.text (writtenName name.chars) = String.ofList name.chars := by
  rw [gather.text, (isSpelling_writtenName name.writable).unescape_eq]

theorem lower_plain (name : PlainName) :
    lower (gather.text name.chars) = String.ofList name.chars := by
  rw [gather.text, unescape_plain name.plain, lower, String.toList_ofList, lowerChars_plain name.plain]

mutual

/-- A simple selector is the next term of the list that its tokens stand in. -/
theorem Simple.lists {rest : List Token} {ts : List Term} {more : List ComplexSelector}
    (h : Lists id rest ts more) : (simple : Simple) →
    Lists id (simple.tokens ++ rest) (simple.term :: ts) more
  | .hasClass name => by
    refine .simple ?_ h
    change some (Term.hasClass _) = _
    rw [gather_name, Simple.term]
  | .hasId name => by
    refine .simple ?_ h
    change some (Term.hasId _) = _
    rw [gather_name, Simple.term]
  | .bracketed name condition => .simple (attributeTerm?_bracketed name condition) h
  | .pseudo kind name => by
    refine .simple ?_ h
    change some (Term.pseudo kind _ none) = _
    rw [lower_plain, Simple.term]
  | .function kind name hName argument => by
    refine .simple ?_ h
    change some (Term.pseudo kind (String.ofList (openingName _))
      (some (String.ofList (trimChars argument.chars)))) = _
    rw [openingName_plain name.plain, trimChars_of_isBare argument.bare, Simple.term]
  | .nested kind name hName arguments => by
    obtain ⟨-, -, hPlain⟩ := isSelectorFunction_of_mem hName
    obtain ⟨ts', more', hArguments, hInner⟩ := arguments.lists
    have hNested : Lists id (.opening kind (name.toList ++ ['(']) :: (arguments.tokens ++ .closing :: rest))
        (.nested kind (String.ofList (openingName (name.toList ++ ['(']))) (ts' :: more') :: ts) more :=
      .nested rfl rfl hInner h
    rw [openingName_plain hPlain, String.ofList_toList, ← hArguments] at hNested
    rw [Simple.tokens, List.cons_append, List.append_assoc, List.singleton_append, Simple.term]
    exact hNested

theorem Simples.lists {rest : List Token} {ts : List Term} {more : List ComplexSelector}
    (h : Lists id rest ts more) : (simples : Simples) →
    Lists id (simples.tokens ++ rest) (simples.terms ++ ts) more
  | .nil => h
  | .cons first others => by
    rw [Simples.tokens, List.append_assoc]
    exact Simple.lists (Simples.lists h others) first

theorem Compound.lists {rest : List Token} {ts : List Term} {more : List ComplexSelector}
    (h : Lists id rest ts more) : (compound : Compound) →
    Lists id (compound.tokens ++ rest) (compound.terms ++ ts) more
  | .tag name others => by
    refine .simple ?_ (Simples.lists h others)
    change some (Term.tag _) = _
    rw [gather_name]
  | .universal others => .simple rfl (Simples.lists h others)
  | .simple first others => by
    rw [Compound.tokens, List.append_assoc]
    exact Simple.lists (Simples.lists h others) first

theorem Complex.lists {rest : List Token} {ts : List Term} {more : List ComplexSelector}
    (h : Lists id rest ts more) : (complex : Complex) →
    Lists id (complex.tokens ++ rest) (complex.terms ++ ts) more
  | .single compound => Compound.lists h compound
  | .joined compound _ others => by
    have hRest : Lists id (.combinator :: (others.tokens ++ rest)) (others.terms ++ ts) more :=
      .joint rfl (Complex.lists h others)
    have hWhole := Compound.lists hRest compound
    rw [Complex.tokens, Complex.terms, List.append_assoc, List.append_assoc]
    exact hWhole

theorem SelectorList.lists : (list : SelectorList) →
    ∃ ts more, list.complexes = ts :: more ∧ Lists id list.tokens ts more
  | .single complex => by
    have hWhole := Complex.lists .nil complex
    rw [List.append_nil, List.append_nil] at hWhole
    exact ⟨complex.terms, [], rfl, hWhole⟩
  | .more complex others => by
    obtain ⟨ts, more, hComplexes, hOthers⟩ := others.lists
    have hWhole := Complex.lists (.comma rfl hOthers) complex
    rw [List.append_nil, ← hComplexes] at hWhole
    exact ⟨complex.terms, others.complexes, rfl, hWhole⟩

end

/-! ## Parsing -/

/-- Parsing undoes printing. -/
theorem parse_text (list : SelectorList) :
    parse (String.ofList list.text) = .ok list.complexes := by
  obtain ⟨ts, more, hComplexes, hLists⟩ := list.lists
  have hGather := hLists.gather_eq
  have hScan := list.scan_text delimits_nil
  rw [List.append_nil, Token.scan_nil, if_neg Bool.false_ne_true, List.append_nil] at hScan
  rw [List.map_id] at hGather
  have hSome : (String.ofList list.text).isEmpty = false := by
    obtain ⟨c, behind, hText, -⟩ := list.startsCompound []
    rw [List.append_nil] at hText
    simp [hText]
  rw [parse, hSome, if_neg Bool.false_ne_true, String.toList_ofList, hScan, hGather, hComplexes]

example : (SelectorList.more (.single (.universal (.cons (.hasClass ⟨['1', ':'], by decide, by decide⟩)
      .nil))) (.single (.single (.simple (.bracketed ⟨['a'], by decide, by decide⟩
      (some (.includes, "b\""))) .nil)))).text = "*.\\31 \\:, [a~=\"b\\\"\"]".toList := by
  decide +kernel

end StyleSieve.Selector.Printed
