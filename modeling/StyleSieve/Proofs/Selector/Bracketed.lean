import StyleSieve.Proofs.Css.Forms
import StyleSieve.Proofs.Selector.Loose
import StyleSieve.Proofs.Selector.Steps

/-!
# Attribute selectors by their parts

The parts of an attribute selector do not depend on what follows it. A style sheet reads each of
them as lexemes of its own, and writes them one behind the other.

* `exists_bracketed`: every attribute selector has parts.
* `Bracketed.IsRead.readStrictAttribute`: it is read whatever follows it.
* `Bracketed.IsRead.lexemes_text`, `Bracketed.IsRead.forms`: its lexemes, and how they are written.
-/

namespace StyleSieve.Selector

open Text
open Css (isPlain lexemes Lexeme Edge AdmitsName AnyEdge anyEdge_name anyEdge_other Forms writtenName)

variable {name rest cs : List Char} {c : Char} {y : List Char}

/-- What follows a name behind the character that ends it does not matter. -/
theorem readName_behind (h : readName (name ++ c :: y) = some (name, c :: y)) (hSlash : c ≠ '\\')
    (more : List Char) : readName (name ++ c :: more) = some (name, c :: more) := by
  obtain ⟨hStart, hSplit⟩ := readName_iff.mp h
  have hPart : isNamePart c = false := (stop_of_readName h c rfl).resolve_left hSlash
  refine readName_iff.mpr ⟨?_, ?_⟩
  · have hTaken := startsName_take hSlash hPart (ne_nil_of_readName h) hStart
    have hWhole := startsName_append hTaken more
    rwa [List.append_assoc] at hWhole
  · rcases readsUpTo_of_splitName hSlash hPart hSplit with hAll | ⟨v, d, w, -, hIn, hOut, -⟩
    · exact hAll more
    · rw [hIn] at hOut
      cases hOut

/-! ## Parts -/

/-- The value of an attribute. -/
inductive Value where
  | name (text : List Char)
  | quoted (quote : Char) (body : List Char)

namespace Value

def text : Value → List Char
  | .name text => text
  | .quoted quote body => quote :: body ++ [quote]

def lexeme : Value → Lexeme
  | .name text => .name (unescape text)
  | .quoted _ body => .text (writtenValue (unescape body))

/-- The value as a style sheet writes it. -/
def rewritten : Value → List Char
  | .name text => writtenName (unescape text)
  | .quoted _ body => writtenValue (unescape body)

/-- In front of `behind` the value is read. -/
def IsRead (behind : List Char) : Value → Prop
  | .name text => ∀ more, readName (text ++ (behind ++ more)) = some (text, behind ++ more)
  | .quoted quote body => (quote = '"' ∨ quote = '\'') ∧
    ∀ more, readQuoted (quote :: body ++ [quote] ++ more) = some (quote :: body ++ [quote], more)

end Value

/-- The operator of an attribute selector with its value, and a flag if there is one. -/
structure Comparison where
  sign : List Char
  gap : List Char
  value : Value
  gap' : List Char
  flag : List Char

namespace Comparison

/-- What stands behind the value. -/
def behind (comparison : Comparison) : List Char := comparison.gap' ++ comparison.flag

def text (comparison : Comparison) : List Char :=
  comparison.sign ++ (comparison.gap ++ (comparison.value.text ++ comparison.behind))

/-- The comparison as a style sheet writes it. -/
def rewritten (comparison : Comparison) : List Char :=
  comparison.sign ++ (comparison.gap ++ (comparison.value.rewritten ++ comparison.behind))

structure IsRead (comparison : Comparison) : Prop where
  sign : IsOperator ['~', '|', '^', '$', '*'] comparison.sign
  gap : IsGap comparison.gap
  value : comparison.value.IsRead (comparison.behind ++ [']'])
  gap' : IsGap comparison.gap'
  flag : IsFlag comparison.flag

end Comparison

/-- What stands in front of the name of an attribute. -/
inductive Space where
  | none
  | bar
  | star
  | name (text : List Char)

namespace Space

def text : Space → List Char
  | .none => []
  | .bar => ['|']
  | .star => ['*', '|']
  | .name text => text ++ ['|']

/-- The namespace as a style sheet writes it. -/
def rewritten : Space → List Char
  | .name text => writtenName (unescape text) ++ ['|']
  | space => space.text

def lexemes : Space → List Lexeme
  | .none => []
  | .bar => [.sign ['|']]
  | .star => [.sign ['*'], .sign ['|']]
  | .name text => [.name (unescape text), .sign ['|']]

def IsRead : Space → Prop
  | .name text => ∀ more, readName (text ++ '|' :: more) = some (text, '|' :: more)
  | _ => True

end Space

/-- The parts of an attribute selector behind its opening bracket. -/
structure Bracketed where
  gap : List Char
  space : Space
  name : List Char
  gap' : List Char
  comparison : Option Comparison

namespace Bracketed

/-- What stands behind the name. -/
def tail (parts : Bracketed) : List Char :=
  parts.gap' ++ ((parts.comparison.elim [] Comparison.text) ++ [']'])

def text (parts : Bracketed) : List Char :=
  parts.gap ++ (parts.space.text ++ (parts.name ++ parts.tail))

/-- The parts as a style sheet writes them. -/
def rewritten (parts : Bracketed) : List Char :=
  parts.gap ++ (parts.space.rewritten ++ (writtenName (unescape parts.name) ++
    (parts.gap' ++ parts.comparison.elim [] Comparison.rewritten)))

/-- No name or value names half of a surrogate pair. -/
structure HasNoHalf (parts : Bracketed) : Prop where
  space : ∀ text, parts.space = .name text → escapesHalf text = false
  name : escapesHalf parts.name = false
  value : ∀ comparison ∈ parts.comparison, escapesHalf comparison.value.text = false

structure IsRead (parts : Bracketed) : Prop where
  gap : IsGap parts.gap
  space : parts.space.IsRead
  name : ∀ more, readName (parts.name ++ (parts.tail ++ more)) = some (parts.name, parts.tail ++ more)
  gap' : IsGap parts.gap'
  comparison : ∀ comparison ∈ parts.comparison, comparison.IsRead

end Bracketed

/-! ## Where the parts come from -/

/-- A value and its kind. -/
theorem exists_value {text gap flag : List Char} (hGap : IsGap gap) (hFlag : IsFlag flag)
    (h : readStrictValue (text ++ (gap ++ (flag ++ ']' :: rest))) =
      some (text, gap ++ (flag ++ ']' :: rest))) :
    ∃ value : Value, value.text = text ∧ value.IsRead (gap ++ flag ++ [']']) := by
  unfold readStrictValue at h
  cases hName : readName (text ++ (gap ++ (flag ++ ']' :: rest))) with
  | none =>
    rw [hName] at h
    have hQuoted : readQuoted (text ++ (gap ++ (flag ++ ']' :: rest))) = some (text, _) := h
    obtain ⟨quote, body, hQuote, rfl⟩ := exists_body hQuoted
    exact ⟨.quoted quote body, rfl, hQuote, fun more => readQuoted_behind hQuoted more⟩
  | some r =>
    rw [hName] at h
    cases h
    obtain ⟨c, hSlash, -, -, hEnd⟩ := exists_end hGap hFlag hName
    obtain ⟨y, hText⟩ := hEnd rest
    rw [hText] at hName
    refine ⟨.name text, rfl, fun more => ?_⟩
    obtain ⟨z, hMore⟩ := hEnd more
    have hBehind := readName_behind hName hSlash z
    rw [← hMore] at hBehind
    simpa using hBehind

theorem exists_tail {tail : List Char}
    (h : TakesTail ['~', '|', '^', '$', '*'] readStrictValue rest tail) :
    ∃ (gap : List Char) (comparison : Option Comparison), IsGap gap ∧ (∀ c ∈ comparison, c.IsRead) ∧
      tail = gap ++ (comparison.elim [] Comparison.text ++ [']']) := by
  cases h with
  | @bare gap hGap => exact ⟨gap, none, hGap, nofun, rfl⟩
  | @compared gap sign gap' text gap'' flag hGap hSign hGap' hValue hGap'' hFlag =>
    obtain ⟨value, rfl, hRead⟩ := exists_value hGap'' hFlag hValue
    refine ⟨gap, some ⟨sign, gap', value, gap'', flag⟩, hGap, ?_, ?_⟩
    · rintro _ ⟨⟩
      exact ⟨hSign, hGap', hRead, hGap'', hFlag⟩
    · simp [Comparison.text, Comparison.behind]

/-- Every attribute selector has parts. -/
theorem exists_bracketed (h : readStrictAttribute cs = some rest) :
    ∃ parts : Bracketed, parts.IsRead ∧ cs = parts.text ++ rest := by
  obtain ⟨gap, space, name, tail, rfl, hGap, hSpace, hName, hTail⟩ := readStrictAttribute_iff.mp h
  obtain ⟨c, more, hHead, hSlash, -⟩ := hTail.exists_head
  obtain ⟨gap', comparison, hGap', hComparison, hText⟩ := exists_tail hTail
  have hRead : ∀ more, readName (name ++ (tail ++ more)) = some (name, tail ++ more) := by
    intro after
    rw [hHead] at hName ⊢
    exact readName_behind hName hSlash _
  obtain ⟨space', rfl, hSpace'⟩ : ∃ space' : Space, space'.text = space ∧ space'.IsRead := by
    rcases hSpace with rfl | rfl | rfl | ⟨text, rfl, hBar⟩
    · exact ⟨.none, rfl, trivial⟩
    · exact ⟨.bar, rfl, trivial⟩
    · exact ⟨.star, rfl, trivial⟩
    · exact ⟨.name text, rfl, readName_behind hBar (by decide)⟩
  refine ⟨⟨gap, space', name, gap', comparison⟩, ⟨hGap, hSpace', ?_, hGap', hComparison⟩, ?_⟩
  · rwa [hText] at hRead
  · simp [Bracketed.text, Bracketed.tail, hText]

theorem Value.IsRead.readStrictValue {value : Value} {behind : List Char} (h : value.IsRead behind)
    (rest : List Char) :
    readStrictValue (value.text ++ (behind ++ rest)) = some (value.text, behind ++ rest) := by
  unfold Selector.readStrictValue
  cases value with
  | name text =>
    have hRead := h rest
    rw [Value.text, hRead]
    rfl
  | quoted quote body =>
    have hName : readName (quote :: body ++ [quote] ++ (behind ++ rest)) = none := by
      rcases h.1 with rfl | rfl <;> rfl
    have hRead := h.2 (behind ++ rest)
    rw [Value.text, hName]
    exact hRead

namespace Bracketed.IsRead

variable {parts : Bracketed}

theorem takesTail (h : parts.IsRead) (rest : List Char) :
    TakesTail ['~', '|', '^', '$', '*'] readStrictValue rest parts.tail := by
  obtain ⟨gap, space, name, gap', comparison⟩ := parts
  cases comparison with
  | none => exact .bare h.gap'
  | some comparison =>
    obtain ⟨hSign, hGap, hValue, hGap', hFlag⟩ := h.comparison comparison rfl
    have hRead : readStrictValue (comparison.value.text ++ (comparison.gap' ++ (comparison.flag ++
        ']' :: rest))) = some (comparison.value.text, comparison.gap' ++ (comparison.flag ++ ']' :: rest)) := by
      simpa [Comparison.behind] using hValue.readStrictValue rest
    have hTail := TakesTail.compared h.gap' hSign hGap hRead hGap' hFlag
    simpa [Bracketed.tail, Comparison.text, Comparison.behind] using hTail

/-- The parts are read whatever follows them. -/
theorem readStrictAttribute (h : parts.IsRead) (rest : List Char) :
    readStrictAttribute (parts.text ++ rest) = some rest := by
  refine readStrictAttribute_iff.mpr ⟨parts.gap, parts.space.text, parts.name, parts.tail,
    by simp [Bracketed.text], h.gap, ?_, h.name rest, h.takesTail rest⟩
  have hSpace := h.space
  cases hKind : parts.space with
  | none => exact Or.inl rfl
  | bar => exact Or.inr (Or.inl rfl)
  | star => exact Or.inr (Or.inr (Or.inl rfl))
  | name text =>
    rw [hKind] at hSpace
    exact Or.inr (Or.inr (Or.inr ⟨text, rfl, hSpace _⟩))

end Bracketed.IsRead

/-! ## Lexemes -/

def flagLexemes : List Char → List Lexeme
  | [] => []
  | f :: gap => .name [f] :: blanks gap

def Comparison.lexemes (comparison : Comparison) : List Lexeme :=
  .sign comparison.sign :: (blanks comparison.gap ++ comparison.value.lexeme ::
    (blanks comparison.gap' ++ flagLexemes comparison.flag))

def Bracketed.lexemes (parts : Bracketed) : List Lexeme :=
  blanks parts.gap ++ (parts.space.lexemes ++ .name (unescape parts.name) ::
    (blanks parts.gap' ++ parts.comparison.elim [] Comparison.lexemes))

section Lexemes

variable {gap flag behind : List Char}

theorem plain_behind {x : List Char} (h : (x ++ y).all isPlain = true) : y.all isPlain = true := by
  rw [List.all_append, Bool.and_eq_true] at h
  exact h.2

theorem mem_wordEnds_gap (hGap : IsGap gap) (h : ∀ c ∈ rest.head?, c ∈ wordEnds) :
    ∀ c ∈ (gap ++ rest).head?, c ∈ wordEnds := by
  cases gap with
  | nil => exact h
  | cons d gap =>
    intro c hc
    cases hc
    rcases eq_of_isSpacing (hGap d List.mem_cons_self) with rfl | rfl | rfl | rfl | rfl <;> decide

theorem mem_wordEnds_closing (rest : List Char) : ∀ c ∈ (']' :: rest).head?, c ∈ wordEnds := by
  intro c hc
  cases hc
  decide

theorem skipSpacing_closing (rest : List Char) : skipSpacing (']' :: rest) = ']' :: rest :=
  skipSpacing_cons (by decide) rest

theorem readName_flag (hFlag : c ∈ ['i', 'I', 's', 'S']) (hEnds : ∀ d ∈ rest.head?, d ∈ wordEnds) :
    readName ([c] ++ rest) = some ([c], rest) := by
  have hAll : ∀ d ∈ wordEnds, d ≠ '\\' ∧ isNamePart d = false := by decide
  have hStop : splitName isNamePart 0 rest = ([], rest) := by
    cases rest with
    | nil => rfl
    | cons d more =>
      obtain ⟨hSlash, hPart⟩ := hAll d (hEnds d rfl)
      exact splitName_stop_of_not hSlash hPart more
  have hLetter : isNamePart c = true ∧ startsName [c] = true := by
    have hLetters : ∀ c ∈ ['i', 'I', 's', 'S'], isNamePart c = true ∧ startsName [c] = true := by decide
    exact hLetters c hFlag
  refine readName_iff.mpr ⟨startsName_append hLetter.2 rest, ?_⟩
  rw [List.singleton_append, splitName_part (isNamePart_ne_slash hLetter.1) hLetter.1, hStop]

theorem lexemes_flag [Surrogates] (hFlag : IsFlag flag)
    (hPlain : (flag ++ ']' :: rest).all isPlain = true) :
    lexemes (flag ++ ']' :: rest) = flagLexemes flag ++ .closing ']' :: lexemes rest := by
  rcases hFlag with rfl | ⟨f, hf, gap, hGap, rfl⟩
  · exact lexemes_closing (Or.inl rfl) rest
  · have hEnds := mem_wordEnds_gap hGap (mem_wordEnds_closing rest)
    have hValue : unescape [f] = [f] := by rw [unescape]
    have hText : (f :: gap) ++ ']' :: rest = [f] ++ (gap ++ ']' :: rest) := by simp
    rw [hText] at hPlain ⊢
    have hHalf : escapesHalf [f] = false := by
      have hLetters : ∀ f ∈ ['i', 'I', 's', 'S'], escapesHalf [f] = false := by decide
      exact hLetters f hf
    rw [lexemes_word (readName_flag hf hEnds) hHalf hPlain hEnds, hValue,
      lexemes_spacing hGap (plain_behind hPlain) (skipSpacing_closing rest),
      lexemes_closing (Or.inl rfl), flagLexemes]
    simp

theorem Value.IsRead.lexemes_text [Surrogates] {value : Value} (h : value.IsRead behind)
    (hHalf : escapesHalf value.text = false) (hPlain : (value.text ++ (behind ++ rest)).all isPlain = true)
    (hEnds : ∀ c ∈ (behind ++ rest).head?, c ∈ wordEnds ∨ isNamePart c = true) :
    lexemes (value.text ++ (behind ++ rest)) = value.lexeme :: lexemes (behind ++ rest) := by
  cases value with
  | name text =>
    have hRead := h rest
    refine lexemes_word hRead hHalf hPlain fun c hc => (hEnds c hc).resolve_right fun hPart => ?_
    rcases stop_of_readName hRead c hc with rfl | hOther
    · cases hPart
    · rw [hPart] at hOther
      cases hOther
  | quoted quote body =>
    have hRead := h.2 (behind ++ rest)
    obtain ⟨quote', body', -, hSame, hLexemes⟩ := lexemes_quoted hRead hHalf hPlain
    obtain ⟨rfl, hBody⟩ := List.cons.inj hSame
    rw [← List.append_cancel_right hBody] at hLexemes
    exact hLexemes

theorem operator_cases {sign : List Char} (h : IsOperator ['~', '|', '^', '$', '*'] sign) :
    ∃ c more, sign = c :: more ∧ c ∈ wordEnds ∧ isSpacing c = false := by
  have hMarks : ∀ c ∈ ['~', '|', '^', '$', '*'], c ∈ wordEnds ∧ isSpacing c = false := by decide
  rcases h with rfl | ⟨c, hc, rfl⟩
  · exact ⟨'=', [], rfl, by decide⟩
  · exact ⟨c, ['='], rfl, hMarks c hc⟩

theorem lexemes_operator [Surrogates] {sign : List Char} (h : IsOperator ['~', '|', '^', '$', '*'] sign)
    (rest : List Char) : lexemes (sign ++ rest) = .sign sign :: lexemes rest := by
  rcases h with rfl | ⟨c, hc, rfl⟩
  · exact lexemes_sign (by decide) rest
  · exact lexemes_compared hc rest

theorem Value.IsRead.skipSpacing_text {value : Value} (h : value.IsRead behind) (rest : List Char) :
    skipSpacing (value.text ++ (behind ++ rest)) = value.text ++ (behind ++ rest) :=
  isReader_readStrictValue.skipSpacing_append (h.readStrictValue rest)

theorem Comparison.IsRead.lexemes_text [Surrogates] {comparison : Comparison} (h : comparison.IsRead)
    (hHalf : escapesHalf comparison.value.text = false)
    (hPlain : (comparison.text ++ ']' :: rest).all isPlain = true) :
    Css.lexemes (comparison.text ++ ']' :: rest) =
      comparison.lexemes ++ .closing ']' :: Css.lexemes rest := by
  obtain ⟨sign, gap, value, gap', flag⟩ := comparison
  obtain ⟨hSign, hGap, hValue, hGap', hFlag⟩ := h
  replace hSign : IsOperator ['~', '|', '^', '$', '*'] sign := hSign
  replace hGap : IsGap gap := hGap
  replace hValue : value.IsRead (gap' ++ flag ++ [']']) := hValue
  replace hGap' : IsGap gap' := hGap'
  replace hFlag : IsFlag flag := hFlag
  have hText : Comparison.text ⟨sign, gap, value, gap', flag⟩ ++ ']' :: rest =
      sign ++ (gap ++ (value.text ++ (gap' ++ flag ++ [']'] ++ rest))) := by
    simp [Comparison.text, Comparison.behind]
  have hBehind : gap' ++ flag ++ [']'] ++ rest = gap' ++ (flag ++ ']' :: rest) := by simp
  rw [hText] at hPlain ⊢
  have hPlainGap := plain_behind hPlain
  have hPlainValue := plain_behind hPlainGap
  have hPlainGap' := plain_behind hPlainValue
  have hEnds : ∀ c ∈ (gap' ++ flag ++ [']'] ++ rest).head?, c ∈ wordEnds ∨ isNamePart c = true := by
    intro c hc
    rw [hBehind] at hc
    rcases hFlag with rfl | ⟨f, hf, after, -, rfl⟩
    · exact Or.inl (mem_wordEnds_gap hGap' (mem_wordEnds_closing rest) c hc)
    · cases gap' with
      | nil =>
        cases hc
        have hLetters : ∀ f ∈ ['i', 'I', 's', 'S'], isNamePart f = true := by decide
        exact Or.inr (hLetters _ hf)
      | cons d gap' =>
        cases hc
        have hStop : ∀ c ∈ ([] : List Char).head?, c ∈ wordEnds := by
          intro c hc
          cases hc
        exact Or.inl (mem_wordEnds_gap hGap' hStop _ rfl)
  have hFlagStart : skipSpacing (flag ++ ']' :: rest) = flag ++ ']' :: rest := by
    rcases hFlag with rfl | ⟨f, hf, after, -, rfl⟩
    · exact skipSpacing_closing rest
    · have hLetters : ∀ f ∈ ['i', 'I', 's', 'S'], isSpacing f = false := by decide
      exact skipSpacing_cons (hLetters f hf) _
  have hStart := hValue.skipSpacing_text rest
  rw [lexemes_operator hSign, lexemes_spacing hGap hPlainGap hStart,
    hValue.lexemes_text hHalf hPlainValue hEnds]
  rw [hBehind] at hPlainGap' ⊢
  rw [lexemes_spacing hGap' hPlainGap' hFlagStart, lexemes_flag hFlag (plain_behind hPlainGap')]
  simp [Comparison.lexemes]

/-- What stands behind the name and its spacing. -/
theorem Bracketed.IsRead.comparison_cases {parts : Bracketed} (h : parts.IsRead) (rest : List Char) :
    ∃ c more, parts.comparison.elim [] Comparison.text ++ ']' :: rest = c :: more ∧ c ∈ wordEnds ∧
      isSpacing c = false := by
  cases hKind : parts.comparison with
  | none => exact ⟨']', rest, rfl, by decide⟩
  | some comparison =>
    obtain ⟨c, more, hSign, hc⟩ := operator_cases (h.comparison comparison hKind).sign
    refine ⟨c, more ++ (comparison.gap ++ (comparison.value.text ++ comparison.behind)) ++ ']' :: rest,
      ?_, hc⟩
    simp [Comparison.text, hSign]

theorem Bracketed.IsRead.mem_wordEnds_tail {parts : Bracketed} (h : parts.IsRead) (rest : List Char) :
    ∀ c ∈ (parts.tail ++ rest).head?, c ∈ wordEnds := by
  have hText : parts.tail ++ rest =
      parts.gap' ++ (parts.comparison.elim [] Comparison.text ++ ']' :: rest) := by
    simp [Bracketed.tail]
  obtain ⟨c, more, hHead, hc, -⟩ := h.comparison_cases rest
  rw [hText, hHead]
  refine mem_wordEnds_gap h.gap' ?_
  intro d hd
  cases hd
  exact hc

theorem Bracketed.IsRead.lexemes_tail [Surrogates] {parts : Bracketed} (h : parts.IsRead)
    (hHalf : parts.HasNoHalf) (hPlain : (parts.tail ++ rest).all isPlain = true) :
    Css.lexemes (parts.tail ++ rest) = blanks parts.gap' ++
      (parts.comparison.elim [] Comparison.lexemes ++ .closing ']' :: Css.lexemes rest) := by
  have hText : parts.tail ++ rest =
      parts.gap' ++ (parts.comparison.elim [] Comparison.text ++ ']' :: rest) := by
    simp [Bracketed.tail]
  have hStart : skipSpacing (parts.comparison.elim [] Comparison.text ++ ']' :: rest) =
      parts.comparison.elim [] Comparison.text ++ ']' :: rest := by
    obtain ⟨c, more, hHead, -, hSpacing⟩ := h.comparison_cases rest
    rw [hHead]
    exact skipSpacing_cons hSpacing more
  rw [hText] at hPlain ⊢
  have hPlainBehind := plain_behind hPlain
  rw [lexemes_spacing h.gap' hPlain hStart]
  cases hKind : parts.comparison with
  | none =>
    change blanks parts.gap' ++ Css.lexemes (']' :: rest) = _
    rw [lexemes_closing (Or.inl rfl)]
    rfl
  | some comparison =>
    rw [hKind] at hPlainBehind
    exact congrArg (blanks parts.gap' ++ ·)
      ((h.comparison comparison hKind).lexemes_text (hHalf.value comparison hKind) hPlainBehind)

/-- A namespace in front of the name of an attribute. -/
theorem Space.IsRead.lexemes_text [Surrogates] {space : Space} (h : space.IsRead)
    (hHalf : ∀ text, space = .name text → escapesHalf text = false) (hStart : startsName rest = true)
    (hPlain : (space.text ++ rest).all isPlain = true) :
    Css.lexemes (space.text ++ rest) = space.lexemes ++ Css.lexemes rest := by
  have hHead : ∀ c ∈ rest.head?, c ≠ '=' ∧ c ≠ '|' := by
    intro c hc
    obtain ⟨more, rfl⟩ : ∃ more, rest = c :: more := by
      cases rest with
      | nil => cases hc
      | cons d more =>
        cases hc
        exact ⟨more, rfl⟩
    constructor
    · rintro rfl
      cases hStart
    · rintro rfl
      cases hStart
  have hBar : Css.lexemes ('|' :: rest) = .sign ['|'] :: Css.lexemes rest :=
    lexemes_mark (by decide) (fun hEquals => (hHead _ hEquals).1 rfl)
      (fun _ hBar => (hHead _ hBar).2 rfl)
  cases space with
  | none => rfl
  | bar => exact hBar
  | star =>
    change Css.lexemes ('*' :: '|' :: rest) = _
    rw [lexemes_mark (by decide) (by simp) (by simp), hBar]
    rfl
  | name text =>
    have hText : (Space.name text).text ++ rest = text ++ '|' :: rest := by simp [Space.text]
    rw [hText] at hPlain ⊢
    rw [lexemes_word (h rest) (hHalf text rfl) hPlain (by simp [wordEnds]), hBar]
    rfl

/-- The lexemes of an attribute selector behind its opening bracket. -/
theorem Bracketed.IsRead.lexemes_text [Surrogates] {parts : Bracketed} (h : parts.IsRead)
    (hHalf : parts.HasNoHalf) (hPlain : (parts.text ++ rest).all isPlain = true) :
    Css.lexemes (parts.text ++ rest) = parts.lexemes ++ .closing ']' :: Css.lexemes rest := by
  have hText : parts.text ++ rest =
      parts.gap ++ (parts.space.text ++ (parts.name ++ (parts.tail ++ rest))) := by
    simp [Bracketed.text]
  have hName := h.name rest
  have hStart : skipSpacing (parts.space.text ++ (parts.name ++ (parts.tail ++ rest))) =
      parts.space.text ++ (parts.name ++ (parts.tail ++ rest)) := by
    have hSpace := h.space
    cases hKind : parts.space with
    | none =>
      have hWhole := isReader_readName.skipSpacing_append hName
      exact hWhole
    | bar => exact skipSpacing_cons (by decide) _
    | star => exact skipSpacing_cons (by decide) _
    | name text =>
      rw [hKind] at hSpace
      have hRead := hSpace (parts.name ++ (parts.tail ++ rest))
      have hWhole := isReader_readName.skipSpacing_append hRead
      simpa [Space.text] using hWhole
  rw [hText] at hPlain ⊢
  have hPlainSpace := plain_behind hPlain
  have hPlainName := plain_behind hPlainSpace
  rw [lexemes_spacing h.gap hPlain hStart,
    h.space.lexemes_text hHalf.space (readName_iff.mp hName).1 hPlainSpace,
    lexemes_word hName hHalf.name hPlainName (h.mem_wordEnds_tail rest),
    h.lexemes_tail hHalf (plain_behind hPlainName)]
  simp [Bracketed.lexemes]

end Lexemes

/-! ## What is written -/

section Written

variable {S S' : Edge → Prop} {gap flag behind : List Char}

theorem forms_blanks (hAny : ∀ a, S a → AnyEdge a) (hOther : S .other) (gap : List Char) :
    Forms S S (blanks gap) gap := by
  cases gap with
  | nil => exact .nil
  | cons c gap =>
    refine (Forms.blank (c :: gap)).mono hAny ?_
    rintro _ rfl
    exact hOther

theorem forms_name (value : List Char) :
    Forms AdmitsName AnyEdge [.name value] (writtenName value) := by
  refine (Forms.name value).mono (fun _ ha => ha) ?_
  rintro _ rfl
  exact anyEdge_name

theorem forms_flag (hFlag : IsFlag flag) : Forms AdmitsName AnyEdge (flagLexemes flag) flag := by
  rcases hFlag with rfl | ⟨f, hf, gap, -, rfl⟩
  · exact Forms.nil.mono (fun _ ha => ha) fun _ ha => ha.anyEdge
  · have hLetters : ∀ f ∈ ['i', 'I', 's', 'S'], writtenName [f] = [f] := by decide
    have hName := forms_name [f]
    rw [hLetters f hf] at hName
    exact hName.append (forms_blanks (fun _ ha => ha) anyEdge_other gap)

/-- A flag behind spacing. -/
theorem forms_spaced_flag (hFlag : IsFlag flag) (hSome : gap ≠ []) :
    Forms AnyEdge AnyEdge (blanks gap ++ flagLexemes flag) (gap ++ flag) := by
  have hBlanks : blanks gap = [.blank gap] := if_neg (by simpa using hSome)
  have hGap : Forms AnyEdge AdmitsName [.blank gap] gap := by
    refine (Forms.blank gap).mono (fun _ ha => ha) ?_
    rintro _ rfl
    exact Css.admitsName_other
  rw [hBlanks]
  exact hGap.append (forms_flag hFlag)

/-- A value with what stands behind it. -/
theorem Value.IsRead.forms {value : Value} (h : value.IsRead (gap ++ flag ++ [']'])) (hFlag : IsFlag flag) :
    Forms AdmitsName AnyEdge (value.lexeme :: (blanks gap ++ flagLexemes flag))
      (value.rewritten ++ (gap ++ flag)) := by
  cases value with
  | name text =>
    refine (forms_name (unescape text)).append ?_
    by_cases hSome : gap = []
    · -- a flag would be part of the value
      subst hSome
      rcases hFlag with rfl | ⟨f, hf, after, -, rfl⟩
      · exact .nil
      · have hFlags : ∀ f ∈ ['i', 'I', 's', 'S'], ¬(f = '\\' ∨ isNamePart f = false) := by decide
        exact absurd (stop_of_readName (h []) f rfl) (hFlags f hf)
    · exact forms_spaced_flag hFlag hSome
  | quoted quote body =>
    have hText : Forms AdmitsName AdmitsName [.text (writtenValue (unescape body))]
        (writtenValue (unescape body)) := by
      refine (Forms.quoted _).mono (fun _ ha => ha.anyEdge) ?_
      rintro _ rfl
      exact Css.admitsName_other
    exact hText.append ((forms_blanks (fun _ ha => ha.anyEdge) Css.admitsName_other gap).append
      (forms_flag hFlag))

/-- What a comparison stands behind: a name or spacing. -/
def IsLead (a : Edge) : Prop := a = .name ∨ a = .other

theorem IsLead.anyEdge {a : Edge} (h : IsLead a) : AnyEdge a := by
  rcases h with rfl | rfl
  · exact anyEdge_name
  · exact anyEdge_other

theorem forms_operator {sign : List Char} (h : IsOperator ['~', '|', '^', '$', '*'] sign) :
    Forms IsLead AdmitsName [.sign sign] sign := by
  have hSign : Css.Meets IsLead (.sign sign) ∧ AdmitsName (.sign sign) := by
    have hMarks : ∀ c ∈ ['~', '|', '^', '$', '*'],
        (∀ a ∈ [Edge.name, Edge.other], a.runsInto (.sign [c, '=']) = false ∧ a ≠ .sign ['\\']) ∧
          (Edge.sign [c, '=']).runsInto .name = false ∧ Edge.sign [c, '='] ≠ .sign ['\\'] := by
      decide
    have hEquals :
        (∀ a ∈ [Edge.name, Edge.other], a.runsInto (.sign ['=']) = false ∧ a ≠ .sign ['\\']) ∧
          (Edge.sign ['=']).runsInto .name = false ∧ Edge.sign ['='] ≠ .sign ['\\'] := by
      decide
    rcases h with rfl | ⟨c, hc, rfl⟩
    · exact ⟨fun a ha => hEquals.1 a (by simpa [IsLead] using ha), hEquals.2⟩
    · exact ⟨fun a ha => (hMarks c hc).1 a (by simpa [IsLead] using ha), (hMarks c hc).2⟩
  exact .single rfl (by simp) hSign.1 hSign.2

theorem Comparison.IsRead.forms {comparison : Comparison} (h : comparison.IsRead) :
    Forms IsLead AnyEdge comparison.lexemes comparison.rewritten :=
  (forms_operator h.sign).append
    ((forms_blanks (fun _ ha => ha.anyEdge) Css.admitsName_other comparison.gap).append
      (h.value.forms h.flag))

theorem Space.forms (space : Space) : Forms (· = .other) AdmitsName space.lexemes space.rewritten := by
  have hBar : Forms (fun a => a = .other ∨ a = .name ∨ a = .sign ['*']) AdmitsName [.sign ['|']] ['|'] := by
    refine .single rfl (by simp) ?_ (by constructor <;> decide)
    rintro _ (rfl | rfl | rfl) <;> decide
  cases space with
  | none =>
    refine Forms.nil.mono (fun _ ha => ha) ?_
    rintro _ rfl
    exact Css.admitsName_other
  | bar => exact hBar.mono (fun _ ha => Or.inl ha) fun _ ha => ha
  | star =>
    have hStar : Forms (· = .other) (· = .sign ['*']) [.sign ['*']] ['*'] := by
      refine .single rfl (by simp) ?_ rfl
      rintro _ rfl
      decide
    exact hStar.append (hBar.mono (fun _ ha => Or.inr (Or.inr ha)) fun _ ha => ha)
  | name text =>
    have hName := (Forms.name (unescape text)).append
      (hBar.mono (fun _ ha => Or.inr (Or.inl ha)) fun _ ha => ha)
    refine hName.mono ?_ fun _ ha => ha
    rintro _ rfl
    exact Css.admitsName_other

/-- How an attribute selector is written behind its opening bracket. -/
theorem Bracketed.IsRead.forms {parts : Bracketed} (h : parts.IsRead) :
    Forms (· = .other) AnyEdge parts.lexemes parts.rewritten := by
  have hName : Forms AdmitsName IsLead [.name (unescape parts.name)]
      (writtenName (unescape parts.name)) := by
    refine (Forms.name _).mono (fun _ ha => ha) ?_
    rintro _ rfl
    exact Or.inl rfl
  have hComparison : Forms IsLead AnyEdge (parts.comparison.elim [] Comparison.lexemes)
      (parts.comparison.elim [] Comparison.rewritten) := by
    cases hKind : parts.comparison with
    | none => exact Forms.nil.mono (fun _ ha => ha) fun _ ha => ha.anyEdge
    | some comparison => exact (h.comparison comparison hKind).forms
  have hGap : Forms (· = .other) (· = .other) (blanks parts.gap) parts.gap := by
    refine forms_blanks (S := (· = .other)) ?_ rfl parts.gap
    rintro _ rfl
    exact anyEdge_other
  exact hGap.append (parts.space.forms.append (hName.append
    ((forms_blanks (fun _ ha => ha.anyEdge) (Or.inr rfl) parts.gap').append hComparison)))

end Written

end StyleSieve.Selector
