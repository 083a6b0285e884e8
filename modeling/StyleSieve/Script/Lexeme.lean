import StyleSieve.Script.Layout

/-!
# The next token

Which token comes next depends on the terminals that the state of the reading expects: a slash
may divide or start a regular expression, and a line break may end a statement or mean nothing.
-/

namespace StyleSieve.Script

open Text

/-- What comes next in a text: so many characters to skip, and a token, or else a comment, of a
given length. -/
structure Lexeme where
  terminal? : Option Terminal
  skipped : Nat
  length : Nat

/-- The terminals that a state expects. -/
abbrev Expectation := List Terminal

namespace Expectation

/-- Whether a terminal is expected. -/
def has (e : Expectation) (t : Terminal) : Bool := e.contains t

/-- The expected ones of some terminals. -/
def among (e : Expectation) (ts : List Terminal) : List Terminal := ts.filter e.has

/-! ## Tokens that hang on layout -/

/-- The token at the question mark of a conditional expression, where `all` is the text from
which layout was skipped to `cs`. -/
def questionMarkAt (all cs : List Char) : Option Lexeme :=
  (conditionalMark? cs).map fun after => ⟨some .questionMark, all.length - (after.length + 1), 1⟩

/-- The plain text of a template. -/
def templateTextAt (cs : List Char) : Option Lexeme :=
  match templateTextLength? cs with
  | none => none
  | some 0 => none
  | some n => some ⟨some .templateText, 0, n⟩

/-- A comment in the notation of markup. -/
def markupCommentAt (cs : List Char) : Option Lexeme :=
  let rest := skipBlanks cs
  match markupCommentLength rest with
  | 0 => none
  | n => some ⟨none, cs.length - rest.length, n⟩

/-- The end of a statement, or the question mark that is found where none ends; `all` is the
text from which `cs` is left. -/
def statementEndAt (e : Expectation) (all cs : List Char) : Option Lexeme :=
  let ending := endOfStatement (!e.has (.word "||")) false cs
  if ending.ends then some ⟨some .statementEnd, 0, 0⟩
  else if !ending.sawComment && e.has .questionMark && next ending.rest == '?' then
    questionMarkAt all ending.rest
  else none

/-- The token that the layout of the text decides on, if there is one. -/
def layoutToken (e : Expectation) (cs : List Char) : Option Lexeme :=
  if e.has .templateText then
    if e.has .statementEnd then none else templateTextAt cs
  else
    let text := if e.has .markupText then markupRun cs else []
    if hasMarkupText false text then some ⟨some .markupText, 0, text.length⟩
    else
      let rest := cs.drop text.length
      if e.has .statementEnd then e.statementEndAt cs rest
      else if e.has .questionMark then questionMarkAt cs rest
      else if (e.among [.word "||", .escape, .regexBody]).isEmpty then markupCommentAt rest
      else none

/-! ## Tokens with a spelling of their own -/

/-- Fragments of literals, which leave no space before them and yield to nothing. -/
def fragments : List Terminal :=
  [.doubleQuoted, .singleQuoted, .doubleQuotedMarkup, .singleQuotedMarkup, .regexEnd]

/-- Tokens that leave no space before them. -/
def attached : List Terminal := [.escape, .regexFlags]

/-- Tokens of which there are many with the same spelling. -/
def named : List Terminal :=
  [.interpreterLine, .privateName, .markupName, .number, .characterReference, .staticGet]

/-- Words that are names only where a property is named. -/
def reservedWords : List String :=
  ["break", "case", "catch", "class", "const", "continue", "debugger", "default", "delete", "do",
    "else", "export", "extends", "finally", "for", "function", "if", "import", "in",
    "instanceof", "new", "return", "super", "switch", "this", "throw", "try", "typeof", "var",
    "void", "while", "with", "null", "true", "false"]

/-- Whether a terminal is a keyword. -/
def isKeyword : Terminal → Bool
  | .word text => text.toList.all isAsciiLetter
  | _ => false

/-- Whether a terminal is a mark. -/
def isMark : Terminal → Bool
  | .word text => !text.toList.all isAsciiLetter
  | _ => false

/-- A token that may come next: what it is, where it starts, its length, and how well it does
against others of its length. -/
structure Candidate where
  terminal? : Option Terminal
  skipped : Nat
  length : Nat
  standing : Nat

/-- The candidates of some kinds, in a text from which some characters have been skipped. -/
def candidates (standing skipped : Nat) (cs : List Char) (ts : List Terminal) : List Candidate :=
  ts.filterMap fun t =>
    match t.length cs with
    | 0 => none
    | n => some ⟨some t, skipped, n, standing⟩

/-- Whether one candidate reaches further than another, or as far with a better standing. -/
def Candidate.beats (c d : Candidate) : Bool :=
  d.skipped + d.length < c.skipped + c.length ||
    (d.skipped + d.length == c.skipped + c.length && d.standing < c.standing)

/-- The best of some candidates; the first one of equals. -/
def best? : List Candidate → Option Candidate
  | [] => none
  | c :: rest => some (rest.foldl (fun b d => if d.beats b then d else b) c)

/-- What a word is: a keyword where it is expected, else a name, unless it is reserved. -/
def wordTerminal (e : Expectation) (word : String) : Option Terminal :=
  if e.has (.word word) then some (.word word)
  else if reservedWords.contains word && !e.has .propertyPosition then none
  else if e.has .identifier then some .identifier
  else none

/-- The token with a spelling of its own that comes next, if there is one. -/
def spelledToken (e : Expectation) (atStart : Bool) (cs : List Char) : Option Lexeme :=
  match best? (candidates 1 0 cs (e.among fragments)) with
  | some c => some ⟨c.terminal?, c.skipped, c.length⟩
  | none =>
    let skipped := run isSpace cs
    let rest := cs.drop skipped
    let comment := match commentLength rest with
      | 0 => []
      | n => [Candidate.mk none skipped n 0]
    if rest.isEmpty && (atStart || e.has .endOfText) then some ⟨some .endOfText, skipped, 0⟩
    else
      let words := if e.has .identifier || e.any isKeyword then
          candidates 0 skipped rest [.identifier]
        else []
      let found := candidates 1 0 cs (e.among attached) ++ comment ++
        candidates 0 skipped rest (e.among named) ++ words ++
        candidates 2 skipped rest (e.filter isMark)
      let found := if found.isEmpty then candidates 1 0 cs (e.among [.regexBody]) else found
      match best? found with
      | none => none
      | some c =>
        if c.terminal? == some .identifier then
          (e.wordTerminal (String.ofList (rest.take c.length))).map fun t =>
            ⟨some t, c.skipped, c.length⟩
        else some ⟨c.terminal?, c.skipped, c.length⟩

/-- What comes next in a text, if anything does that can. -/
def lexeme (e : Expectation) (atStart : Bool) (cs : List Char) : Option Lexeme :=
  match e.layoutToken cs with
  | some l => some l
  | none => e.spelledToken atStart cs

end Expectation

end StyleSieve.Script
