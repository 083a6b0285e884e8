import StyleSieve.Css.Lexeme

/-!
# Component values

The lexemes of a style sheet, with everything between matching brackets put together. Brackets
that are still open at the end of the text are closed there, and a closing bracket that
matches nothing is kept as a flaw.
-/

namespace StyleSieve.Css

variable [Surrogates]

/-- The three kinds of brackets. -/
inductive Bracket where
  | curly
  | square
  | round
  deriving DecidableEq

/-- The two signs of a bracket. -/
def Bracket.signs : Bracket → Char × Char
  | .curly => ('{', '}')
  | .square => ('[', ']')
  | .round => ('(', ')')

/-- A lexeme that is no bracket, a function with its arguments, or a block with its content;
each with the line that it starts in. -/
inductive Component where
  | lexeme (line : Nat) (lexeme : Lexeme)
  | function (line : Nat) (name : List Char) (arguments : List Component)
  | block (line : Nat) (bracket : Bracket) (content : List Component)

/-- The line that a component starts in. -/
def Component.line : Component → Nat
  | lexeme n _ => n
  | function n _ _ => n
  | block n _ _ => n

/-- A function or block that is open: what it will become, and the components in front of it,
in reverse. -/
structure Open where
  line : Nat
  /-- The name of a function; absent for a block. -/
  name : Option (List Char)
  bracket : Bracket
  before : List Component

/-- The components once an open bracket is closed around `content`, both in reverse. -/
def Open.close (o : Open) (content : List Component) : List Component :=
  match o.name with
  | some name => .function o.line name content.reverse :: o.before
  | none => .block o.line o.bracket content.reverse :: o.before

/-- The kind of a bracket sign. -/
def bracketOf (c : Char) : Bracket :=
  if c == '{' || c == '}' then .curly
  else if c == '[' || c == ']' then .square
  else .round

/-- Matches the brackets. `current` holds the components of the innermost open bracket, in
reverse. -/
def nest (stack : List Open) (current : List Component) : List (Nat × Lexeme) → List Component
  | [] => (stack.foldl (fun content o => o.close content) current).reverse
  | (line, .function name) :: rest => nest (⟨line, some name, .round, current⟩ :: stack) [] rest
  | (line, .opening c) :: rest => nest (⟨line, none, bracketOf c, current⟩ :: stack) [] rest
  | (line, .closing c) :: rest =>
    match stack with
    | top :: outer =>
      if top.bracket == bracketOf c then nest outer (top.close current) rest
      else nest (top :: outer) (.lexeme line (.flaw (.unmatched c)) :: current) rest
    | [] => nest [] (.lexeme line (.flaw (.unmatched c)) :: current) rest
  | (line, lexeme) :: rest => nest stack (.lexeme line lexeme :: current) rest

/-- The components of a text. -/
def components (text : String) : List Component := nest [] [] (scan 1 (normalize text.toList))

end StyleSieve.Css
