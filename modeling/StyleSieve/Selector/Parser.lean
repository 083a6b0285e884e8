import StyleSieve.Selector.Attribute
import StyleSieve.Selector.Token
import StyleSieve.Text.Quoted

/-!
# Reading selector lists

The tokens of a selector list are gathered into terms, the terms into complex selectors, and
these into the list. Selectors inside parentheses are gathered in the same way while the term
they belong to waits on a stack.
-/

namespace StyleSieve.Selector

open Text

/-- Why a text is not a selector list. -/
inductive Error where
  | empty
  | invalid
  /-- An attribute selector that cannot be taken apart. -/
  | malformedAttribute (text : List Char)
  deriving DecidableEq

/-- The wording of the error for a given text. -/
def Error.message (text : String) : Error → String
  | .empty => "Empty selector"
  | .invalid => "Invalid selector " ++ quoted text
  | .malformedAttribute token =>
    "Malformed attribute selector: Token('ATTRIBUTE', " ++ quoted (String.ofList token) ++ ")"

/-- A pseudo selector that waits for its arguments, with the complex selectors that are
finished around it and the terms before it, both in reverse. -/
structure Waiting where
  kind : PseudoKind
  name : String
  done : List ComplexSelector
  terms : List Term

/-- Whether the token behind an attribute selector has been recognised at least by its first
sign. Only then is the attribute selector looked into. -/
def isRecognised : List Token → Bool
  | .stray begun :: _ => begun
  | _ => true

/-- Gathers tokens into complex selectors. `done` and `terms` hold what is gathered so far, in
reverse, and `stack` the pseudo selectors that are open. -/
def gather (stack : List Waiting) (done : List ComplexSelector) (terms : List Term) :
    List Token → Except Error (List ComplexSelector)
  | [] => if stack.isEmpty then .ok (terms.reverse :: done).reverse else .error .invalid
  | .tag name :: rest => gather stack done (.tag (text name) :: terms) rest
  | .universal :: rest => gather stack done (.universal :: terms) rest
  | .hasClass name :: rest => gather stack done (.hasClass (text name) :: terms) rest
  | .hasId name :: rest => gather stack done (.hasId (text name) :: terms) rest
  | .attribute token :: rest =>
    if isRecognised rest then
      match attributeTerm? token with
      | some term => gather stack done (term :: terms) rest
      | none => .error (.malformedAttribute token)
    else .error .invalid
  | .pseudo kind name :: rest =>
    gather stack done (.pseudo kind (lower (text name)) none :: terms) rest
  | .function kind opening argument :: rest =>
    let argument := String.ofList (trimChars (argument.getD []))
    let name := String.ofList (openingName opening)
    gather stack done (.pseudo kind name (some argument) :: terms) rest
  | .opening kind opening :: rest =>
    let name := String.ofList (openingName opening)
    gather (⟨kind, name, done, terms⟩ :: stack) [] [] rest
  | .closing :: rest =>
    match stack with
    | [] => .error .invalid
    | top :: stack =>
      let arguments := (terms.reverse :: done).reverse
      gather stack top.done (.nested top.kind top.name arguments :: top.terms) rest
  | .combinator :: rest => gather stack done terms rest
  | .comma :: rest => gather stack (terms.reverse :: done) [] rest
  | .stray _ :: _ => .error .invalid
where
  /-- The name that is written. -/
  text (name : List Char) : String := String.ofList (unescape name)

/-- Reads a selector list. Spacing around the whole list is not allowed. -/
def parse (s : String) : Except Error (List ComplexSelector) :=
  if s.isEmpty then .error .empty else gather [] [] [] (Token.scan true s.toList)

end StyleSieve.Selector
