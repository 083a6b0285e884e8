import StyleSieve.Selector.Basic
import StyleSieve.Selector.Lexeme

/-!
# The tokens of a selector list

A selector list is read in one of two modes: at the start of a compound selector, or behind
one of its simple selectors. Only behind a simple selector do spacing, combinators, commas and
closing parentheses have a meaning; only at the start may there be a tag or the universal
selector. `Token.scan` cuts a text into tokens as far as it can be read.
-/

namespace StyleSieve.Selector

/-- A token of a selector list. Names and texts are kept as they are written. -/
inductive Token where
  | tag (name : List Char)
  | universal
  | hasClass (name : List Char)
  | hasId (name : List Char)
  /-- An attribute selector with its brackets. -/
  | attribute (text : List Char)
  | pseudo (kind : PseudoKind) (name : List Char)
  /-- A pseudo selector with a text as argument; its name ends in the opening parenthesis. -/
  | function (kind : PseudoKind) (opening : List Char) (argument : Option (List Char))
  /-- The opening of a pseudo selector with selectors as arguments. -/
  | opening (kind : PseudoKind) (opening : List Char)
  | closing
  | combinator
  | comma
  /-- Where the text cannot be read on. The flag tells whether a simple selector is begun
  there by its first sign. -/
  | stray (begun : Bool)

namespace Token

/-- Whether a compound selector has to follow. -/
def opensCompound : Token → Bool
  | opening .. => true
  | combinator => true
  | comma => true
  | _ => false

/-- The pseudo selector behind one or two colons, and how many characters it takes. -/
def nextPseudo (kind : PseudoKind) (cs : List Char) : Option (Token × Nat) :=
  match readSelectorFunction cs with
  | some (head, after) => some (opening kind head, cs.length - after.length)
  | none =>
    match readFunction readName cs with
    | some (head, after) =>
      (readArgument after).map fun (argument, after) =>
        (function kind head argument, cs.length - after.length)
    | none => (readName cs).map fun (name, _) => (pseudo kind name, name.length)

/-- The token that starts with `c`, and how many characters it takes from behind `c`: the
simple selectors that may stand in any place of a compound selector. -/
def nextSimple (c : Char) (rest : List Char) : Option (Token × Nat) :=
  match c, rest with
  | '.', cs => (readName cs).map fun (name, _) => (hasClass name, name.length)
  | '#', cs => (readName cs).map fun (name, _) => (hasId name, name.length)
  | '[', cs => (readStrictAttribute cs).map fun after =>
      let n := cs.length - after.length
      (Token.attribute ('[' :: cs.take n), n)
  | ':', ':' :: cs => (nextPseudo .ofElement cs).map fun (t, n) => (t, n + 1)
  | ':', cs => nextPseudo .ofClass cs
  | _, _ => none

/-- The token that starts with `c` at the start of a compound selector. -/
def nextAtStart (c : Char) (rest : List Char) : Option (Token × Nat) :=
  if c == '*' then some (universal, 0)
  else
    match readName (c :: rest) with
    | some (name, _) => some (tag name, name.length - 1)
    | none => nextSimple c rest

/-- The token that starts with `c` behind a simple selector. -/
def nextBehind (c : Char) (rest : List Char) : Option (Token × Nat) :=
  let gap := (c :: rest).takeWhile isSpacing
  match (c :: rest).drop gap.length with
  | '>' :: cs => some (combinator, gap.length + (cs.takeWhile isSpacing).length)
  | '+' :: cs => some (combinator, gap.length + (cs.takeWhile isSpacing).length)
  | '~' :: cs => some (combinator, gap.length + (cs.takeWhile isSpacing).length)
  | ',' :: cs => some (comma, gap.length + (cs.takeWhile isSpacing).length)
  | ')' :: _ => some (closing, gap.length)
  | _ => if gap.isEmpty then nextSimple c rest else some (combinator, gap.length - 1)

/-- Cuts a text into tokens. Where it cannot be read on, the last token says so. -/
def scan (atStart : Bool) (cs : List Char) : List Token :=
  match cs with
  | [] => if atStart then [stray false] else []
  | c :: rest =>
    match if atStart then nextAtStart c rest else nextBehind c rest with
    | none => [stray (c == '.' || c == '#' || c == ':')]
    | some (token, n) => token :: scan token.opensCompound (rest.drop n)
termination_by cs.length
decreasing_by
  simp only [List.length_drop, List.length_cons]
  omega

end Token

end StyleSieve.Selector
