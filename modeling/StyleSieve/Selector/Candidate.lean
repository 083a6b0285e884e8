import StyleSieve.Selector.Lexeme
import StyleSieve.Selector.Parser

/-!
# Candidate selectors

A lenient reading of selector lists, which only says whether a text could be one. Names are
read the way selector engines tolerate them in practice: any one leading character that is not
punctuation, then name characters. So utility classes such as `w-1/2`, `2xl:text-lg` and
`!mt-2` are candidates. No terms are built.
-/

namespace StyleSieve.Selector

/-- What a piece of a candidate does. -/
inductive Piece where
  /-- A simple selector. -/
  | simple
  /-- The opening of a pseudo selector with selectors as arguments. -/
  | opening
  | closing
  /-- A combinator or a comma: a compound selector has to follow. -/
  | joint
  deriving DecidableEq

namespace Piece

/-- The pseudo selector behind one or two colons, and how many characters it takes. -/
def nextPseudo (cs : List Char) : Option (Piece × Nat) :=
  match readSelectorFunction cs with
  | some (_, after) => some (opening, cs.length - after.length)
  | none =>
    match readFunction readLooseName cs with
    | some (_, after) => (readArgument after).map fun (_, after) =>
        (simple, cs.length - after.length)
    | none => (readLooseName cs).map fun (name, _) => (simple, name.length)

/-- The simple selector that starts with `c`, and how many characters it takes from behind
`c`. -/
def nextSimple (c : Char) (rest : List Char) : Option (Piece × Nat) :=
  match c, rest with
  | '*', _ => some (simple, 0)
  | '.', cs => (readLooseName cs).map fun (name, _) => (simple, name.length)
  | '#', cs => (readLooseName cs).map fun (name, _) => (simple, name.length)
  | '[', cs => (readLooseAttribute cs).map fun after => (simple, cs.length - after.length)
  | ':', ':' :: cs => (nextPseudo cs).map fun (p, n) => (p, n + 1)
  | ':', cs => nextPseudo cs
  | c, cs => (readLooseName (c :: cs)).map fun (name, _) => (simple, name.length - 1)

/-- The piece that starts with `c` behind a simple selector. -/
def nextBehind (c : Char) (rest : List Char) : Option (Piece × Nat) :=
  let gap := (c :: rest).takeWhile isSpacing
  match (c :: rest).drop gap.length with
  | '>' :: cs => some (joint, gap.length + (cs.takeWhile isSpacing).length)
  | '+' :: cs => some (joint, gap.length + (cs.takeWhile isSpacing).length)
  | '~' :: cs => some (joint, gap.length + (cs.takeWhile isSpacing).length)
  | ',' :: cs => some (joint, gap.length + (cs.takeWhile isSpacing).length)
  | ')' :: _ => some (closing, gap.length)
  | _ => if gap.isEmpty then nextSimple c rest else some (joint, gap.length - 1)

end Piece

/-- Whether a text can be read as a candidate, `depth` pseudo selectors being open. -/
def acceptsFrom (depth : Nat) (atStart : Bool) (cs : List Char) : Bool :=
  match cs with
  | [] => !atStart && depth == 0
  | c :: rest =>
    match if atStart then Piece.nextSimple c rest else Piece.nextBehind c rest with
    | none => false
    | some (.simple, n) => acceptsFrom depth false (rest.drop n)
    | some (.opening, n) => acceptsFrom (depth + 1) true (rest.drop n)
    | some (.joint, n) => acceptsFrom depth true (rest.drop n)
    | some (.closing, n) => depth != 0 && acceptsFrom (depth - 1) false (rest.drop n)
termination_by cs.length
decreasing_by
  all_goals
    simp only [List.length_drop, List.length_cons]
    omega

/-- Checks a text against the lenient reading. -/
def parseCandidate (s : String) : Except Error Unit :=
  if s.isEmpty then .error .empty
  else if acceptsFrom 0 true s.toList then .ok () else .error .invalid

/-- Whether a text could be a selector list. -/
def isCandidate (s : String) : Bool := !s.isEmpty && acceptsFrom 0 true s.toList

end StyleSieve.Selector
