/-!
# Paths

A path is an anchor and the names on the way from it. Reading a text drops empty names and
the name `.`, but keeps `..`: what that leads to depends on the files. `Path.suffix` is the
ending by which extractors are chosen.
-/

namespace StyleSieve

/-- Cuts a text at every slash. -/
def splitSlashes : List Char → List (List Char)
  | [] => [[]]
  | c :: cs =>
    if c == '/' then [] :: splitSlashes cs
    else
      match splitSlashes cs with
      | [] => [[c]]
      | part :: parts => (c :: part) :: parts

/-- A path: its anchor, which is empty, `/` or `//`, and the names behind it. -/
structure Path where
  anchor : String
  names : List String
  deriving DecidableEq

namespace Path

/-- The path without names. -/
def here : Path := ⟨"", []⟩

/-- The anchor of a text: exactly two slashes in front are one of their own, and any other
number of slashes counts as one. -/
def anchorOf : List Char → String
  | '/' :: '/' :: '/' :: _ => "/"
  | '/' :: '/' :: _ => "//"
  | '/' :: _ => "/"
  | _ => ""

/-- Reads a path. -/
def ofString (s : String) : Path :=
  let names := (splitSlashes s.toList).map String.ofList
  ⟨anchorOf s.toList, names.filter fun n => n != "" && n != "."⟩

/-- The text of a path; the path that leads nowhere is written as a dot. -/
protected def toString (p : Path) : String :=
  if p.anchor == "" && p.names.isEmpty then "."
  else p.anchor ++ String.intercalate "/" p.names

/-- The path that goes on with more names. -/
def append (p : Path) (names : List String) : Path := ⟨p.anchor, p.names ++ names⟩

/-- The last name of a path. -/
def name (p : Path) : String := p.names.getLastD ""

/-- The ending of a name from its last dot on; a dot that is first or last begins no ending. -/
def suffixOf (name : String) : String :=
  let reversed := name.toList.reverse
  let ending := reversed.takeWhile (· != '.')
  let before := reversed.drop (ending.length + 1)
  if ending.isEmpty || before.isEmpty then "" else String.ofList ('.' :: ending.reverse)

/-- The ending of the last name of a path. -/
def suffix (p : Path) : String := suffixOf p.name

end Path

end StyleSieve
