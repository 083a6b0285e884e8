import StyleSieve.Extractor
import StyleSieve.Path
import StyleSieve.Text.Utf8

/-!
# File trees

The files and directories that a build works on, as one value. A location is the list of names
from the working directory on. Looking up a path goes from directory to directory; it never
leaves the tree.
-/

namespace StyleSieve

/-- The names that lead to a file or directory. -/
abbrev Location := List String

/-- Files with their contents, and the directories that are there without a file in them. -/
structure FileTree where
  files : List (Location × Bytes)
  directories : List Location

namespace FileTree

/-- The beginnings of a location, the location itself apart. -/
def parents : Location → List Location
  | [] => []
  | name :: rest => [] :: (parents rest).map (name :: ·)

/-- All directories, each once. -/
def allDirectories (tree : FileTree) : List Location :=
  dedup ([] :: (tree.files.flatMap fun f => parents f.1) ++
    tree.directories.flatMap fun d => parents d ++ [d])

/-- The contents of a file. -/
def contents? (tree : FileTree) (place : Location) : Option Bytes :=
  (tree.files.find? fun f => f.1 == place).map (·.2)

/-- Whether a location is a directory. -/
def isDirectory (tree : FileTree) (place : Location) : Bool :=
  place.isEmpty || tree.files.any (fun f => (parents f.1).contains place) ||
    tree.directories.any fun d => d == place || (parents d).contains place

/-- Whether there is anything at a location. -/
def occupied (tree : FileTree) (place : Location) : Bool :=
  (tree.contents? place).isSome || tree.isDirectory place

/-- Where names lead to from a location. All but the last step must lead to directories. -/
def follow (tree : FileTree) (place : Location) : List (List Char) → Option Location
  | [] => if tree.occupied place then some place else none
  | name :: rest =>
    if !tree.isDirectory place then none
    else if name.isEmpty || name == ['.'] then tree.follow place rest
    else if name == ['.', '.'] then
      if place.isEmpty then none else tree.follow place.dropLast rest
    else tree.follow (place ++ [String.ofList name]) rest

/-- Where the text of a path leads to. -/
def locate (tree : FileTree) (path : List Char) : Option Location :=
  match path with
  | [] => none
  | '/' :: _ => none
  | _ => tree.follow [] (splitSlashes path)

/-- Whether the text of a path leads to a directory. -/
def leadsToDirectory (tree : FileTree) (path : List Char) : Bool :=
  match tree.locate path with
  | some place => tree.isDirectory place
  | none => false

/-- The contents of the file that the text of a path leads to. -/
def read? (tree : FileTree) (path : List Char) : Option Bytes :=
  match tree.locate path with
  | some place => if tree.isDirectory place then none else tree.contents? place
  | none => none

/-- All files and directories. -/
def entries (tree : FileTree) : List Location :=
  tree.allDirectories ++ tree.files.map (·.1)

/-- The names that lead from a directory to everything in it, at any depth. -/
def below (tree : FileTree) (place : Location) : List Location :=
  (tree.entries.filter fun e => place.isPrefixOf e && place.length < e.length).map
    fun e => e.drop place.length

/-- The files in a directory, at any depth, with the names that lead to them. -/
def filesBelow (tree : FileTree) (place : Location) : List (Location × Bytes) :=
  (tree.files.filter fun f => place.isPrefixOf f.1 && place.length < f.1.length).map
    fun f => (f.1.drop place.length, f.2)

/-- Whether locations are in the order of their names. -/
def inOrder (a b : Location) : Bool := !b.lex a fun x y => decide (x < y)

/-- The tree with new contents in the place of those of a file. -/
def write (tree : FileTree) (place : Location) (bytes : Bytes) : FileTree where
  files := tree.files.map fun f => if f.1 == place then (place, bytes) else f
  directories := tree.directories

/-- The location that a file is given by when a tree is put together. -/
def placeOf (name : String) : Location :=
  ((splitSlashes name.toList).filter fun n => !n.isEmpty && n != ['.']).map String.ofList

/-- Puts a tree together; a name that ends in a slash is a directory. -/
def ofNamed (named : List (String × Bytes)) : FileTree where
  files :=
    ((named.filter fun f => !f.1.endsWith "/").foldl
      (fun acc f => (acc.filter fun g => g.1 != placeOf f.1) ++ [(placeOf f.1, f.2)]) [])
  directories := (named.filter fun f => f.1.endsWith "/").map fun f => placeOf f.1

end FileTree

end StyleSieve
