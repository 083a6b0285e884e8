import StyleSieve.FileTree
import StyleSieve.Wildcard

/-!
# Path patterns

Finds the paths of a file tree that fit a pattern. Wildcards stand within a name; the name `**`
stands for any number of directories, and for everything in them when it comes last. Names with
a dot in front are found only by patterns with one. A pattern without wildcards finds the path
that it is, and a slash at the end finds directories only.
-/

namespace StyleSieve.Glob

/-- Cuts off the last name of a path, and the slashes in front of it unless there is nothing
else. -/
def splitName (path : List Char) : List Char × List Char :=
  let name := (path.reverse.takeWhile (· != '/')).reverse
  let front := path.take (path.length - name.length)
  let bare := (front.reverse.dropWhile (· == '/')).reverse
  (if bare.isEmpty then front else bare, name)

/-- A path in a directory. Nothing in front or behind is left as it is. -/
def join (directory path : List Char) : List Char :=
  if directory.isEmpty then path
  else if directory.getLast? == some '/' then directory ++ path
  else directory ++ '/' :: path

/-- Whether a name is hidden. -/
def isHidden (name : List Char) : Bool := name.head? == some '.'

/-- The name that stands for any number of directories. -/
def anyDepth : List Char := ['*', '*']

/-- What a directory is called by the text of a path; the empty text is the working directory. -/
def directoryAt (tree : FileTree) (path : List Char) : Option Location :=
  if path.isEmpty then some []
  else
    match tree.locate path with
    | some place => if tree.isDirectory place then some place else none
    | none => none

/-- What is below the directory at a path, at any depth, as names on the way to it. -/
def listing (tree : FileTree) (directoriesOnly : Bool) (path : List Char) : List Location :=
  match directoryAt tree path with
  | none => []
  | some place =>
    let found := tree.below place
    if directoriesOnly then found.filter fun e => tree.isDirectory (place ++ e) else found

/-- The names in a directory that fit a pattern. -/
def fitting (tree : FileTree) (directoriesOnly : Bool) (directory pattern : List Char) :
    List (List Char) :=
  (listing tree directoriesOnly directory).filterMap fun names =>
    match names with
    | [name] =>
      let cs := name.toList
      if (isHidden pattern || !isHidden cs) && Wildcard.matchesText pattern cs then some cs
      else none
    | _ => none

/-- The directory itself, and everything below it that is not hidden. -/
def everything (tree : FileTree) (directoriesOnly : Bool) (directory : List Char) :
    List (List Char) :=
  let own := if (directoryAt tree directory).isSome then [[]] else []
  let found := (listing tree directoriesOnly directory).filter fun names =>
    !names.any fun name => isHidden name.toList
  own ++ found.map fun names => (String.intercalate "/" names).toList

/-- A name in a directory if it is there; the empty name is there in every directory. -/
def exactly (tree : FileTree) (directory name : List Char) : List (List Char) :=
  if name.isEmpty then
    if tree.leadsToDirectory directory then [[]] else []
  else if (tree.locate (join directory name)).isSome then [name]
  else []

/-- What the last name of a pattern finds in a directory. -/
def inDirectory (tree : FileTree) (directoriesOnly : Bool) (directory name : List Char) :
    List (List Char) :=
  if !Wildcard.hasWildcard name then exactly tree directory name
  else if name == anyDepth then everything tree directoriesOnly directory
  else fitting tree directoriesOnly directory name

/-- The paths that fit a pattern. -/
def expand (tree : FileTree) (directoriesOnly : Bool) (pattern : List Char) : List (List Char) :=
  let parts := splitName pattern
  if !Wildcard.hasWildcard pattern then
    let found :=
      if parts.2.isEmpty then tree.leadsToDirectory parts.1 else (tree.locate pattern).isSome
    if found then [pattern] else []
  else if parts.1.isEmpty then inDirectory tree directoriesOnly [] parts.2
  else
    let directories :=
      if h : parts.1.length < pattern.length ∧ Wildcard.hasWildcard parts.1 then
        have := h.1
        expand tree true parts.1
      else [parts.1]
    directories.flatMap fun directory =>
      (inDirectory tree directoriesOnly directory parts.2).map (join directory)
termination_by pattern.length

/-- The paths that fit a pattern, in order. -/
def paths (tree : FileTree) (pattern : String) : List String :=
  ((expand tree false pattern.toList).map String.ofList).mergeSort (· ≤ ·)

/-- Whether the search for a pattern has to list a directory whose name cannot be one, because
it holds a NUL. -/
def listsImpossible (pattern : String) : Bool :=
  let cs := pattern.toList
  let front := cs.takeWhile fun c => !Wildcard.hasWildcard [c]
  Wildcard.hasWildcard cs && (front.reverse.dropWhile (· != '/')).contains '\x00'

end StyleSieve.Glob
