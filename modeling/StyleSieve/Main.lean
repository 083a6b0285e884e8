import StyleSieve.Command.Run

/-!
# Command line

Reads the working directory, runs the program on it, prints what it has to say, and writes the
files that have changed.
-/

namespace StyleSieve.WorkingDirectory

/-- How many directories deep files are looked for. -/
def depthLimit : Nat := 64

/-- What there is at an entry of a directory, and below it. -/
def readEntry (entry : IO.FS.DirEntry) (place : Location) : Nat → IO FileTree
  | 0 => return ⟨[], []⟩
  | depth + 1 => do
    if ← entry.path.isDir then
      let inside ← (← entry.path.readDir).toList.mapM fun e =>
        readEntry e (place ++ [e.fileName]) depth
      return ⟨inside.flatMap (·.files), place :: inside.flatMap (·.directories)⟩
    else return ⟨[(place, (← IO.FS.readBinFile entry.path).toList)], []⟩

/-- What there is in the working directory. -/
def read : IO FileTree := do
  let inside ← (← (← IO.currentDir).readDir).toList.mapM fun e =>
    readEntry e [e.fileName] depthLimit
  return ⟨inside.flatMap (·.files), inside.flatMap (·.directories)⟩

/-- Writes the files whose contents have changed. -/
def writeChanges (before after : FileTree) : IO Unit := do
  for (place, contents) in after.files do
    if before.contents? place != some contents then
      IO.FS.writeBinFile (String.intercalate "/" place) (ByteArray.mk contents.toArray)

/-- The texts of files. -/
def texts (tree : FileTree) : List (List Char) :=
  tree.files.filterMap fun f =>
    match Utf8.decode f.2 with
    | .ok text => some text.toList
    | .error _ => none

end StyleSieve.WorkingDirectory

open StyleSieve

/-- Runs the program. -/
def main (args : List String) : IO UInt32 := do
  let tree ← WorkingDirectory.read
  let _ : Surrogates := .besides (args.map String.toList ++ WorkingDirectory.texts tree)
  let outcome := Command.run tree args
  for line in outcome.errors do
    IO.eprintln line
  for line in outcome.output do
    IO.println line
  WorkingDirectory.writeChanges tree outcome.tree
  return outcome.exitCode.toUInt32
