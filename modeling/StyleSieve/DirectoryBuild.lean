import StyleSieve.FileTree
import StyleSieve.Plugin
import StyleSieve.Text.Case
import StyleSieve.Text.LineEnd

/-!
# Builds of a directory

The finished output of a build in a directory is taken for a bundle. Scripts become chunks and
are read as modules; everything else becomes an asset. Style sheets that the plugin replaces are
written back to their places.
-/

namespace StyleSieve

variable [Runtime] [Surrogates]

/-- Why a directory is no build. -/
inductive DirectoryError where
  | notADirectory (outDir : Path)
  /-- A script is no text. -/
  | notText (fileName : String) (error : Utf8.Error)
  /-- Two files have one name. -/
  | bundle (error : Bundle.Error)
  deriving DecidableEq

/-- What is wrong. -/
def DirectoryError.message : DirectoryError → String
  | notADirectory outDir => "Output directory not found: " ++ outDir.toString
  | notText _ e => e.message
  | bundle e => e.message

/-- A directory with the files in it as a bundle. -/
structure DirectoryBuild where
  outDir : Path
  /-- The place of the directory. -/
  place : Location
  root : Path
  bundle : Bundle

/-- The endings of scripts. -/
def scriptSuffixes : List String := [".js", ".mjs", ".cjs"]

/-- Whether a file with a given last name is a script. -/
def isScriptName (name : String) : Bool :=
  scriptSuffixes.contains (Text.lower (Path.suffixOf name))

/-- A file of a directory as a file of a bundle. -/
def outputFileOf (names : Location) (contents : Bytes) : Except DirectoryError OutputFile :=
  let fileName := String.intercalate "/" names
  if isScriptName (names.getLastD "") then
    match Utf8.decode contents with
    | .ok text => .ok (.chunk ⟨fileName, Text.withPlainLineEnds text⟩)
    | .error e => .error (.notText fileName e)
  else .ok (.asset { fileName, source := .bytes contents })

namespace DirectoryBuild

/-- The files of a directory, in the order of their paths. -/
def filesOf (tree : FileTree) (place : Location) : List (Location × Bytes) :=
  (tree.filesBelow place).mergeSort fun a b => FileTree.inOrder a.1 b.1

/-- Takes the files of a directory for a bundle. Without a root of its own, the directory is the
root. -/
def ofDirectory (tree : FileTree) (outDir : Path) (root : Option Path) :
    Except DirectoryError DirectoryBuild := do
  match tree.locate outDir.toString.toList with
  | none => throw (.notADirectory outDir)
  | some place =>
    if !tree.isDirectory place then throw (.notADirectory outDir)
    else
      let files ← (filesOf tree place).mapM fun f => outputFileOf f.1 f.2
      let bundle ← (Bundle.ofFiles files).mapError .bundle
      return ⟨outDir, place, root.getD outDir, bundle⟩

/-- The chunks of a build, which are its modules. -/
def chunks (b : DirectoryBuild) : List Chunk := b.bundle.files.filterMap OutputFile.chunk?

/-- The names of the modules. -/
def moduleIds (b : DirectoryBuild) : List String := b.chunks.map (·.fileName)

/-- What the plugin can ask of the build. -/
def context (b : DirectoryBuild) : BuildContext where
  module? id := (b.chunks.find? fun c => c.fileName == id).map fun c => ⟨c.fileName, true, c.code⟩
  parse := parseScript

/-- The plugin, once it was told about the build. -/
def prepared (b : DirectoryBuild) (p : Plugin) : Plugin :=
  b.moduleIds.foldl Plugin.loaded (p.configured ⟨b.root, Plugin.command⟩)

/-- Lets the plugin purge the bundle. -/
def pass (b : DirectoryBuild) (schedule : Schedule) (p : Plugin) : BundlePass :=
  (b.prepared p).generate schedule b.context b.bundle

/-! ## Writing back -/

/-- The place of a file of the bundle. -/
def placeOf (b : DirectoryBuild) (fileName : String) : Location :=
  b.place ++ (splitSlashes fileName.toList).map String.ofList

/-- Why a style sheet is not written. -/
inductive WriteError where
  | noFile (fileName : String)
  /-- The file is a script. -/
  | noAsset (fileName : String)
  | notText (fileName : String) (error : Utf8.Error)
  /-- The text has half of a surrogate pair in it. -/
  | unencodable (fileName : String)
  deriving DecidableEq

/-- The text of the asset of a name. -/
def textOf (bundle : Bundle) (fileName : String) : Except WriteError String :=
  match bundle.get? fileName with
  | none => .error (.noFile fileName)
  | some (.chunk _) => .error (.noAsset fileName)
  | some (.asset a) => a.text?.mapError (.notText fileName)

/-- The record about a style sheet that has been written. -/
def writtenRecord (fileName : String) : LogRecord :=
  ⟨.debug, "csspurge.build", "Wrote " ++ fileName⟩

/-- The files once style sheets are written or one cannot be, and what was reported. -/
structure Writing where
  tree : FileTree
  log : List LogRecord
  result : Except WriteError Unit

/-- Writes assets to their places, one after the other. A file is emptied before the text for it is
encoded. -/
def write (b : DirectoryBuild) (bundle : Bundle) (tree : FileTree) : List String → Writing
  | [] => ⟨tree, [], .ok ()⟩
  | fileName :: rest =>
    match textOf bundle fileName with
    | .error e => ⟨tree, [], .error e⟩
    | .ok text =>
      match Surrogates.encode? text with
      | none => ⟨tree.write (b.placeOf fileName) [], [], .error (.unencodable fileName)⟩
      | some bytes =>
        let after := b.write bundle (tree.write (b.placeOf fileName) bytes) rest
        { after with log := writtenRecord fileName :: after.log }

/-! ## Running -/

/-- Why a run has no results. -/
inductive RunError where
  | pass (error : PassError)
  | write (error : WriteError)
  deriving DecidableEq

/-- A run that has ended or failed: the bundle and the files as they are then, what was reported, and
the results. -/
structure Run where
  bundle : Bundle
  tree : FileTree
  events : List Event
  log : List LogRecord
  result : Except RunError PurgeResults

/-- Purges the bundle, and writes the style sheets with a result back if that is wanted. -/
def run (b : DirectoryBuild) (schedule : Schedule) (p : Plugin) (writes : Bool) (tree : FileTree) :
    Run :=
  let done := b.pass schedule p
  let ended (tree : FileTree) (log : List LogRecord) (result : Except RunError PurgeResults) : Run :=
    ⟨done.bundle, tree, done.pass.events, done.pass.log ++ log, result⟩
  match done.pass.result with
  | .error e => ended tree [] (.error (.pass e))
  | .ok results =>
    if writes then
      let writing := b.write done.bundle tree (results.map (·.1))
      ended writing.tree writing.log ((writing.result.mapError .write).map fun _ => results)
    else ended tree [] (.ok results)

end DirectoryBuild

end StyleSieve
