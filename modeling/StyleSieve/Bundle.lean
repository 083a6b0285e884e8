import StyleSieve.Text.Quoted
import StyleSieve.Text.Utf8

/-!
# Bundles

The files that a build emits, in the order of emission, no two of one name. Replacing the
content of an asset takes it out and emits it anew, so that it moves to the end.
-/

namespace StyleSieve

open Text

/-- The content of an asset. -/
inductive AssetSource where
  | text (s : String)
  | bytes (b : Bytes)
  deriving DecidableEq

/-- The text of a source, if it is one. -/
def AssetSource.text? : AssetSource → Except Utf8.Error String
  | .text s => .ok s
  | .bytes b => Utf8.decode b

/-- An emitted file that is not code: a style sheet, an image, a font. -/
structure Asset where
  fileName : String
  source : AssetSource
  name : Option String := none
  originalFileName : Option String := none
  needCodeReference : Bool := false
  deriving DecidableEq

/-- The text of an asset, if it is one. -/
def Asset.text? (a : Asset) : Except Utf8.Error String := a.source.text?

/-- An emitted piece of code. -/
structure Chunk where
  fileName : String
  code : String
  deriving DecidableEq

/-- An emitted file. -/
inductive OutputFile where
  | asset (a : Asset)
  | chunk (c : Chunk)
  deriving DecidableEq

namespace OutputFile

/-- The name of an emitted file. -/
def fileName : OutputFile → String
  | asset a => a.fileName
  | chunk c => c.fileName

/-- The asset that a file is. -/
def asset? : OutputFile → Option Asset
  | asset a => some a
  | chunk _ => none

/-- The chunk that a file is. -/
def chunk? : OutputFile → Option Chunk
  | asset _ => none
  | chunk c => some c

end OutputFile

/-- Whether a file name is that of a style sheet. Case matters. -/
def isCssName (fileName : String) : Bool := ".css".toList.isSuffixOf fileName.toList

/-- Emitted files in the order of their emission. -/
structure Bundle where
  files : List OutputFile
  deriving DecidableEq

namespace Bundle

/-- Why a bundle cannot be changed. -/
inductive Error where
  | unnamedAsset
  | alreadyEmitted (fileName : String)
  /-- There is no asset of this name, whether there is a chunk or not. -/
  | noAsset (fileName : String)
  | noFile (fileName : String)
  deriving DecidableEq

/-- The wording of an error. -/
def Error.message : Error → String
  | .unnamedAsset => "OutputAsset file_name must be a non-empty string"
  | .alreadyEmitted name => "Output file already emitted: " ++ name
  | .noAsset name => "No asset named " ++ quoted name ++ " in bundle"
  | .noFile name => name

/-- The bundle without files. -/
def empty : Bundle := ⟨[]⟩

/-- The file of a name. -/
def get? (b : Bundle) (fileName : String) : Option OutputFile :=
  b.files.find? fun f => f.fileName == fileName

/-- Whether a name is taken. -/
def contains (b : Bundle) (fileName : String) : Bool := (b.get? fileName).isSome

/-- The asset of a name. -/
def asset? (b : Bundle) (fileName : String) : Option Asset :=
  (b.get? fileName).bind OutputFile.asset?

/-- Takes out the file of a name. -/
def erase (b : Bundle) (fileName : String) : Bundle :=
  ⟨b.files.filter fun f => f.fileName != fileName⟩

/-- Emits a file under a name that is not taken. -/
def emit (b : Bundle) (file : OutputFile) : Except Error Bundle :=
  if b.contains file.fileName then .error (.alreadyEmitted file.fileName)
  else .ok ⟨b.files ++ [file]⟩

/-- Takes out the file of a name that is taken. -/
def delete (b : Bundle) (fileName : String) : Except Error Bundle :=
  if b.contains fileName then .ok (b.erase fileName) else .error (.noFile fileName)

/-- Gives an asset new text and keeps everything else about it. -/
def replace (b : Bundle) (fileName text : String) : Except Error Bundle :=
  match b.asset? fileName with
  | some a => (b.erase fileName).emit (.asset { a with source := .text text })
  | none => .error (.noAsset fileName)

/-- Emits files one by one. -/
def ofFiles (files : List OutputFile) : Except Error Bundle := files.foldlM emit empty

/-- The assets. -/
def assets (b : Bundle) : List Asset := b.files.filterMap OutputFile.asset?

/-- The assets that are style sheets. -/
def cssAssets (b : Bundle) : List Asset := b.assets.filter fun a => isCssName a.fileName

end Bundle

/-- An asset with a name. -/
def Asset.named (a : Asset) : Except Bundle.Error Asset :=
  if a.fileName.isEmpty then .error .unnamedAsset else .ok a

end StyleSieve
