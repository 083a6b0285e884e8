import StyleSieve.FileTree
import StyleSieve.Json.Reader
import StyleSieve.Options.Reader
import StyleSieve.Text.LineEnd

/-!
# Configuration

Options come from a file and from the command line. What the command line gives is appended to
what the file says, before any of it is looked into.
-/

namespace StyleSieve.Command

open Text

variable [Runtime]

/-- Why there are no options. -/
inductive ConfigError where
  | notText (error : Utf8.Error)
  | notJson (path message : String)
  | notAnObject (path : String)
  /-- Nothing can be appended to a value. -/
  | notAppendable
  | options (error : Options.Error)
  deriving DecidableEq

/-- The message of a fault of the user; other faults have none. -/
def ConfigError.message? : ConfigError → Option String
  | notText _ => none
  | notJson path message => some (path ++ ": invalid JSON (" ++ message ++ ")")
  | notAnObject path => some (path ++ ": expected a JSON object")
  | notAppendable => none
  | options e => e.message?

/-- The fields of an object. -/
abbrev Fields := List (String × Json)

/-- What a value holds, one by one: the items of a list, the letters of a text, the keys of an
object. -/
def parts : Json → Except ConfigError (List Json)
  | .arr items => .ok items
  | .str s => .ok (s.toList.map fun c => .str (String.singleton c))
  | .obj fields => .ok (fields.map fun f => .str f.1)
  | _ => .error .notAppendable

/-- The parts of a field, none if it is not there. -/
def partsOf (name : String) (fields : Fields) : Except ConfigError (List Json) :=
  match (Json.obj fields).get? name with
  | some value => parts value
  | none => .ok []

/-- Appends texts to what a field holds, if there are any. -/
def appendTo (name : String) (texts : List String) (fields : Fields) :
    Except ConfigError Fields := do
  let known ← partsOf name fields
  return setField name (.arr (known ++ texts.map .str)) fields

/-- The fields of a safelist; a list stands for its standard part. -/
def safelistFields (fields : Fields) : Except ConfigError Fields :=
  match ((Json.obj fields).get? "safelist").getD .null with
  | .obj own => .ok own
  | .arr items => .ok (if items.isEmpty then [] else [("standard", .arr items)])
  | value => if (Setting.ofJson value).isEmpty then .ok [] else .error .notAppendable

/-- Appends content patterns. -/
def appendContent (patterns : List String) (fields : Fields) : Except ConfigError Fields :=
  if patterns.isEmpty then .ok fields else appendTo "content" patterns fields

/-- Appends standard entries to the safelist. -/
def appendSafelist (entries : List String) (fields : Fields) : Except ConfigError Fields :=
  if entries.isEmpty then .ok fields
  else do
    let own ← safelistFields fields
    return setField "safelist" (.obj (← appendTo "standard" entries own)) fields

/-- The object in the file of a configuration. -/
def readObject (path : String) (contents : Bytes) : Except ConfigError Fields := do
  let text ← (Utf8.decode contents).mapError .notText
  let text := (withPlainLineEnds text).toList
  match Json.read text with
  | .error e => throw (.notJson path (e.message text))
  | .ok (.obj fields) => return fields
  | .ok _ => throw (.notAnObject path)

/-- What the command line says about options. -/
structure OptionFlags where
  /-- The path of the configuration file, and what is in it. -/
  config : Option (String × Bytes) := none
  content : List String := []
  safelist : List String := []

/-- The fields that the file and the command line give together. -/
def OptionFlags.fields (f : OptionFlags) : Except ConfigError Fields := do
  let own ← match f.config with
    | some (path, contents) => readObject path contents
    | none => pure []
  appendSafelist f.safelist (← appendContent f.content own)

/-- The options, or why there are none, with what is reported about them. -/
def OptionFlags.read (f : OptionFlags) : List LogRecord × Except ConfigError Options :=
  match f.fields with
  | .error e => ([], .error e)
  | .ok fields =>
    let reading := Options.read (Setting.ofJson (.obj fields))
    (reading.log, reading.outcome.mapError .options)

end StyleSieve.Command
