import StyleSieve.Json.Basic
import StyleSieve.Safelist.Reader
import StyleSieve.Log

/-!
# Reading options

Options are written as a mapping from their names to values. What the pass always decides
itself is left out: the style sheets, with a warning, and the reports on what was removed.
Then unknown names are refused, and the rest is read option by option in a fixed order, so
that the first fault in that order is the one that shows.
-/

namespace StyleSieve

variable [Runtime]

mutual

/-- The setting that a JSON value stands for. -/
def Setting.ofJson : Json → Setting
  | .null => .null
  | .bool b => .bool b
  | .int n => .int n
  | .float x => .float x
  | .str s => .str s
  | .arr items => .list (ofJsonItems items)
  | .obj fields => .map (ofJsonFields fields)

/-- The settings that JSON values stand for. -/
def Setting.ofJsonItems : List Json → List Setting
  | [] => []
  | j :: rest => Setting.ofJson j :: Setting.ofJsonItems rest

/-- The settings that JSON fields stand for. -/
def Setting.ofJsonFields : List (String × Json) → List (String × Setting)
  | [] => []
  | (k, j) :: rest => (k, Setting.ofJson j) :: Setting.ofJsonFields rest

end

namespace Options

/-- A key of a mapping that is given as pairs: a text, or something that is not an option. -/
abbrev Key := Option String

/-- Reads a key; lists and mappings cannot be keys. -/
def readKey : Setting → Except Error Key
  | .str s => .ok (some s)
  | .list _ => .error .wrongKind
  | .map _ => .error .wrongKind
  | _ => .ok none

/-- Reads a pair from a value of two parts. -/
def readPair (value : Setting) : Except Error (Key × Setting) := do
  let parts ← match value with
    | .str s => pure (s.toList.map fun c => Setting.str (String.singleton c))
    | .list items => pure items
    | .map fields => pure (fields.map fun f => Setting.str f.1)
    | _ => throw .wrongKind
  match parts with
  | [key, item] => return (← readKey key, item)
  | _ => throw .wrongLength

/-- Sets a key; keys that are not a text are kept apart. -/
def setKey (key : Key) (value : Setting) : List (Key × Setting) → List (Key × Setting)
  | [] => [(key, value)]
  | (k, v) :: rest =>
    if k == key && k.isSome then (k, value) :: rest else (k, v) :: setKey key value rest

/-- Reads a mapping, which can also be written as a list of pairs. -/
def readMapping : Setting → Except Error (List (Key × Setting))
  | .map fields => .ok (fields.map fun f => (some f.1, f.2))
  | .list items => do
    let pairs ← items.mapM readPair
    return pairs.foldl (fun acc p => setKey p.1 p.2 acc) []
  | .str s => if s.isEmpty then .ok [] else .error .wrongLength
  | _ => .error .wrongKind

/-- The items of an option that is a list or a single item. -/
def itemsOf (name : String) : Setting → Except Error (List Setting)
  | .list items => .ok items
  | .str s => .ok [.str s]
  | .raw content => .ok [.raw content]
  | .pattern p => .ok [.pattern p]
  | value => .error (.notAList name value.kindName)

/-- What a value registers for an extension. -/
def registration : Setting → Registration
  | .extractor e => .extractor e
  | .null => .nothing
  | _ => .unusable

/-- An extension without the dots in front. -/
def bareExtension (extension : String) : String :=
  String.ofList (extension.toList.dropWhile (· == '.'))

/-- Reads the option for all content without an extractor of its own. -/
def readDefaultExtractor : Setting → Except Error (Option Extractor)
  | .null => .ok none
  | .extractor e => .ok (some e)
  | _ => .error .notAnExtractor

/-- Reads the extractors by extension. -/
def readExtractors (value : Setting) : Except Error (List (String × Registration)) := do
  if value.isEmpty then return []
  let fields ← readMapping value
  let table ← fields.mapM fun f =>
    match f.1 with
    | some extension => .ok (bareExtension extension, registration f.2)
    | none => .error .extensionKind
  return table.foldl (fun acc f => setField f.1 f.2 acc) []

/-- Reads the text of a value. -/
def readText (value : Setting) : Except Error String := value.text.mapError .limit

/-- Reads one content entry. -/
def readContentEntry : Setting → Except Error Content
  | .str pattern => .ok (.files pattern)
  | .raw content => .ok (.raw content)
  | .map fields =>
    match (Setting.map fields).get? "raw" with
    | some text => do
      let extension := ((Setting.map fields).get? "extension").getD (.str "html")
      return .raw ⟨← readText text, ← readText extension⟩
    | none => (Setting.map fields).refuse .contentEntry
  | value => value.refuse .contentEntry

/-- Reads an option that is a list, item by item; an empty value has no items. -/
def readItems {α : Type} (name : String) (read : Setting → Except Error α) (value : Setting) :
    Except Error (List α) := do
  if value.isEmpty then return []
  (← itemsOf name value).mapM read

/-- Reads the number of workers. -/
def readMaxWorkers : Setting → Except Error (Option Int)
  | .null => .ok none
  | .int n => if 1 ≤ n then .ok (some n) else .error .workerCount
  | _ => .error .workerCount

/-- The names of the options. -/
def names : List String :=
  ["default_extractor", "extractors", "content", "safelist", "blocklist", "skipped_content",
    "max_workers"]

/-- The option that the pass computes itself. -/
def computedName : String := "css"

/-- The options that the pass always turns on. -/
def forcedNames : List String := ["rejected", "rejected_css"]

/-- The fields of a mapping that a user decides about. -/
def ownFields (fields : List (Key × Setting)) : List (Key × Setting) :=
  fields.filter fun f => f.1 != some computedName && !forcedNames.contains (f.1.getD "")

/-- Reads options from named fields, of which none has an unknown name. -/
def readNamed (fields : List (String × Setting)) : Except Error Options := do
  let value name := ((Setting.map fields).get? name).getD .null
  let defaultExtractor ← readDefaultExtractor (value "default_extractor")
  let extractors ← readExtractors (value "extractors")
  let content ← readItems "content" readContentEntry (value "content")
  let safelist ← Safelist.read (value "safelist")
  let blocklist ← readItems "blocklist" Safelist.readEntry (value "blocklist")
  let skippedContent ← readItems "skipped_content" readText (value "skipped_content")
  let maxWorkers ← readMaxWorkers (value "max_workers")
  return ⟨defaultExtractor, extractors, content, safelist, blocklist, skippedContent, maxWorkers⟩

/-- Reads options from fields. -/
def readFields (fields : List (Key × Setting)) : Except Error Options := do
  let own := ownFields fields
  if own.any fun f => f.1.isNone then throw .wrongKind
  let named := own.filterMap fun f => f.1.map fun name => (name, f.2)
  let unknown := (named.map (·.1)).filter fun name => !names.contains name
  if !unknown.isEmpty then throw (.unknownOptions unknown)
  readNamed named

/-- Options, or why there are none, and whether a computed option was ignored. -/
structure Reading where
  ignoredComputed : Bool
  outcome : Except Error Options

/-- Reads options. -/
def read (data : Setting) : Reading :=
  if data.isEmpty then ⟨false, .ok {}⟩
  else
    match readMapping data with
    | .error e => ⟨false, .error e⟩
    | .ok fields => ⟨fields.any fun f => f.1 == some computedName, readFields fields⟩

/-- The records about a reading. -/
def Reading.log (r : Reading) : List LogRecord :=
  if r.ignoredComputed then
    [⟨.warning, "csspurge.config",
      "Ignoring 'css' option: it is always computed from the bundle"⟩]
  else []

end Options

end StyleSieve
