import StyleSieve.Options.Error
import StyleSieve.Pattern.Escape
import StyleSieve.Setting

/-!
# Reading safelists

A safelist is written as a mapping from its parts to entries, or as a list, which is the
standard part alone. An entry between slashes is a pattern. The greedy and the deep part hold
patterns only; a plain entry there stands for its text wherever it occurs.
-/

namespace StyleSieve

variable [Runtime]

/-- Refuses a value with an error that shows it. -/
def Setting.refuse {α : Type} (tell : String → Options.Error) (value : Setting) :
    Except Options.Error α := do
  let shown ← (value.shown Runtime.levels).mapError .limit
  throw (tell shown)

/-- The parts that an iteration over a value gives: the characters of a text, the items of a
list, the keys of a mapping. An empty value has none. -/
def Setting.parts (value : Setting) : Except Options.Error (List Setting) :=
  if value.isEmpty then .ok []
  else
    match value with
    | .str s => .ok (s.toList.map fun c => .str (String.singleton c))
    | .list items => .ok items
    | .map fields => .ok (fields.map fun f => .str f.1)
    | _ => .error .wrongKind

namespace Safelist

/-- The text between the slashes of a pattern entry. -/
def slashed? (text : String) : Option String :=
  match text.toList with
  | '/' :: rest =>
    if 2 ≤ rest.length && rest.getLast? == some '/' then some (String.ofList rest.dropLast)
    else none
  | _ => none

/-- Reads the source of a pattern. -/
def readPattern (source : String) : Except Options.Error Pattern :=
  match Pattern.compile source with
  | .ok p => .ok p
  | .error fault => .error (.badPattern source fault)

/-- Reads an entry. -/
def readEntry : Setting → Except Options.Error Entry
  | .pattern p => .ok (.pattern p)
  | .str text =>
    match slashed? text with
    | some source => (readPattern source).map .pattern
    | none => .ok (.literal text)
  | value => value.refuse .entryKind

/-- Reads an entry of a part that holds patterns only. -/
def readPatternEntry (value : Setting) : Except Options.Error Pattern := do
  match ← readEntry value with
  | .pattern p => return p
  | .literal text => readPattern (Pattern.escape text)

/-- The names of the parts. -/
def partitions : List String := ["standard", "greedy", "deep", "keyframes", "variables"]

/-- Reads one part of a safelist; a part that is missing is empty. -/
def readPart {α : Type} (read : Setting → Except Options.Error α) (fields : List (String × Setting))
    (name : String) : Except Options.Error (List α) := do
  let items ← (((Setting.map fields).get? name).getD .null).parts
  items.mapM read

/-- Reads a safelist from a mapping. -/
def readFields (fields : List (String × Setting)) : Except Options.Error Safelist := do
  let unknown := (fields.map (·.1)).filter fun name => !partitions.contains name
  if !unknown.isEmpty then throw (.unknownPartitions unknown)
  let standard ← readPart readEntry fields "standard"
  let greedy ← readPart readPatternEntry fields "greedy"
  let deep ← readPart readPatternEntry fields "deep"
  let keyframes ← readPart readEntry fields "keyframes"
  let properties ← readPart readEntry fields "variables"
  return ⟨standard, greedy, deep, keyframes, properties⟩

/-- Reads a safelist. -/
def read : Setting → Except Options.Error Safelist
  | .null => .ok {}
  | .safelist s => .ok s
  | .list items => do return { standard := ← items.mapM readEntry }
  | .map fields => readFields fields
  | value => .error (.safelistKind value.kindName)

end Safelist

end StyleSieve
