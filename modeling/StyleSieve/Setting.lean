import StyleSieve.Number.Binary64
import StyleSieve.Options
import StyleSieve.Runtime
import StyleSieve.Text.Quoted

/-!
# Settings

Option values as they are written down, before they are checked: data of the usual kinds, and
values that only a program can pass. `Setting.shown` is their spelling in messages, if they have one.
-/

namespace StyleSieve

open Text

/-- A written option value. -/
inductive Setting where
  | null
  | bool (b : Bool)
  | int (n : Int)
  | float (x : Binary64)
  | str (s : String)
  | list (items : List Setting)
  | map (fields : List (String × Setting))
  | extractor (e : Extractor)
  | pattern (p : Pattern)
  | raw (content : RawContent)
  | safelist (s : Safelist)

/-- The names of the flags that show with a pattern. -/
def Pattern.Flags.names (f : Pattern.Flags) : List String :=
  (if f.template then ["re.TEMPLATE"] else []) ++
  (if f.ignoreCase then ["re.IGNORECASE"] else []) ++
  (if f.multiline then ["re.MULTILINE"] else []) ++
  (if f.dotAll then ["re.DOTALL"] else []) ++
  (if f.verbose then ["re.VERBOSE"] else []) ++
  (if f.ascii then ["re.ASCII"] else [])

/-- The spelling of a pattern; a long source is cut. -/
def Pattern.shown (p : Pattern) : String :=
  let flags := p.flags.names
  "re.compile(" ++ String.ofList ((quoted p.source).toList.take 200) ++
    (if flags.isEmpty then "" else ", " ++ String.intercalate "|" flags) ++ ")"

/-- Values between parentheses; a single one is followed by a comma. -/
def shownRow : List String → String
  | [] => "()"
  | [x] => "(" ++ x ++ ",)"
  | xs => "(" ++ String.intercalate ", " xs ++ ")"

/-- The spelling of an entry. -/
def Entry.shown : Entry → String
  | .literal text => quoted text
  | .pattern p => p.shown

/-- The spelling of a safelist. -/
def Safelist.shown (s : Safelist) : String :=
  "Safelist(standard=" ++ shownRow (s.standard.map Entry.shown) ++
    ", greedy=" ++ shownRow (s.greedy.map Pattern.shown) ++
    ", deep=" ++ shownRow (s.deep.map Pattern.shown) ++
    ", keyframes=" ++ shownRow (s.keyframes.map Entry.shown) ++
    ", variables=" ++ shownRow (s.variables.map Entry.shown) ++ ")"

/-- The spelling of raw content. -/
def RawContent.shown (c : RawContent) : String :=
  "RawContent(raw=" ++ quoted c.text ++ ", extension=" ++ quoted c.extension ++ ")"

namespace Setting

/-- The value that a mapping holds under a key. -/
def get? (key : String) : Setting → Option Setting
  | map fields => (fields.find? (·.1 == key)).map (·.2)
  | _ => none

/-- Whether a value says nothing: null, false, zero and everything empty. -/
def isEmpty : Setting → Bool
  | null => true
  | bool b => !b
  | int n => n == 0
  | float x => x.isZero
  | str s => s.isEmpty
  | list items => items.isEmpty
  | map fields => fields.isEmpty
  | _ => false

/-- The kind of a value, as messages name it. -/
def kindName : Setting → String
  | null => "NoneType"
  | bool _ => "bool"
  | int _ => "int"
  | float _ => "float"
  | str _ => "str"
  | list _ => "list"
  | map _ => "dict"
  | extractor _ => "function"
  | pattern _ => "Pattern"
  | raw _ => "RawContent"
  | safelist _ => "Safelist"

mutual

/-- The spelling of a value in messages, where values may be nested for so many levels. -/
def shown : Setting → Nat → Except Limit String
  | _, 0 => .error .stack
  | null, _ + 1 => .ok "None"
  | bool true, _ + 1 => .ok "True"
  | bool false, _ + 1 => .ok "False"
  | int n, _ + 1 =>
    if maxDigits < (Nat.toDigits 10 n.natAbs).length then .error .digits
    else .ok (toString n)
  | float x, _ + 1 => .ok x.render
  | str s, _ + 1 => .ok (quoted s)
  | list items, levels + 1 => do
    return "[" ++ String.intercalate ", " (← shownItems items levels) ++ "]"
  | map fields, levels + 1 => do
    return "\x7b" ++ String.intercalate ", " (← shownFields fields levels) ++ "\x7d"
  | extractor _, _ + 1 => .ok "<function>"
  | pattern p, _ + 1 => .ok p.shown
  | raw content, _ + 1 => .ok content.shown
  | safelist s, _ + 1 => .ok s.shown

/-- The spellings of the items of a list. -/
def shownItems : List Setting → Nat → Except Limit (List String)
  | [], _ => .ok []
  | x :: rest, levels => do return (← x.shown levels) :: (← shownItems rest levels)

/-- The spellings of the fields of a mapping. -/
def shownFields : List (String × Setting) → Nat → Except Limit (List String)
  | [], _ => .ok []
  | (k, x) :: rest, levels => do
    return (quoted k ++ ": " ++ (← x.shown levels)) :: (← shownFields rest levels)

end

/-- The text of a value: a text stands for itself, everything else for its spelling. -/
def text [Runtime] : Setting → Except Limit String
  | str s => .ok s
  | v => v.shown Runtime.levels

end Setting

end StyleSieve
