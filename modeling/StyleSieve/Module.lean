import StyleSieve.Extractor
import StyleSieve.Pass
import StyleSieve.Script.Parser

/-!
# Candidates of modules

The modules of a build are read for texts that may name selectors. Modules that are not part of
the output, or whose code is not known, are left alone: code that never runs keeps no style.
-/

namespace StyleSieve

/-- A module of a build. -/
structure Module where
  id : String
  isIncluded : Bool := true
  code : Option String := none
  deriving DecidableEq

/-- Why a script cannot be read. -/
inductive ScriptError where
  /-- The text is no script. The place is known if the parser tells it. -/
  | invalid (message : String) (line column : Option Int)
  /-- The parser fails in another way, of which the kind and a message are known. -/
  | failed (kind message : String)
  deriving DecidableEq

namespace ScriptError

/-- A number that may be missing, as a place shows it. -/
def placeText : Option Int → String
  | some n => toString n
  | none => "None"

/-- What is wrong. -/
def message : ScriptError → String
  | invalid m _ _ => m
  | failed kind m => if m.isEmpty then kind else m

/-- The line, if it is known. -/
def line? : ScriptError → Option Int
  | invalid _ l _ => l
  | failed _ _ => none

/-- The column, if it is known. -/
def column? : ScriptError → Option Int
  | invalid _ _ c => c
  | failed _ _ => none

/-- The place behind the name of a module. -/
def place (e : ScriptError) : String :=
  match e.line? with
  | some l => ":" ++ toString l ++ ":" ++ placeText e.column?
  | none => ""

/-- The error about the module with a given name. -/
def inModule (e : ScriptError) (id : String) : ModuleError where
  message := "Failed to parse module " ++ id ++ e.place ++ ": " ++ e.message
  module? := some id
  line := e.line?
  column := e.column?

end ScriptError

/-- Something that finds the syntax trees of scripts. -/
abbrev ScriptParser := String → Except ScriptError Script.Tree

/-- The parser of the grammar of scripts. -/
def parseScript : ScriptParser := fun code =>
  match Script.parse? code.toList with
  | some tree => .ok tree
  | none => .error (.invalid "Unexpected syntax" none none)

/-- The texts of a script that may name selectors. -/
def scriptTexts (parse : ScriptParser) (code : String) : Except ScriptError (List String) :=
  (parse code).map (Script.Tree.harvest code.toList)

/-- The tokens in the texts of a script. -/
def scanModule (extract : String → List String) (parse : ScriptParser) (id code : String) :
    Except ModuleError (List String) :=
  match scriptTexts parse code with
  | .ok texts => .ok (dedup (texts.flatMap extract))
  | .error e => .error (e.inModule id)

/-- The name of the part that reads modules, in the log. -/
def scannerLog : String := "csspurge.scanner"

/-- The record about a module that is left alone. -/
def Module.skippedRecord (m : Module) : LogRecord :=
  ⟨.debug, scannerLog, "Skipping module " ++ m.id ++ " (included=" ++
    (if m.isIncluded then "True" else "False") ++ ")"⟩

/-- The code of a module that is to be read. -/
def Module.liveCode? (m : Module) : Option String := if m.isIncluded then m.code else none

/-- The tokens of each module that is to be read. -/
def scanModules {ε : Type} (extract : String → List String) (parse : ScriptParser) :
    List (Option Module) → Pass ε (List (List String))
  | [] => return []
  | none :: rest => scanModules extract parse rest
  | some m :: rest => do
    match m.liveCode? with
    | none =>
      Pass.report [m.skippedRecord]
      scanModules extract parse rest
    | some code =>
      match scanModule extract parse m.id code with
      | .error e => Pass.fail (.unreadableModule e)
      | .ok tokens => return tokens :: (← scanModules extract parse rest)

/-- The tokens of all modules together. -/
def collectCandidates {ε : Type} (extract : String → List String) (parse : ScriptParser)
    (modules : List (Option Module)) : Pass ε (List String) := do
  let found ← scanModules extract parse modules
  let tokens := dedup found.flatten
  Pass.note .info scannerLog ("Scanned " ++ toString found.length ++ " module(s), " ++
    toString tokens.length ++ " candidate token(s)")
  return tokens

end StyleSieve
