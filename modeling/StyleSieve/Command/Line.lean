import StyleSieve.Text.Quoted
import StyleSieve.Text.Similarity

/-!
# Command lines

A command line holds switches, some of which take a value, and arguments. They may be mixed; a
double hyphen ends the switches. `readLine` tells them apart.
-/

namespace StyleSieve.Command

open Text

/-- A switch of a command. -/
structure Switch where
  /-- The name of the switch, with its hyphens. -/
  name : String
  /-- A letter that stands for the switch behind a single hyphen. -/
  letter : Option Char := none
  takesValue : Bool := false

/-- What is wrong with a command line. -/
inductive UsageError where
  /-- There is no such switch; some have a name close to it. -/
  | unknownSwitch (name : String) (close : List String)
  | valueMissing (name : String)
  | valueRefused (name : String)
  | argumentMissing (name : String)
  | extraArguments (arguments : List String)
  /-- There is nothing of the expected kind under a path. -/
  | notThere (name kind path : String)
  /-- There is something of another kind under a path. -/
  | otherKind (name kind path other : String)
  | commandMissing
  /-- There is no such command; some have a name close to it. -/
  | unknownCommand (name : String) (close : List String)
  deriving DecidableEq

namespace UsageError

/-- The names that may have been meant. -/
def suggestion (kind : String) : List String → String
  | [] => ""
  | [name] => " Did you mean " ++ quoted name ++ "?"
  | names => " (Possible " ++ kind ++ ": " ++
      String.intercalate ", " ((names.mergeSort (· ≤ ·)).map quoted) ++ ")"

/-- What is wrong with the value of a switch or an argument. -/
def badValue (name problem : String) : String :=
  "Invalid value for '" ++ name ++ "': " ++ problem

/-- The wording of an error. -/
def message : UsageError → String
  | unknownSwitch name close =>
    "No such option " ++ quoted name ++ "." ++ suggestion "options" close
  | valueMissing name => "Option " ++ quoted name ++ " requires an argument."
  | valueRefused name => "Option " ++ quoted name ++ " does not take a value."
  | argumentMissing name => "Missing argument '" ++ name ++ "'."
  | extraArguments arguments =>
    "Got unexpected extra argument" ++ (if arguments.length == 1 then "" else "s") ++ " (" ++
      String.intercalate " " arguments ++ ")"
  | notThere name kind path => badValue name (kind ++ " " ++ quoted path ++ " does not exist.")
  | otherKind name kind path other =>
    badValue name (kind ++ " " ++ quoted path ++ " is a " ++ other ++ ".")
  | commandMissing => "Missing command."
  | unknownCommand name close =>
    "No such command " ++ quoted name ++ "." ++ suggestion "commands" close

end UsageError

/-- A command line, taken apart. -/
structure Line where
  /-- The switches in their order, with the values of those that take one. -/
  switches : List (String × String) := []
  arguments : List String := []
  deriving DecidableEq

namespace Line

/-- Puts a switch in front. -/
def withSwitch (name value : String) (l : Line) : Line :=
  { l with switches := (name, value) :: l.switches }

/-- Puts an argument in front. -/
def withArgument (argument : String) (l : Line) : Line :=
  { l with arguments := argument :: l.arguments }

/-- All values of a switch, in order. -/
def values (l : Line) (name : String) : List String :=
  (l.switches.filter fun s => s.1 == name).map (·.2)

/-- The value of a switch that counts, which is the last one. -/
def value? (l : Line) (name : String) : Option String := (l.values name).getLast?

/-- How often a switch is given. -/
def count (l : Line) (name : String) : Nat := (l.values name).length

/-- Whether a switch is given. -/
def has (l : Line) (name : String) : Bool := 0 < l.count name

end Line

/-- Cuts a word at its first equals sign: what is before it, and what is behind it if it has
one. -/
def cutAtEquals (word : String) : String × Option String :=
  let name := word.toList.takeWhile (· != '=')
  match word.toList.drop name.length with
  | [] => (word, none)
  | _ :: value => (String.ofList name, some (String.ofList value))

/-- The switch of a name. -/
def named? (switches : List Switch) (name : String) : Option Switch :=
  switches.find? fun s => s.name == name

/-- Reads letters behind a single hyphen, each of which stands for a switch. -/
def readLetters (switches : List Switch) : List Char → Except UsageError (List String)
  | [] => .ok []
  | c :: rest =>
    match switches.find? fun s => s.letter == some c with
    | none => .error (.unknownSwitch ("-".push c) [])
    | some s => (readLetters switches rest).map (s.name :: ·)

/-- Whether a word is a switch and no argument. -/
def isSwitchWord (word : String) : Bool := word.startsWith "-" && 1 < word.length

/-- Reads the words of a command line. -/
def readLine (switches : List Switch) (words : List String) : Except UsageError Line :=
  match words with
  | [] => .ok {}
  | word :: rest =>
    if word == "--" then .ok { arguments := rest }
    else if !isSwitchWord word then (readLine switches rest).map (.withArgument word)
    else
      match cutAtEquals word with
      | (name, value) =>
        match named? switches name, value, rest with
        | some s, some v, rest =>
          if s.takesValue then (readLine switches rest).map (.withSwitch name v)
          else .error (.valueRefused name)
        | some s, none, rest =>
          if !s.takesValue then (readLine switches rest).map (.withSwitch name "")
          else
            match rest with
            | [] => .error (.valueMissing name)
            | v :: rest => (readLine switches rest).map (.withSwitch name v)
        | none, _, rest =>
          if word.startsWith "--" then
            .error (.unknownSwitch name (closeMatches name (switches.map (·.name))))
          else do
            let names ← readLetters switches (word.toList.drop 1)
            let line ← readLine switches rest
            return names.foldr (fun n l => l.withSwitch n "") line
termination_by words.length

end StyleSieve.Command
