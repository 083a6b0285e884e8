import StyleSieve.Command.Config
import StyleSieve.Command.Line
import StyleSieve.DirectoryBuild

/-!
# Commands

There are two commands: `purge` removes unused rules from the style sheets of a directory, and
`selectors` lists the selectors that its scripts use. `Command.run` answers a whole command line
on given files.
-/

namespace StyleSieve.Command

variable [Runtime] [Surrogates]

/-! ## Outcomes -/

/-- A failure that is not the user's. -/
inductive Fault where
  | config (error : ConfigError)
  | directory (error : DirectoryError)
  | pass (error : PassError)
  | write (error : DirectoryBuild.WriteError)
  deriving DecidableEq

/-- What a command has done. -/
structure Outcome where
  exitCode : Nat
  /-- The lines of the answer. -/
  output : List String := []
  /-- The lines about the work itself and about what is wrong. -/
  errors : List String := []
  fault : Option Fault := none
  /-- The files afterwards. -/
  tree : FileTree

/-- The name of the program. -/
def programName : String := "csspurge"

/-- The version of the program. -/
def version : String := "0.1.0"

/-! ## Usage -/

/-- A command: its name, its switches, and what it is followed by. -/
structure Usage where
  name : String
  switches : List Switch
  synopsis : String

/-- The switch that asks for help. -/
def help : Switch := { name := "--help" }

/-- The program, before a command is named. -/
def programUsage : Usage where
  name := programName
  switches := [{ name := "--version" }, help]
  synopsis := "[OPTIONS] COMMAND [ARGS]..."

/-- How the directory to work on is called. -/
def outDirName : String := "OUT_DIR"

/-- The switch that asks for more to be reported. -/
def verbose : Switch := { name := "--verbose", letter := some 'v' }

/-- The switch that names a configuration file. -/
def config : Switch := { name := "--config", takesValue := true }

def purgeUsage : Usage where
  name := programName ++ " purge"
  switches := [
    { name := "--root", takesValue := true }, { name := "--content", takesValue := true },
    { name := "--safelist", takesValue := true }, config, { name := "--rejected" },
    { name := "--dry-run" }, verbose, help]
  synopsis := "[OPTIONS] OUT_DIR"

def selectorsUsage : Usage where
  name := programName ++ " selectors"
  switches := [config, verbose, help]
  synopsis := "[OPTIONS] OUT_DIR"

/-- The line that shows how a command is used. -/
def Usage.line (u : Usage) : String := "Usage: " ++ u.name ++ " " ++ u.synopsis

/-- The outcome of a command that is not used as it should be. -/
def Usage.fail (u : Usage) (tree : FileTree) (e : UsageError) : Outcome where
  exitCode := 2
  errors := [u.line, "Try '" ++ u.name ++ " --help' for help.", "", "Error: " ++ e.message]
  tree := tree

/-! ## Paths on the command line -/

/-- Checks that there is a directory under a path. -/
def checkDirectory (tree : FileTree) (name path : String) : Except UsageError Unit :=
  match tree.locate path.toList with
  | none => .error (.notThere name "Directory" path)
  | some place =>
    if tree.isDirectory place then .ok () else .error (.otherKind name "Directory" path "file")

/-- Checks that there is a file under a path. -/
def checkFile (tree : FileTree) (name path : String) : Except UsageError Unit :=
  match tree.locate path.toList with
  | none => .error (.notThere name "File" path)
  | some place =>
    if tree.isDirectory place then .error (.otherKind name "File" path "directory") else .ok ()

/-- Checks the value that counts of a switch that takes a path. -/
def checkSwitch (tree : FileTree) (line : Line) (name : String) : Except UsageError Unit :=
  match line.value? name with
  | none => .ok ()
  | some path =>
    if name == "--root" then checkDirectory tree name path
    else if name == "--config" then checkFile tree name path
    else .ok ()

/-- Checks the paths of a command line, switches in their order and then the directory, and
gives the directory. -/
def checkLine (tree : FileTree) (line : Line) : Except UsageError String := do
  for name in (line.switches.map (·.1)).eraseDups do
    checkSwitch tree line name
  match line.arguments with
  | [] => throw (.argumentMissing outDirName)
  | outDir :: extra =>
    checkDirectory tree outDirName outDir
    if extra.isEmpty then return outDir else throw (.extraArguments extra)

/-! ## Reports -/

/-- The least severity that is reported. -/
def threshold (line : Line) : Nat := 2 - line.count "--verbose"

/-- The records that are reported, as lines. -/
def reported (line : Line) (log : List LogRecord) : List String :=
  (log.filter fun r => threshold line ≤ r.severity.rank).map (·.line)

/-- What the command line says about options. -/
def optionFlags (tree : FileTree) (line : Line) : OptionFlags where
  config := (line.value? "--config").bind fun path =>
    (tree.read? path.toList).map fun contents => (path, contents)
  content := line.values "--content"
  safelist := line.values "--safelist"

/-- The outcome of a fault in the configuration. -/
def configFailure (tree : FileTree) (log : List String) (e : ConfigError) : Outcome :=
  match e.message? with
  | some message => { exitCode := 1, errors := log ++ ["Config error: " ++ message], tree }
  | none => { exitCode := 1, errors := log, fault := some (.config e), tree }

/-- The outcome of a failing pass. -/
def passFailure (tree : FileTree) (log : List String) (e : PassError) : Outcome :=
  match e with
  | .unreadableModule e => { exitCode := 1, errors := log ++ ["Parse error: " ++ e.message], tree }
  | e => { exitCode := 1, errors := log, fault := some (.pass e), tree }

/-- Builds the plugin from the options, and the bundle from the directory. -/
def start (tree : FileTree) (line : Line) (outDir : String) (root : Option String)
    (next : List LogRecord → Plugin → DirectoryBuild → Outcome) : Outcome :=
  let (log, options) := (optionFlags tree line).read
  match options with
  | .error e => configFailure tree (reported line log) e
  | .ok options =>
    match DirectoryBuild.ofDirectory tree (.ofString outDir) (root.map .ofString) with
    | .error e => { exitCode := 1, errors := reported line log, fault := some (.directory e), tree }
    | .ok build => next log { options, engine := purgeEngine tree } build

/-! ## Listing selectors -/

/-- Lists the selectors in use. -/
def selectors (tree : FileTree) (line : Line) (outDir : String) : Outcome :=
  start tree line outDir none fun log plugin build =>
    let pass := (build.moduleIds.foldl Plugin.loaded plugin).discover build.context
    let errors := reported line (log ++ pass.log)
    match pass.result with
    | .error e => passFailure tree errors e
    | .ok found => { exitCode := 0, output := found, errors, tree }

/-! ## Purging -/

/-- The lines about a style sheet that was replaced. -/
def purgedLines (listsRejected : Bool) : Event → List String
  | .assetPurged fileName rejected _ originalSize purgedSize =>
    (fileName ++ ": " ++ toString originalSize ++ " -> " ++ toString purgedSize ++ " bytes, " ++
      toString rejected.length ++ " selector(s) rejected") ::
      if listsRejected then rejected.map ("  - " ++ ·) else []
  | _ => []

/-- The line about a style sheet that was left as it is. -/
def skippedLines : Event → List String
  | .assetSkipped fileName reason => [fileName ++ ": unchanged (" ++ reason ++ ")"]
  | _ => []

/-- The answer of a purge: the style sheets that were replaced, then those that were not. -/
def purgeReport (listsRejected isDryRun : Bool) (events : List Event) : List String :=
  let lines := events.flatMap (purgedLines listsRejected) ++ events.flatMap skippedLines
  if lines.isEmpty then ["No stylesheets found"]
  else if isDryRun then lines ++ ["Dry run: no files written"]
  else lines

/-- Purges the style sheets of a directory. -/
def purge (tree : FileTree) (line : Line) (outDir : String) : Outcome :=
  start tree line outDir (line.value? "--root") fun log plugin build =>
    let isDryRun := line.has "--dry-run"
    let run := build.run .inTurn plugin (!isDryRun) tree
    let errors := reported line (log ++ run.log)
    match run.result with
    | .error (.pass e) => passFailure run.tree errors e
    | .error (.write e) => { exitCode := 1, errors, fault := some (.write e), tree := run.tree }
    | .ok _ =>
      { exitCode := 0
        output := purgeReport (line.has "--rejected") isDryRun run.events
        errors
        tree := run.tree }

/-! ## The program -/

/-- Runs a command on the words behind its name. -/
def runCommand (u : Usage) (command : FileTree → Line → String → Outcome) (tree : FileTree)
    (words : List String) : Outcome :=
  match readLine u.switches words with
  | .error e => u.fail tree e
  | .ok line =>
    if line.has help.name then { exitCode := 0, output := [u.line], tree }
    else
      match checkLine tree line with
      | .error e => u.fail tree e
      | .ok outDir => command tree line outDir

/-- The commands by name. -/
def commands : List (String × (FileTree → List String → Outcome)) :=
  [("purge", runCommand purgeUsage purge), ("selectors", runCommand selectorsUsage selectors)]

/-- Whether a word belongs to the program and not to a command. -/
def isProgramSwitch (word : String) : Bool := isSwitchWord word && word != "--"

/-- Answers the switches of the program that stand in front, if there are any. The first one
decides. -/
def runSwitches? (tree : FileTree) (words : List String) : Option Outcome :=
  match readLine programUsage.switches (words.takeWhile isProgramSwitch) with
  | .error e => some (programUsage.fail tree e)
  | .ok line => line.switches.head?.map fun (name, _) =>
    { exitCode := 0
      output := [if name == help.name then programUsage.line
        else programName ++ ", version " ++ version]
      tree }

/-- Runs the command that the first word names. A word that names none may still be a switch of
the program. -/
def runNamed (tree : FileTree) : List String → Outcome
  | [] => programUsage.fail tree .commandMissing
  | name :: words =>
    match commands.find? fun c => c.1 == name with
    | some c => c.2 tree words
    | none => (runSwitches? tree (name :: words)).getD <|
        programUsage.fail tree
          (.unknownCommand name (Text.closeMatches name (commands.map (·.1))))

/-- Runs the program on a command line. -/
def run (tree : FileTree) (words : List String) : Outcome :=
  match runSwitches? tree words with
  | some outcome => outcome
  | none =>
    if words.isEmpty then { exitCode := 2, errors := [programUsage.line], tree }
    else runNamed tree (if words.head? == some "--" then words.tail else words)

end StyleSieve.Command
