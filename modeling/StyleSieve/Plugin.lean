import StyleSieve.AssetPurge
import StyleSieve.Module
import StyleSieve.Selector.Admission

/-!
# The plugin of a build

A build tells the plugin its configuration and the modules it loads. When the output is there,
the plugin reads the modules that are part of it, admits what could be selectors to the
safelist, and purges the style sheets of the bundle. It acts in builds only, not while
developing.
-/

namespace StyleSieve

variable [Runtime]

/-- What a build tells about itself. -/
structure BuildConfig where
  root : Path := .here
  command : String := "build"
  deriving DecidableEq

/-- What the plugin can ask of a build. -/
structure BuildContext where
  /-- What is known of a module. -/
  module? : String → Option Module
  parse : ScriptParser

/-- The plugin with what it was told so far. -/
structure Plugin where
  options : Options
  engine : Engine
  config : Option BuildConfig := none
  /-- The modules to read, in the order of loading. -/
  moduleIds : List String := []

namespace Plugin

/-- The name of the plugin. -/
def name : String := "csspurge"

/-- The command under which the plugin acts. -/
def command : String := "build"

/-- The plugin acts after all others. -/
def order : String := "post"

/-- The directory whose pages are content. -/
def root (p : Plugin) : Path :=
  match p.config with
  | some c => c.root
  | none => .here

/-- Whether the plugin acts. As long as nothing is known of the build, it does. -/
def isActive (p : Plugin) : Bool :=
  match p.config with
  | some c => c.command == command
  | none => true

/-- The extractor for modules. -/
def extractor (p : Plugin) : Extractor := p.options.defaultExtractor.getD defaultTokens

/-- Takes note of the configuration. -/
def configured (p : Plugin) (c : BuildConfig) : Plugin := { p with config := some c }

/-- Takes note of a module that is loaded. Style sheets are no modules. -/
def loaded (p : Plugin) (id : String) : Plugin :=
  if isCssName id || p.moduleIds.contains id then p
  else { p with moduleIds := p.moduleIds ++ [id] }

/-- The name of the part that admits selectors, in the log. -/
def validatorLog : String := "csspurge.selectors.validator"

/-- The selectors in use that are found in the modules. -/
def discover (p : Plugin) (context : BuildContext) : Pass Event (List String) := do
  let candidates ← collectCandidates p.extractor context.parse (p.moduleIds.map context.module?)
  Pass.emit (.modulesScanned p.moduleIds.length candidates.length)
  let admitted ← Pass.ofExcept ((Selector.admitted candidates).mapError .pattern)
  Pass.note .debug validatorLog ("Admitted " ++ toString admitted.length ++ " of " ++
    toString candidates.length ++ " candidate selectors")
  return admitted

/-- Finds the selectors in use and completes the safelist with them. -/
def safelist (p : Plugin) (context : BuildContext) : Pass Event Safelist := do
  let selectors ← p.discover context
  let complete := p.options.safelist.extended selectors
  Pass.emit (.safelistBuilt selectors.length complete.standard.length complete.greedy.length)
  return complete

/-- Purges the style sheets of the output of a build. -/
def generate (p : Plugin) (schedule : Schedule) (context : BuildContext) (bundle : Bundle) :
    BundlePass :=
  if p.isActive then
    .after bundle (p.safelist context) fun safelist =>
      purgeAssets schedule p.engine p.options safelist p.root bundle
  else
    ⟨bundle, do
      Pass.note .debug pluginLog "Skipping purge: not a build pass"
      return []⟩

end Plugin

end StyleSieve
