import StyleSieve.Bundle
import StyleSieve.Engine
import StyleSieve.Event

/-!
# Purging the style sheets of a bundle

`purgeAssets` gives every style sheet of a bundle to an engine and replaces it by what comes
back. The style sheets are worked on side by side and may be finished in any order. Nothing is
replaced before all of them are finished, and then one is replaced after the other in the order
of the bundle, so that neither the outcome nor a failure depends on the schedule.
-/

namespace StyleSieve

/-! ## Requests -/

/-- The pattern of all pages under a directory. -/
def pagesUnder (root : Path) : String := (root.append ["**", "*.html"]).toString

/-- What an engine is asked for one style sheet: the pages under the root are content, and all
that is removed is reported. -/
def PurgeRequest.ofSheet (options : Options) (safelist : Safelist) (root : Path)
    (fileName text : String) : PurgeRequest where
  css := [⟨Text.trim text, some fileName⟩]
  content := .files (pagesUnder root) :: options.content
  safelist := safelist
  blocklist := options.blocklist
  defaultExtractor := options.defaultExtractor
  extractors := options.extractors
  skippedContent := options.skippedContent
  wantsSelectors := true
  wantsRules := true

/-- What an engine is asked for an asset that is a text. -/
def PurgeRequest.ofAsset (options : Options) (safelist : Safelist) (root : Path) (a : Asset) :
    Except Utf8.Error PurgeRequest :=
  a.text?.map (ofSheet options safelist root a.fileName)

/-! ## Style sheets of a bundle -/

/-- A style sheet of a bundle, with its text. -/
structure Sheet where
  fileName : String
  text : String
  deriving DecidableEq

/-- The name of the part that replaces assets, in the log. -/
def pluginLog : String := "csspurge.plugin"

/-- The record about a style sheet that is no text. -/
def undecodableRecord (fileName : String) (e : Utf8.Error) : LogRecord :=
  ⟨.warning, pluginLog,
    "Leaving " ++ fileName ++ " untouched: not valid UTF-8 (" ++ e.message ++ ")"⟩

/-- The assets that are texts. The others are reported and left as they are. -/
def readableSheets : List Asset → Pass Event (List Sheet)
  | [] => return []
  | a :: rest =>
    match a.text? with
    | .ok text => do return ⟨a.fileName, text⟩ :: (← readableSheets rest)
    | .error e => do
      Pass.report [undecodableRecord a.fileName e]
      Pass.emit (.assetSkipped a.fileName "not UTF-8")
      readableSheets rest

/-! ## Working side by side -/

/-- In which order tasks are finished, given how many of them are worked on at a time. -/
structure Schedule where
  finished : (workers : Nat) → List Sheet → List Sheet
  /-- Every task is finished once. -/
  perm : ∀ workers sheets, (finished workers sheets).Perm sheets

/-- The schedule that finishes tasks in their order. -/
def Schedule.inTurn : Schedule := ⟨fun _ sheets => sheets, fun _ sheets => .refl sheets⟩

/-- How many tasks are worked on at a time. -/
def Options.workers (o : Options) (tasks : Nat) : Except PassError Nat :=
  match o.maxWorkers with
  | none => .ok (min 8 tasks)
  | some n =>
    if n = 0 then .ok (min 8 tasks)
    else if n < 0 then .error .workerCount
    else .ok n.toNat

/-- The first result of an engine for a style sheet. -/
def purgeSheet (engine : Engine) (options : Options) (safelist : Safelist) (root : Path)
    (s : Sheet) : Pass Empty (Option PurgeResult) := do
  let results ← engine (PurgeRequest.ofSheet options safelist root s.fileName s.text)
  return results.head?

/-- Gathers what finished tasks have found. All of them are worked on to their end, even if one
fails before. -/
def gather (runs : List (String × Pass Empty (Option PurgeResult))) :
    Pass Event (List (String × Option PurgeResult)) where
  events := []
  log := runs.flatMap fun r => r.2.log
  result := runs.mapM fun r => r.2.result.map (r.1, ·)

/-- What was found for a name. -/
def resultFor (found : List (String × Option PurgeResult)) (fileName : String) :
    Option PurgeResult :=
  (found.find? fun r => r.1 == fileName).bind (·.2)

/-! ## Replacing -/

/-- Results by the names of the style sheets that were replaced, in order. -/
abbrev PurgeResults := List (String × PurgeResult)

/-- A pass over a bundle: the pass, and the bundle as it is when the pass ends or fails. -/
structure BundlePass where
  bundle : Bundle
  pass : Pass Event PurgeResults

/-- A pass that leaves the bundle alone, and if it does not fail, one that may change it. -/
def BundlePass.after {α : Type} (bundle : Bundle) (prepared : Pass Event α)
    (next : α → BundlePass) : BundlePass :=
  ⟨match prepared.result with
    | .ok a => (next a).bundle
    | .error _ => bundle,
  prepared >>= fun a => (next a).pass⟩

/-- The record about a style sheet that has been replaced. -/
def purgedRecord (s : Sheet) (r : PurgeResult) : LogRecord :=
  ⟨.info, pluginLog, "Purged " ++ s.fileName ++ ": " ++ toString s.text.length ++ " -> " ++
    toString r.css.length ++ " bytes, " ++ toString r.rejected.length ++
    " selector(s) rejected"⟩

/-- The event of a style sheet that has been replaced. -/
def purgedEvent (s : Sheet) (r : PurgeResult) : Event :=
  .assetPurged s.fileName r.rejected r.rejectedCss s.text.length r.css.length

/-- The record about a style sheet that an engine has no result for. -/
def resultlessRecord (fileName : String) : LogRecord :=
  ⟨.debug, pluginLog,
    "Engine returned no result for " ++ fileName ++ "; leaving it untouched"⟩

/-- Replaces style sheets by what was found for them, one after the other. -/
def replaceSheets (found : List (String × Option PurgeResult)) (bundle : Bundle) :
    List Sheet → BundlePass
  | [] => ⟨bundle, return []⟩
  | s :: rest =>
    match resultFor found s.fileName with
    | none =>
      let after := replaceSheets found bundle rest
      ⟨after.bundle, do
        Pass.report [resultlessRecord s.fileName]
        Pass.emit (.assetSkipped s.fileName "no result")
        after.pass⟩
    | some r =>
      match bundle.replace s.fileName r.css with
      | .error e => ⟨bundle, Pass.fail (.bundle e)⟩
      | .ok replaced =>
        let after := replaceSheets found replaced rest
        ⟨after.bundle, do
          Pass.report [purgedRecord s r]
          Pass.emit (purgedEvent s r)
          return (s.fileName, r) :: (← after.pass)⟩

/-- Purges style sheets that are texts. Without any of them there is nothing to work on, and it does not
matter how many workers were asked for. -/
def purgeSheets (schedule : Schedule) (engine : Engine) (options : Options) (safelist : Safelist)
    (root : Path) (bundle : Bundle) (sheets : List Sheet) : BundlePass :=
  if sheets.isEmpty then ⟨bundle, return []⟩
  else
    .after bundle (Pass.ofExcept (options.workers sheets.length)) fun workers =>
      .after bundle (gather ((schedule.finished workers sheets).map fun s =>
        (s.fileName, purgeSheet engine options safelist root s))) fun found =>
        replaceSheets found bundle sheets

/-- Purges the style sheets of a bundle. -/
def purgeAssets (schedule : Schedule) (engine : Engine) (options : Options) (safelist : Safelist)
    (root : Path) (bundle : Bundle) : BundlePass :=
  if bundle.cssAssets.isEmpty then
    ⟨bundle, do
      Pass.note .info pluginLog "No stylesheet assets to purge"
      return []⟩
  else
    .after bundle (readableSheets bundle.cssAssets)
      (purgeSheets schedule engine options safelist root bundle)

end StyleSieve
