import StyleSieve.Glob
import StyleSieve.Options
import StyleSieve.Pass
import StyleSieve.Purge
import StyleSieve.Text.LineEnd
import StyleSieve.Usage

/-!
# Engines

An engine purges style sheets. `contentTokens` gathers what the content consists of, and
`purgeEngine` is the engine that judges every selector by these tokens.
-/

namespace StyleSieve

open Text

variable [Surrogates]

/-- The text of a style sheet, and its name if it has one. -/
structure CssSource where
  text : String
  name : Option String := none
  deriving DecidableEq

/-- What an engine needs to know. -/
structure PurgeRequest where
  css : List CssSource
  content : List Content
  safelist : Safelist
  blocklist : List Entry
  defaultExtractor : Option Extractor
  extractors : List (String × Registration)
  skippedContent : List String
  /-- Whether removed selectors are wanted. -/
  wantsSelectors : Bool
  /-- Whether the texts of removed rules are wanted. -/
  wantsRules : Bool

/-- What is left of one style sheet, and what was removed from it. -/
structure PurgeResult where
  css : String
  file : Option String
  rejected : List String
  rejectedCss : Option String
  deriving DecidableEq

/-- An engine: a result for every style sheet that is not blank, or for fewer. -/
abbrev Engine := PurgeRequest → Pass Empty (List PurgeResult)

/-! ## Content -/

/-- The extension by which the extractor for a path is chosen. -/
def Path.extension (p : Path) : String :=
  lower (String.ofList (p.suffix.toList.dropWhile (· == '.')))

/-- What is registered for an extension. -/
def registered? (table : List (String × Registration)) (extension : String) :
    Option Registration :=
  (table.find? fun f => f.1 == extension).map (·.2)

/-- What is registered for a path, or else the fallback. -/
def extractorFor (path : String) (table : List (String × Registration)) (fallback : Extractor) :
    Registration :=
  (registered? table (Path.ofString path).extension).getD (.extractor fallback)

/-- The tokens that what is registered finds in a text. -/
def Registration.run (text : String) : Registration → Except PassError (List String)
  | .extractor e => .ok (e text)
  | .nothing => .error .notAnExtractor
  | .unusable => .error .notAnExtractor

namespace PurgeRequest

/-- The extractor for content that none is registered for. -/
def fallback (r : PurgeRequest) : Extractor := r.defaultExtractor.getD defaultTokens

/-- Whether a path is not to be read. -/
def skips (r : PurgeRequest) (path : String) : Bool :=
  r.skippedContent.any fun p => Wildcard.matchesText p.toList path.toList

/-- The tokens of a text found under a path. -/
def tokensAt (r : PurgeRequest) (path text : String) : Except PassError (List String) :=
  (extractorFor path r.extractors r.fallback).run text

/-- The files that a pattern finds, with their texts, apart from those to skip. -/
def filesFor (r : PurgeRequest) (tree : FileTree) (pattern : String) : List (String × String) :=
  (Glob.paths tree pattern).filterMap fun path =>
    match tree.read? path.toList with
    | some bytes =>
      if r.skips path then none else some (path, withPlainLineEnds (Utf8.decodeLossy bytes))
    | none => none

/-- The texts of a content entry, with the paths by which their extractors are chosen. -/
def textsOf (r : PurgeRequest) (tree : FileTree) :
    Content → Except PassError (List (String × String))
  | .raw content => .ok [("raw." ++ content.extension, content.text)]
  | .files pattern =>
    if Glob.listsImpossible pattern then .error .nullInPath else .ok (r.filesFor tree pattern)

/-- The tokens of a content entry. -/
def entryTokens (r : PurgeRequest) (tree : FileTree) (entry : Content) :
    Except PassError (List String) := do
  let texts ← r.textsOf tree entry
  let found ← texts.mapM fun t => r.tokensAt t.1 t.2
  return found.flatten

/-- How many files a content entry stands for. -/
def fileCount (r : PurgeRequest) (tree : FileTree) : Content → Nat
  | .raw _ => 0
  | .files pattern => (r.filesFor tree pattern).length

end PurgeRequest

/-- The name of the part that purges, in the log. -/
def engineLog : String := "csspurge.engine"

/-- The tokens of all content, each once. -/
def contentTokens (tree : FileTree) (r : PurgeRequest) : Pass Empty (List String) := do
  let found ← Pass.ofExcept (r.content.mapM (r.entryTokens tree))
  let tokens := dedup found.flatten
  let files := r.content.foldl (fun n entry => n + r.fileCount tree entry) 0
  Pass.note .debug engineLog ("Extracted " ++ toString tokens.length ++ " token(s) from " ++
    toString files ++ " content file(s)")
  return tokens

/-! ## Style sheets -/

/-- How a style sheet is called in the log. -/
def CssSource.label (c : CssSource) : String :=
  match c.name with
  | some name => if name.isEmpty then "<raw css>" else name
  | none => "<raw css>"

/-- Whether a style sheet has nothing in it. -/
def CssSource.isBlank (c : CssSource) : Bool := (trim c.text).isEmpty

/-- The record about a selector that is kept because it cannot be read. -/
def unreadableRecord (selector : String) : LogRecord :=
  ⟨.debug, engineLog, "Keeping unparseable selector " ++ Surrogates.quoted selector⟩

/-- The record about a rule that is dropped in reading. -/
def droppedRecord (line : Nat) : LogRecord :=
  ⟨.warning, "csspurge.stylesheet.parser", Stylesheet.droppedMessage line⟩

/-- Purges one style sheet by what is known about use. -/
def purgeSource (r : PurgeRequest) (usage : Usage) (c : CssSource) : Pass Empty PurgeResult := do
  let reading := Stylesheet.read c.text
  Pass.report (reading.dropped.map droppedRecord)
  let purged := Node.purgeAll usage.keeps {} reading.nodes
  Pass.report ((purged.judged.filter fun s => usage.verdict s == .unreadable).map unreadableRecord)
  Pass.note .debug engineLog ("Purged " ++ c.label ++ ": " ++ toString purged.selectors.length ++
    " selector(s) rejected")
  return {
    css := trim (Node.textAll purged.nodes)
    file := c.name
    rejected := if r.wantsSelectors then purged.selectors else []
    rejectedCss := if r.wantsRules then some (String.intercalate "\n" purged.rules) else none }

/-- Purges style sheets one by one. The content is read when the first of them needs it. -/
def purgeSources (tree : FileTree) (r : PurgeRequest) (tokens : Option (List String)) :
    List CssSource → Pass Empty (List PurgeResult)
  | [] => return []
  | c :: rest =>
    if c.isBlank then do
      Pass.note .debug engineLog ("Nothing to purge in " ++ c.label)
      purgeSources tree r tokens rest
    else do
      let known ← match tokens with
        | some ts => pure ts
        | none => contentTokens tree r
      let result ← purgeSource r ⟨known, r.safelist, r.blocklist⟩ c
      let results ← purgeSources tree r (some known) rest
      return result :: results

/-- The engine that judges selectors by the content found in a file tree. -/
def purgeEngine (tree : FileTree) : Engine := fun r => purgeSources tree r none r.css

end StyleSieve
