import StyleSieve.Extractor
import StyleSieve.Safelist

/-!
# Options

What the user of a build can set. An option that was not given has the value that stands here.
-/

namespace StyleSieve

/-- Content that is given as text instead of by name. -/
structure RawContent where
  text : String
  extension : String
  deriving DecidableEq

/-- Where tokens in use are looked for. -/
inductive Content where
  /-- All files whose path fits. -/
  | files (pattern : String)
  | raw (content : RawContent)
  deriving DecidableEq

/-- What is registered for an extension. Only what is used has to be an extractor. -/
inductive Registration where
  | extractor (extractor : Extractor)
  | nothing
  | unusable

/-- The options of a build. -/
structure Options where
  /-- The extractor for all content that no other is registered for. -/
  defaultExtractor : Option Extractor := none
  /-- Extractors by extension, without a dot. -/
  extractors : List (String × Registration) := []
  content : List Content := []
  safelist : Safelist := {}
  /-- Names that count as unused. -/
  blocklist : List Entry := []
  /-- Paths that are not read as content. -/
  skippedContent : List String := []
  /-- How many style sheets are worked on at a time; zero says as little as nothing. -/
  maxWorkers : Option Int := none

/-- Less than no workers are asked for, which no reading of options lets through. -/
def Options.LacksWorkers (o : Options) : Prop := ∃ n, o.maxWorkers = some n ∧ n < 0

end StyleSieve
