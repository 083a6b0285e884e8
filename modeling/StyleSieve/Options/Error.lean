import StyleSieve.Pattern.Error
import StyleSieve.Text.Quoted

/-!
# Faults in options

Why written option values are not options. Most faults are the user's and have a message; the
others are about values of a shape that reading does not look into.
-/

namespace StyleSieve

namespace Options

/-- What is wrong with option values. -/
inductive Error where
  /-- A safelist that is neither a list nor a mapping, but of the given kind. -/
  | safelistKind (kind : String)
  | unknownPartitions (names : List String)
  /-- An entry that is neither a text nor a pattern; `shown` is its spelling. -/
  | entryKind (shown : String)
  | badPattern (source : String) (fault : Pattern.Error)
  | unknownOptions (names : List String)
  | notAnExtractor
  /-- The option of the given name is not a list, but of the given kind. -/
  | notAList (option kind : String)
  | contentEntry (shown : String)
  | workerCount
  /-- A value that has no parts, or not of the kind that is needed. -/
  | wrongKind
  /-- A pair that does not have two parts. -/
  | wrongLength
  /-- An extension that is not a text. -/
  | extensionKind
  /-- A value that is to be spelled passes a limit of the runtime. -/
  | limit (limit : Limit)
  deriving DecidableEq

namespace Error

/-- Names in a row, sorted. -/
def listed (names : List String) : String :=
  String.intercalate ", " (names.mergeSort (· ≤ ·))

/-- The message of a fault of the user. -/
def message? : Error → Option String
  | safelistKind kind => some ("safelist must be a list or mapping, got " ++ kind)
  | unknownPartitions names => some ("Unknown safelist partition(s): " ++ listed names)
  | entryKind shown => some ("Safelist entries must be strings or patterns, got " ++ shown)
  | badPattern source (.malformed fault offset) =>
    some ("Invalid safelist pattern /" ++ source ++ "/: " ++
      Pattern.Error.message source.toList (.malformed fault offset))
  | badPattern _ _ => none
  | unknownOptions names => some ("Unknown purge option(s): " ++ listed names)
  | notAnExtractor => some "default_extractor must be callable"
  | notAList option kind => some (option ++ " must be a list, got " ++ kind)
  | contentEntry shown => some ("Invalid content entry: " ++ shown)
  | workerCount => some "max_workers must be a positive integer"
  | wrongKind => none
  | wrongLength => none
  | extensionKind => none
  | limit _ => none

end Error

end Options

end StyleSieve
