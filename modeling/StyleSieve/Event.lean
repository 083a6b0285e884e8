/-!
# Events

What a build pass tells about its progress.
-/

namespace StyleSieve

/-- An event of a pass. -/
inductive Event where
  /-- All modules have been read: how many were asked for, and how many tokens they have. -/
  | modulesScanned (modules candidates : Int)
  /-- The safelist is complete: how many selectors were found, and how many entries its
  standard and greedy parts have. -/
  | safelistBuilt (selectors standard greedy : Int)
  /-- A style sheet has been replaced. -/
  | assetPurged (fileName : String) (rejected : List String) (rejectedCss : Option String)
      (originalSize purgedSize : Int)
  /-- A style sheet has been left as it is. -/
  | assetSkipped (fileName reason : String)
  deriving DecidableEq

end StyleSieve
