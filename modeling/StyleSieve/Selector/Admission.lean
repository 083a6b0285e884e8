import StyleSieve.Extractor
import StyleSieve.Pattern.Reader
import StyleSieve.Selector.Candidate

/-!
# Admission of tokens

A token joins the set of selectors in use if it could be a selector and also is a pattern.
Everything else that extractors find is dropped without a word: it is prose or data.
-/

namespace StyleSieve.Selector

variable [Runtime]

/-- Whether a token is a pattern. An error that is not a fault in the token, such as a repetition
count out of range, is not expected. -/
def isPattern (token : String) : Except Pattern.Error Bool :=
  match Pattern.compile token with
  | .ok _ => .ok true
  | .error e => if e.isFault then .ok false else .error e

/-- Whether a token could be a selector and is a pattern. -/
def isAdmissible (token : String) : Except Pattern.Error Bool :=
  if isCandidate token then isPattern token else .ok false

/-- The tokens that are admissible, sorted and each of them once. -/
def admitted (tokens : List String) : Except Pattern.Error (List String) := do
  let kept ← (dedup tokens).filterM isAdmissible
  return kept.mergeSort (· ≤ ·)

end StyleSieve.Selector
