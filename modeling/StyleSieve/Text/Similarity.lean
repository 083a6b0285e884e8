/-!
# Similarity of words

Two words are as similar as the part of their characters that a common reading of both covers.
The reading takes the longest row of characters that stands in both words, the first of several,
and goes on in the same way with what is left of it and with what is right of it.
-/

namespace StyleSieve.Text

/-- The length of the longest common beginning of two rows of characters. -/
def commonStart : List Char → List Char → Nat
  | a :: as, b :: bs => if a == b then commonStart as bs + 1 else 0
  | _, _ => 0

/-- A row of characters that stands in two words: where it starts in each, and its length. -/
structure CommonRow where
  first : Nat
  second : Nat
  length : Nat

/-- The longest common row that starts at a given place of the first word, if it is longer than
one that is known. -/
def longerAt (first : Nat) (as bs : List Char) (known : CommonRow) : CommonRow :=
  (List.range bs.length).foldl (fun row second =>
    let n := commonStart as (bs.drop second)
    if row.length < n then ⟨first, second, n⟩ else row) known

/-- The longest common row of two words. -/
def longestCommonRow (as bs : List Char) : CommonRow :=
  (List.range as.length).foldl (fun row first => longerAt first (as.drop first) bs row) ⟨0, 0, 0⟩

/-- How many characters of two words belong together; `fuel` bounds the number of rows. -/
def matchedFrom : Nat → List Char → List Char → Nat
  | 0, _, _ => 0
  | fuel + 1, as, bs =>
    let row := longestCommonRow as bs
    if row.length == 0 then 0
    else row.length + matchedFrom fuel (as.take row.first) (bs.take row.second) +
      matchedFrom fuel (as.drop (row.first + row.length)) (bs.drop (row.second + row.length))

/-- How many characters of two words belong together. -/
def matched (a b : String) : Nat := matchedFrom a.length a.toList b.toList

/-- Whether at least six tenths of the characters of two words belong together. -/
def isClose (a b : String) : Bool := 3 * (a.length + b.length) ≤ 10 * matched a b

/-- Whether the first of two candidates is closer to a word than the second. Of two that are
equally close, the later one in the order of texts is taken for closer. -/
def isCloser (word a b : String) : Bool :=
  let x := matched a word * (b.length + word.length)
  let y := matched b word * (a.length + word.length)
  y < x || (x == y && b ≤ a)

/-- The candidates that are close to a word, the closest first, three at most. -/
def closeMatches (word : String) (candidates : List String) : List String :=
  ((candidates.filter fun c => isClose c word).mergeSort (isCloser word)).take 3

end StyleSieve.Text
