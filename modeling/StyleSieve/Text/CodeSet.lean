/-!
# Sets of code points

A set of code points is kept as the increasing list of the places where membership changes,
which is how the properties of a character standard are best tabulated: a code point belongs
to the set exactly when an odd number of changes lies at or before it.
-/

namespace StyleSieve.Text

/-- A set of code points, given by the increasing code points at which membership changes. -/
structure CodeSet where
  changes : Array Nat

namespace CodeSet

/-- How many entries of the increasing array `a` are at most `n`, provided that all entries
before `lo` are and none from `hi` on is. -/
def countUpTo (a : Array Nat) (n lo hi : Nat) : Nat :=
  if lo < hi then
    let mid := (lo + hi) / 2
    if a.getD mid 0 ≤ n then countUpTo a n (mid + 1) hi else countUpTo a n lo mid
  else lo
termination_by hi - lo

/-- Membership by binary search. -/
def contains (s : CodeSet) (n : Nat) : Bool :=
  countUpTo s.changes n 0 s.changes.size % 2 == 1

end CodeSet

end StyleSieve.Text
