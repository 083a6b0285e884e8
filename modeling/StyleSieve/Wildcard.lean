/-!
# Wildcards

Patterns for names: `*` stands for any text, `?` for any character, and brackets for one
character of a set, or with `!` in front for one outside of it. A bracket that is not closed
stands for itself. Everything has to fit from the first character to the last.
-/

namespace StyleSieve

/-- One character of a pattern. -/
inductive Wildcard where
  | any
  | one
  | literal (c : Char)
  /-- A set: whether it is turned around, its members, and ranges of members. -/
  | set (negated : Bool) (members : List Char) (ranges : List (Char × Char))
  deriving DecidableEq

namespace Wildcard

/-- Whether a pattern character that is not `any` stands for a character. -/
def fits (c : Char) : Wildcard → Bool
  | any => true
  | one => true
  | literal d => c == d
  | set negated members ranges =>
    negated != (members.contains c || ranges.any fun r => r.1 ≤ c && c ≤ r.2)

/-- What stands in a set before its closing bracket, and what follows the bracket. The first
character of the set, behind an exclamation mark if there is one, does not close it. -/
def setText? (cs : List Char) : Option (List Char × List Char) :=
  let mark := if cs.head? == some '!' then ['!'] else []
  let first := if (cs.drop mark.length).head? == some ']' then [']'] else []
  let start := mark ++ first
  let rest := cs.drop start.length
  let inside := rest.takeWhile (· != ']')
  match rest.drop inside.length with
  | [] => none
  | _ :: after => some (start ++ inside, after)

/-- A hyphen that stands between the bounds of a range, or any other character. -/
inductive SetSign where
  | hyphen
  | char (c : Char)
  deriving DecidableEq

/-- Cuts the text of a set at the hyphens that make a range. A hyphen does so unless it comes
first or right after the upper bound of another range. -/
def chunks (current : List Char) (wait : Nat) : List Char → List (List Char)
  | [] => [current.reverse]
  | c :: rest =>
    if wait == 0 && c == '-' then current.reverse :: chunks [] 2 rest
    else chunks (c :: current) (wait - 1) rest

/-- A last chunk without characters leaves its hyphen to the chunk before. -/
def closeChunks : List (List Char) → List (List Char)
  | [] => []
  | [chunk] => [chunk]
  | [chunk, []] => [chunk ++ ['-']]
  | chunk :: rest => chunk :: closeChunks rest

/-- Drops ranges without a member: their bounds go, and the chunks around them are joined. -/
def dropEmptyRanges : List (List Char) → List (List Char)
  | [] => []
  | chunk :: rest =>
    match dropEmptyRanges rest with
    | next :: others =>
      match chunk.getLast?, next.head? with
      | some lo, some hi =>
        if hi < lo then (chunk.dropLast ++ next.drop 1) :: others else chunk :: next :: others
      | _, _ => chunk :: next :: others
    | [] => [chunk]

/-- The signs of a set, from its chunks. -/
def signs : List (List Char) → List SetSign
  | [] => []
  | [chunk] => chunk.map .char
  | chunk :: rest => chunk.map .char ++ .hyphen :: signs rest

/-- The ranges among signs. -/
def rangesOf : List SetSign → List (Char × Char)
  | .char lo :: .hyphen :: .char hi :: rest => (lo, hi) :: rangesOf rest
  | _ :: rest => rangesOf rest
  | [] => []

/-- The members among signs; a hyphen without two bounds is one. -/
def membersOf : List SetSign → List Char
  | .char lo :: .hyphen :: .char hi :: rest => lo :: hi :: membersOf rest
  | .char c :: rest => c :: membersOf rest
  | .hyphen :: rest => '-' :: membersOf rest
  | [] => []

/-- The set that the text between brackets describes. -/
def setOf (inside : List Char) : Wildcard :=
  let wait := if inside.head? == some '!' then 2 else 1
  let written := signs (dropEmptyRanges (closeChunks (chunks [] wait inside)))
  match written with
  | .char '!' :: rest => set true (membersOf rest) (rangesOf rest)
  | _ => set false (membersOf written) (rangesOf written)

theorem setText?_length {cs inside after : List Char} (h : setText? cs = some (inside, after)) :
    after.length < cs.length := by
  simp only [setText?] at h
  split at h
  · simp at h
  · next hd =>
    simp only [Option.some.injEq, Prod.mk.injEq] at h
    have := congrArg List.length hd
    simp only [List.length_drop, List.length_cons, h.2] at this
    omega

/-- Reads a pattern. -/
def read (cs : List Char) : List Wildcard :=
  match cs with
  | [] => []
  | '*' :: rest => any :: read rest
  | '?' :: rest => one :: read rest
  | '[' :: rest =>
    match h : setText? rest with
    | some (inside, after) =>
      have : after.length < rest.length := setText?_length h
      setOf inside :: read after
    | none => literal '[' :: read rest
  | c :: rest => literal c :: read rest
termination_by cs.length

/-- Whether some end of a text passes a test, which may be the whole of it or nothing. -/
def anyEnd (test : List Char → Bool) : List Char → Bool
  | [] => test []
  | c :: cs => test (c :: cs) || anyEnd test cs

/-- Whether a pattern fits the whole of a text. -/
def fitsAll : List Wildcard → List Char → Bool
  | [], cs => cs.isEmpty
  | any :: rest, cs => anyEnd (fitsAll rest) cs
  | _ :: _, [] => false
  | w :: rest, c :: cs => w.fits c && fitsAll rest cs

/-- Whether a text holds a character with a meaning in patterns. -/
def hasWildcard (cs : List Char) : Bool := cs.any fun c => c == '*' || c == '?' || c == '['

/-- Whether the text of a pattern fits the whole of a text. -/
def matchesText (pattern text : List Char) : Bool := fitsAll (read pattern) text

end Wildcard

end StyleSieve
