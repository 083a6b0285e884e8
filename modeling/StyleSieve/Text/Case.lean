import StyleSieve.Text.CaseTable
import StyleSieve.Text.Class

/-!
# Letter case

Lower-casing of texts in any script. Every character maps to its simple lower-case form, with
two exceptions: the dotted capital I becomes an i with a combining dot, and a capital sigma
takes the final form at the end of a word.
-/

namespace StyleSieve.Text

/-- Lower-case for the letters `A` to `Z` alone. -/
def lowerAscii (c : Char) : Char :=
  if 'A' ≤ c && c ≤ 'Z' then Char.ofNat (c.toNat + 32) else c

/-- The index of the first run that ends at or after `n`, among those from `lo` to `hi` in an
increasing row of runs. -/
def caseRunIndex (runs : Array CaseRun) (n lo hi : Nat) : Nat :=
  if lo < hi then
    let mid := (lo + hi) / 2
    match runs[mid]? with
    | some run =>
      if run.last < n then caseRunIndex runs n (mid + 1) hi else caseRunIndex runs n lo mid
    | none => lo
  else lo
termination_by hi - lo

/-- The image of a code point under a row of runs. -/
def lowerBy (runs : Array CaseRun) (n : Nat) : Nat :=
  match runs[caseRunIndex runs n 0 runs.size]? with
  | some run =>
    if run.first ≤ n && n ≤ run.last && (n - run.first) % run.step == 0 then
      ((n : Int) + run.delta).toNat
    else n
  | none => n

/-- The simple lower-case form of a code point. -/
def lowerCode (n : Nat) : Nat :=
  if n < 128 then (if 65 ≤ n && n ≤ 90 then n + 32 else n) else lowerBy caseRuns n

/-- The simple lower-case form of a character. -/
def lowerChar (c : Char) : Char := Char.ofNat (lowerCode c.toNat)

/-- Whether the nearest character that is not looked through has letter case. -/
def caseFollows : List Char → Bool
  | [] => false
  | c :: rest =>
    if caseIgnorableChanges.contains c.toNat then caseFollows rest
    else casedChanges.contains c.toNat

/-- Lower-cases the characters that follow `before`, which is given in reverse. -/
def lowerFrom (before : List Char) : List Char → List Char
  | [] => []
  | c :: rest =>
    if c == 'Σ' then
      (if caseFollows before && !caseFollows rest then 'ς' else 'σ') :: lowerFrom (c :: before) rest
    else if c == 'İ' then 'i' :: '\u0307' :: lowerFrom (c :: before) rest
    else lowerChar c :: lowerFrom (c :: before) rest

/-- The lower-case form of a row of characters. -/
def lowerChars (cs : List Char) : List Char := lowerFrom [] cs

/-- The lower-case form of a text. -/
def lower (s : String) : String := String.ofList (lowerChars s.toList)

/-- Lower-case for the letters `A` to `Z` alone, throughout a text. -/
def lowerAsciiAll (s : String) : String := String.ofList (s.toList.map lowerAscii)

/-- Lower-case letters that share one upper-case form although they differ. -/
def sharedUpperCase : List (List Nat) := [
  [0x69, 0x131], [0x73, 0x17f], [0xb5, 0x3bc], [0x345, 0x3b9, 0x1fbe], [0x390, 0x1fd3],
  [0x3b0, 0x1fe3], [0x3b2, 0x3d0], [0x3b5, 0x3f5], [0x3b8, 0x3d1], [0x3ba, 0x3f0],
  [0x3c0, 0x3d6], [0x3c1, 0x3f1], [0x3c2, 0x3c3], [0x3c6, 0x3d5], [0x432, 0x1c80],
  [0x434, 0x1c81], [0x43e, 0x1c82], [0x441, 0x1c83], [0x442, 0x1c84, 0x1c85],
  [0x44a, 0x1c86], [0x463, 0x1c87], [0x1c88, 0xa64b], [0x1e61, 0x1e9b], [0xfb05, 0xfb06]]

/-- The lower-case letters that share an upper-case form with the letter `n`, itself included. -/
def caseSiblings (n : Nat) : List Nat :=
  (sharedUpperCase.find? (·.contains n)).getD [n]

end StyleSieve.Text
