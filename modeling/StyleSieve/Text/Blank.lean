/-!
# Blank characters

Blank characters are those that Unicode classes as spaces or as paragraph, segment and
whitespace separators for bidirectional text. They bound words, and they are what is trimmed
from the two ends of a text.
-/

namespace StyleSieve.Text

/-- The ASCII blanks, with the four information separators. -/
def isAsciiBlank (c : Char) : Bool :=
  (9 ≤ c.toNat && c.toNat ≤ 13) || (28 ≤ c.toNat && c.toNat ≤ 32)

/-- A blank character of any script. -/
def isBlank (c : Char) : Bool :=
  isAsciiBlank c || c.toNat == 0x85 || c.toNat == 0xA0 || c.toNat == 0x1680 ||
    (0x2000 ≤ c.toNat && c.toNat ≤ 0x200A) || c.toNat == 0x2028 || c.toNat == 0x2029 ||
    c.toNat == 0x202F || c.toNat == 0x205F || c.toNat == 0x3000

/-- Without the blanks at the start. -/
def trimStartChars (cs : List Char) : List Char := cs.dropWhile isBlank

/-- Without the blanks at the end. -/
def trimEndChars (cs : List Char) : List Char := (cs.reverse.dropWhile isBlank).reverse

/-- Without the blanks at both ends. -/
def trimChars (cs : List Char) : List Char := trimEndChars (trimStartChars cs)

/-- Without the blanks at both ends. -/
def trim (s : String) : String := String.ofList (trimChars s.toList)

/-- The maximal runs of characters that satisfy `keep`, in order. `current` holds, reversed,
the run that is being read. -/
def runsFrom (keep : Char → Bool) (current : List Char) : List Char → List (List Char)
  | [] => if current.isEmpty then [] else [current.reverse]
  | c :: rest =>
    if keep c then runsFrom keep (c :: current) rest
    else if current.isEmpty then runsFrom keep [] rest
    else current.reverse :: runsFrom keep [] rest

/-- The maximal runs of characters that satisfy `keep`, in order. -/
def runs (keep : Char → Bool) (cs : List Char) : List (List Char) := runsFrom keep [] cs

/-- The words of a text: its maximal runs of characters that are not blank. -/
def words (s : String) : List String :=
  (runs (fun c => !isBlank c) s.toList).map String.ofList

end StyleSieve.Text
