import StyleSieve.Text.WordTable
import StyleSieve.Text.PrintableTable
import StyleSieve.Text.NameTable

/-!
# Classes of characters

Letters, digits, printable characters and the characters of names. Each class is decided
directly for ASCII and by its table from U+0080 on.
-/

namespace StyleSieve.Text

/-- What holds of all characters of a list is decided by going through the list, not through all
the characters that there are. -/
instance (priority := 2000) decidableForallMem (cs : List Char) (p : Char → Prop)
    [DecidablePred p] : Decidable (∀ c ∈ cs, p c) :=
  List.decidableBAll p cs

/-- A letter of the ASCII alphabet. -/
def isAsciiLetter (c : Char) : Bool :=
  ('a' ≤ c && c ≤ 'z') || ('A' ≤ c && c ≤ 'Z')

/-- A digit from `0` to `9`. -/
def isAsciiDigit (c : Char) : Bool := '0' ≤ c && c ≤ '9'

/-- A digit from `0` to `7`. -/
def isOctalDigit (c : Char) : Bool := '0' ≤ c && c ≤ '7'

/-- A digit to base sixteen, in either case. -/
def isHexDigit (c : Char) : Bool :=
  isAsciiDigit c || ('a' ≤ c && c ≤ 'f') || ('A' ≤ c && c ≤ 'F')

/-- The value of a digit to base sixteen; other characters count as zero. -/
def hexValue (c : Char) : Nat :=
  if isAsciiDigit c then c.toNat - 48
  else if 'a' ≤ c && c ≤ 'f' then c.toNat - 87
  else if 'A' ≤ c && c ≤ 'F' then c.toNat - 55
  else 0

/-- The number that a row of digits denotes to the given base. -/
def digitsValue (base : Nat) (ds : List Char) : Nat :=
  ds.foldl (fun acc d => acc * base + hexValue d) 0

/-- A letter, number or underscore of any script. -/
def isWordChar (c : Char) : Bool :=
  if c.toNat < 128 then isAsciiLetter c || isAsciiDigit c || c == '_'
  else wordChanges.contains c.toNat

/-- A decimal digit of any script. -/
def isDigit (c : Char) : Bool :=
  if c.toNat < 128 then isAsciiDigit c else digitChanges.contains c.toNat

/-- The value of a decimal digit of any script. Digits come in runs of ten, so the value is
the distance from the start of the run, modulo ten for the runs that touch. -/
def digitValue? (c : Char) : Option Nat :=
  if c.toNat < 128 then
    if isAsciiDigit c then some (c.toNat - 48) else none
  else if digitChanges.contains c.toNat then
    let i := CodeSet.countUpTo digitChanges.changes c.toNat 0 digitChanges.changes.size
    some ((c.toNat - digitChanges.changes.getD (i - 1) 0) % 10)
  else none

/-- A character that quoted text shows as it is. -/
def isPrintable (c : Char) : Bool :=
  if c.toNat < 128 then 32 ≤ c.toNat && c.toNat < 127
  else printableChanges.contains c.toNat

/-- A character that may start a name. -/
def isNameStart (c : Char) : Bool :=
  if c.toNat < 128 then isAsciiLetter c || c == '_' else nameStartChanges.contains c.toNat

/-- A character that may continue a name. -/
def isNameContinue (c : Char) : Bool :=
  if c.toNat < 128 then isAsciiLetter c || isAsciiDigit c || c == '_'
  else nameContinueChanges.contains c.toNat

/-- A non-empty row of name characters of which the first may start a name. -/
def isName : List Char → Bool
  | [] => false
  | c :: rest => isNameStart c && rest.all isNameContinue

end StyleSieve.Text
