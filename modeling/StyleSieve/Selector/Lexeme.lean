import StyleSieve.Text.Blank
import StyleSieve.Text.Case

/-!
# The lexemes of selectors

Readers for the pieces that selectors are written with: spacing, names with escapes, quoted
strings, and the names of pseudo selectors that take selectors as arguments. A reader splits
the text in front of it into what it takes and what remains.
-/

namespace StyleSieve.Selector

open Text

/-- The characters that separate compound selectors. -/
def isSpacing (c : Char) : Bool :=
  c == ' ' || c == '\t' || c == '\r' || c == '\n' || c == '\x0c'

/-- The line ends that cannot be escaped. -/
def isLineEnd (c : Char) : Bool := c == '\r' || c == '\n' || c == '\x0c'

/-- A character from U+00A0 to U+FFFF. -/
def isBeyondAscii (c : Char) : Bool := 0xA0 ≤ c.toNat && c.toNat ≤ 0xFFFF

/-- A character that may start a name. -/
def isNameStart (c : Char) : Bool := isAsciiLetter c || c == '_' || isBeyondAscii c

/-- A character that may continue a name. -/
def isNamePart (c : Char) : Bool := isNameStart c || isAsciiDigit c || c == '-'

/-- A character that may continue a loosely read name: word characters of every script count. -/
def isLoosePart (c : Char) : Bool := isWordChar c || c == '-' || isBeyondAscii c

/-- A character that may start a loosely read name: any but the punctuation of selectors and
blanks. -/
def isLooseLead (c : Char) : Bool :=
  !(c == '\\' || c == '#' || c == '.' || c == '[' || c == ']' || c == ':' || c == ',' ||
    c == '>' || c == '+' || c == '~' || c == '*' || c == '(' || c == ')' || c == '|' || isBlank c)

/-- Splits off the longest run of name characters and escapes. An escape is a backslash with up
to six digits to base sixteen and at most one spacing character behind them, or a backslash
with any other character that is not a line end. `room` is zero outside of an escape; inside
one, it is one more than the number of digits that may still follow. -/
def splitName (isPart : Char → Bool) (room : Nat) : List Char → List Char × List Char
  | [] => ([], [])
  | '\\' :: d :: rest =>
    if isHexDigit d then
      let (taken, after) := splitName isPart 6 rest
      ('\\' :: d :: taken, after)
    else if isLineEnd d then ([], '\\' :: d :: rest)
    else
      let (taken, after) := splitName isPart 0 rest
      ('\\' :: d :: taken, after)
  | c :: rest =>
    if 1 < room && isHexDigit c then
      let (taken, after) := splitName isPart (room - 1) rest
      (c :: taken, after)
    else if (0 < room && isSpacing c) || isPart c then
      let (taken, after) := splitName isPart 0 rest
      (c :: taken, after)
    else ([], c :: rest)

/-- Whether the text starts with a character that may start a name, or with an escape. -/
def startsPlainName : List Char → Bool
  | '\\' :: d :: _ => !isLineEnd d
  | c :: _ => isNameStart c
  | [] => false

/-- Whether the text starts with a name: two hyphens, or at most one and a name start. -/
def startsName : List Char → Bool
  | '-' :: '-' :: _ => true
  | '-' :: rest => startsPlainName rest
  | cs => startsPlainName cs

/-- Reads a name. -/
def readName (cs : List Char) : Option (List Char × List Char) :=
  if startsName cs then some (splitName isNamePart 0 cs) else none

/-- Reads a loose name: one lead character of nearly any kind, then parts; without parts the
lead has to be a part itself. -/
def readLooseName : List Char → Option (List Char × List Char)
  | [] => none
  | c :: rest =>
    if isLooseLead c then
      let (taken, after) := splitName isLoosePart 0 rest
      if !taken.isEmpty then some (c :: taken, after)
      else if isLoosePart c then some ([c], rest)
      else none
    else
      let (taken, after) := splitName isLoosePart 0 (c :: rest)
      if taken.isEmpty then none else some (taken, after)

/-- Reads the rest of a string up to its closing quote. -/
def readQuotedRest (quote : Char) : List Char → Option (List Char × List Char)
  | [] => none
  | '\\' :: d :: rest =>
    if d == '\n' then none
    else (readQuotedRest quote rest).map fun (taken, after) => ('\\' :: d :: taken, after)
  | c :: rest =>
    if c == quote then some ([c], rest)
    else if isLineEnd c || c == '\\' then none
    else (readQuotedRest quote rest).map fun (taken, after) => (c :: taken, after)

/-- Reads a string with its quotes. -/
def readQuoted : List Char → Option (List Char × List Char)
  | c :: rest =>
    if c == '"' || c == '\'' then
      (readQuotedRest c rest).map fun (taken, after) => (c :: taken, after)
    else none
  | [] => none

/-- Without the spacing at the start. -/
def skipSpacing (cs : List Char) : List Char := cs.dropWhile isSpacing

/-- Whether a character is a given lower-case letter or sign, whatever its case. -/
def sameIgnoringCase (c p : Char) : Bool :=
  (caseSiblings p.toNat).contains (lowerCode c.toNat)

/-- Pseudo selectors whose arguments are selectors. -/
def selectorFunctions : List String :=
  ["not", "is", "where", "has", "matches", "any", "-webkit-any", "-moz-any", "host",
    "host-context", "slotted", "global", "local", "current", "past", "future"]

/-- Whether a name is one of `selectorFunctions`, whatever its case. -/
def isSelectorFunction (name : List Char) : Bool :=
  selectorFunctions.any fun f =>
    f.toList.length == name.length && (name.zip f.toList).all fun (c, p) => sameIgnoringCase c p

/-- Reads the opening of a pseudo selector with selectors as arguments: its name, the opening
parenthesis and the spacing behind it. -/
def readSelectorFunction (cs : List Char) : Option (List Char × List Char) :=
  let name := cs.takeWhile (· != '(')
  match cs.drop name.length with
  | '(' :: rest =>
    if isSelectorFunction name then some (name ++ ['('], skipSpacing rest) else none
  | _ => none

/-- Reads the opening of any other pseudo selector with an argument, its name being read by
`read`. -/
def readFunction (read : List Char → Option (List Char × List Char)) (cs : List Char) :
    Option (List Char × List Char) :=
  match read cs with
  | some (name, '(' :: rest) => some (name ++ ['('], skipSpacing rest)
  | _ => none

/-- Reads what stands between an opening that has been read and its closing parenthesis: any
text without parentheses. Nothing at all is told apart from a text. -/
def readArgument (cs : List Char) : Option (Option (List Char) × List Char) :=
  let text := cs.takeWhile fun c => c != '(' && c != ')'
  match cs.drop text.length with
  | ')' :: rest => some (if text.isEmpty then none else some text, rest)
  | _ => none

/-- Reads the bracketed rest of an attribute selector behind its name: spacing, an operator with
a value if there is any, and the closing bracket. `marks` are the signs that may stand before
the `=` of the operator, and `readValue` reads a value. -/
def readAttributeTail (marks : List Char)
    (readValue : List Char → Option (List Char × List Char)) (cs : List Char) :
    Option (List Char) :=
  let cs := skipSpacing cs
  match cs with
  | ']' :: rest => some rest
  | c :: rest =>
    let afterOperator := if c == '=' then some rest
      else if marks.contains c then
        match rest with
        | '=' :: rest => some rest
        | _ => none
      else none
    match afterOperator.bind fun cs => readValue (skipSpacing cs) with
    | none => none
    | some (_, after) =>
      match skipSpacing after with
      | ']' :: rest => some rest
      | f :: rest =>
        if ['i', 'I', 's', 'S'].contains f then
          match skipSpacing rest with
          | ']' :: rest => some rest
          | _ => none
        else none
      | [] => none
  | [] => none

/-- Reads an attribute selector behind its opening bracket and gives what follows it. The name
may have a namespace before a bar; a bar that turns out to belong to the operator is read as
such. -/
def readAttribute (marks : List Char)
    (readName readValue : List Char → Option (List Char × List Char)) (cs : List Char) :
    Option (List Char) :=
  let cs := skipSpacing cs
  let tail (cs : List Char) := (readName cs).bind fun (_, after) =>
    readAttributeTail marks readValue after
  let afterNamespace := match cs with
    | '|' :: rest => some rest
    | '*' :: '|' :: rest => some rest
    | _ => match readName cs with
      | some (_, '|' :: rest) => some rest
      | _ => none
  match afterNamespace.bind tail with
  | some rest => some rest
  | none => tail cs

/-- Reads a strict attribute selector: a name or a string is its value. -/
def readStrictAttribute (cs : List Char) : Option (List Char) :=
  readAttribute ['~', '|', '^', '$', '*'] readName
    (fun cs => (readName cs).orElse fun _ => readQuoted cs) cs

/-- A character of a loosely read value. -/
def isLooseValuePart (c : Char) : Bool :=
  !(isBlank c || c == ']' || c == '"' || c == '\'' || c == '\\')

/-- Reads a loose value: nearly any characters, or a string. -/
def readLooseValue (cs : List Char) : Option (List Char × List Char) :=
  match readQuoted cs with
  | some r => some r
  | none =>
    let (taken, after) := splitName isLooseValuePart 0 cs
    if taken.isEmpty then none else some (taken, after)

/-- Reads a loose attribute selector. -/
def readLooseAttribute (cs : List Char) : Option (List Char) :=
  readAttribute ['~', '|', '^', '$', '*', '!'] readLooseName readLooseValue cs

end StyleSieve.Selector
