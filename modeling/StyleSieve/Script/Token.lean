import StyleSieve.Script.Grammar.Basic
import StyleSieve.Text.Blank
import StyleSieve.Text.Class

/-!
# The spelling of tokens

For each kind of token, how many characters at the start of a text belong to one. A text that
does not start with such a token counts as zero.
-/

namespace StyleSieve.Script

open Text

/-! ## Characters -/

/-- White space between tokens: that of Unicode, and three characters without width. -/
def isSpace (c : Char) : Bool :=
  (isBlank c && !('\x1c' ≤ c && c ≤ '\x1f')) || c == '\u200b' || c == '\u2060' || c == '\ufeff'

/-- The characters that end a line. -/
def endsLine (c : Char) : Bool := c == '\n' || c == '\u2028' || c == '\u2029'

/-- The ASCII characters that no name contains, besides control characters and blanks. -/
def isMark (c : Char) : Bool := ":;`\"'@#.,|^&<=>+-*/\\%?!~()[]\x7b\x7d".toList.contains c

/-- A character that may stand in a name. -/
def continuesName (c : Char) : Bool := !(c < ' ' || isSpace c || isMark c)

/-- A character that may start a name. -/
def startsName (c : Char) : Bool := continuesName c && !isAsciiDigit c

/-- A letter of a name in markup, or a digit, underscore or dollar sign. -/
def isMarkupNameChar (c : Char) : Bool :=
  isAsciiLetter c || isAsciiDigit c || c == '_' || c == '$'

/-- How many characters in a row have a property. -/
def run (keep : Char → Bool) (cs : List Char) : Nat := (cs.takeWhile keep).length

/-! ## Names -/

/-- The length of an escape that spells a character of a name. -/
def nameEscape : List Char → Nat
  | '\\' :: 'u' :: '\x7b' :: rest =>
    let n := run isHexDigit rest
    if 0 < n && rest[n]? == some '\x7d' then n + 4 else 0
  | '\\' :: 'u' :: rest => if run isHexDigit (rest.take 4) == 4 then 6 else 0
  | _ => 0

/-- The length of a name, where `allowed` says which characters can stand at its start. -/
def nameFrom (allowed : Char → Bool) (cs : List Char) : Nat :=
  match cs with
  | [] => 0
  | c :: rest =>
    if allowed c then 1 + nameFrom continuesName rest
    else
      match nameEscape (c :: rest) with
      | 0 => 0
      | n + 1 => n + 1 + nameFrom continuesName (rest.drop n)
termination_by cs.length
decreasing_by
  · simp
  · simp only [List.length_drop, List.length_cons]
    omega

/-- The length of a name. -/
def nameLength (cs : List Char) : Nat := nameFrom startsName cs

/-- The length of a name behind a number sign. -/
def privateNameLength : List Char → Nat
  | '#' :: rest => if nameLength rest == 0 then 0 else 1 + nameLength rest
  | _ => 0

/-- The length of a name with a hyphen in markup. -/
def markupNameLength (cs : List Char) : Nat :=
  let n := run isMarkupNameChar cs
  match cs with
  | [] => 0
  | c :: _ =>
    if isAsciiDigit c || n == 0 || cs[n]? != some '-' then 0
    else n + run (fun d => isMarkupNameChar d || d == '-') (cs.drop n)

/-! ## Numbers -/

/-- The length of the digits that go on, where a single underscore may stand before each. -/
def moreDigits (isDigit : Char → Bool) : List Char → Nat
  | [] => 0
  | '_' :: d :: rest => if isDigit d then 2 + moreDigits isDigit rest else 0
  | d :: rest => if isDigit d then 1 + moreDigits isDigit rest else 0

/-- The length of a row of digits with single underscores between them. -/
def digits (isDigit : Char → Bool) : List Char → Nat
  | [] => 0
  | d :: rest => if isDigit d then 1 + moreDigits isDigit rest else 0

/-- The sum of two lengths, if the second part is there. -/
def followedBy (n m : Nat) : Nat := if m == 0 then 0 else n + m

/-- A length with that of the letter behind whole numbers of any size. -/
def withSuffix (n : Nat) (cs : List Char) : Nat :=
  if n == 0 then 0 else if cs[n]? == some 'n' then n + 1 else n

/-- The length of a whole number to a base other than ten. -/
def basedNumber : List Char → Nat
  | '0' :: b :: rest =>
    if b == 'x' || b == 'X' then followedBy 2 (digits isHexDigit rest)
    else if b == 'b' || b == 'B' then followedBy 2 (digits (fun d => d == '0' || d == '1') rest)
    else if b == 'o' || b == 'O' then followedBy 2 (digits isOctalDigit rest)
    else 0
  | _ => 0

/-- The length of the part of a decimal number before its point: no more than one zero may lead
it. -/
def wholePart : List Char → Nat
  | '0' :: d :: rest =>
    if isAsciiDigit d && d != '0' then 1 + digits isAsciiDigit (d :: rest) else 1
  | cs => digits isAsciiDigit cs

/-- The length of an exponent. -/
def exponent : List Char → Nat
  | e :: rest =>
    if e == 'e' || e == 'E' then
      match rest with
      | '+' :: ds => followedBy 2 (digits isAsciiDigit ds)
      | '-' :: ds => followedBy 2 (digits isAsciiDigit ds)
      | ds => followedBy 1 (digits isAsciiDigit ds)
    else 0
  | [] => 0

/-- A length with that of the exponent behind it, if there is one. -/
def withExponent (n : Nat) (cs : List Char) : Nat := n + exponent (cs.drop n)

/-- The length of a number with a point, or with an exponent. -/
def decimalNumber (cs : List Char) : Nat :=
  let n := wholePart cs
  if n == 0 then
    match cs with
    | '.' :: rest =>
      match digits isAsciiDigit rest with
      | 0 => 0
      | m + 1 => withExponent (m + 2) cs
    | _ => 0
  else if cs[n]? == some '.' then
    withExponent (n + 1 + digits isAsciiDigit (cs.drop (n + 1))) cs
  else followedBy n (exponent (cs.drop n))

/-- The length of a number: the longest that one of its spellings takes. -/
def numberLength (cs : List Char) : Nat :=
  max (withSuffix (max (basedNumber cs) (digits isAsciiDigit cs)) cs) (decimalNumber cs)

/-! ## Inside literals -/

/-- The length of a backslash and what it introduces. -/
def escapeLength : List Char → Nat
  | '\\' :: c :: rest =>
    if c == 'x' then if run isHexDigit (rest.take 2) == 2 then 4 else 0
    else if c == 'u' then nameEscape ('\\' :: c :: rest)
    else if isOctalDigit c then 1 + run isOctalDigit ((c :: rest).take 3)
    else
      match rest with
      | d :: _ => if (c == '\r' || c == '?') && endsLine d then 3 else 2
      | [] => 2
  | _ => 0

/-- The length of a run of plain characters in a string literal. -/
def plainLength (quote : Char) (cs : List Char) : Nat :=
  run (fun c => c != quote && c != '\\' && c != '\r' && c != '\n') cs

/-- The length of a run of plain characters in a string of markup. An ampersand is one if no
reference can start with it. -/
def plainMarkupLength (quote : Char) : List Char → Nat
  | '&' :: d :: rest =>
    if d == '#' || isAsciiLetter d then 0 else 2 + plainMarkupLength quote rest
  | c :: rest => if c == quote || c == '&' then 0 else 1 + plainMarkupLength quote rest
  | [] => 0

/-- A length, and one more for the semicolon that has to follow; zero unless the part before the
semicolon is neither empty nor too long. -/
def closedReference (start count limit : Nat) (cs : List Char) : Nat :=
  if 0 < count && count ≤ limit && cs[start + count]? == some ';' then start + count + 1 else 0

/-- The length of a character in markup that is named or numbered. -/
def referenceLength (cs : List Char) : Nat :=
  match cs with
  | '&' :: '#' :: x :: rest =>
    if x == 'x' || x == 'X' then closedReference 3 (run isHexDigit rest) 6 cs
    else closedReference 2 (run isAsciiDigit (x :: rest)) 5 cs
  | '&' :: rest => closedReference 1 (run isAsciiLetter rest) 30 cs
  | _ => 0

/-- The length of what is left of a class in a regular expression, with its closing bracket. -/
def classLength : List Char → Nat
  | ']' :: _ => 1
  | '\\' :: c :: rest => if c == '\n' then 0 else followedBy 2 (classLength rest)
  | c :: rest => if c == '\n' || c == '\\' then 0 else followedBy 1 (classLength rest)
  | [] => 0

/-- The length of what a regular expression consists of: escapes, classes and other characters,
up to a slash or the end of the line. -/
def regexLength (cs : List Char) : Nat :=
  match cs with
  | [] => 0
  | '\\' :: [] => 0
  | '\\' :: c :: rest => if c == '\n' then 0 else 2 + regexLength rest
  | '[' :: rest =>
    match classLength rest with
    | 0 => 0
    | n + 1 => n + 2 + regexLength (rest.drop (n + 1))
  | c :: rest => if c == '/' || c == '\n' then 0 else 1 + regexLength rest
termination_by cs.length
decreasing_by
  · simp only [List.length_cons]
    omega
  · simp only [List.length_drop, List.length_cons]
    omega
  · simp

/-! ## Comments and special words -/

/-- How many characters there are up to the end of a comment between slashes and asterisks,
with its end; zero if it does not end. -/
def commentTail : List Char → Nat
  | '*' :: '/' :: _ => 2
  | _ :: rest => followedBy 1 (commentTail rest)
  | [] => 0

/-- The length of a comment. -/
def commentLength : List Char → Nat
  | '/' :: '/' :: rest => 2 + run (fun c => !endsLine c && c != '\r') rest
  | '/' :: '*' :: rest => followedBy 2 (commentTail rest)
  | _ => 0

/-- The length of a first line that names an interpreter. -/
def interpreterLineLength : List Char → Nat
  | '#' :: '!' :: rest => 2 + run (· != '\n') rest
  | _ => 0

/-- The length of the blanks at the start of a text up to the last line break among them. -/
def blanksToLineEnd (cs : List Char) : Nat :=
  ((cs.takeWhile isSpace).reverse.dropWhile (· != '\n')).length

/-- The length of the words `static` and `get` with the end of the line behind them. -/
def staticGetLength (cs : List Char) : Nat :=
  if "static".toList.isPrefixOf cs then
    let n := run isSpace (cs.drop 6)
    let rest := cs.drop (6 + n)
    if n != 0 && "get".toList.isPrefixOf rest then
      followedBy (9 + n) (blanksToLineEnd (rest.drop 3))
    else 0
  else 0

/-- The length of a token of a given kind. -/
def Terminal.length (t : Terminal) (cs : List Char) : Nat :=
  match t with
  | word text => if text.toList.isPrefixOf cs then text.length else 0
  | identifier => nameLength cs
  | privateName => privateNameLength cs
  | markupName => markupNameLength cs
  | number => numberLength cs
  | escape => escapeLength cs
  | doubleQuoted => plainLength '"' cs
  | singleQuoted => plainLength '\'' cs
  | doubleQuotedMarkup => plainMarkupLength '"' cs
  | singleQuotedMarkup => plainMarkupLength '\'' cs
  | characterReference => referenceLength cs
  | regexBody => regexLength cs
  | regexEnd => if cs.head? == some '/' then 1 else 0
  | regexFlags => run (fun c => 'a' ≤ c && c ≤ 'z') cs
  | staticGet => staticGetLength cs
  | interpreterLine => interpreterLineLength cs
  | markupText => 0
  | templateText => 0
  | statementEnd => 0
  | questionMark => 0
  | endOfText => 0
  | propertyPosition => 0

end StyleSieve.Script
