import StyleSieve.Text.Surrogate

/-!
# The lexemes of style sheets

A style sheet is first cut into lexemes: blanks, comments, names, numbers, strings, addresses,
brackets and single signs. Escapes in names and strings are resolved on the way, so lexemes
hold values and not spellings. Brackets are not matched here. Every text has lexemes; what
cannot be read (a string that is broken by a line end, a malformed address, a text that ends
too early) gives a lexeme of its own.
-/

namespace StyleSieve.Css

open Text

variable [Surrogates]

/-- Something that could not be read as it stands. -/
inductive Flaw where
  | badString
  | badUrl
  | endInString
  | endInUrl
  /-- A closing bracket that closes nothing. -/
  | unmatched (bracket : Char)
  deriving DecidableEq

/-- A lexeme. -/
inductive Lexeme where
  | blank (text : List Char)
  | comment (text : List Char)
  /-- A sign, or several signs that belong together. -/
  | sign (text : List Char)
  | name (value : List Char)
  | atName (value : List Char)
  /-- A name behind `#`, and whether it could stand alone as a name. -/
  | hash (value : List Char) (isName : Bool)
  /-- A string as it is written back. -/
  | text (written : List Char)
  /-- An address as it is written back. -/
  | url (written : List Char)
  | codeRange (first last : Nat)
  | number (digits : List Char)
  | percentage (digits : List Char)
  | dimension (digits unit : List Char)
  /-- A name with the opening parenthesis of its arguments. -/
  | function (name : List Char)
  | opening (bracket : Char)
  | closing (bracket : Char)
  | flaw (kind : Flaw)
  deriving DecidableEq

/-- One kind of line end, and no character zero. -/
def normalize : List Char → List Char
  | [] => []
  | '\r' :: '\n' :: rest => '\n' :: normalize rest
  | c :: rest =>
    (if c == '\r' || c == '\x0c' then '\n' else if c == '\x00' then '\uFFFD' else c) ::
      normalize rest

/-- A blank of a normalized text. -/
def isBlank (c : Char) : Bool := c == ' ' || c == '\n' || c == '\t'

/-- A character that may start a name. -/
def isNameStart (c : Char) : Bool := isAsciiLetter c || c == '_' || 0x7F < c.toNat

/-- A character that may continue a name. -/
def isNamePart (c : Char) : Bool := isNameStart c || isAsciiDigit c || c == '-'

/-- Whether a backslash in front of this text begins an escape. -/
def escapes (rest : List Char) : Bool := rest.head? != some '\n'

/-- Whether a name starts here. -/
def startsName : List Char → Bool
  | [] => false
  | c :: rest =>
    isNameStart c ||
      (c == '-' && match rest with
        | [] => false
        | d :: more => isNameStart d || d == '-' || (d == '\\' && escapes more)) ||
      (c == '\\' && escapes rest)

/-- The character with a given code, or the one that stands in for half of a surrogate pair. -/
def codeChar (code : Nat) : Char :=
  if code == 0 || 0x10FFFF < code then '\uFFFD'
  else if isSurrogate code then Surrogates.char code
  else Char.ofNat code

/-- Reads an escape behind its backslash: the character it stands for, and how many characters
it takes. -/
def readEscape (cs : List Char) : Char × Nat :=
  let ds := (cs.take 6).takeWhile isHexDigit
  if ds.isEmpty then
    match cs with
    | [] => ('\uFFFD', 0)
    | c :: _ => (c, 1)
  else
    let gap := match cs.drop ds.length with
      | c :: _ => if isBlank c then 1 else 0
      | [] => 0
    (codeChar (digitsValue 16 ds), ds.length + gap)

/-- Reads a name as far as it goes: its value, and how many characters it takes. -/
def readName (cs : List Char) : List Char × Nat :=
  match cs with
  | [] => ([], 0)
  | c :: rest =>
    if isNamePart c then
      let (value, n) := readName rest
      (c :: value, n + 1)
    else if c == '\\' && escapes rest then
      let (e, k) := readEscape rest
      let (value, n) := readName (rest.drop k)
      (e :: value, n + k + 1)
    else ([], 0)
termination_by cs.length
decreasing_by
  · simp
  · simp only [List.length_drop, List.length_cons]
    omega

/-- How a string or an address ended. -/
inductive Ending where
  | closed
  | textEnd
  | broken
  deriving DecidableEq

/-- Reads a string behind its opening quote. -/
def readString (quote : Char) (cs : List Char) : List Char × Nat × Ending :=
  match cs with
  | [] => ([], 0, .textEnd)
  | c :: rest =>
    if c == quote then ([], 1, .closed)
    else if c == '\\' then
      match rest with
      | [] => ([], 1, .textEnd)
      | d :: more =>
        if d == '\n' then
          let (value, n, ending) := readString quote more
          (value, n + 2, ending)
        else
          let (e, k) := readEscape (d :: more)
          let (value, n, ending) := readString quote ((d :: more).drop k)
          (e :: value, n + k + 1, ending)
    else if c == '\n' then ([], 0, .broken)
    else
      let (value, n, ending) := readString quote rest
      (c :: value, n + 1, ending)
termination_by cs.length
decreasing_by
  · simp only [List.length_cons]
    omega
  · simp only [List.length_drop, List.length_cons]
    omega
  · simp

/-- A control character that cannot be shown. -/
def isControl (c : Char) : Bool :=
  c.toNat ≤ 8 || c.toNat == 0xB || (0xE ≤ c.toNat && c.toNat ≤ 0x1F) || c.toNat == 0x7F

/-- Reads an address without quotes up to its closing parenthesis. Behind a blank only more
blanks may come. -/
def readUrl (cs : List Char) : List Char × Nat × Ending :=
  match cs with
  | [] => ([], 0, .textEnd)
  | c :: rest =>
    if c == ')' then ([], 1, .closed)
    else if isBlank c then
      let gap := rest.takeWhile isBlank
      match rest.drop gap.length with
      | [] => ([], gap.length + 1, .textEnd)
      | ')' :: _ => ([], gap.length + 2, .closed)
      | _ => ([], gap.length + 1, .broken)
    else if c == '\\' && escapes rest then
      let (e, k) := readEscape rest
      let (value, n, ending) := readUrl (rest.drop k)
      (e :: value, n + k + 1, ending)
    else if c == '"' || c == '\'' || c == '(' || isControl c then ([], 1, .broken)
    else
      let (value, n, ending) := readUrl rest
      (c :: value, n + 1, ending)
termination_by cs.length
decreasing_by
  · simp only [List.length_drop, List.length_cons]
    omega
  · simp

/-- How many characters the rest of a malformed address takes. -/
def brokenUrlLength : List Char → Nat
  | [] => 0
  | '\\' :: ')' :: rest => brokenUrlLength rest + 2
  | c :: rest => if c == ')' then 1 else brokenUrlLength rest + 1

/-- The sign at the start of a number. -/
def readSign : List Char → List Char
  | c :: _ => if c == '+' || c == '-' then [c] else []
  | [] => []

/-- The digits behind a point. -/
def readFraction : List Char → List Char
  | '.' :: more => more.takeWhile isAsciiDigit
  | _ => []

/-- The exponent at the start of a text, if it has digits. -/
def readExponent : List Char → List Char
  | e :: more =>
    if e == 'e' || e == 'E' then
      let sign := readSign more
      let digits := (more.drop sign.length).takeWhile isAsciiDigit
      if digits.isEmpty then [] else e :: sign ++ digits
    else []
  | [] => []

/-- Digits with or without a point in front of the last of them. -/
def readMantissa (cs : List Char) : List Char :=
  let whole := cs.takeWhile isAsciiDigit
  let frac := readFraction (cs.drop whole.length)
  if frac.isEmpty then whole else whole ++ '.' :: frac

/-- The signed digits at the start of a text: an optional sign, a mantissa and an exponent. -/
def readNumber (cs : List Char) : List Char :=
  let sign := readSign cs
  let body := cs.drop sign.length
  let mantissa := readMantissa body
  if mantissa.isEmpty then []
  else sign ++ mantissa ++ readExponent (body.drop mantissa.length)

/-- Reads a range of code points behind `U+`: the two ends, and how many characters they
take. -/
def readCodeRange (cs : List Char) : Nat × Nat × Nat :=
  let first := (cs.take 6).takeWhile isHexDigit
  let marks := ((cs.drop first.length).take (6 - first.length)).takeWhile (· == '?')
  if !marks.isEmpty then
    let fill (c : Char) := digitsValue 16 (first ++ marks.map fun _ => c)
    (fill '0', fill 'F', first.length + marks.length)
  else
    match cs.drop first.length with
    | '-' :: more =>
      let last := (more.take 6).takeWhile isHexDigit
      if last.isEmpty then (digitsValue 16 first, digitsValue 16 first, first.length)
      else (digitsValue 16 first, digitsValue 16 last, first.length + 1 + last.length)
    | _ => (digitsValue 16 first, digitsValue 16 first, first.length)

/-- How many characters there are up to and with the end of a comment, the comment's text, and
whether it ends at all. -/
def readComment : List Char → List Char × Nat
  | [] => ([], 0)
  | '*' :: '/' :: _ => ([], 2)
  | c :: rest =>
    let (text, n) := readComment rest
    (c :: text, n + 1)

/-- A character of a string as it is written back. -/
def writtenInString (c : Char) : List Char :=
  if c == '"' then ['\\', '"']
  else if c == '\\' then ['\\', '\\']
  else if c == '\n' then ['\\', 'A', ' ']
  else if c == '\r' then ['\\', 'D', ' ']
  else if c == '\x0c' then ['\\', 'C', ' ']
  else [c]

/-- A character of an address as it is written back. -/
def writtenInUrl (c : Char) : List Char :=
  if c == '\'' || c == '"' || c == '\\' || c == ' ' || c == '(' || c == ')' then ['\\', c]
  else if c == '\t' then ['\\', '9', ' ']
  else if c == '\n' then ['\\', 'A', ' ']
  else if c == '\r' then ['\\', 'D', ' ']
  else if c == '\x0c' then ['\\', 'C', ' ']
  else [c]

/-- Lexemes with the number of characters that they take behind the first. -/
abbrev Step := List Lexeme × Nat

/-- Whether a name opens an address, whatever its case. -/
def isUrlName (name : List Char) : Bool :=
  name.map (fun c => if 'A' ≤ c && c ≤ 'Z' then Char.ofNat (c.toNat + 32) else c)
    == ['u', 'r', 'l']

/-- The lexemes of an address without quotes, and how many characters of `cs`, which follows its
opening, it takes. -/
def addressStep (cs : List Char) : Step :=
  let (address, k, ending) := readUrl cs
  let written := ['u', 'r', 'l', '('] ++ address.flatMap writtenInUrl
  match ending with
  | .closed => ([.url (written ++ [')'])], k)
  | .textEnd => ([.url written, .flaw .endInUrl], k)
  | .broken => ([.flaw .badUrl], k + brokenUrlLength (cs.drop k))

/-- The lexemes of a name that starts with `c`; a name with a parenthesis opens a function,
except that an address without quotes is read at once. -/
def nameStep (c : Char) (rest : List Char) : Step :=
  let (value, n) := readName (c :: rest)
  match (c :: rest).drop n with
  | '(' :: after =>
    let gap := after.takeWhile isBlank
    let content := after.drop gap.length
    if !isUrlName value || content.head? == some '"' || content.head? == some '\'' then
      ([.function value], n)
    else
      let (lexemes, k) := addressStep content
      (lexemes, n + gap.length + k)
  | _ => ([.name value], n - 1)

/-- The lexemes of a string whose opening quote is `c`. -/
def stringStep (c : Char) (rest : List Char) : Step :=
  let (value, n, ending) := readString c rest
  let written := '"' :: value.flatMap writtenInString
  match ending with
  | .closed => ([.text (written ++ ['"'])], n)
  | .textEnd => ([.text written, .flaw .endInString], n)
  | .broken => ([.flaw .badString], n)

/-- The lexeme of a number with `digits`, and of the unit or percent sign behind it. -/
def numberStep (c : Char) (rest : List Char) (digits : List Char) : Step :=
  let after := (c :: rest).drop digits.length
  if startsName after then
    let (unit, k) := readName after
    ([.dimension digits unit], digits.length - 1 + k)
  else if after.head? == some '%' then ([.percentage digits], digits.length)
  else ([.number digits], digits.length - 1)

/-- The lexeme that starts with the sign `c`, where no name or number starts. -/
def signStep (c : Char) (rest : List Char) : Step :=
  if c == '@' then
    if startsName rest then
      let (value, n) := readName rest
      ([.atName value], n)
    else ([.sign ['@']], 0)
  else if c == '#' then
    match rest with
    | [] => ([.sign ['#']], 0)
    | d :: more =>
      if isNamePart d || (d == '\\' && escapes more) then
        let (value, n) := readName rest
        ([.hash value (startsName rest)], n)
      else ([.sign ['#']], 0)
  else if c == '{' || c == '[' || c == '(' then ([.opening c], 0)
  else if c == '}' || c == ']' || c == ')' then ([.closing c], 0)
  else if c == '"' || c == '\'' then stringStep c rest
  else if c == '/' && rest.head? == some '*' then
    let (text, n) := readComment (rest.drop 1)
    ([.comment text], n + 1)
  else if c == '<' && ['!', '-', '-'].isPrefixOf rest then ([.sign ['<', '!', '-', '-']], 3)
  else if c == '|' && rest.head? == some '|' then ([.sign ['|', '|']], 1)
  else if (c == '~' || c == '|' || c == '^' || c == '$' || c == '*') && rest.head? == some '=' then
    ([.sign [c, '=']], 1)
  else ([.sign [c]], 0)

/-- Whether a range of code points starts with `c`. -/
def startsCodeRange (c : Char) (rest : List Char) : Bool :=
  (c == 'U' || c == 'u') && rest.head? == some '+' &&
    (rest.drop 1).head?.any fun d => isHexDigit d || d == '?'

/-- The lexemes at the front of a text that starts with `c`. -/
def step (c : Char) (rest : List Char) : Step :=
  if isBlank c then
    let gap := rest.takeWhile isBlank
    ([.blank (c :: gap)], gap.length)
  else if startsCodeRange c rest then
    let (first, last, n) := readCodeRange (rest.drop 1)
    ([.codeRange first last], n + 1)
  else if c == '-' && ['-', '>'].isPrefixOf rest then ([.sign ['-', '-', '>']], 2)
  else if startsName (c :: rest) then nameStep c rest
  else
    let digits := readNumber (c :: rest)
    if digits.isEmpty then signStep c rest else numberStep c rest digits

/-- All lexemes of a normalized text, each with the line that it starts in. -/
def scan (line : Nat) (cs : List Char) : List (Nat × Lexeme) :=
  match cs with
  | [] => []
  | c :: rest =>
    let (lexemes, n) := step c rest
    let taken := rest.take n
    lexemes.map (line, ·) ++
      scan (line + (c :: taken).count '\n') (rest.drop n)
termination_by cs.length
decreasing_by
  simp only [List.length_drop, List.length_cons]
  omega

end StyleSieve.Css
