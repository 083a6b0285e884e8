import StyleSieve.Css.Component

/-!
# Writing components

The text of components. It is the source with its escapes in one spelling, its strings in
double quotes, and with an empty comment between two components that would run together.
-/

namespace StyleSieve.Css

open Text

/-- A character of a name as it is written behind the first. -/
def writtenInName (c : Char) : List Char :=
  if isNamePart c then [c]
  else if c == '\n' then ['\\', 'A', ' ']
  else if c == '\r' then ['\\', 'D', ' ']
  else if c == '\x0c' then ['\\', 'C', ' ']
  else ['\\', c]

/-- A character of a name as it is written where the name starts. -/
def writtenAtStart (c : Char) : List Char :=
  if isAsciiDigit c then '\\' :: (Nat.toDigits 16 c.toNat).map Char.toUpper ++ [' ']
  else if isNameStart c then [c]
  else if c == '-' then ['\\', '-']
  else writtenInName c

/-- A name that stands alone. -/
def writtenName : List Char → List Char
  | [] => []
  | ['-'] => ['\\', '-']
  | '-' :: '-' :: rest => '-' :: '-' :: rest.flatMap writtenInName
  | '-' :: c :: rest => '-' :: writtenAtStart c ++ rest.flatMap writtenInName
  | c :: rest => writtenAtStart c ++ rest.flatMap writtenInName

/-- A number to base sixteen in capital letters. -/
def upperHex (n : Nat) : List Char := (Nat.toDigits 16 n).map Char.toUpper

/-- The unit of a dimension. A unit that could be taken for an exponent has its first letter
escaped. -/
def writtenUnit (unit : List Char) : List Char :=
  match unit with
  | e :: rest =>
    if (e == 'e' || e == 'E') && (rest.isEmpty || rest.head? == some '-') then
      ['\\', '6', '5', ' '] ++ rest.flatMap writtenInName
    else writtenName unit
  | [] => []

/-- A flaw. -/
def Flaw.written : Flaw → List Char
  | .badString => "\"[bad string]\n".toList
  | .badUrl => "url([bad url])".toList
  | .endInString => []
  | .endInUrl => []
  | .unmatched c => [c]

/-- A lexeme. -/
def Lexeme.written : Lexeme → List Char
  | .blank t => t
  | .comment t => '/' :: '*' :: t ++ ['*', '/']
  | .sign t => t
  | .name v => writtenName v
  | .atName v => '@' :: writtenName v
  | .hash v alone => '#' :: if alone then writtenName v else v.flatMap writtenInName
  | .text t => t
  | .url t => t
  | .codeRange first last =>
    'U' :: '+' :: upperHex first ++ if first == last then [] else '-' :: upperHex last
  | .number digits => digits
  | .percentage digits => digits ++ ['%']
  | .dimension digits unit => digits ++ writtenUnit unit
  | .function v => writtenName v ++ ['(']
  | .opening c => [c]
  | .closing c => [c]
  | .flaw kind => kind.written

/-- What a component looks like to its neighbours. -/
inductive Edge where
  | name
  | atName
  | hash
  | dimension
  | number
  | percentage
  | codeRange
  | url
  | function
  | round
  | sign (text : List Char)
  | other
  deriving DecidableEq

/-- What a component looks like to its neighbours. -/
def Component.edge : Component → Edge
  | .lexeme _ l =>
    match l with
    | .name _ => .name
    | .atName _ => .atName
    | .hash _ _ => .hash
    | .dimension _ _ => .dimension
    | .number _ => .number
    | .percentage _ => .percentage
    | .codeRange _ _ => .codeRange
    | .url _ => .url
    | .sign text => .sign text
    | _ => .other
  | .function .. => .function
  | .block _ .round _ => .round
  | .block .. => .other

/-- The start of a name, function or address. -/
def Edge.startsWord : Edge → Bool
  | name | function | url => true
  | _ => false

/-- The start of a number of any kind. -/
def Edge.startsNumber : Edge → Bool
  | number | percentage | dimension => true
  | _ => false

/-- Whether two neighbours would be read as something else if nothing stood between them. -/
def Edge.runsInto (a b : Edge) : Bool :=
  let nameLike := a == name || a == atName || a == hash || a == dimension
  let hashSign := a == sign ['#'] || a == sign ['-'] || a == number
  (nameLike && (b.startsWord || b.startsNumber || b == codeRange || b == sign ['-'] ||
      b == sign ['-', '-', '>'])) ||
    (hashSign && (b.startsWord || b.startsNumber || b == codeRange)) ||
    (a == sign ['@'] && (b.startsWord || b == codeRange || b == sign ['-'])) ||
    ((a == codeRange || a == sign ['.'] || a == sign ['+']) && b.startsNumber) ||
    (a == codeRange && (b == name || b == function || b == sign ['?'])) ||
    ((a == sign ['$'] || a == sign ['*'] || a == sign ['^'] || a == sign ['~'] ||
      a == sign ['|']) && b == sign ['=']) ||
    (a == name && b == round) ||
    (a == sign ['|'] && b == sign ['|']) ||
    (a == sign ['/'] && b == sign ['*'])

/-- What has to be put between two neighbours: an empty comment where they would run together,
and a line end behind a backslash that is no escape. -/
def gapText (a : Option Edge) (b : Component) : List Char :=
  match a with
  | none => []
  | some a =>
    if a.runsInto b.edge then ['/', '*', '*', '/']
    else if a == .sign ['\\'] then
      match b with
      | .lexeme _ (.blank ('\n' :: _)) => []
      | _ => ['\n']
    else []

mutual

/-- Whether the arguments of a function end in a string that the end of the text cut off, also
inside further functions. -/
def endsInString : List Component → Bool
  | [] => false
  | [c] => c.isCutOff
  | _ :: c :: rest => endsInString (c :: rest)

/-- Whether a component is the mark of a string that was cut off, or a function that ends in
one. -/
def Component.isCutOff : Component → Bool
  | .lexeme _ l => l == .flaw .endInString
  | .function _ _ arguments => endsInString arguments
  | .block .. => false

end

mutual

/-- The text of one component. A function has no closing parenthesis if it ends in a string
that was cut off. -/
def Component.written : Component → List Char
  | .lexeme _ l => l.written
  | .function _ name arguments =>
    writtenName name ++ '(' :: writtenAfter none arguments ++
      if endsInString arguments then [] else [')']
  | .block _ bracket content =>
    bracket.signs.1 :: writtenAfter none content ++ [bracket.signs.2]

/-- The text of components in a row, behind a neighbour if there is one. -/
def writtenAfter (before : Option Edge) : List Component → List Char
  | [] => []
  | c :: rest => gapText before c ++ c.written ++ writtenAfter (some c.edge) rest

end

/-- The text of components in a row. -/
def written (cs : List Component) : String := String.ofList (writtenAfter none cs)

end StyleSieve.Css
