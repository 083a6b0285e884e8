import StyleSieve.Selector.Basic
import StyleSieve.Selector.Escape

/-!
# The parts of an attribute selector

A bracketed attribute selector that has been recognised is taken apart into name, operator and
value. The name is tried at its longest first and then shorter, until the rest can be read as
an operator with a value or as the closing bracket; a namespace before a bar is left out if
there is a way to do so.
-/

namespace StyleSieve.Selector

open Text

/-- Without the blanks at the start. -/
def skipBlanks (cs : List Char) : List Char := cs.dropWhile isBlank

/-- What ends the name of an attribute unless it is escaped. -/
def endsAttributeName (c : Char) : Bool :=
  isBlank c || c == '~' || c == '|' || c == '^' || c == '$' || c == '*' || c == '=' || c == ']'

/-- Tries `k` on the ways to split off a name, of which `taken` is the reversed part that is
settled: an escaped character is taken together with its backslash if possible, and more is
tried before less. A character that satisfies `ends` ends the name unless it is escaped. -/
def withAttributeName {α : Type} (ends : Char → Bool) (k : List Char → List Char → Option α)
    (taken : List Char) : List Char → Option α
  | [] => none
  | '\\' :: c :: rest =>
    (withAttributeName ends k (c :: '\\' :: taken) rest).orElse fun _ =>
      (k (c :: '\\' :: taken).reverse rest).orElse fun _ =>
        (withAttributeName ends k ('\\' :: taken) (c :: rest)).orElse fun _ =>
          k ('\\' :: taken).reverse (c :: rest)
  | c :: rest =>
    if ends c then none
    else
      (withAttributeName ends k (c :: taken) rest).orElse fun _ => k (c :: taken).reverse rest

/-- The operator at the start of a text. -/
def readOperator : List Char → Option (AttributeOperator × List Char)
  | '=' :: rest => some (.equals, rest)
  | '~' :: '=' :: rest => some (.includes, rest)
  | '|' :: '=' :: rest => some (.dashMatch, rest)
  | '^' :: '=' :: rest => some (.beginsWith, rest)
  | '$' :: '=' :: rest => some (.endsWith, rest)
  | '*' :: '=' :: rest => some (.contains, rest)
  | _ => none

/-- Reads the rest of a string of any characters up to its closing quote, which is left out. -/
def readAnyQuotedRest (quote : Char) : List Char → Option (List Char × List Char)
  | [] => none
  | '\\' :: d :: rest =>
    (readAnyQuotedRest quote rest).map fun (taken, after) => ('\\' :: d :: taken, after)
  | c :: rest =>
    if c == quote then some ([], rest)
    else if c == '\\' then none
    else (readAnyQuotedRest quote rest).map fun (taken, after) => (c :: taken, after)

/-- Whether nothing but a flag, blanks and the closing bracket are left. -/
def endsAttribute (cs : List Char) : Bool :=
  skipBlanks cs == [']'] ||
    match skipBlanks cs with
    | f :: rest => ['i', 'I', 's', 'S'].contains f && skipBlanks rest == [']']
    | [] => false

/-- The written value of an attribute behind the operator, without the quotes of a string. -/
def readAttributeValue (cs : List Char) : Option (List Char) :=
  let quoted := match cs with
    | c :: rest =>
      if c == '"' || c == '\'' then
        (readAnyQuotedRest c rest).bind fun (value, after) =>
          if endsAttribute after then some value else none
      else none
    | [] => none
  quoted.orElse fun _ =>
    let value := cs.takeWhile fun c => !isBlank c && c != ']'
    if !value.isEmpty && endsAttribute (cs.drop value.length) then some value else none

/-- What may follow a name: nothing, or an operator and a value. -/
def readCondition (cs : List Char) : Option (Option (AttributeOperator × List Char)) :=
  let cs := skipBlanks cs
  if cs == [']'] then some none
  else (readOperator cs).bind fun (op, rest) =>
    (readAttributeValue (skipBlanks rest)).map fun value => some (op, value)

/-- The term that a bracketed attribute selector stands for. -/
def attributeTerm? (text : List Char) : Option Term :=
  let body := skipBlanks (text.drop 1)
  let term (cs : List Char) : Option Term :=
    withAttributeName endsAttributeName (fun name after => (readCondition after).map fun condition =>
      .attribute (String.ofList (unescape name))
        (condition.map fun (op, value) => (op, String.ofList (unescape value)))) [] cs
  let space := body.takeWhile fun c => !(isBlank c || c == '|' || c == '=' || c == ']')
  let afterNamespace := match body.drop space.length with
    | '|' :: '=' :: _ => none
    | '|' :: rest => some rest
    | _ => none
  (afterNamespace.bind term).orElse fun _ => term body

end StyleSieve.Selector
