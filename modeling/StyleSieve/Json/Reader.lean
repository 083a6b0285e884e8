import StyleSieve.Json.Basic
import StyleSieve.Text.Class

/-!
# Reading JSON

A reader for JSON texts that also takes `NaN`, `Infinity` and `-Infinity` as numbers. A text
that is not JSON is reported with what was expected and where: every failure carries the
offset of the character it is about, and `Error.message` turns it into line and column.
-/

namespace StyleSieve.Json

/-- Why a text is not JSON. -/
inductive Fault where
  | byteOrderMark
  | expectedValue
  | expectedKey
  | expectedColon
  | expectedComma
  | extraData
  | unterminatedString
  | controlCharacter
  | badEscape
  | badUnicodeEscape
  deriving DecidableEq

/-- What the fault is called. -/
def Fault.name : Fault → String
  | .byteOrderMark => "Unexpected UTF-8 BOM (decode using utf-8-sig)"
  | .expectedValue => "Expecting value"
  | .expectedKey => "Expecting property name enclosed in double quotes"
  | .expectedColon => "Expecting ':' delimiter"
  | .expectedComma => "Expecting ',' delimiter"
  | .extraData => "Extra data"
  | .unterminatedString => "Unterminated string starting at"
  | .controlCharacter => "Invalid control character at"
  | .badEscape => "Invalid \\escape"
  | .badUnicodeEscape => "Invalid \\uXXXX escape"

/-- A fault and the offset of the character it is about. -/
structure Error where
  fault : Fault
  offset : Nat
  deriving DecidableEq

/-- The fault with its line and column, both counted from one, and its offset. -/
def Error.message (e : Error) (text : List Char) : String :=
  let before := text.take e.offset
  let line := before.count '\n' + 1
  let column := (before.reverse.takeWhile (· != '\n')).length + 1
  e.fault.name ++ ": line " ++ toString line ++ " column " ++ toString column ++
    " (char " ++ toString e.offset ++ ")"

/-- What is left to read, and its offset in the whole text. -/
structure Cursor where
  rest : List Char
  offset : Nat

namespace Cursor

/-- Past `n` characters. -/
def advance (c : Cursor) (n : Nat) : Cursor := ⟨c.rest.drop n, c.offset + n⟩

/-- Past blanks. -/
def skipBlanks (c : Cursor) : Cursor :=
  let blanks := c.rest.takeWhile (fun ch => ch == ' ' || ch == '\t' || ch == '\n' || ch == '\r')
  c.advance blanks.length

/-- Whether the rest begins with the given characters. -/
def startsWith (c : Cursor) (word : List Char) : Bool := word.isPrefixOf c.rest

end Cursor

open Text

/-- The four digits of a `\u` escape as a number; `none` where there are not four digits. -/
def readUnit (cs : List Char) : Option Nat :=
  let ds := cs.take 4
  if ds.length == 4 && ds.all isHexDigit then some (digitsValue 16 ds) else none

/-- The character that one-letter escapes stand for. -/
def shortEscape : Char → Option Char
  | '"' => some '"'
  | '\\' => some '\\'
  | '/' => some '/'
  | 'b' => some '\x08'
  | 'f' => some '\x0c'
  | 'n' => some '\n'
  | 'r' => some '\r'
  | 't' => some '\t'
  | _ => none

/-- Reads up to the closing quote of the string whose opening quote stands at `start`. -/
def readString (start : Nat) : Nat → List Char → Cursor → Except Error (List Char × Cursor)
  | 0, _, _ => .error ⟨.unterminatedString, start⟩
  | fuel + 1, acc, c =>
    match c.rest with
    | [] => .error ⟨.unterminatedString, start⟩
    | '"' :: _ => .ok (acc.reverse, c.advance 1)
    | ['\\'] => .error ⟨.unterminatedString, start⟩
    | '\\' :: 'u' :: more =>
      if more.length < 5 then .error ⟨.badUnicodeEscape, c.offset + 1⟩
      else match readUnit more with
        | none => .error ⟨.badUnicodeEscape, c.offset + 1⟩
        | some unit =>
          let next := c.advance 6
          match next.rest with
          | '\\' :: 'u' :: tail =>
            if 0xD800 ≤ unit && unit ≤ 0xDBFF && 5 ≤ tail.length then
              match readUnit tail with
              | none => .error ⟨.badUnicodeEscape, next.offset + 1⟩
              | some low =>
                if 0xDC00 ≤ low && low ≤ 0xDFFF then
                  let code := 0x10000 + (unit - 0xD800) * 0x400 + (low - 0xDC00)
                  readString start fuel (Char.ofNat code :: acc) (next.advance 6)
                else readString start fuel ('\uFFFD' :: acc) next
            else readString start fuel (unitChar unit :: acc) next
          | _ => readString start fuel (unitChar unit :: acc) next
    | '\\' :: e :: _ =>
      match shortEscape e with
      | some ch => readString start fuel (ch :: acc) (c.advance 2)
      | none => .error ⟨.badEscape, c.offset⟩
    | ch :: _ =>
      if ch.toNat < 0x20 then .error ⟨.controlCharacter, c.offset⟩
      else readString start fuel (ch :: acc) (c.advance 1)
where
  /-- A lone surrogate is no character and becomes the replacement character. -/
  unitChar (unit : Nat) : Char :=
    if 0xD800 ≤ unit && unit ≤ 0xDFFF then '\uFFFD' else Char.ofNat unit

/-- Reads a number: digits without a leading zero, then a fraction and an exponent. -/
def readNumber (c : Cursor) : Except Error (Json × Cursor) :=
  let negative := c.startsWith ['-']
  let body := if negative then c.rest.drop 1 else c.rest
  let whole := match body with
    | '0' :: _ => ['0']
    | _ => body.takeWhile isAsciiDigit
  if whole.isEmpty then .error ⟨.expectedValue, c.offset⟩
  else
    let afterWhole := body.drop whole.length
    let frac := match afterWhole with
      | '.' :: more => more.takeWhile isAsciiDigit
      | _ => []
    let afterFrac := if frac.isEmpty then afterWhole else afterWhole.drop (frac.length + 1)
    let expo : List Char × List Char × Nat := match afterFrac with
      | e :: s :: more =>
        if e == 'e' || e == 'E' then
          if s == '+' || s == '-' then ([s], more.takeWhile isAsciiDigit, 2)
          else ([], (s :: more).takeWhile isAsciiDigit, 1)
        else ([], [], 0)
      | _ => ([], [], 0)
    let (sign, expDigits, lead) := expo
    let length := (if negative then 1 else 0) + whole.length +
      (if frac.isEmpty then 0 else frac.length + 1) +
      (if expDigits.isEmpty then 0 else expDigits.length + lead)
    let next := c.advance length
    if frac.isEmpty && expDigits.isEmpty then
      let n : Int := digitsValue 10 whole
      .ok (.int (if negative then -n else n), next)
    else
      let e : Int := digitsValue 10 expDigits
      let e := if sign == ['-'] then -e else e
      .ok (.float (.ofDecimal negative (digitsValue 10 (whole ++ frac)) (e - frac.length)), next)

/-- The words that stand for a value. -/
def wordValues : List (List Char × Json) := [
  ("null".toList, .null), ("true".toList, .bool true), ("false".toList, .bool false),
  ("NaN".toList, .float .nan), ("Infinity".toList, .float (.infinite false)),
  ("-Infinity".toList, .float (.infinite true))]

mutual

/-- Reads one value at the cursor. Of two nested calls at least one has passed a character, so
twice the length of the text bounds the depth. -/
def readValue : Nat → Cursor → Except Error (Json × Cursor)
  | 0, c => .error ⟨.expectedValue, c.offset⟩
  | fuel + 1, c =>
    match c.rest with
    | '"' :: _ => do
      let (s, next) ← readString c.offset (c.rest.length + 1) [] (c.advance 1)
      .ok (.str (String.ofList s), next)
    | '{' :: _ =>
      let inner := (c.advance 1).skipBlanks
      if inner.startsWith ['}'] then .ok (.obj [], inner.advance 1)
      else readFields fuel [] inner
    | '[' :: _ =>
      let inner := (c.advance 1).skipBlanks
      if inner.startsWith [']'] then .ok (.arr [], inner.advance 1)
      else readItems fuel [] inner
    | _ =>
      match wordValues.find? (fun w => c.startsWith w.1) with
      | some (word, v) => .ok (v, c.advance word.length)
      | none => readNumber c

/-- Reads the fields of an object from a key on. -/
def readFields : Nat → List (String × Json) → Cursor → Except Error (Json × Cursor)
  | 0, _, c => .error ⟨.expectedKey, c.offset⟩
  | fuel + 1, fields, c =>
    match c.rest with
    | '"' :: _ => do
      let (key, next) ← readString c.offset (c.rest.length + 1) [] (c.advance 1)
      let colon := next.skipBlanks
      if !colon.startsWith [':'] then .error ⟨.expectedColon, colon.offset⟩
      else
        let (value, next) ← readValue fuel (colon.advance 1).skipBlanks
        let fields := setField (String.ofList key) value fields
        let next := next.skipBlanks
        if next.startsWith ['}'] then .ok (.obj fields, next.advance 1)
        else if next.startsWith [','] then readFields fuel fields (next.advance 1).skipBlanks
        else .error ⟨.expectedComma, next.offset⟩
    | _ => .error ⟨.expectedKey, c.offset⟩

/-- Reads the items of an array from a value on. -/
def readItems : Nat → List Json → Cursor → Except Error (Json × Cursor)
  | 0, _, c => .error ⟨.expectedValue, c.offset⟩
  | fuel + 1, items, c => do
    let (value, next) ← readValue fuel c
    let items := value :: items
    let next := next.skipBlanks
    if next.startsWith [']'] then .ok (.arr items.reverse, next.advance 1)
    else if next.startsWith [','] then readItems fuel items (next.advance 1).skipBlanks
    else .error ⟨.expectedComma, next.offset⟩

end

/-- Reads a text that holds one JSON value. -/
def read (text : List Char) : Except Error Json :=
  match text with
  | '\uFEFF' :: _ => .error ⟨.byteOrderMark, 0⟩
  | _ => do
    let (value, next) ← readValue (2 * text.length + 2) (Cursor.mk text 0).skipBlanks
    let stop := next.skipBlanks
    if stop.rest.isEmpty then .ok value else .error ⟨.extraData, stop.offset⟩

end StyleSieve.Json
