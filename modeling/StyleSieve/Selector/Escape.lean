import StyleSieve.Selector.Lexeme

/-!
# Escapes in names

The value of a name or string that is written with escapes: a backslash with up to six digits
to base sixteen, and one spacing character behind them that belongs to the escape, or a
backslash with any other character.
-/

namespace StyleSieve.Selector

open Text

/-- The character with a given code. Zero, surrogates and numbers beyond the last code point
have none and give the replacement character. -/
def escapedChar (code : Nat) : Char :=
  if code == 0 || 0x10FFFF < code || (0xD800 ≤ code && code ≤ 0xDFFF) then '\uFFFD'
  else Char.ofNat code

/-- Without one spacing character at the start. -/
def dropOneSpacing : List Char → List Char
  | c :: rest => if isSpacing c then rest else c :: rest
  | [] => []

theorem dropOneSpacing_length (cs : List Char) : (dropOneSpacing cs).length ≤ cs.length := by
  unfold dropOneSpacing
  split
  · split <;> simp
  · simp

/-- Resolves the escapes of a written name. A backslash at the very end stands for itself. -/
def unescape (cs : List Char) : List Char :=
  match cs with
  | [] => []
  | [c] => [c]
  | c :: d :: rest =>
    if c == '\\' then
      if isHexDigit d then
        let digits := ((d :: rest).take 6).takeWhile isHexDigit
        escapedChar (digitsValue 16 digits) ::
          unescape (dropOneSpacing (rest.drop (digits.length - 1)))
      else d :: unescape rest
    else c :: unescape (d :: rest)
termination_by cs.length
decreasing_by
  · refine Nat.lt_of_le_of_lt (dropOneSpacing_length _) ?_
    simp only [List.length_drop, List.length_cons]
    omega
  · simp only [List.length_cons]
    omega
  · simp only [List.length_cons]
    omega

/-- The name that an opening such as `not(` stands for, in lower case. -/
def openingName (opening : List Char) : List Char :=
  let bare := (opening.reverse.dropWhile isBlank).dropWhile (· == '(') |>.reverse
  lowerChars (unescape bare)

end StyleSieve.Selector
