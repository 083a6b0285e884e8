import StyleSieve.Pattern.Reader

/-!
# Literal patterns

The pattern that matches a given text and nothing else: every character with a meaning in
patterns gets a backslash.
-/

namespace StyleSieve.Pattern

/-- The characters that have a meaning in some pattern. -/
def isSpecial (c : Char) : Bool :=
  "()[]\x7b\x7d?*+-|^$\\.&~# \t\n\r\x0b\x0c".toList.contains c

/-- A text with a backslash before every special character. -/
def escape (text : String) : String :=
  String.ofList (text.toList.flatMap fun c => if isSpecial c then ['\\', c] else [c])

end StyleSieve.Pattern
