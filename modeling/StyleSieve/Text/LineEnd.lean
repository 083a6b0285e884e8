/-!
# Line ends

Text files end their lines in a line feed, a carriage return, or both. Reading one as text
turns all of them into line feeds.
-/

namespace StyleSieve.Text

/-- The characters with every line end written as a line feed. -/
def plainLineEnds : List Char → List Char
  | [] => []
  | '\r' :: '\n' :: rest => '\n' :: plainLineEnds rest
  | c :: rest => (if c == '\r' then '\n' else c) :: plainLineEnds rest

/-- The text with every line end written as a line feed. -/
def withPlainLineEnds (s : String) : String := String.ofList (plainLineEnds s.toList)

end StyleSieve.Text
