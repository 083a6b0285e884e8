import StyleSieve.Script.Token

/-!
# Layout

Where the layout of a text ends a statement without a semicolon, which question marks are those
of conditional expressions, and how far the text of templates and of markup reaches.

The end of a text and a NUL look the same from here.
-/

namespace StyleSieve.Script

open Text

/-- The next character; NUL at the end. -/
def next (cs : List Char) : Char := cs.headD '\x00'

/-- The blanks that layout is made of, besides comments. -/
def isLayoutBlank (c : Char) : Bool :=
  ('\t' ≤ c && c ≤ '\x0d') || c == ' ' || c == '\u1680' ||
    ('\u2000' ≤ c && c ≤ '\u200a' && c != '\u2007') || c == '\u2028' || c == '\u2029' ||
    c == '\u205f' || c == '\u3000'

/-- A letter, or a digit that is not an ASCII one. -/
def isLetter (c : Char) : Bool := isWordChar c && !isAsciiDigit c && c != '_'

/-- Without the blanks at the start. -/
def skipBlanks (cs : List Char) : List Char := cs.dropWhile isLayoutBlank

/-! ## Blanks and comments -/

/-- Why the reading of layout stops. -/
inductive LayoutEnd where
  /-- Something else follows. -/
  | reached
  /-- A comment on one line ends, and something else follows on that line. -/
  | comment
  /-- A slash starts no comment. -/
  | slash
  deriving DecidableEq

/-- Layout that has been read, and the text behind it. -/
structure Layout where
  stop : LayoutEnd
  sawComment : Bool
  rest : List Char

/-- What follows a comment between slashes and asterisks, if it is closed, and whether the
comment holds a line break. -/
def closeComment (sawLineEnd : Bool) : List Char → Option (List Char) × Bool
  | '*' :: '/' :: rest => (some rest, sawLineEnd)
  | c :: rest =>
    if c == '\x00' then (none, sawLineEnd) else closeComment (sawLineEnd || endsLine c) rest
  | [] => (none, sawLineEnd)

theorem closeComment_length {saw : Bool} {cs rest : List Char}
    (h : (closeComment saw cs).1 = some rest) : rest.length < cs.length := by
  fun_induction closeComment saw cs with
  | case1 saw tail =>
    simp only [Option.some.injEq] at h
    simp only [h, List.length_cons]
    omega
  | case2 => simp at h
  | case3 saw c tail _ _ ih =>
    have := ih h
    simp only [List.length_cons]
    omega
  | case4 => simp at h

theorem length_dropWhile_le (p : Char → Bool) (cs : List Char) :
    (cs.dropWhile p).length ≤ cs.length := (List.dropWhile_sublist p).length_le

/-- Reads blanks and comments. With `stopsOnLine`, a comment between slashes and asterisks ends
the reading, unless a slash follows; it counts as reached if some such comment before held a
line break. -/
def readLayout (stopsOnLine sawLineEnd sawComment : Bool) (cs : List Char) : Layout :=
  match h : skipBlanks cs with
  | '/' :: '/' :: rest =>
    have : (rest.dropWhile fun c => !endsLine c && c != '\x00').length < cs.length := by
      have h₁ := length_dropWhile_le (fun c => !endsLine c && c != '\x00') rest
      have h₂ := length_dropWhile_le isLayoutBlank cs
      have h₃ := congrArg List.length h
      simp only [skipBlanks, List.length_cons] at h₃
      omega
    readLayout stopsOnLine sawLineEnd true (rest.dropWhile fun c => !endsLine c && c != '\x00')
  | '/' :: '*' :: rest =>
    match hc : closeComment sawLineEnd rest with
    | (some after, saw) =>
      have : after.length < cs.length := by
        have h₁ := @closeComment_length sawLineEnd rest after (by rw [hc])
        have h₂ := length_dropWhile_le isLayoutBlank cs
        have h₃ := congrArg List.length h
        simp only [skipBlanks, List.length_cons] at h₃
        omega
      if stopsOnLine && next after != '/' then
        ⟨if saw then .reached else .comment, true, after⟩
      else readLayout stopsOnLine saw true after
    | (none, _) => ⟨.reached, sawComment, rest.dropWhile (· != '\x00')⟩
  | '/' :: rest => ⟨.slash, sawComment, rest⟩
  | rest => ⟨.reached, sawComment, rest⟩
termination_by cs.length

theorem readLayout_length (stopsOnLine sawLineEnd sawComment : Bool) (cs : List Char) :
    (readLayout stopsOnLine sawLineEnd sawComment cs).rest.length ≤ cs.length := by
  have hblank := length_dropWhile_le isLayoutBlank cs
  fun_induction readLayout stopsOnLine sawLineEnd sawComment cs with
  | case1 saw com cs rest h this ih =>
    have := ih (length_dropWhile_le _ _)
    omega
  | case2 saw com cs rest h after saw' hc this hstop =>
    simp only
    omega
  | case3 saw com cs rest h after saw' hc this hstop ih =>
    have := ih (length_dropWhile_le _ _)
    omega
  | case4 saw com cs rest h hc =>
    have h₁ := length_dropWhile_le (· != '\x00') rest
    have h₂ := congrArg List.length h
    simp only [skipBlanks, List.length_cons] at h₂
    simp only
    omega
  | case5 saw com cs rest _ _ h =>
    have h₂ := congrArg List.length h
    simp only [skipBlanks, List.length_cons] at h₂
    simp only
    omega
  | case6 => exact hblank

/-! ## Ends of statements -/

/-- Whether a statement can end here, whether comments were passed to find out, and the text
that was reached. -/
structure Ending where
  ends : Bool
  sawComment : Bool
  rest : List Char

/-- Whether the first word or mark of a line cannot go on with what stands before it, and the
text that was reached to find out. The words that can are `in` and `instanceof`. -/
def startsStatement : List Char → Bool × List Char
  | [] => (true, [])
  | '.' :: rest => (isAsciiDigit (next rest), rest)
  | '+' :: rest => (next rest == '+', rest)
  | '-' :: rest => (next rest == '-', rest)
  | '!' :: rest => (next rest != '=', rest)
  | 'i' :: 'n' :: rest =>
    if !isLetter (next rest) then (false, rest)
    else if "stanceof".toList.isPrefixOf rest && !isLetter (next (rest.drop 8)) then
      (false, rest.drop 8)
    else (true, rest)
  | c :: rest => (!("`,:;*%><=[(?^|&/".toList.contains c), c :: rest)

/-- Whether a statement can end behind a line break. -/
def endsAtLine (sawComment : Bool) (cs : List Char) : Ending :=
  let layout := readLayout false false false cs
  let saw := sawComment || layout.sawComment
  if layout.stop == .slash then ⟨false, saw, layout.rest⟩
  else ⟨(startsStatement layout.rest).1, saw, (startsStatement layout.rest).2⟩

/-- Whether a statement can end here: before a closing brace, at the end of the text, or at the
end of a line if the next line cannot go on with it. Behind a comment a statement ends as well
where `commentEnds` says so, unless a comma or an equals sign follows; the end of the text does
not count there. -/
def endOfStatement (commentEnds sawComment : Bool) (cs : List Char) : Ending :=
  match cs with
  | [] => ⟨true, sawComment, []⟩
  | '/' :: rest =>
    let layout := readLayout true false false ('/' :: rest)
    let saw := sawComment || layout.sawComment
    if layout.stop == .slash then ⟨false, saw, layout.rest⟩
    else if layout.stop == .reached && commentEnds
        && next layout.rest != ',' && next layout.rest != '=' then ⟨true, saw, layout.rest⟩
    else
      match h : layout.rest with
      | [] => ⟨false, saw, []⟩
      | c :: after =>
        have : after.length < rest.length + 1 := by
          have h₁ := readLayout_length true false false ('/' :: rest)
          have h₂ := congrArg List.length h
          simp only [layout, List.length_cons] at h₁ h₂
          omega
        if c == '\x7d' then ⟨true, saw, c :: after⟩
        else if endsLine c then endsAtLine saw after
        else if isLayoutBlank c then endOfStatement commentEnds saw after
        else ⟨false, saw, c :: after⟩
  | c :: rest =>
    if c == '\x00' || c == '\x7d' then ⟨true, sawComment, c :: rest⟩
    else if endsLine c then endsAtLine sawComment rest
    else if isLayoutBlank c then endOfStatement commentEnds sawComment rest
    else ⟨false, sawComment, c :: rest⟩
termination_by cs.length

/-! ## Question marks, templates and markup -/

/-- What follows the question mark of a conditional expression, if one comes next. Two question
marks are another operator, and so is one with a point, unless a digit follows. -/
def conditionalMark? (cs : List Char) : Option (List Char) :=
  match skipBlanks cs with
  | '?' :: '?' :: _ => none
  | '?' :: '.' :: rest => if isAsciiDigit (next rest) then some ('.' :: rest) else none
  | '?' :: rest => some rest
  | _ => none

/-- The length of the plain text of a template up to an escape, a substitution or its end. -/
def templateTextLength? : List Char → Option Nat
  | [] => none
  | '$' :: '\x7b' :: _ => some 0
  | c :: rest =>
    if c == '\x00' then none
    else if c == '`' || c == '\\' then some 0
    else (templateTextLength? rest).map (· + 1)

/-- Whether text of markup holds anything but the blanks around line breaks. -/
def hasMarkupText (behindLineEnd : Bool) : List Char → Bool
  | [] => false
  | c :: rest =>
    if c == '\n' then hasMarkupText true rest
    else !(behindLineEnd && isLayoutBlank c) || hasMarkupText behindLineEnd rest

/-- The text of markup up to a tag, an expression or a reference. -/
def markupRun (cs : List Char) : List Char :=
  cs.takeWhile fun c => !("\x00<>\x7b\x7d&".toList.contains c)

/-- The length of a comment in the notation of markup, up to the end of its line. -/
def markupCommentLength (cs : List Char) : Nat :=
  let toLineEnd := run fun c => !endsLine c && c != '\x00'
  match cs with
  | '<' :: '!' :: '-' :: '-' :: rest => 4 + toLineEnd rest
  | '-' :: '-' :: '>' :: rest => 3 + toLineEnd rest
  | _ => 0

end StyleSieve.Script
