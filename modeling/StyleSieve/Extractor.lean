import StyleSieve.Text.Blank

/-!
# Extractors

An extractor turns text of any kind into the tokens that may be selectors. Every function from texts
to tokens can be one. The default one overgenerates: it takes whole attribute values
(`md:hover:bg-red-500`) and also the pieces that stand between punctuation (`foo` in `[foo]`).
-/

namespace StyleSieve

open Text

/-- Reads a longest token at the start of `cs`: a run of characters that satisfy `inside`, cut
back to the last of them that satisfies `last`. Gives the token and what follows it. -/
def tokenAt? (inside last : Char → Bool) : List Char → Option (List Char × List Char)
  | [] => none
  | c :: rest =>
    if inside c then
      match tokenAt? inside last rest with
      | some (token, after) => some (c :: token, after)
      | none => if last c then some ([c], rest) else none
    else if last c then some ([c], rest)
    else none

theorem tokenAt?_length {inside last : Char → Bool} {cs token after : List Char}
    (h : tokenAt? inside last cs = some (token, after)) : after.length < cs.length := by
  induction cs generalizing token after with
  | nil => simp [tokenAt?] at h
  | cons c rest ih =>
    unfold tokenAt? at h
    split at h
    · split at h
      · next hr =>
        simp only [Option.some.injEq, Prod.mk.injEq] at h
        have := ih hr
        simp only [List.length_cons, ← h.2]
        omega
      · split at h
        · simp only [Option.some.injEq, Prod.mk.injEq] at h
          simp [← h.2]
        · simp at h
    · split at h
      · simp only [Option.some.injEq, Prod.mk.injEq] at h
        simp [← h.2]
      · simp at h

/-- All tokens of a text, from left to right; the search goes on behind each of them. -/
def tokens (inside last : Char → Bool) (cs : List Char) : List (List Char) :=
  match cs with
  | [] => []
  | c :: rest =>
    match h : tokenAt? inside last (c :: rest) with
    | some (token, after) =>
      have : after.length < rest.length + 1 := tokenAt?_length h
      token :: tokens inside last after
    | none => tokens inside last rest
termination_by cs.length

/-- Characters that end a whole attribute value: angle brackets, quotes and blanks. -/
def isValueBreak (c : Char) : Bool :=
  c == '<' || c == '>' || c == '"' || c == '\'' || c == '\x60' || isBlank c

/-- Characters that end a piece of a value: those that end a value, and brackets, dots and
the signs `#`, `=` and `%`. -/
def isPieceBreak (c : Char) : Bool :=
  isValueBreak c || c == '.' || c == '(' || c == ')' || c == '{' || c == '}' || c == '[' ||
    c == ']' || c == '#' || c == '=' || c == '%'

/-- The tokens between breaks, none of which ends in a colon. -/
def tokensBetween (isBreak : Char → Bool) (cs : List Char) : List (List Char) :=
  tokens (fun c => !isBreak c) (fun c => !isBreak c && c != ':') cs

/-- Keeps the first of equal elements. -/
def dedupFrom {α : Type} [BEq α] (seen : List α) : List α → List α
  | [] => []
  | x :: rest => if seen.contains x then dedupFrom seen rest else x :: dedupFrom (x :: seen) rest

/-- Keeps the first of equal elements, in order. -/
def dedup {α : Type} [BEq α] (xs : List α) : List α := dedupFrom [] xs

/-- The tokens of the default extractor: whole values first, then pieces, each token once. -/
def defaultTokens (text : String) : List String :=
  let cs := text.toList
  dedup ((tokensBetween isValueBreak cs ++ tokensBetween isPieceBreak cs).map String.ofList)

/-- What finds the tokens of a text. -/
abbrev Extractor := String → List String

end StyleSieve
