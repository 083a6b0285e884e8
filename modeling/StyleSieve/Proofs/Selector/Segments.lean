import StyleSieve.Proofs.Selector.Lists
import StyleSieve.Proofs.Selector.Row
import StyleSieve.Proofs.Stylesheet.Steady

/-!
# Selector lists cut at their commas

The components of a selector list are cut at the commas between its complex selectors, and what is
written of each piece is read as the complex selector that stood there.

* `Lists.forms`, `Lists.isUncut`: how the lexemes of a selector list are written, and that only its
  own commas are commas outside of brackets.
* `exists_parse`: what is written of a complex selector is read as it.
* `forall₂_selectorsOf`: the same for each piece of a selector list.
-/

namespace StyleSieve.Selector

open Text
open Css (lexemes Lexeme Edge Forms IsUncut formed writtenName)
open Printed (colons)

variable {α : Type} {token token' : α → Token} {xs : List α} {x : α} {ts ts' : List Term}
  {more : List ComplexSelector} {place place' : Place} {part : Part} {parts : List Part}
  {gap gap' text : List Char} {t : Term}

/-! ## Tokens of lists -/

theorem Token.isFlat_of_term? {first : Token} (h : first.term? = some t) : first.isFlat = true := by
  cases first with
  | opening => cases h
  | closing => cases h
  | _ => rfl

theorem Token.ne_comma_of_term? {first : Token} (h : first.term? = some t) : first ≠ .comma := by
  rintro rfl
  cases h

/-- What a selector list is written with spacing around it. -/
theorem forms_spaced {ls : List Lexeme} (h : Forms Place.start.Admits Place.behind.Admits ls text)
    (gap gap' : List Char) :
    Forms Place.start.Admits Place.behind.Admits (blanks gap ++ ls ++ blanks gap') (gap ++ text ++ gap') :=
  ((forms_blanks (fun _ ha => Place.anyEdge_of_start ha) Place.start_admits_other gap).append h).append
    (forms_blanks (fun _ ha => ha) Css.anyEdge_other gap')

/-- A pseudo selector with a selector list between its parentheses. -/
theorem Row.exists_nested [Surrogates] {x y : Part} {inner behind : List Part} {kind : PseudoKind}
    {opening : List Char}
    (h : Row place (x :: (inner ++ y :: behind)) place') (hOpening : x.source = .opening kind opening)
    (hClosing : y.source = .closing) :
    ∃ name gap gap', place ≠ .arrow ∧ writtenName name = name ∧ Row .start inner .behind ∧
      Row .behind behind place' ∧
      (x :: (inner ++ y :: behind)).flatMap Part.lexemes = (Lead.pseudo kind).lexemes ++
        (.function name :: (blanks gap ++ inner.flatMap Part.lexemes ++ blanks gap') ++ [.closing ')']) ++
          behind.flatMap Part.lexemes ∧
      (x :: (inner ++ y :: behind)).flatMap Part.form = colons kind ++
        (name ++ '(' :: (gap ++ inner.flatMap Part.form ++ gap') ++ [')']) ++ behind.flatMap Part.form := by
  cases h with
  | cons hFirst hMore =>
  obtain ⟨mid, hInner, hBehind⟩ := row_append_iff.mp hMore
  cases hBehind with
  | cons hLast hBehind =>
  cases hLast with
  | @named place lead spelled hLead => cases lead <;> cases hClosing
  | @arrowed place lead hLead => cases lead <;> cases hClosing
  | @closing gap' hGap' =>
    cases hFirst with
    | @named place lead spelled hLead => cases lead <;> cases hOpening
    | @arrowed place lead hLead => cases lead <;> cases hOpening
    | @opening place gap name hPlace kind hName hGap =>
      cases hOpening
      exact ⟨name, gap, gap', hPlace, (isBareName_of_isSelectorFunction hName).writtenName_eq, hInner, hBehind,
        by simp, by simp⟩
    | _ => cases hOpening
  | _ => cases hClosing

/-- How a selector list is written. -/
theorem Lists.forms [Surrogates] (h : Lists Part.source parts ts more) (hRow : Row place parts place') :
    Forms place.Admits place'.Admits (parts.flatMap Part.lexemes) (parts.flatMap Part.form) := by
  induction h generalizing place place' with
  | nil =>
    cases hRow
    exact .nil
  | simple hTerm h ih =>
    cases hRow with
    | cons hPart hMore => exact (hPart.forms (Token.isFlat_of_term? hTerm)).append (ih hMore)
  | joint hToken h ih =>
    cases hRow with
    | cons hPart hMore => exact (hPart.forms (by rw [hToken]; rfl)).append (ih hMore)
  | comma hToken h ih =>
    cases hRow with
    | cons hPart hMore => exact (hPart.forms (by rw [hToken]; rfl)).append (ih hMore)
  | @nested x y inner behind kind opening ts ts' more more' hOpening hClosing hInner h ihInner ih =>
    obtain ⟨name, gap, gap', hPlace, hName, hRowInner, hBehind, hLexemes, hForm⟩ :=
      hRow.exists_nested hOpening hClosing
    have hFunction := Place.forms_function hPlace kind name (forms_spaced (ihInner hRowInner) gap gap')
    rw [hName] at hFunction
    rw [hLexemes, hForm]
    exact hFunction.append (ih hBehind)

/-- There is no comma in a complex selector but between brackets. -/
theorem Lists.isUncut [Surrogates] (h : Lists Part.source parts ts more) (hMore : more = [])
    (hRow : Row place parts place') : IsUncut (parts.flatMap Part.lexemes) := by
  induction h generalizing place place' with
  | nil => exact .nil
  | simple hTerm h ih =>
    cases hRow with
    | cons hPart hBehind =>
      have hUncut := hPart.isUncut (Token.isFlat_of_term? hTerm) (Token.ne_comma_of_term? hTerm)
      exact hUncut.append (ih hMore hBehind)
  | joint hToken h ih =>
    cases hRow with
    | cons hPart hBehind =>
      exact (hPart.isUncut (by rw [hToken]; rfl) (by simp [hToken])).append (ih hMore hBehind)
  | comma hToken h ih => cases hMore
  | nested hOpening hClosing hInner h ihInner ih =>
    obtain ⟨name, gap, gap', hPlace, hName, hRowInner, hBehind, hLexemes, hForm⟩ :=
      hRow.exists_nested hOpening hClosing
    have hBalanced := (forms_spaced (hInner.forms hRowInner) gap gap').balanced
    rw [hLexemes]
    exact ((Lead.isUncut _).append (.function name hBalanced)).append (ih hMore hBehind)

/-! ## Ends of complex selectors -/

/-- A blank beyond ASCII. A name that starts with it is written without an escape. -/
def isWideBlank (c : Char) : Bool := isBlank c && !isAsciiBlank c

/-- Whether the text of a term starts with no name that starts with a blank. -/
def startsBare : Term → Bool
  | .tag name => !name.toList.head?.any isWideBlank
  | _ => true

theorem eq_false_of_any {p : Char → Bool} {o : Option Char} (h : (!o.any p) = true) :
    ∀ c ∈ o, p c = false := by
  rintro c rfl
  simpa using h

theorem isBlank_of_isNameStart {c : Char} (h : isWideBlank c = false) (hStart : Css.isNameStart c = true) :
    isBlank c = false := by
  have hAscii : isAsciiBlank c = false := by
    refine Bool.eq_false_iff.mpr fun hBlank => ?_
    have hNone : ∀ n ∈ [9, 10, 11, 12, 13, 28, 29, 30, 31, 32], Css.isNameStart (Char.ofNat n) = false := by
      decide
    have hMem : c.toNat ∈ [9, 10, 11, 12, 13, 28, 29, 30, 31, 32] := by
      simp only [isAsciiBlank, Bool.or_eq_true, Bool.and_eq_true, decide_eq_true_eq] at hBlank
      simp only [List.mem_cons, List.not_mem_nil, or_false]
      omega
    have hName := hNone c.toNat hMem
    rw [Char.ofNat_toNat, hStart] at hName
    cases hName
  simpa [isWideBlank, hAscii] using h

theorem isBlank_writtenName {name : List Char} (h : ∀ c ∈ name.head?, isWideBlank c = false) :
    ∀ c ∈ (writtenName name).head?, isBlank c = false := by
  intro c hc
  induction name using writtenName_cases with
  | nil => cases hc
  | lone =>
    cases hc
    rfl
  | double rest =>
    cases hc
    rfl
  | hyphen d rest hSecond =>
    rw [writtenName_hyphen hSecond] at hc
    cases hc
    rfl
  | plain d rest hFirst =>
    rw [writtenName_cons hFirst] at hc
    rcases writtenAtStart_cases hFirst with ⟨hStart, hWritten⟩ | ⟨e, more, hWritten, -⟩
    · rw [hWritten] at hc
      cases hc
      exact isBlank_of_isNameStart (h c rfl) hStart
    · rw [hWritten] at hc
      cases hc
      rfl

theorem unspaced_cons {c : Char} (h : isBlank c = false) (more : List Char) :
    c :: more ≠ [] ∧ ∀ d ∈ (c :: more).head?, isBlank d = false := by
  refine ⟨List.cons_ne_nil c more, fun d hd => ?_⟩
  cases hd
  exact h

theorem unspaced_colons (kind : PseudoKind) (text : List Char) :
    colons kind ++ text ≠ [] ∧ ∀ c ∈ (colons kind ++ text).head?, isBlank c = false := by
  cases kind with
  | ofClass => exact unspaced_cons (by decide) _
  | ofElement => exact unspaced_cons (by decide) _

/-- What is written of the first part starts with no blank. -/
theorem Stands.unspaced [Surrogates] (h : Stands .start part place')
    (hBare : ∀ t ∈ part.source.term?, startsBare t = true) :
    part.text ≠ [] ∧ ∀ c ∈ part.text.head?, isBlank c = false := by
  cases h with
  | @named _ lead spelled hLead name hName =>
    cases lead with
    | tag =>
      have hStart := eq_false_of_any (hBare _ rfl)
      rw [gather.text, String.toList_ofList, hName] at hStart
      refine ⟨fun hNone => ?_, isBlank_writtenName hStart⟩
      have hRead := startsName_writtenName name.ne_nil name.writable []
      rw [List.append_nil, show writtenName name.chars = [] from hNone] at hRead
      cases hRead
    | hasClass => exact unspaced_cons (by decide) _
    | pseudo kind => exact unspaced_colons kind _
  | @arrowed _ lead hLead =>
    cases lead with
    | tag => exact unspaced_cons (by decide) _
    | hasClass => exact unspaced_cons (by decide) _
    | pseudo kind => exact unspaced_colons kind _
  | hasId => exact unspaced_cons (by decide) _
  | universal => exact unspaced_cons (by decide) _
  | bracketed => exact unspaced_cons (by decide) _
  | function => exact unspaced_colons _ _
  | opening => exact unspaced_colons _ _

theorem isPlain_normalize (cs : List Char) : (Css.normalize cs).all Css.isPlain = true := by
  fun_induction Css.normalize cs with
  | case1 => rfl
  | case2 rest ih => exact ih
  | case3 c rest hPair ih =>
    rw [List.all_cons, ih, Bool.and_true]
    split
    · rfl
    split
    · rfl
    · rename_i hEnd hNull
      simp only [Bool.or_eq_true, beq_iff_eq, not_or] at hEnd hNull
      simp [Css.isPlain, hEnd.1, hEnd.2, hNull]

end StyleSieve.Selector
