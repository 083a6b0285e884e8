import StyleSieve.Proofs.Selector.Lists
import StyleSieve.Proofs.Selector.Scan
import StyleSieve.Proofs.Selector.TakenApart

/-!
# The attribute terms of a selector list

What the grammar admits is gathered unless an attribute selector in it cannot be taken apart. The
attribute terms of the result are then those of its attribute selectors, in the order of the text.

* `Token.gather_closed`: tokens of a selector list are gathered, or one of them is malformed.
* `Lists.attributes`: the attribute terms of a selector list.
* `attributes_parse_iff`: exactly when every attribute term says what was read.
-/

namespace StyleSieve

namespace Term

mutual

/-- The attribute terms in a term, those in its arguments included. -/
def attributes : Term → List Term
  | .attribute name condition => [.attribute name condition]
  | .nested _ _ arguments => attributesAll arguments
  | _ => []

/-- The attribute terms of a complex selector. -/
def attributesOf : List Term → List Term
  | [] => []
  | t :: ts => t.attributes ++ attributesOf ts

/-- The attribute terms of a selector list. -/
def attributesAll : List (List Term) → List Term
  | [] => []
  | ts :: more => attributesOf ts ++ attributesAll more

end

end Term

namespace Selector

variable {α : Type} {token : α → Token} {xs : List α} {ts terms : List Term}
  {more done result : List ComplexSelector} {stack : List Waiting} {tokens : List Token} {first : Token}
  {t : Term} {text : List Char} {s : String}

namespace Token

/-- The text of an attribute selector. -/
def bracketed? : Token → Option (List Char)
  | .attribute text => some text
  | _ => none

/-- Whether tokens are those of a selector list in which `depth` parentheses are open: the text is read to
its end, and every parenthesis is closed. What an attribute selector stands for does not matter. -/
def closed (depth : Nat) : List Token → Bool
  | [] => depth == 0
  | .stray _ :: _ => false
  | .opening .. :: rest => closed (depth + 1) rest
  | .closing :: rest => depth != 0 && closed (depth - 1) rest
  | _ :: rest => closed depth rest

theorem isRecognised_of_closed {depth : Nat} (h : closed depth tokens = true) : isRecognised tokens = true := by
  unfold isRecognised
  split
  · cases h
  · rfl

/-- The tokens of a selector list are gathered, unless one of its attribute selectors is malformed. -/
theorem gather_closed (h : closed stack.length tokens = true) :
    (∃ result, gather stack done terms tokens = .ok result) ∨
      ∃ text ∈ tokens.filterMap bracketed?, attributeTerm? text = none ∧
        gather stack done terms tokens = .error (.malformedAttribute text) := by
  induction tokens generalizing stack done terms with
  | nil =>
    have hEmpty : stack = [] := List.length_eq_zero_iff.mp (beq_iff_eq.mp h)
    subst hEmpty
    exact Or.inl ⟨_, rfl⟩
  | cons first rest ih =>
    match first, h with
    | .attribute text, h =>
      have hRest : isRecognised rest = true := isRecognised_of_closed h
      rw [gather, if_pos hRest]
      cases hTerm : attributeTerm? text with
      | none => exact Or.inr ⟨text, List.mem_cons_self, hTerm, rfl⟩
      | some t =>
        refine (ih h).imp_right ?_
        rintro ⟨text', hMem, hMalformed⟩
        exact ⟨text', List.mem_cons_of_mem text hMem, hMalformed⟩
    | .tag _, h => exact ih h
    | .universal, h => exact ih h
    | .hasClass _, h => exact ih h
    | .hasId _, h => exact ih h
    | .pseudo _ _, h => exact ih h
    | .function _ _ _, h => exact ih h
    | .combinator, h => exact ih h
    | .comma, h => exact ih h
    | .opening _ _, h => exact ih h
    | .closing, h =>
      obtain ⟨hOpen, hRest⟩ : (stack.length != 0) = true ∧ closed (stack.length - 1) rest = true := by
        simpa [closed] using h
      cases stack with
      | nil => cases hOpen
      | cons top stack => exact ih hRest

/-- What is gathered are the tokens of a selector list. -/
theorem closed_of_gather (h : gather stack done terms tokens = .ok result) : closed stack.length tokens = true := by
  induction tokens generalizing stack done terms with
  | nil =>
    cases stack with
    | nil => rfl
    | cons top stack => cases h
  | cons first rest ih =>
    rcases gather_cons_cases h with ⟨t, hTerm, hRest⟩ | ⟨rfl, hRest⟩ | ⟨rfl, hRest⟩ |
      ⟨kind, opening, rfl, hRest⟩ | ⟨top, outer, rfl, rfl, hRest⟩
    · cases first with
      | stray => cases hTerm
      | opening => cases hTerm
      | closing => cases hTerm
      | _ => exact ih hRest
    · exact ih hRest
    · exact ih hRest
    · exact ih hRest
    · simpa [closed] using ih hRest

end Token

theorem attributes_of_attributeTerm? (h : attributeTerm? text = some t) : t.attributes = [t] := by
  rw [attributeTerm?_eq, Option.or_eq_some_iff] at h
  have hNamed : ∀ cs, namedTerm? cs = some t → t.attributes = [t] := by
    intro cs hTerm
    obtain ⟨name, rest, found, -, -, -, -, rfl⟩ := exists_of_namedTerm? hTerm
    rfl
  rcases h with h | ⟨-, h⟩
  · obtain ⟨cs, -, h⟩ := Option.bind_eq_some_iff.mp h
    exact hNamed cs h
  · exact hNamed _ h

theorem Token.attributes_of_term? (h : first.term? = some t) :
    t.attributes.map some = (first.bracketed?.toList).map attributeTerm? := by
  match first, h with
  | .attribute text, h =>
    change attributeTerm? text = some t at h
    rw [attributes_of_attributeTerm? h]
    change [some t] = [attributeTerm? text]
    rw [h]
  | .tag _, h => cases h; rfl
  | .universal, h => cases h; rfl
  | .hasClass _, h => cases h; rfl
  | .hasId _, h => cases h; rfl
  | .pseudo _ _, h => cases h; rfl
  | .function _ _ _, h => cases h; rfl

/-- The attribute terms of a selector list are those of its attribute selectors, in order. -/
theorem Lists.attributes (h : Lists token xs ts more) :
    (Term.attributesOf ts ++ Term.attributesAll more).map some =
      ((xs.map token).filterMap Token.bracketed?).map attributeTerm? := by
  induction h with
  | nil => rfl
  | @simple x xs t ts more hTerm h ih =>
    have hFirst := Token.attributes_of_term? hTerm
    rw [Term.attributesOf, List.append_assoc, List.map_append, ih, hFirst, List.map_cons, ← List.map_append]
    congr 1
    cases hKind : (token x).bracketed? with
    | none => rw [List.filterMap_cons_none hKind]; rfl
    | some text => rw [List.filterMap_cons_some hKind]; rfl
  | @joint x xs ts more hToken h ih =>
    rw [ih, List.map_cons, hToken]
    rfl
  | @comma x xs ts more hToken h ih =>
    rw [List.map_cons, hToken]
    exact ih
  | @nested x y inner xs kind opening ts ts' more more' hOpening hClosing hInner h ihInner ih =>
    have hTokens : ((x :: (inner ++ y :: xs)).map token).filterMap Token.bracketed? =
        (inner.map token).filterMap Token.bracketed? ++ (xs.map token).filterMap Token.bracketed? := by
      rw [List.map_cons, List.map_append, List.map_cons, hOpening, hClosing, List.filterMap_cons_none rfl,
        List.filterMap_append, List.filterMap_cons_none rfl]
    rw [hTokens, Term.attributesOf, Term.attributes, Term.attributesAll, List.append_assoc, List.map_append,
      ihInner, ih, List.map_append]

/-! ## What was read -/

/-- The attribute selectors of a text, by the parts that are read in them. -/
structure ReadsAttributes (s : String) (brackets : List Bracketed) : Prop where
  texts : (Token.scan true s.toList).filterMap Token.bracketed? = brackets.map fun parts => '[' :: parts.text
  read : ∀ parts ∈ brackets, parts.IsRead

/-- Every attribute selector is read by its parts. -/
theorem exists_bracketed_of_mem {cs : List Char} {atStart : Bool}
    (h : text ∈ (Token.scan atStart cs).filterMap Token.bracketed?) :
    ∃ parts : Bracketed, text = '[' :: parts.text ∧ parts.IsRead := by
  obtain ⟨token, hMem, hText⟩ := List.mem_filterMap.mp h
  have hToken : token = .attribute text := by
    cases token with
    | «attribute» text' => exact congrArg Token.attribute (Option.some.inj hText)
    | _ => cases hText
  subst hToken
  obtain ⟨b, text', rest, hTakes⟩ := Token.exists_takes_of_mem hMem (by simp)
  cases hTakes with
  | bracketed hRead =>
    obtain ⟨parts, hParts, hSame⟩ := exists_bracketed hRead
    exact ⟨parts, congrArg ('[' :: ·) (List.append_cancel_right hSame), hParts⟩
  | ofElement hPseudo => cases hPseudo
  | ofClass hColon hPseudo => cases hPseudo

theorem exists_readsAttributes (s : String) : ∃ brackets, ReadsAttributes s brackets := by
  have hAll : ∀ texts : List (List Char),
      (∀ text ∈ texts, ∃ parts : Bracketed, text = '[' :: parts.text ∧ parts.IsRead) →
      ∃ brackets : List Bracketed, texts = brackets.map (fun parts => '[' :: parts.text) ∧
        ∀ parts ∈ brackets, parts.IsRead := by
    intro texts hTexts
    induction texts with
    | nil => exact ⟨[], rfl, nofun⟩
    | cons text texts ih =>
      obtain ⟨hHead, hTail⟩ := List.forall_mem_cons.mp hTexts
      obtain ⟨parts, rfl, hRead⟩ := hHead
      obtain ⟨brackets, rfl, hBrackets⟩ := ih hTail
      exact ⟨parts :: brackets, rfl, List.forall_mem_cons.mpr ⟨hRead, hBrackets⟩⟩
  obtain ⟨brackets, hTexts, hRead⟩ := hAll _ fun text hMem => exists_bracketed_of_mem hMem
  exact ⟨brackets, hTexts, hRead⟩

/-- The text is a selector list of the grammar. -/
def IsGrammatical (s : String) : Prop := Token.closed 0 (Token.scan true s.toList) = true

theorem IsGrammatical.isEmpty (h : IsGrammatical s) : s.isEmpty = false := by
  refine Bool.eq_false_iff.mpr fun hEmpty => ?_
  have hNone : s.toList = [] := by simpa using hEmpty
  rw [IsGrammatical, hNone, Token.scan] at h
  cases h

/-- What can be parsed is a selector list of the grammar. -/
theorem isGrammatical_of_parse {selectors : List ComplexSelector} (h : parse s = .ok selectors) :
    IsGrammatical s := by
  unfold parse at h
  split at h
  · cases h
  · exact Token.closed_of_gather h

theorem IsGrammatical.parse_eq (h : IsGrammatical s) :
    parse s = gather [] [] [] (Token.scan true s.toList) := by
  rw [parse, h.isEmpty, if_neg Bool.false_ne_true]

/-- A selector list of the grammar is parsed, unless one of its attribute selectors is malformed. -/
theorem IsGrammatical.parse_cases (h : IsGrammatical s) :
    (∃ selectors, parse s = .ok selectors) ∨
      ∃ text ∈ (Token.scan true s.toList).filterMap Token.bracketed?, attributeTerm? text = none ∧
        parse s = .error (.malformedAttribute text) := by
  rw [h.parse_eq]
  exact Token.gather_closed h

theorem attributes_of_parse {selectors : List ComplexSelector} (h : parse s = .ok selectors) :
    (Term.attributesAll selectors).map some =
      ((Token.scan true s.toList).filterMap Token.bracketed?).map attributeTerm? := by
  rw [(isGrammatical_of_parse h).parse_eq, ← List.map_id (Token.scan true s.toList)] at h
  obtain ⟨ts, more, rfl, hLists⟩ := lists_of_gather h
  have hAttributes := hLists.attributes
  rw [List.map_id] at hAttributes
  exact hAttributes

/-- A selector list of the grammar is parsed, and its attribute terms say what was read in its attribute
selectors, exactly if each of these is taken apart into what was read. No other error than that of a
malformed attribute selector is raised. -/
theorem attributes_parse_iff (h : IsGrammatical s) :
    (∃ brackets, ReadsAttributes s brackets) ∧
      ∀ brackets, ReadsAttributes s brackets →
        ((∃ selectors, parse s = .ok selectors ∧
            Term.attributesAll selectors = brackets.map Bracketed.term) ↔
          ∀ parts ∈ brackets, parts.IsTakenApart) ∧
        ∀ error, parse s = .error error →
          ∃ parts ∈ brackets, error = .malformedAttribute ('[' :: parts.text) := by
  refine ⟨exists_readsAttributes s, fun brackets hBrackets => ⟨⟨?_, ?_⟩, ?_⟩⟩
  · rintro ⟨selectors, hParse, hTerms⟩ parts hParts
    have hAttributes := attributes_of_parse hParse
    rw [hTerms, hBrackets.texts, List.map_map, List.map_map] at hAttributes
    have hTerm := List.map_inj_left.mp hAttributes parts hParts
    exact (hBrackets.read parts hParts).attributeTerm?_iff.mp hTerm.symm
  · intro hApart
    have hTerm : ∀ parts ∈ brackets, attributeTerm? ('[' :: parts.text) = some parts.term :=
      fun parts hParts => (hBrackets.read parts hParts).attributeTerm?_iff.mpr (hApart parts hParts)
    rcases h.parse_cases with ⟨selectors, hParse⟩ | ⟨text, hMem, hNone, -⟩
    · refine ⟨selectors, hParse, ?_⟩
      have hAttributes := attributes_of_parse hParse
      rw [hBrackets.texts, List.map_map] at hAttributes
      refine (List.map_inj_right fun _ _ => Option.some.inj).mp ?_
      rw [hAttributes, List.map_map]
      exact List.map_congr_left hTerm
    · rw [hBrackets.texts] at hMem
      obtain ⟨parts, hParts, rfl⟩ := List.mem_map.mp hMem
      rw [hTerm parts hParts] at hNone
      cases hNone
  · intro error hError
    rcases h.parse_cases with ⟨selectors, hParse⟩ | ⟨text, hMem, -, hMalformed⟩
    · rw [hParse] at hError
      cases hError
    · rw [hMalformed] at hError
      cases hError
      rw [hBrackets.texts] at hMem
      obtain ⟨parts, hParts, rfl⟩ := List.mem_map.mp hMem
      exact ⟨parts, hParts, rfl⟩

/-- An attribute that is to equal a name. -/
def Bracketed.equals (name value gap flag : List Char) : Bracketed :=
  ⟨[], .none, name, [], some ⟨['='], [], .name value, gap, flag⟩⟩

theorem Bracketed.isRead_equals {name value gap flag : List Char} (hGap : IsGap gap) (hFlag : IsFlag flag)
    (hName : readName (name ++ ['=']) = some (name, ['=']))
    (hValue : readName (value ++ (gap ++ (flag ++ [']']))) = some (value, gap ++ (flag ++ [']']))) :
    (Bracketed.equals name value gap flag).IsRead := by
  refine ⟨isGap_nil, trivial, fun more => readName_behind hName (by decide) _, isGap_nil, ?_⟩
  rintro comparison ⟨⟩
  refine ⟨Or.inl rfl, isGap_nil, fun more => ?_, hGap, hFlag⟩
  obtain ⟨c, hStop, y, hBehind⟩ := exists_behindValue hGap hFlag hValue
  have hSlash : c ≠ '\\' := by
    rintro rfl
    cases hStop
  have hText : gap ++ flag ++ [']'] = c :: y := by rw [← hBehind, List.append_assoc]
  change readName (value ++ ((gap ++ flag ++ [']']) ++ more)) = some (value, (gap ++ flag ++ [']']) ++ more)
  rw [hBehind] at hValue
  rw [hText]
  exact readName_behind hValue hSlash _

/-- An escaped sign is told from the operator, and the flag from the value. -/
theorem attributes_parse_escaped :
    ∃ selectors, parse "[a\\=b=c i]" = .ok selectors ∧
      Term.attributesAll selectors = [.attribute "a=b" (some (.equals, "c"))] := by
  have hGrammatical : IsGrammatical "[a\\=b=c i]" := by
    unfold IsGrammatical
    decide +kernel
  have hRead : (Bracketed.equals "a\\=b".toList ['c'] [' '] ['i']).IsRead :=
    Bracketed.isRead_equals isGap_space (Or.inr ⟨'i', by decide, [], isGap_nil, rfl⟩) (by decide) (by decide)
  have hApart : (Bracketed.equals "a\\=b".toList ['c'] [' '] ['i']).IsTakenApart := by
    refine ⟨fun x y hName => ?_, ⟨"a\\=b".toList, .refl _, ?_⟩, ?_⟩
    · have hBar : '|' ∈ "a\\=b".toList := by
        change "a\\=b".toList = x ++ '|' :: y at hName
        simp [hName]
      exact absurd hBar (by decide)
    · exact .plain (by decide) (by decide) (.escape '=' (.plain (by decide) (by decide) .nil))
    · rintro comparison ⟨⟩
      exact ⟨['c'], .refl _, by decide⟩
  obtain ⟨selectors, hParse, hTerms⟩ :=
    ((attributes_parse_iff hGrammatical).2 [.equals "a\\=b".toList ['c'] [' '] ['i']]
      ⟨by decide +kernel, List.forall_mem_singleton.mpr hRead⟩).1.mpr (List.forall_mem_singleton.mpr hApart)
  refine ⟨selectors, hParse, hTerms.trans ?_⟩
  decide +kernel

/-- What follows the spacing of an escape in a value belongs to the value, but the attribute selector is
not taken apart so. -/
theorem not_attributes_parse :
    IsGrammatical "[a=\\31 0]" ∧
      ReadsAttributes "[a=\\31 0]" [.equals ['a'] "\\31 0".toList [] []] ∧
      (Bracketed.equals ['a'] "\\31 0".toList [] []).term = .attribute "a" (some (.equals, "10")) ∧
      parse "[a=\\31 0]" = .error (.malformedAttribute "[a=\\31 0]".toList) := by
  have hRead : (Bracketed.equals ['a'] "\\31 0".toList [] []).IsRead :=
    Bracketed.isRead_equals isGap_nil (Or.inl rfl) (by decide) (by decide)
  refine ⟨?_, ⟨by decide +kernel, List.forall_mem_singleton.mpr hRead⟩, by decide +kernel, by decide +kernel⟩
  unfold IsGrammatical
  decide +kernel

end Selector

end StyleSieve
