import Mathlib.Control.Monad.Basic
import StyleSieve.Proofs.Usage.Verdict
import StyleSieve.Selector.Lexeme

/-!
# Selectors that can match a document

A document is a row of elements. `Term.CanMatch` says what it means for a simple selector to
find something there, by the rules of style sheets and not by tokens: an attribute condition
compares with the value of an attribute, and a term with alternatives matches if one of them
does.

* `usesTerm_of_canMatch`: a term that can match a document is in use as soon as the tokens
  hold every name and value of the document.
* `keeps_of_canMatch`: then no selector that can match the document is removed, whatever the
  safelist says.
-/

namespace StyleSieve

open Text

/-- An element of a document. Attributes are names with values. -/
structure Element where
  tag : String
  classes : List String
  id : Option String
  attributes : List (String × String)
  deriving DecidableEq

/-- The words of an attribute value, which stand between spacing. -/
def valueWords (value : String) : List String :=
  (runs (fun c => !Selector.isSpacing c) value.toList).map String.ofList

/-- The names in an element, and the values of its attributes with their words. -/
def Element.names (e : Element) : List String :=
  e.tag :: e.classes ++ e.id.toList ++ e.attributes.flatMap fun a => a.1 :: a.2 :: valueWords a.2

namespace AttributeOperator

/-- The relation between a value that is asked for and the value of an attribute. An empty text
is no beginning, end or piece of a value. -/
def Relates : AttributeOperator → (wanted value : String) → Prop
  | .equals, wanted, value => value = wanted
  | .includes, wanted, value => wanted ∈ valueWords value
  | .dashMatch, wanted, value => value = wanted ∨ wanted.toList ++ ['-'] <+: value.toList
  | .beginsWith, wanted, value => wanted ≠ "" ∧ wanted.toList <+: value.toList
  | .endsWith, wanted, value => wanted ≠ "" ∧ wanted.toList <:+ value.toList
  | .contains, wanted, value => wanted ≠ "" ∧ wanted.toList <:+: value.toList

end AttributeOperator

/-- A simple selector that a document can be asked for finds something in it. -/
inductive Term.CanMatch (document : List Element) : Term → Prop
  | universal : CanMatch document .universal
  | tag {name : String} {e : Element} (he : e ∈ document) (h : lower name = e.tag) :
      CanMatch document (.tag name)
  | hasClass {name : String} {e : Element} (he : e ∈ document) (h : name ∈ e.classes) :
      CanMatch document (.hasClass name)
  | hasId {name : String} {e : Element} (he : e ∈ document) (h : e.id = some name) :
      CanMatch document (.hasId name)
  | dynamic {name : String} {condition : Option (AttributeOperator × String)}
      (h : lower name ∈ Usage.dynamicAttributes) : CanMatch document (.attribute name condition)
  | related {name value : String} {condition : Option (AttributeOperator × String)}
      {e : Element} (he : e ∈ document) (ha : (name, value) ∈ e.attributes)
      (h : ∀ op wanted, condition = some (op, wanted) → op.Relates wanted value) :
      CanMatch document (.attribute name condition)
  | nested {kind : PseudoKind} {name : String} {arguments : List (List Term)} {c : List Term}
      (hAny : (Term.nested kind name arguments).matchesAny = true) (hc : c ∈ arguments)
      (h : ∀ t ∈ checkableTerms c, CanMatch document t) :
      CanMatch document (.nested kind name arguments)

/-- Every term of a complex selector that a document can be asked for finds something in it. -/
def ComplexSelector.CanMatch (document : List Element) (c : ComplexSelector) : Prop :=
  ∀ t ∈ checkableTerms c, t.CanMatch document

/-! ## Names of an element -/

namespace Element

variable {e : Element} {name value : String}

theorem tag_mem_names : e.tag ∈ e.names := by simp [names]

theorem class_mem_names (h : name ∈ e.classes) : name ∈ e.names := by simp [names, h]

theorem id_mem_names (h : e.id = some name) : name ∈ e.names := by simp [names, h]

theorem attribute_mem_names (h : (name, value) ∈ e.attributes) : name ∈ e.names := by
  simp only [names, List.mem_append, List.mem_flatMap]
  exact Or.inr ⟨(name, value), h, List.mem_cons_self⟩

theorem value_mem_names (h : (name, value) ∈ e.attributes) : value ∈ e.names := by
  simp only [names, List.mem_append, List.mem_flatMap]
  exact Or.inr ⟨(name, value), h, List.mem_cons_of_mem _ List.mem_cons_self⟩

theorem word_mem_names {word : String} (h : (name, value) ∈ e.attributes)
    (hw : word ∈ valueWords value) : word ∈ e.names := by
  simp only [names, List.mem_append, List.mem_flatMap]
  exact Or.inr ⟨(name, value), h, List.mem_cons_of_mem _ (List.mem_cons_of_mem _ hw)⟩

end Element

/-! ## The tokens of a document -/

theorem occursIn_iff {part text : List Char} : occursIn part text = true ↔ part <:+: text := by
  induction text with
  | nil => simp [occursIn]
  | cons c cs ih =>
    rw [occursIn, Bool.or_eq_true, ih, List.isPrefixOf_iff_prefix, List.infix_cons_iff]

/-- Each operator finds its value among tokens that hold the whole value of an attribute and
the words of it. -/
theorem hasValue_of_relates {u : Usage} {wanted value : String} (hValue : value ∈ u.tokens)
    (hWords : ∀ w ∈ valueWords value, w ∈ u.tokens) {op : AttributeOperator}
    (h : op.Relates wanted value) : u.hasValue wanted op = true := by
  have anyToken {test : List Char → Bool} (ht : test value.toList = true) :
      u.anyToken test = true := List.any_eq_true.mpr ⟨value, hValue, ht⟩
  cases op with
  | equals =>
    rw [AttributeOperator.Relates] at h
    rw [Usage.hasValue, ← h, List.contains_iff_mem]
    exact hValue
  | includes =>
    rw [Usage.hasValue, List.contains_iff_mem]
    exact hWords wanted h
  | dashMatch =>
    rw [Usage.hasValue, Bool.or_eq_true, List.contains_iff_mem]
    rcases h with h | h
    · exact Or.inl (h ▸ hValue)
    · exact Or.inr (anyToken (List.isPrefixOf_iff_prefix.mpr h))
  | beginsWith => exact anyToken (List.isPrefixOf_iff_prefix.mpr h.2)
  | endsWith => exact anyToken (List.isSuffixOf_iff_suffix.mpr h.2)
  | contains => exact anyToken (occursIn_iff.mpr h.2)

namespace Usage

variable {u : Usage} {document : List Element}

theorem keepsTerms_of_usesTerm (hBlock : u.blocklist = []) {c : ComplexSelector}
    (h : ∀ t ∈ checkableTerms c, u.usesTerm t = true) : u.keepsTerms c = true :=
  keepsTerms_iff.mpr ⟨fun t _ => by simp [blocksTerm, isBlocked, hBlock, anyCovers], h⟩

theorem hasAttribute_of_dynamic {name : String} (h : lower name ∈ dynamicAttributes)
    (condition : Option (AttributeOperator × String)) : u.hasAttribute name condition = true := by
  unfold hasAttribute
  rw [if_pos (List.contains_iff_mem.mpr h)]

theorem hasAttribute_of_attribute (hTokens : ∀ e ∈ document, ∀ n ∈ e.names, n ∈ u.tokens)
    {name value : String} {condition : Option (AttributeOperator × String)} {e : Element}
    (he : e ∈ document) (ha : (name, value) ∈ e.attributes)
    (h : ∀ op wanted, condition = some (op, wanted) → op.Relates wanted value) :
    u.hasAttribute name condition = true := by
  have hName : name ∈ u.tokens := hTokens e he name (Element.attribute_mem_names ha)
  unfold hasAttribute
  split
  · rfl
  · rw [if_neg (by simp [hName])]
    cases condition with
    | none => rfl
    | some c =>
      have hFound := hasValue_of_relates (hTokens e he value (Element.value_mem_names ha))
        (fun w hw => hTokens e he w (Element.word_mem_names ha hw)) (h c.1 c.2 rfl)
      simp only [hFound, Bool.or_true]

/-- The induction is on how the term matches: only a term with alternatives looks further, and
there the alternative that matches is the one that is kept. -/
theorem usesTerm_of_canMatch (hTokens : ∀ e ∈ document, ∀ n ∈ e.names, n ∈ u.tokens)
    (hBlock : u.blocklist = []) {t : Term} (h : t.CanMatch document) : u.usesTerm t = true := by
  induction h with
  | universal => exact (usesTerm_iff_of_not_matchesAny rfl).mpr (Or.inr rfl)
  | tag he h =>
    refine (usesTerm_iff_of_not_matchesAny rfl).mpr (Or.inr ?_)
    have := hTokens _ he _ Element.tag_mem_names
    simp [isPresent, h, this]
  | hasClass he h =>
    refine (usesTerm_iff_of_not_matchesAny rfl).mpr (Or.inr ?_)
    simpa [isPresent] using hTokens _ he _ (Element.class_mem_names h)
  | hasId he h =>
    refine (usesTerm_iff_of_not_matchesAny rfl).mpr (Or.inr ?_)
    simpa [isPresent] using hTokens _ he _ (Element.id_mem_names h)
  | dynamic h =>
    exact (usesTerm_iff_of_not_matchesAny rfl).mpr (Or.inr (hasAttribute_of_dynamic h _))
  | related he ha h =>
    exact (usesTerm_iff_of_not_matchesAny rfl).mpr
      (Or.inr (hasAttribute_of_attribute hTokens he ha h))
  | nested hAny hc _ ih =>
    exact (usesTerm_nested_iff hAny).mpr ⟨_, hc, keepsTerms_of_usesTerm hBlock ih⟩

/-- **No selector that can match the document is removed**, if the tokens hold all names and
values of the document and nothing is blocked. -/
theorem keeps_of_canMatch (hTokens : ∀ e ∈ document, ∀ n ∈ e.names, n ∈ u.tokens)
    (hBlock : u.blocklist = []) {text : String}
    (hMatch : ∀ cs, Selector.parse text = .ok cs → ∀ c ∈ cs, ComplexSelector.CanMatch document c) :
    u.keeps text = true := by
  refine keeps_iff.mpr (Or.inr (Or.inr fun cs hParse c hc => ?_))
  refine keepsTerms_of_usesTerm hBlock fun t ht => ?_
  exact usesTerm_of_canMatch hTokens hBlock (hMatch cs hParse c hc t ht)

/-- A document of one element, whose name is written in capitals in the selector, whose classes
are asked for behind `:is()` next to a class that it lacks, and whose attribute is asked for by a
word and by a beginning. -/
theorem keeps_of_canMatch_element :
    let e : Element := ⟨"a", ["x", "y"], some "top", [("rel", "home up")]⟩
    let u : Usage := ⟨e.names, {}, []⟩
    (∀ n ∈ e.names, n ∈ u.tokens) ∧ u.keeps "A:is(.gone, .x)[rel~=up][rel^='ho']" = true := by
  intro e u
  have hParse : Selector.parse "A:is(.gone, .x)[rel~=up][rel^='ho']" = .ok [[.tag "A",
      .nested .ofClass "is" [[.hasClass "gone"], [.hasClass "x"]],
      .attribute "rel" (some (.includes, "up")), .attribute "rel" (some (.beginsWith, "ho"))]] := by
    decide +kernel
  have hTokens : ∀ e' ∈ [e], ∀ n ∈ e'.names, n ∈ u.tokens := by
    intro e' he' n hn
    rw [List.mem_singleton.mp he'] at hn
    exact hn
  refine ⟨fun n hn => hn, keeps_of_canMatch hTokens rfl fun cs hcs c hc => ?_⟩
  rw [hParse] at hcs
  cases hcs
  cases List.mem_singleton.mp hc
  intro t ht
  simp only [mem_checkableTerms, List.mem_cons, List.not_mem_nil, or_false] at ht
  obtain ⟨rfl | rfl | rfl | rfl, -⟩ := ht
  · exact .tag List.mem_cons_self (by decide)
  · refine .nested (c := [.hasClass "x"]) rfl (by simp) fun t ht => ?_
    cases List.mem_singleton.mp (mem_checkableTerms.mp ht).1
    exact .hasClass List.mem_cons_self (by decide)
  · refine .related List.mem_cons_self (show ("rel", "home up") ∈ e.attributes by decide) ?_
    rintro op wanted ⟨⟩
    change "up" ∈ valueWords "home up"
    decide
  · refine .related List.mem_cons_self (show ("rel", "home up") ∈ e.attributes by decide) ?_
    rintro op wanted ⟨⟩
    exact ⟨by decide, by decide⟩

end Usage

end StyleSieve
