import Mathlib.Control.Monad.Basic
import StyleSieve.Proofs.Text.LetterCase
import StyleSieve.Proofs.Usage.Expansion

/-!
# Letter case of names

Pages have tags and attributes in lower-case letters, and selectors may spell them otherwise. A tag is
looked up as it is spelled and in lower case. An attribute is looked up as it is spelled, unless it comes
and goes or is taken to be there, which is known of lower-case names. So a name strays if it is spelled
with capital letters and would be found in lower-case letters of ASCII only.

* `not_strays_tag`: no tag of ASCII strays.
* `admits_iff_inLowerCase`: a term is admitted if its lower-case spelling is and it does not stray.
* `keeps_of_recased`: selectors that differ in letter case alone have the same verdict if none of their
  names strays.
* `not_keeps_recased`: an attribute and a tag that do stray.
-/

namespace StyleSieve

open Text

/-! ## Terms in lower-case letters -/

mutual

/-- A term with the names of tags and attributes in lower-case letters of ASCII. -/
def Term.inLowerCase : Term → Term
  | .tag name => .tag (lowerAsciiAll name)
  | .attribute name condition => .attribute (lowerAsciiAll name) condition
  | .nested kind name arguments => .nested kind name (rowsInLowerCase arguments)
  | t => t

/-- A row of terms in lower-case letters. -/
def rowInLowerCase : List Term → List Term
  | [] => []
  | t :: rest => t.inLowerCase :: rowInLowerCase rest

/-- Rows of terms in lower-case letters. -/
def rowsInLowerCase : List (List Term) → List (List Term)
  | [] => []
  | c :: rest => rowInLowerCase c :: rowsInLowerCase rest

end

variable {t : Term} {c : List Term} {cs : List (List Term)}

theorem rowInLowerCase_eq_map (c : List Term) : rowInLowerCase c = c.map Term.inLowerCase := by
  induction c with
  | nil => rfl
  | cons t rest ih => rw [rowInLowerCase, ih, List.map_cons]

theorem rowsInLowerCase_eq_map (cs : List (List Term)) :
    rowsInLowerCase cs = cs.map rowInLowerCase := by
  induction cs with
  | nil => rfl
  | cons c rest ih => rw [rowsInLowerCase, ih, List.map_cons]

namespace Term

@[simp] theorem matchesAny_inLowerCase (t : Term) : t.inLowerCase.matchesAny = t.matchesAny := by
  cases t with
  | nested kind name arguments =>
    rw [inLowerCase, rowsInLowerCase_eq_map]
    cases kind with
    | ofClass => rw [matchesAny, matchesAny, List.isEmpty_map]
    | ofElement => rfl
  | _ => rfl

@[simp] theorem isPseudo_inLowerCase (t : Term) : t.inLowerCase.isPseudo = t.isPseudo := by
  cases t <;> rfl

@[simp] theorem isCheckable_inLowerCase (t : Term) : t.inLowerCase.isCheckable = t.isCheckable := by
  rw [isCheckable, isCheckable, isPseudo_inLowerCase, matchesAny_inLowerCase]

end Term

/-! ## Expansions in lower-case letters -/

/-- What a row stands for is in lower-case letters if what its terms stand for is. -/
theorem expansions_of_each
    (h : ∀ t ∈ c, t.inLowerCase.expansions = t.expansions.map rowInLowerCase) :
    expansions (rowInLowerCase c) = (expansions c).map rowInLowerCase := by
  induction c with
  | nil => rfl
  | cons t rest ih =>
    have hRest := ih fun t ht => h t (List.mem_cons_of_mem _ ht)
    have hAppend : ∀ x y, rowInLowerCase (x ++ y) = rowInLowerCase x ++ rowInLowerCase y := by
      intro x y
      simp only [rowInLowerCase_eq_map, List.map_append]
    rw [rowInLowerCase, expansions, expansions, h t List.mem_cons_self, hRest, List.map_flatMap,
      List.flatMap_map]
    simp only [List.map_map, Function.comp_def, hAppend]

theorem expansionsOfAny_of_each
    (h : ∀ c ∈ cs, expansions (rowInLowerCase c) = (expansions c).map rowInLowerCase) :
    expansionsOfAny (rowsInLowerCase cs) = (expansionsOfAny cs).map rowInLowerCase := by
  induction cs with
  | nil => rfl
  | cons c rest ih =>
    rw [rowsInLowerCase, expansionsOfAny, expansionsOfAny, h c List.mem_cons_self,
      ih fun c hc => h c (List.mem_cons_of_mem _ hc), List.map_append]

theorem Term.expansions_inLowerCase (t : Term) :
    t.inLowerCase.expansions = t.expansions.map rowInLowerCase := by
  induction t using Term.alternatives_induction with
  | plain t h =>
    have hLower : t.inLowerCase.matchesAny = false := by rw [Term.matchesAny_inLowerCase, h]
    rw [Term.expansions_of_not_matchesAny h, Term.expansions_of_not_matchesAny hLower]
    rfl
  | choice kind name arguments hAny ih =>
    have hLower := Term.matchesAny_inLowerCase (.nested kind name arguments)
    rw [hAny, Term.inLowerCase] at hLower
    rw [Term.inLowerCase, Term.expansions, Term.expansions, if_pos hAny, if_pos hLower]
    exact expansionsOfAny_of_each fun c hc => expansions_of_each (ih c hc)

/-- A row in lower-case letters stands for what the row stands for, in lower-case letters. -/
theorem expansions_inLowerCase (c : List Term) :
    expansions (rowInLowerCase c) = (expansions c).map rowInLowerCase :=
  expansions_of_each fun t _ => t.expansions_inLowerCase

/-! ## Names that stray -/

namespace Usage

variable {u : Usage} {text other : String} {cs' : List (List Term)}

/-- No token of the content has a capital letter of ASCII, and nothing is safelisted or blocked. -/
structure IsBare (u : Usage) : Prop where
  tokens : ∀ token ∈ u.tokens, lowerAsciiAll token = token
  safelist : u.safelist = {}
  blocklist : u.blocklist = []

/-- A name that would be found in lower-case letters of ASCII, but is spelled with capital letters and
looked up in a way that does not find it. -/
def Strays (u : Usage) : Term → Prop
  | .tag name => lowerAsciiAll name ≠ name ∧ lowerAsciiAll name ∈ u.tokens ∧ lower name ∉ u.tokens
  | .attribute name condition =>
    lowerAsciiAll name ≠ name ∧ lower name ∉ dynamicAttributes ∧ lower name ∉ assumedAttributes ∧
      u.hasAttribute (lowerAsciiAll name) condition = true
  | _ => False

instance decidableStrays (u : Usage) : (t : Term) → Decidable (u.Strays t)
  | .tag _ => instDecidableAnd
  | .attribute .. => instDecidableAnd
  | .universal => instDecidableFalse
  | .hasClass _ => instDecidableFalse
  | .hasId _ => instDecidableFalse
  | .pseudo .. => instDecidableFalse
  | .nested .. => instDecidableFalse

/-- A tag whose lower-case form is that of ASCII does not stray. -/
theorem not_strays_tag {name : String} (h : lower name = lowerAsciiAll name) :
    ¬u.Strays (.tag name) := by
  rintro ⟨-, hFound, hLost⟩
  exact hLost (h ▸ hFound)

/-- The content has the value that a condition asks for, if it asks for one. -/
def Meets (u : Usage) (condition : Option (AttributeOperator × String)) : Prop :=
  ∀ operator value, condition = some (operator, value) →
    value.isEmpty = true ∨ u.hasValue value operator = true

theorem hasAttribute_iff {name : String} {condition : Option (AttributeOperator × String)} :
    u.hasAttribute name condition = true ↔ lower name ∈ dynamicAttributes ∨
      (lower name ∈ assumedAttributes ∨ name ∈ u.tokens) ∧ u.Meets condition := by
  rcases condition with _ | ⟨operator, value⟩
  · simp [hasAttribute, Meets]
  · simp [hasAttribute, Meets]

/-- A tag is found if its lower-case spelling is and it does not stray. -/
theorem isPresent_tag_iff (hBare : u.IsBare) (name : String) :
    u.isPresent (.tag name) = true ↔
      u.isPresent (.tag (lowerAsciiAll name)) = true ∧ ¬u.Strays (.tag name) := by
  simp only [isPresent, Strays, Bool.or_eq_true, List.contains_iff_mem, lower_lowerAsciiAll]
  by_cases hSame : lowerAsciiAll name = name
  · simp [hSame]
  · have hLost : name ∉ u.tokens := fun h => hSame (hBare.tokens name h)
    by_cases hLower : lower name ∈ u.tokens <;> simp [hSame, hLost, hLower]

/-- An attribute is found if its lower-case spelling is and it does not stray. -/
theorem isPresent_attribute_iff (hBare : u.IsBare) (name : String)
    (condition : Option (AttributeOperator × String)) :
    u.isPresent (.attribute name condition) = true ↔
      u.isPresent (.attribute (lowerAsciiAll name) condition) = true ∧
        ¬u.Strays (.attribute name condition) := by
  simp only [isPresent, Strays, hasAttribute_iff, lower_lowerAsciiAll]
  by_cases hSame : lowerAsciiAll name = name
  · simp [hSame]
  · have hLost : name ∉ u.tokens := fun h => hSame (hBare.tokens name h)
    by_cases hDynamic : lower name ∈ dynamicAttributes <;>
      by_cases hAssumed : lower name ∈ assumedAttributes <;>
        simp [hSame, hLost, hDynamic, hAssumed]

theorem admits_iff_isPresent (hBare : u.IsBare) :
    u.Admits t ↔ (t.isCheckable = true → u.isPresent t = true) := by
  have hFree : u.isBlocked t.name = false := by
    rw [isBlocked, hBare.blocklist]
    rfl
  have hUnsafe : u.isSafelisted t.name = false := by
    rw [isSafelisted, hBare.safelist]
    rfl
  rw [Admits, hFree, hUnsafe]
  simp

/-- A term is admitted if its lower-case spelling is and it does not stray. -/
theorem admits_iff_inLowerCase (hBare : u.IsBare) (hPlain : t.matchesAny = false) :
    u.Admits t ↔ u.Admits t.inLowerCase ∧ ¬u.Strays t := by
  rw [admits_iff_isPresent hBare, admits_iff_isPresent hBare, Term.isCheckable_inLowerCase]
  cases t with
  | tag name =>
    rw [Term.inLowerCase]
    simpa [Term.isCheckable, Term.isPseudo] using isPresent_tag_iff hBare name
  | «attribute» name condition =>
    rw [Term.inLowerCase]
    simpa [Term.isCheckable, Term.isPseudo] using isPresent_attribute_iff hBare name condition
  | nested kind name arguments =>
    have hOther : (Term.nested kind name arguments).isCheckable = false := by
      rw [Term.isCheckable, hPlain]
      rfl
    simp [hOther, Strays]
  | _ => simp [Term.inLowerCase, Strays]

/-! ## Verdicts -/

theorem keepsTerms_iff_inLowerCase (hBare : u.IsBare) :
    u.keepsTerms c = true ↔
      ∃ e ∈ expansions c, ∀ t ∈ e, u.Admits t.inLowerCase ∧ ¬u.Strays t := by
  rw [keepsTerms_iff_exists_admits]
  refine exists_congr fun e => and_congr_right fun he => forall₂_congr fun t ht => ?_
  exact admits_iff_inLowerCase hBare (matchesAny_of_mem_expansions he t ht)

/-- If none of its names strays, a complex selector is kept just if its lower-case spelling stands for a
row of admitted terms. -/
theorem keepsTerms_iff_of_not_strays (hBare : u.IsBare)
    (h : ∀ e ∈ expansions c, ∀ t ∈ e, ¬u.Strays t) :
    u.keepsTerms c = true ↔ ∃ e ∈ expansions (rowInLowerCase c), ∀ t ∈ e, u.Admits t := by
  have hEach : ∀ e ∈ expansions c,
      (∀ t ∈ e, u.Admits t.inLowerCase ∧ ¬u.Strays t) ↔ ∀ t ∈ rowInLowerCase e, u.Admits t := by
    intro e he
    rw [rowInLowerCase_eq_map, List.forall_mem_map]
    exact forall₂_congr fun t ht => and_iff_left (h e he t ht)
  rw [keepsTerms_iff_inLowerCase hBare, expansions_inLowerCase]
  constructor
  · rintro ⟨e, he, hAdmits⟩
    exact ⟨_, List.mem_map_of_mem he, (hEach e he).mp hAdmits⟩
  · rintro ⟨_, hMem, hAdmits⟩
    obtain ⟨e, he, rfl⟩ := List.mem_map.mp hMem
    exact ⟨e, he, (hEach e he).mpr hAdmits⟩

theorem keeps_iff_keepsTerms (hBare : u.IsBare) (hText : Selector.parse text = .ok cs) :
    u.keeps text = true ↔ ∀ c ∈ cs, u.keepsTerms c = true := by
  have hUnprotected : u.isProtected text = false := by
    rw [isProtected, hBare.safelist]
    rfl
  have hUnsafe : u.isSafelisted text = false := by
    rw [isSafelisted, hBare.safelist]
    rfl
  rw [keeps_iff, hUnprotected, hUnsafe, hText]
  simp

/-- If none of its names strays, the verdict on a selector is that on its lower-case spelling. -/
theorem keeps_iff_of_not_strays (hBare : u.IsBare) (hText : Selector.parse text = .ok cs)
    (h : ∀ c ∈ cs, ∀ e ∈ expansions c, ∀ t ∈ e, ¬u.Strays t) :
    u.keeps text = true ↔ ∀ c ∈ rowsInLowerCase cs, ∃ e ∈ expansions c, ∀ t ∈ e, u.Admits t := by
  rw [keeps_iff_keepsTerms hBare hText, rowsInLowerCase_eq_map, List.forall_mem_map]
  exact forall₂_congr fun c hc => keepsTerms_iff_of_not_strays hBare (h c hc)

/-- **Letter case of tags and attributes decides about a selector only through names that stray.** It is
kept if it stands for terms of which none strays and each is admitted in lower-case spelling. So the
verdicts on selectors that differ in letter case alone are the same if no name in them strays. -/
theorem keeps_of_recased (hBare : u.IsBare) (hText : Selector.parse text = .ok cs)
    (hOther : Selector.parse other = .ok cs') (hCase : rowsInLowerCase cs' = rowsInLowerCase cs) :
    (u.keeps text = true ↔
        ∀ c ∈ cs, ∃ e ∈ expansions c, ∀ t ∈ e, u.Admits t.inLowerCase ∧ ¬u.Strays t) ∧
      ((∀ c ∈ cs ++ cs', ∀ e ∈ expansions c, ∀ t ∈ e, ¬u.Strays t) →
        u.keeps other = u.keeps text) := by
  constructor
  · rw [keeps_iff_keepsTerms hBare hText]
    exact forall₂_congr fun c _ => keepsTerms_iff_inLowerCase hBare
  · intro h
    obtain ⟨hFirst, hSecond⟩ := List.forall_mem_append.mp h
    rw [Bool.eq_iff_iff, keeps_iff_of_not_strays hBare hText hFirst,
      keeps_iff_of_not_strays hBare hOther hSecond, hCase]

/-- Tags and an attribute that comes and goes, also as alternatives. -/
theorem keeps_of_recased_alternatives :
    let u : Usage := ⟨["div", "b", "href"], {}, []⟩
    let cs : List ComplexSelector := [[.tag "DIV", .attribute "href" none, .nested .ofClass "is"
      [[.tag "I"], [.tag "B", .attribute "CHECKED" none]]]]
    let cs' : List ComplexSelector := [[.tag "div", .attribute "href" none, .nested .ofClass "is"
      [[.tag "i"], [.tag "b", .attribute "checked" none]]]]
    u.IsBare ∧ Selector.parse "DIV[href]:is(I, B[CHECKED])" = .ok cs ∧
      Selector.parse "div[href]:is(i, b[checked])" = .ok cs' ∧
      rowsInLowerCase cs' = rowsInLowerCase cs ∧
      (∀ c ∈ cs ++ cs', ∀ e ∈ expansions c, ∀ t ∈ e, ¬u.Strays t) ∧
      u.keeps "DIV[href]:is(I, B[CHECKED])" = true ∧ u.keeps "div[href]:is(i, b[checked])" = true := by
  intro u cs cs'
  have hBare : u.IsBare := ⟨by decide, rfl, rfl⟩
  have hText : Selector.parse "DIV[href]:is(I, B[CHECKED])" = .ok cs := by decide +kernel
  have hOther : Selector.parse "div[href]:is(i, b[checked])" = .ok cs' := by decide +kernel
  have hCase : rowsInLowerCase cs' = rowsInLowerCase cs := by decide +kernel
  have hStays : ∀ c ∈ cs ++ cs', ∀ e ∈ expansions c, ∀ t ∈ e, ¬u.Strays t := by decide +kernel
  have hKeeps : u.keeps "DIV[href]:is(I, B[CHECKED])" = true := by decide +kernel
  refine ⟨hBare, hText, hOther, hCase, hStays, hKeeps, ?_⟩
  rw [(keeps_of_recased hBare hText hOther hCase).2 hStays]
  exact hKeeps

/-- An attribute is looked up only as it is spelled. A tag with a letter beyond ASCII is also looked up
in lower case, but then that letter is in lower case, too. -/
theorem not_keeps_recased :
    let u : Usage := ⟨["href", "my-É"], {}, []⟩
    u.IsBare ∧
      (Selector.parse "[href]" = .ok [[.attribute "href" none]] ∧
        Selector.parse "[HREF]" = .ok [[.attribute "HREF" none]] ∧
        rowsInLowerCase [[.attribute "HREF" none]] = rowsInLowerCase [[.attribute "href" none]] ∧
        u.keeps "[href]" = true ∧ u.keeps "[HREF]" = false) ∧
      Selector.parse "my-É" = .ok [[.tag "my-É"]] ∧ Selector.parse "MY-É" = .ok [[.tag "MY-É"]] ∧
        rowsInLowerCase [[.tag "MY-É"]] = rowsInLowerCase [[.tag "my-É"]] ∧
        u.keeps "my-É" = true ∧ u.keeps "MY-É" = false := by
  intro u
  exact ⟨⟨by decide, rfl, rfl⟩, by decide +kernel, by decide +kernel⟩

end Usage

end StyleSieve
