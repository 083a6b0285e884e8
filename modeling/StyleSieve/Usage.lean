import StyleSieve.Safelist
import StyleSieve.Selector.Parser
import StyleSieve.Text.Case

/-!
# Use of selectors

Whether a selector can still match anything, judged by the tokens that the content consists of.
`Usage.keepsTerms` is the verdict on a complex selector: none of its terms is blocked, and each
of them is safelisted or present. `Usage.verdict` is the verdict on the text of a selector list.
-/

namespace StyleSieve

open Text

/-- Whether `part` occurs in a text. -/
def occursIn (part : List Char) : List Char → Bool
  | [] => part.isEmpty
  | c :: cs => part.isPrefixOf (c :: cs) || occursIn part cs

/-- What is known about the use of names. -/
structure Usage where
  /-- The tokens of the content. -/
  tokens : List String
  safelist : Safelist
  blocklist : List Entry

/-- What becomes of a selector. -/
inductive Verdict where
  | kept
  /-- Kept, because it cannot be read. -/
  | unreadable
  | rejected
  deriving DecidableEq

namespace Usage

/-- Whether the standard entries of the safelist speak of a value. -/
def isSafelisted (u : Usage) (value : String) : Bool := anyCovers u.safelist.standard value

/-- Whether the blocklist speaks of a value. -/
def isBlocked (u : Usage) (value : String) : Bool := anyCovers u.blocklist value

/-- Whether a token of the content satisfies a test on its characters. -/
def anyToken (u : Usage) (test : List Char → Bool) : Bool := u.tokens.any fun t => test t.toList

/-- Attributes that come and go while a page is in use. -/
def dynamicAttributes : List String := ["value", "checked", "selected", "open"]

/-- Attributes that every page is taken to have. -/
def assumedAttributes : List String := ["class", "id"]

/-- Whether the content has a value that an attribute condition asks for. -/
def hasValue (u : Usage) (value : String) : AttributeOperator → Bool
  | .equals => u.tokens.contains value
  | .includes => u.tokens.contains value
  | .dashMatch => u.tokens.contains value || u.anyToken (value.toList ++ ['-']).isPrefixOf
  | .beginsWith => u.anyToken value.toList.isPrefixOf
  | .endsWith => u.anyToken value.toList.isSuffixOf
  | .contains => u.anyToken (occursIn value.toList)

/-- Whether the content has an attribute. The name is compared as it stands, but it is known
under its lower-case form whether its value can change or is taken to be there. -/
def hasAttribute (u : Usage) (name : String) (condition : Option (AttributeOperator × String)) :
    Bool :=
  if dynamicAttributes.contains (lower name) then true
  else if !assumedAttributes.contains (lower name) && !u.tokens.contains name then false
  else
    match condition with
    | none => true
    | some (operator, value) => value.isEmpty || u.hasValue value operator

/-- Whether the content has what a simple selector asks for. Of state, which pseudo selectors
ask for, it has none. -/
def isPresent (u : Usage) : Term → Bool
  | .universal => true
  | .tag name => u.tokens.contains name || u.tokens.contains (lower name)
  | .hasClass name => u.tokens.contains name
  | .hasId name => u.tokens.contains name
  | .attribute name condition => u.hasAttribute name condition
  | .pseudo .. => false
  | .nested .. => false

/-- Whether a term that can be asked for by its name is blocked. -/
def blocksTerm (u : Usage) (t : Term) : Bool :=
  t.isCheckable && !t.matchesAny && u.isBlocked t.name

mutual

/-- Whether a term is safelisted or present; a term with alternatives is if one of them is. -/
def usesTerm (u : Usage) : Term → Bool
  | .nested kind name arguments =>
    if (Term.nested kind name arguments).matchesAny then u.keepsAny arguments
    else u.isSafelisted name || u.isPresent (.nested kind name arguments)
  | t => u.isSafelisted t.name || u.isPresent t

/-- Whether all terms that can be checked are in use. -/
def usesTerms (u : Usage) : List Term → Bool
  | [] => true
  | t :: rest => (!t.isCheckable || u.usesTerm t) && u.usesTerms rest

/-- Whether one of several complex selectors is kept. -/
def keepsAny (u : Usage) : List (List Term) → Bool
  | [] => false
  | c :: rest => (!c.any u.blocksTerm && u.usesTerms c) || u.keepsAny rest

end

/-- Whether a complex selector is kept. -/
def keepsTerms (u : Usage) (selector : ComplexSelector) : Bool :=
  !selector.any u.blocksTerm && u.usesTerms selector

/-- Whether the greedy or deep part of the safelist speaks of a selector. -/
def isProtected (u : Usage) (selector : String) : Bool :=
  (u.safelist.greedy ++ u.safelist.deep).any fun p => p.search selector

/-- The verdict on the text of a selector list. -/
def verdict (u : Usage) (selector : String) : Verdict :=
  if u.isProtected selector then .kept
  else if u.isSafelisted selector then .kept
  else
    match Selector.parse selector with
    | .error _ => .unreadable
    | .ok complexes => if complexes.all u.keepsTerms then .kept else .rejected

/-- Whether a selector stays. -/
def keeps (u : Usage) (selector : String) : Bool := u.verdict selector != .rejected

end Usage

end StyleSieve
