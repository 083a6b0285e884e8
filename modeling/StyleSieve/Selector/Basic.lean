/-!
# Selectors

The parts of a selector that decide whether it can match. A complex selector is kept as the
list of its simple selectors: which combinator stands between two of them does not matter for
asking whether the names it mentions are in use.
-/

namespace StyleSieve

/-- How an attribute selector compares the value of the attribute. -/
inductive AttributeOperator where
  /-- `=`: the whole value. -/
  | equals
  /-- `~=`: one of the words of the value. -/
  | includes
  /-- `|=`: the value, or the value up to a hyphen. -/
  | dashMatch
  /-- `^=`: a beginning of the value. -/
  | beginsWith
  /-- `$=`: an end of the value. -/
  | endsWith
  /-- `*=`: a piece of the value. -/
  | contains
  deriving DecidableEq

/-- The sign of an operator. -/
def AttributeOperator.sign : AttributeOperator → String
  | .equals => "="
  | .includes => "~="
  | .dashMatch => "|="
  | .beginsWith => "^="
  | .endsWith => "$="
  | .contains => "*="

/-- The two families of pseudo selectors: `:name` and `::name`. -/
inductive PseudoKind where
  | ofClass
  | ofElement
  deriving DecidableEq

/-- A simple selector, with the escapes in its names resolved. -/
inductive Term where
  | tag (name : String)
  | universal
  | hasClass (name : String)
  | hasId (name : String)
  | attribute (name : String) (condition : Option (AttributeOperator × String))
  /-- A pseudo selector, with the text between its parentheses if it has any. -/
  | pseudo (kind : PseudoKind) (name : String) (argument : Option String)
  /-- A pseudo selector whose arguments are selectors, such as `:not(.a, .b)`. -/
  | nested (kind : PseudoKind) (name : String) (arguments : List (List Term))

/-- The simple selectors of a complex selector, in order. -/
abbrev ComplexSelector := List Term

namespace Term

/-- The pseudo classes that match where one of their arguments does. -/
def matchesAnyNames : List String :=
  ["is", "where", "matches", "any", "-webkit-any", "-moz-any"]

/-- Whether the term matches exactly where one of its arguments does. -/
def matchesAny : Term → Bool
  | nested .ofClass name arguments => matchesAnyNames.contains name && !arguments.isEmpty
  | _ => false

/-- Whether the term is a pseudo selector. -/
def isPseudo : Term → Bool
  | pseudo .. => true
  | nested .. => true
  | _ => false

/-- Whether a document can be asked for the presence of the term. Pseudo selectors depend on
state that is not in the document, but those that match where one of their arguments does can
be decided by their arguments. -/
def isCheckable (t : Term) : Bool := !t.isPseudo || t.matchesAny

/-- The name in a term. -/
def name : Term → String
  | tag n => n
  | universal => "*"
  | hasClass n => n
  | hasId n => n
  | .attribute n _ => n
  | pseudo _ n _ => n
  | nested _ n _ => n

/-! Equality of terms is decided by one recursion through their arguments. -/

mutual

/-- Whether two terms are the same. -/
def same : Term → Term → Bool
  | tag m, tag n => m == n
  | universal, universal => true
  | hasClass m, hasClass n => m == n
  | hasId m, hasId n => m == n
  | .attribute m c, .attribute n d => m == n && c == d
  | pseudo k m a, pseudo l n b => k == l && m == n && a == b
  | nested k m xs, nested l n ys => k == l && m == n && sameLists xs ys
  | _, _ => false

/-- Whether two rows of terms are the same. -/
def sameTerms : List Term → List Term → Bool
  | [], [] => true
  | s :: ss, t :: ts => s.same t && sameTerms ss ts
  | _, _ => false

/-- Whether two rows of complex selectors are the same. -/
def sameLists : List (List Term) → List (List Term) → Bool
  | [], [] => true
  | s :: ss, t :: ts => sameTerms s t && sameLists ss ts
  | _, _ => false

end

mutual

theorem eq_of_same {s t : Term} (h : s.same t = true) : s = t := by
  cases s <;> cases t <;> simp only [same, Bool.and_eq_true, beq_iff_eq, Bool.false_eq_true] at h
  case nested.nested =>
    rw [h.1.1, h.1.2, eq_of_sameLists h.2]
  all_goals simp_all

theorem eq_of_sameTerms {ss ts : List Term} (h : sameTerms ss ts = true) : ss = ts := by
  match ss, ts with
  | [], [] => rfl
  | s :: ss, t :: ts =>
    simp only [sameTerms, Bool.and_eq_true] at h
    rw [eq_of_same h.1, eq_of_sameTerms h.2]

theorem eq_of_sameLists {ss ts : List (List Term)} (h : sameLists ss ts = true) : ss = ts := by
  match ss, ts with
  | [], [] => rfl
  | s :: ss, t :: ts =>
    simp only [sameLists, Bool.and_eq_true] at h
    rw [eq_of_sameTerms h.1, eq_of_sameLists h.2]

end

mutual

theorem same_self (t : Term) : t.same t = true := by
  cases t with
  | nested k m xs => simp [same, sameLists_self xs]
  | _ => simp [same]

theorem sameTerms_self (ts : List Term) : sameTerms ts ts = true := by
  match ts with
  | [] => rfl
  | t :: ts => simp [sameTerms, same_self t, sameTerms_self ts]

theorem sameLists_self (cs : List (List Term)) : sameLists cs cs = true := by
  match cs with
  | [] => rfl
  | c :: cs => simp [sameLists, sameTerms_self c, sameLists_self cs]

end

instance : DecidableEq Term := fun s t =>
  decidable_of_iff (s.same t = true) ⟨eq_of_same, fun h => h ▸ same_self s⟩

end Term

/-- The terms of a complex selector whose presence a document can be asked for. -/
def checkableTerms (selector : ComplexSelector) : List Term := selector.filter Term.isCheckable

end StyleSieve
