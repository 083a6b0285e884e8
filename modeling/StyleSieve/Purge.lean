import StyleSieve.Stylesheet

/-!
# Purging style sheets

Removes the selectors that are not kept, the style rules without a selector left, and the
groups without a rule left. Comments can protect rules: `purgecss ignore` the next one, and
`purgecss start ignore` all until `purgecss end ignore`, among siblings only.
-/

namespace StyleSieve

open Text

/-- An order to the purge, given by a comment. -/
inductive Directive where
  | ignoreNext
  | startIgnoring
  | endIgnoring
  deriving DecidableEq

/-- Reads what stands in a comment. -/
def Directive.ofComment? (text : List Char) : Option Directive :=
  let words := String.ofList (lowerChars (trimChars ((text.drop 2).dropLast.dropLast)))
  if words == "purgecss ignore" then some .ignoreNext
  else if words == "purgecss start ignore" then some .startIgnoring
  else if words == "purgecss end ignore" then some .endIgnoring
  else none

/-- Which of the following siblings are protected. -/
structure Protection where
  ignoring : Bool := false
  next : Bool := false
  deriving DecidableEq

namespace Protection

/-- The protection behind an order. -/
def after (p : Protection) : Directive → Protection
  | .ignoreNext => { p with next := true }
  | .startIgnoring => { p with ignoring := true }
  | .endIgnoring => { p with ignoring := false }

/-- The protection behind a node that is no rule. -/
def afterVerbatim (p : Protection) (text : String) : Protection :=
  if (Node.verbatim text).isComment then
    match Directive.ofComment? text.toList with
    | some d => p.after d
    | none => p
  else p

/-- Whether the next rule is protected. -/
def covers (p : Protection) : Bool := p.ignoring || p.next

/-- The protection behind a rule. -/
def afterRule (p : Protection) : Protection := { p with next := false }

end Protection

/-- What is left of nodes, and what was decided about them, in document order. -/
structure Purged where
  nodes : List Node
  /-- The selectors that were removed. -/
  selectors : List String
  /-- The texts of the style rules that were removed. -/
  rules : List String
  /-- The selectors that were decided about. -/
  judged : List String

namespace Purged

/-- Nothing. -/
def nothing : Purged := ⟨[], [], [], []⟩

/-- One node that stays as it is. -/
def keeping (node : Node) : Purged := ⟨[node], [], [], []⟩

/-- The one after the other. -/
def append (a b : Purged) : Purged :=
  ⟨a.nodes ++ b.nodes, a.selectors ++ b.selectors, a.rules ++ b.rules, a.judged ++ b.judged⟩

end Purged

namespace Node

/-- Purges a style rule. A rule without selectors stays. -/
def purgeRule (keeps : String → Bool) (rule : StyleRule) : Purged :=
  let kept := rule.selectors.filter keeps
  let removed := rule.selectors.filter fun s => !keeps s
  if !kept.isEmpty then ⟨[.style (rule.withSelectors kept)], removed, [], rule.selectors⟩
  else if rule.selectors.isEmpty then .keeping (.style rule)
  else ⟨[], removed, [rule.text], rule.selectors⟩

/-- A purged group, from its purged children. It goes if it had rules and has none left. -/
def purgedGroup (keyword prelude : String) (children : List Node) (p : Purged) : Purged :=
  { p with
    nodes :=
      if p.nodes.any isRule || !children.any isRule then [.group keyword prelude p.nodes] else [] }

mutual

/-- Purges a node that is not protected. -/
def purge (keeps : String → Bool) : Node → Purged
  | .verbatim text => .keeping (.verbatim text)
  | .style rule => purgeRule keeps rule
  | .statement keyword prelude block => .keeping (.statement keyword prelude block)
  | .group keyword prelude children =>
    purgedGroup keyword prelude children (purgeAll keeps {} children)

/-- Purges siblings, the first of which stand under the given protection. -/
def purgeAll (keeps : String → Bool) (p : Protection) : List Node → Purged
  | [] => .nothing
  | .verbatim text :: rest =>
    (Purged.keeping (.verbatim text)).append (purgeAll keeps (p.afterVerbatim text) rest)
  | node :: rest =>
    if p.covers then (Purged.keeping node).append (purgeAll keeps p.afterRule rest)
    else (node.purge keeps).append (purgeAll keeps p rest)

end

end Node

end StyleSieve
