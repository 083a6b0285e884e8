import StyleSieve.Script.Literal

/-!
# Syntax trees and their texts

A node of a syntax tree covers a stretch of the source. The texts that may name selectors are
harvested from it in document order: what string literals hold, what names are, and what stands
between the substitutions of templates.

`Tree.harvest` walks a tree with a stack of nodes still to visit, and `Tree.texts` is the same
sequence by recursion on the tree.
-/

namespace StyleSieve.Script

/-- What a node is, as far as its own text matters. -/
inductive NodeKind where
  /-- A string literal, with its quotes. -/
  | string
  /-- A template literal, with its backticks. -/
  | template
  /-- A substitution in a template, with its delimiters. -/
  | substitution
  /-- The name of a variable, a property or a label. -/
  | name
  | other
  deriving DecidableEq

/-- A stretch of a text, from the offset of its first character to the offset behind its last. -/
structure Span where
  start : Nat
  stop : Nat
  deriving DecidableEq

/-- What stands on a stretch. -/
def Span.slice {α : Type} (source : List α) (s : Span) : List α :=
  (source.drop s.start).take (s.stop - s.start)

/-- A node with its stretch of the source and the nodes inside it, in order. -/
inductive Tree where
  | node (kind : NodeKind) (span : Span) (children : List Tree)

namespace Tree

def kind : Tree → NodeKind
  | node k _ _ => k

def span : Tree → Span
  | node _ s _ => s

def children : Tree → List Tree
  | node _ _ cs => cs

/-- The stretch between the first and the last character of a node, which delimit it. -/
def inside (t : Tree) : Span := ⟨t.span.start + 1, t.span.stop - 1⟩

end Tree

/-- What the given stretches leave of a larger one: what lies before the first of them, between
two of them, and behind the last. -/
def Span.between (whole : Span) : List Span → List Span
  | [] => [whole]
  | s :: rest => ⟨whole.start, s.start⟩ :: Span.between ⟨s.stop, whole.stop⟩ rest

namespace Tree

/-- The stretches that the substitutions directly inside a template take. -/
def substitutions (t : Tree) : List Span :=
  (t.children.filter fun c => c.kind == .substitution).map span

/-- The texts of a template around its substitutions: one more than there are of them. -/
def segments (source : List Char) (t : Tree) : List (List Char) :=
  (t.inside.between t.substitutions).map (Span.slice source)

/-- The texts that a node has by itself. Where the escapes of a literal have no value, its text
counts as it stands. -/
def ownTexts (source : List Char) (t : Tree) : List String :=
  match t.kind with
  | .string => [cookOrRaw false (String.ofList (t.inside.slice source))]
  | .template =>
    ((t.segments source).filter fun s => !s.isEmpty).map fun s =>
      cookOrRaw true (String.ofList s)
  | .name => [String.ofList (t.span.slice source)]
  | .substitution => []
  | .other => []

mutual

/-- How many nodes a tree has. -/
def size : Tree → Nat
  | node _ _ cs => 1 + sizeAll cs

/-- How many nodes there are in trees side by side. -/
def sizeAll : List Tree → Nat
  | [] => 0
  | t :: ts => t.size + sizeAll ts

end

theorem sizeAll_append (ts us : List Tree) : sizeAll (ts ++ us) = sizeAll ts + sizeAll us := by
  induction ts with
  | nil => simp [sizeAll]
  | cons t ts ih => simp [sizeAll, ih, Nat.add_assoc]

theorem size_eq (t : Tree) : t.size = 1 + sizeAll t.children := by
  cases t
  rfl

mutual

/-- The texts of a tree: its own, and then those of its children from left to right. -/
def texts (source : List Char) : Tree → List String
  | node k s cs => ownTexts source (node k s cs) ++ textsAll source cs

/-- The texts of trees side by side. -/
def textsAll (source : List Char) : List Tree → List String
  | [] => []
  | t :: ts => texts source t ++ textsAll source ts

end

/-- The texts of the nodes that are still to be visited. Each visited node puts its children on
top of the stack. -/
def harvestFrom (source : List Char) (pending : List Tree) : List String :=
  match pending with
  | [] => []
  | t :: rest => t.ownTexts source ++ harvestFrom source (t.children ++ rest)
termination_by sizeAll pending
decreasing_by
  simp only [sizeAll_append, sizeAll, size_eq t]
  omega

/-- The texts of a tree that may name selectors, in document order. -/
def harvest (source : List Char) (t : Tree) : List String := harvestFrom source [t]

end Tree

end StyleSieve.Script
