import StyleSieve.Text.Quoted

/-!
# Patterns

The syntax of backtracking patterns over text: literals, sets, anchors, groups, repetition,
references to groups, conditions, and assertions about what lies ahead or behind. `width`
bounds the number of characters that a piece of a pattern can take.
-/

namespace StyleSieve.Pattern

/-- Classes of characters with an escape of their own. -/
inductive Category where
  | digit
  | space
  | word
  deriving DecidableEq

/-- A member of a set of characters. -/
inductive SetItem where
  | literal (code : Nat)
  | range (lo hi : Nat)
  | category (negated : Bool) (category : Category)
  deriving DecidableEq

/-- Places that an anchor asks for. -/
inductive Anchor where
  /-- `^`: the start, or with the multiline flag the start of a line. -/
  | start
  /-- `$`: the end, also in front of a final line feed, or with the flag the end of a line. -/
  | finish
  | textStart
  | textEnd
  | boundary
  | noBoundary
  deriving DecidableEq

/-- The flags that a pattern can be read and matched under. -/
structure Flags where
  ignoreCase : Bool := false
  multiline : Bool := false
  dotAll : Bool := false
  verbose : Bool := false
  /-- Whether classes and case are those of ASCII alone. -/
  ascii : Bool := false
  /-- Whether the classes of all scripts were asked for by a flag. -/
  unicode : Bool := false
  /-- The flag of templates, which rules out repetition. -/
  template : Bool := false
  deriving DecidableEq

/-- How many repetitions are preferred, and whether that is final. -/
inductive Greed where
  | greedy
  | lazy
  | possessive
  deriving DecidableEq

/-- The name of a repetition in messages about templates. -/
def Greed.operator : Greed → String
  | .greedy => "MAX_REPEAT"
  | .lazy => "MIN_REPEAT"
  | .possessive => "POSSESSIVE_REPEAT"

/-- A piece of a pattern. -/
inductive Node where
  | literal (code : Nat)
  | notLiteral (code : Nat)
  /-- Any character, or any but a line feed. -/
  | any
  | set (negated : Bool) (items : List SetItem)
  | anchor (place : Anchor)
  /-- A group: its number if it captures, the flags that it turns on and off, and its body. -/
  | group (number : Option Nat) (on off : Flags) (body : List Node)
  | atomic (body : List Node)
  /-- Repetition between two bounds, of which the upper may be absent. -/
  | repetition (greed : Greed) (least : Nat) (most : Option Nat) (body : List Node)
  | branch (alternatives : List (List Node))
  | reference (number : Nat)
  | condition (number : Nat) (yes no : List Node)
  | look (behind negated : Bool) (body : List Node)

/-- The flags inside a group. -/
def Flags.inside (outer on off : Flags) : Flags where
  ignoreCase := (outer.ignoreCase || on.ignoreCase) && !off.ignoreCase
  multiline := (outer.multiline || on.multiline) && !off.multiline
  dotAll := (outer.dotAll || on.dotAll) && !off.dotAll
  verbose := (outer.verbose || on.verbose) && !off.verbose
  ascii := if on.ascii then true else if on.unicode then false else outer.ascii
  unicode := if on.unicode then true else if on.ascii then false else outer.unicode
  template := outer.template

/-- The union of two sets of flags. -/
def Flags.union (a b : Flags) : Flags where
  ignoreCase := a.ignoreCase || b.ignoreCase
  multiline := a.multiline || b.multiline
  dotAll := a.dotAll || b.dotAll
  verbose := a.verbose || b.verbose
  ascii := a.ascii || b.ascii
  unicode := a.unicode || b.unicode
  template := a.template || b.template

/-- Whether two sets of flags have a flag in common. -/
def Flags.meets (a b : Flags) : Bool :=
  (a.ignoreCase && b.ignoreCase) || (a.multiline && b.multiline) || (a.dotAll && b.dotAll) ||
    (a.verbose && b.verbose) || (a.ascii && b.ascii) || (a.unicode && b.unicode) ||
    (a.template && b.template)

/-- The bound that widths are cut off at. -/
def maxWidth : Nat := Nat.pow 2 64

/-- The bound that repetition counts have to stay below. -/
def maxRepeat : Nat := 4294967295

/-- A least and a greatest number of characters. -/
abbrev Width := Nat × Nat

/-- Widths above the bound count as the bound. -/
def capWidth (w : Width) : Width := (min w.1 maxWidth, min w.2 maxWidth)

/-- The width of a repetition. -/
def repeatedWidth (least : Nat) (most : Option Nat) (w : Width) : Width :=
  (w.1 * least, match most with
    | some most => w.2 * most
    | none => if w.2 == 0 then 0 else maxWidth)

mutual

/-- The width of one piece, given the widths of the groups that are closed. -/
def Node.width (groups : List (Option Width)) : Node → Width
  | .literal _ => (1, 1)
  | .notLiteral _ => (1, 1)
  | .any => (1, 1)
  | .set _ _ => (1, 1)
  | .anchor _ => (0, 0)
  | .group _ _ _ body => capWidth (sequenceWidth groups body)
  | .atomic body => capWidth (sequenceWidth groups body)
  | .repetition _ least most body =>
    repeatedWidth least most (capWidth (sequenceWidth groups body))
  | .branch alternatives => branchWidth groups alternatives
  | .reference n => ((groups[n]?).getD none).getD (0, 0)
  | .condition _ yes no =>
    let y := capWidth (sequenceWidth groups yes)
    let n := capWidth (sequenceWidth groups no)
    (min y.1 n.1, max y.2 n.2)
  | .look _ _ _ => (0, 0)

/-- The width of pieces in a row. -/
def sequenceWidth (groups : List (Option Width)) : List Node → Width
  | [] => (0, 0)
  | node :: rest =>
    let a := node.width groups
    let b := sequenceWidth groups rest
    (a.1 + b.1, a.2 + b.2)

/-- The width of a choice. -/
def branchWidth (groups : List (Option Width)) : List (List Node) → Width
  | [] => (maxWidth, 0)
  | body :: rest =>
    let a := capWidth (sequenceWidth groups body)
    let b := branchWidth groups rest
    (min a.1 b.1, max a.2 b.2)

end

end StyleSieve.Pattern
