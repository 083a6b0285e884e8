import StyleSieve.Pattern.Matcher

/-!
# Safelists

Names and selectors that stay whatever the content says. A safelist has five parts; the
standard one holds texts and patterns for names and whole selectors, the greedy and the deep
one hold patterns for whole selectors. Every build extends the safelist of its user by a
baseline in front and by the selectors found in the code behind.
-/

namespace StyleSieve

/-- The pattern of a text without special characters, which finds just that text. -/
def Pattern.plain (text : String) : Pattern :=
  ⟨text, {}, text.toList.map fun c => .literal c.toNat, [none]⟩

/-- An entry of a safelist or a blocklist. -/
inductive Entry where
  | literal (text : String)
  | pattern (pattern : Pattern)

namespace Entry

/-- Whether an entry speaks of a value: a text of the same value only, a pattern of every value
that it occurs in. -/
def covers (value : String) : Entry → Bool
  | literal text => text == value
  | pattern p => p.search value

end Entry

/-- Selectors that are never removed. -/
structure Safelist where
  /-- Entries for single names and for whole selectors. -/
  standard : List Entry := []
  /-- Patterns for whole selectors. -/
  greedy : List Pattern := []
  /-- Patterns for whole selectors and what is nested under them. -/
  deep : List Pattern := []
  /-- Animations to keep. -/
  keyframes : List Entry := []
  /-- Custom properties to keep. -/
  «variables» : List Entry := []

namespace Safelist

/-- Finds values that are a pseudo class function without its arguments, which tools write as a
selector of its own. -/
def loneFunction : Pattern where
  source := "^:[-a-z]+$"
  flags := {}
  nodes := [.anchor .start, .literal 58,
    .repetition .greedy 1 none [.set false [.literal 45, .range 97 122]], .anchor .finish]
  widths := [none]

/-- The standard entries that every build has. -/
def baselineStandard : List Entry :=
  [.literal "*", .literal "html", .literal "body", .pattern (.plain "aria-current"),
    .pattern (.plain "svelte-"), .pattern loneFunction]

/-- The greedy patterns that every build has. -/
def baselineGreedy : List Pattern := [.plain "svelte-"]

/-- The safelist of a build: baseline, user entries and discovered selectors, in this order. -/
def extended (user : Safelist) (selectors : List String) : Safelist where
  standard := baselineStandard ++ user.standard ++ selectors.map .literal
  greedy := baselineGreedy ++ user.greedy
  deep := user.deep
  keyframes := user.keyframes
  «variables» := user.variables

end Safelist

/-- Whether some entry speaks of a value. -/
def anyCovers (entries : List Entry) (value : String) : Bool := entries.any fun e => e.covers value

end StyleSieve
