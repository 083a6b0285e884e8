import StyleSieve.Css.Written
import StyleSieve.Text.Blank
import StyleSieve.Text.Case

/-!
# Style sheets

What a style sheet is made of, as far as the inclusion of rules goes: style rules with their
selectors, at-rules whose block holds rules of its own, and everything else as text. `read`
reads a style sheet, `Node.text` writes it back. Rules that lack a block are dropped; `read`
tells where.
-/

namespace StyleSieve

open Text

variable [Surrogates]

/-- A style rule. -/
structure StyleRule where
  /-- The selector list as it stands. -/
  prelude : String
  /-- The selectors of the list, trimmed. -/
  selectors : List String
  /-- Everything between the braces. -/
  block : String
  deriving DecidableEq

namespace StyleRule

/-- The rule with only the given selectors. Keeping all of them keeps the rule as it stands. -/
def withSelectors (rule : StyleRule) (selectors : List String) : StyleRule :=
  if selectors == rule.selectors then rule
  else ⟨String.intercalate ", " selectors, selectors, rule.block⟩

/-- The text of a rule. -/
def text (rule : StyleRule) : String := rule.prelude ++ "\x7b" ++ rule.block ++ "\x7d"

end StyleRule

/-- A node of a style sheet. -/
inductive Node where
  /-- Blanks and comments. -/
  | verbatim (text : String)
  | style (rule : StyleRule)
  /-- An at-rule that ends in a semicolon or whose block is kept as text. -/
  | statement (keyword prelude : String) (block : Option String)
  /-- An at-rule whose block holds rules. -/
  | group (keyword prelude : String) (children : List Node)

namespace Node

mutual

/-- The text of a node. -/
def text : Node → String
  | .verbatim t => t
  | .style rule => rule.text
  | .statement keyword prelude none => "@" ++ keyword ++ prelude ++ ";"
  | .statement keyword prelude (some block) =>
    "@" ++ keyword ++ prelude ++ "\x7b" ++ block ++ "\x7d"
  | .group keyword prelude children =>
    "@" ++ keyword ++ prelude ++ "\x7b" ++ textAll children ++ "\x7d"

/-- The text of nodes in a row. -/
def textAll : List Node → String
  | [] => ""
  | node :: rest => node.text ++ textAll rest

end

/-- Whether a node is a comment. -/
def isComment : Node → Bool
  | verbatim t => t.startsWith "/*"
  | _ => false

/-- Whether a node is a rule of either kind. -/
def isRule : Node → Bool
  | verbatim _ => false
  | _ => true

end Node

namespace Stylesheet

open Css

/-- At-rules whose block holds style rules that are purged one by one. -/
def groupKeywords : List String :=
  ["media", "supports", "layer", "container", "document", "-moz-document", "scope"]

/-- Whether a keyword names an at-rule that holds rules. -/
def isGroupKeyword (keyword : List Char) : Bool :=
  groupKeywords.contains (String.ofList (keyword.map lowerAscii))

/-- Cuts components at the commas of the outermost level. -/
def splitAtCommas (current : List Component) : List Component → List (List Component)
  | [] => [current.reverse]
  | c :: rest =>
    if c.edge == .sign [','] then current.reverse :: splitAtCommas [] rest
    else splitAtCommas (c :: current) rest

/-- The selectors of a list: its parts between commas, trimmed, without the empty ones. -/
def splitSelectors (prelude : List Component) : List String :=
  ((splitAtCommas [] prelude).map fun part => trim (written part)).filter fun s => !s.isEmpty

/-- The rule with the given prelude and block content. -/
def styleRule (prelude content : List Component) : StyleRule :=
  ⟨written prelude, splitSelectors prelude, written content⟩

/-- A rule whose block has not come yet, with its prelude in reverse. -/
inductive Pending where
  | none
  | atRule (keyword : List Char) (prelude : List Component)
  | style (prelude : List Component)

/-- Nodes, and the lines of the rules that were dropped. -/
structure Reading where
  nodes : List Node
  dropped : List Nat

/-- A reading with one more node in front. -/
def Reading.push (node : Node) (r : Reading) : Reading := ⟨node :: r.nodes, r.dropped⟩

/-- An at-rule without a block. -/
def openStatement (keyword : List Char) (prelude : List Component) : Node :=
  .statement (String.ofList keyword) (written prelude.reverse) none

/-- The mark that a lexeme is between rules on the outermost level only: the signs that once
hid a style sheet from readers of markup. -/
def isMarkupSign (l : Lexeme) : Bool :=
  l == .sign ['<', '!', '-', '-'] || l == .sign ['-', '-', '>']

/-- What is read when components end before a rule is complete. An at-rule is complete then, a
style rule is dropped. -/
def Pending.atEnd : Pending → Reading
  | .none => ⟨[], []⟩
  | .atRule keyword prelude => ⟨[openStatement keyword prelude], []⟩
  | .style prelude => ⟨[], (prelude.head?.map Component.line).toList⟩

mutual

/-- Gathers the content of a block. -/
def gatherInside : Component → Reading
  | .lexeme _ _ => ⟨[], []⟩
  | .function _ _ _ => ⟨[], []⟩
  | .block _ _ content => gather false .none content

/-- Gathers components into nodes; `outermost` tells whether they stand in no block. A rule is
complete with its block, an at-rule also with a semicolon. -/
def gather (outermost : Bool) (pending : Pending) : List Component → Reading
  | [] => pending.atEnd
  | c :: rest =>
    match pending, c with
    | .atRule keyword prelude, .block _ .curly content =>
      let after := gather outermost .none rest
      if isGroupKeyword keyword then
        let inner := gatherInside c
        ⟨.group (String.ofList keyword) (written prelude.reverse) inner.nodes :: after.nodes,
          inner.dropped ++ after.dropped⟩
      else
        after.push (.statement (String.ofList keyword) (written prelude.reverse)
          (some (written content)))
    | .style prelude, .block _ .curly content =>
      (gather outermost .none rest).push (.style (styleRule prelude.reverse content))
    | .none, .block _ .curly content =>
      (gather outermost .none rest).push (.style (styleRule [] content))
    | .atRule keyword prelude, c =>
      if c.edge == .sign [';'] then
        (gather outermost .none rest).push (openStatement keyword prelude)
      else gather outermost (.atRule keyword (c :: prelude)) rest
    | .style prelude, c => gather outermost (.style (c :: prelude)) rest
    | .none, .lexeme _ (.blank text) =>
      (gather outermost .none rest).push (.verbatim (String.ofList text))
    | .none, .lexeme _ (.comment text) =>
      (gather outermost .none rest).push
        (.verbatim (String.ofList (Lexeme.comment text).written))
    | .none, .lexeme _ (.atName keyword) => gather outermost (.atRule keyword []) rest
    | .none, .lexeme _ l =>
      if outermost && isMarkupSign l then gather outermost .none rest
      else gather outermost (.style [c]) rest
    | .none, c => gather outermost (.style [c]) rest

end

/-- Reads a style sheet. -/
def read (source : String) : Reading := gather true .none (components source)

/-- The message about a rule that was dropped. -/
def droppedMessage (line : Nat) : String :=
  "Dropping unparseable CSS at line " ++ toString line ++
    ": EOF reached before \x7b\x7d block for a qualified rule."

end Stylesheet

end StyleSieve
