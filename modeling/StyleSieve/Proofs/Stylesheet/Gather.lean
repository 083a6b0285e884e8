import StyleSieve.Proofs.Css.Nest
import StyleSieve.Stylesheet

/-!
# Gathering nodes

What is gathered from components, piece by piece: the components of a node give that node, and
what follows is gathered by itself. The nodes do not depend on lines.

* `gather_style`, `gather_semicolon`, `nodes_gather_statement`, `nodes_gather_group`: the node of
  a rule.
* `nodes_read`: the nodes of a text come from its lexemes alone.
-/

namespace StyleSieve.Stylesheet

open Css

variable {outermost : Bool} {rest content : List Component} {n m : Nat}

@[simp] theorem nodes_push (node : Node) (r : Reading) :
    (r.push node).nodes = node :: r.nodes := rfl

/-! ## One component -/

/-- A block in curly brackets. -/
def isCurly : Component → Bool
  | .block _ .curly _ => true
  | _ => false

/-- A lexeme that stands between rules or starts an at-rule. -/
def isOutside : Lexeme → Bool
  | .blank _ => true
  | .comment _ => true
  | .atName _ => true
  | _ => false

theorem exists_of_isCurly {c : Component} (h : isCurly c = true) :
    ∃ line content, c = .block line .curly content := by
  cases c with
  | block line bracket content =>
    cases bracket with
    | curly => exact ⟨line, content, rfl⟩
    | _ => cases h
  | _ => cases h

theorem gather_blank (text : List Char) :
    gather outermost .none (.lexeme n (.blank text) :: rest) =
      (gather outermost .none rest).push (.verbatim (String.ofList text)) := rfl

theorem gather_comment (text : List Char) :
    gather outermost .none (.lexeme n (.comment text) :: rest) =
      (gather outermost .none rest).push
        (.verbatim (String.ofList (Lexeme.comment text).written)) := rfl

theorem gather_keyword (keyword : List Char) :
    gather outermost .none (.lexeme n (.atName keyword) :: rest) =
      gather outermost (.atRule keyword []) rest := rfl

theorem gather_lexeme {l : Lexeme} (h : isOutside l = false) :
    gather outermost .none (.lexeme n l :: rest) =
      if outermost && isMarkupSign l then gather outermost .none rest
      else gather outermost (.style [.lexeme n l]) rest := by
  cases l <;> first | rfl | cases h

theorem gather_function (name : List Char) (arguments : List Component) :
    gather outermost .none (.function n name arguments :: rest) =
      gather outermost (.style [.function n name arguments]) rest := rfl

theorem gather_block {bracket : Bracket} (h : bracket ≠ .curly) :
    gather outermost .none (.block n bracket content :: rest) =
      gather outermost (.style [.block n bracket content]) rest := by
  cases bracket with
  | curly => exact absurd rfl h
  | _ => rfl

theorem gather_curly :
    gather outermost .none (.block n .curly content :: rest) =
      (gather outermost .none rest).push (.style (styleRule [] content)) := rfl

theorem gather_style_curly (prelude : List Component) :
    gather outermost (.style prelude) (.block n .curly content :: rest) =
      (gather outermost .none rest).push (.style (styleRule prelude.reverse content)) := rfl

theorem nodes_gather_atRule_curly (keyword : List Char) (prelude : List Component) :
    (gather outermost (.atRule keyword prelude) (.block n .curly content :: rest)).nodes =
      (if isGroupKeyword keyword then
          .group (String.ofList keyword) (written prelude.reverse)
            (gather false .none content).nodes
        else
          .statement (String.ofList keyword) (written prelude.reverse)
            (some (written content))) ::
        (gather outermost .none rest).nodes := by
  change Reading.nodes (if isGroupKeyword keyword then _ else _) = _
  cases isGroupKeyword keyword <;> rfl

section Inside

variable {c : Component} (hCurly : isCurly c = false)
include hCurly

theorem gather_style_cons {prelude : List Component} :
    gather outermost (.style prelude) (c :: rest) =
      gather outermost (.style (c :: prelude)) rest := by
  cases c with
  | block line bracket inner => cases bracket <;> first | rfl | cases hCurly
  | _ => rfl

theorem gather_atRule_cons {keyword : List Char} {prelude : List Component} :
    gather outermost (.atRule keyword prelude) (c :: rest) =
      if c.edge == .sign [';'] then
        (gather outermost .none rest).push (openStatement keyword prelude)
      else gather outermost (.atRule keyword (c :: prelude)) rest := by
  cases c with
  | block line bracket inner => cases bracket <;> first | rfl | cases hCurly
  | _ => rfl

end Inside

/-! ## Rules -/

/-- Whether a style rule starts with these components wherever rules may stand. -/
def startsRule : List Component → Bool
  | .lexeme _ l :: _ => !isOutside l && !isMarkupSign l
  | _ => true

theorem gather_pending_style {prelude cs : List Component} (h : ∀ c ∈ cs, isCurly c = false) :
    gather outermost (.style prelude) (cs ++ .block n .curly content :: rest) =
      (gather outermost .none rest).push (.style (styleRule (prelude.reverse ++ cs) content)) := by
  induction cs generalizing prelude with
  | nil => rw [List.nil_append, gather_style_curly, List.append_nil]
  | cons c cs ih =>
    have hCurly : isCurly c = false := h c List.mem_cons_self
    rw [List.cons_append, gather_style_cons hCurly, ih fun d hd => h d (List.mem_cons_of_mem c hd),
      List.reverse_cons, List.append_assoc]
    rfl

theorem gather_startsRule {c : Component} {cs : List Component}
    (hStart : startsRule (c :: cs) = true) (hCurly : isCurly c = false) :
    gather outermost .none (c :: rest) = gather outermost (.style [c]) rest := by
  cases c with
  | lexeme line l =>
    obtain ⟨hOutside, hMarkup⟩ : isOutside l = false ∧ isMarkupSign l = false := by
      simpa [startsRule] using hStart
    rw [gather_lexeme hOutside, hMarkup, Bool.and_false, if_neg Bool.false_ne_true]
  | function line name arguments => exact gather_function name arguments
  | block line bracket inner =>
    refine gather_block ?_
    rintro rfl
    cases hCurly

/-- A prelude and a block are a style rule. -/
theorem gather_style {cs : List Component} (hStart : startsRule cs = true)
    (hCurly : ∀ c ∈ cs, isCurly c = false) :
    gather outermost .none (cs ++ .block n .curly content :: rest) =
      (gather outermost .none rest).push (.style (styleRule cs content)) := by
  cases cs with
  | nil => exact gather_curly
  | cons c cs =>
    rw [List.cons_append, gather_startsRule hStart (hCurly c List.mem_cons_self),
      gather_pending_style fun d hd => hCurly d (List.mem_cons_of_mem c hd)]
    rfl

/-- What may stand in the prelude of an at-rule. -/
def isInAtRule (c : Component) : Bool := !isCurly c && c.edge != .sign [';']

theorem gather_pending_atRule {keyword : List Char} {prelude cs : List Component}
    (h : ∀ c ∈ cs, isInAtRule c = true) :
    gather outermost (.atRule keyword prelude) (cs ++ rest) =
      gather outermost (.atRule keyword (cs.reverse ++ prelude)) rest := by
  induction cs generalizing prelude with
  | nil => rfl
  | cons c cs ih =>
    obtain ⟨hCurly, hEnd⟩ : isCurly c = false ∧ c.edge ≠ .sign [';'] := by
      simpa [isInAtRule] using h c List.mem_cons_self
    rw [List.cons_append, gather_atRule_cons hCurly, if_neg (by simpa using hEnd),
      ih fun d hd => h d (List.mem_cons_of_mem c hd), List.reverse_cons, List.append_assoc]
    rfl

variable {keyword : List Char} {cs : List Component}

theorem gather_atName (h : ∀ c ∈ cs, isInAtRule c = true) :
    gather outermost .none (.lexeme m (.atName keyword) :: cs ++ rest) =
      gather outermost (.atRule keyword cs.reverse) rest := by
  rw [List.cons_append, gather_keyword, gather_pending_atRule h, List.append_nil]

/-- An at-rule ends with a semicolon. -/
theorem gather_semicolon (h : ∀ c ∈ cs, isInAtRule c = true) :
    gather outermost .none
        (.lexeme m (.atName keyword) :: cs ++ .lexeme n (.sign [';']) :: rest) =
      (gather outermost .none rest).push
        (.statement (String.ofList keyword) (written cs) none) := by
  rw [gather_atName h, gather_atRule_cons rfl, if_pos (by rfl), openStatement, List.reverse_reverse]

/-- An at-rule that does not hold rules ends with a block. -/
theorem nodes_gather_statement (h : ∀ c ∈ cs, isInAtRule c = true)
    (hKeyword : isGroupKeyword keyword = false) :
    (gather outermost .none
        (.lexeme m (.atName keyword) :: cs ++ .block n .curly content :: rest)).nodes =
      .statement (String.ofList keyword) (written cs) (some (written content)) ::
        (gather outermost .none rest).nodes := by
  rw [gather_atName h, nodes_gather_atRule_curly, hKeyword, if_neg Bool.false_ne_true,
    List.reverse_reverse]

/-- An at-rule that holds rules ends with the block that holds them. -/
theorem nodes_gather_group (h : ∀ c ∈ cs, isInAtRule c = true)
    (hKeyword : isGroupKeyword keyword = true) :
    (gather outermost .none
        (.lexeme m (.atName keyword) :: cs ++ .block n .curly content :: rest)).nodes =
      .group (String.ofList keyword) (written cs) (gather false .none content).nodes ::
        (gather outermost .none rest).nodes := by
  rw [gather_atName h, nodes_gather_atRule_curly, hKeyword, if_pos rfl, List.reverse_reverse]

/-! ## Lines -/

/-- A pending rule with all lines set to zero. -/
def Pending.unplaced : Pending → Pending
  | .none => .none
  | .atRule keyword prelude => .atRule keyword (unplacedAll prelude)
  | .style prelude => .style (unplacedAll prelude)

theorem written_unplacedAll (cs : List Component) : written (unplacedAll cs) = written cs := by
  rw [written, writtenAfter_unplacedAll, written]

theorem unplacedAll_reverse (cs : List Component) :
    unplacedAll cs.reverse = (unplacedAll cs).reverse := by
  rw [unplacedAll_eq_map, unplacedAll_eq_map, List.map_reverse]

theorem splitAtCommas_unplacedAll (current cs : List Component) :
    splitAtCommas (unplacedAll current) (unplacedAll cs) =
      (splitAtCommas current cs).map unplacedAll := by
  induction cs generalizing current with
  | nil => rw [unplacedAll, splitAtCommas, splitAtCommas, ← unplacedAll_reverse]; rfl
  | cons c rest ih =>
    rw [unplacedAll, splitAtCommas, splitAtCommas, edge_unplaced]
    split
    · rw [← unplacedAll_reverse, List.map_cons, ← ih]
      rfl
    · exact ih (c :: current)

theorem splitSelectors_unplacedAll (cs : List Component) :
    splitSelectors (unplacedAll cs) = splitSelectors cs := by
  have hSplit := splitAtCommas_unplacedAll [] cs
  rw [unplacedAll] at hSplit
  rw [splitSelectors, splitSelectors, hSplit, List.map_map]
  congr 2
  funext part
  exact congrArg Text.trim (written_unplacedAll part)

theorem styleRule_unplacedAll (prelude content : List Component) :
    styleRule (unplacedAll prelude) (unplacedAll content) = styleRule prelude content := by
  rw [styleRule, styleRule, written_unplacedAll, written_unplacedAll, splitSelectors_unplacedAll]

theorem openStatement_unplacedAll (keyword : List Char) (prelude : List Component) :
    openStatement keyword (unplacedAll prelude) = openStatement keyword prelude := by
  rw [openStatement, ← unplacedAll_reverse, written_unplacedAll]
  rfl

theorem nodes_atEnd_unplaced (p : Pending) : p.unplaced.atEnd.nodes = p.atEnd.nodes := by
  cases p with
  | atRule keyword prelude => exact congrArg ([·]) (openStatement_unplacedAll keyword prelude)
  | _ => rfl

theorem isCurly_unplaced (c : Component) : isCurly c.unplaced = isCurly c := by
  cases c with
  | block line bracket content => cases bracket <;> rfl
  | _ => rfl

section Behind

variable (hRest : ∀ p : Pending,
  (gather outermost p.unplaced (unplacedAll rest)).nodes = (gather outermost p rest).nodes)
include hRest

theorem nodes_gather_curly_unplaced (p : Pending)
    (hContent : (gather false .none (unplacedAll content)).nodes =
      (gather false .none content).nodes) :
    (gather outermost p.unplaced (.block 0 .curly (unplacedAll content) :: unplacedAll rest)).nodes =
      (gather outermost p (.block n .curly content :: rest)).nodes := by
  have hNone : (gather outermost .none (unplacedAll rest)).nodes =
      (gather outermost .none rest).nodes := hRest .none
  cases p with
  | none =>
    have hRule : styleRule [] (unplacedAll content) = styleRule [] content :=
      styleRule_unplacedAll [] content
    rw [Pending.unplaced, gather_curly, gather_curly, nodes_push, nodes_push, hRule, hNone]
  | style prelude =>
    rw [Pending.unplaced, gather_style_curly, gather_style_curly, nodes_push, nodes_push,
      ← unplacedAll_reverse, styleRule_unplacedAll, hNone]
  | atRule keyword prelude =>
    rw [Pending.unplaced, nodes_gather_atRule_curly, nodes_gather_atRule_curly,
      ← unplacedAll_reverse, written_unplacedAll, written_unplacedAll, hContent, hNone]

/-- Outside of rules a component is a node of its own or starts a rule. -/
theorem nodes_gather_outside_unplaced {c : Component} (hCurly : isCurly c = false) :
    (gather outermost .none (c.unplaced :: unplacedAll rest)).nodes =
      (gather outermost .none (c :: rest)).nodes := by
  have hNone : (gather outermost .none (unplacedAll rest)).nodes =
      (gather outermost .none rest).nodes := hRest .none
  have hStarted := hRest (.style [c])
  cases c with
  | lexeme line l =>
    rw [Component.unplaced]
    cases hOutside : isOutside l with
    | false =>
      rw [gather_lexeme hOutside, gather_lexeme hOutside]
      split
      · exact hNone
      · exact hStarted
    | true =>
      cases l with
      | blank text => rw [gather_blank, gather_blank, nodes_push, nodes_push, hNone]
      | comment text => rw [gather_comment, gather_comment, nodes_push, nodes_push, hNone]
      | atName keyword =>
        rw [gather_keyword, gather_keyword]
        exact hRest (.atRule keyword [])
      | _ => cases hOutside
  | function line name arguments =>
    rw [Component.unplaced, gather_function, gather_function]
    exact hStarted
  | block line bracket content =>
    have hBracket : bracket ≠ .curly := by
      rintro rfl
      cases hCurly
    rw [Component.unplaced, gather_block hBracket, gather_block hBracket]
    exact hStarted

end Behind

mutual

theorem nodes_gatherInside_unplaced : (c : Component) →
    (gatherInside c.unplaced).nodes = (gatherInside c).nodes
  | .lexeme _ _ => rfl
  | .function .. => rfl
  | .block _ _ content => nodes_gather_unplacedAll false .none content

theorem nodes_gather_unplacedAll (outermost : Bool) : (p : Pending) → (cs : List Component) →
    (gather outermost p.unplaced (unplacedAll cs)).nodes = (gather outermost p cs).nodes
  | p, [] => nodes_atEnd_unplaced p
  | p, c :: rest => by
    have hRest := fun q => nodes_gather_unplacedAll outermost q rest
    have hInside := nodes_gatherInside_unplaced c
    rw [unplacedAll]
    cases hCurly : isCurly c with
    | true =>
      obtain ⟨line, content, rfl⟩ := exists_of_isCurly hCurly
      exact nodes_gather_curly_unplaced hRest p hInside
    | false =>
      have hCurly' : isCurly c.unplaced = false := (isCurly_unplaced c).trans hCurly
      cases p with
      | none => exact nodes_gather_outside_unplaced hRest hCurly
      | style prelude =>
        rw [Pending.unplaced, gather_style_cons hCurly', gather_style_cons hCurly]
        exact hRest (.style (c :: prelude))
      | atRule keyword prelude =>
        rw [Pending.unplaced, gather_atRule_cons hCurly', gather_atRule_cons hCurly, edge_unplaced]
        split
        · rw [nodes_push, nodes_push, openStatement_unplacedAll]
          exact congrArg (_ :: ·) (hRest .none)
        · exact hRest (.atRule keyword (c :: prelude))

end

/-- The nodes of a text come from its lexemes alone. -/
theorem nodes_read [Surrogates] (source : String) :
    (read source).nodes =
      (gather true .none (formed (lexemes (normalize source.toList)))).nodes := by
  rw [read, ← unplacedAll_components]
  exact (nodes_gather_unplacedAll true .none (components source)).symm

end StyleSieve.Stylesheet
