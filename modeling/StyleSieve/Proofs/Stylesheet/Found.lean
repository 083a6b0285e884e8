import StyleSieve.Proofs.Css.Grown
import StyleSieve.Proofs.Stylesheet.Gather

/-!
# Style rules with their components

* `foundIn`: the style rules of a text with the components of their preludes and blocks, also inside of
  at-rules.
* `styleRulesAll_read`: they are the style rules that are read.
* `stands_of_mem_foundIn`: where the lexemes of such a rule stand in the text.
-/

namespace StyleSieve

open Css

namespace Stylesheet

/-- A style rule as it was found: the components of its prelude and of its block. -/
structure FoundRule where
  prelude : List Component
  content : List Component

/-- The style rule that was found. -/
def FoundRule.rule (f : FoundRule) : StyleRule := styleRule f.prelude f.content

namespace Pending

/-- What is pending behind a component that is no block of a rule. -/
def next (outermost : Bool) : Pending → Component → Pending
  | .atRule keyword prelude, c =>
    if c.edge == .sign [';'] then .none else .atRule keyword (c :: prelude)
  | .style prelude, c => .style (c :: prelude)
  | .none, .lexeme _ (.blank _) => .none
  | .none, .lexeme _ (.comment _) => .none
  | .none, .lexeme _ (.atName keyword) => .atRule keyword []
  | .none, .lexeme n l => if outermost && isMarkupSign l then .none else .style [.lexeme n l]
  | .none, c => .style [c]

/-- The prelude of a pending style rule. -/
def styled : Pending → List Component
  | .style prelude => prelude.reverse
  | _ => []

/-- The style rules that are complete with a block; `inside` are those in the block. -/
def rules (p : Pending) (content : List Component) (inside : List FoundRule) : List FoundRule :=
  match p with
  | .atRule keyword _ => if isGroupKeyword keyword then inside else []
  | p => [⟨p.styled, content⟩]

end Pending

mutual

/-- The style rules that a component completes: none unless it is a block of a rule. -/
def foundAt (p : Pending) : Component → List FoundRule
  | .block _ .curly content => p.rules content (found false .none content)
  | _ => []

/-- The style rules that are found in components, also inside of at-rules. -/
def found (outermost : Bool) (p : Pending) : List Component → List FoundRule
  | [] => []
  | c :: rest =>
    foundAt p c ++ found outermost (if isCurly c then .none else p.next outermost c) rest

end

/-- The style rules of a text, also those inside of at-rules. -/
def foundIn [Surrogates] (source : String) : List FoundRule := found true .none (components source)

mutual

/-- The style rules of a node, also those inside of at-rules. -/
def styleRules : Node → List StyleRule
  | .verbatim _ => []
  | .style rule => [rule]
  | .statement _ _ _ => []
  | .group _ _ children => styleRulesAll children

/-- The style rules of nodes, also those inside of at-rules. -/
def styleRulesAll : List Node → List StyleRule
  | [] => []
  | node :: rest => styleRules node ++ styleRulesAll rest

end

/-! ## The rules that are read -/

variable {outermost : Bool} {p : Pending} {c : Component} {rest content : List Component} {f : FoundRule}

theorem next_lexeme (n : Nat) {l : Lexeme} (h : isOutside l = false) :
    Pending.none.next outermost (.lexeme n l) =
      if outermost && isMarkupSign l then .none else .style [.lexeme n l] := by
  cases l <;> first | rfl | cases h

theorem styleRulesAll_gather_next (hCurly : isCurly c = false) :
    styleRulesAll (gather outermost p (c :: rest)).nodes =
      styleRulesAll (gather outermost (p.next outermost c) rest).nodes := by
  cases p with
  | style prelude =>
    rw [gather_style_cons hCurly]
    rfl
  | atRule keyword prelude =>
    rw [gather_atRule_cons hCurly, Pending.next]
    split <;> rfl
  | none =>
    cases c with
    | lexeme n l =>
      cases hOutside : isOutside l with
      | false =>
        rw [gather_lexeme hOutside, next_lexeme n hOutside]
        split <;> rfl
      | true =>
        cases l with
        | blank text =>
          rw [gather_blank]
          rfl
        | comment text =>
          rw [gather_comment]
          rfl
        | atName keyword =>
          rw [gather_keyword]
          rfl
        | _ => cases hOutside
    | function n name arguments =>
      rw [gather_function]
      rfl
    | block n bracket content =>
      have hBracket : bracket ≠ .curly := by
        rintro rfl
        cases hCurly
      rw [gather_block hBracket]
      rfl

/-- A block completes the rule that is pending. -/
theorem styleRulesAll_gather_curly {n : Nat} :
    styleRulesAll (gather outermost p (.block n .curly content :: rest)).nodes =
      (match p with
        | .atRule keyword _ =>
          if isGroupKeyword keyword then styleRulesAll (gather false .none content).nodes else []
        | p => [styleRule p.styled content]) ++
        styleRulesAll (gather outermost .none rest).nodes := by
  cases p with
  | style prelude => rfl
  | none => rfl
  | atRule keyword prelude =>
    rw [nodes_gather_atRule_curly, styleRulesAll]
    dsimp only
    cases isGroupKeyword keyword <;> rfl

theorem foundAt_of_not_isCurly (hCurly : isCurly c = false) : foundAt p c = [] := by
  cases c with
  | block line bracket content => cases bracket <;> first | rfl | cases hCurly
  | _ => rfl

mutual

theorem styleRules_gather_block (outermost : Bool) (p : Pending) (rest : List Component) : (c : Component) →
    isCurly c = true → styleRulesAll (gather outermost p (c :: rest)).nodes =
      (foundAt p c).map FoundRule.rule ++ styleRulesAll (gather outermost .none rest).nodes
  | .lexeme _ _, h => nomatch h
  | .function .., h => nomatch h
  | .block line bracket content, h => by
    obtain rfl : bracket = .curly := by cases bracket <;> first | rfl | cases h
    have hInside := styleRulesAll_gather false .none content
    rw [styleRulesAll_gather_curly, hInside, foundAt]
    cases p with
    | atRule keyword prelude =>
      rw [Pending.rules]
      dsimp only
      cases isGroupKeyword keyword <;> rfl
    | _ => rfl

/-- The style rules that are gathered are the ones that are found. -/
theorem styleRulesAll_gather (outermost : Bool) (p : Pending) : (cs : List Component) →
    styleRulesAll (gather outermost p cs).nodes = (found outermost p cs).map FoundRule.rule
  | [] => by cases p <;> rfl
  | c :: rest => by
    cases hCurly : isCurly c with
    | true =>
      rw [styleRules_gather_block outermost p rest c hCurly, styleRulesAll_gather outermost .none rest,
        found, hCurly, if_pos rfl, List.map_append]
    | false =>
      rw [styleRulesAll_gather_next hCurly, styleRulesAll_gather outermost _ rest, found, hCurly,
        if_neg Bool.false_ne_true, foundAt_of_not_isCurly hCurly, List.nil_append]

end

/-- The style rules that are read are the ones that are found. -/
theorem styleRulesAll_read [Surrogates] (source : String) :
    styleRulesAll (read source).nodes = (foundIn source).map FoundRule.rule :=
  styleRulesAll_gather true .none (components source)

/-! ## Where the rules stand -/

/-- The components of a found rule are whole, and their lexemes stand in a row. -/
structure FoundRule.Stands (f : FoundRule) (ls : List Lexeme) : Prop where
  prelude : allWhole f.prelude = true
  content : allWhole f.content = true
  flat : ∀ c ∈ f.prelude, isCurly c = false
  row : flatAll f.prelude ++ .opening '{' :: (flatAll f.content ++ [.closing '}']) <:+: ls

theorem FoundRule.Stands.mono {ls ls' : List Lexeme} (h : f.Stands ls) (hRow : ls <:+: ls') :
    f.Stands ls' :=
  ⟨h.prelude, h.content, h.flat, h.row.trans hRow⟩

/-- What is pending is whole and ends in no block of a rule. -/
structure Pending.IsFlat (p : Pending) : Prop where
  whole : allWhole p.styled = true
  flat : ∀ c ∈ p.styled, isCurly c = false

theorem isFlat_none : Pending.none.IsFlat := ⟨rfl, nofun⟩

theorem styled_next (outermost : Bool) (p : Pending) (c : Component) :
    (p.next outermost c).styled = [] ∨ (p.next outermost c).styled = p.styled ++ [c] := by
  cases p with
  | style prelude => exact Or.inr List.reverse_cons
  | atRule keyword prelude =>
    rw [Pending.next]
    split <;> exact Or.inl rfl
  | none =>
    cases c with
    | lexeme n l =>
      cases hOutside : isOutside l with
      | false =>
        rw [next_lexeme n hOutside]
        split
        · exact Or.inl rfl
        · exact Or.inr rfl
      | true => cases l <;> first | exact Or.inl rfl | cases hOutside
    | _ => exact Or.inr rfl

theorem Pending.IsFlat.next (h : p.IsFlat) (hWhole : c.isWhole = true) (hCurly : isCurly c = false) :
    (p.next outermost c).IsFlat := by
  rcases styled_next outermost p c with hNone | hNext
  · exact ⟨by rw [hNone]; rfl, by rw [hNone]; nofun⟩
  · constructor
    · rw [hNext, allWhole_append, h.whole, allWhole, hWhole]
      rfl
    · rw [hNext]
      intro d hd
      rcases List.mem_append.mp hd with hd | hd
      · exact h.flat d hd
      · rw [List.mem_singleton.mp hd, hCurly]

mutual

theorem stands_of_mem_foundAt (p : Pending) (hp : p.IsFlat) : (c : Component) → c.isWhole = true →
    f ∈ foundAt p c → f.Stands (flatAll p.styled ++ c.flat)
  | .lexeme _ _, _, hf => nomatch hf
  | .function .., _, hf => nomatch hf
  | .block _ .square _, _, hf => nomatch hf
  | .block _ .round _, _, hf => nomatch hf
  | .block _ .curly content, hWhole, hf => by
    have hRule : f = ⟨p.styled, content⟩ →
        f.Stands (flatAll p.styled ++ (Component.block 0 .curly content).flat) := by
      rintro rfl
      exact ⟨hp.whole, hWhole, hp.flat, List.infix_refl _⟩
    have hInside : f ∈ found false .none content →
        f.Stands (flatAll p.styled ++ (Component.block 0 .curly content).flat) := by
      intro hf
      refine (stands_of_mem_found false .none isFlat_none content hWhole hf).mono ?_
      exact ⟨flatAll p.styled ++ [.opening '{'], [.closing '}'], by
        simp [Component.flat, flatAll, Pending.styled, Bracket.signs]⟩
    rw [foundAt] at hf
    cases p with
    | atRule keyword prelude =>
      rw [Pending.rules] at hf
      split at hf
      · exact hInside hf
      · cases hf
    | _ => exact hRule (List.mem_singleton.mp hf)

/-- The lexemes of a rule stand where the rule was found. -/
theorem stands_of_mem_found (outermost : Bool) (p : Pending) (hp : p.IsFlat) : (cs : List Component) →
    allWhole cs = true → f ∈ found outermost p cs → f.Stands (flatAll p.styled ++ flatAll cs)
  | [], _, hf => nomatch hf
  | c :: rest, hWhole, hf => by
    rw [allWhole, Bool.and_eq_true] at hWhole
    rw [found, List.mem_append] at hf
    rw [flatAll, ← List.append_assoc]
    rcases hf with hf | hf
    · exact (stands_of_mem_foundAt p hp c hWhole.1 hf).mono (List.infix_append' [] _ _)
    · cases hCurly : isCurly c with
      | true =>
        rw [hCurly, if_pos rfl] at hf
        exact (stands_of_mem_found outermost .none isFlat_none rest hWhole.2 hf).mono
          (List.suffix_append _ _).isInfix
      | false =>
        rw [hCurly, if_neg Bool.false_ne_true] at hf
        refine (stands_of_mem_found outermost _ (hp.next hWhole.1 hCurly) rest hWhole.2 hf).mono ?_
        rcases styled_next outermost p c with hNone | hNext
        · rw [hNone]
          exact (List.suffix_append _ _).isInfix
        · exact ⟨[], [], by simp [hNext, flatAll_append, flatAll_singleton]⟩

end

/-- The lexemes of a rule of a text stand in the row of the text. -/
theorem stands_of_mem_foundIn [Surrogates] {source : String} (hf : f ∈ foundIn source) :
    f.Stands (flatAll (components source)) :=
  stands_of_mem_found true .none isFlat_none _ (allWhole_nest _ (List.forall_mem_nil _) rfl) hf

end Stylesheet

end StyleSieve
