import StyleSieve.Proofs.Css.Grown

/-!
# Rows with comments between neighbours

What is written of components has an empty comment wherever neighbours are kept apart.

* `spaced`: rows with these comments.
* `flatAll_spacedAfter`: components with these comments have the spaced row.
* `text_spacedAfter`, `writtenAfter_spacedAfter`: what is written of components is what is written of
  the spaced row, and of the components with the comments.
-/

namespace StyleSieve.Css

open Text

variable {l : Lexeme} {ls tail : List Lexeme} {cs : List Component} {before : Option Edge}

/-- What a lexeme looks like to the neighbour in front of it. -/
def Lexeme.ahead : Lexeme → Edge
  | .function _ => .function
  | .opening '(' => .round
  | l => (Component.lexeme 0 l).edge

/-- What a lexeme looks like to the neighbour behind it. An opening bracket is none. -/
def Lexeme.behind : Lexeme → Option Edge
  | .function _ => none
  | .opening _ => none
  | l => some (Component.lexeme 0 l).edge

/-- The comment between two neighbours that would run together. -/
def gapBetween (before : Option Edge) (ahead : Edge) : List Lexeme :=
  if before.any (·.runsInto ahead) then [.comment []] else []

/-- Lexemes with comments between neighbours that would run together. -/
def spaced (before : Option Edge) : List Lexeme → List Lexeme
  | [] => []
  | l :: ls => gapBetween before l.ahead ++ l.lowered :: spaced l.behind ls

mutual

/-- A component with comments inside of its brackets. -/
def Component.spaced : Component → Component
  | .lexeme _ l => .lexeme 0 l.lowered
  | .function _ name arguments => .function 0 name (spacedAfter none arguments)
  | .block _ bracket content => .block 0 bracket (spacedAfter none content)

/-- Components with comments between neighbours that would run together. -/
def spacedAfter (before : Option Edge) : List Component → List Component
  | [] => []
  | c :: rest => (gapBetween before c.edge).map (.lexeme 0) ++ c.spaced :: spacedAfter (some c.edge) rest

end

/-! ## Taking spaced components apart -/

theorem gapBetween_other (before : Option Edge) : gapBetween before .other = [] := by
  unfold gapBetween
  cases before with
  | none => rfl
  | some a => rw [Option.any_some, runsInto_other, if_neg Bool.false_ne_true]

/-- A closed bracket does not run into what follows. -/
theorem spaced_behind_bracket {e : Edge} (h : e = .function ∨ e = .round) (ls : List Lexeme) :
    spaced (some e) ls = spaced (some .other) ls := by
  cases ls with
  | nil => rfl
  | cons l ls => rcases h with rfl | rfl <;> rfl

theorem flatAll_leaves (ls : List Lexeme) : flatAll (ls.map (.lexeme 0)) = ls := by
  induction ls with
  | nil => rfl
  | cons l ls ih => rw [List.map_cons, flatAll, ih]; rfl

theorem ahead_of_balanced (h : balanced [] [l] = true) :
    l.ahead = (Component.lexeme 0 l).edge ∧ l.behind = some (Component.lexeme 0 l).edge := by
  cases l <;> first | exact ⟨rfl, rfl⟩ | cases h

mutual

theorem spaced_flat (before : Option Edge) : (c : Component) → c.isWhole = true → (ls : List Lexeme) →
    spaced before (c.flat ++ ls) = gapBetween before c.edge ++ (c.spaced.flat ++ spaced (some c.edge) ls)
  | .lexeme _ l, h, ls => by
    obtain ⟨hAhead, hBehind⟩ := ahead_of_balanced h
    change gapBetween before l.ahead ++ l.lowered :: spaced l.behind ls = _
    rw [hAhead, hBehind]
    rfl
  | .function _ name arguments, h, ls => by
    rw [Component.flat, List.append_assoc, List.cons_append, spaced]
    change gapBetween before .function ++
      .function name :: spaced none (flatAll arguments ++ .closing ')' :: ls) = _
    rw [spaced_flatAll none arguments h, spaced]
    change _ ++ _ :: (_ ++ (gapBetween _ .other ++ _ :: spaced (some .other) ls)) = _
    rw [gapBetween_other, ← spaced_behind_bracket (Or.inl rfl)]
    simp [Component.spaced, Component.flat, Component.edge, Lexeme.lowered]
  | .block line bracket content, h, ls => by
    have hAhead : (Lexeme.opening bracket.signs.1).ahead = (Component.block line bracket content).edge := by
      cases bracket <;> rfl
    have hBehind : spaced (some .other) ls =
        spaced (some (Component.block line bracket content).edge) ls := by
      cases bracket with
      | round => exact (spaced_behind_bracket (Or.inr rfl) ls).symm
      | _ => rfl
    rw [Component.flat, List.append_assoc, List.cons_append, spaced, hAhead]
    change _ ++ .opening bracket.signs.1 ::
      spaced none (flatAll content ++ .closing bracket.signs.2 :: ls) = _
    rw [spaced_flatAll none content h, spaced]
    change _ ++ _ :: (_ ++ (gapBetween _ .other ++ _ :: spaced (some .other) ls)) = _
    rw [gapBetween_other, hBehind]
    simp [Component.spaced, Component.flat, Lexeme.lowered]

theorem spaced_flatAll (before : Option Edge) : (cs : List Component) → allWhole cs = true →
    (ls : List Lexeme) → spaced before (flatAll cs ++ ls) =
      flatAll (spacedAfter before cs) ++ spaced (lastEdge before cs) ls
  | [], _, ls => rfl
  | c :: rest, h, ls => by
    rw [allWhole, Bool.and_eq_true] at h
    rw [flatAll, List.append_assoc, spaced_flat before c h.1, spaced_flatAll _ rest h.2, spacedAfter,
      flatAll_append, flatAll_leaves, flatAll]
    simp [lastEdge]

end

theorem flatAll_spacedAfter (before : Option Edge) (h : allWhole cs = true) :
    flatAll (spacedAfter before cs) = spaced before (flatAll cs) := by
  have hSpaced := spaced_flatAll before cs h []
  rw [List.append_nil, spaced, List.append_nil] at hSpaced
  exact hSpaced.symm

mutual

theorem isWhole_spaced : (c : Component) → c.isWhole = true → c.spaced.isWhole = true
  | .lexeme _ l, h => by cases l <;> first | rfl | cases h
  | .function _ _ arguments, h => allWhole_spacedAfter none arguments h
  | .block _ _ content, h => allWhole_spacedAfter none content h

theorem allWhole_spacedAfter (before : Option Edge) : (cs : List Component) → allWhole cs = true →
    allWhole (spacedAfter before cs) = true
  | [], _ => rfl
  | c :: rest, h => by
    rw [allWhole, Bool.and_eq_true] at h
    have hGap : allWhole ((gapBetween before c.edge).map (.lexeme 0)) = true := by
      unfold gapBetween
      split <;> rfl
    rw [spacedAfter, allWhole_append, hGap, allWhole, isWhole_spaced c h.1, allWhole_spacedAfter _ rest h.2]
    rfl

end

/-! ## The text of spaced components -/

theorem writtenUnit_loweredUnit (unit : List Char) : writtenUnit (loweredUnit unit) = writtenUnit unit := by
  unfold loweredUnit
  split
  · rename_i rest
    split
    · rename_i hRest
      simp only [writtenUnit, hRest]
      rfl
    · rfl
  · rfl

theorem written_lowered (l : Lexeme) : l.lowered.written = l.written := by
  cases l with
  | dimension digits unit => exact congrArg (digits ++ ·) (writtenUnit_loweredUnit unit)
  | _ => rfl

theorem edge_lowered (l : Lexeme) : (Component.lexeme 0 l.lowered).edge = (Component.lexeme 0 l).edge := by
  cases l <;> rfl

theorem edge_spaced (c : Component) : c.spaced.edge = c.edge := by
  cases c with
  | lexeme n l => exact edge_lowered l
  | function => rfl
  | block n bracket content => cases bracket <;> rfl

/-- No lexeme is a flaw. -/
def isFlawless (ls : List Lexeme) : Bool := ls.all fun l => !l.isFlaw

section Flawless

variable {n : Nat} {name : List Char} {bracket : Bracket} {c : Component} {content : List Component}

theorem isFlawless_function :
    isFlawless (Component.function n name content).flat = isFlawless (flatAll content) := by
  simp [isFlawless, Component.flat, Lexeme.isFlaw]

theorem isFlawless_block :
    isFlawless (Component.block n bracket content).flat = isFlawless (flatAll content) := by
  simp [isFlawless, Component.flat, Lexeme.isFlaw]

theorem isFlawless_flatAll_cons :
    isFlawless (flatAll (c :: content)) = (isFlawless c.flat && isFlawless (flatAll content)) :=
  List.all_append

end Flawless

mutual

theorem not_isCutOff : (c : Component) → isFlawless c.flat = true → c.isCutOff = false
  | .lexeme _ l, h => by
    cases l with
    | flaw kind => cases h
    | _ => rfl
  | .function _ name arguments, h => not_endsInString arguments (isFlawless_function ▸ h)
  | .block .., _ => rfl

/-- Components without flaws do not end in a string that was cut off. -/
theorem not_endsInString : (cs : List Component) → isFlawless (flatAll cs) = true →
    endsInString cs = false
  | [], _ => rfl
  | [c], h => by
    rw [flatAll_singleton] at h
    exact not_isCutOff c h
  | _ :: c :: rest, h => by
    rw [isFlawless_flatAll_cons, Bool.and_eq_true] at h
    exact not_endsInString (c :: rest) h.2

end

theorem isFlawless_spaced (before : Option Edge) (ls : List Lexeme) :
    isFlawless (spaced before ls) = isFlawless ls := by
  have hGap : ∀ before e, isFlawless (gapBetween before e) = true := by
    intro before e
    unfold gapBetween
    split <;> rfl
  induction ls generalizing before with
  | nil => rfl
  | cons l ls ih =>
    have hLowered : l.lowered.isFlaw = l.isFlaw := by cases l <;> rfl
    have hRest := ih l.behind
    have hFront := hGap before l.ahead
    unfold isFlawless at hRest hFront ⊢
    rw [spaced, List.all_append, hFront, List.all_cons, hRest, hLowered, List.all_cons, Bool.true_and]

/-- A backslash that is no escape stands in front of a line end. -/
def EndsLine (l : Lexeme) (ls : List Lexeme) : Prop :=
  l = .sign ['\\'] → ∃ t more, ls = .blank ('\n' :: t) :: more

theorem flatMap_gapBetween {c : Component} {rest : List Lexeme}
    (hLine : before = some (.sign ['\\']) → ∃ t more, c.flat ++ rest = .blank ('\n' :: t) :: more) :
    (gapBetween before c.edge).flatMap Lexeme.written = gapText before c := by
  cases before with
  | none => rfl
  | some a =>
    unfold gapBetween gapText
    rw [Option.any_some]
    dsimp only
    split
    · rfl
    split
    · rename_i hSlash
      obtain ⟨t, more, hBlank⟩ := hLine (congrArg some (eq_of_beq hSlash))
      cases c with
      | lexeme n l =>
        obtain rfl : l = .blank ('\n' :: t) := (List.cons.inj hBlank).1
        rfl
      | function => cases (List.cons.inj hBlank).1
      | block => cases (List.cons.inj hBlank).1
    · rfl

mutual

theorem text_spaced : (c : Component) → (ls : List Lexeme) → isFlawless c.flat = true →
    Everywhere EndsLine (c.flat ++ ls) → c.spaced.flat.flatMap Lexeme.written = c.written
  | .lexeme _ l, _, _, _ => by
    rw [Component.spaced, Component.flat, List.flatMap_singleton, written_lowered]
    rfl
  | .function _ name arguments, ls, hFlawless, hLines => by
    rw [isFlawless_function] at hFlawless
    rw [Component.flat, List.append_assoc] at hLines
    have hText := text_spacedAfter none arguments _ hFlawless hLines.2 nofun
    rw [Component.written, not_endsInString arguments hFlawless, ← hText]
    simp [Component.spaced, Component.flat, Lexeme.written]
  | .block _ bracket content, ls, hFlawless, hLines => by
    rw [isFlawless_block] at hFlawless
    rw [Component.flat, List.append_assoc] at hLines
    have hText := text_spacedAfter none content _ hFlawless hLines.2 nofun
    rw [Component.written, ← hText]
    simp [Component.spaced, Component.flat, Lexeme.written]

/-- What is written of components is what is written of their lexemes with the comments. -/
theorem text_spacedAfter (before : Option Edge) : (cs : List Component) → (ls : List Lexeme) →
    isFlawless (flatAll cs) = true → Everywhere EndsLine (flatAll cs ++ ls) →
    (before = some (.sign ['\\']) → ∃ t more, flatAll cs ++ ls = .blank ('\n' :: t) :: more) →
      (flatAll (spacedAfter before cs)).flatMap Lexeme.written = writtenAfter before cs
  | [], _, _, _, _ => rfl
  | c :: rest, ls, hFlawless, hLines, hBefore => by
    rw [isFlawless_flatAll_cons, Bool.and_eq_true] at hFlawless
    rw [flatAll, List.append_assoc] at hLines hBefore
    have hRest : some c.edge = some (.sign ['\\']) →
        ∃ t more, flatAll rest ++ ls = .blank ('\n' :: t) :: more := by
      intro hSlash
      cases c with
      | lexeme n l =>
        obtain rfl := eq_sign_of_edge (Option.some.inj hSlash)
        exact hLines.1 rfl
      | function => cases hSlash
      | block n bracket content => cases bracket <;> cases hSlash
    rw [spacedAfter, flatAll_append, flatAll_leaves, flatAll, List.flatMap_append, List.flatMap_append,
      flatMap_gapBetween hBefore, text_spaced c _ hFlawless.1 hLines,
      text_spacedAfter _ rest ls hFlawless.2 (hLines.drop c.flat) hRest, writtenAfter, List.append_assoc]

end

/-! ## Writing spaced components -/

theorem gapText_spaced (before : Option Edge) (c : Component) :
    gapText before c.spaced = gapText before c := by
  have hOther : ∀ c' : Component, c'.edge = c.edge → (∀ n t, c ≠ .lexeme n (.blank t)) →
      (∀ n t, c' ≠ .lexeme n (.blank t)) → gapText before c' = gapText before c := by
    intro c' hEdge hc hc'
    unfold gapText
    rw [hEdge]
    split
    · rfl
    · split
      · rfl
      · split
        · split
          · exact absurd rfl (hc' _ _)
          · split
            · exact absurd rfl (hc _ _)
            · rfl
        · rfl
  cases c with
  | lexeme n l =>
    cases l with
    | blank t => exact gapText_unplaced before (.lexeme n (.blank t))
    | _ => exact hOther _ (edge_spaced _) nofun nofun
  | _ => exact hOther _ (edge_spaced _) nofun nofun

theorem runsInto_backslash (b : Edge) : (Edge.sign ['\\']).runsInto b = false := by
  cases b <;> rfl

theorem writtenAfter_gapBetween (before : Option Edge) (c : Component) :
    writtenAfter before ((gapBetween before c.edge).map (.lexeme 0)) ++
      gapText (lastEdge before ((gapBetween before c.edge).map (.lexeme 0))) c = gapText before c := by
  unfold gapBetween
  cases before with
  | none => rfl
  | some a =>
    rw [Option.any_some]
    split
    · rename_i hRuns
      have hSlash : a ≠ .sign ['\\'] := by
        rintro rfl
        rw [runsInto_backslash] at hRuns
        cases hRuns
      have hFront : gapText (some a) (.lexeme 0 (.comment [])) = [] :=
        gapText_eq_nil (runsInto_other a) hSlash
      have hBehind : gapText (some .other) c = [] := gapText_eq_nil rfl (by decide)
      have hBetween : gapText (some a) c = ['/', '*', '*', '/'] := by
        unfold gapText
        dsimp only
        rw [hRuns, if_pos rfl]
      rw [List.map_singleton, writtenAfter, hFront, hBetween]
      change _ ++ gapText (some .other) c = _
      rw [hBehind]
      rfl
    · rfl

mutual

theorem written_spaced : (c : Component) → c.isWhole = true → isFlawless c.flat = true →
    c.spaced.written = c.written
  | .lexeme _ l, _, _ => written_lowered l
  | .function _ name arguments, hWhole, h => by
    rw [isFlawless_function] at h
    have hEnds : endsInString (spacedAfter none arguments) = false := by
      refine not_endsInString _ ?_
      rw [flatAll_spacedAfter none hWhole, isFlawless_spaced]
      exact h
    rw [Component.spaced, Component.written, Component.written, hEnds, not_endsInString arguments h,
      writtenAfter_spacedAfter none arguments hWhole h]
  | .block _ bracket content, hWhole, h => by
    rw [isFlawless_block] at h
    rw [Component.spaced, Component.written, Component.written,
      writtenAfter_spacedAfter none content hWhole h]

/-- The comments are what is written between neighbours anyway. -/
theorem writtenAfter_spacedAfter (before : Option Edge) : (cs : List Component) → allWhole cs = true →
    isFlawless (flatAll cs) = true → writtenAfter before (spacedAfter before cs) = writtenAfter before cs
  | [], _, _ => rfl
  | c :: rest, hWhole, h => by
    rw [allWhole, Bool.and_eq_true] at hWhole
    rw [isFlawless_flatAll_cons, Bool.and_eq_true] at h
    rw [spacedAfter, writtenAfter_append, writtenAfter, writtenAfter, edge_spaced,
      written_spaced c hWhole.1 h.1, writtenAfter_spacedAfter _ rest hWhole.2 h.2, gapText_spaced,
      ← List.append_assoc, ← List.append_assoc, writtenAfter_gapBetween]

end

end StyleSieve.Css
