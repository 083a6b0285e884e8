import StyleSieve.Proofs.Css.Nest
import StyleSieve.Proofs.Css.Forms
import Mathlib.Data.List.Forall2

/-!
# The lexemes of components

Components are taken apart into the lexemes that they were put together from.

* `flatAll`: the lexemes of components, with every bracket closed.
* `formed_flatAll`, `balanced_flatAll`: put together they are the components again.
* `exists_flatAll_nest`: the components of a text have its lexemes, but for the marks of brackets that
  close nothing, and brackets that are closed at its end.
-/

namespace StyleSieve.Css

variable {l : Lexeme} {ls ls' : List Lexeme} {cs ds : List Component}

mutual

/-- The lexemes of a component. -/
def Component.flat : Component → List Lexeme
  | .lexeme _ l => [l]
  | .function _ name arguments => .function name :: flatAll arguments ++ [.closing ')']
  | .block _ bracket content => .opening bracket.signs.1 :: flatAll content ++ [.closing bracket.signs.2]

/-- The lexemes of components in a row. -/
def flatAll : List Component → List Lexeme
  | [] => []
  | c :: rest => c.flat ++ flatAll rest

end

mutual

/-- No part of a component is a bracket. -/
def Component.isWhole : Component → Bool
  | .lexeme _ l => balanced [] [l]
  | .function _ _ arguments => allWhole arguments
  | .block _ _ content => allWhole content

/-- No part of components is a bracket. -/
def allWhole : List Component → Bool
  | [] => true
  | c :: rest => c.isWhole && allWhole rest

end

theorem flatAll_append (cs ds : List Component) : flatAll (cs ++ ds) = flatAll cs ++ flatAll ds := by
  induction cs with
  | nil => rfl
  | cons c rest ih => rw [List.cons_append, flatAll, flatAll, ih, List.append_assoc]

theorem flatAll_singleton (c : Component) : flatAll [c] = c.flat := by
  rw [flatAll, flatAll, List.append_nil]

theorem allWhole_append (cs ds : List Component) : allWhole (cs ++ ds) = (allWhole cs && allWhole ds) := by
  induction cs with
  | nil => rfl
  | cons c rest ih => rw [List.cons_append, allWhole, allWhole, ih, Bool.and_assoc]

/-! ## Putting lexemes together again -/

theorem bracketOf_signs (bracket : Bracket) :
    bracketOf bracket.signs.1 = bracket ∧ bracketOf bracket.signs.2 = bracket := by
  cases bracket <;> decide

theorem formed_enclosed (h : balanced [] ls = true) (bracket : Bracket) :
    formed (.opening bracket.signs.1 :: ls ++ [.closing bracket.signs.2]) =
      [.block 0 bracket (formed ls)] := by
  obtain ⟨hOpening, hClosing⟩ := bracketOf_signs bracket
  change nest [⟨0, none, bracketOf bracket.signs.1, []⟩] [] ((ls ++ [_]).map (0, ·)) = _
  rw [List.map_append, nest_of_balanced h, List.map_singleton, nest, hOpening, hClosing,
    if_pos (by simp), nest]
  simp [Open.close]

mutual

theorem balanced_flat : (c : Component) → c.isWhole = true → balanced [] c.flat = true
  | .lexeme _ _, h => h
  | .function _ name arguments, h =>
    balanced_append (balanced_flatAll arguments h) [.round]
  | .block _ bracket content, h => by
    change balanced ([] ++ [bracketOf bracket.signs.1])
      (flatAll content ++ [.closing bracket.signs.2]) = true
    rw [balanced_append (balanced_flatAll content h), (bracketOf_signs bracket).1, balanced,
      (bracketOf_signs bracket).2]
    simp [balanced]

theorem balanced_flatAll : (cs : List Component) → allWhole cs = true → balanced [] (flatAll cs) = true
  | [], _ => rfl
  | c :: rest, h => by
    rw [allWhole, Bool.and_eq_true] at h
    exact (balanced_append (balanced_flat c h.1) []).trans (balanced_flatAll rest h.2)

end

mutual

theorem formed_flat : (c : Component) → c.isWhole = true → formed c.flat = [c.unplaced]
  | .lexeme _ _, h => formed_cons h rfl
  | .function _ name arguments, h => by
    rw [Component.flat, formed_function name (balanced_flatAll arguments h), formed_flatAll arguments h]
    rfl
  | .block _ bracket content, h => by
    rw [Component.flat, formed_enclosed (balanced_flatAll content h), formed_flatAll content h]
    rfl

/-- The lexemes of components are put together to these components. -/
theorem formed_flatAll : (cs : List Component) → allWhole cs = true →
    formed (flatAll cs) = unplacedAll cs
  | [], _ => rfl
  | c :: rest, h => by
    rw [allWhole, Bool.and_eq_true] at h
    rw [flatAll, formed_append (balanced_flat c h.1) (balanced_flatAll rest h.2), formed_flat c h.1,
      formed_flatAll rest h.2]
    rfl

end

/-! ## Taking components apart -/

/-- A bracket that is one of the six signs. -/
def Lexeme.hasSign : Lexeme → Bool
  | .opening c => c == '{' || c == '[' || c == '('
  | .closing c => c == '}' || c == ']' || c == ')'
  | _ => true

/-- The lexeme that opens a bracket. -/
def Open.head (o : Open) : Lexeme :=
  match o.name with
  | some name => .function name
  | none => .opening o.bracket.signs.1

/-- The lexemes up to a place inside of open brackets. -/
def flatStack (stack : List Open) (current : List Component) : List Lexeme :=
  match stack with
  | [] => flatAll current.reverse
  | o :: outer => flatStack outer o.before ++ o.head :: flatAll current.reverse

/-- Closing brackets may be marked as closing nothing. -/
def Marks (ls ls' : List Lexeme) : Prop :=
  List.Forall₂ (fun l l' => l' = l ∨ ∃ c, l = .closing c ∧ l' = .flaw (.unmatched c)) ls ls'

theorem flatStack_cons (stack : List Open) (c : Component) (current : List Component) :
    flatStack stack (c :: current) = flatStack stack current ++ c.flat := by
  cases stack with
  | nil => rw [flatStack, flatStack, List.reverse_cons, flatAll_append, flatAll_singleton]
  | cons o outer =>
    rw [flatStack, flatStack, List.reverse_cons, flatAll_append, flatAll_singleton, List.append_assoc]
    rfl

/-- Functions are closed by round brackets. -/
def Open.isSound (o : Open) : Bool := o.name.isNone || o.bracket == .round

theorem flatStack_close (outer : List Open) (o : Open) (current : List Component) (h : o.isSound = true) :
    flatStack outer (o.close current) = flatStack (o :: outer) current ++ [.closing o.bracket.signs.2] := by
  obtain ⟨line, name, bracket, before⟩ := o
  cases name with
  | none =>
    rw [Open.close, flatStack_cons, flatStack]
    simp [Component.flat, Open.head]
  | some name =>
    obtain rfl : bracket = .round := by simpa [Open.isSound] using h
    rw [Open.close, flatStack_cons, flatStack]
    simp [Component.flat, Open.head, Bracket.signs]

/-- What closes a bracket. -/
def Bracket.ending (bracket : Bracket) : Lexeme := .closing bracket.signs.2

theorem flatAll_foldl_close (stack : List Open) (hStack : stack.all Open.isSound = true)
    (current : List Component) :
    flatAll (stack.foldl (fun content o => o.close content) current).reverse =
      flatStack stack current ++ stack.map fun o => o.bracket.ending := by
  induction stack generalizing current with
  | nil => rw [List.foldl_nil, flatStack, List.map_nil, List.append_nil]
  | cons o outer ih =>
    rw [List.all_cons, Bool.and_eq_true] at hStack
    rw [List.foldl_cons, ih hStack.2, flatStack_close outer o current hStack.1, List.append_assoc]
    rfl

/-- A lexeme that neither opens nor closes a bracket is a component. -/
theorem nest_leaf {l : Lexeme} (h : balanced [] [l] = true) {stack : List Open} {current : List Component}
    {line : Nat} {rest : List (Nat × Lexeme)} :
    nest stack current ((line, l) :: rest) = nest stack (.lexeme line l :: current) rest := by
  cases l <;> first | rfl | cases h

theorem Marks.cons_self (l : Lexeme) (h : Marks ls ls') : Marks (l :: ls) (l :: ls') :=
  List.Forall₂.cons (Or.inl rfl) h

/-- The components of lexemes have these lexemes again. -/
theorem exists_flatAll_nest (placed : List (Nat × Lexeme)) (h : ∀ l ∈ placed, l.2.hasSign = true)
    (stack : List Open) (hStack : stack.all Open.isSound = true) (current : List Component) :
    ∃ ls, ∃ ends : List Bracket, Marks (placed.map Prod.snd) ls ∧
      flatAll (nest stack current placed) = flatStack stack current ++ (ls ++ ends.map Bracket.ending) := by
  induction placed generalizing stack current with
  | nil =>
    refine ⟨[], stack.map Open.bracket, List.Forall₂.nil, ?_⟩
    rw [nest, flatAll_foldl_close stack hStack, List.map_map]
    rfl
  | cons l rest ih =>
    obtain ⟨line, l⟩ := l
    have hFirst := h _ List.mem_cons_self
    have hRest : ∀ l ∈ rest, l.2.hasSign = true := fun l hl => h l (List.mem_cons_of_mem _ hl)
    cases l with
    | function name =>
      obtain ⟨ls, ends, hMarks, hFlat⟩ := ih hRest (⟨line, some name, .round, current⟩ :: stack)
        (by simpa [Open.isSound] using hStack) []
      refine ⟨_, ends, hMarks.cons_self (.function name), ?_⟩
      rw [nest, hFlat, flatStack]
      simp [Open.head, flatAll]
    | opening c =>
      obtain ⟨ls, ends, hMarks, hFlat⟩ := ih hRest (⟨line, none, bracketOf c, current⟩ :: stack)
        (by simpa [Open.isSound] using hStack) []
      have hSign : (bracketOf c).signs.1 = c := by
        simp only [Lexeme.hasSign, Bool.or_eq_true, beq_iff_eq] at hFirst
        rcases hFirst with (rfl | rfl) | rfl <;> decide
      refine ⟨_, ends, hMarks.cons_self (.opening c), ?_⟩
      rw [nest, hFlat, flatStack]
      simp [Open.head, flatAll, hSign]
    | closing c =>
      have hSign : (bracketOf c).signs.2 = c := by
        simp only [Lexeme.hasSign, Bool.or_eq_true, beq_iff_eq] at hFirst
        rcases hFirst with (rfl | rfl) | rfl <;> decide
      have hFlaw : ∀ stack : List Open, stack.all Open.isSound = true →
          ∃ ls, ∃ ends : List Bracket, Marks (((line, Lexeme.closing c) :: rest).map Prod.snd) ls ∧
            flatAll (nest stack (.lexeme line (.flaw (.unmatched c)) :: current) rest) =
              flatStack stack current ++ (ls ++ ends.map Bracket.ending) := by
        intro stack hStack
        obtain ⟨ls, ends, hMarks, hFlat⟩ :=
          ih hRest stack hStack (.lexeme line (.flaw (.unmatched c)) :: current)
        refine ⟨_, ends, List.Forall₂.cons (Or.inr ⟨c, rfl, rfl⟩) hMarks, ?_⟩
        rw [hFlat, flatStack_cons]
        simp [Component.flat]
      cases stack with
      | nil => exact hFlaw [] rfl
      | cons top outer =>
        rw [nest]
        split
        · rename_i hTop
          rw [List.all_cons, Bool.and_eq_true] at hStack
          obtain ⟨ls, ends, hMarks, hFlat⟩ := ih hRest outer hStack.2 (top.close current)
          refine ⟨_, ends, hMarks.cons_self (.closing c), ?_⟩
          rw [hFlat, flatStack_close outer top current hStack.1, eq_of_beq hTop, hSign]
          simp
        · exact hFlaw _ hStack
    | _ =>
      obtain ⟨ls, ends, hMarks, hFlat⟩ := ih hRest stack hStack (.lexeme line _ :: current)
      refine ⟨_, ends, hMarks.cons_self _, ?_⟩
      rw [nest_leaf rfl, hFlat, flatStack_cons]
      simp [Component.flat]

theorem allWhole_eq_all (cs : List Component) : allWhole cs = cs.all Component.isWhole := by
  induction cs with
  | nil => rfl
  | cons c rest ih => rw [allWhole, ih, List.all_cons]

theorem allWhole_reverse (cs : List Component) : allWhole cs.reverse = allWhole cs := by
  rw [allWhole_eq_all, allWhole_eq_all, List.all_reverse]

theorem allWhole_close (o : Open) (content : List Component) :
    allWhole (o.close content) = (allWhole content && allWhole o.before) := by
  obtain ⟨line, name, bracket, before⟩ := o
  cases name <;> rw [Open.close, allWhole, Component.isWhole, allWhole_reverse]

/-- The components of lexemes are whole. -/
theorem allWhole_nest (placed : List (Nat × Lexeme)) {stack : List Open}
    (hStack : ∀ o ∈ stack, allWhole o.before = true) {current : List Component}
    (hCurrent : allWhole current = true) :
    allWhole (nest stack current placed) = true := by
  induction placed generalizing stack current with
  | nil =>
    rw [nest, allWhole_reverse]
    induction stack generalizing current with
    | nil => exact hCurrent
    | cons o outer ih =>
      refine ih (fun o' ho' => hStack o' (List.mem_cons_of_mem o ho')) ?_
      rw [allWhole_close, hCurrent, hStack o List.mem_cons_self]
      rfl
  | cons l rest ih =>
    obtain ⟨line, l⟩ := l
    have hOpen : ∀ o : Open, o.before = current → ∀ o' ∈ o :: stack, allWhole o'.before = true := by
      rintro o rfl o' ho'
      rcases List.mem_cons.mp ho' with rfl | ho'
      · exact hCurrent
      · exact hStack o' ho'
    have hLeaf : ∀ l, balanced [] [l] = true → allWhole (.lexeme line l :: current) = true := by
      intro l hl
      rw [allWhole, hCurrent, Bool.and_true]
      exact hl
    cases l with
    | function name => exact ih (hOpen _ rfl) rfl
    | opening c => exact ih (hOpen _ rfl) rfl
    | closing c =>
      cases stack with
      | nil => exact ih hStack (hLeaf _ rfl)
      | cons top outer =>
        rw [nest]
        split
        · refine ih (fun o ho => hStack o (List.mem_cons_of_mem top ho)) ?_
          rw [allWhole_close, hCurrent, hStack top List.mem_cons_self]
          rfl
        · exact ih hStack (hLeaf _ rfl)
    | _ =>
      rw [nest_leaf rfl]
      exact ih hStack (hLeaf _ rfl)

end StyleSieve.Css
