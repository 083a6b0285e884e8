import StyleSieve.Css.Written
import StyleSieve.Proofs.Css.Scan

/-!
# Components of joined lexemes

Lexemes whose brackets match become the same components wherever they stand, and what is
written of components does not depend on the lines that they start in.

* `unplacedAll_components`: the components of a text come from its lexemes, but for the lines.
* `nest_of_balanced`: balanced lexemes are put together among themselves.
* `writtenAfter_append`: the text of joined components.
-/

namespace StyleSieve.Css

/-! ## Components without lines -/

mutual

/-- A component with all its lines set to zero. -/
def Component.unplaced : Component → Component
  | .lexeme _ l => .lexeme 0 l
  | .function _ name arguments => .function 0 name (unplacedAll arguments)
  | .block _ bracket content => .block 0 bracket (unplacedAll content)

/-- Components with all their lines set to zero. -/
def unplacedAll : List Component → List Component
  | [] => []
  | c :: rest => c.unplaced :: unplacedAll rest

end

theorem unplacedAll_eq_map (cs : List Component) : unplacedAll cs = cs.map Component.unplaced := by
  induction cs with
  | nil => rfl
  | cons c rest ih => rw [unplacedAll, ih, List.map_cons]

/-- An open bracket with all lines in front of it set to zero. -/
def Open.unplaced (o : Open) : Open := ⟨0, o.name, o.bracket, unplacedAll o.before⟩

theorem unplacedAll_close (o : Open) (content : List Component) :
    unplacedAll (o.close content) = o.unplaced.close (unplacedAll content) := by
  obtain ⟨line, name, bracket, before⟩ := o
  cases name <;>
    simp [Open.close, Open.unplaced, Component.unplaced, unplacedAll_eq_map]

theorem unplacedAll_foldl_close (stack : List Open) (current : List Component) :
    unplacedAll (stack.foldl (fun content o => o.close content) current) =
      (stack.map Open.unplaced).foldl (fun content o => o.close content) (unplacedAll current) := by
  induction stack generalizing current with
  | nil => rfl
  | cons o outer ih => rw [List.foldl_cons, ih, unplacedAll_close, List.map_cons, List.foldl_cons]

theorem unplacedAll_nest (stack : List Open) (current : List Component)
    (placed : List (Nat × Lexeme)) :
    unplacedAll (nest stack current placed) =
      nest (stack.map Open.unplaced) (unplacedAll current) (placed.map fun l => (0, l.2)) := by
  induction placed generalizing stack current with
  | nil =>
    rw [nest, List.map_nil, nest, ← unplacedAll_foldl_close, unplacedAll_eq_map,
      unplacedAll_eq_map, List.map_reverse]
  | cons l rest ih =>
    obtain ⟨line, l⟩ := l
    cases l with
    | function name => exact ih _ _
    | opening c => exact ih _ _
    | closing c =>
      rw [List.map_cons]
      cases stack with
      | nil => exact ih _ _
      | cons top outer =>
        rw [nest, List.map_cons, nest]
        by_cases hTop : (top.bracket == bracketOf c) = true
        · rw [if_pos hTop, if_pos (by exact hTop), ← unplacedAll_close]
          exact ih _ _
        · rw [if_neg hTop, if_neg (by exact hTop)]
          exact ih _ _
    | _ => exact ih _ _

/-- The components of lexemes, all in line zero. -/
def formed (ls : List Lexeme) : List Component := nest [] [] (ls.map (0, ·))

theorem unplacedAll_components [Surrogates] (text : String) :
    unplacedAll (components text) = formed (lexemes (normalize text.toList)) := by
  rw [components, unplacedAll_nest, formed, lexemes, List.map_map]
  rfl

/-! ## What is written -/

@[simp] theorem edge_unplaced (c : Component) : c.unplaced.edge = c.edge := by
  cases c with
  | block _ bracket _ => cases bracket <;> rfl
  | _ => rfl

mutual

theorem isCutOff_unplaced : (c : Component) → c.unplaced.isCutOff = c.isCutOff
  | .lexeme _ _ => rfl
  | .function _ _ arguments => endsInString_unplacedAll arguments
  | .block .. => rfl

theorem endsInString_unplacedAll : (cs : List Component) →
    endsInString (unplacedAll cs) = endsInString cs
  | [] => rfl
  | [c] => isCutOff_unplaced c
  | _ :: c :: rest => endsInString_unplacedAll (c :: rest)

end

theorem gapText_unplaced (before : Option Edge) (c : Component) :
    gapText before c.unplaced = gapText before c := by
  unfold gapText
  rw [edge_unplaced]
  cases c with
  | lexeme line l =>
    cases l with
    | blank text =>
      rcases text with _ | ⟨x, text⟩
      · rfl
      · by_cases hEnd : x = '\n'
        · rw [hEnd]
          rfl
        · simp [Component.unplaced, hEnd]
    | _ => rfl
  | _ => rfl

mutual

theorem written_unplaced : (c : Component) → c.unplaced.written = c.written
  | .lexeme _ _ => rfl
  | .function _ name arguments => by
    rw [Component.unplaced, Component.written, Component.written, endsInString_unplacedAll,
      writtenAfter_unplacedAll]
  | .block _ bracket content => by
    rw [Component.unplaced, Component.written, Component.written, writtenAfter_unplacedAll]

/-- What is written does not depend on lines. -/
theorem writtenAfter_unplacedAll : (before : Option Edge) → (cs : List Component) →
    writtenAfter before (unplacedAll cs) = writtenAfter before cs
  | _, [] => rfl
  | before, c :: rest => by
    rw [unplacedAll, writtenAfter, writtenAfter, gapText_unplaced, written_unplaced, edge_unplaced,
      writtenAfter_unplacedAll]

end

/-- What stands at the end of components to those that follow. -/
def lastEdge (before : Option Edge) : List Component → Option Edge
  | [] => before
  | c :: rest => lastEdge (some c.edge) rest

theorem writtenAfter_append (before : Option Edge) (cs ds : List Component) :
    writtenAfter before (cs ++ ds) =
      writtenAfter before cs ++ writtenAfter (lastEdge before cs) ds := by
  induction cs generalizing before with
  | nil => rfl
  | cons c rest ih =>
    rw [List.cons_append, writtenAfter, writtenAfter, lastEdge, ih, List.append_assoc,
      List.append_assoc, List.append_assoc]

theorem gapText_eq_nil {a : Edge} {c : Component} (hRuns : a.runsInto c.edge = false)
    (hEscape : a ≠ .sign ['\\']) : gapText (some a) c = [] := by
  unfold gapText
  dsimp only
  rw [hRuns, if_neg Bool.false_ne_true, if_neg fun h => hEscape (eq_of_beq h)]

theorem runsInto_comma (a : Edge) : a.runsInto (.sign [',']) = false := by
  change (_ && false || _ && false || _ && false || _ && false || _ && false || _ && false ||
    _ && false || _ && false || _ && false) = false
  simp only [Bool.and_false, Bool.or_self]

theorem runsInto_other (a : Edge) : a.runsInto .other = false := by
  change (_ && false || _ && false || _ && false || _ && false || _ && false || _ && false ||
    _ && false || _ && false || _ && false) = false
  simp only [Bool.and_false, Bool.or_self]

/-- A blank keeps its neighbours apart. -/
theorem writtenAfter_blank (cs : List Component) :
    writtenAfter (some .other) cs = writtenAfter none cs := by
  cases cs with
  | nil => rfl
  | cons c rest =>
    have hGap : gapText (some .other) c = [] := gapText_eq_nil rfl (by decide)
    rw [writtenAfter, writtenAfter, hGap]
    rfl

/-! ## Balanced lexemes -/

/-- Whether every bracket is matched, where those given are open already. -/
def balanced (before : List Bracket) : List Lexeme → Bool
  | [] => before.isEmpty
  | .function _ :: rest => balanced (.round :: before) rest
  | .opening c :: rest => balanced (bracketOf c :: before) rest
  | .closing c :: rest =>
    match before with
    | [] => false
    | top :: outer => top == bracketOf c && balanced outer rest
  | _ :: rest => balanced before rest

/-- What is collected in the innermost bracket when further components stand in front of
everything. -/
def currentBelow (base : List Component) (stack : List Open) (current : List Component) :
    List Component :=
  if stack.isEmpty then current ++ base else current

/-- Open brackets when further components stand in front of everything. -/
def stackBelow (base : List Component) : List Open → List Open
  | [] => []
  | o :: outer => { o with before := currentBelow base outer o.before } :: stackBelow base outer

theorem cons_currentBelow (base : List Component) (stack : List Open) (c : Component)
    (current : List Component) :
    c :: currentBelow base stack current = currentBelow base stack (c :: current) := by
  cases stack <;> rfl

theorem close_currentBelow (base : List Component) (stack : List Open) (o : Open)
    (content : List Component) :
    Open.close { o with before := currentBelow base stack o.before } content =
      currentBelow base stack (o.close content) := by
  obtain ⟨line, name, bracket, before⟩ := o
  cases name <;> exact cons_currentBelow base stack _ before

/-- Balanced lexemes close the brackets that are open in front of them, and touch nothing
that is further out. -/
theorem nest_stackBelow {ls : List Lexeme} {stack : List Open}
    (h : balanced (stack.map Open.bracket) ls = true) (current base : List Component)
    (outer : List Open) (rest : List (Nat × Lexeme)) :
    nest (stackBelow base stack ++ outer) (currentBelow base stack current)
        (ls.map (0, ·) ++ rest) =
      nest outer ((nest stack current (ls.map (0, ·))).reverse ++ base) rest := by
  induction ls generalizing stack current with
  | nil =>
    have hStack : stack = [] := by simpa [balanced] using h
    subst hStack
    simp [nest, stackBelow, currentBelow]
  | cons l ls ih =>
    rw [List.map_cons, List.cons_append]
    cases l with
    | function name => exact @ih (⟨0, some name, .round, current⟩ :: stack) h []
    | opening c => exact @ih (⟨0, none, bracketOf c, current⟩ :: stack) h []
    | closing c =>
      cases stack with
      | nil => cases h
      | cons top inner =>
        rw [List.map_cons, balanced, Bool.and_eq_true] at h
        rw [stackBelow, List.cons_append, nest, if_pos h.1, nest, if_pos h.1, ← ih h.2]
        exact congrArg (nest _ · _) (close_currentBelow base inner top current)
    | _ =>
      rw [nest, nest, cons_currentBelow]
      · exact ih h _
      all_goals nofun

variable {ls ls' : List Lexeme}

/-- Balanced lexemes are put together among themselves. -/
theorem nest_of_balanced (h : balanced [] ls = true) (stack : List Open)
    (current : List Component) (rest : List (Nat × Lexeme)) :
    nest stack current (ls.map (0, ·) ++ rest) =
      nest stack ((formed ls).reverse ++ current) rest :=
  @nest_stackBelow ls [] h [] current stack rest

theorem formed_append (h : balanced [] ls = true) (h' : balanced [] ls' = true) :
    formed (ls ++ ls') = formed ls ++ formed ls' := by
  rw [formed, List.map_append, nest_of_balanced h, ← List.append_nil (ls'.map _),
    nest_of_balanced h', nest]
  simp

theorem formed_cons {l : Lexeme} (h : balanced [] [l] = true) (h' : balanced [] ls = true) :
    formed (l :: ls) = .lexeme 0 l :: formed ls := by
  rw [← List.singleton_append, formed_append h h']
  cases l <;> first | rfl | cases h

theorem formed_block (h : balanced [] ls = true) :
    formed (.opening '{' :: ls ++ [.closing '}']) = [.block 0 .curly (formed ls)] := by
  change nest [⟨0, none, .curly, []⟩] [] ((ls ++ [Lexeme.closing '}']).map (0, ·)) = _
  rw [List.map_append, nest_of_balanced h]
  simp [nest, Open.close, bracketOf]

theorem lastEdge_append (before : Option Edge) (cs ds : List Component) :
    lastEdge before (cs ++ ds) = lastEdge (lastEdge before cs) ds := by
  induction cs generalizing before with
  | nil => rfl
  | cons c rest ih => exact ih _

theorem eq_sign_of_edge {l : Lexeme} {text : List Char}
    (h : (Component.lexeme 0 l).edge = .sign text) : l = .sign text := by
  cases l <;> cases h
  rfl

/-- Balanced lexemes that seem to end in a sign do end in it. -/
theorem getLast?_of_lastEdge_nest {stack : List Open}
    (h : balanced (stack.map Open.bracket) ls = true) (hSome : ls ≠ []) {current : List Component}
    {text : List Char}
    (hEdge : lastEdge none (nest stack current (ls.map (0, ·))) = some (.sign text)) :
    ls.getLast? = some (.sign text) := by
  induction ls generalizing stack current with
  | nil => exact absurd rfl hSome
  | cons l ls ih =>
    by_cases hLs : ls = []
    · subst hLs
      cases l with
      | function name => cases h
      | opening c => cases h
      | closing c =>
        cases stack with
        | nil => cases h
        | cons top inner =>
          rw [List.map_cons, balanced, Bool.and_eq_true] at h
          have hInner : inner = [] := by simpa [balanced] using h.2
          obtain ⟨line, name, bracket, before⟩ := top
          subst hInner
          rw [List.map_cons, List.map_nil, nest, if_pos h.1, nest, List.foldl_nil] at hEdge
          cases name with
          | some name =>
            rw [Open.close, List.reverse_cons, lastEdge_append] at hEdge
            cases hEdge
          | none =>
            rw [Open.close, List.reverse_cons, lastEdge_append] at hEdge
            cases bracket <;> cases hEdge
      | _ =>
        have hStack : stack = [] := by simpa [balanced] using h
        subst hStack
        rw [List.map_cons, List.map_nil, nest, nest, List.foldl_nil, List.reverse_cons,
          lastEdge_append] at hEdge
        · rw [List.getLast?_singleton, eq_sign_of_edge (Option.some.inj hEdge)]
        all_goals nofun
    · -- whatever `l` does to the stack, the last edge comes from behind it
      rw [List.getLast?_cons_of_ne_nil hLs]
      cases l with
      | function name => exact @ih (⟨0, some name, .round, current⟩ :: stack) h hLs [] hEdge
      | opening c => exact @ih (⟨0, none, bracketOf c, current⟩ :: stack) h hLs [] hEdge
      | closing c =>
        cases stack with
        | nil => cases h
        | cons top inner =>
          rw [List.map_cons, balanced, Bool.and_eq_true] at h
          rw [List.map_cons, nest, if_pos h.1] at hEdge
          exact ih h.2 hLs hEdge
      | _ => exact ih h hLs hEdge

theorem balanced_append {before : List Bracket} (h : balanced before ls = true)
    (outer : List Bracket) : balanced (before ++ outer) (ls ++ ls') = balanced outer ls' := by
  induction ls generalizing before with
  | nil =>
    have hBefore : before = [] := by simpa [balanced] using h
    rw [hBefore]
    rfl
  | cons l ls ih =>
    cases l with
    | function name => exact ih h
    | opening c => exact ih h
    | closing c =>
      cases before with
      | nil => cases h
      | cons top inner =>
        rw [balanced, Bool.and_eq_true] at h
        rw [List.cons_append, List.cons_append, balanced, ih h.2, h.1, Bool.true_and]
    | _ => exact ih h

theorem balanced_block (h : balanced [] ls = true) (h' : balanced [] ls' = true) :
    balanced [] (.opening '{' :: ls ++ .closing '}' :: ls') = true := by
  change balanced ([] ++ [.curly]) (ls ++ _) = true
  rw [balanced_append h]
  exact h'

end StyleSieve.Css
