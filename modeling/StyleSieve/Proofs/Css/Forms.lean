import StyleSieve.Proofs.Css.Nest

/-!
# Lexemes side by side

What is written of lexemes depends on the neighbour in front of them, since an empty comment keeps
neighbours apart that would run together. `Forms` says that lexemes are written as a text
behind the neighbours of some kind, and which kind of neighbour they are themselves.

* `Forms.append`: what fits together is written side by side.
* `Forms.function`, `Forms.bracket`: what stands between brackets is written between brackets.
* `IsUncut`: there is no comma between the lexemes but inside of brackets.
-/

namespace StyleSieve.Css

variable {S S' S'' T T' : Edge → Prop} {ls ls' : List Lexeme} {text text' : List Char} {l : Lexeme}

/-! ## Ends of functions -/

theorem endsInString_cons (c : Component) {cs : List Component} (hSome : cs ≠ []) :
    endsInString (c :: cs) = endsInString cs := by
  obtain ⟨d, rest, rfl⟩ := List.exists_cons_of_ne_nil hSome
  rw [endsInString]

theorem endsInString_append {cs ds : List Component} (h : endsInString cs = false)
    (h' : endsInString ds = false) : endsInString (cs ++ ds) = false := by
  by_cases hSome : ds = []
  · rw [hSome, List.append_nil, h]
  · induction cs with
    | nil => exact h'
    | cons c rest ih =>
      rw [List.cons_append, endsInString_cons c (by simp [hSome])]
      by_cases hRest : rest = []
      · rw [hRest]
        exact h'
      · rw [endsInString_cons c hRest] at h
        exact ih h

/-! ## Brackets -/

theorem formed_function (name : List Char) (h : balanced [] ls = true) :
    formed (.function name :: ls ++ [.closing ')']) = [.function 0 name (formed ls)] := by
  change nest [⟨0, some name, .round, []⟩] [] ((ls ++ [Lexeme.closing ')']).map (0, ·)) = _
  rw [List.map_append, nest_of_balanced h]
  simp [nest, Open.close, bracketOf]

theorem formed_bracket (h : balanced [] ls = true) :
    formed (.opening '[' :: ls ++ [.closing ']']) = [.block 0 .square (formed ls)] := by
  change nest [⟨0, none, .square, []⟩] [] ((ls ++ [Lexeme.closing ']']).map (0, ·)) = _
  rw [List.map_append, nest_of_balanced h]
  simp [nest, Open.close, bracketOf]

/-! ## Neighbours -/

/-- Nothing has to be put between a neighbour of the kind `S` and what looks like `b`. -/
def Meets (S : Edge → Prop) (b : Edge) : Prop :=
  ∀ a, S a → a.runsInto b = false ∧ a ≠ .sign ['\\']

theorem gapText_of_meets {c : Component} (h : Meets S c.edge) {before : Option Edge}
    (hBefore : ∀ a ∈ before, S a) : gapText before c = [] := by
  cases before with
  | none => rfl
  | some a =>
    obtain ⟨hRuns, hEscape⟩ := h a (hBefore a rfl)
    exact gapText_eq_nil hRuns hEscape

/-- Lexemes that are written as the text behind every neighbour of the kind `S`, and are a
neighbour of the kind `S'` to what follows. -/
structure Forms (S S' : Edge → Prop) (ls : List Lexeme) (text : List Char) : Prop where
  balanced : balanced [] ls = true
  whole : endsInString (formed ls) = false
  written : ∀ before, (∀ a ∈ before, S a) → writtenAfter before (formed ls) = text
  last : ∀ before : Option Edge, (∀ a ∈ before, S a) → ∀ a ∈ lastEdge before (formed ls), S' a

namespace Forms

theorem nil : Forms S S [] [] where
  balanced := rfl
  whole := rfl
  written _ _ := rfl
  last _ h := h

theorem append (h : Forms S S' ls text) (h' : Forms S' S'' ls' text') :
    Forms S S'' (ls ++ ls') (text ++ text') where
  balanced := (balanced_append h.balanced []).trans h'.balanced
  whole := by
    rw [formed_append h.balanced h'.balanced]
    exact endsInString_append h.whole h'.whole
  written before hBefore := by
    rw [formed_append h.balanced h'.balanced, writtenAfter_append, h.written before hBefore,
      h'.written _ (h.last before hBefore)]
  last before hBefore := by
    rw [formed_append h.balanced h'.balanced, lastEdge_append]
    exact h'.last _ (h.last before hBefore)

theorem mono (h : Forms S S' ls text) (hFront : ∀ a, T a → S a) (hBehind : ∀ a, S' a → T' a) :
    Forms T T' ls text where
  balanced := h.balanced
  whole := h.whole
  written before hBefore := h.written before fun a ha => hFront a (hBefore a ha)
  last before hBefore a ha := hBehind a (h.last before (fun b hb => hFront b (hBefore b hb)) a ha)

theorem component {c : Component} (hBalanced : Css.balanced [] ls = true) (hFormed : formed ls = [c])
    (hWhole : c.isCutOff = false) (hMeets : Meets S c.edge) (hEdge : S' c.edge)
    (hWritten : c.written = text) : Forms S S' ls text where
  balanced := hBalanced
  whole := by
    rw [hFormed]
    exact hWhole
  written before hBefore := by
    rw [hFormed, writtenAfter, writtenAfter, gapText_of_meets hMeets hBefore, hWritten,
      List.nil_append, List.append_nil]
  last before hBefore a ha := by
    rw [hFormed] at ha
    cases ha
    exact hEdge

/-- A lexeme that is no bracket. -/
theorem single (hFlat : Css.balanced [] [l] = true) (hWhole : l ≠ .flaw .endInString)
    (hMeets : Meets S (Component.lexeme 0 l).edge) (hEdge : S' (Component.lexeme 0 l).edge) :
    Forms S S' [l] l.written := by
  have hFormed : formed [l] = [.lexeme 0 l] := formed_cons hFlat rfl
  exact component hFlat hFormed (beq_eq_false_iff_ne.mpr hWhole) hMeets hEdge rfl

/-- A function with its arguments. -/
theorem function (name : List Char) (h : Forms T T' ls text) (hMeets : Meets S .function)
    (hEdge : S' .function) :
    Forms S S' (.function name :: ls ++ [.closing ')']) (writtenName name ++ '(' :: text ++ [')']) := by
  refine component (balanced_append h.balanced [.round]) (formed_function name h.balanced) h.whole hMeets
    hEdge ?_
  rw [Component.written, h.written none nofun, h.whole]
  simp

/-- A block between square brackets. -/
theorem bracket (h : Forms T T' ls text) (hMeets : Meets S .other) (hEdge : S' .other) :
    Forms S S' (.opening '[' :: ls ++ [.closing ']']) ('[' :: text ++ [']']) := by
  refine component (balanced_append h.balanced [.square]) (formed_bracket h.balanced) rfl hMeets hEdge ?_
  rw [Component.written, h.written none nofun]
  rfl

/-- Lexemes that stand alone or behind a blank. -/
theorem alone (hBalanced : Css.balanced [] ls = true) (hWhole : endsInString (formed ls) = false) :
    Forms (· = .other) (fun _ => True) ls (writtenAfter none (formed ls)) where
  balanced := hBalanced
  whole := hWhole
  written before hBefore := by
    cases before with
    | none => rfl
    | some a =>
      rw [hBefore a rfl]
      exact writtenAfter_blank (formed ls)
  last _ _ _ _ := trivial

end Forms

/-! ## Kinds of neighbours -/

/-- Every neighbour but a backslash that is no escape. -/
def AnyEdge (a : Edge) : Prop := a ≠ .sign ['\\']

/-- A neighbour that a name may follow. -/
def AdmitsName (a : Edge) : Prop := a.runsInto .name = false ∧ a ≠ .sign ['\\']

theorem meets_other : Meets AnyEdge .other := fun a ha => ⟨runsInto_other a, ha⟩

theorem admitsName_other : AdmitsName .other := by
  constructor <;> decide

instance : DecidablePred AnyEdge := fun a => inferInstanceAs (Decidable (a ≠ .sign ['\\']))

theorem anyEdge_other : AnyEdge .other := by decide

theorem anyEdge_name : AnyEdge .name := by decide

theorem AdmitsName.anyEdge {a : Edge} (h : AdmitsName a) : AnyEdge a := h.2

theorem Forms.name (value : List Char) :
    Forms AdmitsName (· = .name) [.name value] (writtenName value) :=
  .single rfl (by simp) (fun _ ha => ha) rfl

theorem Forms.blank (gap : List Char) : Forms AnyEdge (· = .other) [.blank gap] gap :=
  .single rfl (by simp) meets_other rfl

theorem Forms.quoted (written : List Char) : Forms AnyEdge (· = .other) [.text written] written :=
  .single rfl (by simp) meets_other rfl

/-! ## Lexemes without commas between them -/

/-- Lexemes that have no comma outside of their brackets. -/
structure IsUncut (ls : List Lexeme) : Prop where
  balanced : balanced [] ls = true
  edges : ∀ c ∈ formed ls, c.edge ≠ .sign [',']

namespace IsUncut

theorem nil : IsUncut [] := ⟨rfl, nofun⟩

theorem append (h : IsUncut ls) (h' : IsUncut ls') : IsUncut (ls ++ ls') where
  balanced := (balanced_append h.balanced []).trans h'.balanced
  edges c hc := by
    rw [formed_append h.balanced h'.balanced, List.mem_append] at hc
    rcases hc with hc | hc
    · exact h.edges c hc
    · exact h'.edges c hc

theorem component {c : Component} (hBalanced : Css.balanced [] ls = true) (hFormed : formed ls = [c])
    (hEdge : c.edge ≠ .sign [',']) : IsUncut ls where
  balanced := hBalanced
  edges d hd := by
    rw [hFormed, List.mem_singleton] at hd
    rw [hd]
    exact hEdge

/-- A lexeme that is no bracket. -/
theorem single (hFlat : Css.balanced [] [l] = true)
    (hEdge : (Component.lexeme 0 l).edge ≠ .sign [',']) : IsUncut [l] :=
  component hFlat (formed_cons hFlat rfl) hEdge

theorem function (name : List Char) (h : Css.balanced [] ls = true) :
    IsUncut (.function name :: ls ++ [.closing ')']) :=
  component (balanced_append h [.round]) (formed_function name h) (by simp [Component.edge])

theorem bracket (h : Css.balanced [] ls = true) : IsUncut (.opening '[' :: ls ++ [.closing ']']) :=
  component (balanced_append h [.square]) (formed_bracket h) (by simp [Component.edge])

end IsUncut

end StyleSieve.Css
