import StyleSieve.Pattern.Reader

/-!
# Patterns without signs

A text without the signs of patterns is a pattern that has one node for each of its characters. Only
the dot stands for any character.

* `readSequence_plain`: what one character adds to what has been read.
* `readSequence_of_plain`: what the characters of a text add.
* `compile_of_readSequence`: the pattern of a text that is read piece by piece to its end.
* `compile_of_plain`: the pattern of a text without signs.
-/

namespace StyleSieve.Pattern

variable {c : Char} {cs rest : List Char} {s : State} {items : List Node} {top first : Bool}
  {fuel n : Nat}

/-- The signs that begin more than a node for one character. -/
def signs : List Char := ['\\', '|', ')', '[', '?', '*', '+', '{', '^', '$', '(']

/-- What a character that is no sign is read as. -/
def nodeOf (c : Char) : Node := if c == '.' then .any else .literal c.toNat

/-- The state behind some more characters. -/
def State.advance (s : State) (n : Nat) : State :=
  { s with rest := s.rest.drop n, offset := s.offset + n }

@[simp] theorem State.advance_zero (s : State) : s.advance 0 = s := rfl

@[simp] theorem State.advance_advance (s : State) (m n : Nat) :
    (s.advance m).advance n = s.advance (m + n) := by
  simp [advance, Nat.add_assoc]

/-! ## Single steps -/

theorem ok_bind {ε α β : Type} (a : α) (f : α → Except ε β) : (Except.ok a >>= f) = f a := rfl

theorem peek_run (s : State) : peek.run s = .ok (symbolAt s.rest, s) := rfl

theorem pass_run (h : s.rest.drop n ≠ ['\\']) : (pass n).run s = .ok ((), s.advance n) := by
  unfold pass
  rw [StateT.run_bind, StateT.run_get, pure_bind]
  dsimp only
  rw [if_neg (by simpa using h)]
  rfl

theorem symbolAt_plain (h : c ≠ '\\') (rest : List Char) :
    symbolAt (c :: rest) = some (.plain c) := by
  unfold symbolAt
  split <;> simp_all

/-- A character that is no sign adds its node. -/
theorem readSequence_plain [Runtime] (h : c ∉ signs) (hRest : rest ≠ ['\\']) (hs : s.rest = c :: rest) :
    (readSequence top first false (fuel + 1) items).run s =
      (readSequence top first false fuel (nodeOf c :: items)).run (s.advance 1) := by
  simp only [signs, List.mem_cons, List.not_mem_nil, or_false, not_or] at h
  have hBehind : s.rest.drop 1 ≠ ['\\'] := by
    rw [hs]
    exact hRest
  rw [readSequence, StateT.run_bind, peek_run, hs, symbolAt_plain h.1, ok_bind]
  dsimp only
  rw [if_neg (by simp [h]), StateT.run_bind, StateT.run_get, pure_bind, StateT.run_bind,
    pass_run hBehind, ok_bind]
  simp only [Bool.false_and, Bool.false_eq_true, if_false, List.contains_cons, List.contains_nil,
    Bool.or_false, beq_iff_eq, Bool.or_eq_true, h, or_self, nodeOf]
  split <;> rfl

theorem readSequence_nil [Runtime] (hs : s.rest = []) :
    (readSequence top first false (fuel + 1) items).run s = .ok (items.reverse, s) := by
  rw [readSequence, StateT.run_bind, peek_run, hs, ok_bind]
  rfl

/-! ## Texts -/

theorem ne_slash_of_plain (h : ∀ c ∈ cs, c ∉ signs) : cs ≠ ['\\'] := by
  rintro rfl
  exact h '\\' List.mem_cons_self (by decide)

/-- The characters of a text without signs add their nodes. -/
theorem readSequence_of_plain [Runtime] (h : ∀ c ∈ cs, c ∉ signs) (hs : s.rest = cs)
    (hFuel : cs.length < fuel) :
    (readSequence top first false fuel items).run s =
      .ok (items.reverse ++ cs.map nodeOf, s.advance cs.length) := by
  induction cs generalizing s items fuel with
  | nil =>
    obtain ⟨fuel, rfl⟩ := Nat.exists_eq_succ_of_ne_zero (Nat.ne_of_gt hFuel)
    rw [readSequence_nil hs]
    simp
  | cons c rest ih =>
    obtain ⟨fuel, rfl⟩ := Nat.exists_eq_succ_of_ne_zero (Nat.ne_of_gt (Nat.zero_lt_of_lt hFuel))
    have hRest : ∀ d ∈ rest, d ∉ signs := fun d hd => h d (List.mem_cons_of_mem _ hd)
    have hBehind : (s.advance 1).rest = rest := congrArg (List.drop 1) hs
    rw [readSequence_plain (h c List.mem_cons_self) (ne_slash_of_plain hRest) hs,
      ih hRest hBehind (Nat.lt_of_succ_lt_succ hFuel)]
    simp [Nat.add_comm 1]

/-! ## Compiled texts -/

theorem opensGroup_cons (h : c ≠ '\\') (rest : List Char) :
    opensGroup (c :: rest) = (c == '(' || opensGroup rest) := by
  rw [opensGroup.eq_def]
  split <;> simp_all

theorem checkAll_of_forall {template : Bool} {groups : List (Option Width)} {nodes : List Node}
    (h : ∀ node ∈ nodes, node.check template groups = .ok ()) :
    checkAll template groups nodes = .ok () := by
  induction nodes with
  | nil => rfl
  | cons node rest ih =>
    rw [checkAll, h node List.mem_cons_self, ok_bind]
    exact ih fun other hOther => h other (List.mem_cons_of_mem _ hOther)

/-- Pieces that are read to the end of the text are the only alternative. -/
theorem readAlternatives_of_readSequence [Runtime] {nodes : List Node}
    (h : (readSequence true true false fuel []).run s = .ok (nodes, s.advance s.rest.length)) :
    (readAlternatives true false (fuel + 1) []).run s = .ok (nodes, s.advance s.rest.length) := by
  have hEnd : (accept '|').run (s.advance s.rest.length) = .ok (false, s.advance s.rest.length) := by
    have hRest : (s.advance s.rest.length).rest = [] := by
      simp [State.advance]
    unfold accept
    rw [StateT.run_bind, peek_run, hRest]
    rfl
  rw [readAlternatives, StateT.run_bind]
  change (readSequence true true false fuel []).run s >>= _ = _
  rw [h, ok_bind]
  dsimp only
  rw [StateT.run_bind, hEnd]
  rfl

/-- A text without groups is a pattern of the pieces that it is read as to its end. -/
theorem compile_of_readSequence [Runtime] {source : String} {nodes : List Node}
    (hFlat : opensGroup source.toList = false) (hStart : source.toList ≠ ['\\'])
    (hRead : ∀ (s : State) (fuel : Nat), s.rest = source.toList → source.toList.length < fuel →
      (readSequence true true false fuel []).run s = .ok (nodes, s.advance source.toList.length))
    (hCheck : ∀ node ∈ nodes, node.check false [none] = .ok ()) :
    compile source = .ok ⟨source, {}, nodes, [none]⟩ := by
  have hRoom : Runtime.exhausts source = false := by
    refine Bool.eq_false_iff.mpr fun h => ?_
    rw [Runtime.opensGroup_of_exhausts source h] at hFlat
    cases hFlat
  have hFuel : source.toList.length < 3 * source.toList.length + 7 := by omega
  have hPass : (pass 0).run ⟨source.toList, 0, {}, [], [none], none, []⟩ =
      .ok ((), ⟨source.toList, 0, {}, [], [none], none, []⟩) := pass_run hStart
  have hAll : (readAll source.toList).run ⟨source.toList, 0, {}, [], [none], none, []⟩ =
      .ok (nodes, ⟨[], source.toList.length, {}, [], [none], none, []⟩) := by
    unfold readAll
    rw [StateT.run_bind, hPass, ok_bind, StateT.run_bind,
      readAlternatives_of_readSequence (hRead _ _ rfl hFuel), ok_bind]
    simp only [State.advance, List.drop_length, Nat.zero_add]
    rfl
  unfold compile
  rw [hRoom]
  change ((readAll source.toList).run _ >>= _) = _
  rw [hAll, ok_bind]
  dsimp only
  rw [checkAll_of_forall hCheck, ok_bind]
  rfl

theorem opensGroup_of_plain (h : ∀ c ∈ cs, c ∉ signs) : opensGroup cs = false := by
  induction cs with
  | nil => rfl
  | cons c rest ih =>
    rw [List.forall_mem_cons] at h
    have hSlash : c ≠ '\\' := by
      rintro rfl
      exact h.1 (by decide)
    have hOpen : c ≠ '(' := by
      rintro rfl
      exact h.1 (by decide)
    rw [opensGroup_cons hSlash, ih h.2, Bool.or_false]
    exact beq_false_of_ne hOpen

/-- A text without signs is a pattern. -/
theorem compile_of_plain [Runtime] {source : String} (h : ∀ c ∈ source.toList, c ∉ signs) :
    compile source = .ok ⟨source, {}, source.toList.map nodeOf, [none]⟩ := by
  refine compile_of_readSequence (opensGroup_of_plain h) (ne_slash_of_plain h) ?_ ?_
  · intro s fuel hs hFuel
    exact readSequence_of_plain h hs hFuel
  · intro node hNode
    obtain ⟨c, -, rfl⟩ := List.mem_map.mp hNode
    unfold nodeOf
    split <;> rfl

end StyleSieve.Pattern
