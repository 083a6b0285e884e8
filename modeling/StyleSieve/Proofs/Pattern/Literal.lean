import Mathlib.Data.List.Infix
import StyleSieve.Pattern.Escape
import StyleSieve.Proofs.Pattern.Plain
import StyleSieve.Safelist

/-!
# Patterns of literal texts

Every character of an escaped text is read as itself, so that the pattern of an escaped text has one
node for each character of the text. Such a pattern is found just where the text stands.

* `compile_escape`: the pattern of an escaped text.
* `search_literal_iff`: a literal pattern is found in the texts that its text is a part of.
-/

namespace StyleSieve.Pattern

variable {c : Char} {cs : List Char} {s : State} {items : List Node} {top first : Bool} {fuel : Nat}

/-- The pattern that an escaped text is read as. -/
def literal (text : String) : Pattern := { plain text with source := escape text }

/-! ## Reading -/

/-- A character as it stands in an escaped text. -/
def escaped (c : Char) : List Char := if isSpecial c then ['\\', c] else [c]

theorem toList_escape (text : String) : (escape text).toList = text.toList.flatMap escaped := by
  rw [escape, String.toList_ofList]
  rfl

theorem isSpecial_of_mem_signs (h : c ∈ signs) : isSpecial c = true := by
  revert c
  decide

/-- No special character has a meaning behind a backslash. -/
theorem readEscape_special [Runtime] (h : isSpecial c = true) (s : State) :
    (readEscape c).run s = .ok (.literal c.toNat, s) := by
  rw [isSpecial, List.contains_iff_mem] at h
  revert c
  change ∀ c ∈ ['(', ')', '[', ']', '{', '}', '?', '*', '+', '-', '|', '^', '$', '\\', '.', '&', '~',
    '#', ' ', '\t', '\n', '\r', '\x0b', '\x0c'], (readEscape c).run s = .ok (.literal c.toNat, s)
  simp only [List.forall_mem_cons]
  exact ⟨rfl, rfl, rfl, rfl, rfl, rfl, rfl, rfl, rfl, rfl, rfl, rfl, rfl, rfl, rfl, rfl, rfl, rfl, rfl,
    rfl, rfl, rfl, rfl, rfl, nofun⟩

/-- No escaped text is a lone backslash: that would be a backslash that escapes nothing. -/
theorem flatMap_escaped_ne_slash (cs : List Char) : cs.flatMap escaped ≠ ['\\'] := by
  cases cs with
  | nil => nofun
  | cons c rest =>
    rw [List.flatMap_cons, escaped]
    split
    · nofun
    · rename_i hPlain
      intro h
      obtain ⟨rfl, -⟩ := List.cons.inj h
      exact hPlain (by decide)

/-- The parentheses of an escaped text stand behind backslashes. -/
theorem opensGroup_flatMap_escaped (cs : List Char) : opensGroup (cs.flatMap escaped) = false := by
  induction cs with
  | nil => rfl
  | cons c rest ih =>
    rw [List.flatMap_cons, escaped]
    split
    · exact ih
    · rename_i hPlain
      have hSlash : c ≠ '\\' := by
        rintro rfl
        exact hPlain (by decide)
      have hOpen : c ≠ '(' := by
        rintro rfl
        exact hPlain (by decide)
      rw [List.singleton_append, opensGroup_cons hSlash, ih, Bool.or_false]
      exact beq_false_of_ne hOpen

/-- An escaped character adds its node. -/
theorem readSequence_escaped [Runtime] (hs : s.rest = escaped c ++ cs.flatMap escaped) :
    (readSequence top first false (fuel + 1) items).run s =
      (readSequence top first false fuel (.literal c.toNat :: items)).run
        (s.advance (escaped c).length) := by
  rw [escaped] at hs ⊢
  split at hs
  · rename_i hSpecial
    have hBehind : s.rest.drop 2 ≠ ['\\'] := by
      rw [hs]
      exact flatMap_escaped_ne_slash cs
    have hPeek : symbolAt s.rest = some (.escaped c) := by
      rw [hs]
      rfl
    rw [if_pos hSpecial, readSequence, StateT.run_bind, peek_run, hPeek, ok_bind]
    dsimp only
    rw [StateT.run_bind, pass_run hBehind, ok_bind]
    dsimp only
    rw [StateT.run_bind, readEscape_special hSpecial, ok_bind]
    rfl
  · rename_i hPlain
    have hSign : c ∉ signs := fun h => hPlain (isSpecial_of_mem_signs h)
    have hDot : nodeOf c = .literal c.toNat := by
      rw [nodeOf, if_neg]
      intro h
      rw [eq_of_beq h] at hPlain
      exact hPlain (by decide)
    rw [if_neg hPlain, readSequence_plain hSign (flatMap_escaped_ne_slash cs) hs, hDot]
    rfl

/-- The characters of an escaped text add their nodes. -/
theorem readSequence_of_escaped [Runtime] (hs : s.rest = cs.flatMap escaped) (hFuel : cs.length < fuel) :
    (readSequence top first false fuel items).run s =
      .ok (items.reverse ++ cs.map fun c => .literal c.toNat,
        s.advance (cs.flatMap escaped).length) := by
  induction cs generalizing s items fuel with
  | nil =>
    obtain ⟨fuel, rfl⟩ := Nat.exists_eq_succ_of_ne_zero (Nat.ne_of_gt hFuel)
    rw [readSequence_nil hs]
    simp
  | cons c rest ih =>
    obtain ⟨fuel, rfl⟩ := Nat.exists_eq_succ_of_ne_zero (Nat.ne_of_gt (Nat.zero_lt_of_lt hFuel))
    rw [List.flatMap_cons] at hs
    have hBehind : (s.advance (escaped c).length).rest = rest.flatMap escaped := by
      rw [State.advance, hs]
      exact List.drop_left
    rw [readSequence_escaped hs, ih hBehind (Nat.lt_of_succ_lt_succ hFuel)]
    simp

theorem length_le_flatMap_escaped (cs : List Char) : cs.length ≤ (cs.flatMap escaped).length := by
  induction cs with
  | nil => exact Nat.le_refl 0
  | cons c rest ih =>
    have hOne : 1 ≤ (escaped c).length := by
      rw [escaped]
      split <;> simp
    rw [List.flatMap_cons, List.length_append, List.length_cons]
    omega

/-- The pattern of an escaped text. -/
theorem compile_escape [Runtime] (text : String) : compile (escape text) = .ok (literal text) := by
  refine compile_of_readSequence ?_ ?_ ?_ ?_
  · rw [toList_escape]
    exact opensGroup_flatMap_escaped text.toList
  · rw [toList_escape]
    exact flatMap_escaped_ne_slash text.toList
  · intro s fuel hs hFuel
    rw [toList_escape] at hs hFuel ⊢
    exact readSequence_of_escaped hs ((length_le_flatMap_escaped text.toList).trans_lt hFuel)
  · intro node hNode
    obtain ⟨c, -, rfl⟩ := List.mem_map.mp hNode
    rfl

/-! ## Matching -/

/-- Nodes for characters match just a text that begins with these. -/
theorem isSome_runAll_literal_iff {groups : List (Option Width)} {part : List Char} {p : Progress} :
    (runAll groups {} some (part.map fun c => .literal c.toNat) p).isSome = true ↔
      part <+: p.ahead := by
  induction part generalizing p with
  | nil => exact iff_of_true rfl List.nil_prefix
  | cons c rest ih =>
    rw [List.map_cons, runAll, Node.run, oneChar]
    cases hAhead : p.ahead with
    | nil => simp
    | cons d ahead =>
      rw [List.cons_prefix_cons]
      have hSame : isLiteral {} c.toNat d = true ↔ c = d := by
        rw [isLiteral, if_neg Bool.false_ne_true, beq_iff_eq, Char.toNat_inj]
      dsimp only
      split
      · rename_i hLiteral
        rw [and_iff_right (hSame.mp hLiteral)]
        exact ih
      · rename_i hOther
        exact iff_of_false (by simp) fun h => hOther (hSame.mpr h.1)

theorem searchFrom_literal_iff {source part : String} {before ahead : List Char} {offset : Nat} :
    searchFrom ⟨source, {}, part.toList.map fun c => .literal c.toNat, [none]⟩ before offset ahead =
        true ↔
      part.toList <:+: ahead := by
  induction ahead generalizing before offset with
  | nil =>
    rw [searchFrom, Bool.or_false, isSome_runAll_literal_iff, List.prefix_nil, List.infix_nil]
  | cons c rest ih =>
    rw [searchFrom, Bool.or_eq_true, isSome_runAll_literal_iff, List.infix_cons_iff]
    exact or_congr_right ih

/-- A literal pattern is found in the texts that its text is a part of. -/
theorem search_literal_iff {part text : String} :
    (literal part).search text = true ↔ part.toList <:+: text.toList :=
  searchFrom_literal_iff

end StyleSieve.Pattern
