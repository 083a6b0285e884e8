import StyleSieve.Proofs.Css.Spelling
import StyleSieve.Proofs.Stylesheet.Gather
import StyleSieve.Proofs.Text.Trim

/-!
# Steady rules

A rule is steady if its parts are read back as they are written, and so is each of its selectors
where a prelude starts. Then every choice of its selectors makes a readable rule.

* `StyleRule.IsReadable`: what is written of the rule is read as this rule.
* `StyleRule.isReadable_withSelectors`: a steady rule is readable with any of its selectors.
-/

namespace StyleSieve

open Css Stylesheet

namespace Stylesheet

/-- A text that is read as the lexemes of a prelude where a rule may start. -/
structure HeadsRule [Surrogates] (s : List Char) (ls : List Lexeme) : Prop where
  spells : Spells s ls
  starts : startsRule (formed ls) = true
  flat : ∀ c ∈ formed ls, isCurly c = false
  unspaced : s.head?.any Text.isBlank = false

/-- A text that is read as one selector, wherever it stands in a prelude. -/
structure IsSelector [Surrogates] (s : List Char) (ls : List Lexeme) : Prop extends HeadsRule s ls where
  single : ∀ c ∈ formed ls, c.edge ≠ .sign [',']
  trimmed : Text.trimChars s = s
  some : s ≠ []

instance [Surrogates] (s : List Char) (ls : List Lexeme) : Decidable (HeadsRule s ls) :=
  decidable_of_iff (Spells s ls ∧ startsRule (formed ls) = true ∧
      (∀ c ∈ formed ls, isCurly c = false) ∧ s.head?.any Text.isBlank = false)
    ⟨fun ⟨hSpells, hStarts, hFlat, hUnspaced⟩ => ⟨hSpells, hStarts, hFlat, hUnspaced⟩,
      fun h => ⟨h.spells, h.starts, h.flat, h.unspaced⟩⟩

instance [Surrogates] (s : List Char) (ls : List Lexeme) : Decidable (IsSelector s ls) :=
  decidable_of_iff (HeadsRule s ls ∧ (∀ c ∈ formed ls, c.edge ≠ .sign [',']) ∧
      Text.trimChars s = s ∧ s ≠ [])
    ⟨fun ⟨hHeads, hSingle, hTrimmed, hSome⟩ => ⟨hHeads, hSingle, hTrimmed, hSome⟩,
      fun h => ⟨h.toHeadsRule, h.single, h.trimmed, h.some⟩⟩

theorem HeadsRule.not_isBlank [Surrogates] {s : List Char} {ls : List Lexeme} (h : HeadsRule s ls) :
    ∀ c ∈ s.head?, Text.isBlank c = false := by
  intro c hc
  have hHead := h.unspaced
  rw [Option.mem_def.mp hc] at hHead
  exact hHead

/-! ## Lists of selectors -/

/-- A text that is read as one selector of a list. -/
structure IsEntry [Surrogates] (s : List Char) (ls : List Lexeme) : Prop where
  spells : Spells s ls
  flat : ∀ c ∈ formed ls, isCurly c = false
  single : ∀ c ∈ formed ls, c.edge ≠ .sign [',']
  trimmed : Text.trimChars s = s
  some : s ≠ []

theorem IsSelector.isEntry [Surrogates] {s : List Char} {ls : List Lexeme} (h : IsSelector s ls) :
    IsEntry s ls :=
  ⟨h.spells, h.flat, h.single, h.trimmed, h.some⟩

theorem IsEntry.not_isBlank [Surrogates] {s : List Char} {ls : List Lexeme} (h : IsEntry s ls) :
    ∀ c ∈ s.head?, Text.isBlank c = false := by
  have hBare := Text.isBare_trimChars s
  rw [h.trimmed] at hBare
  exact hBare.start

/-- The selectors of a list from its parts. -/
def selectorsOf (parts : List (List Component)) : List String :=
  (parts.map fun part => Text.trim (written part)).filter fun s => !s.isEmpty

variable {current cs rest : List Component}

theorem splitAtCommas_single (h : ∀ c ∈ cs, c.edge ≠ .sign [',']) :
    splitAtCommas current cs = [current.reverse ++ cs] := by
  induction cs generalizing current with
  | nil => rw [splitAtCommas, List.append_nil]
  | cons c cs ih =>
    rw [splitAtCommas, if_neg fun hEdge => h c List.mem_cons_self (eq_of_beq hEdge),
      ih fun d hd => h d (List.mem_cons_of_mem c hd), List.reverse_cons, List.append_assoc]
    rfl

theorem splitAtCommas_comma (h : ∀ c ∈ cs, c.edge ≠ .sign [',']) (n : Nat) :
    splitAtCommas current (cs ++ .lexeme n (.sign [',']) :: rest) =
      (current.reverse ++ cs) :: splitAtCommas [] rest := by
  induction cs generalizing current with
  | nil => rw [List.nil_append, splitAtCommas, if_pos (by rfl), List.append_nil]
  | cons c cs ih =>
    rw [List.cons_append, splitAtCommas,
      if_neg fun hEdge => h c List.mem_cons_self (eq_of_beq hEdge),
      ih fun d hd => h d (List.mem_cons_of_mem c hd), List.reverse_cons, List.append_assoc]
    rfl

/-- What may stand in front of a selector in a list: nothing, or the blank behind a comma. -/
def IsLead (lead : List Component) : Prop := lead = [] ∨ lead = [.lexeme 0 (.blank [' '])]

theorem trim_written_lead [Surrogates] {s : List Char} {ls : List Lexeme} (h : IsEntry s ls)
    {lead : List Component} (hLead : IsLead lead) :
    Text.trim (written (lead.reverse ++ formed ls)) = String.ofList s := by
  rcases hLead with rfl | rfl
  · rw [List.reverse_nil, List.nil_append, written, h.spells.written, Text.trim,
      String.toList_ofList, h.trimmed]
  · have hWritten : writtenAfter none ([.lexeme 0 (.blank [' '])] ++ formed ls) = ' ' :: s := by
      rw [writtenAfter_append]
      change ' ' :: writtenAfter (some .other) (formed ls) = ' ' :: s
      rw [writtenAfter_blank, h.spells.written]
    rw [List.reverse_singleton, written, hWritten, Text.trim, String.toList_ofList, Text.trimChars,
      Text.trimStartChars, List.dropWhile_cons_of_pos (by rfl)]
    exact congrArg String.ofList h.trimmed

theorem selectorsOf_cons [Surrogates] {s : List Char} {ls : List Lexeme} (h : IsEntry s ls)
    {lead : List Component} (hLead : IsLead lead) (parts : List (List Component)) :
    selectorsOf ((lead.reverse ++ formed ls) :: parts) = String.ofList s :: selectorsOf parts := by
  rw [selectorsOf, List.map_cons, trim_written_lead h hLead,
    List.filter_cons_of_pos (by simpa using h.some)]
  rfl

/-- The text of a list of selectors. -/
def listed (selectors : List String) : List Char := (String.intercalate ", " selectors).toList

theorem listed_cons_cons (s t : String) (more : List String) :
    listed (s :: t :: more) = s.toList ++ ',' :: ' ' :: listed (t :: more) := by
  rw [listed, String.intercalate_cons_cons, String.toList_append, String.toList_append,
    List.append_assoc]
  rfl

theorem formed_ne_nil [Surrogates] {s : List Char} {ls : List Lexeme} (h : IsEntry s ls) :
    formed ls ≠ [] := by
  intro hNone
  refine h.some ?_
  rw [← h.spells.written, hNone]
  rfl

theorem startsRule_append (hSome : cs ≠ []) : startsRule (cs ++ rest) = startsRule cs := by
  cases cs with
  | nil => exact absurd rfl hSome
  | cons c cs =>
    cases c with
    | lexeme n l => cases l <;> rfl
    | _ => rfl

theorem isBlank_css {c : Char} (h : Text.isBlank c = false) : Css.isBlank c = false := by
  refine Bool.eq_false_iff.mpr fun hBlank => ?_
  obtain (rfl | rfl) | rfl : (c = ' ' ∨ c = '\n') ∨ c = '\t' := by
    simpa [Css.isBlank] using hBlank
  all_goals cases h

/-- Lexemes that a list of selectors is read as and split into again, also behind a comma. -/
structure IsList [Surrogates] (selectors : List String) (ls : List Lexeme) : Prop where
  spells : Spells (listed selectors) ls
  flat : ∀ c ∈ formed ls, isCurly c = false
  unspaced : ∀ c ∈ (listed selectors).head?, Text.isBlank c = false
  split : ∀ lead, IsLead lead → selectorsOf (splitAtCommas lead (formed ls)) = selectors

section Listed

variable {s : String} {ls : List Lexeme} {more : List String}

theorem isList_singleton [Surrogates] (h : IsEntry s.toList ls) : IsList [s] ls := by
  have hListed : listed [s] = s.toList := by rw [listed, String.intercalate_singleton]
  refine ⟨hListed ▸ h.spells, h.flat, hListed ▸ h.not_isBlank, fun lead hLead => ?_⟩
  rw [splitAtCommas_single h.single, selectorsOf_cons h hLead, String.ofList_toList]
  rfl

/-- A selector may be put in front of a list. -/
theorem IsEntry.comma [Surrogates] {t : String} {ls' : List Lexeme} (h : IsEntry s.toList ls)
    (h' : IsList (t :: more) ls') : IsList (s :: t :: more) (ls ++ .sign [','] :: .blank [' '] :: ls') where
  spells := by
    rw [listed_cons_cons]
    exact h.spells.comma h'.spells fun c hc => isBlank_css (h'.unspaced c hc)
  flat := by
    rw [h.spells.formed_comma h'.spells]
    intro c hc
    rcases List.mem_append.mp hc with hc | hc
    · exact h.flat c hc
    · rcases List.mem_cons.mp hc with rfl | hc
      · rfl
      · rcases List.mem_cons.mp hc with rfl | hc
        · rfl
        · exact h'.flat c hc
  unspaced := by
    have hHead := h.not_isBlank
    rw [listed_cons_cons]
    obtain ⟨c, rest, hText⟩ := List.exists_cons_of_ne_nil h.some
    rw [hText] at hHead ⊢
    exact hHead
  split := by
    intro lead hLead
    rw [h.spells.formed_comma h'.spells, splitAtCommas_comma h.single, selectorsOf_cons h hLead,
      String.ofList_toList, splitAtCommas]
    exact congrArg _ (h'.split _ (Or.inr rfl))

theorem exists_isList [Surrogates] (h : IsEntry s.toList ls)
    (hMore : ∀ t ∈ more, ∃ ls, IsEntry t.toList ls) :
    ∃ ms behind, IsList (s :: more) ms ∧ formed ms = formed ls ++ behind := by
  induction more generalizing s ls with
  | nil => exact ⟨ls, [], isList_singleton h, (List.append_nil _).symm⟩
  | cons t more ih =>
    obtain ⟨ts, hNext⟩ := hMore t List.mem_cons_self
    obtain ⟨ms, -, hList, -⟩ := ih hNext fun u hu => hMore u (List.mem_cons_of_mem t hu)
    exact ⟨_, _, h.comma hList, h.spells.formed_comma hList.spells⟩

/-- Selectors that are listed head a rule if the first one does, and the list is split into them
again. -/
theorem headsRule_listed [Surrogates] (h : IsEntry s.toList ls) (hStarts : startsRule (formed ls) = true)
    (hMore : ∀ t ∈ more, ∃ ls, IsEntry t.toList ls) :
    ∃ ms, HeadsRule (listed (s :: more)) ms ∧ splitSelectors (formed ms) = s :: more := by
  obtain ⟨ms, behind, hList, hFormed⟩ := exists_isList h hMore
  refine ⟨ms, ⟨hList.spells, ?_, hList.flat, ?_⟩, hList.split [] (Or.inl rfl)⟩
  · rw [hFormed, startsRule_append (formed_ne_nil h)]
    exact hStarts
  · cases hHead : (listed (s :: more)).head? with
    | none => rfl
    | some c => exact hList.unspaced c hHead

end Listed

end Stylesheet

/-! ## Rules -/

namespace StyleRule

/-- What is written of the rule is read as this rule again. -/
structure IsReadable [Surrogates] (rule : StyleRule) : Prop where
  prelude : ∃ ls, HeadsRule rule.prelude.toList ls ∧ splitSelectors (formed ls) = rule.selectors
  block : ∃ ls, Spells rule.block.toList ls

/-- The parts of the rule are read as they are written, and so is each of its selectors. -/
structure IsSteady [Surrogates] (rule : StyleRule) : Prop where
  prelude : HeadsRule rule.prelude.toList (lexemes rule.prelude.toList)
  split : splitSelectors (formed (lexemes rule.prelude.toList)) = rule.selectors
  selectors : ∀ s ∈ rule.selectors, IsSelector s.toList (lexemes s.toList)
  block : Spells rule.block.toList (lexemes rule.block.toList)

instance [Surrogates] : DecidablePred IsSteady := fun rule =>
  decidable_of_iff (HeadsRule rule.prelude.toList (lexemes rule.prelude.toList) ∧
      splitSelectors (formed (lexemes rule.prelude.toList)) = rule.selectors ∧
      (∀ s ∈ rule.selectors, IsSelector s.toList (lexemes s.toList)) ∧
      Spells rule.block.toList (lexemes rule.block.toList))
    ⟨fun ⟨hPrelude, hSplit, hSelectors, hBlock⟩ => ⟨hPrelude, hSplit, hSelectors, hBlock⟩,
      fun h => ⟨h.prelude, h.split, h.selectors, h.block⟩⟩

variable {rule : StyleRule}

theorem IsSteady.isReadable [Surrogates] (h : rule.IsSteady) : rule.IsReadable :=
  ⟨⟨_, h.prelude, h.split⟩, _, h.block⟩

/-- A steady rule is readable with any of its selectors. -/
theorem IsSteady.isReadable_withSelectors [Surrogates] (h : rule.IsSteady) {kept : List String}
    (hSome : kept ≠ []) (hKept : ∀ s ∈ kept, s ∈ rule.selectors) :
    (rule.withSelectors kept).IsReadable := by
  unfold withSelectors
  split
  · exact h.isReadable
  · obtain ⟨first, more, rfl⟩ := List.exists_cons_of_ne_nil hSome
    have hFirst := h.selectors first (hKept first List.mem_cons_self)
    obtain ⟨ls, hHeads, hSplit⟩ := headsRule_listed hFirst.isEntry hFirst.starts fun s hs =>
      ⟨_, (h.selectors s (hKept s (List.mem_cons_of_mem first hs))).isEntry⟩
    exact ⟨⟨ls, hHeads, hSplit⟩, _, h.block⟩

end StyleRule

/-! ## Nodes -/

namespace Stylesheet

/-- The text of a blank. -/
def isBlankText (s : List Char) : Bool := !s.isEmpty && s.all Css.isBlank

/-- The text of a comment that ends where it is closed first. -/
def isCommentText (s : List Char) : Bool :=
  s == (Lexeme.comment (readComment (s.drop 2)).1).written && s.all isPlain

/-- The head of an at-rule: a text that is read as its keyword and the lexemes of a prelude. -/
structure HeadsAtRule [Surrogates] (keyword prelude : String) (ls : List Lexeme) : Prop where
  plain : ('@' :: keyword.toList ++ prelude.toList).all isPlain = true
  reads : Reads ('@' :: keyword.toList ++ prelude.toList) (.atName keyword.toList :: ls)
  balanced : balanced [] ls = true
  written : writtenAfter none (formed ls) = prelude.toList
  inside : ∀ c ∈ formed ls, isInAtRule c = true

instance [Surrogates] (keyword prelude : String) (ls : List Lexeme) :
    Decidable (HeadsAtRule keyword prelude ls) :=
  decidable_of_iff (('@' :: keyword.toList ++ prelude.toList).all isPlain = true ∧
      Reads ('@' :: keyword.toList ++ prelude.toList) (.atName keyword.toList :: ls) ∧
      balanced [] ls = true ∧ writtenAfter none (formed ls) = prelude.toList ∧
      ∀ c ∈ formed ls, isInAtRule c = true)
    ⟨fun ⟨hPlain, hReads, hBalanced, hWritten, hInside⟩ =>
        ⟨hPlain, hReads, hBalanced, hWritten, hInside⟩,
      fun h => ⟨h.plain, h.reads, h.balanced, h.written, h.inside⟩⟩

/-- The lexemes behind the keyword of an at-rule. -/
def atRuleLexemes [Surrogates] (keyword prelude : String) : List Lexeme :=
  (lexemes ('@' :: keyword.toList ++ prelude.toList)).tail

end Stylesheet

namespace Node

mutual

/-- All parts of a node are read as they are written, where `fits` tells so of style rules. -/
def Spelled [Surrogates] (fits : StyleRule → Prop) : Node → Prop
  | .verbatim text => isBlankText text.toList = true ∨ isCommentText text.toList = true
  | .style rule => fits rule
  | .statement keyword prelude none =>
    HeadsAtRule keyword prelude (atRuleLexemes keyword prelude)
  | .statement keyword prelude (some block) =>
    HeadsAtRule keyword prelude (atRuleLexemes keyword prelude) ∧
      isGroupKeyword keyword.toList = false ∧ Spells block.toList (lexemes block.toList)
  | .group keyword prelude children =>
    HeadsAtRule keyword prelude (atRuleLexemes keyword prelude) ∧
      isGroupKeyword keyword.toList = true ∧ SpelledAll fits children

/-- All parts of all nodes are read as they are written. -/
def SpelledAll [Surrogates] (fits : StyleRule → Prop) : List Node → Prop
  | [] => True
  | node :: rest => node.Spelled fits ∧ SpelledAll fits rest

end

mutual

instance decidableSpelled [Surrogates] (fits : StyleRule → Prop) [DecidablePred fits] :
    (node : Node) → Decidable (node.Spelled fits)
  | .verbatim _ => inferInstanceAs (Decidable (_ ∨ _))
  | .style rule => inferInstanceAs (Decidable (fits rule))
  | .statement keyword prelude none => inferInstanceAs (Decidable (HeadsAtRule keyword prelude _))
  | .statement _ _ (some _) => inferInstanceAs (Decidable (_ ∧ _ ∧ _))
  | .group _ _ children =>
    have := decidableSpelledAll fits children
    inferInstanceAs (Decidable (_ ∧ _ ∧ _))

instance decidableSpelledAll [Surrogates] (fits : StyleRule → Prop) [DecidablePred fits] :
    (nodes : List Node) → Decidable (SpelledAll fits nodes)
  | [] => isTrue trivial
  | node :: rest =>
    have := decidableSpelled fits node
    have := decidableSpelledAll fits rest
    inferInstanceAs (Decidable (_ ∧ _))

end

variable {fits : StyleRule → Prop} {node : Node} {nodes rest : List Node}

theorem spelledAll_append [Surrogates] :
    SpelledAll fits (nodes ++ rest) ↔ SpelledAll fits nodes ∧ SpelledAll fits rest := by
  induction nodes with
  | nil => simp [SpelledAll]
  | cons node more ih => rw [List.cons_append, SpelledAll, SpelledAll, ih, and_assoc]

theorem spelledAll_singleton [Surrogates] : SpelledAll fits [node] ↔ node.Spelled fits := by
  rw [SpelledAll, SpelledAll, and_true]

end Node

end StyleSieve
