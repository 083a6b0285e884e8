import StyleSieve.Proofs.Stylesheet.ReadBack
import StyleSieve.Proofs.Text.Trim
import Mathlib.Data.List.Induction

/-!
# Blanks around nodes

The text of nodes starts and ends with a blank only where a node is a blank itself, so what is
trimmed from it is the blank nodes at its ends.

* `exists_trimmed`: the nodes of the trimmed text.
-/

namespace StyleSieve

open Css Stylesheet Node

/-! ## Nodes that are no blanks -/

namespace Stylesheet

theorem isBare_closed {cs : List Char} (hStart : ∀ c ∈ cs.head?, Text.isBlank c = false)
    {last : Char} (hLast : Text.isBlank last = false) : Text.IsBare (cs ++ [last]) where
  start c hc := by
    cases cs with
    | nil =>
      obtain rfl : last = c := Option.some.inj hc
      exact hLast
    | cons d rest => exact hStart c hc
  stop c hc := by
    rw [List.getLast?_concat] at hc
    obtain rfl : last = c := Option.some.inj hc
    exact hLast

theorem isBare_block {head block : String} (h : ∀ c ∈ head.toList.head?, Text.isBlank c = false) :
    Text.IsBare (head ++ "\x7b" ++ block ++ "\x7d").toList := by
  rw [String.toList_append]
  refine isBare_closed (fun c hc => ?_) (by rfl)
  rw [String.toList_append, String.toList_append, List.append_assoc] at hc
  cases hHead : head.toList with
  | nil =>
    rw [hHead] at hc
    obtain rfl : '{' = c := Option.some.inj hc
    rfl
  | cons d rest =>
    rw [hHead] at hc h
    exact h c hc

theorem unspaced_atRule (keyword prelude : String) :
    ∀ c ∈ ("@" ++ keyword ++ prelude).toList.head?, Text.isBlank c = false := by
  intro c hc
  rw [String.toList_append, String.toList_append] at hc
  obtain rfl : '@' = c := Option.some.inj hc
  rfl

theorem isBare_of_spelled [Surrogates] : {node : Node} → node.Spelled StyleRule.IsReadable →
    isBlankNode node = false → Text.IsBare node.text.toList
  | .verbatim text, h, hBlank => by
    have hComment := h.resolve_left (Bool.eq_false_iff.mp hBlank)
    rw [isCommentText, Bool.and_eq_true, beq_iff_eq] at hComment
    rw [Node.text, hComment.1]
    generalize (readComment (text.toList.drop 2)).1 = comment
    have hEnd : (Lexeme.comment comment).written = '/' :: '*' :: comment ++ ['*'] ++ ['/'] := by
      simp [Lexeme.written]
    rw [hEnd]
    refine isBare_closed (fun c hc => ?_) (by rfl)
    obtain rfl : '/' = c := Option.some.inj hc
    rfl
  | .style _, ⟨⟨_, hPrelude, _⟩, _⟩, _ => isBare_block hPrelude.not_isBlank
  | .statement keyword prelude none, _, _ => by
    rw [Node.text, String.toList_append]
    exact isBare_closed (unspaced_atRule keyword prelude) (by rfl)
  | .statement keyword prelude (some _), _, _ => isBare_block (unspaced_atRule keyword prelude)
  | .group keyword prelude _, _, _ => isBare_block (unspaced_atRule keyword prelude)

theorem text_ne_nil [Surrogates] : {node : Node} → node.Spelled StyleRule.IsReadable →
    isBlankNode node = false → node.text.toList ≠ []
  | .verbatim text, h, hBlank => by
    have hComment := h.resolve_left (Bool.eq_false_iff.mp hBlank)
    rw [isCommentText, Bool.and_eq_true, beq_iff_eq] at hComment
    rw [Node.text, hComment.1]
    exact List.cons_ne_nil _ _
  | .style _, _, _ => by simp [Node.text, StyleRule.text]
  | .statement _ _ none, _, _ => by simp [Node.text]
  | .statement _ _ (some _), _, _ => by simp [Node.text]
  | .group _ _ _, _, _ => by simp [Node.text]

/-! ## Blank nodes at the ends -/

variable {nodes : List Node}

theorem isBlank_text {c : Char} (h : Css.isBlank c = true) : Text.isBlank c = true := by
  cases hText : Text.isBlank c with
  | true => rfl
  | false =>
    rw [isBlank_css hText] at h
    cases h

theorem exists_trimmedStart [Surrogates] (h : SpelledAll StyleRule.IsReadable nodes) :
    ∃ inner, SpelledAll StyleRule.IsReadable inner ∧
      (textAll inner).toList = Text.trimStartChars (textAll nodes).toList ∧
      ∀ p, exposedAll p inner = exposedAll p nodes := by
  induction nodes with
  | nil => exact ⟨[], trivial, rfl, fun _ => rfl⟩
  | cons node rest ih =>
    rw [textAll, String.toList_append]
    cases hBlank : isBlankNode node with
    | false =>
      refine ⟨node :: rest, h, ?_, fun _ => rfl⟩
      obtain ⟨c, more, hText⟩ := List.exists_cons_of_ne_nil (text_ne_nil h.1 hBlank)
      have hStart := (isBare_of_spelled h.1 hBlank).start
      rw [textAll, String.toList_append]
      rw [hText] at hStart ⊢
      refine (Text.trimStartChars_of_start ?_).symm
      exact hStart
    | true =>
      cases node with
      | verbatim text =>
        obtain ⟨inner, hInner, hText, hExposed⟩ := ih h.2
        have hAll : ∀ c ∈ text.toList, Text.isBlank c = true := by
          intro c hc
          have hCss := List.all_eq_true.mp (isBlankText_iff.mp hBlank).2
          exact isBlank_text (hCss c hc)
        refine ⟨inner, hInner, ?_, fun p => ?_⟩
        · rw [hText, Node.text, Text.trimStartChars, Text.trimStartChars,
            List.dropWhile_append_of_pos hAll]
        · rw [hExposed, exposedAll_blank hBlank]
      | _ => cases hBlank

theorem textAll_append (nodes rest : List Node) :
    textAll (nodes ++ rest) = textAll nodes ++ textAll rest := by
  induction nodes with
  | nil => simp [textAll]
  | cons node more ih => rw [List.cons_append, textAll, textAll, ih, String.append_assoc]

theorem exposedAll_concat_blank {text : String} (h : isBlankText text.toList = true)
    (p : Protection) : exposedAll p (nodes ++ [.verbatim text]) = exposedAll p nodes := by
  induction nodes generalizing p with
  | nil => exact exposedAll_blank h p
  | cons node rest ih =>
    rw [List.cons_append]
    cases hRule : node.isRule with
    | true => rw [exposedAll_rule hRule, exposedAll_rule hRule, ih, ih]
    | false =>
      cases node with
      | verbatim text => rw [exposedAll, exposedAll, ih]
      | _ => cases hRule

theorem exists_trimmedEnd [Surrogates] (h : SpelledAll StyleRule.IsReadable nodes) :
    ∃ inner, SpelledAll StyleRule.IsReadable inner ∧
      (textAll inner).toList = Text.trimEndChars (textAll nodes).toList ∧
      ∀ p, exposedAll p inner = exposedAll p nodes := by
  induction nodes using List.reverseRecOn with
  | nil => exact ⟨[], trivial, rfl, fun _ => rfl⟩
  | append_singleton more node ih =>
    obtain ⟨hMore, hNode⟩ := spelledAll_append.mp h
    replace hNode := spelledAll_singleton.mp hNode
    have hText : (textAll (more ++ [node])).toList = (textAll more).toList ++ node.text.toList := by
      rw [textAll_append, String.toList_append, textAll, textAll, String.append_empty]
    rw [hText]
    cases hBlank : isBlankNode node with
    | false =>
      refine ⟨more ++ [node], h, ?_, fun _ => rfl⟩
      rw [hText]
      have hLast := List.getLast?_eq_some_getLast (text_ne_nil hNode hBlank)
      refine (Text.trimEndChars_of_stop fun c hc => ?_).symm
      rw [List.getLast?_append, hLast, Option.some_or, ← hLast] at hc
      exact (isBare_of_spelled hNode hBlank).stop c hc
    | true =>
      cases node with
      | verbatim text =>
        obtain ⟨inner, hInner, hTrimmed, hExposed⟩ := ih hMore
        have hAll : ∀ c ∈ text.toList.reverse, Text.isBlank c = true := by
          intro c hc
          have hCss := List.all_eq_true.mp (isBlankText_iff.mp hBlank).2
          exact isBlank_text (hCss c (List.mem_reverse.mp hc))
        refine ⟨inner, hInner, ?_, fun p => ?_⟩
        · rw [hTrimmed, Node.text, Text.trimEndChars, Text.trimEndChars, List.reverse_append,
            List.dropWhile_append_of_pos hAll]
        · rw [hExposed, exposedAll_concat_blank hBlank]
      | _ => cases hBlank

/-- What is trimmed from the text of nodes is blank nodes. -/
theorem exists_trimmed [Surrogates] (h : SpelledAll StyleRule.IsReadable nodes) :
    ∃ inner, SpelledAll StyleRule.IsReadable inner ∧ textAll inner = Text.trim (textAll nodes) ∧
      ∀ p, exposedAll p inner = exposedAll p nodes := by
  obtain ⟨inner, hInner, hText, hExposed⟩ := exists_trimmedStart h
  obtain ⟨core, hCore, hText', hExposed'⟩ := exists_trimmedEnd hInner
  refine ⟨core, hCore, ?_, fun p => (hExposed' p).trans (hExposed p)⟩
  rw [Text.trim, Text.trimChars, ← hText, ← hText', String.ofList_toList]

end Stylesheet

end StyleSieve
