import StyleSieve.Proofs.Purge.Exposed
import StyleSieve.Proofs.Stylesheet.Steady

/-!
# Purging steady style sheets

* `spelledAll_purgeAll`: what a purge leaves of steady nodes is readable.
-/

namespace StyleSieve.Node

variable [Surrogates] {fits fits' : StyleRule → Prop} {nodes : List Node}

mutual

theorem Spelled.mono (hFits : ∀ rule, fits rule → fits' rule) :
    (node : Node) → node.Spelled fits → node.Spelled fits'
  | .verbatim _, h => h
  | .style rule, h => hFits rule h
  | .statement _ _ none, h => h
  | .statement _ _ (some _), h => h
  | .group _ _ children, ⟨hHead, hKeyword, hChildren⟩ =>
    ⟨hHead, hKeyword, SpelledAll.mono hFits children hChildren⟩

theorem SpelledAll.mono (hFits : ∀ rule, fits rule → fits' rule) :
    (nodes : List Node) → SpelledAll fits nodes → SpelledAll fits' nodes
  | [], _ => trivial
  | node :: rest, ⟨hNode, hRest⟩ =>
    ⟨Spelled.mono hFits node hNode, SpelledAll.mono hFits rest hRest⟩

end

variable {keeps : String → Bool}

theorem spelledAll_purgeRule {rule : StyleRule} (h : rule.IsSteady) :
    SpelledAll StyleRule.IsReadable (purgeRule keeps rule).nodes := by
  unfold purgeRule
  dsimp only
  split
  · rename_i hSome
    refine spelledAll_singleton.mpr (h.isReadable_withSelectors (by simpa using hSome) ?_)
    exact fun s hs => (List.mem_filter.mp hs).1
  · split
    · exact spelledAll_singleton.mpr h.isReadable
    · trivial

theorem spelledAll_purge_cases :
    PurgeCases (fun node => node.Spelled StyleRule.IsSteady →
        SpelledAll StyleRule.IsReadable (node.purge keeps).nodes)
      fun p nodes => SpelledAll StyleRule.IsSteady nodes →
        SpelledAll StyleRule.IsReadable (purgeAll keeps p nodes).nodes where
  verbatim text h := spelledAll_singleton.mpr h
  style rule h := spelledAll_purgeRule h
  statement keyword prelude block h := by
    refine spelledAll_singleton.mpr ?_
    exact Spelled.mono (fun _ => StyleRule.IsSteady.isReadable) _ h
  group keyword prelude children ih h := by
    obtain ⟨hHead, hKeyword, hChildren⟩ := h
    unfold purge purgedGroup
    dsimp only
    split
    · exact spelledAll_singleton.mpr ⟨hHead, hKeyword, ih hChildren⟩
    · trivial
  nil _ _ := trivial
  between p text rest ih h := by
    rw [purgeAll]
    exact ⟨h.1, ih h.2⟩
  covered p node rest hRule hCovers ih h := by
    rw [purgeAll_rule hRule, if_pos hCovers]
    exact ⟨Spelled.mono (fun _ => StyleRule.IsSteady.isReadable) node h.1, ih h.2⟩
  decided p node rest hRule hCovers hOne ih h := by
    rw [purgeAll_rule hRule, hCovers, if_neg Bool.false_ne_true]
    exact spelledAll_append.mpr ⟨hOne h.1, ih h.2⟩

/-- What a purge leaves of steady nodes is readable. -/
theorem spelledAll_purgeAll (p : Protection) (h : SpelledAll StyleRule.IsSteady nodes) :
    SpelledAll StyleRule.IsReadable (purgeAll keeps p nodes).nodes :=
  spelledAll_purge_cases.holdsAll p nodes h

end StyleSieve.Node
