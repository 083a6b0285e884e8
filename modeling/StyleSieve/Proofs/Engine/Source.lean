import StyleSieve.Engine
import StyleSieve.Proofs.Pass.Result
import StyleSieve.Proofs.Purge.Exposed
import StyleSieve.Proofs.Usage.Evidence

/-!
# Results for one style sheet

* `result_purgeEngine_blank`: a blank style sheet has no result.
* `result_purgeEngine_single`: any other has one, by the tokens of the content.
* `selectors_purged_sublist`: on more evidence of use no further selector is removed.
-/

namespace StyleSieve

variable [Surrogates] {tree : FileTree} {r : PurgeRequest} {c : CssSource}

/-- What is left of a style sheet when the use of names is known. -/
def CssSource.purged (c : CssSource) (usage : Usage) : Purged :=
  Node.purgeAll usage.keeps {} (Stylesheet.read c.text).nodes

/-- The result for a style sheet when the use of names is known. -/
def PurgeRequest.resultOf (r : PurgeRequest) (usage : Usage) (c : CssSource) : PurgeResult where
  css := Text.trim (Node.textAll (c.purged usage).nodes)
  file := c.name
  rejected := if r.wantsSelectors then (c.purged usage).selectors else []
  rejectedCss :=
    if r.wantsRules then some (String.intercalate "\n" (c.purged usage).rules) else none

@[simp] theorem result_purgeSource (r : PurgeRequest) (usage : Usage) (c : CssSource) :
    (purgeSource r usage c).result = .ok (r.resultOf usage c) := rfl

/-- What a request lets an engine know, given the tokens of the content. -/
def PurgeRequest.usage (r : PurgeRequest) (tokens : List String) : Usage :=
  ⟨tokens, r.safelist, r.blocklist⟩

theorem result_purgeEngine_blank (hCss : r.css = [c]) (hBlank : c.isBlank = true) :
    (purgeEngine tree r).result = .ok [] := by
  unfold purgeEngine
  rw [hCss, purgeSources, if_pos hBlank]
  rfl

theorem result_purgeEngine_single (hCss : r.css = [c]) (hBlank : c.isBlank = false)
    {results : List PurgeResult} :
    (purgeEngine tree r).result = .ok results ↔
      ∃ tokens, (contentTokens tree r).result = .ok tokens ∧
        results = [r.resultOf (r.usage tokens) c] := by
  unfold purgeEngine
  rw [hCss, purgeSources, hBlank, if_neg Bool.false_ne_true, Pass.result_bind_eq_ok]
  constructor
  · rintro ⟨tokens, hTokens, h⟩
    exact ⟨tokens, hTokens, (Except.ok.inj h).symm⟩
  · rintro ⟨tokens, hTokens, rfl⟩
    exact ⟨tokens, hTokens, rfl⟩

/-! ## More evidence -/

omit [Surrogates] in
theorem filter_not_sublist {α : Type} {keeps keeps' : α → Bool}
    (h : ∀ x, keeps x = true → keeps' x = true) (xs : List α) :
    (xs.filter fun x => !keeps' x).Sublist (xs.filter fun x => !keeps x) := by
  refine List.monotone_filter_right xs fun x hx => ?_
  cases hKeeps : keeps x with
  | false => rfl
  | true =>
    rw [h x hKeeps] at hx
    cases hx

/-- On more evidence of use no further selector is removed. -/
theorem selectors_purged_sublist {u v : Usage} (h : u.Within v) (c : CssSource) :
    (c.purged v).selectors.Sublist (c.purged u).selectors := by
  unfold CssSource.purged
  rw [Node.selectors_purgeAll, Node.selectors_purgeAll]
  exact filter_not_sublist (fun _ => Usage.keeps_mono h) _

end StyleSieve
