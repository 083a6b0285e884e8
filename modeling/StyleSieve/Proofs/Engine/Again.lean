import StyleSieve.Proofs.Engine.Source
import StyleSieve.Proofs.Purge.Steady
import StyleSieve.Proofs.Stylesheet.Trim

/-!
# Purging again

What a purge leaves of a style sheet can be purged again by the same options.

* `purged_again_iff`: when the second purge changes nothing.
* `purgeEngine_again`: so it is if the parts of the style sheet are read as they are written.
* `not_purgeEngine_again`: a selector with a comment in front is read in another way once it heads
  its rule.
-/

namespace StyleSieve

open Stylesheet Node

variable {tree : FileTree} {r : PurgeRequest} {usage : Usage} {source c : CssSource}

/-- The request to purge one style sheet by the same options. -/
def PurgeRequest.only (r : PurgeRequest) (c : CssSource) : PurgeRequest := { r with css := [c] }

/-- A purge changes nothing if and only if the style sheet is written as it stands and all that
is decided about is kept. -/
theorem purged_again_iff [Surrogates] (c : CssSource) (usage : Usage) :
    (Text.trim (textAll (c.purged usage).nodes) = c.text ∧ (c.purged usage).selectors = []) ↔
      Text.trim (textAll (read c.text).nodes) = c.text ∧
        ∀ s ∈ exposedAll {} (read c.text).nodes, usage.keeps s = true := by
  have hSelectors : (c.purged usage).selectors = [] ↔
      ∀ s ∈ exposedAll {} (read c.text).nodes, usage.keeps s = true := by
    rw [CssSource.purged, selectors_purgeAll, List.filter_eq_nil_iff]
    simp
  rw [hSelectors]
  refine and_congr_left fun hKeeps => ?_
  rw [CssSource.purged, nodes_purgeAll_of_keeps hKeeps]

/-- What is left of steady nodes is written as it stands, and all of it is kept. -/
theorem purged_of_steady [Surrogates] (h : SpelledAll StyleRule.IsSteady (read source.text).nodes)
    (hText : c.text = Text.trim (textAll (source.purged usage).nodes)) :
    Text.trim (textAll (c.purged usage).nodes) = c.text ∧ (c.purged usage).selectors = [] := by
  have hReadable : SpelledAll StyleRule.IsReadable (source.purged usage).nodes :=
    spelledAll_purgeAll {} h
  obtain ⟨inner, hInner, hTrimmed, hExposed⟩ := exists_trimmed hReadable
  have hInnerText : c.text = textAll inner := hText.trans hTrimmed.symm
  have hAlike := alike_nodes_read hInner
  rw [← hInnerText] at hAlike
  refine (purged_again_iff c usage).mpr ⟨?_, fun s hs => ?_⟩
  · rw [hAlike.text, ← hInnerText, hText, Text.trim_trim]
  · rw [hAlike.exposed, hExposed] at hs
    exact keeps_of_mem_exposedAll_purgeAll hs

/-- What a purge leaves of a style sheet is purged again by the same options. The second purge
changes nothing if and only if the text that was left is read as it is written and all that is
decided about is kept; and so it is if all parts of the first style sheet are read as they are
written. -/
theorem purgeEngine_again [Surrogates] {first : PurgeResult} (name : Option String)
    (hCss : r.css = [source])
    (hFirst : (purgeEngine tree r).result = .ok [first])
    (hLeft : CssSource.isBlank ⟨first.css, name⟩ = false) :
    ∃ tokens again, (contentTokens tree r).result = .ok tokens ∧
      (purgeEngine tree (r.only ⟨first.css, name⟩)).result = .ok [again] ∧
      (r.wantsSelectors = true → (again.css = first.css ∧ again.rejected = [] ↔
        Text.trim (textAll (read first.css).nodes) = first.css ∧
          ∀ s ∈ exposedAll {} (read first.css).nodes, (r.usage tokens).keeps s = true)) ∧
      (SpelledAll StyleRule.IsSteady (read source.text).nodes →
        again.css = first.css ∧ again.rejected = []) := by
  have hBlank : source.isBlank = false := by
    cases hBlank : source.isBlank with
    | false => rfl
    | true =>
      rw [result_purgeEngine_blank hCss hBlank] at hFirst
      cases hFirst
  obtain ⟨tokens, hTokens, hResult⟩ := (result_purgeEngine_single hCss hBlank).mp hFirst
  obtain rfl := (List.cons.inj hResult).1
  let c : CssSource := ⟨(r.resultOf (r.usage tokens) source).css, name⟩
  refine ⟨tokens, (r.only c).resultOf (r.usage tokens) c, hTokens, ?_, fun hWants => ?_,
    fun hSteady => ?_⟩
  · exact (result_purgeEngine_single rfl hLeft).mpr ⟨tokens, hTokens, rfl⟩
  · have hRejected : ((r.only c).resultOf (r.usage tokens) c).rejected =
        (c.purged (r.usage tokens)).selectors := if_pos hWants
    rw [hRejected]
    exact purged_again_iff c (r.usage tokens)
  · obtain ⟨hText, hSelectors⟩ := purged_of_steady (c := c) hSteady rfl
    refine ⟨hText, ?_⟩
    change (if r.wantsSelectors then (c.purged (r.usage tokens)).selectors else []) = []
    rw [hSelectors, ite_self]

/-- Of rules on two levels those that are used are left, and they stay. -/
theorem purgeEngine_again_media :
    let text := "/* a */ .gone, .used > b { x: y } .gone {}\n" ++
      "@media (x: 1px) { .gone {} .used {} } @font-face {} .gone {} "
    let tree : FileTree := ⟨[], []⟩
    let r : PurgeRequest := {
      css := [⟨text, none⟩], content := [.raw ⟨"used b", "html"⟩], safelist := {}
      blocklist := [], defaultExtractor := none, extractors := [], skippedContent := []
      wantsSelectors := true, wantsRules := false }
    let first : PurgeResult := {
      css := "/* a */ .used > b{ x: y } \n@media (x: 1px) {  .used {} } @font-face {}"
      file := none, rejected := [".gone", ".gone", ".gone", ".gone"], rejectedCss := none }
    (purgeEngine tree r).result = .ok [first] ∧
      SpelledAll StyleRule.IsSteady (read text).nodes ∧
      ∃ again, (purgeEngine tree (r.only ⟨first.css, none⟩)).result = .ok [again] ∧
        again.css = first.css ∧ again.rejected = [] := by
  intro text tree r first
  have hFirst : (purgeEngine tree r).result = .ok [first] := by decide +kernel
  have hLeft : CssSource.isBlank ⟨first.css, none⟩ = false := by decide +kernel
  have hSteady : SpelledAll StyleRule.IsSteady (read text).nodes := by decide +kernel
  obtain ⟨tokens, again, -, hAgain, -, hUnchanged⟩ := purgeEngine_again none rfl hFirst hLeft
  exact ⟨hFirst, hSteady, again, hAgain, hUnchanged hSteady⟩

/-- A selector with a comment in front cannot be read and is kept. Once it heads its rule, the
comment stands in front of the rule, and the selector is removed. -/
theorem not_purgeEngine_again :
    ¬ ∀ (tree : FileTree) (r : PurgeRequest) (source : CssSource) (first : PurgeResult),
      r.css = [source] → (purgeEngine tree r).result = .ok [first] →
        CssSource.isBlank ⟨first.css, source.name⟩ = false →
          ∃ again, (purgeEngine tree (r.only ⟨first.css, source.name⟩)).result = .ok [again] ∧
            again.css = first.css ∧ again.rejected = [] := by
  intro h
  let r : PurgeRequest := {
    css := [⟨".drop, /* c */ .gone\x7b\x7d", none⟩], content := [], safelist := {}
    blocklist := [], defaultExtractor := none, extractors := [], skippedContent := []
    wantsSelectors := true, wantsRules := false }
  let left : CssSource := ⟨"/* c */ .gone\x7b\x7d", none⟩
  have hFirst : (purgeEngine ⟨[], []⟩ r).result = .ok [⟨left.text, none, [".drop"], none⟩] := by
    decide +kernel
  have hSecond : (purgeEngine ⟨[], []⟩ (r.only left)).result =
      .ok [⟨"/* c */", none, [".gone"], none⟩] := by
    decide +kernel
  obtain ⟨again, hAgain, -, hRejected⟩ := h ⟨[], []⟩ r _ _ rfl hFirst (by decide +kernel)
  rw [show (r.only ⟨left.text, none⟩) = r.only left from rfl, hSecond] at hAgain
  cases Except.ok.inj hAgain
  cases hRejected

end StyleSieve
