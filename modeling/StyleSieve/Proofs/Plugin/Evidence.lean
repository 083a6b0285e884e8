import StyleSieve.Proofs.Engine.Content
import StyleSieve.Proofs.Plugin.Assets
import StyleSieve.Proofs.Plugin.Discovery

/-!
# Passes on more evidence

A plugin that is told of more use, by modules, content or its safelist, and of less that speaks
against it, removes no selector that a plugin told of less would leave.

* `results_related`: for every style sheet the removed selectors are some of those that the
  other plugin removes, in the same order, and the same style sheets have a result.
-/

namespace StyleSieve

/-- The options `b` give at least the evidence of use that the options `a` give, and read texts
in the same way. -/
structure Options.EvidenceWithin (a b : Options) : Prop where
  fallback : b.defaultExtractor = a.defaultExtractor
  extractors : b.extractors = a.extractors
  content : a.content ⊆ b.content
  safelist : a.safelist.Within b.safelist
  blocklist : b.blocklist ⊆ a.blocklist
  skipped : b.skippedContent ⊆ a.skippedContent

/-- The plugin `q` in the build `d` has at least the evidence of use that the plugin `p` has in
the build `c`. Both work in the same directory. -/
structure Plugin.EvidenceWithin (p : Plugin) (c : BuildContext) (q : Plugin) (d : BuildContext) :
    Prop where
  config : q.config = p.config
  parse : d.parse = c.parse
  modules : ∀ code, p.Reads c code → q.Reads d code
  options : p.options.EvidenceWithin q.options

/-! ## One style sheet -/

/-- The name and the text by which an engine knows a style sheet. -/
def Sheet.source (s : Sheet) : CssSource := ⟨Text.trim s.text, some s.fileName⟩

section Sheets

variable {tree : FileTree} {options : Options} {safelist : Safelist} {root : Path} {s : Sheet}
  {outcome : Option PurgeResult}

/-- A blank style sheet has no result. -/
theorem purgeSheet_blank [Surrogates] (hBlank : s.source.isBlank = true)
    (h : (purgeSheet (purgeEngine tree) options safelist root s).result = .ok outcome) :
    outcome = none := by
  unfold purgeSheet at h
  obtain ⟨results, hResults, h⟩ := Pass.result_bind_eq_ok.mp h
  rw [result_purgeEngine_blank (c := s.source) rfl hBlank] at hResults
  cases Except.ok.inj hResults
  exact (Except.ok.inj h).symm

/-- Any other style sheet has one, by the tokens of the content. -/
theorem purgeSheet_of_not_blank [Surrogates] (hBlank : s.source.isBlank = false)
    (h : (purgeSheet (purgeEngine tree) options safelist root s).result = .ok outcome) :
    ∃ tokens, (contentTokens tree
        (.ofSheet options safelist root s.fileName s.text)).result = .ok tokens ∧
      outcome = some ((PurgeRequest.ofSheet options safelist root s.fileName s.text).resultOf
        ⟨tokens, safelist, options.blocklist⟩ s.source) := by
  unfold purgeSheet at h
  obtain ⟨results, hResults, h⟩ := Pass.result_bind_eq_ok.mp h
  obtain ⟨tokens, hTokens, rfl⟩ :=
    (result_purgeEngine_single (c := s.source) rfl hBlank).mp hResults
  exact ⟨tokens, hTokens, (Except.ok.inj h).symm⟩

end Sheets

theorem PurgeRequest.contentWithin_ofSheet {a b : Options} (h : a.EvidenceWithin b)
    (safelist safelist' : Safelist) (root : Path) (fileName text : String) :
    (PurgeRequest.ofSheet a safelist root fileName text).ContentWithin
      (PurgeRequest.ofSheet b safelist' root fileName text) where
  content := List.cons_subset_cons _ h.content
  skipped := h.skipped
  fallback := h.fallback
  extractors := h.extractors

/-- On more evidence a style sheet still has a result if it had one, with some of the removed
selectors only. -/
theorem purgeSheet_related [Surrogates] {tree : FileTree} {a b : Options} (hOptions : a.EvidenceWithin b)
    {safelist safelist' : Safelist} (hSafelist : safelist.Within safelist') {root : Path}
    {s : Sheet} {first second : Option PurgeResult}
    (hFirst : (purgeSheet (purgeEngine tree) a safelist root s).result = .ok first)
    (hSecond : (purgeSheet (purgeEngine tree) b safelist' root s).result = .ok second) :
    Option.Rel (fun y x => y.rejected.Sublist x.rejected) second first := by
  cases hBlank : s.source.isBlank with
  | true =>
    rw [purgeSheet_blank hBlank hFirst, purgeSheet_blank hBlank hSecond]
    exact .none
  | false =>
    obtain ⟨tokens, hTokens, rfl⟩ := purgeSheet_of_not_blank hBlank hFirst
    obtain ⟨tokens', hTokens', rfl⟩ := purgeSheet_of_not_blank hBlank hSecond
    have hUsage : Usage.Within ⟨tokens, safelist, a.blocklist⟩
        ⟨tokens', safelist', b.blocklist⟩ := {
      tokens := contentTokens_mono (PurgeRequest.contentWithin_ofSheet hOptions ..) hTokens hTokens'
      safelist := hSafelist
      blocklist := hOptions.blocklist }
    exact .some (selectors_purged_sublist hUsage s.source)

/-! ## Passes -/

/-- `y` is the result for the style sheet that `x` is a result for, and no selector is removed
in `y` that is not removed in `x`. -/
def RemovesWithin (y x : String × PurgeResult) : Prop :=
  y.1 = x.1 ∧ y.2.rejected.Sublist x.2.rejected

theorem resultsOf_related {sheets : List Sheet} {first second : Sheet → Option PurgeResult}
    (h : ∀ s ∈ sheets, Option.Rel (fun y x => y.rejected.Sublist x.rejected) (second s) (first s)) :
    List.Forall₂ RemovesWithin (resultsOf second sheets) (resultsOf first sheets) := by
  induction sheets with
  | nil => exact .nil
  | cons s rest ih =>
    have hRest := ih fun t ht => h t (List.mem_cons_of_mem _ ht)
    have hHead := h s List.mem_cons_self
    cases hFirst : first s with
    | none =>
      cases hSecond : second s with
      | none =>
        rw [resultsOf_cons_none hFirst, resultsOf_cons_none hSecond]
        exact hRest
      | some y =>
        rw [hFirst, hSecond] at hHead
        cases hHead
    | some x =>
      cases hSecond : second s with
      | none =>
        rw [hFirst, hSecond] at hHead
        cases hHead
      | some y =>
        rw [hFirst, hSecond] at hHead
        cases hHead with
        | some hSublist =>
          rw [resultsOf_cons_some hFirst, resultsOf_cons_some hSecond]
          exact .cons ⟨rfl, hSublist⟩ hRest

namespace Plugin

variable {p q : Plugin} {c d : BuildContext}

theorem EvidenceWithin.isActive (h : p.EvidenceWithin c q d) : q.isActive = p.isActive := by
  unfold Plugin.isActive
  rw [h.config]

theorem EvidenceWithin.root (h : p.EvidenceWithin c q d) : q.root = p.root := by
  unfold Plugin.root
  rw [h.config]

theorem EvidenceWithin.discovered [Runtime] (h : p.EvidenceWithin c q d) {xs ys : List String}
    (hXs : (p.discover c).result = .ok xs) (hYs : (q.discover d).result = .ok ys) : xs ⊆ ys := by
  have hExtractor : q.extractor = p.extractor := by
    unfold Plugin.extractor
    rw [h.options.fallback]
  exact discover_mono hExtractor h.parse h.modules hXs hYs

/-- On more evidence of use, a pass over the same bundle has results for the same style sheets
and removes from each of them some of the selectors only, in the same order. -/
theorem results_related [Surrogates] [Runtime] {tree : FileTree} {s t : Schedule} {bundle : Bundle}
    {first second : PurgeResults} (hEngineP : p.engine = purgeEngine tree)
    (hEngineQ : q.engine = purgeEngine tree) (hEvidence : p.EvidenceWithin c q d)
    (hNames : bundle.HasDistinctNames)
    (hFirst : (p.generate s c bundle).pass.result = .ok first)
    (hSecond : (q.generate t d bundle).pass.result = .ok second) :
    List.Forall₂ RemovesWithin second first := by
  cases hActive : p.isActive with
  | false =>
    have hActive' := hEvidence.isActive.trans hActive
    cases Except.ok.inj ((result_generate_inactive hActive).symm.trans hFirst)
    cases Except.ok.inj ((result_generate_inactive hActive').symm.trans hSecond)
    exact .nil
  | true =>
    have hActive' := hEvidence.isActive.trans hActive
    obtain ⟨xs, hXs, hFirst⟩ := (result_generate_active hActive).mp hFirst
    obtain ⟨ys, hYs, hSecond⟩ := (result_generate_active hActive').mp hSecond
    have hSafelist := hEvidence.options.safelist.extended (hEvidence.discovered hXs hYs)
    rw [hEngineP] at hFirst
    rw [hEngineQ, hEvidence.root] at hSecond
    obtain ⟨outcome, hOutcome, rfl⟩ := results_purgeAssets hNames hFirst
    obtain ⟨outcome', hOutcome', rfl⟩ := results_purgeAssets hNames hSecond
    exact resultsOf_related fun sheet hSheet => purgeSheet_related hEvidence.options hSafelist
      (hOutcome sheet hSheet) (hOutcome' sheet hSheet)

/-- Of two classes the one that neither the content nor the code names is removed. -/
theorem results_related_classes :
    let tree : FileTree := ⟨[], []⟩
    let script : Script.Tree := .node .other ⟨0, 3⟩ [.node .string ⟨0, 3⟩ []]
    let context : BuildContext :=
      ⟨fun id => some { id := id, code := some "'b'" }, fun _ => .ok script⟩
    let bundle : Bundle := ⟨[.asset { fileName := "s.css", source := .text ".a,.b{}.c{}" }]⟩
    let p : Plugin := { options := {}, engine := purgeEngine tree }
    let q : Plugin := {
      options := { content := [.raw ⟨"a", "html"⟩] }, engine := purgeEngine tree,
      moduleIds := ["m.js"] }
    let first := ("s.css", ⟨"", some "s.css", [".a", ".b", ".c"], some ".a,.b{}\n.c{}"⟩)
    let second := ("s.css", ⟨".a,.b{}", some "s.css", [".c"], some ".c{}"⟩)
    (p.generate .inTurn context bundle).pass.result = .ok [first] ∧
      (q.generate .inTurn context bundle).pass.result = .ok [second] ∧
      List.Forall₂ RemovesWithin [second] [first] := by
  intro tree script context bundle p q first second
  have hFirst : (p.generate .inTurn context bundle).pass.result = .ok [first] := by
    decide +kernel
  have hSecond : (q.generate .inTurn context bundle).pass.result = .ok [second] := by
    decide +kernel
  have hNames : bundle.HasDistinctNames := by
    unfold Bundle.HasDistinctNames
    decide
  have hEvidence : p.EvidenceWithin context q context := {
    config := rfl
    parse := rfl
    modules := by
      rintro code ⟨m, hm, -⟩
      cases hm
    options := {
      fallback := rfl
      extractors := rfl
      content := List.nil_subset _
      safelist := ⟨List.nil_subset _, List.nil_subset _, List.nil_subset _⟩
      blocklist := List.nil_subset _
      skipped := List.nil_subset _ } }
  exact ⟨hFirst, hSecond, results_related rfl rfl hEvidence hNames hFirst hSecond⟩

end Plugin

end StyleSieve
