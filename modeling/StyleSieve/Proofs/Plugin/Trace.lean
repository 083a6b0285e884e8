import StyleSieve.Proofs.Plugin.Failure

/-!
# What a pass tells

A pass that succeeds tells of its progress in a fixed order: that the modules are read, that the safelist
is complete, which style sheets are no texts, and then of every other style sheet what became of it. The
parts of the pass tell this independently of each other; the results that the last of them tells of come
from a gathering in the order in which tasks are finished.

* `events_replaceSheets`: replacing tells of each style sheet in turn.
* `events_generate`: all events of a pass, in their order, and that each style sheet has just one.
-/

namespace StyleSieve

/-! ## Parts of a pass -/

namespace Pass

variable {ε α β : Type} {p : Pass ε α} {f : α → Pass ε β}

/-- Two passes in a row tell what the first tells and then what the second tells. -/
theorem events_bind_ok {a : α} (h : p.result = .ok a) : (p >>= f).events = p.events ++ (f a).events := by
  change (Pass.bind p f).events = _
  unfold Pass.bind
  rw [h]

end Pass

section Parts

variable {α : Type} {bundle : Bundle} {prepared : Pass Event α} {next : α → BundlePass}

theorem BundlePass.events_after_ok {a : α} (h : prepared.result = .ok a) :
    (BundlePass.after bundle prepared next).pass.events =
      prepared.events ++ (next a).pass.events :=
  Pass.events_bind_ok h

/-- The assets that are no texts. -/
def undecodable (assets : List Asset) : List Asset := assets.filter fun a => a.sheet?.isNone

/-- Reading tells of the assets that are no texts. -/
theorem events_readableSheets (assets : List Asset) :
    (readableSheets assets).events =
      (undecodable assets).map fun a => .assetSkipped a.fileName "not UTF-8" := by
  induction assets with
  | nil => rfl
  | cons a rest ih =>
    unfold readableSheets undecodable
    cases hText : a.text? with
    | ok text =>
      have hSheet : a.sheet?.isNone = false := by
        rw [Asset.sheet?, hText]
        rfl
      rw [List.filter_cons, hSheet, if_neg Bool.false_ne_true]
      dsimp only
      rw [Pass.events_bind_ok (result_readableSheets rest), ih]
      exact List.append_nil _
    | error e =>
      have hSheet : a.sheet?.isNone = true := by
        rw [Asset.sheet?, hText]
        rfl
      rw [List.filter_cons, hSheet, if_pos rfl, List.map_cons]
      dsimp only
      rw [Pass.events_bind_ok (Pass.result_report _), Pass.events_bind_ok (Pass.result_emit _), ih]
      rfl

/-- The event of a style sheet, by what was found for it. -/
def foundEvent (found : List (String × Option PurgeResult)) (s : Sheet) : Event :=
  match resultFor found s.fileName with
  | some r => purgedEvent s r
  | none => .assetSkipped s.fileName "no result"

/-- Replacing tells of each style sheet in turn. -/
theorem events_replaceSheets {found : List (String × Option PurgeResult)} {sheets : List Sheet}
    {results : PurgeResults} (h : (replaceSheets found bundle sheets).pass.result = .ok results) :
    (replaceSheets found bundle sheets).pass.events = sheets.map (foundEvent found) := by
  induction sheets generalizing bundle results with
  | nil => rfl
  | cons s rest ih =>
    rw [List.map_cons, foundEvent]
    unfold replaceSheets at h ⊢
    cases hFound : resultFor found s.fileName with
    | none =>
      rw [hFound] at h
      dsimp only at h ⊢
      rw [Pass.result_bind_unit (by simp), Pass.result_bind_unit (by simp)] at h
      rw [Pass.events_bind_ok (Pass.result_report _), Pass.events_bind_ok (Pass.result_emit _), ih h]
      rfl
    | some r =>
      rw [hFound] at h
      dsimp only at h ⊢
      cases hReplace : bundle.replace s.fileName r.css with
      | error e =>
        rw [hReplace] at h
        cases h
      | ok replaced =>
        rw [hReplace] at h
        dsimp only at h ⊢
        rw [Pass.result_bind_unit (by simp), Pass.result_bind_unit (by simp),
          Pass.result_bind_eq_ok] at h
        obtain ⟨after, hAfter, -⟩ := h
        rw [Pass.events_bind_ok (Pass.result_report _), Pass.events_bind_ok (Pass.result_emit _),
          Pass.events_bind_ok hAfter, ih hAfter]
        exact congrArg (purgedEvent s r :: ·) (List.append_nil _)

end Parts

/-! ## The style sheets -/

/-- The event of a style sheet that is a text, by the results of the pass. -/
def sheetEvent (results : PurgeResults) (s : Sheet) : Event :=
  match results.lookup s.fileName with
  | some r => .assetPurged s.fileName r.rejected r.rejectedCss s.text.length r.css.length
  | none => .assetSkipped s.fileName "no result"

theorem lookup_resultsOf_of_notMem {outcome : Sheet → Option PurgeResult} {sheets : List Sheet}
    {name : String} (h : name ∉ sheets.map Sheet.fileName) :
    (resultsOf outcome sheets).lookup name = none := by
  induction sheets with
  | nil => rfl
  | cons s rest ih =>
    rw [List.map_cons, List.mem_cons, not_or] at h
    cases hOutcome : outcome s with
    | none => rw [resultsOf_cons_none hOutcome, ih h.2]
    | some r => rw [resultsOf_cons_some hOutcome, List.lookup_cons, beq_eq_false_iff_ne.mpr h.1, ih h.2]

/-- The results have for each style sheet what came out for it. -/
theorem lookup_resultsOf {outcome : Sheet → Option PurgeResult} {sheets : List Sheet}
    (hNames : (sheets.map Sheet.fileName).Nodup) {s : Sheet} (hs : s ∈ sheets) :
    (resultsOf outcome sheets).lookup s.fileName = outcome s := by
  induction sheets with
  | nil => cases hs
  | cons t rest ih =>
    obtain ⟨hNew, hRest⟩ := List.nodup_cons.mp hNames
    rcases List.mem_cons.mp hs with rfl | hs
    · cases hOutcome : outcome s with
      | none => rw [resultsOf_cons_none hOutcome, lookup_resultsOf_of_notMem hNew]
      | some r => rw [resultsOf_cons_some hOutcome, List.lookup_cons, beq_self_eq_true]
    · have hOther : s.fileName ≠ t.fileName := by
        intro hSame
        exact hNew (hSame ▸ List.mem_map_of_mem hs)
      cases hOutcome : outcome t with
      | none => rw [resultsOf_cons_none hOutcome, ih hRest hs]
      | some r =>
        rw [resultsOf_cons_some hOutcome, List.lookup_cons, beq_eq_false_iff_ne.mpr hOther,
          ih hRest hs]

/-- Replacing tells what the results of the pass tell. -/
theorem map_foundEvent {found : List (String × Option PurgeResult)} {sheets : List Sheet}
    (hNames : (sheets.map Sheet.fileName).Nodup) :
    sheets.map (foundEvent found) =
      sheets.map (sheetEvent (resultsOf (fun s => resultFor found s.fileName) sheets)) := by
  apply List.map_congr_left
  intro s hs
  rw [foundEvent, sheetEvent, lookup_resultsOf hNames hs]
  rfl

section Passes

variable {schedule : Schedule} {engine : Engine} {options : Options} {safelist : Safelist} {root : Path}
  {bundle : Bundle} {results : PurgeResults}

/-- Purging tells first which style sheets are no texts, and then of each of the others. -/
theorem events_purgeAssets (hNames : bundle.HasDistinctNames)
    (h : (purgeAssets schedule engine options safelist root bundle).pass.result = .ok results) :
    (purgeAssets schedule engine options safelist root bundle).pass.events =
      (undecodable bundle.cssAssets).map (fun a => .assetSkipped a.fileName "not UTF-8") ++
        bundle.sheets.map (sheetEvent results) := by
  have hSheets : (readableSheets bundle.cssAssets).result = .ok bundle.sheets :=
    result_readableSheets bundle.cssAssets
  unfold purgeAssets at h ⊢
  by_cases hEmpty : bundle.cssAssets.isEmpty = true
  · rw [if_pos hEmpty, Bundle.sheets, List.isEmpty_iff.mp hEmpty]
    rfl
  · rw [if_neg hEmpty] at h ⊢
    rw [BundlePass.result_after_ok hSheets] at h
    rw [BundlePass.events_after_ok hSheets, events_readableSheets]
    congr 1
    rcases purgeSheets_cases schedule engine options safelist root bundle bundle.sheets with
      ⟨hNone, hPass⟩ | ⟨e, -, -, hPass⟩ | ⟨workers, -, -, hPass⟩
    · rw [hPass, hNone]
      rfl
    · rw [hPass] at h
      cases h
    · rw [hPass] at h ⊢
      obtain ⟨found, hFound, hReplaced⟩ := Pass.result_bind_eq_ok.mp h
      rw [BundlePass.events_after_ok hFound, events_replaceSheets hReplaced,
        results_replaceSheets hReplaced, map_foundEvent hNames.nodup_sheets]
      rfl

end Passes

/-! ## Names in events -/

/-- The name of the style sheet that an event is about. -/
def Event.fileName? : Event → Option String
  | .modulesScanned _ _ => none
  | .safelistBuilt _ _ _ => none
  | .assetPurged fileName _ _ _ _ => some fileName
  | .assetSkipped fileName _ => some fileName

/-- The name of the style sheet that an event tells to be replaced. -/
def Event.purgedName? : Event → Option String
  | .assetPurged fileName _ _ _ _ => some fileName
  | _ => none

theorem fileName?_sheetEvent (results : PurgeResults) (s : Sheet) :
    (sheetEvent results s).fileName? = some s.fileName := by
  unfold sheetEvent
  split <;> rfl

/-- Just the style sheets with a result are told to be replaced. -/
theorem filterMap_purgedName?_sheetEvent {outcome : Sheet → Option PurgeResult} {sheets : List Sheet}
    (hNames : (sheets.map Sheet.fileName).Nodup) :
    (sheets.map (sheetEvent (resultsOf outcome sheets))).filterMap Event.purgedName? =
      (resultsOf outcome sheets).map Prod.fst := by
  rw [List.filterMap_map, resultsOf, List.map_filterMap]
  apply List.filterMap_congr
  intro s hs
  rw [Function.comp_apply, sheetEvent, ← resultsOf, lookup_resultsOf hNames hs]
  cases outcome s <;> rfl

/-- The style sheets that are no texts and those that are, are together all of them. -/
theorem perm_names (assets : List Asset) :
    ((undecodable assets).map Asset.fileName ++
        (assets.filterMap Asset.sheet?).map Sheet.fileName).Perm (assets.map Asset.fileName) := by
  induction assets with
  | nil => exact .nil
  | cons a rest ih =>
    rw [undecodable, List.filter_cons, List.filterMap_cons, List.map_cons]
    cases hSheet : a.sheet? with
    | none => exact ih.cons a.fileName
    | some s =>
      rw [Option.isNone_some, if_neg Bool.false_ne_true]
      dsimp only
      rw [List.map_cons, Asset.fileName_of_sheet? hSheet]
      exact List.perm_middle.trans (ih.cons a.fileName)

/-- The names in the events about style sheets are those of all style sheets. -/
theorem perm_fileNames (bundle : Bundle) (results : PurgeResults) :
    (((undecodable bundle.cssAssets).map (fun a => Event.assetSkipped a.fileName "not UTF-8") ++
        bundle.sheets.map (sheetEvent results)).filterMap Event.fileName?).Perm
      (bundle.cssAssets.map Asset.fileName) := by
  rw [List.filterMap_append, List.filterMap_map, List.filterMap_map]
  have hSkipped : Event.fileName? ∘ (fun a : Asset => Event.assetSkipped a.fileName "not UTF-8") =
      some ∘ Asset.fileName := rfl
  have hSheets : Event.fileName? ∘ sheetEvent results = some ∘ Sheet.fileName :=
    funext fun s => fileName?_sheetEvent results s
  rw [hSkipped, hSheets, List.filterMap_eq_map, List.filterMap_eq_map]
  exact perm_names bundle.cssAssets

/-- An event is about a style sheet if it gives its name. -/
def Event.isAbout (fileName : String) (event : Event) : Bool := event.fileName? == some fileName

theorem countP_isAbout (fileName : String) (events : List Event) :
    events.countP (Event.isAbout fileName) = (events.filterMap Event.fileName?).count fileName := by
  induction events with
  | nil => rfl
  | cons event rest ih =>
    rw [List.countP_cons, ih]
    unfold Event.isAbout
    cases hName : event.fileName? with
    | none => rw [List.filterMap_cons_none hName]; rfl
    | some name =>
      rw [List.filterMap_cons_some hName, List.count_cons]
      rfl

/-! ## Admission -/

/-- A test that can fail leaves values in their order. -/
theorem sublist_filterAuxM {ε α : Type} {f : α → Except ε Bool} {xs acc ys : List α}
    (h : xs.filterAuxM f acc = .ok ys) : ys.Sublist (xs.reverse ++ acc) := by
  induction xs generalizing acc with
  | nil =>
    cases h
    exact .refl _
  | cons x xs ih =>
    obtain ⟨b, -, h⟩ := bind_eq_ok_iff.mp h
    rw [List.reverse_cons, List.append_assoc]
    cases b with
    | true => exact ih h
    | false => exact (ih h).trans ((List.sublist_cons_self x acc).append_left xs.reverse)

/-- Selectors are admitted once. -/
theorem nodup_admitted [Runtime] {tokens selectors : List String}
    (h : Selector.admitted tokens = .ok selectors) :
    selectors.Nodup := by
  unfold Selector.admitted at h
  obtain ⟨kept, hKept, hSorted⟩ := bind_eq_ok_iff.mp h
  obtain ⟨reversed, hReversed, hKept⟩ := bind_eq_ok_iff.mp hKept
  cases hSorted
  cases hKept
  have hSub := sublist_filterAuxM hReversed
  rw [List.append_nil] at hSub
  rw [(List.mergeSort_perm _ _).nodup_iff, List.nodup_reverse]
  exact hSub.nodup (List.nodup_reverse.mpr (nodup_dedup tokens))

/-! ## The plugin -/

namespace Plugin

variable {p : Plugin} {c : BuildContext} {schedule : Schedule} {bundle : Bundle} {results : PurgeResults}

/-- The safelist is told of when it is complete, with how many entries it has. -/
theorem events_safelist [Runtime] {selectors : List String} (h : (p.discover c).result = .ok selectors) :
    (p.safelist c).events = (p.discover c).events ++
      [.safelistBuilt selectors.length (6 + p.options.safelist.standard.length + selectors.length)
        (1 + p.options.safelist.greedy.length)] := by
  have hStandard : (p.options.safelist.extended selectors).standard.length =
      6 + p.options.safelist.standard.length + selectors.length := by
    simp only [Safelist.extended, List.length_append, List.length_map]
    rfl
  have hGreedy : (p.options.safelist.extended selectors).greedy.length =
      1 + p.options.safelist.greedy.length := by
    simp only [Safelist.extended, List.length_append]
    rfl
  unfold safelist
  rw [Pass.events_bind_ok h, Pass.events_bind_ok (Pass.result_emit _), hStandard, hGreedy]
  push_cast
  rfl

/-- What is found in the modules: the distinct tokens in the texts of the code that is read. -/
def Finds (p : Plugin) (c : BuildContext) (candidates : List String) : Prop :=
  candidates.Nodup ∧ ∀ token, token ∈ candidates ↔
    ∃ code, p.Reads c code ∧ ∃ texts, scriptTexts c.parse code = .ok texts ∧
      ∃ text ∈ texts, token ∈ p.extractor text

/-- A discovery tells how many modules it was asked for and how many tokens they have. -/
theorem events_discover [Runtime] {selectors : List String} (h : (p.discover c).result = .ok selectors) :
    selectors.Nodup ∧ ∃ candidates, p.Finds c candidates ∧
      (p.discover c).events = [.modulesScanned p.moduleIds.length candidates.length] := by
  unfold discover at h ⊢
  obtain ⟨candidates, hCandidates, hAfter⟩ := Pass.result_bind_eq_ok.mp h
  rw [Pass.result_bind_unit (Pass.result_emit _)] at hAfter
  obtain ⟨admitted, hAdmitted, hDone⟩ := Pass.result_bind_eq_ok.mp hAfter
  rw [Pass.result_bind_unit (Pass.result_note ..)] at hDone
  cases hDone
  have hNodup : candidates.Nodup ∧
      (collectCandidates p.extractor c.parse (p.moduleIds.map c.module?) : Pass Event _).events = [] := by
    obtain ⟨lists, hLists, hAll⟩ := Pass.result_bind_eq_ok.mp hCandidates
    rw [Pass.result_bind_unit (Pass.result_note ..)] at hAll
    cases hAll
    refine ⟨nodup_dedup _, ?_⟩
    unfold collectCandidates
    rw [Pass.events_bind_ok hLists, events_scanModules]
    rfl
  refine ⟨?_, candidates, ⟨hNodup.1, fun token => mem_collectCandidates hCandidates⟩, ?_⟩
  · rw [Pass.result_ofExcept] at hAdmitted
    cases hSelectors : Selector.admitted candidates with
    | error e =>
      rw [hSelectors] at hAdmitted
      cases hAdmitted
    | ok selectors' =>
      rw [hSelectors] at hAdmitted
      cases hAdmitted
      exact nodup_admitted hSelectors
  · rw [Pass.events_bind_ok hCandidates, hNodup.2, Pass.events_bind_ok (Pass.result_emit _),
      Pass.events_bind_ok hAdmitted]
    rfl

/-- All that a pass tells, in its order. It tells of each style sheet just once, and what is told to be
replaced are the results in their order. -/
theorem events_generate [Runtime] (hActive : p.isActive = true) (hNames : bundle.HasDistinctNames)
    (h : (p.generate schedule c bundle).pass.result = .ok results) :
    ∃ candidates selectors,
      p.Finds c candidates ∧
      (p.discover c).result = .ok selectors ∧ selectors.Nodup ∧
      (∀ s ∈ bundle.sheets, ∃ answer,
        (p.engine (.ofSheet p.options (p.options.safelist.extended selectors) p.root s.fileName
          s.text)).result = .ok answer ∧
        results.lookup s.fileName = answer.head?) ∧
      (p.generate schedule c bundle).pass.events =
        [.modulesScanned p.moduleIds.length candidates.length,
          .safelistBuilt selectors.length
            (6 + p.options.safelist.standard.length + selectors.length)
            (1 + p.options.safelist.greedy.length)] ++
        (undecodable bundle.cssAssets).map (fun a => .assetSkipped a.fileName "not UTF-8") ++
        bundle.sheets.map (fun s =>
          match results.lookup s.fileName with
          | some r => .assetPurged s.fileName r.rejected r.rejectedCss s.text.length r.css.length
          | none => .assetSkipped s.fileName "no result") ∧
      (∀ a ∈ bundle.cssAssets,
        (p.generate schedule c bundle).pass.events.countP (Event.isAbout a.fileName) = 1) ∧
      (p.generate schedule c bundle).pass.events.filterMap Event.purgedName? =
        results.map Prod.fst := by
  obtain ⟨selectors, hSelectors, hPurge⟩ := (result_generate_active hActive).mp h
  obtain ⟨hNodup, candidates, hFinds, hDiscover⟩ := events_discover hSelectors
  have hSafelist := result_safelist_eq_ok.mpr ⟨selectors, hSelectors, rfl⟩
  obtain ⟨outcome, hOutcome, hResults⟩ := results_purgeAssets hNames hPurge
  have hEvents : (p.generate schedule c bundle).pass.events =
      [.modulesScanned p.moduleIds.length candidates.length,
        .safelistBuilt selectors.length (6 + p.options.safelist.standard.length + selectors.length)
          (1 + p.options.safelist.greedy.length)] ++
      ((undecodable bundle.cssAssets).map (fun a => .assetSkipped a.fileName "not UTF-8") ++
        bundle.sheets.map (sheetEvent results)) := by
    rw [generate, if_pos hActive, BundlePass.events_after_ok hSafelist, events_safelist hSelectors,
      hDiscover, events_purgeAssets hNames hPurge]
    rfl
  refine ⟨candidates, selectors, hFinds, hSelectors, hNodup, ?_, ?_, ?_, ?_⟩
  · intro s hs
    obtain ⟨answer, hAnswer, hHead⟩ := Pass.result_bind_eq_ok.mp (hOutcome s hs)
    refine ⟨answer, hAnswer, ?_⟩
    rw [hResults, lookup_resultsOf hNames.nodup_sheets hs]
    exact (Except.ok.inj hHead).symm
  · rw [hEvents, List.append_assoc]
    rfl
  · intro a ha
    rw [countP_isAbout, hEvents, List.filterMap_append, List.count_append]
    have hOnce := (perm_fileNames bundle results).count_eq a.fileName
    rw [hOnce, List.count_eq_one_of_mem hNames.nodup_cssAssets (List.mem_map_of_mem ha)]
    rfl
  · rw [hEvents, List.filterMap_append, List.filterMap_append, hResults,
      filterMap_purgedName?_sheetEvent hNames.nodup_sheets, List.filterMap_map]
    have hSkipped : Event.purgedName? ∘ (fun a : Asset => Event.assetSkipped a.fileName "not UTF-8") =
        fun _ => none := rfl
    rw [hSkipped, List.filterMap_none]
    rfl

/-- One of four style sheets is no text and one has no result; one of two tracked modules is not part of
the output. -/
theorem events_generate_mixed :
    let schedule : Schedule := ⟨fun _ sheets => sheets.reverse, fun _ sheets => sheets.reverse_perm⟩
    let engine : Engine := fun r =>
      match r.css with
      | [source] =>
        if source.name == some "b.css" then pure []
        else pure [⟨source.text ++ "!", source.name, [".x"], some ".x\x7b\x7d"⟩]
      | _ => pure []
    let bundle : Bundle :=
      ⟨[.asset { fileName := "broken.css", source := .bytes [0xFF] },
        .asset { fileName := "a.css", source := .text " a" },
        .chunk ⟨"m.js", "run()"⟩,
        .asset { fileName := "b.css", source := .text "b" },
        .asset { fileName := "c.css", source := .bytes [0x63] }]⟩
    let p : Plugin := { options := {}, engine := engine, moduleIds := ["m.js", "gone.js"] }
    let c : BuildContext :=
      ⟨fun id => if id == "m.js" then some { id := id, code := some "nav 1" } else none,
        fun _ => .ok (.node .name ⟨0, 3⟩ [])⟩
    let pass := p.generate schedule c bundle
    p.isActive = true ∧ bundle.HasDistinctNames ∧
      pass.pass.result = .ok [("a.css", ⟨"a!", some "a.css", [".x"], some ".x\x7b\x7d"⟩),
        ("c.css", ⟨"c!", some "c.css", [".x"], some ".x\x7b\x7d"⟩)] ∧
      pass.pass.events.countP (Event.isAbout "broken.css") = 1 ∧
      pass.pass.events.filterMap Event.purgedName? = ["a.css", "c.css"] := by
  intro schedule engine bundle p c pass
  have hNames : bundle.HasDistinctNames := by
    unfold Bundle.HasDistinctNames
    decide
  have hResult : pass.pass.result =
      .ok [("a.css", ⟨"a!", some "a.css", [".x"], some ".x\x7b\x7d"⟩),
        ("c.css", ⟨"c!", some "c.css", [".x"], some ".x\x7b\x7d"⟩)] := by
    decide +kernel
  obtain ⟨_, _, -, -, -, -, -, hOnce, hPurged⟩ := events_generate rfl hNames hResult
  have hBroken : (⟨"broken.css", .bytes [0xFF], none, none, false⟩ : Asset) ∈ bundle.cssAssets := by
    decide +kernel
  exact ⟨rfl, hNames, hResult, hOnce _ hBroken, hPurged⟩

end Plugin

end StyleSieve
