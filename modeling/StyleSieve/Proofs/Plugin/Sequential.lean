import StyleSieve.Proofs.Bundle.Replace
import StyleSieve.Proofs.Plugin.Assets

/-!
# Style sheets purged side by side

A pass over a bundle hands all style sheets to the engine at once, takes the results in the order in
which they are finished, and then replaces one style sheet after the other. What comes out is as if
each style sheet had been purged alone.

* `replaceSheets_eq`: replacing never fails, and moves the replaced files behind the others.
* `purgeAssets_alone`: the bundle and the results of a pass are those of `Bundle.purgedAlone` and
  `Bundle.resultsAlone`, whatever the schedule.
-/

namespace StyleSieve

/-! ## Each style sheet alone -/

namespace OutputFile

/-- The style sheet that a file is, if it is one and a text. -/
def sheet? : OutputFile → Option Sheet
  | asset a => if isCssName a.fileName then a.sheet? else none
  | chunk _ => none

/-- The result for a file, where `alone` tells the results for style sheets. -/
def result? (alone : Sheet → Option PurgeResult) (f : OutputFile) : Option PurgeResult :=
  f.sheet?.bind alone

/-- The file with what is left of it, if there is a result for it. -/
def purged? (alone : Sheet → Option PurgeResult) (f : OutputFile) : Option OutputFile :=
  (f.result? alone).map fun r => f.withText r.css

end OutputFile

namespace Bundle

/-- The files without a result as they are, and behind them the others with what is left of them. -/
def purgedAlone (alone : Sheet → Option PurgeResult) (b : Bundle) : Bundle :=
  ⟨b.files.filter (fun f => (f.purged? alone).isNone) ++ b.files.filterMap (·.purged? alone)⟩

/-- The results for the files of a bundle, by name. -/
def resultsAlone (alone : Sheet → Option PurgeResult) (b : Bundle) : PurgeResults :=
  b.files.filterMap fun f => (f.result? alone).map (f.fileName, ·)

end Bundle

namespace OutputFile

variable {alone alone' : Sheet → Option PurgeResult} {f g : OutputFile} {s : Sheet}

theorem sheet?_asset (a : Asset) :
    (asset a).sheet? = if isCssName a.fileName then a.sheet? else none := rfl

theorem exists_of_sheet? (h : f.sheet? = some s) :
    ∃ a, f = .asset a ∧ isCssName a.fileName = true ∧ a.text? = .ok s.text ∧
      a.fileName = s.fileName := by
  cases f with
  | chunk c => cases h
  | asset a =>
    rw [sheet?_asset] at h
    by_cases hCss : isCssName a.fileName = true
    · rw [if_pos hCss] at h
      refine ⟨a, rfl, hCss, ?_, (Asset.fileName_of_sheet? h).symm⟩
      unfold Asset.sheet? at h
      cases hText : a.text? with
      | error e =>
        rw [hText] at h
        cases h
      | ok text =>
        rw [hText] at h
        cases h
        rfl
    · rw [if_neg hCss] at h
      cases h

theorem isNone_purged? (f : OutputFile) : (f.purged? alone).isNone = (f.result? alone).isNone := by
  unfold purged?
  cases f.result? alone <;> rfl

/-- Just the style sheets that are texts and have a result get another text. -/
theorem purged?_eq_some_iff {answer : Sheet → List PurgeResult} :
    f.purged? (fun s => (answer s).head?) = some g ↔
      ∃ a text r more, f = .asset a ∧ isCssName a.fileName = true ∧ a.text? = .ok text ∧
        answer ⟨a.fileName, text⟩ = r :: more ∧ g = .asset { a with source := .text r.css } := by
  constructor
  · intro h
    obtain ⟨r, hResult, hFile⟩ := Option.map_eq_some_iff.mp h
    obtain ⟨s, hSheet, hAnswer⟩ := Option.bind_eq_some_iff.mp hResult
    obtain ⟨a, rfl, hCss, hText, hName⟩ := exists_of_sheet? hSheet
    obtain ⟨more, hMore⟩ := List.head?_eq_some_iff.mp hAnswer
    refine ⟨a, s.text, r, more, rfl, hCss, hText, ?_, hFile.symm⟩
    rw [hName]
    exact hMore
  · rintro ⟨a, text, r, more, rfl, hCss, hText, hAnswer, rfl⟩
    have hSheet : (asset a).sheet? = some ⟨a.fileName, text⟩ := by
      rw [sheet?_asset, if_pos hCss, Asset.sheet?, hText]
    unfold purged? result?
    rw [hSheet, Option.bind_some, hAnswer]
    rfl

theorem result?_congr (h : ∀ s, f.sheet? = some s → alone s = alone' s) :
    f.result? alone = f.result? alone' := by
  unfold result?
  cases hSheet : f.sheet? with
  | none => rfl
  | some s => exact h s hSheet

end OutputFile

namespace Bundle

variable {alone alone' : Sheet → Option PurgeResult} {b : Bundle}

theorem sheets_eq (b : Bundle) : b.sheets = b.files.filterMap OutputFile.sheet? := by
  unfold sheets cssAssets assets
  induction b.files with
  | nil => rfl
  | cons f rest ih =>
    cases f with
    | chunk c => exact ih
    | asset a =>
      show (List.filter _ (a :: rest.filterMap OutputFile.asset?)).filterMap _ = _
      rw [List.filter_cons, List.filterMap_cons, OutputFile.sheet?_asset, ← ih]
      by_cases hCss : isCssName a.fileName = true
      · rw [if_pos hCss, if_pos hCss, List.filterMap_cons]
      · rw [if_neg hCss, if_neg hCss]

theorem result?_congr (h : ∀ s ∈ b.sheets, alone s = alone' s) :
    ∀ f ∈ b.files, f.result? alone = f.result? alone' := by
  intro f hf
  apply OutputFile.result?_congr
  intro s hs
  apply h
  rw [sheets_eq]
  exact List.mem_filterMap.mpr ⟨f, hf, hs⟩

theorem purgedAlone_congr (h : ∀ s ∈ b.sheets, alone s = alone' s) :
    b.purgedAlone alone = b.purgedAlone alone' := by
  have hEach : ∀ f ∈ b.files, f.purged? alone = f.purged? alone' := by
    intro f hf
    unfold OutputFile.purged?
    rw [result?_congr h f hf]
  unfold purgedAlone
  rw [List.filterMap_congr hEach, List.filter_congr fun f hf => by rw [hEach f hf]]

theorem resultsAlone_congr (h : ∀ s ∈ b.sheets, alone s = alone' s) :
    b.resultsAlone alone = b.resultsAlone alone' :=
  List.filterMap_congr fun f hf => by rw [result?_congr h f hf]

/-- The results are those for the files that get another text, in their order. -/
theorem names_resultsAlone (b : Bundle) :
    (b.resultsAlone alone).map Prod.fst = (b.files.filterMap (·.purged? alone)).map OutputFile.fileName := by
  unfold resultsAlone
  rw [List.map_filterMap, List.map_filterMap]
  congr 1
  funext f
  unfold OutputFile.purged?
  cases f.result? alone with
  | none => rfl
  | some r => exact congrArg some (OutputFile.fileName_withText r.css f).symm

theorem map_fileName_filterMap_purged? (files : List OutputFile) :
    (files.filterMap (·.purged? alone)).map OutputFile.fileName =
      (files.filter fun f => !(f.purged? alone).isNone).map OutputFile.fileName := by
  induction files with
  | nil => rfl
  | cons f rest ih =>
    cases hResult : f.result? alone with
    | none =>
      have hPurged : f.purged? alone = none := by rw [OutputFile.purged?, hResult, Option.map_none]
      rw [List.filterMap_cons_none hPurged, List.filter_cons_of_neg (by simp [hPurged]), ih]
    | some r =>
      have hPurged : f.purged? alone = some (f.withText r.css) := by
        rw [OutputFile.purged?, hResult, Option.map_some]
      rw [List.filterMap_cons_some hPurged, List.filter_cons_of_pos (by simp [hPurged]),
        List.map_cons, List.map_cons, ih, OutputFile.fileName_withText]

/-- The files that are left behind have the names of those that were there. -/
theorem HasDistinctNames.purgedAlone (h : b.HasDistinctNames) : (b.purgedAlone alone).HasDistinctNames := by
  unfold HasDistinctNames Bundle.purgedAlone
  rw [List.map_append, map_fileName_filterMap_purged?, ← List.map_append]
  exact ((List.filter_append_perm _ b.files).map _).nodup_iff.mpr h

/-- What a result is for is an asset, which has what is left of it as its text. -/
theorem get?_purgedAlone (h : b.HasDistinctNames) {name : String} {r : PurgeResult}
    (hResult : (name, r) ∈ b.resultsAlone alone) :
    ∃ a, (b.purgedAlone alone).get? name = some (.asset a) ∧ a.source = .text r.css := by
  obtain ⟨f, hf, hPair⟩ := List.mem_filterMap.mp hResult
  obtain ⟨r, hr, hPair⟩ := Option.map_eq_some_iff.mp hPair
  cases hPair
  obtain ⟨s, hSheet, -⟩ := Option.bind_eq_some_iff.mp hr
  obtain ⟨a, rfl, -, -, -⟩ := OutputFile.exists_of_sheet? hSheet
  refine ⟨{ a with source := .text r.css }, ?_, rfl⟩
  have hThere : (OutputFile.asset a).withText r.css ∈ (b.purgedAlone alone).files := by
    refine List.mem_append_right _ (List.mem_filterMap.mpr ⟨_, hf, ?_⟩)
    rw [OutputFile.purged?, hr, Option.map_some]
  exact h.purgedAlone.get?_of_mem hThere

end Bundle

/-! ## Replacing one after the other -/

section Replacing

variable {found : List (String × Option PurgeResult)}

/-- What was found for a style sheet. -/
def foundFor (found : List (String × Option PurgeResult)) (s : Sheet) : Option PurgeResult :=
  resultFor found s.fileName

/-- The names of the files that have a result. -/
def namesWithResult (alone : Sheet → Option PurgeResult) (files : List OutputFile) : List String :=
  (files.filter fun f => (f.result? alone).isSome).map OutputFile.fileName

/-- What is left once the files among `targets` that have a result are replaced. -/
def Bundle.replacing (alone : Sheet → Option PurgeResult) (targets : List OutputFile) (b : Bundle) :
    Bundle :=
  ⟨b.files.filter (fun f => !(namesWithResult alone targets).contains f.fileName) ++
    targets.filterMap (·.purged? alone)⟩

/-- The results for files that have one, by name. -/
def resultsFor (alone : Sheet → Option PurgeResult) (targets : List OutputFile) : PurgeResults :=
  targets.filterMap fun f => (f.result? alone).map (f.fileName, ·)

variable {alone : Sheet → Option PurgeResult} {targets rest : List OutputFile} {b next : Bundle}
  {f : OutputFile} {s : Sheet} {sheets : List Sheet} {r : PurgeResult}

theorem replacing_cons_none (h : f.result? alone = none) :
    b.replacing alone (f :: rest) = b.replacing alone rest := by
  have hPurged : f.purged? alone = none := by rw [OutputFile.purged?, h, Option.map_none]
  unfold Bundle.replacing namesWithResult
  rw [List.filter_cons_of_neg (by simp [h]), List.filterMap_cons_none hPurged]

theorem resultsFor_cons_none (h : f.result? alone = none) :
    resultsFor alone (f :: rest) = resultsFor alone rest :=
  List.filterMap_cons_none (by rw [h, Option.map_none])

theorem resultsFor_cons_some (h : f.result? alone = some r) :
    resultsFor alone (f :: rest) = (f.fileName, r) :: resultsFor alone rest :=
  List.filterMap_cons_some (by rw [h, Option.map_some])

/-- A file that is replaced first keeps its place before those that are replaced later. -/
theorem replacing_cons_some (h : f.result? alone = some r) (hNew : f.fileName ∉ rest.map OutputFile.fileName) :
    Bundle.replacing alone rest
        ⟨b.files.filter (fun g => g.fileName != f.fileName) ++ [f.withText r.css]⟩ =
      b.replacing alone (f :: rest) := by
  have hPurged : f.purged? alone = some (f.withText r.css) := by rw [OutputFile.purged?, h, Option.map_some]
  have hLater : f.fileName ∉ namesWithResult alone rest :=
    fun hMem => hNew (List.Sublist.subset (List.filter_sublist.map _) hMem)
  have hNames : namesWithResult alone (f :: rest) = f.fileName :: namesWithResult alone rest := by
    unfold namesWithResult
    rw [List.filter_cons_of_pos (by simp [h]), List.map_cons]
  unfold Bundle.replacing
  rw [hNames, List.filterMap_cons_some hPurged, List.filter_append, List.filter_filter,
    List.filter_cons_of_pos (by simpa using hLater), List.filter_nil, List.append_assoc]
  congr 2
  apply List.filter_congr
  intro g _
  rw [List.contains_cons, Bool.not_or, Bool.and_comm]
  rfl

theorem replaceSheets_cons_none (h : resultFor found s.fileName = none) :
    (replaceSheets found b (s :: sheets)).bundle = (replaceSheets found b sheets).bundle ∧
      (replaceSheets found b (s :: sheets)).pass.result =
        (replaceSheets found b sheets).pass.result := by
  rw [replaceSheets, h]
  refine ⟨rfl, ?_⟩
  rw [Pass.result_bind_unit (by simp), Pass.result_bind_unit (by simp)]

theorem replaceSheets_cons_some (h : resultFor found s.fileName = some r)
    (hReplace : b.replace s.fileName r.css = .ok next) {results : PurgeResults}
    (hRest : (replaceSheets found next sheets).pass.result = .ok results) :
    (replaceSheets found b (s :: sheets)).bundle = (replaceSheets found next sheets).bundle ∧
      (replaceSheets found b (s :: sheets)).pass.result = .ok ((s.fileName, r) :: results) := by
  rw [replaceSheets, h]
  dsimp only
  rw [hReplace]
  refine ⟨rfl, ?_⟩
  rw [Pass.result_bind_unit (by simp), Pass.result_bind_unit (by simp), Pass.result_bind, hRest]
  rfl

/-- Files with a result leave their places in turn. The bundle changes on the way, but the files that
are still to be replaced stay in it. -/
theorem replaceSheets_of_subset (hNames : b.HasDistinctNames)
    (hDistinct : (targets.map OutputFile.fileName).Nodup) (hThere : targets ⊆ b.files) :
    (replaceSheets found b (targets.filterMap OutputFile.sheet?)).bundle =
        b.replacing (foundFor found) targets ∧
      (replaceSheets found b (targets.filterMap OutputFile.sheet?)).pass.result =
        .ok (resultsFor (foundFor found) targets) := by
  induction targets generalizing b with
  | nil =>
    refine ⟨?_, rfl⟩
    show b = ⟨b.files.filter (fun _ => true) ++ []⟩
    rw [List.filter_true, List.append_nil]
  | cons f rest ih =>
    obtain ⟨hNew, hOthers⟩ := List.nodup_cons.mp hDistinct
    obtain ⟨hf, hRest⟩ := List.cons_subset.mp hThere
    cases hResult : f.result? (foundFor found) with
    | none =>
      rw [replacing_cons_none hResult, resultsFor_cons_none hResult]
      cases hSheet : f.sheet? with
      | none =>
        rw [List.filterMap_cons_none hSheet]
        exact ih hNames hOthers hRest
      | some s =>
        have hFound : resultFor found s.fileName = none := by
          rw [OutputFile.result?, hSheet] at hResult
          exact hResult
        have hSkip : (replaceSheets found b (s :: rest.filterMap OutputFile.sheet?)).bundle = _ ∧ _ :=
          replaceSheets_cons_none hFound
        rw [List.filterMap_cons_some hSheet, hSkip.1, hSkip.2]
        exact ih hNames hOthers hRest
    | some r =>
      obtain ⟨s, hSheet, hFound⟩ := Option.bind_eq_some_iff.mp hResult
      obtain ⟨a, rfl, -, -, hName⟩ := OutputFile.exists_of_sheet? hSheet
      have hReplace := hNames.replace_of_mem hf r.css
      have hStays : rest ⊆ b.files.filter (fun f => f.fileName != a.fileName) ++
          [(OutputFile.asset a).withText r.css] := by
        intro g hg
        apply List.mem_append_left
        refine List.mem_filter.mpr ⟨hRest hg, bne_iff_ne.mpr ?_⟩
        intro hSame
        exact hNew (List.mem_map.mpr ⟨g, hg, hSame⟩)
      obtain ⟨hBundle, hPass⟩ := ih (hNames.replace hReplace) hOthers hStays
      obtain ⟨hBundle', hPass'⟩ := replaceSheets_cons_some hFound
        ((congrArg (b.replace · r.css) hName).symm.trans hReplace) hPass
      rw [List.filterMap_cons_some hSheet, hBundle', hPass', hBundle, resultsFor_cons_some hResult,
        ← hName]
      exact ⟨replacing_cons_some hResult hNew, rfl⟩

/-- If all files are gone through, just those without a result are not replaced. -/
theorem replacing_files (hNames : b.HasDistinctNames) : b.replacing alone b.files = b.purgedAlone alone := by
  unfold Bundle.replacing Bundle.purgedAlone
  congr 2
  apply List.filter_congr
  intro f hf
  rw [OutputFile.isNone_purged?]
  cases hResult : f.result? alone with
  | some r =>
    have hMem : f.fileName ∈ namesWithResult alone b.files :=
      List.mem_map_of_mem (List.mem_filter.mpr ⟨hf, by rw [hResult]; rfl⟩)
    simpa using hMem
  | none =>
    have hNotMem : f.fileName ∉ namesWithResult alone b.files := by
      intro hMem
      obtain ⟨g, hg, hSame⟩ := List.mem_map.mp hMem
      obtain ⟨hg, hSome⟩ := List.mem_filter.mp hg
      rw [hNames.eq_of_fileName hg hf hSame, hResult] at hSome
      cases hSome
    simpa using hNotMem

/-- Replacing the style sheets of a bundle never fails. -/
theorem replaceSheets_eq (hNames : b.HasDistinctNames) :
    (replaceSheets found b b.sheets).bundle = b.purgedAlone (foundFor found) ∧
      (replaceSheets found b b.sheets).pass.result = .ok (b.resultsAlone (foundFor found)) := by
  rw [Bundle.sheets_eq, ← replacing_files hNames]
  exact replaceSheets_of_subset hNames hNames (List.Subset.refl _)

end Replacing

/-! ## Passes -/

section Passes

variable {α : Type} {bundle : Bundle} {prepared : Pass Event α} {next : α → BundlePass}

theorem BundlePass.bundle_after_ok {a : α} (h : prepared.result = .ok a) :
    (BundlePass.after bundle prepared next).bundle = (next a).bundle := by
  unfold BundlePass.after
  rw [h]

theorem BundlePass.result_after_ok {a : α} (h : prepared.result = .ok a) :
    (BundlePass.after bundle prepared next).pass.result = (next a).pass.result := by
  unfold BundlePass.after
  rw [Pass.result_bind, h]
  rfl

/-- If every task has a result, all of them are gathered, in the order in which they are finished. -/
theorem result_gather {run : Sheet → Pass Empty (Option PurgeResult)}
    {alone : Sheet → Option PurgeResult} {sheets : List Sheet}
    (h : ∀ s ∈ sheets, (run s).result = .ok (alone s)) :
    (gather (sheets.map fun s => (s.fileName, run s))).result =
      .ok (sheets.map fun s => (s.fileName, alone s)) := by
  apply mapM_eq_ok_iff.mpr
  rw [List.forall₂_map_left_iff, List.forall₂_map_right_iff, List.forall₂_same]
  intro s hs
  show (run s).result.map _ = _
  rw [h s hs]
  rfl

/-- Where names are distinct, the order in which tasks are finished does not matter. -/
theorem foundFor_of_gather {run : Sheet → Pass Empty (Option PurgeResult)}
    {alone : Sheet → Option PurgeResult} {sheets finished : List Sheet}
    {found : List (String × Option PurgeResult)} (hPerm : finished.Perm sheets)
    (hDistinct : (sheets.map Sheet.fileName).Nodup)
    (h : ∀ s ∈ sheets, (run s).result = .ok (alone s))
    (hFound : (gather (finished.map fun s => (s.fileName, run s))).result = .ok found) :
    ∀ s ∈ sheets, foundFor found s = alone s := by
  intro s hs
  have hNames : ((finished.map fun s => (s.fileName, run s)).map Prod.fst).Nodup := by
    rw [List.map_map]
    exact (hPerm.map _).nodup_iff.mpr hDistinct
  have hMem : (s.fileName, run s) ∈ finished.map fun s => (s.fileName, run s) :=
    List.mem_map.mpr ⟨s, hPerm.mem_iff.mpr hs, rfl⟩
  exact Except.ok.inj ((resultFor_gather hNames hFound hMem).symm.trans (h s hs))

variable {schedule : Schedule} {engine : Engine} {options : Options} {safelist : Safelist} {root : Path}

/-- Without style sheets that are texts there is nothing to replace. -/
theorem purgedAlone_of_nil {alone : Sheet → Option PurgeResult} (hNames : bundle.HasDistinctNames)
    (hNone : bundle.sheets = []) :
    bundle = bundle.purgedAlone alone ∧ Except.ok (ε := PassError) [] = .ok (bundle.resultsAlone alone) := by
  have hUnlike : ∀ s ∈ bundle.sheets, (fun _ => none) s = alone s := by
    intro s hs
    rw [hNone] at hs
    cases hs
  have hLeft : (replaceSheets [] bundle bundle.sheets).bundle = _ ∧ _ := replaceSheets_eq hNames
  rw [← Bundle.purgedAlone_congr hUnlike, ← Bundle.resultsAlone_congr hUnlike]
  rw [hNone] at hLeft
  exact hLeft

/-- A pass with a result for every style sheet, in terms of each of them alone. -/
theorem purgeAssets_eq {alone : Sheet → Option PurgeResult} (hNames : bundle.HasDistinctNames)
    (hWorkers : ¬ options.LacksWorkers ∨ bundle.sheets = [])
    (hAlone : ∀ s ∈ bundle.sheets, (purgeSheet engine options safelist root s).result = .ok (alone s)) :
    (purgeAssets schedule engine options safelist root bundle).bundle = bundle.purgedAlone alone ∧
      (purgeAssets schedule engine options safelist root bundle).pass.result =
        .ok (bundle.resultsAlone alone) := by
  have hSheets : (readableSheets bundle.cssAssets).result = .ok bundle.sheets :=
    result_readableSheets bundle.cssAssets
  unfold purgeAssets
  by_cases hEmpty : bundle.cssAssets.isEmpty = true
  · have hNone : bundle.sheets = [] := by
      rw [Bundle.sheets, List.isEmpty_iff.mp hEmpty, List.filterMap_nil]
    rw [if_pos hEmpty]
    exact purgedAlone_of_nil hNames hNone
  · rw [if_neg hEmpty, BundlePass.bundle_after_ok hSheets, BundlePass.result_after_ok hSheets]
    rcases purgeSheets_cases schedule engine options safelist root bundle bundle.sheets with
      ⟨hNone, hPass⟩ | ⟨e, hSome, hError, -⟩ | ⟨workers, -, -, hPass⟩
    · rw [hPass]
      exact purgedAlone_of_nil hNames hNone
    · have hLacks := (Options.workers_eq_error.mp hError).2
      exact (hWorkers.elim (· hLacks) hSome).elim
    · have hPerm := schedule.perm workers bundle.sheets
      have hFound := result_gather fun s hs => hAlone s (hPerm.mem_iff.mp hs)
      have hSame := foundFor_of_gather hPerm hNames.nodup_sheets hAlone hFound
      rw [hPass, BundlePass.bundle_after_ok hFound, BundlePass.result_after_ok hFound,
        ← Bundle.purgedAlone_congr hSame, ← Bundle.resultsAlone_congr hSame]
      exact replaceSheets_eq hNames

/-- Where less than no workers are asked for, nothing is worked on, if there is anything to work on. -/
theorem purgeAssets_lacksWorkers (hLacks : options.LacksWorkers) (hSome : bundle.sheets ≠ []) :
    (purgeAssets schedule engine options safelist root bundle).bundle = bundle ∧
      (purgeAssets schedule engine options safelist root bundle).pass.result = .error .workerCount := by
  have hSheets : (readableSheets bundle.cssAssets).result = .ok bundle.sheets :=
    result_readableSheets bundle.cssAssets
  have hCss : ¬ bundle.cssAssets.isEmpty = true := fun hEmpty => by
    rw [Bundle.sheets, List.isEmpty_iff.mp hEmpty] at hSome
    exact hSome rfl
  unfold purgeAssets
  rw [if_neg hCss, BundlePass.bundle_after_ok hSheets, BundlePass.result_after_ok hSheets]
  rcases purgeSheets_cases schedule engine options safelist root bundle bundle.sheets with
    ⟨hNone, -⟩ | ⟨e, -, hError, hPass⟩ | ⟨workers, -, hOk, -⟩
  · exact absurd hNone hSome
  · rw [hPass, (Options.workers_eq_error.mp hError).1]
    exact ⟨rfl, rfl⟩
  · rw [Options.workers_eq_error.mpr ⟨rfl, hLacks⟩] at hOk
    cases hOk

/-- A pass that has results has one or none for every style sheet alone. -/
theorem exists_alone_of_result {results : PurgeResults} (hNames : bundle.HasDistinctNames)
    (h : (purgeAssets schedule engine options safelist root bundle).pass.result = .ok results) :
    ∃ alone : Sheet → Option PurgeResult,
      (purgeAssets schedule engine options safelist root bundle).bundle = bundle.purgedAlone alone ∧
        results = bundle.resultsAlone alone := by
  have hWorkers : ¬ options.LacksWorkers ∨ bundle.sheets = [] := by
    rw [or_iff_not_imp_right]
    intro hSome hLacks
    cases h.symm.trans (purgeAssets_lacksWorkers hLacks hSome).2
  obtain ⟨alone, hAlone, -⟩ := results_purgeAssets hNames h
  exact ⟨alone, (purgeAssets_eq hNames hWorkers hAlone).1,
    Except.ok.inj (h.symm.trans (purgeAssets_eq hNames hWorkers hAlone).2)⟩

/-- The first of the results that an engine has for a style sheet. -/
def firstOf (answer : Sheet → List PurgeResult) (s : Sheet) : Option PurgeResult := (answer s).head?

/-- If the engine answers for every style sheet, then a pass ends with the files that are not replaced,
as they are and in their order, and behind them the replaced ones in theirs. Only style sheets that are
texts and have a result are replaced, and only their text is another: what the engine has left of each
of them alone. The results are those for the replaced files, in their order. How many workers are asked
for does not matter. Only a number below zero, which no reading of options lets through
(`Options.Reads.not_lacksWorkers`), is refused, and nothing is replaced then. -/
theorem purgeAssets_alone {answer : Sheet → List PurgeResult} (hNames : bundle.HasDistinctNames)
    (hAnswers : ∀ s ∈ bundle.sheets,
      (engine (.ofSheet options safelist root s.fileName s.text)).result = .ok (answer s)) :
    (options.LacksWorkers → bundle.sheets ≠ [] →
      (purgeAssets schedule engine options safelist root bundle).bundle = bundle ∧
        (purgeAssets schedule engine options safelist root bundle).pass.result =
          .error .workerCount) ∧
    (¬ options.LacksWorkers ∨ bundle.sheets = [] →
      (purgeAssets schedule engine options safelist root bundle).bundle =
          ⟨bundle.files.filter (fun f => (f.purged? (firstOf answer)).isNone) ++
            bundle.files.filterMap (·.purged? (firstOf answer))⟩ ∧
        (∀ f g : OutputFile, f.purged? (firstOf answer) = some g ↔
          ∃ (a : Asset) (text : String) (r : PurgeResult) (more : List PurgeResult),
            f = .asset a ∧ isCssName a.fileName = true ∧ a.text? = .ok text ∧
              answer ⟨a.fileName, text⟩ = r :: more ∧ g = .asset { a with source := .text r.css }) ∧
        (∀ f ∈ bundle.files,
          (∀ a, f = .asset a → isCssName a.fileName = false ∨ (∃ e, a.text? = .error e) ∨
            ∃ text, a.text? = .ok text ∧ answer ⟨a.fileName, text⟩ = []) →
          f ∈ bundle.files.filter fun f => (f.purged? (firstOf answer)).isNone) ∧
        (purgeAssets schedule engine options safelist root bundle).pass.result =
          .ok (bundle.resultsAlone (firstOf answer)) ∧
        (bundle.resultsAlone (firstOf answer)).map Prod.fst =
          (bundle.files.filterMap (·.purged? (firstOf answer))).map OutputFile.fileName) := by
  refine ⟨purgeAssets_lacksWorkers, fun hWorkers => ?_⟩
  have hAlone : ∀ s ∈ bundle.sheets,
      (purgeSheet engine options safelist root s).result = .ok (firstOf answer s) := by
    intro s hs
    rw [purgeSheet, Pass.result_bind, hAnswers s hs]
    rfl
  have hPass : (purgeAssets schedule engine options safelist root bundle).bundle = _ ∧ _ :=
    purgeAssets_eq hNames hWorkers hAlone
  obtain ⟨hBundle, hResults⟩ := hPass
  refine ⟨hBundle, fun f g => OutputFile.purged?_eq_some_iff, ?_, hResults, bundle.names_resultsAlone⟩
  intro f hf hOther
  refine List.mem_filter.mpr ⟨hf, Option.isNone_iff_eq_none.mpr ?_⟩
  apply Option.eq_none_iff_forall_ne_some.mpr
  intro g hPurged
  obtain ⟨a, text, r, more, hAsset, hCss, hText, hAnswer, -⟩ := OutputFile.purged?_eq_some_iff.mp hPurged
  rcases hOther a hAsset with hName | ⟨e, hError⟩ | ⟨text', hText', hNone⟩
  · rw [hCss] at hName
    cases hName
  · rw [hText] at hError
    cases hError
  · cases hText.symm.trans hText'
    rw [hAnswer] at hNone
    cases hNone

/-- Of three style sheets that are texts one has no result; the tasks are finished last to first. -/
theorem purgeAssets_alone_last_to_first :
    let schedule : Schedule := ⟨fun _ sheets => sheets.reverse, fun _ sheets => sheets.reverse_perm⟩
    let answer : Sheet → List PurgeResult := fun s =>
      if s.fileName == "b.css" then [] else [⟨s.text ++ "!", some s.fileName, [".x"], none⟩]
    let engine : Engine := fun r =>
      pure (r.css.flatMap fun c => answer ⟨c.name.getD "", c.text⟩)
    let a : Asset := { fileName := "a.css", source := .text "a", name := some "main" }
    let b : Asset := { fileName := "b.css", source := .text "b" }
    let broken : Asset := { fileName := "broken.css", source := .bytes [0xFF] }
    let c : Asset := { fileName := "c.css", source := .bytes [0x63] }
    let other : Asset := { fileName := "a.CSS", source := .text "other" }
    let script : Chunk := ⟨"m.js", "run()"⟩
    let bundle : Bundle :=
      ⟨[.asset a, .asset b, .chunk script, .asset broken, .asset c, .asset other]⟩
    let pass := purgeAssets schedule engine { maxWorkers := some 2 } {} .here bundle
    bundle.HasDistinctNames ∧
      (∀ s ∈ bundle.sheets,
        (engine (.ofSheet { maxWorkers := some 2 } {} .here s.fileName s.text)).result =
          .ok (answer s)) ∧
      pass.bundle = ⟨[.asset b, .chunk script, .asset broken, .asset other,
        .asset { a with source := .text "a!" }, .asset { c with source := .text "c!" }]⟩ ∧
      pass.pass.result = .ok [("a.css", ⟨"a!", some "a.css", [".x"], none⟩),
        ("c.css", ⟨"c!", some "c.css", [".x"], none⟩)] := by
  intro schedule answer engine a b broken c other script bundle pass
  have hNames : bundle.HasDistinctNames := by
    unfold Bundle.HasDistinctNames
    decide
  have hAnswers : ∀ s ∈ bundle.sheets,
      (engine (.ofSheet { maxWorkers := some 2 } {} .here s.fileName s.text)).result =
        .ok (answer s) := by
    decide +kernel
  have hWorkers : ¬ Options.LacksWorkers { maxWorkers := some 2 } := by
    rintro ⟨n, hSome, hLess⟩
    cases hSome
    contradiction
  have hPass : pass.bundle = _ ∧ _ := (purgeAssets_alone hNames hAnswers).2 (Or.inl hWorkers)
  obtain ⟨hBundle, -, -, hResults, -⟩ := hPass
  exact ⟨hNames, hAnswers, hBundle.trans (by decide +kernel), hResults.trans (by decide +kernel)⟩

end Passes

end StyleSieve
