import StyleSieve.DirectoryBuild
import StyleSieve.Proofs.Bundle.Replace
import StyleSieve.Proofs.FileTree.Places
import StyleSieve.Proofs.Plugin.Discovery
import StyleSieve.Proofs.Plugin.Sequential

/-!
# What a build of a directory touches

A build takes every file of its directory for a file of the bundle. A pass has results for style sheets
only, and just these are written, each to the place that it was read from. Writing can fail at a style
sheet that cannot be encoded, and then those in front of it are written and its own file is empty.

* `mem_bundle_iff`: the files of the bundle are those of the directory.
* `write_eq`: what is written of results, up to the first one that cannot be encoded.
* `run_touches_results`: what is on disk after a run, whether it goes through or fails.
* `run_empties_unencodable`: a run that fails and leaves an empty file.
-/

namespace StyleSieve

/-! ## Loading -/

theorem fileName_outputFileOf {names : Location} {contents : Bytes} {f : OutputFile}
    (h : outputFileOf names contents = .ok f) : f.fileName = String.intercalate "/" names := by
  unfold outputFileOf at h
  split at h
  · split at h
    · cases h
      rfl
    · cases h
  · cases h
    rfl

theorem source_of_outputFileOf {names : Location} {contents : Bytes} {a : Asset}
    (h : outputFileOf names contents = .ok (.asset a)) : a.source = .bytes contents := by
  unfold outputFileOf at h
  split at h
  · split at h <;> cases h
  · cases h
    rfl

namespace DirectoryBuild

variable {tree : FileTree} {outDir : Path} {root : Option Path} {b : DirectoryBuild}
  {names : Location} {contents : Bytes}

/-- What a directory must be to be a build, and what the bundle is then. -/
theorem loaded_of_ofDirectory (h : ofDirectory tree outDir root = .ok b) :
    tree.locate outDir.toString.toList = some b.place ∧
      (filesOf tree b.place).mapM (fun f => outputFileOf f.1 f.2) = .ok b.bundle.files ∧
      b.bundle.HasDistinctNames := by
  unfold ofDirectory at h
  split at h
  · cases h
  · rename_i place hPlace
    split at h
    · cases h
    · obtain ⟨files, hFiles, h⟩ := bind_eq_ok_iff.mp h
      obtain ⟨bundle, hBundle, h⟩ := bind_eq_ok_iff.mp h
      cases h
      cases hEmitted : Bundle.ofFiles files with
      | error e =>
        rw [hEmitted] at hBundle
        cases hBundle
      | ok emitted =>
        rw [hEmitted] at hBundle
        cases hBundle
        refine ⟨hPlace, ?_, Bundle.hasDistinctNames_ofFiles hEmitted⟩
        rw [Bundle.files_of_emitAll hEmitted]
        exact hFiles

theorem mem_filesOf {place : Location} :
    (names, contents) ∈ filesOf tree place ↔
      names ≠ [] ∧ (place ++ names, contents) ∈ tree.files := by
  unfold filesOf
  rw [List.mem_mergeSort, FileTree.mem_filesBelow]

/-- The files of the bundle are those below the directory. -/
theorem mem_bundle_iff (h : ofDirectory tree outDir root = .ok b) {f : OutputFile} :
    f ∈ b.bundle.files ↔ ∃ names contents, names ≠ [] ∧ (b.place ++ names, contents) ∈ tree.files ∧
      outputFileOf names contents = .ok f := by
  obtain ⟨-, hFiles, -⟩ := loaded_of_ofDirectory h
  rw [mem_mapM_iff hFiles]
  constructor
  · rintro ⟨⟨names, contents⟩, hMem, hFile⟩
    obtain ⟨hSome, hMem⟩ := mem_filesOf.mp hMem
    exact ⟨names, contents, hSome, hMem, hFile⟩
  · rintro ⟨names, contents, hSome, hMem, hFile⟩
    exact ⟨(names, contents), mem_filesOf.mpr ⟨hSome, hMem⟩, hFile⟩

theorem exists_file_of_mem (h : ofDirectory tree outDir root = .ok b) (hSome : names ≠ [])
    (hMem : (b.place ++ names, contents) ∈ tree.files) :
    ∃ f ∈ b.bundle.files, outputFileOf names contents = .ok f := by
  obtain ⟨-, hFiles, -⟩ := loaded_of_ofDirectory h
  have hThere : (names, contents) ∈ filesOf tree b.place := mem_filesOf.mpr ⟨hSome, hMem⟩
  obtain ⟨f, hf, hFile⟩ := exists_of_mapM_eq_ok hFiles hThere
  exact ⟨f, hf, hFile⟩

/-! ## Places of files -/

theorem placeOf_injective (b : DirectoryBuild) : Function.Injective b.placeOf := by
  intro name other h
  have hParts := List.append_cancel_left h
  have hSlashes := List.map_injective_iff.mpr (fun _ _ => String.ofList_injective) hParts
  exact String.toList_injective (splitSlashes_injective hSlashes)

theorem placeOf_intercalate (hPlain : ∀ name ∈ names, '/' ∉ name.toList) (hSome : names ≠ []) :
    b.placeOf (String.intercalate "/" names) = b.place ++ names := by
  unfold placeOf
  rw [splitSlashes_intercalate hPlain hSome]

/-- A file of the bundle is written to where it was read from. -/
theorem placeOf_of_mem (hPlain : tree.HasPlainNames) (hSome : names ≠ [])
    (hMem : (b.place ++ names, contents) ∈ tree.files) :
    b.placeOf (String.intercalate "/" names) = b.place ++ names :=
  placeOf_intercalate (fun name hName => hPlain _ hMem name (List.mem_append_right _ hName)) hSome

/-- What a style sheet of the bundle is on disk. -/
theorem exists_contents_of_sheet (hPlain : tree.HasPlainNames)
    (h : ofDirectory tree outDir root = .ok b) {s : Sheet} (hSheet : s ∈ b.bundle.sheets) :
    isCssName s.fileName = true ∧ ∃ contents, tree.contents? (b.placeOf s.fileName) = some contents ∧
      Utf8.decode contents = .ok s.text := by
  rw [Bundle.sheets_eq] at hSheet
  obtain ⟨f, hf, hSheet⟩ := List.mem_filterMap.mp hSheet
  obtain ⟨a, rfl, hCss, hText, hName⟩ := OutputFile.exists_of_sheet? hSheet
  rw [← hName]
  refine ⟨hCss, ?_⟩
  obtain ⟨names, contents, hSome, hMem, hFile⟩ := (mem_bundle_iff h).mp hf
  have hFileName : a.fileName = String.intercalate "/" names := fileName_outputFileOf hFile
  rw [hFileName, placeOf_of_mem hPlain hSome hMem]
  obtain ⟨found, hFound⟩ := FileTree.exists_contents? hMem
  refine ⟨found, hFound, ?_⟩
  -- what is found first at the place is loaded under the same name, so it is the same file
  obtain ⟨g, hg, hOther⟩ := exists_file_of_mem h hSome (FileTree.mem_of_contents? hFound)
  have hSame : g = .asset a := by
    apply (loaded_of_ofDirectory h).2.2.eq_of_fileName hg hf
    exact (fileName_outputFileOf hOther).trans hFileName.symm
  subst hSame
  rw [Asset.text?, source_of_outputFileOf hOther] at hText
  exact hText

end DirectoryBuild

/-! ## Results -/

theorem names_resultsOf_sublist (outcome : Sheet → Option PurgeResult) (sheets : List Sheet) :
    ((resultsOf outcome sheets).map Prod.fst).Sublist (sheets.map Sheet.fileName) := by
  induction sheets with
  | nil => exact .slnil
  | cons s rest ih =>
    cases hOutcome : outcome s with
    | none =>
      rw [resultsOf_cons_none hOutcome]
      exact ih.cons _
    | some r =>
      rw [resultsOf_cons_some hOutcome]
      exact ih.cons_cons _

/-- The names of the results are those of style sheets, in their order. -/
theorem Plugin.names_results_sublist [Runtime] {p : Plugin} {c : BuildContext} {schedule : Schedule}
    {bundle : Bundle} {results : PurgeResults} (hNames : bundle.HasDistinctNames)
    (h : (p.generate schedule c bundle).pass.result = .ok results) :
    (results.map Prod.fst).Sublist (bundle.sheets.map Sheet.fileName) := by
  by_cases hActive : p.isActive = true
  · obtain ⟨selectors, -, hPass⟩ := (result_generate_active hActive).mp h
    obtain ⟨outcome, -, rfl⟩ := results_purgeAssets hNames hPass
    exact names_resultsOf_sublist outcome bundle.sheets
  · rw [result_generate_inactive (Bool.eq_false_iff.mpr hActive)] at h
    cases h
    exact List.nil_sublist _

theorem Plugin.bundle_generate_active [Runtime] {p : Plugin} {c : BuildContext} {schedule : Schedule}
    {bundle : Bundle} {selectors : List String} (hActive : p.isActive = true)
    (hSelectors : (p.discover c).result = .ok selectors) :
    (p.generate schedule c bundle).bundle =
      (purgeAssets schedule p.engine p.options (p.options.safelist.extended selectors) p.root
        bundle).bundle := by
  have hSafelist := result_safelist_eq_ok.mpr ⟨selectors, hSelectors, rfl⟩
  unfold generate
  rw [if_pos hActive, BundlePass.bundle_after_ok hSafelist]

/-- After a pass, the bundle has what is left of a style sheet under its name. -/
theorem Plugin.get?_of_mem_results [Runtime] {p : Plugin} {c : BuildContext} {schedule : Schedule}
    {bundle : Bundle} {results : PurgeResults} (hNames : bundle.HasDistinctNames)
    (h : (p.generate schedule c bundle).pass.result = .ok results) {name : String} {r : PurgeResult}
    (hr : (name, r) ∈ results) :
    ∃ a, (p.generate schedule c bundle).bundle.get? name = some (.asset a) ∧ a.source = .text r.css := by
  by_cases hActive : p.isActive = true
  · obtain ⟨selectors, hSelectors, hPass⟩ := (result_generate_active hActive).mp h
    obtain ⟨alone, hBundle, rfl⟩ := exists_alone_of_result hNames hPass
    rw [bundle_generate_active hActive hSelectors, hBundle]
    exact Bundle.get?_purgedAlone hNames hr
  · rw [result_generate_inactive (Bool.eq_false_iff.mpr hActive)] at h
    cases h
    cases hr

namespace DirectoryBuild

variable {tree after : FileTree} {outDir : Path} {root : Option Path} {b : DirectoryBuild}
  {bundle : Bundle} {results : PurgeResults} {place : Location} {r : String × PurgeResult}

/-! ## Writing -/

/-- The files with the results written to their places. -/
def stored (b : DirectoryBuild) (tree : FileTree) (results : PurgeResults) : FileTree :=
  results.foldl (fun tree r => tree.write (b.placeOf r.1) (Utf8.encode r.2.css)) tree

theorem shape_stored :
    (b.stored tree results).files.map Prod.fst = tree.files.map Prod.fst ∧
      (b.stored tree results).directories = tree.directories := by
  induction results generalizing tree with
  | nil => exact ⟨rfl, rfl⟩
  | cons r rest ih =>
    have hRest : (b.stored (tree.write (b.placeOf r.1) (Utf8.encode r.2.css)) rest).files.map Prod.fst =
      _ ∧ _ := ih
    exact ⟨hRest.1.trans FileTree.places_write, hRest.2⟩

theorem contents?_stored_other (h : ∀ r ∈ results, b.placeOf r.1 ≠ place) :
    (b.stored tree results).contents? place = tree.contents? place := by
  induction results generalizing tree with
  | nil => rfl
  | cons r rest ih =>
    rw [stored, List.foldl_cons, ← stored, ih fun r hr => h r (List.mem_cons_of_mem _ hr)]
    exact FileTree.contents?_write_other (h r List.mem_cons_self).symm

theorem contents?_stored_of_mem (hDistinct : (results.map Prod.fst).Nodup)
    (hThere : ∀ r ∈ results, ∃ contents, tree.contents? (b.placeOf r.1) = some contents)
    (hr : r ∈ results) :
    (b.stored tree results).contents? (b.placeOf r.1) = some (Utf8.encode r.2.css) := by
  induction results generalizing tree with
  | nil => cases hr
  | cons first rest ih =>
    obtain ⟨hNew, hDistinct⟩ := List.nodup_cons.mp hDistinct
    have hOthers : ∀ r ∈ rest, b.placeOf r.1 ≠ b.placeOf first.1 := by
      intro r hr hSame
      apply hNew
      rw [← b.placeOf_injective hSame]
      exact List.mem_map_of_mem hr
    rw [stored, List.foldl_cons, ← stored]
    rcases List.mem_cons.mp hr with rfl | hr
    · obtain ⟨contents, hContents⟩ := hThere r List.mem_cons_self
      rw [contents?_stored_other hOthers]
      exact FileTree.contents?_write_self hContents
    · refine ih hDistinct ?_ hr
      intro r hr
      obtain ⟨contents, hContents⟩ := hThere r (List.mem_cons_of_mem _ hr)
      exact ⟨contents, (FileTree.contents?_write_other (hOthers r hr)).trans hContents⟩

theorem placeOf_ne_of_append {written untouched : PurgeResults}
    (hDistinct : ((written ++ r :: untouched).map Prod.fst).Nodup) :
    ∀ w ∈ written, b.placeOf w.1 ≠ b.placeOf r.1 := by
  rw [List.map_append, List.nodup_append] at hDistinct
  intro w hw hSame
  exact hDistinct.2.2 _ (List.mem_map_of_mem hw) _ List.mem_cons_self (b.placeOf_injective hSame)

/-- The same files as before: what is left of style sheets in the places of the results, and in all
others what there was. -/
structure HasWritten (b : DirectoryBuild) (tree after : FileTree) (results : PurgeResults) : Prop where
  files : after.files.map Prod.fst = tree.files.map Prod.fst
  directories : after.directories = tree.directories
  others : ∀ place, (∀ r ∈ results, b.placeOf r.1 ≠ place) →
    after.contents? place = tree.contents? place
  written : ∀ r ∈ results, after.contents? (b.placeOf r.1) = some (Utf8.encode r.2.css)

theorem hasWritten_stored (hDistinct : (results.map Prod.fst).Nodup)
    (hThere : ∀ r ∈ results, ∃ contents, tree.contents? (b.placeOf r.1) = some contents) :
    b.HasWritten tree (b.stored tree results) results where
  files := shape_stored.1
  directories := shape_stored.2
  others _ h := contents?_stored_other h
  written _ hr := contents?_stored_of_mem hDistinct hThere hr

section Encoding

variable [Surrogates]

/-- A result that can be encoded: no half of a surrogate pair is in it. -/
def IsEncodable (r : String × PurgeResult) : Prop := r.2.css.toList.any Surrogates.isHalf = false

theorem encode?_of_isEncodable (h : IsEncodable r) :
    Surrogates.encode? r.2.css = some (Utf8.encode r.2.css) := by
  unfold Surrogates.encode?
  rw [h, if_neg Bool.false_ne_true]

theorem encode?_eq_none (h : ¬IsEncodable r) : Surrogates.encode? r.2.css = none :=
  if_pos (Bool.not_eq_false _ ▸ h)

/-- Results whose texts the bundle has are written up to the first that cannot be encoded, of which an
empty file is left. -/
theorem write_eq (tree : FileTree) (hTexts : ∀ r ∈ results, textOf bundle r.1 = .ok r.2.css) :
    ((∀ r ∈ results, IsEncodable r) ∧
        (b.write bundle tree (results.map Prod.fst)).tree = b.stored tree results ∧
        (b.write bundle tree (results.map Prod.fst)).result = .ok ()) ∨
      ∃ written r untouched, results = written ++ r :: untouched ∧ (∀ w ∈ written, IsEncodable w) ∧
        ¬IsEncodable r ∧
        (b.write bundle tree (results.map Prod.fst)).tree =
          (b.stored tree written).write (b.placeOf r.1) [] ∧
        (b.write bundle tree (results.map Prod.fst)).result = .error (.unencodable r.1) := by
  induction results generalizing tree with
  | nil => exact Or.inl ⟨nofun, rfl, rfl⟩
  | cons r rest ih =>
    have hText := hTexts r List.mem_cons_self
    rw [List.map_cons, write, hText]
    dsimp only
    by_cases hEncodable : IsEncodable r
    · rw [encode?_of_isEncodable hEncodable]
      dsimp only
      rcases ih (tree.write (b.placeOf r.1) (Utf8.encode r.2.css))
        (fun r hr => hTexts r (List.mem_cons_of_mem _ hr)) with
        ⟨hAll, hTree, hOk⟩ | ⟨written, bad, untouched, rfl, hWritten, hBad, hTree, hError⟩
      · exact Or.inl ⟨List.forall_mem_cons.mpr ⟨hEncodable, hAll⟩, hTree, hOk⟩
      · exact Or.inr ⟨r :: written, bad, untouched, rfl,
          List.forall_mem_cons.mpr ⟨hEncodable, hWritten⟩, hBad, hTree, hError⟩
    · rw [encode?_eq_none hEncodable]
      exact Or.inr ⟨[], r, rest, rfl, nofun, hEncodable, rfl, rfl⟩

end Encoding

/-! ## Running -/

section Run

variable [Runtime] [Surrogates] {schedule : Schedule} {p : Plugin} {writes : Bool}

theorem run_of_pass_error {e : PassError} (h : (b.pass schedule p).pass.result = .error e) :
    (b.run schedule p writes tree).tree = tree ∧
      (b.run schedule p writes tree).result = .error (.pass e) := by
  unfold run
  dsimp only
  rw [h]
  exact ⟨rfl, rfl⟩

theorem run_of_not_writes (tree : FileTree) (h : (b.pass schedule p).pass.result = .ok results) :
    (b.run schedule p false tree).tree = tree ∧
      (b.run schedule p false tree).result = .ok results := by
  unfold run
  dsimp only
  rw [h]
  exact ⟨rfl, rfl⟩

theorem run_of_writes (tree : FileTree) (h : (b.pass schedule p).pass.result = .ok results) :
    (b.run schedule p true tree).tree =
        (b.write (b.pass schedule p).bundle tree (results.map Prod.fst)).tree ∧
      (b.run schedule p true tree).result =
        ((b.write (b.pass schedule p).bundle tree (results.map Prod.fst)).result.mapError .write).map
          fun _ => results := by
  unfold run
  dsimp only
  rw [h]
  exact ⟨rfl, rfl⟩

omit [Surrogates] in
/-- After a pass, the bundle has the text that is written for a result. -/
theorem textOf_of_mem_results (hNames : b.bundle.HasDistinctNames)
    (h : (b.pass schedule p).pass.result = .ok results) (hr : r ∈ results) :
    textOf (b.pass schedule p).bundle r.1 = .ok r.2.css := by
  obtain ⟨a, hGet, hSource⟩ := Plugin.get?_of_mem_results hNames h hr
  unfold textOf
  rw [show (b.pass schedule p).bundle.get? r.1 = _ from hGet]
  dsimp only
  rw [Asset.text?, hSource]
  rfl

omit [Surrogates] in
/-- The results of a pass are for different style sheets, which were texts. -/
theorem sheets_of_results (hPlain : tree.HasPlainNames) (hBuild : ofDirectory tree outDir root = .ok b)
    (h : (b.pass schedule p).pass.result = .ok results) :
    (results.map Prod.fst).Nodup ∧
      ∀ r ∈ results, isCssName r.1 = true ∧ ∃ contents text,
        tree.contents? (b.placeOf r.1) = some contents ∧ Utf8.decode contents = .ok text := by
  obtain ⟨-, -, hNames⟩ := loaded_of_ofDirectory hBuild
  have hSublist := Plugin.names_results_sublist hNames h
  refine ⟨hSublist.nodup hNames.nodup_sheets, fun r hr => ?_⟩
  obtain ⟨s, hs, hName⟩ := List.mem_map.mp (hSublist.subset (List.mem_map_of_mem hr))
  obtain ⟨hCss, contents, hContents, hText⟩ := exists_contents_of_sheet hPlain hBuild hs
  rw [hName] at hCss hContents
  exact ⟨hCss, contents, s.text, hContents, hText⟩

/-- How a run ends: with its pass, with all results written if that is wanted, or at the first result
that cannot be encoded. -/
theorem run_cases (hPlain : tree.HasPlainNames) (hBuild : ofDirectory tree outDir root = .ok b)
    (schedule : Schedule) (p : Plugin) (writes : Bool) :
    (∃ e, (b.pass schedule p).pass.result = .error e ∧
        (b.run schedule p writes tree).result = .error (.pass e) ∧
        (b.run schedule p writes tree).tree = tree) ∨
      (∃ results, (b.pass schedule p).pass.result = .ok results ∧
        (b.run schedule p writes tree).result = .ok results ∧
        (writes = true → (∀ r ∈ results, IsEncodable r) ∧
          b.HasWritten tree (b.run schedule p writes tree).tree results) ∧
        (writes = false → (b.run schedule p writes tree).tree = tree)) ∨
      writes = true ∧ ∃ written r untouched between,
        (b.pass schedule p).pass.result = .ok (written ++ r :: untouched) ∧
        (b.run schedule p writes tree).result = .error (.write (.unencodable r.1)) ∧
        (∀ w ∈ written, IsEncodable w) ∧ ¬IsEncodable r ∧ b.HasWritten tree between written ∧
        (b.run schedule p writes tree).tree = between.write (b.placeOf r.1) [] := by
  obtain ⟨-, -, hNames⟩ := loaded_of_ofDirectory hBuild
  cases hPass : (b.pass schedule p).pass.result with
  | error e => exact Or.inl ⟨e, rfl, (run_of_pass_error hPass).2, (run_of_pass_error hPass).1⟩
  | ok results =>
    cases writes with
    | false =>
      obtain ⟨hTree, hResult⟩ := run_of_not_writes tree hPass
      exact Or.inr (Or.inl ⟨results, rfl, hResult, fun h => Bool.noConfusion h, fun _ => hTree⟩)
    | true =>
      obtain ⟨hTree, hResult⟩ := run_of_writes tree hPass
      obtain ⟨hDistinct, hSheets⟩ := sheets_of_results hPlain hBuild hPass
      have hThere : ∀ r ∈ results, ∃ contents, tree.contents? (b.placeOf r.1) = some contents := by
        intro r hr
        obtain ⟨-, contents, -, hContents, -⟩ := hSheets r hr
        exact ⟨contents, hContents⟩
      rcases write_eq tree fun r hr => textOf_of_mem_results hNames hPass hr with
        ⟨hAll, hWritten, hOk⟩ | ⟨written, r, untouched, rfl, hAll, hBad, hWritten, hError⟩
      · rw [hWritten] at hTree
        rw [hOk] at hResult
        refine Or.inr (Or.inl ⟨results, rfl, hResult, fun _ => ⟨hAll, ?_⟩, fun h => Bool.noConfusion h⟩)
        rw [hTree]
        exact hasWritten_stored hDistinct hThere
      · rw [hWritten] at hTree
        rw [hError] at hResult
        refine Or.inr (Or.inr ⟨rfl, written, r, untouched, _, rfl, hResult, hAll, hBad, ?_, hTree⟩)
        rw [List.map_append] at hDistinct
        exact hasWritten_stored hDistinct.of_append_left fun w hw => hThere w (List.mem_append_left _ hw)

/-- A run goes through just if its pass does and all that is written can be encoded. -/
theorem result_run_eq_ok_iff (hPlain : tree.HasPlainNames) (hBuild : ofDirectory tree outDir root = .ok b) :
    (b.run schedule p writes tree).result = .ok results ↔
      (b.pass schedule p).pass.result = .ok results ∧
        (writes = true → ∀ r ∈ results, IsEncodable r) := by
  rcases run_cases hPlain hBuild schedule p writes with ⟨e, hPass, hRun, -⟩ |
    ⟨found, hPass, hRun, hWrites, -⟩ | ⟨hWrites, written, r, untouched, -, hPass, hRun, -, hBad, -⟩
  · rw [hPass, hRun]
    exact iff_of_false nofun fun h => nomatch h.1
  · rw [hPass, hRun]
    constructor
    · rintro ⟨⟩
      exact ⟨rfl, fun hTrue => (hWrites hTrue).1⟩
    · rintro ⟨⟨⟩, -⟩
      rfl
  · rw [hPass, hRun]
    refine iff_of_false nofun ?_
    rintro ⟨⟨⟩, hAll⟩
    exact hBad (hAll hWrites r (List.mem_append_right _ List.mem_cons_self))

/-- A run that goes through and writes has written its results. -/
theorem hasWritten_run (hPlain : tree.HasPlainNames) (hBuild : ofDirectory tree outDir root = .ok b)
    (h : (b.run schedule p true tree).result = .ok results) :
    b.HasWritten tree (b.run schedule p true tree).tree results := by
  rcases run_cases hPlain hBuild schedule p true with ⟨e, -, hRun, -⟩ | ⟨found, -, hRun, hWrites, -⟩ |
    ⟨-, written, r, untouched, -, -, hRun, -⟩
  · cases h.symm.trans hRun
  · cases h.symm.trans hRun
    exact (hWrites rfl).2
  · cases h.symm.trans hRun

theorem tree_run_of_not_writes (hPlain : tree.HasPlainNames)
    (hBuild : ofDirectory tree outDir root = .ok b) : (b.run schedule p false tree).tree = tree := by
  rcases run_cases hPlain hBuild schedule p false with ⟨-, -, -, hTree⟩ | ⟨-, -, -, -, hTree⟩ | ⟨⟨⟩, -⟩
  · exact hTree
  · exact hTree rfl

theorem tree_run_of_pass_error (hPlain : tree.HasPlainNames)
    (hBuild : ofDirectory tree outDir root = .ok b) {e : PassError}
    (h : (b.run schedule p writes tree).result = .error (.pass e)) :
    (b.run schedule p writes tree).tree = tree := by
  rcases run_cases hPlain hBuild schedule p writes with ⟨-, -, -, hTree⟩ | ⟨found, -, hRun, -⟩ |
    ⟨-, written, r, untouched, -, -, hRun, -⟩
  · exact hTree
  · cases h.symm.trans hRun
  · cases h.symm.trans hRun

/-- Where writing fails, the results in front are written and an empty file is left. -/
theorem tree_run_of_write_error (hPlain : tree.HasPlainNames)
    (hBuild : ofDirectory tree outDir root = .ok b) {e : WriteError}
    (h : (b.run schedule p writes tree).result = .error (.write e)) :
    ∃ written r untouched between,
      (b.pass schedule p).pass.result = .ok (written ++ r :: untouched) ∧
      (∀ w ∈ written, IsEncodable w) ∧ ¬IsEncodable r ∧ e = .unencodable r.1 ∧
      b.HasWritten tree between written ∧
      (b.run schedule p writes tree).tree = between.write (b.placeOf r.1) [] ∧
      (b.run schedule p writes tree).tree.contents? (b.placeOf r.1) = some [] := by
  rcases run_cases hPlain hBuild schedule p writes with ⟨e, -, hRun, -⟩ | ⟨found, -, hRun, -⟩ |
    ⟨-, written, r, untouched, between, hPass, hRun, hAll, hBad, hWritten, hTree⟩
  · cases h.symm.trans hRun
  · cases h.symm.trans hRun
  · cases h.symm.trans hRun
    obtain ⟨hDistinct, hSheets⟩ := sheets_of_results hPlain hBuild hPass
    obtain ⟨-, contents, -, hContents, -⟩ := hSheets r (List.mem_append_right _ List.mem_cons_self)
    have hThere : between.contents? (b.placeOf r.1) = some contents :=
      (hWritten.others _ (placeOf_ne_of_append hDistinct)).trans hContents
    refine ⟨written, r, untouched, between, hPass, hAll, hBad, rfl, hWritten, hTree, ?_⟩
    rw [hTree]
    exact FileTree.contents?_write_self hThere

end Run

/-- A build holds every file below its directory once, under the names that lead to it. A run goes through
just if its pass does and, where it writes, all results can be encoded. After a run that has written, the
files and directories are the same ones, files without a result have their contents, and a result is for
a style sheet that was a text, in whose place there is what is left of it. A run that does not write
changes nothing, nor does one whose pass fails. If writing fails, then at the first result that cannot be
encoded: those in front of it are written as in a run that goes through, its own file is empty, and all
else is as it was. -/
theorem run_touches_results [Runtime] [Surrogates] (hPlain : tree.HasPlainNames)
    (hBuild : ofDirectory tree outDir root = .ok b) :
    tree.locate outDir.toString.toList = some b.place ∧
    (b.bundle.files.map OutputFile.fileName).Nodup ∧
    (∀ f, f ∈ b.bundle.files ↔ ∃ names contents, names ≠ [] ∧
      (b.place ++ names, contents) ∈ tree.files ∧ outputFileOf names contents = .ok f) ∧
    (∀ names contents, names ≠ [] → (b.place ++ names, contents) ∈ tree.files →
      ∃ f ∈ b.bundle.files, f.fileName = String.intercalate "/" names ∧
        b.placeOf f.fileName = b.place ++ names) ∧
    ∀ (schedule : Schedule) (p : Plugin),
      (∀ writes results, (b.run schedule p writes tree).result = .ok results ↔
        (b.pass schedule p).pass.result = .ok results ∧
          (writes = true → ∀ r ∈ results, IsEncodable r)) ∧
      (∀ results, (b.run schedule p true tree).result = .ok results →
        b.HasWritten tree (b.run schedule p true tree).tree results ∧
        ∀ r ∈ results, isCssName r.1 = true ∧ ∃ contents text,
          tree.contents? (b.placeOf r.1) = some contents ∧ Utf8.decode contents = .ok text) ∧
      (b.run schedule p false tree).tree = tree ∧
      (∀ writes e, (b.run schedule p writes tree).result = .error (.pass e) →
        (b.run schedule p writes tree).tree = tree) ∧
      ∀ writes e, (b.run schedule p writes tree).result = .error (.write e) →
        ∃ written r untouched between,
          (b.pass schedule p).pass.result = .ok (written ++ r :: untouched) ∧
          (∀ w ∈ written, IsEncodable w) ∧ ¬IsEncodable r ∧ e = .unencodable r.1 ∧
          b.HasWritten tree between written ∧
          (b.run schedule p writes tree).tree = between.write (b.placeOf r.1) [] ∧
          (b.run schedule p writes tree).tree.contents? (b.placeOf r.1) = some [] := by
  obtain ⟨hPlace, -, hNames⟩ := loaded_of_ofDirectory hBuild
  refine ⟨hPlace, hNames, fun f => mem_bundle_iff hBuild, ?_, ?_⟩
  · intro names contents hSome hMem
    obtain ⟨f, hf, hFile⟩ := exists_file_of_mem hBuild hSome hMem
    have hFileName := fileName_outputFileOf hFile
    exact ⟨f, hf, hFileName, hFileName ▸ placeOf_of_mem hPlain hSome hMem⟩
  intro schedule p
  refine ⟨?_, ?_, tree_run_of_not_writes hPlain hBuild, ?_, ?_⟩
  · intro writes results
    exact result_run_eq_ok_iff hPlain hBuild
  · intro results hResults
    obtain ⟨hPass, -⟩ := (result_run_eq_ok_iff hPlain hBuild).mp hResults
    exact ⟨hasWritten_run hPlain hBuild hResults, (sheets_of_results hPlain hBuild hPass).2⟩
  · intro writes e hError
    exact tree_run_of_pass_error hPlain hBuild hError
  · intro writes e hError
    exact tree_run_of_write_error hPlain hBuild hError

/-- In a directory with a page and two style sheets, of which one is no text, the run writes the style
sheet that is a text. -/
theorem run_touches_results_one_sheet :
    let tree := FileTree.ofNamed [("dist/a.css", Utf8.encode ".x{}.y{}"), ("dist/broken.css", [0xFF]),
      ("dist/sub/page.html", [0x78]), ("a.css", [0x61])]
    let engine : Engine := fun r =>
      pure (r.css.map fun c => ⟨".x{}", c.name, [".y"], none⟩)
    let p : Plugin := { options := {}, engine := engine }
    let outDir : Path := ⟨"", ["dist"]⟩
    tree.HasPlainNames ∧ ∃ b, ofDirectory tree outDir none = .ok b ∧
      (b.run .inTurn p true tree).result = .ok [("a.css", ⟨".x{}", some "a.css", [".y"], none⟩)] ∧
      (b.run .inTurn p true tree).tree.contents? ["dist", "a.css"] = some (Utf8.encode ".x{}") ∧
      (b.run .inTurn p true tree).tree.contents? ["a.css"] = some [0x61] := by
  intro tree engine p outDir
  have hPlain : tree.HasPlainNames := FileTree.hasPlainNames_ofNamed _
  have hFiles : filesOf tree ["dist"] = [(["a.css"], Utf8.encode ".x{}.y{}"),
      (["broken.css"], [0xFF]), (["sub", "page.html"], [0x78])] := by
    have hBelow : tree.filesBelow ["dist"] = [(["a.css"], Utf8.encode ".x{}.y{}"),
        (["broken.css"], [0xFF]), (["sub", "page.html"], [0x78])] := by
      decide +kernel
    unfold filesOf
    rw [hBelow]
    exact List.mergeSort_of_pairwise (by decide +kernel)
  let bundle : Bundle := ⟨[.asset { fileName := "a.css", source := .bytes (Utf8.encode ".x{}.y{}") },
    .asset { fileName := "broken.css", source := .bytes [0xFF] },
    .asset { fileName := "sub/page.html", source := .bytes [0x78] }]⟩
  let b : DirectoryBuild := ⟨outDir, ["dist"], outDir, bundle⟩
  have hBuild : ofDirectory tree outDir none = .ok b := by
    unfold ofDirectory
    have hPlace : tree.locate outDir.toString.toList = some ["dist"] := by
      decide +kernel
    rw [hPlace]
    dsimp only
    rw [if_neg (by decide +kernel), hFiles]
    rfl
  have hResult : (b.run .inTurn p true tree).result =
      .ok [("a.css", ⟨".x{}", some "a.css", [".y"], none⟩)] := by
    decide +kernel
  obtain ⟨-, -, -, -, hRuns⟩ := run_touches_results hPlain hBuild
  obtain ⟨-, hWrites, -⟩ := hRuns .inTurn p
  obtain ⟨hWritten, -⟩ := hWrites _ hResult
  refine ⟨hPlain, b, hBuild, hResult, hWritten.written _ List.mem_cons_self, ?_⟩
  exact (hWritten.others ["a.css"] (by decide +kernel)).trans (by decide +kernel)

/-- A style sheet with an escape of half a surrogate pair in a string is emptied by a run that fails. -/
theorem run_empties_unencodable :
    let contents := Utf8.encode "html\x7bcontent:\"\\d800\"\x7d"
    let tree := FileTree.ofNamed [("dist/a.css", contents)]
    let p : Plugin := { options := {}, engine := purgeEngine tree }
    let outDir : Path := ⟨"", ["dist"]⟩
    ∃ b, ofDirectory tree outDir none = .ok b ∧
      (b.run .inTurn p true tree).result = .error (.write (.unencodable "a.css")) ∧
      tree.contents? ["dist", "a.css"] = some contents ∧
      (b.run .inTurn p true tree).tree.contents? ["dist", "a.css"] = some [] := by
  intro contents tree p outDir
  let bundle : Bundle := ⟨[.asset { fileName := "a.css", source := .bytes contents }]⟩
  refine ⟨⟨outDir, ["dist"], outDir, bundle⟩, ?_, ?_, ?_, ?_⟩
  · have hFiles : filesOf tree ["dist"] = [(["a.css"], contents)] := by
      have hBelow : tree.filesBelow ["dist"] = [(["a.css"], contents)] := by
        decide +kernel
      unfold filesOf
      rw [hBelow]
      exact List.mergeSort_singleton _
    have hFile : outputFileOf ["a.css"] contents =
        .ok (.asset { fileName := "a.css", source := .bytes contents }) := by
      unfold outputFileOf
      rw [if_neg (by decide +kernel)]
      rfl
    have hPlace : tree.locate outDir.toString.toList = some ["dist"] := by
      decide +kernel
    unfold ofDirectory
    rw [hPlace]
    dsimp only
    rw [if_neg (by decide +kernel), hFiles, List.mapM_cons, List.mapM_nil, hFile]
    rfl
  · decide +kernel
  · decide +kernel
  · decide +kernel

end DirectoryBuild

end StyleSieve
