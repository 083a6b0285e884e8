import StyleSieve.AssetPurge
import StyleSieve.Proofs.Bundle.Names
import StyleSieve.Proofs.Engine.Source

/-!
# Results for the style sheets of a bundle

* `results_purgeAssets`: a pass over the style sheets of a bundle has the results that the
  engine has for each of them alone, in the order of the bundle and whatever the schedule.
-/

namespace StyleSieve

/-! ## Reading -/

/-- The style sheet that an asset is, if it is a text. -/
def Asset.sheet? (a : Asset) : Option Sheet :=
  match a.text? with
  | .ok text => some ⟨a.fileName, text⟩
  | .error _ => none

/-- The style sheets of a bundle that are texts, in its order. -/
def Bundle.sheets (b : Bundle) : List Sheet := b.cssAssets.filterMap Asset.sheet?

theorem result_readableSheets (assets : List Asset) :
    (readableSheets assets).result = .ok (assets.filterMap Asset.sheet?) := by
  induction assets with
  | nil => rfl
  | cons a rest ih =>
    unfold readableSheets Asset.sheet?
    cases hText : a.text? with
    | ok text =>
      rw [Pass.result_bind, ih, List.filterMap_cons, hText]
      rfl
    | error e =>
      rw [Pass.result_bind_unit (by simp), Pass.result_bind_unit (by simp), ih,
        List.filterMap_cons, hText]
      rfl

theorem Asset.fileName_of_sheet? {a : Asset} {s : Sheet} (h : a.sheet? = some s) :
    s.fileName = a.fileName := by
  unfold sheet? at h
  split at h
  · cases h
    rfl
  · cases h

theorem names_filterMap_sheet?_sublist (assets : List Asset) :
    ((assets.filterMap Asset.sheet?).map Sheet.fileName).Sublist (assets.map Asset.fileName) := by
  induction assets with
  | nil => exact .slnil
  | cons a rest ih =>
    rw [List.filterMap_cons, List.map_cons]
    split
    · exact ih.cons _
    · rename_i hSheet
      rw [List.map_cons, Asset.fileName_of_sheet? hSheet]
      exact ih.cons_cons _

theorem Bundle.HasDistinctNames.nodup_sheets {b : Bundle} (h : b.HasDistinctNames) :
    (b.sheets.map Sheet.fileName).Nodup :=
  List.Nodup.sublist (names_filterMap_sheet?_sublist _) h.nodup_cssAssets

/-! ## Gathering -/

/-- If the names are distinct, what is found for a name is what its own run has found. -/
theorem resultFor_gather {runs : List (String × Pass Empty (Option PurgeResult))}
    {found : List (String × Option PurgeResult)} (hNames : (runs.map Prod.fst).Nodup)
    (h : (gather runs).result = .ok found) {name : String}
    {run : Pass Empty (Option PurgeResult)} (hRun : (name, run) ∈ runs) :
    run.result = .ok (resultFor found name) := by
  replace h := mapM_eq_ok_iff.mp h
  induction h with
  | nil => cases hRun
  | @cons entry pair runs found hStep hRest ih =>
    rw [List.map_cons, List.nodup_cons] at hNames
    obtain ⟨outcome, hOutcome, rfl⟩ : ∃ o, entry.2.result = .ok o ∧ (entry.1, o) = pair := by
      cases hResult : entry.2.result with
      | error e =>
        rw [hResult] at hStep
        cases hStep
      | ok o =>
        rw [hResult] at hStep
        exact ⟨o, rfl, Except.ok.inj hStep⟩
    rcases List.mem_cons.mp hRun with rfl | hRun
    · rw [hOutcome]
      simp [resultFor]
    · have hOther : (entry.1 == name) = false := by
        refine beq_eq_false_iff_ne.mpr fun hSame => hNames.1 ?_
        exact hSame ▸ List.mem_map_of_mem hRun
      rw [ih hNames.2 hRun]
      simp [resultFor, hOther]

/-! ## Replacing -/

/-- The results for style sheets that have one, by name. -/
def resultsOf (outcome : Sheet → Option PurgeResult) (sheets : List Sheet) : PurgeResults :=
  sheets.filterMap fun s => (outcome s).map (s.fileName, ·)

theorem resultsOf_cons_none {outcome : Sheet → Option PurgeResult} {s : Sheet}
    (h : outcome s = none) (rest : List Sheet) :
    resultsOf outcome (s :: rest) = resultsOf outcome rest := by
  simp [resultsOf, h]

theorem resultsOf_cons_some {outcome : Sheet → Option PurgeResult} {s : Sheet} {r : PurgeResult}
    (h : outcome s = some r) (rest : List Sheet) :
    resultsOf outcome (s :: rest) = (s.fileName, r) :: resultsOf outcome rest := by
  simp [resultsOf, h]

theorem results_replaceSheets {found : List (String × Option PurgeResult)} {bundle : Bundle}
    {sheets : List Sheet} {results : PurgeResults}
    (h : (replaceSheets found bundle sheets).pass.result = .ok results) :
    results = resultsOf (fun s => resultFor found s.fileName) sheets := by
  induction sheets generalizing bundle results with
  | nil => exact (Except.ok.inj h).symm
  | cons s rest ih =>
    unfold replaceSheets at h
    split at h
    · rename_i hNone
      rw [resultsOf_cons_none hNone]
      dsimp only at h
      rw [Pass.result_bind_unit (by simp), Pass.result_bind_unit (by simp)] at h
      exact ih h
    · rename_i r hSome
      rw [resultsOf_cons_some hSome]
      split at h
      · cases h
      · dsimp only at h
        rw [Pass.result_bind_unit (by simp), Pass.result_bind_unit (by simp),
          Pass.result_bind_eq_ok] at h
        obtain ⟨after, hAfter, h⟩ := h
        cases Except.ok.inj h
        exact congrArg ((s.fileName, r) :: ·) (ih hAfter)

/-! ## The pass -/

variable {schedule : Schedule} {engine : Engine} {options : Options} {safelist : Safelist}
  {root : Path} {bundle : Bundle} {sheets : List Sheet} {results : PurgeResults}

theorem Options.workers_eq_error {e : PassError} {tasks : Nat} :
    options.workers tasks = .error e ↔ e = .workerCount ∧ options.LacksWorkers := by
  unfold Options.workers LacksWorkers
  split
  · rename_i hNone
    simp [hNone]
  · rename_i n hSome
    rw [hSome]
    by_cases hZero : n = 0
    · simp [hZero]
    · by_cases hLess : n < 0
      · simp [hZero, hLess, eq_comm]
      · simp [hZero, hLess]

/-- A pass over style sheets that are texts has none of them, or no workers, or it works on all of them
and then replaces them. -/
theorem purgeSheets_cases (schedule : Schedule) (engine : Engine) (options : Options)
    (safelist : Safelist) (root : Path) (bundle : Bundle) (sheets : List Sheet) :
    (sheets = [] ∧
      purgeSheets schedule engine options safelist root bundle sheets = ⟨bundle, return []⟩) ∨
    (∃ e, sheets ≠ [] ∧ options.workers sheets.length = .error e ∧
      purgeSheets schedule engine options safelist root bundle sheets = ⟨bundle, Pass.fail e⟩) ∨
    ∃ workers, sheets ≠ [] ∧ options.workers sheets.length = .ok workers ∧
      purgeSheets schedule engine options safelist root bundle sheets =
        .after bundle (gather ((schedule.finished workers sheets).map fun s =>
          (s.fileName, purgeSheet engine options safelist root s))) fun found =>
          replaceSheets found bundle sheets := by
  unfold purgeSheets
  by_cases hNone : sheets = []
  · exact Or.inl ⟨hNone, if_pos (List.isEmpty_iff.mpr hNone)⟩
  · have hSome : ¬ sheets.isEmpty = true := fun h => hNone (List.isEmpty_iff.mp h)
    rw [if_neg hSome]
    cases hWorkers : options.workers sheets.length with
    | error e => exact Or.inr (Or.inl ⟨e, hNone, rfl, rfl⟩)
    | ok workers => exact Or.inr (Or.inr ⟨workers, hNone, rfl, rfl⟩)

/-- A pass over a bundle has the results that the engine has for each style sheet alone. -/
theorem results_purgeAssets (hNames : bundle.HasDistinctNames)
    (h : (purgeAssets schedule engine options safelist root bundle).pass.result = .ok results) :
    ∃ outcome : Sheet → Option PurgeResult,
      (∀ s ∈ bundle.sheets,
        (purgeSheet engine options safelist root s).result = .ok (outcome s)) ∧
      results = resultsOf outcome bundle.sheets := by
  unfold purgeAssets at h
  split at h
  · rename_i hEmpty
    have hSheets : bundle.sheets = [] := by
      rw [Bundle.sheets, List.isEmpty_iff.mp hEmpty, List.filterMap_nil]
    refine ⟨fun _ => none, ?_, ?_⟩
    · rw [hSheets]
      nofun
    · rw [hSheets]
      exact (Except.ok.inj h).symm
  · unfold BundlePass.after at h
    rw [Pass.result_bind_eq_ok] at h
    obtain ⟨sheets, hSheets, h⟩ := h
    obtain rfl : bundle.sheets = sheets :=
      Except.ok.inj ((result_readableSheets _).symm.trans hSheets)
    rcases purgeSheets_cases schedule engine options safelist root bundle bundle.sheets with
      ⟨hNone, hPass⟩ | ⟨e, -, -, hPass⟩ | ⟨workers, -, -, hPass⟩
    · rw [hPass] at h
      rw [hNone]
      exact ⟨fun _ => none, nofun, (Except.ok.inj h).symm⟩
    · rw [hPass] at h
      cases h
    · rw [hPass] at h
      obtain ⟨found, hFound, h⟩ := Pass.result_bind_eq_ok.mp h
      refine ⟨fun s => resultFor found s.fileName, fun s hs => ?_, results_replaceSheets h⟩
      refine resultFor_gather ?_ hFound
        (List.mem_map.mpr ⟨s, (schedule.perm _ _).mem_iff.mpr hs, rfl⟩)
      rw [List.map_map]
      exact ((schedule.perm _ _).map _).nodup_iff.mpr hNames.nodup_sheets

end StyleSieve
