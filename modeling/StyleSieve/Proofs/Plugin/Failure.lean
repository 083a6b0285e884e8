import StyleSieve.Proofs.Plugin.Discovery
import StyleSieve.Proofs.Plugin.Sequential

/-!
# Passes that fail

Nothing is replaced before all style sheets are worked on, and replacing does not fail. So a pass that
fails, whether in reading the modules or in the engine, leaves the bundle as it was and tells of no
style sheet that it is done with it.

* `BundlePass.FailsEarly`: what a pass has not done when it fails.
* `result_generate_eq_error`: a pass fails in reading the modules, or in the engine.
* `generate_unchanged_of_error`: then nothing is replaced and nothing has been told of it.
-/

namespace StyleSieve

/-! ## Events of passes -/

namespace Pass

variable {ε α β : Type} {p : Pass ε α} {f : α → Pass ε β}

/-- An event of two passes in a row is one of the first or of the second. -/
theorem mem_events_bind {event : ε} (h : event ∈ (p >>= f).events) :
    event ∈ p.events ∨ ∃ a, p.result = .ok a ∧ event ∈ (f a).events := by
  change event ∈ (Pass.bind p f).events at h
  unfold Pass.bind at h
  cases hResult : p.result with
  | error e =>
    rw [hResult] at h
    exact Or.inl h
  | ok a =>
    rw [hResult] at h
    exact (List.mem_append.mp h).imp_right fun h => ⟨a, rfl, h⟩

end Pass

/-! ## Before anything is replaced -/

/-- An event that comes before the engine is asked. -/
inductive Event.IsEarly : Event → Prop
  | modulesScanned (modules candidates : Int) : IsEarly (.modulesScanned modules candidates)
  | safelistBuilt (selectors standard greedy : Int) : IsEarly (.safelistBuilt selectors standard greedy)
  | undecodable (fileName : String) : IsEarly (.assetSkipped fileName "not UTF-8")

theorem Event.IsEarly.ne_assetPurged {event : Event} (h : event.IsEarly) (fileName : String)
    (rejected : List String) (rejectedCss : Option String) (originalSize purgedSize : Int) :
    event ≠ .assetPurged fileName rejected rejectedCss originalSize purgedSize := by
  rintro rfl
  cases h

theorem Event.IsEarly.ne_noResult {event : Event} (h : event.IsEarly) (fileName : String) :
    event ≠ .assetSkipped fileName "no result" := by
  intro hSame
  cases h with
  | modulesScanned => cases hSame
  | safelistBuilt => cases hSame
  | undecodable =>
    have hReason : "not UTF-8" = "no result" := (Event.assetSkipped.inj hSame).2
    exact absurd hReason (by decide)

theorem isEarly_readableSheets (assets : List Asset) :
    ∀ event ∈ (readableSheets assets).events, event.IsEarly := by
  induction assets with
  | nil =>
    intro event hEvent
    cases hEvent
  | cons a rest ih =>
    intro event hEvent
    unfold readableSheets at hEvent
    cases hText : a.text? with
    | ok text =>
      rw [hText] at hEvent
      rcases Pass.mem_events_bind hEvent with hEvent | ⟨sheets, -, hEvent⟩
      · exact ih event hEvent
      · cases hEvent
    | error e =>
      rw [hText] at hEvent
      rcases Pass.mem_events_bind hEvent with hEvent | ⟨-, -, hEvent⟩
      · cases hEvent
      · rcases Pass.mem_events_bind hEvent with hEvent | ⟨-, -, hEvent⟩
        · rw [List.mem_singleton.mp hEvent]
          exact .undecodable a.fileName
        · exact ih event hEvent

section Modules

variable {extract : String → List String} {parse : ScriptParser}

theorem events_scanModules (modules : List (Option Module)) :
    (scanModules extract parse modules : Pass Event _).events = [] := by
  induction modules with
  | nil => rfl
  | cons m rest ih =>
    cases m with
    | none => exact ih
    | some m =>
      unfold scanModules
      apply List.eq_nil_iff_forall_not_mem.mpr
      intro event hEvent
      cases hCode : m.liveCode? with
      | none =>
        rw [hCode] at hEvent
        rcases Pass.mem_events_bind hEvent with hEvent | ⟨-, -, hEvent⟩
        · cases hEvent
        · rw [ih] at hEvent
          cases hEvent
      | some code =>
        rw [hCode] at hEvent
        dsimp only at hEvent
        cases hScan : scanModule extract parse m.id code with
        | error e =>
          rw [hScan] at hEvent
          cases hEvent
        | ok tokens =>
          rw [hScan] at hEvent
          rcases Pass.mem_events_bind hEvent with hEvent | ⟨found, -, hEvent⟩
          · rw [ih] at hEvent
            cases hEvent
          · cases hEvent

theorem exists_texts_of_isLive {ε : Type} {modules : List (Option Module)}
    {lists : List (List String)}
    (h : (scanModules extract parse modules : Pass ε _).result = .ok lists) {code : String}
    (hLive : IsLive modules code) : ∃ texts, scriptTexts parse code = .ok texts := by
  rw [result_scanModules] at h
  obtain ⟨m, hm⟩ := hLive
  obtain ⟨list, -, hScan⟩ := exists_of_mapM_eq_ok h (mem_liveModules.mpr hm)
  obtain ⟨texts, hTexts, -⟩ := scanModule_eq_ok_iff.mp (mapError_eq_ok_iff.mp hScan)
  exact ⟨texts, hTexts⟩

end Modules

namespace Plugin

variable {p : Plugin} {c : BuildContext}

theorem isEarly_discover [Runtime] : ∀ event ∈ (p.discover c).events, event.IsEarly := by
  intro event hEvent
  rcases Pass.mem_events_bind hEvent with hEvent | ⟨candidates, -, hEvent⟩
  · rcases Pass.mem_events_bind hEvent with hEvent | ⟨found, -, hEvent⟩
    · rw [events_scanModules] at hEvent
      cases hEvent
    · rcases Pass.mem_events_bind hEvent with hEvent | ⟨-, -, hEvent⟩ <;> cases hEvent
  · rcases Pass.mem_events_bind hEvent with hEvent | ⟨-, -, hEvent⟩
    · rw [List.mem_singleton.mp hEvent]
      exact .modulesScanned ..
    · rcases Pass.mem_events_bind hEvent with hEvent | ⟨admitted, -, hEvent⟩
      · cases hEvent
      · rcases Pass.mem_events_bind hEvent with hEvent | ⟨-, -, hEvent⟩ <;> cases hEvent

theorem isEarly_safelist [Runtime] : ∀ event ∈ (p.safelist c).events, event.IsEarly := by
  intro event hEvent
  rcases Pass.mem_events_bind hEvent with hEvent | ⟨selectors, -, hEvent⟩
  · exact isEarly_discover event hEvent
  · rcases Pass.mem_events_bind hEvent with hEvent | ⟨-, -, hEvent⟩
    · rw [List.mem_singleton.mp hEvent]
      exact .safelistBuilt ..
    · cases hEvent

end Plugin

/-! ## Failing passes -/

/-- If a pass fails, the bundle is as it was, and what was told comes before the engine is asked. -/
def BundlePass.FailsEarly (bundle : Bundle) (p : BundlePass) : Prop :=
  ∀ e, p.pass.result = .error e → p.bundle = bundle ∧ ∀ event ∈ p.pass.events, event.IsEarly

namespace BundlePass

variable {α : Type} {bundle : Bundle} {p : BundlePass} {prepared : Pass Event α}
  {next : α → BundlePass}

theorem FailsEarly.of_ok {results : PurgeResults} (h : p.pass.result = .ok results) :
    p.FailsEarly bundle := by
  intro e hError
  cases h.symm.trans hError

theorem after_error {e : PassError} (h : prepared.result = .error e) :
    (BundlePass.after bundle prepared next).bundle = bundle ∧
      (BundlePass.after bundle prepared next).pass.result = .error e := by
  unfold BundlePass.after
  rw [Pass.result_bind, h]
  exact ⟨rfl, rfl⟩

theorem FailsEarly.after (hPrepared : ∀ event ∈ prepared.events, event.IsEarly)
    (hNext : ∀ a, prepared.result = .ok a → (next a).FailsEarly bundle) :
    (BundlePass.after bundle prepared next).FailsEarly bundle := by
  intro e hError
  cases hResult : prepared.result with
  | error e' =>
    refine ⟨(after_error hResult).1, ?_⟩
    intro event hEvent
    rcases Pass.mem_events_bind hEvent with hEvent | ⟨a, hOk, -⟩
    · exact hPrepared event hEvent
    · cases hResult.symm.trans hOk
  | ok a =>
    rw [result_after_ok hResult] at hError
    obtain ⟨hBundle, hEvents⟩ := hNext a hResult e hError
    refine ⟨(bundle_after_ok hResult).trans hBundle, ?_⟩
    intro event hEvent
    rcases Pass.mem_events_bind hEvent with hEvent | ⟨a', hOk, hEvent⟩
    · exact hPrepared event hEvent
    · cases hResult.symm.trans hOk
      exact hEvents event hEvent

end BundlePass

section Passes

variable {schedule : Schedule} {engine : Engine} {options : Options} {safelist : Safelist} {root : Path}
  {bundle : Bundle}

theorem failsEarly_purgeAssets (hNames : bundle.HasDistinctNames) :
    (purgeAssets schedule engine options safelist root bundle).FailsEarly bundle := by
  unfold purgeAssets
  by_cases hEmpty : bundle.cssAssets.isEmpty = true
  · rw [if_pos hEmpty]
    exact .of_ok rfl
  · rw [if_neg hEmpty]
    apply BundlePass.FailsEarly.after (isEarly_readableSheets _)
    intro sheets hSheets
    obtain rfl : bundle.sheets = sheets :=
      Except.ok.inj ((result_readableSheets bundle.cssAssets).symm.trans hSheets)
    rcases purgeSheets_cases schedule engine options safelist root bundle bundle.sheets with
      ⟨-, hPass⟩ | ⟨e, -, -, hPass⟩ | ⟨workers, -, -, hPass⟩
    · rw [hPass]
      exact .of_ok rfl
    · rw [hPass]
      exact fun _ _ => ⟨rfl, fun event hEvent => absurd hEvent List.not_mem_nil⟩
    · rw [hPass]
      apply BundlePass.FailsEarly.after fun event hEvent => absurd hEvent List.not_mem_nil
      intro found _
      exact .of_ok (replaceSheets_eq hNames).2

theorem result_purgeSheet_eq_error {s : Sheet} :
    (∃ e, (purgeSheet engine options safelist root s).result = .error e) ↔
      ∃ e, (engine (.ofSheet options safelist root s.fileName s.text)).result = .error e := by
  unfold purgeSheet
  rw [Pass.result_bind]
  cases (engine (.ofSheet options safelist root s.fileName s.text)).result with
  | error e => exact ⟨fun _ => ⟨e, rfl⟩, fun _ => ⟨e, rfl⟩⟩
  | ok results =>
    constructor
    · rintro ⟨e, hError⟩
      cases hError
    · rintro ⟨e, hError⟩
      cases hError

/-- Tasks fail together just if one of them fails. -/
theorem result_gather_eq_error {runs : List (String × Pass Empty (Option PurgeResult))} :
    (∃ e, (gather runs).result = .error e) ↔ ∃ r ∈ runs, ∃ e, r.2.result = .error e := by
  constructor
  · rintro ⟨e, hError⟩
    obtain ⟨r, hr, hFails⟩ := exists_of_mapM_eq_error hError
    refine ⟨r, hr, ?_⟩
    cases hResult : r.2.result with
    | error e' => exact ⟨e', rfl⟩
    | ok result =>
      rw [hResult] at hFails
      cases hFails
  · rintro ⟨r, hr, e, hError⟩
    cases hGather : (gather runs).result with
    | error e' => exact ⟨e', rfl⟩
    | ok found =>
      obtain ⟨entry, -, hEntry⟩ := exists_of_mapM_eq_ok hGather hr
      rw [hError] at hEntry
      cases hEntry

/-- A pass over the style sheets of a bundle fails just if there is one that is a text, and less than no
workers are asked for or the engine fails for one of them. -/
theorem result_purgeAssets_eq_error (hNames : bundle.HasDistinctNames) :
    (∃ e, (purgeAssets schedule engine options safelist root bundle).pass.result = .error e) ↔
      ∃ s ∈ bundle.sheets, options.LacksWorkers ∨ ∃ e,
        (engine (.ofSheet options safelist root s.fileName s.text)).result = .error e := by
  have hSheets : (readableSheets bundle.cssAssets).result = .ok bundle.sheets :=
    result_readableSheets bundle.cssAssets
  unfold purgeAssets
  by_cases hEmpty : bundle.cssAssets.isEmpty = true
  · rw [if_pos hEmpty, Bundle.sheets, List.isEmpty_iff.mp hEmpty]
    constructor
    · rintro ⟨e, hError⟩
      cases hError
    · rintro ⟨s, hs, -⟩
      cases hs
  rw [if_neg hEmpty, BundlePass.result_after_ok hSheets]
  rcases purgeSheets_cases schedule engine options safelist root bundle bundle.sheets with
    ⟨hNone, hPass⟩ | ⟨e, hSome, hError, hPass⟩ | ⟨workers, hSome, hOk, hPass⟩
  · rw [hPass, hNone]
    constructor
    · rintro ⟨e, hError⟩
      cases hError
    · rintro ⟨s, hs, -⟩
      cases hs
  · obtain ⟨s, hs⟩ := List.exists_mem_of_ne_nil _ hSome
    have hLacks := (Options.workers_eq_error.mp hError).2
    rw [hPass]
    exact ⟨fun _ => ⟨s, hs, Or.inl hLacks⟩, fun _ => ⟨e, rfl⟩⟩
  · have hHas : ¬ options.LacksWorkers := fun hLacks => by
      rw [Options.workers_eq_error.mpr ⟨rfl, hLacks⟩] at hOk
      cases hOk
    simp only [hHas, false_or]
    have hPerm := schedule.perm workers bundle.sheets
    rw [hPass]
    generalize schedule.finished workers bundle.sheets = finished at hPerm ⊢
    have hRuns : (∃ e, (gather (finished.map fun s =>
          (s.fileName, purgeSheet engine options safelist root s))).result = .error e) ↔
        ∃ s ∈ bundle.sheets, ∃ e,
          (engine (.ofSheet options safelist root s.fileName s.text)).result = .error e := by
      rw [result_gather_eq_error]
      simp only [List.mem_map, exists_exists_and_eq_and, hPerm.mem_iff, result_purgeSheet_eq_error]
    rw [← hRuns]
    cases hGather : (gather (finished.map fun s =>
        (s.fileName, purgeSheet engine options safelist root s))).result with
    | error e =>
      have hFails : (BundlePass.after bundle (gather (finished.map fun s =>
        (s.fileName, purgeSheet engine options safelist root s))) fun found =>
          replaceSheets found bundle bundle.sheets).pass.result = .error e :=
        (BundlePass.after_error hGather).2
      exact ⟨fun _ => ⟨e, rfl⟩, fun _ => ⟨e, hFails⟩⟩
    | ok found =>
      rw [BundlePass.result_after_ok hGather, (replaceSheets_eq hNames).2]
      constructor
      · rintro ⟨e, hError⟩
        cases hError
      · rintro ⟨e, hError⟩
        cases hError

end Passes

namespace Plugin

variable {p : Plugin} {c : BuildContext} {schedule : Schedule} {bundle : Bundle}

theorem failsEarly_generate [Runtime] (hNames : bundle.HasDistinctNames) :
    (p.generate schedule c bundle).FailsEarly bundle := by
  unfold generate
  by_cases hActive : p.isActive = true
  · rw [if_pos hActive]
    exact .after isEarly_safelist fun _ _ => failsEarly_purgeAssets hNames
  · rw [if_neg hActive]
    exact .of_ok rfl

theorem result_safelist_eq_error [Runtime] {e : PassError} :
    (p.safelist c).result = .error e ↔ (p.discover c).result = .error e := by
  unfold Plugin.safelist
  rw [Pass.result_bind]
  cases (p.discover c).result with
  | error e' =>
    constructor
    · intro h
      cases h
      rfl
    · intro h
      cases h
      rfl
  | ok selectors =>
    constructor
    · intro h
      cases h
    · intro h
      cases h

/-- A module that is part of the output and no script lets the discovery fail. -/
theorem exists_error_of_reads [Runtime] {code : String} (hReads : p.Reads c code) {e : ScriptError}
    (hScript : scriptTexts c.parse code = .error e) : ∃ e, (p.discover c).result = .error e := by
  cases hDiscover : (p.discover c).result with
  | error e' => exact ⟨e', rfl⟩
  | ok selectors =>
    obtain ⟨candidates, hCandidates, -⟩ := Pass.result_bind_eq_ok.mp hDiscover
    obtain ⟨lists, hLists, -⟩ := Pass.result_bind_eq_ok.mp hCandidates
    obtain ⟨texts, hTexts⟩ := exists_texts_of_isLive hLists hReads
    cases hScript.symm.trans hTexts

/-- When a pass of the plugin fails. -/
theorem result_generate_eq_error [Runtime] (hNames : bundle.HasDistinctNames) :
    (∃ e, (p.generate schedule c bundle).pass.result = .error e) ↔
      p.isActive = true ∧ ((∃ e, (p.discover c).result = .error e) ∨
        ∃ selectors, (p.discover c).result = .ok selectors ∧ ∃ s ∈ bundle.sheets,
          p.options.LacksWorkers ∨ ∃ e,
            (p.engine (.ofSheet p.options (p.options.safelist.extended selectors) p.root s.fileName
              s.text)).result = .error e) := by
  by_cases hActive : p.isActive = true
  · rw [generate, if_pos hActive, and_iff_right hActive]
    cases hDiscover : (p.discover c).result with
    | error e =>
      have hFails := result_safelist_eq_error.mpr hDiscover
      exact ⟨fun _ => Or.inl ⟨e, rfl⟩, fun _ => ⟨e, (BundlePass.after_error hFails).2⟩⟩
    | ok selectors =>
      have hSafelist := result_safelist_eq_ok.mpr ⟨selectors, hDiscover, rfl⟩
      rw [BundlePass.result_after_ok hSafelist, result_purgeAssets_eq_error hNames]
      constructor
      · intro hFails
        exact Or.inr ⟨selectors, rfl, hFails⟩
      · rintro (⟨e, hError⟩ | ⟨selectors', hOk, hFails⟩)
        · cases hError
        · cases hOk
          exact hFails
  · rw [result_generate_inactive (Bool.eq_false_iff.mpr hActive)]
    constructor
    · rintro ⟨e, hError⟩
      cases hError
    · rintro ⟨h, -⟩
      exact absurd h hActive

/-- A pass of the plugin fails just if it acts and either the discovery fails, as it does for a module
of the output that is no script, or the engine fails for a style sheet that is a text, for which there
may also be no workers. Then the bundle is as it was, and no style sheet has been told to be purged or
to be without a result. -/
theorem generate_unchanged_of_error [Runtime] (hNames : bundle.HasDistinctNames) :
    ((∃ e, (p.generate schedule c bundle).pass.result = .error e) ↔
      p.isActive = true ∧ ((∃ e, (p.discover c).result = .error e) ∨
        ∃ selectors, (p.discover c).result = .ok selectors ∧ ∃ s ∈ bundle.sheets,
          p.options.LacksWorkers ∨ ∃ e,
            (p.engine (.ofSheet p.options (p.options.safelist.extended selectors) p.root s.fileName
              s.text)).result = .error e)) ∧
      (∀ code e, p.Reads c code → scriptTexts c.parse code = .error e →
        ∃ e, (p.discover c).result = .error e) ∧
      ∀ e, (p.generate schedule c bundle).pass.result = .error e →
        (p.generate schedule c bundle).bundle = bundle ∧
          ∀ event ∈ (p.generate schedule c bundle).pass.events,
            (∀ fileName rejected rejectedCss originalSize purgedSize,
              event ≠ .assetPurged fileName rejected rejectedCss originalSize purgedSize) ∧
            ∀ fileName, event ≠ .assetSkipped fileName "no result" := by
  refine ⟨result_generate_eq_error hNames, ?_, ?_⟩
  · intro code e hReads hScript
    exact exists_error_of_reads hReads hScript
  · intro e hError
    obtain ⟨hBundle, hEvents⟩ := failsEarly_generate hNames e hError
    refine ⟨hBundle, ?_⟩
    intro event hEvent
    have hEarly := hEvents event hEvent
    exact ⟨hEarly.ne_assetPurged, hEarly.ne_noResult⟩

/-- The engine fails for the second of three style sheets, of which it has finished the third before,
with no result. -/
theorem generate_unchanged_second_fails :
    let schedule : Schedule := ⟨fun _ sheets => sheets.reverse, fun _ sheets => sheets.reverse_perm⟩
    let engine : Engine := fun r =>
      match r.css with
      | [source] =>
        if source.name == some "b.css" then Pass.fail (.engine "boom")
        else if source.name == some "c.css" then pure []
        else pure [⟨"", source.name, [".x"], none⟩]
      | _ => pure []
    let bundle : Bundle :=
      ⟨[.asset { fileName := "a.css", source := .text "a" },
        .asset { fileName := "broken.css", source := .bytes [0xFF] },
        .asset { fileName := "b.css", source := .text "b" },
        .chunk ⟨"m.js", "run()"⟩,
        .asset { fileName := "c.css", source := .bytes [0x63] }]⟩
    let p : Plugin := { options := {}, engine := engine }
    let pass := p.generate schedule ⟨fun _ => none, parseScript⟩ bundle
    bundle.HasDistinctNames ∧ pass.pass.result = .error (.engine "boom") ∧ pass.bundle = bundle ∧
      .assetSkipped "c.css" "no result" ∉ pass.pass.events := by
  intro schedule engine bundle p pass
  have hNames : bundle.HasDistinctNames := by
    unfold Bundle.HasDistinctNames
    decide
  have hFails : pass.pass.result = .error (.engine "boom") := by
    decide +kernel
  obtain ⟨-, -, hUnchanged⟩ := generate_unchanged_of_error hNames
  obtain ⟨hBundle, hEvents⟩ := hUnchanged (.engine "boom") hFails
  refine ⟨hNames, hFails, hBundle, ?_⟩
  intro hTold
  exact (hEvents _ hTold).2 "c.css" rfl

end Plugin

end StyleSieve
