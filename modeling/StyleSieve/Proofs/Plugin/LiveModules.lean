import StyleSieve.Proofs.Plugin.Discovery

/-!
# Live modules

What is found in the modules of a build depends on those only that are known, part of the output
and have a code. The first of them that is no script decides about a failure; without one, the
tokens are those of each of them together.

* `result_collectCandidates_eq_error`: the failure, by the first live module that is no script.
* `candidates_of_live`: the tokens are those of the live modules.
* `result_collectCandidates_of_live`: other modules make no difference, nor do order and repetition.
-/

namespace StyleSieve

variable {ε : Type} {extract : String → List String} {parse : ScriptParser}
  {modules others : List (Option Module)}

theorem Module.liveCode?_eq_some_iff {m : Module} {code : String} :
    m.liveCode? = some code ↔ m.isIncluded = true ∧ m.code = some code := by
  unfold liveCode?
  cases m.isIncluded <;> simp

/-- Whether an entry of a list of modules is to be read: it is known, it is part of the output and
so is its code. -/
def isLiveEntry (entry : Option Module) : Bool := (readModule? entry).isSome

theorem liveModules_filter_isLiveEntry :
    liveModules (modules.filter isLiveEntry) = liveModules modules := by
  unfold liveModules
  rw [List.filterMap_filter]
  refine List.filterMap_congr fun entry _ => ?_
  cases hEntry : readModule? entry <;> simp [isLiveEntry, hEntry]

/-- A live module, the entries in front of it and those behind it. -/
theorem exists_entries_of_liveModules {before after : List (Module × String)} {m : Module}
    {code : String} (h : liveModules modules = before ++ (m, code) :: after) :
    ∃ front behind, modules = front ++ some m :: behind ∧ m.liveCode? = some code ∧
      liveModules front = before := by
  obtain ⟨front, rest, rfl, hFront, hRest⟩ := List.filterMap_eq_append_iff.mp h
  obtain ⟨skipped, entry, behind, rfl, hSkipped, hEntry, -⟩ := List.filterMap_eq_cons_iff.mp hRest
  obtain ⟨rfl, hCode⟩ := readModule?_eq_some_iff.mp hEntry
  refine ⟨front ++ skipped, behind, by simp, hCode, ?_⟩
  unfold liveModules
  rw [List.filterMap_append, List.filterMap_eq_nil_iff.mpr hSkipped, List.append_nil]
  exact hFront

/-- A module can be scanned just if it is a script. -/
theorem exists_scanModule_iff {id code : String} :
    (∃ own, (scanModule extract parse id code).mapError PassError.unreadableModule = .ok own) ↔
      ∃ tree, parse code = .ok tree := by
  cases hParse : parse code <;>
    simp [mapError_eq_ok_iff, scanModule, scriptTexts, hParse, Except.map]

theorem result_collectCandidates :
    (collectCandidates extract parse modules : Pass ε _).result =
      ((liveModules modules).mapM fun s =>
        (scanModule extract parse s.1.id s.2).mapError PassError.unreadableModule).map
          fun lists => dedup lists.flatten := by
  unfold collectCandidates
  rw [Pass.result_bind, result_scanModules]
  cases (liveModules modules).mapM fun s =>
    (scanModule extract parse s.1.id s.2).mapError PassError.unreadableModule <;> rfl

/-- The candidates fail to be collected just if a live module is no script, and then because of the
first of them. -/
theorem result_collectCandidates_eq_error {error : PassError} :
    (collectCandidates extract parse modules : Pass ε _).result = .error error ↔
      ∃ before m code after cause, liveModules modules = before ++ (m, code) :: after ∧
        (∀ s ∈ before, ∃ tree, parse s.2 = .ok tree) ∧ parse code = .error cause ∧
        error = .unreadableModule (cause.inModule m.id) := by
  rw [result_collectCandidates, map_eq_error_iff, mapM_eq_error_iff]
  simp only [exists_scanModule_iff, mapError_eq_error_iff, scanModule_eq_error_iff]
  constructor
  · rintro ⟨before, ⟨m, code⟩, after, hParts, hBefore, -, ⟨cause, hCause, rfl⟩, rfl⟩
    exact ⟨before, m, code, after, cause, hParts, hBefore, hCause, rfl⟩
  · rintro ⟨before, m, code, after, cause, hParts, hBefore, hCause, rfl⟩
    exact ⟨before, (m, code), after, hParts, hBefore, _, ⟨cause, hCause, rfl⟩, rfl⟩

theorem exists_candidates_iff :
    (∃ tokens, (collectCandidates extract parse modules : Pass ε _).result = .ok tokens) ↔
      ∀ s ∈ liveModules modules, ∃ tree, parse s.2 = .ok tree := by
  constructor
  · rintro ⟨tokens, hTokens⟩ s hs
    rw [result_collectCandidates] at hTokens
    obtain ⟨lists, hLists, -⟩ := map_eq_ok_iff.mp hTokens
    obtain ⟨own, -, hScan⟩ := exists_of_mapM_eq_ok hLists hs
    exact exists_scanModule_iff.mp ⟨own, hScan⟩
  · intro hScripts
    obtain ⟨lists, hLists⟩ := exists_mapM_eq_ok fun s hs => exists_scanModule_iff.mpr (hScripts s hs)
    rw [result_collectCandidates, hLists]
    exact ⟨_, rfl⟩

/-- The candidates are the tokens of the live modules, each once. -/
theorem candidates_of_live {tokens : List String}
    (h : (collectCandidates extract parse modules : Pass ε _).result = .ok tokens) :
    tokens.Nodup ∧ ∀ token, token ∈ tokens ↔ ∃ m code own, some m ∈ modules ∧
      m.liveCode? = some code ∧ scanModule extract parse m.id code = .ok own ∧ token ∈ own := by
  rw [result_collectCandidates] at h
  obtain ⟨lists, hLists, rfl⟩ := map_eq_ok_iff.mp h
  refine ⟨nodup_dedup _, fun token => ?_⟩
  rw [mem_dedup, List.mem_flatten]
  constructor
  · rintro ⟨own, hOwn, hToken⟩
    obtain ⟨⟨m, code⟩, hLive, hScan⟩ := (mem_mapM_iff hLists).mp hOwn
    obtain ⟨hEntry, hCode⟩ := mem_liveModules.mp hLive
    exact ⟨m, code, own, hEntry, hCode, mapError_eq_ok_iff.mp hScan, hToken⟩
  · rintro ⟨m, code, own, hEntry, hCode, hScan, hToken⟩
    have hLive := mem_liveModules.mpr ⟨hEntry, hCode⟩
    exact ⟨own, (mem_mapM_iff hLists).mpr ⟨(m, code), hLive, mapError_eq_ok_iff.mpr hScan⟩, hToken⟩

/-- Lists with the same live entries, in whatever order and however often, have the same
candidates. -/
theorem candidates_perm (hSame : ∀ entry, entry ∈ others ↔ entry ∈ modules) {tokens : List String}
    (h : (collectCandidates extract parse modules : Pass ε _).result = .ok tokens) :
    ∃ same, (collectCandidates extract parse others : Pass ε _).result = .ok same ∧
      same.Perm tokens := by
  have hScripts := exists_candidates_iff.mp ⟨tokens, h⟩
  have hLive : ∀ s, s ∈ liveModules others ↔ s ∈ liveModules modules := by
    rintro ⟨m, code⟩
    rw [mem_liveModules, mem_liveModules, hSame]
  have hOthers : ∃ same, (collectCandidates extract parse others : Pass ε _).result = .ok same :=
    exists_candidates_iff.mpr fun s hs => hScripts s ((hLive s).mp hs)
  obtain ⟨same, hResult⟩ := hOthers
  obtain ⟨hNodup, hMem⟩ := candidates_of_live h
  obtain ⟨hNodup', hMem'⟩ := candidates_of_live hResult
  refine ⟨same, hResult, (List.perm_ext_iff_of_nodup hNodup' hNodup).mpr fun token => ?_⟩
  rw [hMem, hMem']
  simp only [hSame]

theorem exists_collectCandidates_eq_error_iff :
    (∃ error, (collectCandidates extract parse modules : Pass ε _).result = .error error) ↔
      ∃ m code cause, some m ∈ modules ∧ m.isIncluded = true ∧ m.code = some code ∧
        parse code = .error cause := by
  constructor
  · rintro ⟨error, hError⟩
    obtain ⟨before, m, code, after, cause, hParts, -, hCause, -⟩ :=
      result_collectCandidates_eq_error.mp hError
    have hLive : (m, code) ∈ liveModules modules :=
      hParts ▸ List.mem_append_right _ List.mem_cons_self
    obtain ⟨hEntry, hCode⟩ := mem_liveModules.mp hLive
    obtain ⟨hIncluded, hCode⟩ := Module.liveCode?_eq_some_iff.mp hCode
    exact ⟨m, code, cause, hEntry, hIncluded, hCode, hCause⟩
  · rintro ⟨m, code, cause, hEntry, hIncluded, hCode, hCause⟩
    have hLive := mem_liveModules.mpr ⟨hEntry, Module.liveCode?_eq_some_iff.mpr ⟨hIncluded, hCode⟩⟩
    cases hResult : (collectCandidates extract parse modules : Pass ε _).result with
    | error error => exact ⟨error, rfl⟩
    | ok tokens =>
      obtain ⟨tree, hTree⟩ := exists_candidates_iff.mp ⟨tokens, hResult⟩ (m, code) hLive
      cases hTree.symm.trans hCause

/-- A failure is that of the first live module that is no script, and the live ones in front of it are
scripts. -/
theorem exists_entries_of_collectCandidates {error : PassError}
    (h : (collectCandidates extract parse modules : Pass ε _).result = .error error) :
    ∃ before m after code cause, modules = before ++ some m :: after ∧ m.isIncluded = true ∧
      m.code = some code ∧ parse code = .error cause ∧
      (∀ n other, some n ∈ before → n.isIncluded = true → n.code = some other →
        ∃ tree, parse other = .ok tree) ∧ error = .unreadableModule (cause.inModule m.id) := by
  obtain ⟨live, m, code, rest, cause, hParts, hLive, hCause, rfl⟩ :=
    result_collectCandidates_eq_error.mp h
  obtain ⟨before, after, hModules, hCode, hBefore⟩ := exists_entries_of_liveModules hParts
  obtain ⟨hIncluded, hCode⟩ := Module.liveCode?_eq_some_iff.mp hCode
  refine ⟨before, m, after, code, cause, hModules, hIncluded, hCode, hCause, ?_, rfl⟩
  intro n other hEntry hIncluded hCode
  have hOther := mem_liveModules.mpr ⟨hEntry, Module.liveCode?_eq_some_iff.mpr ⟨hIncluded, hCode⟩⟩
  exact hLive (n, other) (hBefore ▸ hOther)

/-- Candidates fail to be collected just if some module that is part of the output and has a code is
no script. The error then names the first such module in the list, and the place that its parser
tells. Otherwise the candidates are the tokens of each of these modules together. So the result is
the same for lists that have the same entries of this kind in the same order, whatever else is in
them, and the same up to order for lists with the same entries. -/
theorem result_collectCandidates_of_live (extract : String → List String) (parse : ScriptParser)
    (modules : List (Option Module)) :
    let result (entries : List (Option Module)) :=
      (collectCandidates extract parse entries : Pass ε _).result
    ((∃ error, result modules = .error error) ↔ ∃ m code cause, some m ∈ modules ∧
      m.isIncluded = true ∧ m.code = some code ∧ parse code = .error cause) ∧
    (∀ error, result modules = .error error → ∃ before m after code cause,
      modules = before ++ some m :: after ∧ m.isIncluded = true ∧ m.code = some code ∧
      parse code = .error cause ∧
      (∀ n other, some n ∈ before → n.isIncluded = true → n.code = some other →
        ∃ tree, parse other = .ok tree) ∧
      error = .unreadableModule
        ⟨"Failed to parse module " ++ m.id ++ cause.place ++ ": " ++ cause.message, some m.id,
          cause.line?, cause.column?⟩) ∧
    (∀ tokens, result modules = .ok tokens → tokens.Nodup ∧ ∀ token, token ∈ tokens ↔
      ∃ m code own, some m ∈ modules ∧ m.isIncluded = true ∧ m.code = some code ∧
        scanModule extract parse m.id code = .ok own ∧ token ∈ own) ∧
    (∀ others, others.filter isLiveEntry = modules.filter isLiveEntry →
      result others = result modules) ∧
    (∀ others tokens, (∀ entry, entry ∈ others ↔ entry ∈ modules) → result modules = .ok tokens →
      ∃ same, result others = .ok same ∧ same.Perm tokens) := by
  intro result
  refine ⟨exists_collectCandidates_eq_error_iff,
    fun error hError => exists_entries_of_collectCandidates hError, ?_, ?_,
    fun others tokens hSame hTokens => candidates_perm hSame hTokens⟩
  · intro tokens hTokens
    obtain ⟨hNodup, hMem⟩ := candidates_of_live hTokens
    refine ⟨hNodup, fun token => ?_⟩
    rw [hMem]
    simp only [Module.liveCode?_eq_some_iff, and_assoc]
  · intro others hSame
    have hLive : liveModules others = liveModules modules := by
      rw [← liveModules_filter_isLiveEntry, hSame, liveModules_filter_isLiveEntry]
    show (collectCandidates extract parse others : Pass ε _).result =
      (collectCandidates extract parse modules : Pass ε _).result
    rw [result_collectCandidates, result_collectCandidates, hLive]

end StyleSieve
