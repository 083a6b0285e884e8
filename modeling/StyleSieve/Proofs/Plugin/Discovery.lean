import StyleSieve.Plugin
import StyleSieve.Proofs.Extractor.Tokens
import StyleSieve.Proofs.Pass.Result

/-!
# Discovered selectors

* `mem_collectCandidates`: the candidates are the tokens in the texts of the live modules.
* `mem_discover`: the discovered selectors are the admissible ones among them.
* `discover_mono`: a plugin that reads more live code discovers no fewer selectors.
-/

namespace StyleSieve

/-! ## Modules -/

section Modules

variable {ε : Type} {extract : String → List String} {parse : ScriptParser}
  {modules : List (Option Module)}

theorem scanModule_eq_ok_iff {id code : String} {tokens : List String} :
    scanModule extract parse id code = .ok tokens ↔
      ∃ texts, scriptTexts parse code = .ok texts ∧ tokens = dedup (texts.flatMap extract) := by
  unfold scanModule
  cases scriptTexts parse code with
  | ok texts => simp [eq_comm]
  | error e => simp

theorem scanModule_eq_error_iff {id code : String} {e : ModuleError} :
    scanModule extract parse id code = .error e ↔
      ∃ cause, parse code = .error cause ∧ e = cause.inModule id := by
  unfold scanModule scriptTexts
  cases parse code with
  | ok tree => simp [Except.map]
  | error cause => simp [Except.map, eq_comm]

theorem mem_scanModule {id code : String} {tokens : List String}
    (h : scanModule extract parse id code = .ok tokens) {token : String} :
    token ∈ tokens ↔
      ∃ texts, scriptTexts parse code = .ok texts ∧ ∃ text ∈ texts, token ∈ extract text := by
  obtain ⟨texts, hTexts, rfl⟩ := scanModule_eq_ok_iff.mp h
  rw [mem_dedup, List.mem_flatMap, hTexts]
  simp

/-- What is to be read of an entry: the module, if it is known and live, with its code. -/
def readModule? (entry : Option Module) : Option (Module × String) :=
  entry.bind fun m => m.liveCode?.map (m, ·)

theorem readModule?_eq_some_iff {entry : Option Module} {m : Module} {code : String} :
    readModule? entry = some (m, code) ↔ entry = some m ∧ m.liveCode? = some code := by
  cases entry with
  | none => simp [readModule?]
  | some m' =>
    simp only [readModule?, Option.bind_some, Option.map_eq_some_iff, Prod.mk.injEq,
      Option.some.injEq]
    constructor
    · rintro ⟨code', hCode, rfl, rfl⟩
      exact ⟨rfl, hCode⟩
    · rintro ⟨rfl, hCode⟩
      exact ⟨code, hCode, rfl, rfl⟩

/-- The modules of a list that are to be read, each with its code, in order. -/
def liveModules (modules : List (Option Module)) : List (Module × String) :=
  modules.filterMap readModule?

theorem mem_liveModules {m : Module} {code : String} :
    (m, code) ∈ liveModules modules ↔ some m ∈ modules ∧ m.liveCode? = some code := by
  simp [liveModules, readModule?_eq_some_iff]

/-- Reading modules is a traversal of those that are live. -/
theorem result_scanModules :
    (scanModules extract parse modules : Pass ε _).result =
      (liveModules modules).mapM fun s =>
        (scanModule extract parse s.1.id s.2).mapError .unreadableModule := by
  induction modules with
  | nil => rfl
  | cons entry rest ih =>
    cases entry with
    | none => exact ih
    | some m =>
      rw [scanModules]
      cases hCode : m.liveCode? with
      | none =>
        rw [Pass.result_bind_unit (by simp), ih]
        simp [liveModules, readModule?, hCode]
      | some code =>
        have hLive : liveModules (some m :: rest) = (m, code) :: liveModules rest := by
          simp [liveModules, readModule?, hCode]
        rw [hLive, List.mapM_cons, ← ih]
        dsimp only
        cases scanModule extract parse m.id code with
        | error e => rfl
        | ok tokens => exact Pass.result_bind ..

/-- The code of a module that is asked for and to be read. -/
def IsLive (modules : List (Option Module)) (code : String) : Prop :=
  ∃ m, some m ∈ modules ∧ m.liveCode? = some code

theorem mem_scanModules {lists : List (List String)}
    (h : (scanModules extract parse modules : Pass ε _).result = .ok lists) {token : String} :
    (∃ list ∈ lists, token ∈ list) ↔
      ∃ code, IsLive modules code ∧ ∃ texts, scriptTexts parse code = .ok texts ∧
        ∃ text ∈ texts, token ∈ extract text := by
  rw [result_scanModules] at h
  constructor
  · rintro ⟨list, hList, hToken⟩
    obtain ⟨⟨m, code⟩, hLive, hScan⟩ := (mem_mapM_iff h).mp hList
    exact ⟨code, ⟨m, mem_liveModules.mp hLive⟩, (mem_scanModule (mapError_eq_ok_iff.mp hScan)).mp hToken⟩
  · rintro ⟨code, ⟨m, hLive⟩, hToken⟩
    obtain ⟨list, hList, hScan⟩ := exists_of_mapM_eq_ok h (mem_liveModules.mpr hLive)
    exact ⟨list, hList, (mem_scanModule (mapError_eq_ok_iff.mp hScan)).mpr hToken⟩

theorem mem_collectCandidates {tokens : List String}
    (h : (collectCandidates extract parse modules : Pass ε _).result = .ok tokens)
    {token : String} :
    token ∈ tokens ↔ ∃ code, IsLive modules code ∧ ∃ texts, scriptTexts parse code = .ok texts ∧
      ∃ text ∈ texts, token ∈ extract text := by
  unfold collectCandidates at h
  obtain ⟨lists, hLists, h⟩ := Pass.result_bind_eq_ok.mp h
  cases Except.ok.inj h
  rw [mem_dedup, List.mem_flatten, mem_scanModules hLists]

end Modules

/-! ## Admission -/

theorem Selector.mem_admitted [Runtime] {tokens selectors : List String}
    (h : Selector.admitted tokens = .ok selectors) {token : String} :
    token ∈ selectors ↔ token ∈ tokens ∧ Selector.isAdmissible token = .ok true := by
  unfold Selector.admitted at h
  obtain ⟨kept, hKept, h⟩ := bind_eq_ok_iff.mp h
  cases Except.ok.inj h
  rw [List.mem_mergeSort, mem_filterM_iff hKept, mem_dedup]

/-! ## The plugin -/

namespace Plugin

variable {p q : Plugin} {c d : BuildContext}

/-- The plugin reads the code: it is that of a tracked module that is part of the output. -/
def Reads (p : Plugin) (c : BuildContext) (code : String) : Prop :=
  IsLive (p.moduleIds.map c.module?) code

theorem mem_discover [Runtime] {selectors : List String} (h : (p.discover c).result = .ok selectors)
    {token : String} :
    token ∈ selectors ↔ Selector.isAdmissible token = .ok true ∧
      ∃ code, p.Reads c code ∧ ∃ texts, scriptTexts c.parse code = .ok texts ∧
        ∃ text ∈ texts, token ∈ p.extractor text := by
  unfold discover at h
  obtain ⟨candidates, hCandidates, h⟩ := Pass.result_bind_eq_ok.mp h
  rw [Pass.result_bind_unit (by simp), Pass.result_bind_eq_ok] at h
  obtain ⟨admitted, hAdmitted, h⟩ := h
  cases Except.ok.inj h
  rw [Pass.result_ofExcept] at hAdmitted
  cases hSelectors : Selector.admitted candidates with
  | error e =>
    rw [hSelectors] at hAdmitted
    cases hAdmitted
  | ok selectors =>
    rw [hSelectors] at hAdmitted
    cases Except.ok.inj hAdmitted
    rw [Selector.mem_admitted hSelectors, mem_collectCandidates hCandidates, and_comm]
    rfl

theorem discover_mono [Runtime] (hExtractor : q.extractor = p.extractor) (hParse : d.parse = c.parse)
    (hReads : ∀ code, p.Reads c code → q.Reads d code) {xs ys : List String}
    (hXs : (p.discover c).result = .ok xs) (hYs : (q.discover d).result = .ok ys) : xs ⊆ ys := by
  intro token hToken
  obtain ⟨hAdmissible, code, hCode, hFound⟩ := (mem_discover hXs).mp hToken
  refine (mem_discover hYs).mpr ⟨hAdmissible, code, hReads code hCode, ?_⟩
  rw [hExtractor, hParse]
  exact hFound

theorem result_safelist_eq_ok [Runtime] {safelist : Safelist} :
    (p.safelist c).result = .ok safelist ↔
      ∃ selectors, (p.discover c).result = .ok selectors ∧
        safelist = p.options.safelist.extended selectors := by
  unfold Plugin.safelist
  rw [Pass.result_bind_eq_ok]
  constructor
  · rintro ⟨selectors, hSelectors, h⟩
    exact ⟨selectors, hSelectors, (Except.ok.inj h).symm⟩
  · rintro ⟨selectors, hSelectors, rfl⟩
    exact ⟨selectors, hSelectors, rfl⟩

theorem result_generate_inactive [Runtime] {schedule : Schedule} {bundle : Bundle}
    (h : p.isActive = false) : (p.generate schedule c bundle).pass.result = .ok [] := by
  unfold generate
  rw [h]
  rfl

theorem result_generate_active [Runtime] {schedule : Schedule} {bundle : Bundle} (h : p.isActive = true)
    {results : PurgeResults} :
    (p.generate schedule c bundle).pass.result = .ok results ↔
      ∃ selectors, (p.discover c).result = .ok selectors ∧
        (purgeAssets schedule p.engine p.options (p.options.safelist.extended selectors) p.root
          bundle).pass.result = .ok results := by
  unfold generate BundlePass.after
  rw [if_pos h, Pass.result_bind_eq_ok]
  constructor
  · rintro ⟨safelist, hSafelist, h⟩
    obtain ⟨selectors, hSelectors, rfl⟩ := result_safelist_eq_ok.mp hSafelist
    exact ⟨selectors, hSelectors, h⟩
  · rintro ⟨selectors, hSelectors, h⟩
    exact ⟨_, result_safelist_eq_ok.mpr ⟨selectors, hSelectors, rfl⟩, h⟩

end Plugin

end StyleSieve
