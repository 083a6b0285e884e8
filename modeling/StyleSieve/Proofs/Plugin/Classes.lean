import StyleSieve.Proofs.Plugin.Evidence
import StyleSieve.Proofs.Selector.Scan
import StyleSieve.Proofs.Selector.Spelling
import StyleSieve.Proofs.Stylesheet.Trim
import StyleSieve.Proofs.Usage.Document

/-!
# Classes that the code names

* `parse_class`: the text that a style sheet writes for a class is read as that class, or it
  cannot be read at all.
* `notMem_rejected_of_mem_discover`: no class is removed whose name is a discovered selector.
* `mem_rejected_of_half`: the one escape for which that name is not the one it stands for.
-/

namespace StyleSieve

/-! ## The text of a class -/

namespace Selector

open Text
open Css (writtenName)

variable {name cs taken after : List Char}

theorem scan_class_of_readName (h : readName cs = some (taken, after)) :
    Token.scan true ('.' :: cs) = .hasClass taken :: Token.scan false after := by
  have hWhole := append_of_readName h
  rw [← hWhole] at h ⊢
  exact Token.scan_takes (.hasClass h)

theorem scan_class_of_readName_none (h : readName cs = none) :
    Token.scan true ('.' :: cs) = [.stray true] := by
  refine Token.scan_of_next_none ?_
  rw [Token.next_simple (by decide)]
  simp [Token.nextSimple, h]

/-- A class cannot be read if no selector admits its name. -/
theorem gather_class_of_not_isWritable (h : ∃ c ∈ name, isWritable c = false)
    (complexes : List ComplexSelector) :
    gather [] [] [] (Token.scan true ('.' :: writtenName name)) ≠ .ok complexes := by
  intro hGather
  obtain ⟨taken, c, after, hc, hSplit⟩ := stops_writtenName h
  have hSplit := hSplit []
  simp only [List.append_nil] at hSplit
  cases hRead : readName (writtenName name) with
  | none =>
    rw [scan_class_of_readName_none hRead] at hGather
    cases hGather
  | some r =>
    obtain ⟨first, left⟩ := r
    have hLeft : (first, left) = (taken, c :: after) := (readName_iff.mp hRead).2.symm.trans hSplit
    cases hLeft
    have hNext := Token.next_beyond (toNat_of_not_isWritable hc) after
    rw [scan_class_of_readName hRead, Token.scan_of_next_none hNext] at hGather
    cases hGather

/-- The text of a class is read as that class, or it cannot be read at all. -/
theorem parse_class (hStop : ∀ c ∈ name.getLast?, isBlank c = false)
    {complexes : List ComplexSelector}
    (h : parse (trim (String.ofList ('.' :: writtenName name))) = .ok complexes) :
    complexes = [[.hasClass (String.ofList name)]] := by
  have hTrimmed : trimChars ('.' :: writtenName name) = '.' :: trimEndChars (writtenName name) := by
    rw [trimChars, trimStartChars_of_start (by simp; decide)]
    have hDot : ∃ c ∈ ['.'].getLast?, isBlank c = false := ⟨'.', rfl, by decide⟩
    exact trimEndChars_append hDot (writtenName name)
  have hGather : gather [] [] [] (Token.scan true ('.' :: trimEndChars (writtenName name))) =
      .ok complexes := by
    unfold parse trim at h
    rw [String.toList_ofList, hTrimmed, if_neg (by simp), String.toList_ofList] at h
    exact h
  by_cases hWritable : ∀ c ∈ name, isWritable c = true
  · by_cases hName : name = []
    · subst hName
      rw [scan_class_of_readName_none (by rfl)] at hGather
      cases hGather
    · obtain ⟨hRead, hValue⟩ := readName_trimmed hName hWritable hStop
      rw [scan_class_of_readName hRead, Token.scan_nil, gather, gather.text, hValue] at hGather
      exact (Except.ok.inj hGather).symm
  · have hWild : ∃ c ∈ name, isWritable c = false := by simpa using hWritable
    have hLast : (writtenName name).getLast? = name.getLast? := by
      refine (getLast?_writtenName hStop).resolve_right ?_
      rintro ⟨d, hDigit, hName⟩
      have hPart : isWritable d = true := isWritable_of_isNamePart (by simp [isNamePart, hDigit])
      have hHyphen : isWritable '-' = true := by decide
      rcases hName with rfl | rfl <;> simp [hPart, hHyphen] at hWild
    have hWhole : trimEndChars (writtenName name) = writtenName name :=
      trimEndChars_of_stop fun c hc => hStop c (by rwa [Option.mem_def, ← hLast])
    rw [hWhole] at hGather
    exact absurd hGather (gather_class_of_not_isWritable hWild complexes)

end Selector

/-! ## Classes in selector lists -/

namespace Css

/-- Components that are blanks. -/
def AreBlanks (cs : List Component) : Prop :=
  ∀ c ∈ cs, ∃ line text, c = .lexeme line (.blank text) ∧ text.all isBlank = true

/-- A part of a selector list that consists of a dot and one identifier with the given value,
apart from blanks around them. -/
def IsClass (name : List Char) (part : List Component) : Prop :=
  ∃ before dot line behind, AreBlanks before ∧ AreBlanks behind ∧
    part = before ++ .lexeme dot (.sign ['.']) :: .lexeme line (.name name) :: behind

theorem writtenAfter_areBlanks {cs : List Component} (h : AreBlanks cs) {before : Option Edge}
    (hBefore : before ≠ some (.sign ['\\'])) :
    (∀ c ∈ writtenAfter before cs, Text.isBlank c = true) ∧
      lastEdge before cs ∈ [before, some .other] := by
  induction cs generalizing before with
  | nil => exact ⟨nofun, List.mem_cons_self⟩
  | cons c rest ih =>
    obtain ⟨line, text, rfl, hText⟩ := h c List.mem_cons_self
    have hGap : gapText before (.lexeme line (.blank text)) = [] := by
      cases before with
      | none => rfl
      | some edge => exact gapText_eq_nil (runsInto_other edge) (by simpa using hBefore)
    have hOther : some Edge.other ≠ some (.sign ['\\']) := by decide
    obtain ⟨hRest, hEdge⟩ := ih (fun d hd => h d (List.mem_cons_of_mem _ hd)) hOther
    refine ⟨?_, ?_⟩
    · intro d hd
      rw [writtenAfter, hGap, List.nil_append] at hd
      rcases List.mem_append.mp hd with hd | hd
      · exact Stylesheet.isBlank_text (List.all_eq_true.mp hText d hd)
      · exact hRest d hd
    · simp only [List.mem_cons, List.not_mem_nil, or_false, or_self] at hEdge
      rw [lastEdge]
      exact List.mem_cons_of_mem _ (List.mem_singleton.mpr hEdge)

/-- The text of a class, whatever blanks stand around it. -/
theorem trim_written_of_isClass {name : List Char} {part : List Component} (h : IsClass name part) :
    Text.trim (written part) = Text.trim (String.ofList ('.' :: writtenName name)) := by
  obtain ⟨before, dot, line, behind, hBefore, hBehind, rfl⟩ := h
  have hNone : none ≠ some (Edge.sign ['\\']) := by decide
  have hName : some Edge.name ≠ some (.sign ['\\']) := by decide
  obtain ⟨hBlanks, hEdge⟩ := writtenAfter_areBlanks hBefore hNone
  obtain ⟨hBlanks', -⟩ := writtenAfter_areBlanks hBehind hName
  have hStart : writtenAfter (lastEdge none before)
      (.lexeme dot (.sign ['.']) :: .lexeme line (.name name) :: behind) =
        ('.' :: writtenName name) ++ writtenAfter (some .name) behind := by
    have hNone : writtenAfter none
        (.lexeme dot (.sign ['.']) :: .lexeme line (.name name) :: behind) =
          ('.' :: writtenName name) ++ writtenAfter (some .name) behind := rfl
    simp only [List.mem_cons, List.not_mem_nil, or_false] at hEdge
    rcases hEdge with hEdge | hEdge
    · rw [hEdge, hNone]
    · rw [hEdge, writtenAfter_blank, hNone]
  unfold Text.trim written Text.trimChars
  rw [String.toList_ofList, String.toList_ofList, writtenAfter_append, hStart,
    Text.trimStartChars_append hBlanks, Text.trimStartChars_of_start (by simp; decide),
    Text.trimEndChars_blanks hBlanks', Text.trimStartChars_of_start (by simp; decide)]

end Css

/-! ## Results of a pass -/

theorem exists_run_of_resultFor {runs : List (String × Pass Empty (Option PurgeResult))}
    {found : List (String × Option PurgeResult)} (h : (gather runs).result = .ok found)
    {name : String} {r : PurgeResult} (hFound : resultFor found name = some r) :
    ∃ run, (name, run) ∈ runs ∧ run.result = .ok (some r) := by
  obtain ⟨⟨file, outcome⟩, hFind, hOutcome⟩ := Option.bind_eq_some_iff.mp hFound
  have hName : file = name := by simpa using List.find?_some hFind
  obtain ⟨⟨key, run⟩, hEntry, hStep⟩ := (mem_mapM_iff h).mp (List.mem_of_find?_eq_some hFind)
  dsimp only at hStep hOutcome
  cases hRun : run.result with
  | error e =>
    rw [hRun] at hStep
    cases hStep
  | ok o =>
    rw [hRun] at hStep
    cases Except.ok.inj hStep
    subst hName hOutcome
    exact ⟨run, hEntry, hRun⟩

section Pass

variable {schedule : Schedule} {engine : Engine} {options : Options} {safelist : Safelist}
  {root : Path} {bundle : Bundle} {results : PurgeResults}

/-- Every result of a pass over a bundle is what the engine has for some style sheet. -/
theorem exists_purgeSheet_of_mem_results
    (h : (purgeAssets schedule engine options safelist root bundle).pass.result = .ok results)
    {file : String} {r : PurgeResult} (hResult : (file, r) ∈ results) :
    ∃ s : Sheet, (purgeSheet engine options safelist root s).result = .ok (some r) := by
  unfold purgeAssets at h
  split at h
  · cases Except.ok.inj h
    cases hResult
  · unfold BundlePass.after at h
    obtain ⟨sheets, -, h⟩ := Pass.result_bind_eq_ok.mp h
    rcases purgeSheets_cases schedule engine options safelist root bundle sheets with
      ⟨-, hPass⟩ | ⟨e, -, -, hPass⟩ | ⟨workers, -, -, hPass⟩
    · rw [hPass] at h
      cases Except.ok.inj h
      cases hResult
    · rw [hPass] at h
      cases h
    · rw [hPass] at h
      obtain ⟨found, hFound, h⟩ := Pass.result_bind_eq_ok.mp h
      rw [results_replaceSheets h] at hResult
      obtain ⟨s, -, hOutcome⟩ := List.mem_filterMap.mp hResult
      obtain ⟨r', hRun, hPair⟩ := Option.map_eq_some_iff.mp hOutcome
      cases hPair
      obtain ⟨run, hMem, hRun⟩ := exists_run_of_resultFor hFound hRun
      obtain ⟨t, -, hPair⟩ := List.mem_map.mp hMem
      rw [Prod.mk.injEq] at hPair
      exact ⟨t, hPair.2 ▸ hRun⟩

/-- What the engine removes from a style sheet is not kept, by some tokens of the content. -/
theorem not_keeps_of_mem_rejected [Surrogates] {tree : FileTree} {s : Sheet} {r : PurgeResult}
    (h : (purgeSheet (purgeEngine tree) options safelist root s).result = .ok (some r))
    {selector : String} (hRejected : selector ∈ r.rejected) :
    ∃ tokens, Usage.keeps ⟨tokens, safelist, options.blocklist⟩ selector = false := by
  cases hBlank : s.source.isBlank with
  | true =>
    have hNone := purgeSheet_blank hBlank h
    cases hNone
  | false =>
    obtain ⟨tokens, -, hOutcome⟩ := purgeSheet_of_not_blank hBlank h
    cases hOutcome
    refine ⟨tokens, ?_⟩
    have hSelectors : selector ∈ (s.source.purged ⟨tokens, safelist, options.blocklist⟩).selectors :=
      hRejected
    rw [CssSource.purged, Node.selectors_purgeAll] at hSelectors
    simpa using (List.mem_filter.mp hSelectors).2

end Pass

/-! ## Discovered classes -/

theorem keeps_of_safelisted_class {u : Usage} (hBlocklist : u.blocklist = []) {name : String}
    (hSafe : u.isSafelisted name = true) {selector : String}
    (hParse : ∀ cs, Selector.parse selector = .ok cs → cs = [[.hasClass name]]) :
    u.keeps selector = true := by
  refine Usage.keeps_iff.mpr (Or.inr (Or.inr fun cs hRead c hc => ?_))
  rw [hParse cs hRead, List.mem_singleton] at hc
  subst hc
  refine Usage.keepsTerms_of_usesTerm hBlocklist fun t ht => ?_
  have hTerm : t = .hasClass name := by simpa using (List.mem_filter.mp ht).1
  rw [hTerm, Usage.usesTerm]
  · exact Bool.or_eq_true_iff.mpr (Or.inl hSafe)
  · nofun

theorem isSafelisted_of_mem {user : Safelist} {selectors : List String} {name : String}
    (h : name ∈ selectors) (tokens : List String) (blocklist : List Entry) :
    Usage.isSafelisted ⟨tokens, user.extended selectors, blocklist⟩ name = true := by
  refine List.any_eq_true.mpr ⟨.literal name, ?_, by simp [Entry.covers]⟩
  exact List.mem_append_right _ (List.mem_map_of_mem h)

namespace Plugin

variable {p : Plugin} {c : BuildContext}

/-- With the default extractor and engine and without a blocklist, no class is removed whose name
is a discovered selector, however it is written. -/
theorem notMem_rejected_of_mem_discover [Surrogates] [Runtime] {tree : FileTree} {schedule : Schedule}
    {bundle : Bundle}
    {results : PurgeResults} {selectors : List String} (hEngine : p.engine = purgeEngine tree)
    (hExtractor : p.extractor = defaultTokens) (hBlocklist : p.options.blocklist = [])
    (hResults : (p.generate schedule c bundle).pass.result = .ok results)
    (hSelectors : (p.discover c).result = .ok selectors) {name : String} (hName : name ∈ selectors)
    {file : String} {r : PurgeResult} (hResult : (file, r) ∈ results)
    {part : List Css.Component} (hPart : Css.IsClass name.toList part) :
    Text.trim (Css.written part) ∉ r.rejected := by
  intro hRejected
  cases hActive : p.isActive with
  | false =>
    cases Except.ok.inj ((result_generate_inactive hActive).symm.trans hResults)
    cases hResult
  | true =>
    obtain ⟨found, hFound, hResults⟩ := (result_generate_active hActive).mp hResults
    cases Except.ok.inj (hSelectors.symm.trans hFound)
    rw [hEngine] at hResults
    obtain ⟨s, hRun⟩ := exists_purgeSheet_of_mem_results hResults hResult
    obtain ⟨tokens, hNot⟩ := not_keeps_of_mem_rejected hRun hRejected
    -- a token has no blanks, so that nothing of the class is trimmed away
    obtain ⟨-, -, -, -, -, text, -, hToken⟩ := (mem_discover hSelectors).mp hName
    rw [hExtractor] at hToken
    have hStop : ∀ c ∈ name.toList.getLast?, Text.isBlank c = false := by
      intro c hc
      have hBreak := not_isValueBreak_of_mem_defaultTokens hToken c (List.mem_of_getLast? hc)
      simp only [isValueBreak, Bool.or_eq_false_iff] at hBreak
      exact hBreak.2
    have hParse : ∀ cs, Selector.parse (Text.trim (Css.written part)) = .ok cs →
        cs = [[.hasClass name]] := by
      intro cs hRead
      rw [Css.trim_written_of_isClass hPart] at hRead
      rw [Selector.parse_class hStop hRead, String.ofList_toList]
    rw [keeps_of_safelisted_class hBlocklist (isSafelisted_of_mem hName tokens _) hParse] at hNot
    cases hNot

/-- A class with an escaped colon that a script names is left, and another one is removed. -/
theorem notMem_rejected_of_mem_discover_colon :
    let tree : FileTree := ⟨[], []⟩
    let script : Script.Tree := .node .other ⟨0, 9⟩ [.node .string ⟨0, 9⟩ []]
    let context : BuildContext :=
      ⟨fun id => some { id := id, code := some "'md:flex'" }, fun _ => .ok script⟩
    let bundle : Bundle :=
      ⟨[.asset { fileName := "s.css", source := .text ".md\\3a flex , .gone{}" }]⟩
    let p : Plugin := { options := {}, engine := purgeEngine tree, moduleIds := ["m.js"] }
    let r : PurgeResult := ⟨".md\\:flex{}", some "s.css", [".gone"], some ""⟩
    let part : List Css.Component :=
      [.lexeme 1 (.sign ['.']), .lexeme 1 (.name "md:flex".toList), .lexeme 1 (.blank [' '])]
    (p.generate .inTurn context bundle).pass.result = .ok [("s.css", r)] ∧
      (p.discover context).result = .ok ["md:flex"] ∧ Css.IsClass "md:flex".toList part ∧
      Text.trim (Css.written part) ∉ r.rejected := by
  intro tree script context bundle p r part
  have hResults : (p.generate .inTurn context bundle).pass.result = .ok [("s.css", r)] := by
    decide +kernel
  have hSelectors : (p.discover context).result = .ok ["md:flex"] := by decide +kernel
  have hPart : Css.IsClass "md:flex".toList part := by
    refine ⟨[], 1, 1, [.lexeme 1 (.blank [' '])], nofun, ?_, rfl⟩
    intro c hc
    exact ⟨1, [' '], List.mem_singleton.mp hc, by decide⟩
  exact ⟨hResults, hSelectors, hPart, notMem_rejected_of_mem_discover rfl rfl rfl hResults hSelectors
    List.mem_cons_self List.mem_cons_self hPart⟩

/-- An escape of half a surrogate pair names the replacement character, but the class that it is
written for is removed, although a script names that character. -/
theorem mem_rejected_of_half :
    let tree : FileTree := ⟨[], []⟩
    let script : Script.Tree := .node .other ⟨0, 5⟩ [.node .string ⟨0, 5⟩ []]
    let context : BuildContext :=
      ⟨fun id => some { id := id, code := some "'\uFFFD'" }, fun _ => .ok script⟩
    let identifier := "\\d800 "
    let bundle : Bundle :=
      ⟨[.asset { fileName := "s.css", source := .text ("." ++ identifier ++ "\x7b\x7d") }]⟩
    let p : Plugin := { options := {}, engine := purgeEngine tree, moduleIds := ["m.js"] }
    let selector := "." ++ String.singleton (Surrogates.char 0xD800)
    (p.discover context).result = .ok ["\uFFFD"] ∧
      Selector.unescape identifier.toList = "\uFFFD".toList ∧
      (p.generate .inTurn context bundle).pass.result =
        .ok [("s.css", ⟨"", some "s.css", [selector], some (selector ++ "\x7b\x7d")⟩)] := by
  refine ⟨?_, ?_, ?_⟩
  · decide +kernel
  · decide +kernel
  · decide +kernel

end Plugin

end StyleSieve
