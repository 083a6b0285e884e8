import StyleSieve.Proofs.Engine.Content
import StyleSieve.Proofs.Glob.Pages

/-!
# Pages as content

The pages under the root of a build are content. Which of them are read depends on their names and
on those of the root, as the root is part of a pattern.

* `exists_contentTokens`: content has tokens if all that is registered are extractors.
* `contentTokens_pages`: which pages have their tokens among those of the content.
-/

namespace StyleSieve

open Glob (FitsItself IsPage IsShown)

variable {tree : FileTree} {r : PurgeRequest}

/-! ## Content that has tokens -/

namespace PurgeRequest

/-- All that is registered are extractors. -/
def HasExtractors (r : PurgeRequest) : Prop := ∀ f ∈ r.extractors, ∃ e, f.2 = .extractor e

theorem exists_extractorFor (h : r.HasExtractors) (path : String) (fallback : Extractor) :
    ∃ e, extractorFor path r.extractors fallback = .extractor e := by
  unfold extractorFor registered?
  cases hFound : r.extractors.find? fun f => f.1 == (Path.ofString path).extension with
  | none => exact ⟨fallback, rfl⟩
  | some f => exact h f (List.mem_of_find?_eq_some hFound)

theorem exists_tokensAt (h : r.HasExtractors) (path text : String) :
    ∃ found, r.tokensAt path text = .ok found := by
  obtain ⟨e, hFor⟩ := exists_extractorFor h path r.fallback
  exact ⟨e text, by rw [tokensAt, hFor]; rfl⟩

theorem exists_entryTokens (h : r.HasExtractors) {entry : Content}
    (hPossible : ∀ pattern, entry = .files pattern → Glob.listsImpossible pattern = false) :
    ∃ found, r.entryTokens tree entry = .ok found := by
  have hTexts : ∃ texts, r.textsOf tree entry = .ok texts := by
    cases entry with
    | raw content => exact ⟨_, rfl⟩
    | files pattern => exact ⟨_, if_neg (Bool.eq_false_iff.mp (hPossible pattern rfl))⟩
  obtain ⟨texts, hTexts⟩ := hTexts
  obtain ⟨lists, hLists⟩ := exists_mapM_eq_ok fun t (_ : t ∈ texts) => exists_tokensAt h t.1 t.2
  exact ⟨lists.flatten, bind_eq_ok_iff.mpr ⟨texts, hTexts, bind_eq_ok_iff.mpr ⟨lists, hLists, rfl⟩⟩⟩

end PurgeRequest

/-- Content has tokens if all that is registered are extractors and all patterns can be looked for. -/
theorem exists_contentTokens (h : r.HasExtractors)
    (hPossible : ∀ pattern, .files pattern ∈ r.content → Glob.listsImpossible pattern = false) :
    ∃ tokens, (contentTokens tree r).result = .ok tokens := by
  have hEntries : ∀ entry ∈ r.content, ∃ found, r.entryTokens tree entry = .ok found := by
    intro entry hEntry
    exact PurgeRequest.exists_entryTokens h fun pattern hPattern =>
      hPossible pattern (hPattern ▸ hEntry)
  obtain ⟨lists, hLists⟩ := exists_mapM_eq_ok hEntries
  exact ⟨_, result_contentTokens_eq_ok.mpr ⟨lists, hLists, rfl⟩⟩

/-! ## Pages under the root -/

/-- The tokens of a file that a pattern of the content finds are among those of the content. -/
theorem subset_contentTokens {pattern path text : String} {tokens : List String}
    (hPattern : .files pattern ∈ r.content) (hFile : (path, text) ∈ r.filesFor tree pattern)
    (h : (contentTokens tree r).result = .ok tokens) :
    ∃ found, r.tokensAt path text = .ok found ∧ found ⊆ tokens := by
  obtain ⟨entries, hEntries, rfl⟩ := result_contentTokens_eq_ok.mp h
  obtain ⟨own, hOwn, hEntry⟩ := exists_of_mapM_eq_ok hEntries hPattern
  obtain ⟨texts, hTexts, hEntry⟩ := bind_eq_ok_iff.mp hEntry
  obtain ⟨lists, hLists, hEntry⟩ := bind_eq_ok_iff.mp hEntry
  have hText : (path, text) ∈ texts := by
    unfold PurgeRequest.textsOf at hTexts
    dsimp only at hTexts
    split at hTexts
    · cases hTexts
    · cases hTexts
      exact hFile
  obtain ⟨found, hFound, hTokens⟩ := exists_of_mapM_eq_ok hLists hText
  refine ⟨found, hTokens, fun token hToken => mem_dedup.mpr (List.mem_flatten.mpr ⟨own, hOwn, ?_⟩)⟩
  cases hEntry
  exact List.mem_flatten.mpr ⟨found, hFound, hToken⟩

/-- The pages under the root of a build that are read as content, if the root leads to a place: a
page is read if no name on the way from the root to it is hidden and each name of the root, as a
pattern, fits itself; then all that its extractor finds is among the tokens of the content. No hidden
page is read, and none at all if a name of the root does not fit itself, unless another one stands
for any number of names. -/
theorem contentTokens_pages (options : Options) (safelist : Safelist)
    (rootText fileName text : String) (hTree : tree.HasFileNames) {place : Location}
    (hRoot : tree.locate (Path.ofString rootText).toString.toList = some place) :
    let root := Path.ofString rootText
    let r := PurgeRequest.ofSheet options safelist root fileName text
    (∀ names bytes, IsPage tree place names bytes → r.skips (root.append names).toString = false →
      let path := (root.append names).toString
      let contents := Text.withPlainLineEnds (Utf8.decodeLossy bytes)
      ((∀ name ∈ root.names, FitsItself name) → (∀ name ∈ names, IsShown name) →
        (path, contents) ∈ r.filesFor tree (pagesUnder root) ∧
        ∀ tokens, (contentTokens tree r).result = .ok tokens →
          ∃ found, r.tokensAt path contents = .ok found ∧ found ⊆ tokens) ∧
      ((path, contents) ∈ r.filesFor tree (pagesUnder root) →
        (∀ name ∈ names, IsShown name) ∧
          ("**" ∉ root.names → ∀ name ∈ root.names, FitsItself name))) ∧
    (r.HasExtractors →
      (∀ pattern, .files pattern ∈ r.content → Glob.listsImpossible pattern = false) →
      ∃ tokens, (contentTokens tree r).result = .ok tokens) := by
  intro root r
  obtain ⟨hAnchor, hPlace⟩ := Glob.follow_of_locate hRoot
  have hNames := Glob.isName_of_ofString rootText
  refine ⟨?_, exists_contentTokens⟩
  intro names bytes hPage hSkips path contents
  constructor
  · intro hFits hShown
    have hFound := Glob.mem_paths_page hTree hAnchor hNames hPlace hPage hFits hShown
    have hFile : (path, contents) ∈ r.filesFor tree (pagesUnder root) :=
      PurgeRequest.mem_filesFor.mpr ⟨hFound, hSkips, bytes, hPage.read? hTree hAnchor hNames hPlace, rfl⟩
    exact ⟨hFile, fun tokens hTokens => subset_contentTokens List.mem_cons_self hFile hTokens⟩
  · intro hFile
    exact Glob.of_mem_paths_page hTree hAnchor hNames hPlace hPage
      (PurgeRequest.mem_filesFor.mp hFile).1

/-- A bracket that is not closed does no harm in a root. -/
theorem contentTokens_pages_bracket :
    let tree := FileTree.ofNamed [("a[b/sub/x.html", Utf8.encode "<p class=\"hero\">")]
    let r := PurgeRequest.ofSheet {} {} (Path.ofString "a[b") "a.css" ".hero\x7b\x7d"
    tree.HasFileNames ∧ tree.locate (Path.ofString "a[b").toString.toList = some ["a[b"] ∧
      ∃ tokens, (contentTokens tree r).result = .ok tokens ∧ "hero" ∈ tokens := by
  intro tree r
  have hTree : tree.HasFileNames := FileTree.hasFileNames_ofNamed (by decide +kernel)
  have hRoot : tree.locate (Path.ofString "a[b").toString.toList = some ["a[b"] := by
    decide +kernel
  have hPage : IsPage tree ["a[b"] ["sub", "x.html"] (Utf8.encode "<p class=\"hero\">") :=
    ⟨by decide +kernel, by decide +kernel, "x.html", rfl, by decide⟩
  have hPossible : ∀ pattern, .files pattern ∈ r.content → Glob.listsImpossible pattern = false := by
    intro pattern hPattern
    cases List.mem_singleton.mp hPattern
    decide +kernel
  have hPath : ((Path.ofString "a[b").append ["sub", "x.html"]).toString = "a[b/sub/x.html" := by
    decide +kernel
  have hText : Text.withPlainLineEnds (Utf8.decodeLossy (Utf8.encode "<p class=\"hero\">")) =
      "<p class=\"hero\">" := by
    decide +kernel
  have hTokens : r.tokensAt "a[b/sub/x.html" "<p class=\"hero\">" =
      .ok (defaultTokens "<p class=\"hero\">") := rfl
  have hHero : "hero" ∈ defaultTokens "<p class=\"hero\">" := by
    decide +kernel
  obtain ⟨hPages, hResult⟩ := contentTokens_pages {} {} "a[b" "a.css" ".hero\x7b\x7d" hTree hRoot
  obtain ⟨tokens, hResult⟩ := hResult (fun f hf => absurd hf List.not_mem_nil) hPossible
  obtain ⟨hFound, -⟩ := hPages _ _ hPage (by decide +kernel)
  obtain ⟨found, hRead, hSubset⟩ := (hFound (by decide +kernel) (by decide +kernel)).2 tokens hResult
  refine ⟨hTree, hRoot, tokens, hResult, hSubset ?_⟩
  rw [hPath, hText] at hRead
  cases hRead.symm.trans hTokens
  exact hHero

/-- A page is lost if the root holds a wildcard that does not fit it, or if a directory on the way
to it is hidden. -/
theorem not_contentTokens_pages :
    (let tree := FileTree.ofNamed [("site[1]/index.html", Utf8.encode "<p class=\"hero\">")]
    let r := PurgeRequest.ofSheet {} {} (Path.ofString "site[1]") "a.css" ".hero\x7b\x7d"
    IsPage tree ["site[1]"] ["index.html"] (Utf8.encode "<p class=\"hero\">") ∧
      (contentTokens tree r).result = .ok [] ∧
      r.tokensAt "site[1]/index.html" "<p class=\"hero\">" =
        .ok (defaultTokens "<p class=\"hero\">")) ∧
    (let tree := FileTree.ofNamed [("site/.drafts/index.html", Utf8.encode "<p class=\"hero\">")]
    let r := PurgeRequest.ofSheet {} {} (Path.ofString "site") "a.css" ".hero\x7b\x7d"
    IsPage tree ["site"] [".drafts", "index.html"] (Utf8.encode "<p class=\"hero\">") ∧
      (contentTokens tree r).result = .ok [] ∧
      r.tokensAt "site/.drafts/index.html" "<p class=\"hero\">" =
        .ok (defaultTokens "<p class=\"hero\">")) ∧
    "hero" ∈ defaultTokens "<p class=\"hero\">" := by
  refine ⟨⟨⟨by decide +kernel, by decide +kernel, "index.html", rfl, by decide⟩, by decide +kernel, rfl⟩,
    ⟨⟨by decide +kernel, by decide +kernel, "index.html", rfl, by decide⟩, by decide +kernel, rfl⟩,
    by decide +kernel⟩

end StyleSieve
