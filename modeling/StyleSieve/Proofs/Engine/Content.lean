import StyleSieve.Engine
import StyleSieve.Proofs.Extractor.Tokens
import StyleSieve.Proofs.Pass.Result

/-!
# Tokens of the content

* `mem_contentTokens`: the tokens of all content are those of the texts of its entries.
* `contentTokens_mono`: more entries, fewer of them skipped, have no fewer tokens.
-/

namespace StyleSieve

variable {tree : FileTree} {r : PurgeRequest}

namespace PurgeRequest

/-- A pattern has the texts of the files that it finds and that are not to be skipped. -/
theorem mem_filesFor {pattern path text : String} :
    (path, text) ∈ r.filesFor tree pattern ↔
      path ∈ Glob.paths tree pattern ∧ r.skips path = false ∧
        ∃ bytes, tree.read? path.toList = some bytes ∧
          Text.withPlainLineEnds (Utf8.decodeLossy bytes) = text := by
  unfold filesFor
  rw [List.mem_filterMap]
  constructor
  · rintro ⟨found, hFound, hText⟩
    cases hBytes : tree.read? found.toList with
    | none =>
      rw [hBytes] at hText
      cases hText
    | some bytes =>
      rw [hBytes] at hText
      dsimp only at hText
      split at hText
      · cases hText
      · rename_i hRead
        cases hText
        exact ⟨hFound, Bool.eq_false_iff.mpr hRead, bytes, hBytes, rfl⟩
  · rintro ⟨hFound, hRead, bytes, hBytes, rfl⟩
    refine ⟨path, hFound, ?_⟩
    rw [hBytes]
    dsimp only
    rw [hRead, if_neg Bool.false_ne_true]

theorem mem_entryTokens {entry : Content} {found : List String}
    (h : r.entryTokens tree entry = .ok found) {token : String} :
    token ∈ found ↔ ∃ texts, r.textsOf tree entry = .ok texts ∧
      ∃ t ∈ texts, ∃ tokens, r.tokensAt t.1 t.2 = .ok tokens ∧ token ∈ tokens := by
  obtain ⟨texts, hTexts, h⟩ := bind_eq_ok_iff.mp h
  obtain ⟨lists, hLists, h⟩ := bind_eq_ok_iff.mp h
  cases Except.ok.inj h
  rw [List.mem_flatten]
  constructor
  · rintro ⟨tokens, hTokens, hToken⟩
    obtain ⟨t, ht, hRead⟩ := (mem_mapM_iff hLists).mp hTokens
    exact ⟨texts, hTexts, t, ht, tokens, hRead, hToken⟩
  · rintro ⟨texts', hTexts', t, ht, tokens, hRead, hToken⟩
    cases Except.ok.inj (hTexts.symm.trans hTexts')
    exact ⟨tokens, (mem_mapM_iff hLists).mpr ⟨t, ht, hRead⟩, hToken⟩

end PurgeRequest

theorem result_contentTokens_eq_ok {tokens : List String} :
    (contentTokens tree r).result = .ok tokens ↔
      ∃ lists, r.content.mapM (r.entryTokens tree) = .ok lists ∧ tokens = dedup lists.flatten := by
  unfold contentTokens
  rw [Pass.result_bind_eq_ok]
  simp only [Pass.result_ofExcept]
  constructor
  · rintro ⟨lists, hLists, h⟩
    exact ⟨lists, hLists, (Except.ok.inj h).symm⟩
  · rintro ⟨lists, hLists, rfl⟩
    exact ⟨lists, hLists, rfl⟩

theorem mem_contentTokens {tokens : List String} (h : (contentTokens tree r).result = .ok tokens)
    {token : String} :
    token ∈ tokens ↔ ∃ entry ∈ r.content, ∃ texts, r.textsOf tree entry = .ok texts ∧
      ∃ t ∈ texts, ∃ found, r.tokensAt t.1 t.2 = .ok found ∧ token ∈ found := by
  obtain ⟨lists, hLists, rfl⟩ := result_contentTokens_eq_ok.mp h
  rw [mem_dedup, List.mem_flatten]
  constructor
  · rintro ⟨list, hList, hToken⟩
    obtain ⟨entry, hEntry, hRead⟩ := (mem_mapM_iff hLists).mp hList
    exact ⟨entry, hEntry, (PurgeRequest.mem_entryTokens hRead).mp hToken⟩
  · rintro ⟨entry, hEntry, hToken⟩
    obtain ⟨list, hList, hRead⟩ := exists_of_mapM_eq_ok hLists hEntry
    exact ⟨list, hList, (PurgeRequest.mem_entryTokens hRead).mpr hToken⟩

/-! ## More content -/

/-- `b` asks for all content that `a` asks for, in the same way. -/
structure PurgeRequest.ContentWithin (a b : PurgeRequest) : Prop where
  content : a.content ⊆ b.content
  skipped : b.skippedContent ⊆ a.skippedContent
  fallback : b.defaultExtractor = a.defaultExtractor
  extractors : b.extractors = a.extractors

namespace PurgeRequest.ContentWithin

variable {a b : PurgeRequest}

theorem tokensAt (h : a.ContentWithin b) (path text : String) :
    b.tokensAt path text = a.tokensAt path text := by
  unfold PurgeRequest.tokensAt PurgeRequest.fallback
  rw [h.fallback, h.extractors]

/-- What the request with more globs reads, the one with fewer reads as well. -/
theorem skips (h : a.ContentWithin b) {path : String} (hRead : a.skips path = false) :
    b.skips path = false := by
  refine Bool.eq_false_iff.mpr fun hSkipped => ?_
  obtain ⟨glob, hGlob, hFits⟩ := List.any_eq_true.mp hSkipped
  have hOld : a.skips path = true := List.any_eq_true.mpr ⟨glob, h.skipped hGlob, hFits⟩
  rw [hRead] at hOld
  cases hOld

theorem filesFor (h : a.ContentWithin b) (pattern : String) :
    a.filesFor tree pattern ⊆ b.filesFor tree pattern := by
  rintro ⟨path, text⟩ hFile
  obtain ⟨hFound, hRead, hText⟩ := mem_filesFor.mp hFile
  exact mem_filesFor.mpr ⟨hFound, h.skips hRead, hText⟩

theorem textsOf (h : a.ContentWithin b) {entry : Content} {texts : List (String × String)}
    (hTexts : a.textsOf tree entry = .ok texts) :
    ∃ more, b.textsOf tree entry = .ok more ∧ texts ⊆ more := by
  cases entry with
  | raw content => exact ⟨texts, hTexts, List.Subset.refl _⟩
  | files pattern =>
    unfold PurgeRequest.textsOf at hTexts ⊢
    dsimp only at hTexts ⊢
    split at hTexts
    · cases hTexts
    · rename_i hPossible
      cases Except.ok.inj hTexts
      exact ⟨b.filesFor tree pattern, if_neg hPossible, h.filesFor pattern⟩

end PurgeRequest.ContentWithin

/-- More content has no fewer tokens. -/
theorem contentTokens_mono {a b : PurgeRequest} (h : a.ContentWithin b) {xs ys : List String}
    (hA : (contentTokens tree a).result = .ok xs) (hB : (contentTokens tree b).result = .ok ys) :
    xs ⊆ ys := by
  intro token hToken
  obtain ⟨entry, hEntry, texts, hTexts, t, ht, found, hFound, hToken⟩ :=
    (mem_contentTokens hA).mp hToken
  obtain ⟨more, hMore, hSubset⟩ := h.textsOf hTexts
  exact (mem_contentTokens hB).mpr ⟨entry, h.content hEntry, more, hMore, t, hSubset ht, found,
    (h.tokensAt t.1 t.2).trans hFound, hToken⟩

end StyleSieve
