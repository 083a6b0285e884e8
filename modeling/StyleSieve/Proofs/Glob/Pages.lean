import StyleSieve.AssetPurge
import StyleSieve.Proofs.Glob.Expand

/-!
# Pages under a root

The pattern of all pages under a root is made of the names of the root as they are, whatever stands
in them.

* `fits_pages_iff`: which names fit the part of the pattern behind the root.
* `mem_paths_page`: a page is found if no name behind the root is hidden, and each name of the
  root fits itself.
* `of_mem_paths_page`: no hidden page is, and none at all if a name of the root does not fit itself,
  unless another one stands for any number of names.
-/

namespace StyleSieve

open FileTree (IsFileName)

/-! ## Endings -/

namespace Wildcard

variable {cs text : List Char}

theorem anyEnd_iff {test : List Char → Bool} :
    anyEnd test cs = true ↔ ∃ rest, rest <:+ cs ∧ test rest = true := by
  induction cs with
  | nil => simp [anyEnd]
  | cons c cs ih =>
    rw [anyEnd, Bool.or_eq_true, ih]
    constructor
    · rintro (hWhole | ⟨rest, hRest, hEnd⟩)
      · exact ⟨c :: cs, List.suffix_rfl, hWhole⟩
      · exact ⟨rest, hRest.trans (List.suffix_cons c cs), hEnd⟩
    · rintro ⟨rest, hRest, hEnd⟩
      rcases List.suffix_cons_iff.mp hRest with rfl | hRest
      · exact Or.inl hEnd
      · exact Or.inr ⟨rest, hRest, hEnd⟩

theorem fitsAll_literal_iff : fitsAll (text.map literal) cs = true ↔ cs = text := by
  induction text generalizing cs with
  | nil => simp [fitsAll]
  | cons d text ih => cases cs <;> simp [fitsAll, fits, ih]

/-- A wildcard in front of a text fits what ends in it. -/
theorem matchesText_html_iff :
    matchesText "*.html".toList cs = true ↔ ".html".toList <:+ cs := by
  have hRead : read "*.html".toList = any :: ".html".toList.map literal := by
    decide +kernel
  rw [matchesText, hRead, fitsAll, anyEnd_iff]
  simp only [fitsAll_literal_iff, exists_eq_right]

end Wildcard

namespace Glob

variable {tree : FileTree} {names : List String} {root : Path} {place : Location} {bytes : Bytes}

/-- A file under a place that ends as pages do, by the names that lead to it from there. -/
structure IsPage (tree : FileTree) (place : Location) (names : List String) (bytes : Bytes) : Prop
    where
  there : tree.contents? (place ++ names) = some bytes
  file : tree.isDirectory (place ++ names) = false
  ending : ∃ name, names.getLast? = some name ∧ ".html".toList <:+ name.toList

/-- A name that is not hidden. -/
def IsShown (name : String) : Prop := isHidden name.toList = false

instance (name : String) : Decidable (IsShown name) := inferInstanceAs (Decidable (_ = _))

/-- The names that fit the pattern of all pages behind its root. -/
theorem fits_pages_iff : Fits ["**", "*.html"] names ↔
    (∀ name ∈ names, IsFileName name ∧ IsShown name) ∧
      ∃ name, names.getLast? = some name ∧ ".html".toList <:+ name.toList := by
  have hPattern : ["**", "*.html"] = ["**"] ++ ["*.html"] := rfl
  have hShown : isHidden "*.html".toList = false := by decide
  rw [hPattern, fits_concat_iff]
  simp only [fits_singleton_iff, standsFor_anyDepth_iff, Wildcard.matchesText_html_iff, hShown,
    standsFor_wild_iff (by decide : Wildcard.hasWildcard "*.html".toList = true) (by decide)]
  constructor
  · rintro ⟨front, part, rfl, hFront, name, rfl, hName, hShown, hEnding⟩
    have hShown := hShown.resolve_left Bool.false_ne_true
    exact ⟨List.forall_mem_append.mpr ⟨hFront, List.forall_mem_singleton.mpr ⟨hName, hShown⟩⟩,
      name, List.getLast?_concat, hEnding⟩
  · rintro ⟨hNames, name, hLast, hEnding⟩
    obtain ⟨front, rfl⟩ := List.getLast?_eq_some_iff.mp hLast
    obtain ⟨hFront, hName⟩ := List.forall_mem_append.mp hNames
    have hName := hName name List.mem_cons_self
    exact ⟨front, [name], rfl, hFront, name, rfl, hName.1, Or.inr hName.2, hEnding⟩

/-! ## Roots -/

/-- A name that fits itself as a pattern. -/
def FitsItself (name : String) : Prop :=
  Wildcard.hasWildcard name.toList = true → Wildcard.matchesText name.toList name.toList = true

instance (name : String) : Decidable (FitsItself name) := inferInstanceAs (Decidable (_ → _))

theorem IsName.isFileName {name : String} (h : IsName name)
    (hWild : Wildcard.hasWildcard name.toList = true) : IsFileName name where
  nonempty := h.nonempty
  ne_dot := by
    rintro rfl
    exact absurd hWild (by decide)
  ne_up := by
    rintro rfl
    exact absurd hWild (by decide)
  noSlash := h.noSlash

theorem standsFor_self {name : String} (hName : IsName name) (h : FitsItself name) :
    StandsFor name [name] := by
  cases hWild : Wildcard.hasWildcard name.toList with
  | false => exact .itself hWild
  | true =>
    have hFile := hName.isFileName hWild
    by_cases hAny : name = "**"
    · subst hAny
      exact .anyDepth (List.forall_mem_singleton.mpr hFile)
        (List.forall_mem_singleton.mpr (by decide))
    · refine .fitting hWild hAny hFile ?_ (h hWild)
      cases isHidden name.toList
      · exact Or.inr rfl
      · exact Or.inl rfl

theorem fits_self (hNames : ∀ name ∈ names, IsName name) (h : ∀ name ∈ names, FitsItself name) :
    Fits names names := by
  induction names with
  | nil => exact .nil
  | cons name names ih =>
    obtain ⟨hName, hNames⟩ := List.forall_mem_cons.mp hNames
    obtain ⟨hFirst, hRest⟩ := List.forall_mem_cons.mp h
    exact .cons (standsFor_self hName hFirst) (ih hNames hRest)

/-- As long as no name stands for any number of names, each stands for one. -/
theorem Fits.length_eq {patterns : List String} (h : Fits patterns names)
    (hSingle : "**" ∉ patterns) : names.length = patterns.length := by
  induction h with
  | nil => rfl
  | @cons pattern patterns part names first rest ih =>
    rw [List.mem_cons, not_or] at hSingle
    have hPart : part.length = 1 := by
      cases first with
      | itself plain => rfl
      | anyDepth names_ok shown => exact absurd rfl hSingle.1
      | fitting wild single name_ok shown fits => rfl
    rw [List.length_append, hPart, ih hSingle.2, List.length_cons, Nat.add_comm]

/-- What stands for a name has no more hidden names in it. -/
theorem StandsFor.countP_hidden_le {pattern : String} {part : List String}
    (h : StandsFor pattern part) :
    part.countP (fun name => isHidden name.toList) ≤
      [pattern].countP fun name => isHidden name.toList := by
  cases h with
  | itself plain => exact Nat.le_refl _
  | anyDepth names_ok shown =>
    rw [List.countP_eq_zero.mpr fun name hName => by simp [shown name hName]]
    exact Nat.zero_le _
  | @fitting _ name wild single name_ok shown fits =>
    rw [List.countP_singleton, List.countP_singleton]
    rcases shown with hPattern | hName
    · rw [hPattern]
      split <;> decide
    · rw [hName]
      exact Nat.zero_le _

theorem Fits.countP_hidden_le {patterns : List String} (h : Fits patterns names) :
    names.countP (fun name => isHidden name.toList) ≤
      patterns.countP fun name => isHidden name.toList := by
  induction h with
  | nil => exact Nat.le_refl _
  | @cons pattern patterns part names first rest ih =>
    rw [List.countP_append, ← List.singleton_append, List.countP_append]
    exact Nat.add_le_add first.countP_hidden_le ih

theorem fitsItself_of_fits (hSingle : "**" ∉ names) (h : Fits names names) :
    ∀ name ∈ names, FitsItself name := by
  induction names with
  | nil => exact fun name hName => absurd hName List.not_mem_nil
  | cons name names ih =>
    have hFirst : [name] ++ names = name :: names := rfl
    rw [← hFirst, fits_append_iff] at h
    obtain ⟨front, rest, hParts, hFront, hRest⟩ := h
    rw [List.mem_cons, not_or] at hSingle
    have hLength := hFront.length_eq (by simpa using hSingle.1)
    obtain ⟨rfl, rfl⟩ := List.append_inj hParts hLength.symm
    refine List.forall_mem_cons.mpr ⟨fun hWild => ?_, ih hSingle.2 hRest⟩
    obtain ⟨same, hSame, -, -, hFits⟩ :=
      (standsFor_wild_iff hWild (Ne.symm hSingle.1)).mp (fits_singleton_iff.mp hFront)
    cases hSame
    exact hFits

/-! ## Roots as texts -/

theorem toList_toString {path : Path} (hAnchor : path.anchor = "") (hSome : path.names ≠ []) :
    path.toString.toList = spelled path.names := by
  unfold Path.toString
  rw [hAnchor]
  simp [hSome, spelled]

theorem isName_of_ofString (text : String) : ∀ name ∈ (Path.ofString text).names, IsName name := by
  intro name hName
  obtain ⟨hName, hSome⟩ := List.mem_filter.mp hName
  obtain ⟨part, hPart, rfl⟩ := List.mem_map.mp hName
  rw [Bool.and_eq_true, bne_iff_ne] at hSome
  refine ⟨hSome.1, ?_⟩
  rw [String.toList_ofList]
  exact not_mem_of_mem_splitSlashes hPart

theorem anchor_ofString (text : String) :
    (Path.ofString text).anchor = "" ∨ (Path.ofString text).anchor = "/" ∨
      (Path.ofString text).anchor = "//" := by
  show Path.anchorOf text.toList = "" ∨ Path.anchorOf text.toList = "/" ∨
    Path.anchorOf text.toList = "//"
  unfold Path.anchorOf
  split <;> simp

theorem locate_dot : tree.locate ['.'] = tree.follow [] [] := by
  show tree.follow [] [['.']] = tree.follow [] []
  simp [FileTree.follow, FileTree.isDirectory_here]

/-- A path that leads somewhere starts in the working directory, and its names lead there. -/
theorem follow_of_locate {text : String}
    (h : tree.locate (Path.ofString text).toString.toList = some place) :
    (Path.ofString text).anchor = "" ∧
      tree.follow [] ((Path.ofString text).names.map String.toList) = some place := by
  have hNames := isName_of_ofString text
  have hAnchors := anchor_ofString text
  generalize Path.ofString text = path at *
  have hAnchor : path.anchor = "" := by
    refine hAnchors.resolve_right fun hSlash => ?_
    have hText : ∃ cs, path.toString.toList = '/' :: cs := by
      unfold Path.toString
      rcases hSlash with hSlash | hSlash <;> simp [hSlash]
    obtain ⟨cs, hText⟩ := hText
    rw [hText] at h
    cases h
  refine ⟨hAnchor, ?_⟩
  by_cases hSome : path.names = []
  · have hText : path.toString.toList = ['.'] := by
      unfold Path.toString
      simp [hAnchor, hSome]
    rw [hText, locate_dot] at h
    rw [hSome]
    exact h
  · rwa [toList_toString hAnchor hSome, locate_spelled hNames hSome] at h

/-! ## Pages -/

theorem IsPage.ne_nil (h : IsPage tree place names bytes) : names ≠ [] := by
  rintro rfl
  obtain ⟨name, hLast, -⟩ := h.ending
  cases hLast

theorem IsPage.isFileName (h : IsPage tree place names bytes) (hTree : tree.HasFileNames) :
    ∀ name ∈ names, IsFileName name := by
  have hOccupied : tree.occupied (place ++ names) = true := by
    rw [FileTree.occupied, h.there]
    rfl
  exact fun name hName => hTree.of_occupied hOccupied name (List.mem_append_right place hName)

theorem IsPage.follow (h : IsPage tree place names bytes) (hTree : tree.HasFileNames)
    (hPlace : tree.follow [] (root.names.map String.toList) = some place) :
    tree.follow [] ((root.names ++ names).map String.toList) = some (place ++ names) := by
  rw [List.map_append, FileTree.follow_append, hPlace, Option.bind_some,
    FileTree.follow_names (h.isFileName hTree), FileTree.occupied, h.there]
  exact ⟨rfl, rfl⟩

theorem IsPage.toList_toString (h : IsPage tree place names bytes) (hAnchor : root.anchor = "") :
    (root.append names).toString.toList = spelled (root.names ++ names) :=
  Glob.toList_toString hAnchor fun hNone => h.ne_nil (List.append_eq_nil_iff.mp hNone).2

theorem IsPage.isName (h : IsPage tree place names bytes) (hTree : tree.HasFileNames)
    (hRoot : ∀ name ∈ root.names, IsName name) : ∀ name ∈ root.names ++ names, IsName name :=
  List.forall_mem_append.mpr ⟨hRoot, fun name hName => (h.isFileName hTree name hName).isName⟩

/-- What is read of a page under its path. -/
theorem IsPage.read? (h : IsPage tree place names bytes) (hTree : tree.HasFileNames)
    (hAnchor : root.anchor = "") (hRoot : ∀ name ∈ root.names, IsName name)
    (hPlace : tree.follow [] (root.names.map String.toList) = some place) :
    tree.read? (root.append names).toString.toList = some bytes := by
  have hSome : root.names ++ names ≠ [] := fun hNone => h.ne_nil (List.append_eq_nil_iff.mp hNone).2
  rw [FileTree.read?, h.toList_toString hAnchor, locate_spelled (h.isName hTree hRoot) hSome,
    h.follow hTree hPlace]
  simp [h.file, h.there]

theorem mem_paths {path pattern : String} :
    path ∈ paths tree pattern ↔ path.toList ∈ expand tree false pattern.toList := by
  rw [paths, List.mem_mergeSort, List.mem_map]
  constructor
  · rintro ⟨cs, hcs, rfl⟩
    rwa [String.toList_ofList]
  · exact fun h => ⟨path.toList, h, String.ofList_toList⟩

/-- The pattern of the pages under a root finds a page exactly if the names of both fit it. -/
theorem mem_paths_page_iff (hTree : tree.HasFileNames) (hAnchor : root.anchor = "")
    (hRoot : ∀ name ∈ root.names, IsName name)
    (hPlace : tree.follow [] (root.names.map String.toList) = some place)
    (hPage : IsPage tree place names bytes) :
    (root.append names).toString ∈ paths tree (pagesUnder root) ↔
      Fits (root.names ++ ["**", "*.html"]) (root.names ++ names) := by
  have hPattern : (pagesUnder root).toList = spelled (root.names ++ ["**"] ++ ["*.html"]) := by
    rw [List.append_assoc]
    exact toList_toString hAnchor (by simp [Path.append])
  have hAny : IsName "**" := ⟨by decide, by decide⟩
  have hLast : IsName "*.html" := ⟨by decide, by decide⟩
  have hPatterns : ∀ name ∈ root.names ++ ["**"], IsName name :=
    List.forall_mem_append.mpr ⟨hRoot, List.forall_mem_singleton.mpr hAny⟩
  rw [mem_paths, hPage.toList_toString hAnchor, hPattern,
    mem_expand_iff hTree hPatterns hLast (by decide), List.append_assoc]
  constructor
  · rintro ⟨found, hFits, hSame, -⟩
    have hFound := hFits.isName (by
      rw [← List.singleton_append, ← List.append_assoc]
      exact List.forall_mem_append.mpr ⟨hPatterns, List.forall_mem_singleton.mpr hLast⟩)
    rwa [spelled_injective hFound (hPage.isName hTree hRoot) hSame] at hFits
  · intro hFits
    refine ⟨_, hFits, rfl, ?_⟩
    rw [hPage.follow hTree hPlace]
    rfl

/-- A page is found if no name on the way from the root to it is hidden and each name of the root
fits itself. -/
theorem mem_paths_page (hTree : tree.HasFileNames) (hAnchor : root.anchor = "")
    (hRoot : ∀ name ∈ root.names, IsName name)
    (hPlace : tree.follow [] (root.names.map String.toList) = some place)
    (hPage : IsPage tree place names bytes) (hFits : ∀ name ∈ root.names, FitsItself name)
    (hShown : ∀ name ∈ names, IsShown name) :
    (root.append names).toString ∈ paths tree (pagesUnder root) := by
  rw [mem_paths_page_iff hTree hAnchor hRoot hPlace hPage, fits_append_iff]
  refine ⟨root.names, names, rfl, fits_self hRoot hFits, fits_pages_iff.mpr ⟨?_, hPage.ending⟩⟩
  exact fun name hName => ⟨hPage.isFileName hTree name hName, hShown name hName⟩

/-- No hidden page is found, and none at all if a name of the root does not fit itself, unless
another one stands for any number of names. -/
theorem of_mem_paths_page (hTree : tree.HasFileNames) (hAnchor : root.anchor = "")
    (hRoot : ∀ name ∈ root.names, IsName name)
    (hPlace : tree.follow [] (root.names.map String.toList) = some place)
    (hPage : IsPage tree place names bytes)
    (h : (root.append names).toString ∈ paths tree (pagesUnder root)) :
    (∀ name ∈ names, IsShown name) ∧
      ("**" ∉ root.names → ∀ name ∈ root.names, FitsItself name) := by
  have hFits := (mem_paths_page_iff hTree hAnchor hRoot hPlace hPage).mp h
  constructor
  · have hCount := hFits.countP_hidden_le
    have hOwn : ["**", "*.html"].countP (fun name => isHidden name.toList) = 0 := by decide
    rw [List.countP_append, List.countP_append, hOwn] at hCount
    have hNone : names.countP (fun name => isHidden name.toList) = 0 := by omega
    exact fun name hName => Bool.eq_false_iff.mpr (List.countP_eq_zero.mp hNone name hName)
  · intro hSingle
    obtain ⟨front, rest, hParts, hFront, -⟩ := fits_append_iff.mp hFits
    obtain ⟨rfl, -⟩ := List.append_inj hParts (hFront.length_eq hSingle).symm
    exact fitsItself_of_fits hSingle hFront

end Glob

end StyleSieve
