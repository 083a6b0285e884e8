import Mathlib.Data.List.Basic
import StyleSieve.FileTree

/-!
# Places of files

A file is named by the names that lead to it, with slashes between them. No name has a slash in it, so
that they can be told apart again.

* `splitSlashes_eq`: cutting at slashes is the splitting of lists.
* `FileTree.hasPlainNames_ofNamed`: in trees that are put together no name has a slash in it.
* `FileTree.contents?_write_self`, `FileTree.contents?_write_other`: writing changes one file.
-/

namespace StyleSieve

/-! ## Slashes -/

theorem splitSlashes_eq (cs : List Char) : splitSlashes cs = cs.splitOn '/' := by
  induction cs with
  | nil => rfl
  | cons c cs ih =>
    rw [splitSlashes, List.splitOn_cons_eq_if_modifyHead, ih]
    by_cases hSlash : (c == '/') = true
    · rw [if_pos hSlash, if_pos hSlash]
    · rw [if_neg hSlash, if_neg hSlash]
      obtain ⟨part, parts, hParts⟩ := List.exists_cons_of_ne_nil (List.splitOn_ne_nil '/' cs)
      rw [hParts]
      rfl

theorem splitSlashes_injective : Function.Injective splitSlashes := by
  intro cs ds h
  rw [splitSlashes_eq, splitSlashes_eq] at h
  calc
    cs = ['/'].intercalate (cs.splitOn '/') := (List.intercalate_splitOn '/').symm
    _ = ['/'].intercalate (ds.splitOn '/') := by rw [h]
    _ = ds := List.intercalate_splitOn '/'

theorem not_mem_of_mem_splitSlashes {part cs : List Char} (h : part ∈ splitSlashes cs) :
    '/' ∉ part := by
  rw [splitSlashes_eq] at h
  induction cs generalizing part with
  | nil =>
    rw [List.mem_singleton.mp h]
    exact List.not_mem_nil
  | cons c cs ih =>
    rw [List.splitOn_cons_eq_if_modifyHead] at h
    by_cases hSlash : (c == '/') = true
    · rw [if_pos hSlash] at h
      rcases List.mem_cons.mp h with rfl | h
      · exact List.not_mem_nil
      · exact ih h
    · rw [if_neg hSlash] at h
      obtain ⟨first, parts, hParts⟩ := List.exists_cons_of_ne_nil (List.splitOn_ne_nil '/' cs)
      rw [hParts] at h ih
      rcases List.mem_cons.mp h with rfl | h
      · have hFirst : '/' ∉ first := ih List.mem_cons_self
        intro hMem
        rcases List.mem_cons.mp hMem with hHere | hMem
        · exact hSlash (beq_iff_eq.mpr hHere.symm)
        · exact hFirst hMem
      · exact ih (List.mem_cons_of_mem first h)

/-- Names without slashes are the parts of what they are joined to. -/
theorem splitSlashes_intercalate {names : List String} (h : ∀ name ∈ names, '/' ∉ name.toList)
    (hSome : names ≠ []) :
    (splitSlashes (String.intercalate "/" names).toList).map String.ofList = names := by
  have hParts : ∀ part ∈ names.map String.toList, '/' ∉ part := by
    intro part hPart
    obtain ⟨name, hName, rfl⟩ := List.mem_map.mp hPart
    exact h name hName
  rw [splitSlashes_eq, String.toList_intercalate]
  show ((['/'].intercalate (names.map String.toList)).splitOn '/').map String.ofList = names
  rw [List.splitOn_intercalate '/' hParts (by simpa using hSome), List.map_map]
  exact (List.map_congr_left fun name _ => String.ofList_toList).trans (List.map_id names)

/-! ## Files -/

namespace FileTree

variable {tree : FileTree} {place other : Location} {names : List String} {bytes contents : Bytes}

/-- No name of a file or of a directory on the way to it has a slash in it. -/
def HasPlainNames (tree : FileTree) : Prop :=
  ∀ f ∈ tree.files, ∀ name ∈ f.1, '/' ∉ name.toList

theorem plain_placeOf (text : String) : ∀ name ∈ placeOf text, '/' ∉ name.toList := by
  intro name hName
  obtain ⟨part, hPart, rfl⟩ := List.mem_map.mp hName
  rw [String.toList_ofList]
  exact not_mem_of_mem_splitSlashes (List.mem_filter.mp hPart).1

/-- The files of a tree that is put together from texts are at the places that these give. -/
theorem forall_files_ofNamed {P : Location → Prop} {named : List (String × Bytes)}
    (h : ∀ f ∈ named, P (placeOf f.1)) : ∀ f ∈ (ofNamed named).files, P f.1 := by
  unfold ofNamed
  suffices hAll : ∀ given : List (String × Bytes), (∀ f ∈ given, P (placeOf f.1)) →
      ∀ before : List (Location × Bytes), (∀ f ∈ before, P f.1) →
      ∀ f ∈ given.foldl (fun acc f => (acc.filter fun g => g.1 != placeOf f.1) ++ [(placeOf f.1, f.2)])
        before, P f.1 from
    hAll _ (fun f hf => h f (List.mem_filter.mp hf).1) [] fun f hf => absurd hf List.not_mem_nil
  intro given hGiven
  induction given with
  | nil => exact fun before h => h
  | cons g rest ih =>
    intro before hBefore
    obtain ⟨hFirst, hRest⟩ := List.forall_mem_cons.mp hGiven
    apply ih hRest
    intro f hf
    rcases List.mem_append.mp hf with hf | hf
    · exact hBefore f (List.mem_filter.mp hf).1
    · rw [List.mem_singleton.mp hf]
      exact hFirst

/-- All trees that are put together from texts have plain names. -/
theorem hasPlainNames_ofNamed (named : List (String × Bytes)) : (ofNamed named).HasPlainNames :=
  forall_files_ofNamed (P := fun place => ∀ name ∈ place, '/' ∉ name.toList)
    fun f _ => plain_placeOf f.1

theorem isBelow_iff {location : Location} :
    (place.isPrefixOf location && place.length < location.length) = true ↔
      ∃ names, names ≠ [] ∧ place ++ names = location := by
  rw [Bool.and_eq_true, List.isPrefixOf_iff_prefix, decide_eq_true_iff]
  constructor
  · rintro ⟨⟨names, rfl⟩, hLonger⟩
    refine ⟨names, ?_, rfl⟩
    rintro rfl
    simp at hLonger
  · rintro ⟨names, hSome, rfl⟩
    have := List.length_pos_iff.mpr hSome
    rw [List.length_append]
    exact ⟨List.prefix_append place names, by omega⟩

theorem mem_filesBelow :
    (names, contents) ∈ tree.filesBelow place ↔
      names ≠ [] ∧ (place ++ names, contents) ∈ tree.files := by
  unfold filesBelow
  rw [List.mem_map]
  constructor
  · rintro ⟨⟨location, bytes⟩, hFile, hSame⟩
    cases hSame
    obtain ⟨hFile, hBelow⟩ := List.mem_filter.mp hFile
    obtain ⟨names, hSome, rfl⟩ := isBelow_iff.mp hBelow
    rw [List.drop_left]
    exact ⟨hSome, hFile⟩
  · rintro ⟨hSome, hFile⟩
    refine ⟨(place ++ names, contents), List.mem_filter.mpr ⟨hFile, ?_⟩, ?_⟩
    · exact isBelow_iff.mpr ⟨names, hSome, rfl⟩
    · rw [List.drop_left]

theorem mem_of_contents? (h : tree.contents? place = some contents) :
    (place, contents) ∈ tree.files := by
  obtain ⟨f, hFind, rfl⟩ := Option.map_eq_some_iff.mp h
  have hPlace : f.1 = place := by
    simpa using List.find?_some hFind
  rw [← hPlace]
  exact List.mem_of_find?_eq_some hFind

theorem exists_contents? (h : (place, contents) ∈ tree.files) :
    ∃ bytes, tree.contents? place = some bytes := by
  cases hContents : tree.contents? place with
  | some bytes => exact ⟨bytes, rfl⟩
  | none =>
    have hNone := List.find?_eq_none.mp (Option.map_eq_none_iff.mp hContents) _ h
    exact absurd (beq_self_eq_true place) hNone

/-! ## Writing -/

/-- Writing leaves every file at its place. -/
theorem files_write : (tree.write place bytes).files =
    tree.files.map fun f => (f.1, if f.1 == place then bytes else f.2) := by
  unfold write
  apply List.map_congr_left
  intro f _
  by_cases hPlace : (f.1 == place) = true
  · rw [if_pos hPlace, if_pos hPlace, beq_iff_eq.mp hPlace]
  · rw [if_neg hPlace, if_neg hPlace]

theorem places_write : (tree.write place bytes).files.map Prod.fst = tree.files.map Prod.fst := by
  rw [files_write, List.map_map]
  rfl

theorem contents?_write :
    (tree.write place bytes).contents? other =
      (tree.files.find? fun f => f.1 == other).map fun f => if f.1 == place then bytes else f.2 := by
  unfold contents?
  rw [files_write, List.find?_map, Option.map_map]
  rfl

theorem contents?_write_other (h : other ≠ place) :
    (tree.write place bytes).contents? other = tree.contents? other := by
  rw [contents?_write]
  unfold contents?
  cases hFind : tree.files.find? fun f => f.1 == other with
  | none => rfl
  | some f =>
    have hPlace : f.1 = other := by
      simpa using List.find?_some hFind
    rw [Option.map_some, Option.map_some, hPlace, if_neg (by simpa using h)]

theorem contents?_write_self (h : tree.contents? place = some contents) :
    (tree.write place bytes).contents? place = some bytes := by
  obtain ⟨f, hFind, -⟩ := Option.map_eq_some_iff.mp h
  have hPlace : f.1 = place := by
    simpa using List.find?_some hFind
  rw [contents?_write, hFind, Option.map_some, hPlace, if_pos (beq_self_eq_true place)]

end FileTree

end StyleSieve
