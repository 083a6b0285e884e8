import StyleSieve.Proofs.Extractor.Tokens
import StyleSieve.Proofs.FileTree.Places

/-!
# What is in a file tree

* `hasFileNames_ofNamed`: trees that are put together from texts have names of files.
* `mem_below`: what is below a directory is what a location that goes on from it leads to.
* `follow_append`: names are followed one part after the other.
* `follow_names`: names of files lead to the location that they make up.
-/

namespace StyleSieve.FileTree

variable {tree : FileTree} {place rest target : Location} {names : List String}

/-- A name that a file or a directory can have. -/
structure IsFileName (name : String) : Prop where
  nonempty : name ≠ ""
  ne_dot : name ≠ "."
  ne_up : name ≠ ".."
  noSlash : '/' ∉ name.toList

instance (name : String) : Decidable (IsFileName name) :=
  decidable_of_iff (name ≠ "" ∧ name ≠ "." ∧ name ≠ ".." ∧ '/' ∉ name.toList)
    ⟨fun ⟨h, hDot, hUp, hSlash⟩ => ⟨h, hDot, hUp, hSlash⟩,
      fun h => ⟨h.nonempty, h.ne_dot, h.ne_up, h.noSlash⟩⟩

/-- All files and directories have names that they can have. -/
structure HasFileNames (tree : FileTree) : Prop where
  files : ∀ f ∈ tree.files, ∀ name ∈ f.1, IsFileName name
  directories : ∀ d ∈ tree.directories, ∀ name ∈ d, IsFileName name

theorem isFileName_of_mem_placeOf {text name : String} (h : name ∈ placeOf text)
    (hUp : name ≠ "..") : IsFileName name where
  nonempty := by
    rintro rfl
    obtain ⟨part, hPart, hEmpty⟩ := List.mem_map.mp h
    rw [String.ofList_eq_empty_iff.mp hEmpty] at hPart
    simp at hPart
  ne_dot := by
    rintro rfl
    obtain ⟨part, hPart, hDot⟩ := List.mem_map.mp h
    rw [← String.toList_inj, String.toList_ofList] at hDot
    subst hDot
    exact absurd (List.mem_filter.mp hPart).2 (by decide)
  ne_up := hUp
  noSlash := plain_placeOf text name h

/-- Trees that are put together from texts without steps upwards have file names. -/
theorem hasFileNames_ofNamed {named : List (String × Bytes)}
    (h : ∀ f ∈ named, ".." ∉ placeOf f.1) : (ofNamed named).HasFileNames := by
  have hPlaces : ∀ f ∈ named, ∀ name ∈ placeOf f.1, IsFileName name := fun f hf name hName =>
    isFileName_of_mem_placeOf hName fun hUp => h f hf (hUp ▸ hName)
  refine ⟨forall_files_ofNamed (P := fun place => ∀ name ∈ place, IsFileName name) hPlaces, ?_⟩
  intro d hd
  obtain ⟨f, hf, rfl⟩ := List.mem_map.mp hd
  exact hPlaces f (List.mem_filter.mp hf).1

/-! ## Locations -/

theorem mem_parents {p q : Location} : p ∈ parents q ↔ ∃ r, r ≠ [] ∧ p ++ r = q := by
  induction q generalizing p with
  | nil => simp [parents]
  | cons name q ih =>
    rw [parents, List.mem_cons, List.mem_map]
    constructor
    · rintro (rfl | ⟨p, hp, rfl⟩)
      · exact ⟨name :: q, List.cons_ne_nil name q, rfl⟩
      · obtain ⟨r, hr, rfl⟩ := ih.mp hp
        exact ⟨r, hr, rfl⟩
    · rintro ⟨r, hr, hParts⟩
      cases p with
      | nil => exact Or.inl rfl
      | cons first p =>
        rw [List.cons_append, List.cons.injEq] at hParts
        obtain ⟨rfl, hParts⟩ := hParts
        exact Or.inr ⟨p, ih.mpr ⟨r, hr, hParts⟩, rfl⟩

theorem prefix_iff {p q : Location} : p <+: q ↔ q = p ∨ p ∈ parents q := by
  rw [mem_parents]
  constructor
  · rintro ⟨r, rfl⟩
    cases r with
    | nil => exact Or.inl (List.append_nil p)
    | cons name r => exact Or.inr ⟨name :: r, List.cons_ne_nil name r, rfl⟩
  · rintro (rfl | ⟨r, -, hParts⟩)
    · exact List.prefix_rfl
    · exact ⟨r, hParts⟩

theorem isDirectory_iff : tree.isDirectory place = true ↔
    place = [] ∨ (∃ f ∈ tree.files, place ∈ parents f.1) ∨ ∃ d ∈ tree.directories, place <+: d := by
  unfold isDirectory
  simp only [Bool.or_eq_true, List.isEmpty_iff, List.any_eq_true, List.contains_iff_mem,
    beq_iff_eq, prefix_iff, or_assoc]

theorem isDirectory_here : tree.isDirectory [] = true := isDirectory_iff.mpr (Or.inl rfl)

theorem occupied_of_isDirectory (h : tree.isDirectory place = true) :
    tree.occupied place = true := by
  rw [occupied, h, Bool.or_true]

/-- What has something in it is a directory. -/
theorem isDirectory_of_occupied (h : tree.occupied (place ++ rest) = true) (hRest : rest ≠ []) :
    tree.isDirectory place = true := by
  rw [occupied, Bool.or_eq_true, Option.isSome_iff_exists] at h
  refine isDirectory_iff.mpr ?_
  rcases h with ⟨bytes, hBytes⟩ | hDirectory
  · exact Or.inr (Or.inl ⟨_, mem_of_contents? hBytes, mem_parents.mpr ⟨rest, hRest, rfl⟩⟩)
  · rcases isDirectory_iff.mp hDirectory with hNone | ⟨f, hf, hParent⟩ | ⟨d, hd, hPrefix⟩
    · exact absurd (List.append_eq_nil_iff.mp hNone).2 hRest
    · obtain ⟨r, -, hParts⟩ := mem_parents.mp hParent
      refine Or.inr (Or.inl ⟨f, hf, mem_parents.mpr ⟨rest ++ r, ?_, ?_⟩⟩)
      · exact fun h => hRest (List.append_eq_nil_iff.mp h).1
      · rw [← List.append_assoc, hParts]
    · exact Or.inr (Or.inr ⟨d, hd, (List.prefix_append place rest).trans hPrefix⟩)

theorem HasFileNames.of_occupied (h : tree.HasFileNames) (hPlace : tree.occupied place = true) :
    ∀ name ∈ place, IsFileName name := by
  intro name hName
  rw [occupied, Bool.or_eq_true, Option.isSome_iff_exists] at hPlace
  rcases hPlace with ⟨bytes, hBytes⟩ | hDirectory
  · exact h.files _ (mem_of_contents? hBytes) name hName
  · rcases isDirectory_iff.mp hDirectory with rfl | ⟨f, hf, hParent⟩ | ⟨d, hd, hPrefix⟩
    · cases hName
    · obtain ⟨r, -, hParts⟩ := mem_parents.mp hParent
      exact h.files f hf name (hParts ▸ List.mem_append_left r hName)
    · exact h.directories d hd name (hPrefix.subset hName)

theorem mem_allDirectories : place ∈ tree.allDirectories ↔ tree.isDirectory place = true := by
  have hDirectory : ∀ d : Location, place ∈ parents d ++ [d] ↔ place <+: d := by
    intro d
    rw [List.mem_append, List.mem_singleton, prefix_iff, or_comm, eq_comm]
  unfold allDirectories
  rw [mem_dedup, isDirectory_iff]
  simp only [List.cons_append, List.mem_cons, List.mem_append (s := List.flatMap _ _),
    List.mem_flatMap, hDirectory]

theorem mem_entries : place ∈ tree.entries ↔ tree.occupied place = true := by
  rw [entries, List.mem_append, mem_allDirectories, occupied, Bool.or_eq_true, or_comm,
    List.mem_map, Option.isSome_iff_exists]
  refine or_congr_left ⟨?_, ?_⟩
  · rintro ⟨f, hf, rfl⟩
    exact exists_contents? hf
  · rintro ⟨bytes, hBytes⟩
    exact ⟨_, mem_of_contents? hBytes, rfl⟩

theorem mem_below : names ∈ tree.below place ↔
    names ≠ [] ∧ tree.occupied (place ++ names) = true := by
  unfold below
  rw [List.mem_map]
  constructor
  · rintro ⟨e, he, rfl⟩
    obtain ⟨hEntry, hBelow⟩ := List.mem_filter.mp he
    obtain ⟨names, hSome, rfl⟩ := isBelow_iff.mp hBelow
    rw [List.drop_left]
    exact ⟨hSome, mem_entries.mp hEntry⟩
  · rintro ⟨hSome, hOccupied⟩
    refine ⟨place ++ names, List.mem_filter.mpr ⟨mem_entries.mpr hOccupied, ?_⟩, List.drop_left⟩
    exact isBelow_iff.mpr ⟨names, hSome, rfl⟩

/-! ## Names that lead somewhere -/

theorem follow_eq_none (h : tree.occupied place = false) (parts : List (List Char)) :
    tree.follow place parts = none := by
  have hDirectory : tree.isDirectory place = false :=
    Bool.eq_false_iff.mpr fun hDirectory => by
      rw [occupied_of_isDirectory hDirectory] at h
      cases h
  cases parts with
  | nil => rw [follow, h, if_neg Bool.false_ne_true]
  | cons name parts =>
    rw [follow, hDirectory]
    rfl

theorem follow_append (place : Location) (parts more : List (List Char)) :
    tree.follow place (parts ++ more) =
      (tree.follow place parts).bind fun target => tree.follow target more := by
  induction parts generalizing place with
  | nil =>
    rw [List.nil_append, follow]
    cases hOccupied : tree.occupied place with
    | true => rfl
    | false => exact follow_eq_none hOccupied more
  | cons name parts ih =>
    rw [List.cons_append, follow, follow]
    split
    · rfl
    split
    · exact ih place
    split
    · split
      · rfl
      · exact ih place.dropLast
    · exact ih _

theorem follow_nil_eq_some : tree.follow place [] = some target ↔
    tree.occupied place = true ∧ place = target := by
  rw [follow]
  split
  · rename_i hOccupied
    rw [and_iff_right hOccupied, Option.some.injEq]
  · rename_i hVacant
    exact iff_of_false (by simp) fun h => hVacant h.1

/-- Only from a directory does anything lead on. -/
theorem isDirectory_of_follow {name : List Char} {parts : List (List Char)}
    (h : tree.follow place (name :: parts) = some target) : tree.isDirectory place = true := by
  rw [follow] at h
  split at h
  · cases h
  · rename_i hDirectory
    simpa using hDirectory

theorem follow_fileName {name : String} (hName : IsFileName name) (parts : List (List Char)) :
    tree.follow place (name.toList :: parts) =
      if tree.isDirectory place then tree.follow (place ++ [name]) parts else none := by
  have hEmpty : name.toList.isEmpty = false := by
    simpa [List.isEmpty_eq_false_iff] using hName.nonempty
  have hDot : (name.toList == ['.']) = false := by
    refine beq_eq_false_iff_ne.mpr fun h => hName.ne_dot ?_
    rw [← String.toList_inj, h]
    rfl
  have hUp : (name.toList == ['.', '.']) = false := by
    refine beq_eq_false_iff_ne.mpr fun h => hName.ne_up ?_
    rw [← String.toList_inj, h]
    rfl
  rw [follow, hEmpty, hDot, hUp, String.ofList_toList]
  cases tree.isDirectory place <;> rfl

/-- Names of files lead to the location that they make up, if there is anything. -/
theorem follow_names (hNames : ∀ name ∈ names, IsFileName name) :
    tree.follow place (names.map String.toList) = some target ↔
      tree.occupied (place ++ names) = true ∧ place ++ names = target := by
  induction names generalizing place with
  | nil => rw [List.map_nil, follow_nil_eq_some, List.append_nil]
  | cons name names ih =>
    obtain ⟨hName, hNames⟩ := List.forall_mem_cons.mp hNames
    have hParts : place ++ name :: names = place ++ [name] ++ names := by
      rw [List.append_assoc]
      rfl
    rw [List.map_cons, follow_fileName hName, hParts, ← ih hNames]
    split
    · rfl
    · rename_i hNone
      refine iff_of_false (by simp) fun h => ?_
      have hOccupied := ((ih hNames).mp h).1
      rw [← hParts] at hOccupied
      exact hNone (isDirectory_of_occupied hOccupied (List.cons_ne_nil name names))

end StyleSieve.FileTree
