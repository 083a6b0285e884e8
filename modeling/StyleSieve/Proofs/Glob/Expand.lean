import StyleSieve.Proofs.Glob.Names

/-!
# What a pattern finds

A pattern is a path of names in which wildcards may stand. `Fits` says name by name which paths fit,
and without looking at any files.

* `mem_expand_iff`: a pattern finds exactly the paths that fit it and lead somewhere.
-/

namespace StyleSieve.Glob

open FileTree (IsFileName)

variable {tree : FileTree} {directoriesOnly : Bool} {pattern : String}
  {patterns names part : List String} {directory path : List Char}

/-! ## Fitting names -/

/-- The names that one name of a pattern stands for. -/
inductive StandsFor : String → List String → Prop where
  | itself {pattern : String} (plain : Wildcard.hasWildcard pattern.toList = false) :
      StandsFor pattern [pattern]
  | anyDepth {names : List String} (names_ok : ∀ name ∈ names, IsFileName name)
      (shown : ∀ name ∈ names, isHidden name.toList = false) : StandsFor "**" names
  | fitting {pattern name : String} (wild : Wildcard.hasWildcard pattern.toList = true)
      (single : pattern ≠ "**") (name_ok : IsFileName name)
      (shown : isHidden pattern.toList = true ∨ isHidden name.toList = false)
      (fits : Wildcard.matchesText pattern.toList name.toList = true) : StandsFor pattern [name]

/-- The names that stand for those of a pattern, one after the other. -/
inductive Fits : List String → List String → Prop where
  | nil : Fits [] []
  | cons {pattern : String} {patterns part names : List String} (first : StandsFor pattern part)
      (rest : Fits patterns names) : Fits (pattern :: patterns) (part ++ names)

theorem StandsFor.isName (h : StandsFor pattern part) (hPattern : IsName pattern) :
    ∀ name ∈ part, IsName name := by
  intro name hName
  cases h with
  | itself plain => exact List.mem_singleton.mp hName ▸ hPattern
  | anyDepth names_ok shown => exact (names_ok name hName).isName
  | fitting wild single name_ok shown fits => exact List.mem_singleton.mp hName ▸ name_ok.isName

theorem StandsFor.ne_nil (h : StandsFor pattern part) (hSingle : pattern ≠ "**") : part ≠ [] := by
  cases h with
  | itself plain => exact List.cons_ne_nil pattern []
  | anyDepth names_ok shown => exact absurd rfl hSingle
  | @fitting _ name wild single name_ok shown fits => exact List.cons_ne_nil name []

theorem Fits.isName (h : Fits patterns names) (hPatterns : ∀ p ∈ patterns, IsName p) :
    ∀ name ∈ names, IsName name := by
  induction h with
  | nil => exact hPatterns
  | cons first rest ih =>
    obtain ⟨hFirst, hRest⟩ := List.forall_mem_cons.mp hPatterns
    exact List.forall_mem_append.mpr ⟨first.isName hFirst, ih hRest⟩

theorem fits_singleton_iff : Fits [pattern] names ↔ StandsFor pattern names := by
  constructor
  · rintro (_ | ⟨first, _ | _⟩)
    rw [List.append_nil]
    exact first
  · intro h
    rw [← List.append_nil names]
    exact .cons h .nil

/-- Where a pattern goes on, so do the names. -/
theorem fits_append_iff {more : List String} : Fits (patterns ++ more) names ↔
    ∃ front rest, names = front ++ rest ∧ Fits patterns front ∧ Fits more rest := by
  induction patterns generalizing names with
  | nil =>
    constructor
    · exact fun h => ⟨[], names, rfl, .nil, h⟩
    · rintro ⟨front, rest, rfl, _ | _, h⟩
      exact h
  | cons pattern patterns ih =>
    constructor
    · rintro (_ | @⟨_, _, part, _, first, h⟩)
      obtain ⟨front, rest, rfl, hFront, hRest⟩ := ih.mp h
      exact ⟨part ++ front, rest, by rw [List.append_assoc], .cons first hFront, hRest⟩
    · rintro ⟨front, rest, rfl, _ | @⟨_, _, part, front, first, hFront⟩, hRest⟩
      rw [List.append_assoc]
      exact .cons first (ih.mpr ⟨front, rest, rfl, hFront, hRest⟩)

theorem fits_concat_iff : Fits (patterns ++ [pattern]) names ↔
    ∃ front part, names = front ++ part ∧ Fits patterns front ∧ StandsFor pattern part := by
  simp only [fits_append_iff, fits_singleton_iff]

/-- A name without wildcards stands for itself. -/
theorem standsFor_plain_iff (h : Wildcard.hasWildcard pattern.toList = false) :
    StandsFor pattern part ↔ part = [pattern] := by
  constructor
  · rintro (plain | ⟨names_ok, shown⟩ | ⟨wild, single, name_ok, shown, fits⟩)
    · rfl
    · cases h
    · cases wild.symm.trans h
  · rintro rfl
    exact .itself h

theorem standsFor_anyDepth_iff : StandsFor "**" part ↔
    ∀ name ∈ part, IsFileName name ∧ isHidden name.toList = false := by
  constructor
  · intro h
    generalize hAny : "**" = pattern at h
    cases h with
    | itself plain =>
      rw [← hAny] at plain
      exact absurd plain (by decide)
    | anyDepth names_ok shown => exact fun name hName => ⟨names_ok name hName, shown name hName⟩
    | fitting wild single name_ok shown fits => exact absurd hAny.symm single
  · exact fun h => .anyDepth (fun name hName => (h name hName).1) fun name hName => (h name hName).2

/-- A name with a wildcard in it stands for single names, but for the one that stands for any
number. -/
theorem standsFor_wild_iff (hWild : Wildcard.hasWildcard pattern.toList = true)
    (hSingle : pattern ≠ "**") : StandsFor pattern part ↔
      ∃ name, part = [name] ∧ IsFileName name ∧
        (isHidden pattern.toList = true ∨ isHidden name.toList = false) ∧
        Wildcard.matchesText pattern.toList name.toList = true := by
  constructor
  · intro h
    cases h with
    | itself plain => exact absurd plain (by simp [hWild])
    | anyDepth names_ok shown => exact absurd rfl hSingle
    | @fitting _ name wild single name_ok shown fits => exact ⟨name, rfl, name_ok, shown, fits⟩
  · rintro ⟨name, rfl, hName, hShown, hFits⟩
    exact .fitting hWild hSingle hName hShown hFits

/-- A path without wildcards fits itself and nothing else. -/
theorem fits_plain_iff (h : ∀ p ∈ patterns, Wildcard.hasWildcard p.toList = false) :
    Fits patterns names ↔ names = patterns := by
  induction patterns generalizing names with
  | nil =>
    constructor
    · rintro ⟨⟩
      rfl
    · rintro rfl
      exact .nil
  | cons pattern patterns ih =>
    obtain ⟨hPattern, hPatterns⟩ := List.forall_mem_cons.mp h
    constructor
    · rintro (_ | ⟨first, rest⟩)
      rw [(standsFor_plain_iff hPattern).mp first, (ih hPatterns).mp rest, List.singleton_append]
    · rintro rfl
      exact .cons (.itself hPattern) ((ih hPatterns).mpr rfl)

/-! ## The last name -/

/-- Whether names lead on from a directory, to another one if only directories count. -/
def LeadsOn (tree : FileTree) (directoriesOnly : Bool) (directory : List Char) (part : List String) :
    Prop :=
  ∃ place, directoryAt tree directory = some place ∧ tree.occupied (place ++ part) = true ∧
    (directoriesOnly = true → tree.isDirectory (place ++ part) = true)

theorem isDirectory_of_directoryAt {place : Location} (h : directoryAt tree directory = some place) :
    tree.isDirectory place = true := by
  by_cases hHere : directory = []
  · subst hHere
    cases h
    exact FileTree.isDirectory_here
  · rw [directoryAt_eq hHere, Option.filter_eq_some_iff] at h
    exact h.2

theorem leadsOn_nil_iff :
    LeadsOn tree directoriesOnly directory [] ↔ (directoryAt tree directory).isSome = true := by
  rw [Option.isSome_iff_exists]
  refine exists_congr fun place => and_iff_left_of_imp fun hPlace => ?_
  rw [List.append_nil]
  have hDirectory := isDirectory_of_directoryAt hPlace
  exact ⟨FileTree.occupied_of_isDirectory hDirectory, fun _ => hDirectory⟩

theorem mem_listing : part ∈ listing tree directoriesOnly directory ↔
    part ≠ [] ∧ LeadsOn tree directoriesOnly directory part := by
  unfold listing LeadsOn
  cases directoryAt tree directory with
  | none => simp
  | some place => cases directoriesOnly <;> simp [FileTree.mem_below, and_assoc]

theorem mem_everything : path ∈ everything tree directoriesOnly directory ↔
    ∃ part, (∀ name ∈ part, isHidden name.toList = false) ∧
      LeadsOn tree directoriesOnly directory part ∧ spelled part = path := by
  have hOwn : path ∈ (if (directoryAt tree directory).isSome then [[]] else []) ↔
      LeadsOn tree directoriesOnly directory [] ∧ path = [] := by
    rw [leadsOn_nil_iff]
    split <;> simp [*]
  unfold everything
  rw [List.mem_append, hOwn, List.mem_map]
  simp only [List.mem_filter, mem_listing, Bool.not_eq_true', List.any_eq_false,
    Bool.not_eq_true]
  constructor
  · rintro (⟨hLeads, rfl⟩ | ⟨part, ⟨⟨-, hLeads⟩, hShown⟩, rfl⟩)
    · exact ⟨[], fun name hName => absurd hName List.not_mem_nil, hLeads, rfl⟩
    · exact ⟨part, hShown, hLeads, rfl⟩
  · rintro ⟨part, hShown, hLeads, rfl⟩
    by_cases hNone : part = []
    · subst hNone
      exact Or.inl ⟨hLeads, rfl⟩
    · exact Or.inr ⟨part, ⟨⟨hNone, hLeads⟩, hShown⟩, rfl⟩

theorem mem_fitting : path ∈ fitting tree directoriesOnly directory pattern.toList ↔
    ∃ name, (isHidden pattern.toList = true ∨ isHidden name.toList = false) ∧
      Wildcard.matchesText pattern.toList name.toList = true ∧
      LeadsOn tree directoriesOnly directory [name] ∧ name.toList = path := by
  unfold fitting
  rw [List.mem_filterMap]
  constructor
  · rintro ⟨part, hPart, hFits⟩
    obtain ⟨-, hLeads⟩ := mem_listing.mp hPart
    split at hFits
    · rename_i name
      dsimp only at hFits
      split at hFits
      · rename_i hHere
        cases hFits
        rw [Bool.and_eq_true, Bool.or_eq_true, Bool.not_eq_true'] at hHere
        exact ⟨name, hHere.1, hHere.2, hLeads, rfl⟩
      · cases hFits
    · cases hFits
  · rintro ⟨name, hShown, hFits, hLeads, rfl⟩
    refine ⟨[name], mem_listing.mpr ⟨List.cons_ne_nil name [], hLeads⟩, ?_⟩
    dsimp only
    rw [if_pos]
    rw [Bool.and_eq_true, Bool.or_eq_true, Bool.not_eq_true']
    exact ⟨hShown, hFits⟩

theorem mem_exactly (hPattern : IsName pattern) (hNames : ∀ name ∈ names, IsName name)
    (hSpells : Spells directory names) :
    path ∈ exactly tree directory pattern.toList ↔
      (tree.follow [] ((names ++ [pattern]).map String.toList)).isSome = true ∧
        pattern.toList = path := by
  have hAll : ∀ name ∈ names ++ [pattern], IsName name :=
    List.forall_mem_append.mpr ⟨hNames, List.forall_mem_singleton.mpr hPattern⟩
  have hJoin := join_of_spells hNames hSpells (List.cons_ne_nil pattern [])
  rw [spelled_singleton] at hJoin
  unfold exactly
  rw [if_neg (by simpa using hPattern.nonempty), hJoin,
    locate_spelled hAll (by simp)]
  split
  · rename_i hThere
    rw [List.mem_singleton, and_iff_right hThere, eq_comm]
  · rename_i hNone
    exact iff_of_false List.not_mem_nil fun h => hNone h.1

theorem leadsOn_iff (hNames : ∀ name ∈ names, IsName name) (hSpells : Spells directory names)
    (hPart : ∀ name ∈ part, IsFileName name) :
    LeadsOn tree directoriesOnly directory part ↔
      ∃ place, (tree.follow [] (names.map String.toList) = some place ∧
        tree.isDirectory place = true) ∧
        ∃ target, tree.follow place (part.map String.toList) = some target ∧
          (directoriesOnly = true → tree.isDirectory target = true) := by
  unfold LeadsOn
  rw [directoryAt_of_spells hNames hSpells]
  simp only [Option.filter_eq_some_iff, FileTree.follow_names hPart]
  refine exists_congr fun place => and_congr_right fun _ => ?_
  constructor
  · rintro ⟨hOccupied, hDirectory⟩
    exact ⟨_, ⟨hOccupied, rfl⟩, hDirectory⟩
  · rintro ⟨_, ⟨hOccupied, rfl⟩, hDirectory⟩
    exact ⟨hOccupied, hDirectory⟩

/-- What the last name of a pattern finds in a directory stands for it, and is there. -/
theorem of_mem_inDirectory (hTree : tree.HasFileNames) (hNames : ∀ name ∈ names, IsName name)
    (hPattern : IsName pattern) (hSpells : Spells directory names)
    (h : path ∈ inDirectory tree directoriesOnly directory pattern.toList) :
    ∃ part, StandsFor pattern part ∧ spelled part = path ∧
      (tree.follow [] ((names ++ part).map String.toList)).isSome = true := by
  have hThere : ∀ part, LeadsOn tree directoriesOnly directory part →
      (∀ name ∈ part, IsFileName name) ∧
        (tree.follow [] ((names ++ part).map String.toList)).isSome = true := by
    intro part hLeads
    have hPart : ∀ name ∈ part, IsFileName name := by
      obtain ⟨place, -, hOccupied, -⟩ := hLeads
      exact fun name hName => hTree.of_occupied hOccupied name (List.mem_append_right place hName)
    obtain ⟨place, ⟨hPlace, -⟩, target, hTarget, -⟩ := (leadsOn_iff hNames hSpells hPart).mp hLeads
    refine ⟨hPart, ?_⟩
    rw [List.map_append, FileTree.follow_append, hPlace, Option.bind_some, hTarget]
    rfl
  unfold inDirectory at h
  split at h
  · rename_i hPlain
    obtain ⟨hFollow, rfl⟩ := (mem_exactly hPattern hNames hSpells).mp h
    exact ⟨[pattern], .itself (by simpa using hPlain), spelled_singleton pattern, hFollow⟩
  · rename_i hWild
    split at h
    · rename_i hAny
      rw [beq_iff_eq] at hAny
      obtain ⟨part, hShown, hLeads, rfl⟩ := mem_everything.mp h
      obtain rfl : pattern = "**" := String.toList_inj.mp hAny
      exact ⟨part, .anyDepth (hThere part hLeads).1 hShown, rfl, (hThere part hLeads).2⟩
    · rename_i hSingle
      obtain ⟨name, hShown, hFits, hLeads, rfl⟩ := mem_fitting.mp h
      obtain ⟨hPart, hFollow⟩ := hThere [name] hLeads
      have hSingle : pattern ≠ "**" := fun hAny => hSingle (by rw [hAny]; rfl)
      exact ⟨[name], .fitting (by simpa using hWild) hSingle (hPart name List.mem_cons_self) hShown
        hFits, spelled_singleton name, hFollow⟩

/-- What stands for the last name of a pattern, and is there, is found in a directory. -/
theorem mem_inDirectory (hPattern : IsName pattern) (hNames : ∀ name ∈ names, IsName name)
    (hSpells : Spells directory names) (h : StandsFor pattern part) {place target : Location}
    (hPlace : tree.follow [] (names.map String.toList) = some place)
    (hStart : tree.isDirectory place = true)
    (hTarget : tree.follow place (part.map String.toList) = some target)
    (hDirectory : directoriesOnly = true → tree.isDirectory target = true) :
    spelled part ∈ inDirectory tree directoriesOnly directory pattern.toList := by
  unfold inDirectory
  cases h with
  | itself plain =>
    rw [if_pos (by simpa using plain), spelled_singleton]
    refine (mem_exactly hPattern hNames hSpells).mpr ⟨?_, rfl⟩
    rw [List.map_append, FileTree.follow_append, hPlace, Option.bind_some, hTarget]
    rfl
  | anyDepth names_ok shown =>
    rw [if_neg (by decide), if_pos (by decide)]
    exact mem_everything.mpr ⟨part, shown, (leadsOn_iff hNames hSpells names_ok).mpr
      ⟨place, ⟨hPlace, hStart⟩, target, hTarget, hDirectory⟩, rfl⟩
  | @fitting _ name wild single name_ok shown fits =>
    have hSingle : (pattern.toList == anyDepth) = false :=
      beq_eq_false_iff_ne.mpr fun hAny => single (String.toList_inj.mp hAny)
    rw [if_neg (by simpa using wild), hSingle, if_neg Bool.false_ne_true, spelled_singleton]
    exact mem_fitting.mpr ⟨name, shown, fits, (leadsOn_iff hNames hSpells
      (List.forall_mem_singleton.mpr name_ok)).mpr
      ⟨place, ⟨hPlace, hStart⟩, target, hTarget, hDirectory⟩, rfl⟩

/-! ## Directories on the way -/

/-- The directories in which the last name of a pattern is looked for. -/
def directoriesOf (tree : FileTree) (patterns : List String) : List (List Char) :=
  if Wildcard.hasWildcard (spelled patterns) then expand tree true (spelled patterns)
  else [spelled patterns]

/-- A pattern finds what its last name finds in the directories that the others find. -/
theorem expand_concat (hPatterns : ∀ p ∈ patterns, IsName p) (hPattern : IsName pattern)
    (hWild : Wildcard.hasWildcard (spelled (patterns ++ [pattern])) = true) :
    expand tree directoriesOnly (spelled (patterns ++ [pattern])) =
      (directoriesOf tree patterns).flatMap fun directory =>
        (inDirectory tree directoriesOnly directory pattern.toList).map (join directory) := by
  rw [expand]
  simp only [splitName_spelled hPatterns hPattern, hWild]
  by_cases hNone : patterns = []
  · subst hNone
    have hHere : (fun found => join [] found) = id := rfl
    simp [directoriesOf, Wildcard.hasWildcard, hHere]
  · have hShorter : (spelled patterns).length < (spelled (patterns ++ [pattern])).length := by
      rw [spelled_append hNone (List.cons_ne_nil _ _), List.length_append, List.length_cons]
      omega
    rw [if_neg (by decide), if_neg (by simpa using spelled_ne_nil hPatterns hNone)]
    simp only [directoriesOf, hShorter, true_and, dite_eq_ite]

theorem mem_expand_concat (hPatterns : ∀ p ∈ patterns, IsName p) (hPattern : IsName pattern)
    (hWild : Wildcard.hasWildcard (spelled (patterns ++ [pattern])) = true) :
    path ∈ expand tree directoriesOnly (spelled (patterns ++ [pattern])) ↔
      ∃ directory ∈ directoriesOf tree patterns,
        ∃ found ∈ inDirectory tree directoriesOnly directory pattern.toList,
          join directory found = path := by
  simp only [expand_concat hPatterns hPattern hWild, List.mem_flatMap, List.mem_map]

theorem forall_plain_of_spelled (h : Wildcard.hasWildcard (spelled patterns) = false) :
    ∀ p ∈ patterns, Wildcard.hasWildcard p.toList = false := by
  rw [hasWildcard_spelled, List.any_eq_false] at h
  simpa using h

theorem spells_of_mem_directoriesOf (hTree : tree.HasFileNames)
    (hPatterns : ∀ p ∈ patterns, IsName p) (h : directory ∈ directoriesOf tree patterns) :
    ∃ names, Spells directory names ∧ Fits patterns names := by
  induction patterns using List.reverseRecOn generalizing directory with
  | nil =>
    rw [List.mem_singleton.mp h]
    exact ⟨[], Or.inl rfl, .nil⟩
  | append_singleton patterns pattern ih =>
    obtain ⟨hFront, hPattern⟩ := List.forall_mem_append.mp hPatterns
    have hPattern := hPattern pattern List.mem_cons_self
    unfold directoriesOf at h
    split at h
    · rename_i hWild
      obtain ⟨start, hStart, found, hFound, rfl⟩ := (mem_expand_concat hFront hPattern hWild).mp h
      obtain ⟨names, hSpells, hFits⟩ := ih hFront hStart
      have hNames := hFits.isName hFront
      obtain ⟨part, hPart, rfl, -⟩ := of_mem_inDirectory hTree hNames hPattern hSpells hFound
      exact ⟨names ++ part, spells_join hNames hSpells part,
        fits_concat_iff.mpr ⟨names, part, rfl, hFits, hPart⟩⟩
    · rename_i hPlain
      rw [List.mem_singleton.mp h]
      have hPlain := forall_plain_of_spelled (Bool.eq_false_iff.mpr hPlain)
      exact ⟨_, Or.inl rfl, (fits_plain_iff hPlain).mpr rfl⟩

/-- Every directory whose names fit is found. -/
theorem exists_directoriesOf (hPatterns : ∀ p ∈ patterns, IsName p) (h : Fits patterns names)
    {place : Location} (hPlace : tree.follow [] (names.map String.toList) = some place)
    (hDirectory : tree.isDirectory place = true) :
    ∃ directory ∈ directoriesOf tree patterns, Spells directory names := by
  induction patterns using List.reverseRecOn generalizing names place with
  | nil =>
    cases h
    exact ⟨[], List.mem_singleton.mpr rfl, Or.inl rfl⟩
  | append_singleton patterns pattern ih =>
    obtain ⟨hFront, hPattern⟩ := List.forall_mem_append.mp hPatterns
    have hPattern := hPattern pattern List.mem_cons_self
    unfold directoriesOf
    split
    · rename_i hWild
      obtain ⟨front, part, rfl, hFits, hPart⟩ := fits_concat_iff.mp h
      rw [List.map_append, FileTree.follow_append, Option.bind_eq_some_iff] at hPlace
      obtain ⟨start, hStart, hTarget⟩ := hPlace
      have hStartDirectory : tree.isDirectory start = true := by
        cases part with
        | nil => exact (FileTree.follow_nil_eq_some.mp hTarget).2 ▸ hDirectory
        | cons name part => exact FileTree.isDirectory_of_follow hTarget
      obtain ⟨directory, hFound, hSpells⟩ := ih hFront hFits hStart hStartDirectory
      have hNames := hFits.isName hFront
      refine ⟨join directory (spelled part), (mem_expand_concat hFront hPattern hWild).mpr
        ⟨directory, hFound, spelled part, ?_, rfl⟩, spells_join hNames hSpells part⟩
      exact mem_inDirectory hPattern hNames hSpells hPart hStart hStartDirectory hTarget
        fun _ => hDirectory
    · rename_i hPlain
      have hPlain := forall_plain_of_spelled (Bool.eq_false_iff.mpr hPlain)
      rw [(fits_plain_iff hPlain).mp h]
      exact ⟨_, List.mem_singleton.mpr rfl, Or.inl rfl⟩

/-! ## Paths -/

theorem expand_plain (hPatterns : ∀ p ∈ patterns, IsName p) (hPattern : IsName pattern)
    (hPlain : Wildcard.hasWildcard (spelled (patterns ++ [pattern])) = false) :
    path ∈ expand tree directoriesOnly (spelled (patterns ++ [pattern])) ↔
      path = spelled (patterns ++ [pattern]) ∧
        (tree.locate (spelled (patterns ++ [pattern]))).isSome = true := by
  rw [expand]
  simp only [splitName_spelled hPatterns hPattern, hPlain]
  have hSome : pattern.toList.isEmpty = false := by simpa using hPattern.nonempty
  rw [if_pos (by decide), hSome, if_neg Bool.false_ne_true]
  split <;> simp [*]

/-- A pattern whose last name does not stand for any number of names finds exactly the paths that
fit it and lead somewhere. -/
theorem mem_expand_iff (hTree : tree.HasFileNames) (hPatterns : ∀ p ∈ patterns, IsName p)
    (hPattern : IsName pattern) (hSingle : pattern ≠ "**") :
    path ∈ expand tree false (spelled (patterns ++ [pattern])) ↔
      ∃ names, Fits (patterns ++ [pattern]) names ∧ spelled names = path ∧
        (tree.follow [] (names.map String.toList)).isSome = true := by
  have hAll : ∀ p ∈ patterns ++ [pattern], IsName p :=
    List.forall_mem_append.mpr ⟨hPatterns, List.forall_mem_singleton.mpr hPattern⟩
  cases hWild : Wildcard.hasWildcard (spelled (patterns ++ [pattern])) with
  | false =>
    rw [expand_plain hPatterns hPattern hWild, locate_spelled hAll (by simp)]
    simp only [fits_plain_iff (forall_plain_of_spelled hWild)]
    constructor
    · rintro ⟨rfl, hThere⟩
      exact ⟨_, rfl, rfl, hThere⟩
    · rintro ⟨_, rfl, rfl, hThere⟩
      exact ⟨rfl, hThere⟩
  | true =>
    rw [mem_expand_concat hPatterns hPattern hWild]
    constructor
    · rintro ⟨directory, hDirectory, found, hFound, rfl⟩
      obtain ⟨front, hSpells, hFits⟩ := spells_of_mem_directoriesOf hTree hPatterns hDirectory
      have hFront := hFits.isName hPatterns
      obtain ⟨part, hPart, rfl, hThere⟩ := of_mem_inDirectory hTree hFront hPattern hSpells hFound
      have hSome := hPart.ne_nil hSingle
      exact ⟨front ++ part, fits_concat_iff.mpr ⟨front, part, rfl, hFits, hPart⟩,
        (join_of_spells hFront hSpells hSome).symm, hThere⟩
    · rintro ⟨names, hAllFit, rfl, hThere⟩
      obtain ⟨front, part, rfl, hFits, hPart⟩ := fits_concat_iff.mp hAllFit
      obtain ⟨target, hThere⟩ := Option.isSome_iff_exists.mp hThere
      rw [List.map_append, FileTree.follow_append, Option.bind_eq_some_iff] at hThere
      obtain ⟨start, hStart, hTarget⟩ := hThere
      have hSome := hPart.ne_nil hSingle
      obtain ⟨name, more, rfl⟩ := List.exists_cons_of_ne_nil hSome
      have hStartDirectory := FileTree.isDirectory_of_follow hTarget
      obtain ⟨directory, hFound, hSpells⟩ :=
        exists_directoriesOf hPatterns hFits hStart hStartDirectory
      have hFront := hFits.isName hPatterns
      exact ⟨directory, hFound, spelled (name :: more), mem_inDirectory hPattern hFront hSpells hPart
        hStart hStartDirectory hTarget (fun h => absurd h Bool.false_ne_true),
        join_of_spells hFront hSpells hSome⟩

end StyleSieve.Glob
