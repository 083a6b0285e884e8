import StyleSieve.Glob
import StyleSieve.Proofs.FileTree.Lookup

/-!
# Names in paths

A path is written as its names with slashes between them. A directory may have one more slash at its
end.

* `splitName_spelled`: the last name of a path can be cut off.
* `join_of_spells`: what is joined to a directory is spelled by the names of both.
* `directoryAt_of_spells`: which directory the names of a path lead to.
-/

namespace StyleSieve

/-- A name that can be told from its neighbours in a path. -/
structure Glob.IsName (name : String) : Prop where
  nonempty : name ≠ ""
  noSlash : '/' ∉ name.toList

theorem FileTree.IsFileName.isName {name : String} (h : IsFileName name) : Glob.IsName name :=
  ⟨h.nonempty, h.noSlash⟩

namespace Glob

variable {tree : FileTree} {names more : List String} {directory : List Char} {name : String}

theorem IsName.toList_ne_nil (h : IsName name) : name.toList ≠ [] :=
  fun hNil => h.nonempty (String.toList_eq_nil_iff.mp hNil)

theorem IsName.ne_slash (h : IsName name) : ∀ c ∈ name.toList.reverse, (c != '/') = true := by
  intro c hc
  rw [bne_iff_ne]
  rintro rfl
  exact h.noSlash (List.mem_reverse.mp hc)

/-! ## Spelling -/

/-- The text of a path of names. -/
def spelled (names : List String) : List Char := (String.intercalate "/" names).toList

@[simp] theorem spelled_nil : spelled [] = [] := rfl

@[simp] theorem spelled_singleton (name : String) : spelled [name] = name.toList := by
  rw [spelled, String.intercalate_singleton]

theorem spelled_append (h : names ≠ []) (hMore : more ≠ []) :
    spelled (names ++ more) = spelled names ++ '/' :: spelled more := by
  rw [spelled, String.intercalate_append_of_ne_nil h hMore, String.toList_append,
    String.toList_append, List.append_assoc]
  rfl

theorem splitSlashes_spelled (h : ∀ name ∈ names, '/' ∉ name.toList) (hSome : names ≠ []) :
    splitSlashes (spelled names) = names.map String.toList := by
  have hNames := congrArg (List.map String.toList) (splitSlashes_intercalate h hSome)
  rw [List.map_map] at hNames
  exact (List.map_id'' (fun _ => String.toList_ofList) _).symm.trans hNames

/-- The text of some names has a character in front, and it is no slash. -/
theorem exists_spelled_cons (hName : IsName name) (names : List String) :
    ∃ c cs, spelled (name :: names) = c :: cs ∧ c ≠ '/' := by
  obtain ⟨c, cs, hChars⟩ := List.exists_cons_of_ne_nil hName.toList_ne_nil
  have hFirst : c ≠ '/' := fun h => hName.noSlash (by rw [hChars, h]; exact List.mem_cons_self)
  cases names with
  | nil => exact ⟨c, cs, by rw [spelled_singleton, hChars], hFirst⟩
  | cons next rest =>
    refine ⟨c, cs ++ '/' :: spelled (next :: rest), ?_, hFirst⟩
    rw [← List.singleton_append, spelled_append (List.cons_ne_nil _ _) (List.cons_ne_nil _ _),
      spelled_singleton, hChars]
    rfl

theorem spelled_ne_nil (h : ∀ name ∈ names, IsName name) (hSome : names ≠ []) :
    spelled names ≠ [] := by
  obtain ⟨first, rest, rfl⟩ := List.exists_cons_of_ne_nil hSome
  obtain ⟨c, cs, hChars, -⟩ := exists_spelled_cons (h first List.mem_cons_self) rest
  rw [hChars]
  exact List.cons_ne_nil c cs

theorem getLast?_spelled (h : ∀ name ∈ names, IsName name) : (spelled names).getLast? ≠ some '/' := by
  intro hLast
  rcases List.eq_nil_or_concat' names with rfl | ⟨front, name, rfl⟩
  · cases hLast
  · have hName := h name (List.mem_append_right front List.mem_cons_self)
    have hOwn : (spelled (front ++ [name])).getLast? = name.toList.getLast? := by
      cases front with
      | nil => rw [List.nil_append, spelled_singleton]
      | cons first front =>
        rw [spelled_append (List.cons_ne_nil _ _) (List.cons_ne_nil _ _), spelled_singleton,
          List.getLast?_append, List.getLast?_cons_of_ne_nil hName.toList_ne_nil]
        cases hChars : name.toList.getLast? with
        | none => exact absurd (List.getLast?_eq_none_iff.mp hChars) hName.toList_ne_nil
        | some c => rfl
    rw [hOwn] at hLast
    exact hName.noSlash (List.mem_of_getLast? hLast)

theorem spelled_injective (h : ∀ name ∈ names, IsName name) (hMore : ∀ name ∈ more, IsName name)
    (hSame : spelled names = spelled more) : names = more := by
  by_cases hNames : names = []
  · by_contra hOther
    rw [hNames, spelled_nil] at hSame
    exact spelled_ne_nil hMore (fun hNone => hOther (hNames.trans hNone.symm)) hSame.symm
  · have hSome : more ≠ [] := by
      rintro rfl
      exact spelled_ne_nil h hNames hSame
    have hParts := congrArg splitSlashes hSame
    rw [splitSlashes_spelled (fun name hName => (h name hName).noSlash) hNames,
      splitSlashes_spelled (fun name hName => (hMore name hName).noSlash) hSome] at hParts
    exact List.map_injective_iff.mpr (fun _ _ => String.toList_inj.mp) hParts

/-! ## The last name -/

/-- A name ends where the slash in front of it stands. -/
theorem splitName_append {front : List Char} (hFront : front ≠ []) (hLast : front.getLast? ≠ some '/')
    (hName : IsName name) : splitName (front ++ '/' :: name.toList) = (front, name.toList) := by
  have hOwn : ((front ++ '/' :: name.toList).reverse.takeWhile (· != '/')).reverse = name.toList := by
    rw [List.reverse_append, List.reverse_cons, List.append_assoc,
      List.takeWhile_append_of_pos hName.ne_slash]
    simp
  have hRest : (front ++ '/' :: name.toList).take
      ((front ++ '/' :: name.toList).length - name.toList.length) = front ++ ['/'] := by
    rw [List.append_cons, List.length_append, Nat.add_sub_cancel, List.take_left]
  have hBare : ((front ++ ['/']).reverse.dropWhile (· == '/')).reverse = front := by
    have hEnd : ∀ h : front ≠ [], ¬(front.getLast h == '/') = true := by
      intro h hSlash
      exact hLast (by rw [List.getLast?_eq_some_getLast h, eq_of_beq hSlash])
    exact (List.rdropWhile_concat_pos (· == '/') front '/' rfl).trans
      (List.rdropWhile_eq_self_iff.mpr hEnd)
  unfold splitName
  simp only [hOwn, hRest, hBare]
  rw [if_neg (by simpa using hFront)]

/-- The last name of a path can be cut off. -/
theorem splitName_spelled (h : ∀ name ∈ names, IsName name) (hName : IsName name) :
    splitName (spelled (names ++ [name])) = (spelled names, name.toList) := by
  by_cases hNames : names = []
  · subst hNames
    unfold splitName
    simp only [List.nil_append, spelled_singleton, List.takeWhile_eq_self_iff.mpr hName.ne_slash]
    simp
  · rw [spelled_append hNames (List.cons_ne_nil _ _), spelled_singleton]
    exact splitName_append (spelled_ne_nil h hNames) (getLast?_spelled h) hName

/-- There is a wildcard in a path just if there is one in one of its names. -/
theorem hasWildcard_spelled (names : List String) :
    Wildcard.hasWildcard (spelled names) = names.any fun name => Wildcard.hasWildcard name.toList := by
  induction names with
  | nil => rfl
  | cons name names ih =>
    cases names with
    | nil => rw [spelled_singleton, List.any_cons, List.any_nil, Bool.or_false]
    | cons next rest =>
      rw [← List.singleton_append, spelled_append (List.cons_ne_nil _ _) (List.cons_ne_nil _ _),
        List.any_append, ← ih, spelled_singleton]
      simp [Wildcard.hasWildcard]

/-! ## Directories -/

/-- What names are spelled, maybe with a slash behind them. -/
def Spells (directory : List Char) (names : List String) : Prop :=
  directory = spelled names ∨ names ≠ [] ∧ directory = spelled (names ++ [""])

theorem join_eq_of_spells (h : ∀ name ∈ names, IsName name) (hSpells : Spells directory names)
    (hNames : names ≠ []) (path : List Char) : join directory path = spelled names ++ '/' :: path := by
  obtain rfl | ⟨-, rfl⟩ := hSpells
  · have hSome : (spelled names).isEmpty = false :=
      List.isEmpty_eq_false_iff.mpr (spelled_ne_nil h hNames)
    have hLast : ((spelled names).getLast? == some '/') = false :=
      beq_eq_false_iff_ne.mpr (getLast?_spelled h)
    rw [join, hSome, hLast]
    rfl
  · rw [spelled_append hNames (List.cons_ne_nil _ _), spelled_singleton, join]
    simp

theorem eq_nil_of_spells (h : Spells directory []) : directory = [] :=
  h.elim id fun hNone => absurd rfl hNone.1

/-- What is joined to a directory is spelled by the names of both. -/
theorem join_of_spells (h : ∀ name ∈ names, IsName name) (hSpells : Spells directory names)
    (hMore : more ≠ []) : join directory (spelled more) = spelled (names ++ more) := by
  by_cases hNames : names = []
  · subst hNames
    rw [eq_nil_of_spells hSpells]
    rfl
  · rw [join_eq_of_spells h hSpells hNames, spelled_append hNames hMore]

/-- With nothing joined to it, a directory is spelled with a slash behind it. -/
theorem spells_join (h : ∀ name ∈ names, IsName name) (hSpells : Spells directory names)
    (more : List String) : Spells (join directory (spelled more)) (names ++ more) := by
  by_cases hMore : more = []
  · subst hMore
    rw [List.append_nil]
    by_cases hNames : names = []
    · subst hNames
      rw [eq_nil_of_spells hSpells]
      exact Or.inl rfl
    · refine Or.inr ⟨hNames, ?_⟩
      rw [join_eq_of_spells h hSpells hNames, spelled_append hNames (List.cons_ne_nil _ _),
        spelled_singleton]
      rfl
  · exact Or.inl (join_of_spells h hSpells hMore)

theorem locate_spelled_cons (hName : IsName name) (h : ∀ name ∈ names, '/' ∉ name.toList) :
    tree.locate (spelled (name :: names)) = tree.follow [] ((name :: names).map String.toList) := by
  obtain ⟨c, cs, hChars, hFirst⟩ := exists_spelled_cons hName names
  have hAll : ∀ n ∈ name :: names, '/' ∉ n.toList := List.forall_mem_cons.mpr ⟨hName.noSlash, h⟩
  rw [← splitSlashes_spelled hAll (List.cons_ne_nil _ _), hChars]
  unfold FileTree.locate
  split
  · rename_i hNil
    cases hNil
  · rename_i hSlash
    exact absurd (List.cons.inj hSlash).1 hFirst
  · rfl

theorem locate_spelled (h : ∀ name ∈ names, IsName name) (hSome : names ≠ []) :
    tree.locate (spelled names) = tree.follow [] (names.map String.toList) := by
  obtain ⟨first, rest, rfl⟩ := List.exists_cons_of_ne_nil hSome
  obtain ⟨hFirst, hRest⟩ := List.forall_mem_cons.mp h
  exact locate_spelled_cons hFirst fun name hName => (hRest name hName).noSlash

theorem directoryAt_eq {path : List Char} (h : path ≠ []) :
    directoryAt tree path = (tree.locate path).filter tree.isDirectory := by
  rw [directoryAt, if_neg (by simpa using h)]
  cases tree.locate path <;> rfl

/-- A slash at the end of a path finds the same directory. -/
theorem follow_directory (place : Location) :
    tree.follow place [[]] = (some place).filter tree.isDirectory := by
  rw [FileTree.follow, Option.filter_some]
  cases hDirectory : tree.isDirectory place with
  | true => exact FileTree.follow_nil_eq_some.mpr ⟨FileTree.occupied_of_isDirectory hDirectory, rfl⟩
  | false => rfl

/-- Which directory the names of a path lead to. -/
theorem directoryAt_of_spells (h : ∀ name ∈ names, IsName name) (hSpells : Spells directory names) :
    directoryAt tree directory =
      (tree.follow [] (names.map String.toList)).filter tree.isDirectory := by
  cases names with
  | nil =>
    rw [eq_nil_of_spells hSpells, List.map_nil, FileTree.follow_nil_eq_some.mpr
      ⟨FileTree.occupied_of_isDirectory FileTree.isDirectory_here, rfl⟩, Option.filter_some,
      FileTree.isDirectory_here]
    rfl
  | cons name names =>
    obtain ⟨hName, hNames⟩ := List.forall_mem_cons.mp h
    have hNoSlash : ∀ n ∈ names, '/' ∉ n.toList := fun n hn => (hNames n hn).noSlash
    obtain ⟨c, cs, hChars, -⟩ := exists_spelled_cons hName names
    obtain rfl | ⟨-, rfl⟩ := hSpells
    · rw [directoryAt_eq (by simp [hChars]), locate_spelled h (List.cons_ne_nil _ _)]
    · have hSlash : ∀ n ∈ names ++ [""], '/' ∉ n.toList := by
        intro n hn
        rcases List.mem_append.mp hn with hn | hn
        · exact hNoSlash n hn
        · rw [List.mem_singleton.mp hn]
          exact List.not_mem_nil
      obtain ⟨d, ds, hChars', -⟩ := exists_spelled_cons hName (names ++ [""])
      rw [List.cons_append, directoryAt_eq (by simp [hChars']), locate_spelled_cons hName hSlash,
        ← List.cons_append, List.map_append, FileTree.follow_append]
      cases tree.follow [] ((name :: names).map String.toList) with
      | none => rfl
      | some place =>
        rw [Option.bind_some]
        show (tree.follow place [[]]).filter tree.isDirectory = _
        rw [follow_directory, Option.filter_filter]
        simp

end Glob

end StyleSieve
