import StyleSieve.Bundle
import StyleSieve.Proofs.Pass.Result

/-!
# Names of emitted files

No two files of a bundle have the same name, and no operation changes that.

* `hasDistinctNames_ofFiles`: this holds of every bundle that is emitted file by file.
* `nodup_cssAssets`: so the names of its style sheets are distinct as well.
-/

namespace StyleSieve.Bundle

/-- No two files have the same name. -/
def HasDistinctNames (b : Bundle) : Prop := (b.files.map OutputFile.fileName).Nodup

variable {b after : Bundle} {name text : String} {file : OutputFile}

theorem get?_eq_none_iff : b.get? name = none ↔ ∀ f ∈ b.files, f.fileName ≠ name := by
  unfold get?
  simp only [List.find?_eq_none, beq_iff_eq, ne_eq]

theorem not_contains_iff : b.contains name = false ↔ ∀ f ∈ b.files, f.fileName ≠ name := by
  rw [← get?_eq_none_iff, contains, Option.isSome_eq_false_iff, Option.isNone_iff_eq_none]

/-! ## Operations -/

theorem HasDistinctNames.emit (h : b.HasDistinctNames) (hEmit : b.emit file = .ok after) :
    after.HasDistinctNames := by
  unfold Bundle.emit at hEmit
  split at hEmit
  · cases hEmit
  · rename_i hNew
    cases Except.ok.inj hEmit
    have hNew : ∀ f ∈ b.files, f.fileName ≠ file.fileName :=
      not_contains_iff.mp (Bool.eq_false_iff.mpr hNew)
    unfold HasDistinctNames
    rw [List.map_append, List.nodup_append]
    refine ⟨h, by simp, fun x hx y hy => ?_⟩
    obtain ⟨f, hf, rfl⟩ := List.mem_map.mp hx
    rw [List.mem_singleton.mp hy]
    exact hNew f hf

theorem HasDistinctNames.erase (h : b.HasDistinctNames) (name : String) :
    (b.erase name).HasDistinctNames :=
  List.Nodup.sublist (List.filter_sublist.map _) h

theorem HasDistinctNames.delete (h : b.HasDistinctNames) (hDelete : b.delete name = .ok after) :
    after.HasDistinctNames := by
  unfold Bundle.delete at hDelete
  split at hDelete
  · cases Except.ok.inj hDelete
    exact h.erase name
  · cases hDelete

theorem HasDistinctNames.replace (h : b.HasDistinctNames)
    (hReplace : b.replace name text = .ok after) : after.HasDistinctNames := by
  unfold Bundle.replace at hReplace
  split at hReplace
  · exact (h.erase name).emit hReplace
  · cases hReplace

theorem hasDistinctNames_empty : empty.HasDistinctNames := List.nodup_nil

theorem HasDistinctNames.emitAll {files : List OutputFile} (h : b.HasDistinctNames)
    (hEmit : files.foldlM Bundle.emit b = .ok after) : after.HasDistinctNames := by
  induction files generalizing b with
  | nil =>
    cases Except.ok.inj hEmit
    exact h
  | cons file rest ih =>
    rw [List.foldlM_cons] at hEmit
    cases hFirst : b.emit file with
    | error e =>
      rw [hFirst] at hEmit
      cases hEmit
    | ok next =>
      rw [hFirst] at hEmit
      exact ih (h.emit hFirst) hEmit

theorem files_of_emitAll {files : List OutputFile}
    (h : files.foldlM Bundle.emit b = .ok after) : after.files = b.files ++ files := by
  induction files generalizing b with
  | nil =>
    cases Except.ok.inj h
    exact (List.append_nil _).symm
  | cons file rest ih =>
    rw [List.foldlM_cons] at h
    obtain ⟨next, hNext, h⟩ := bind_eq_ok_iff.mp h
    unfold Bundle.emit at hNext
    split at hNext
    · cases hNext
    · cases hNext
      rw [ih h, List.append_assoc]
      rfl

/-- The names in a bundle that is emitted file by file are distinct. -/
theorem hasDistinctNames_ofFiles {files : List OutputFile} (h : ofFiles files = .ok b) :
    b.HasDistinctNames :=
  hasDistinctNames_empty.emitAll h

/-! ## Style sheets -/

theorem names_assets_sublist :
    (b.assets.map Asset.fileName).Sublist (b.files.map OutputFile.fileName) := by
  unfold assets
  induction b.files with
  | nil => exact .slnil
  | cons file rest ih =>
    cases file with
    | asset a => exact ih.cons_cons _
    | chunk c => exact ih.cons _

theorem HasDistinctNames.nodup_cssAssets (h : b.HasDistinctNames) :
    (b.cssAssets.map Asset.fileName).Nodup :=
  List.Nodup.sublist ((List.filter_sublist.map _).trans names_assets_sublist) h

end StyleSieve.Bundle
