import Mathlib.Data.List.Nodup
import StyleSieve.Proofs.Bundle.Names

/-!
# Replacing assets

* `get?_of_mem`: a file is found by its name, as no other file has it.
* `replace_of_mem`: replacing an asset never fails; the asset moves to the end with its new text.
-/

namespace StyleSieve

namespace OutputFile

/-- The file with another text, if it is an asset. -/
def withText (text : String) : OutputFile → OutputFile
  | asset a => asset { a with source := .text text }
  | chunk c => chunk c

@[simp] theorem fileName_withText (text : String) (f : OutputFile) :
    (f.withText text).fileName = f.fileName := by
  cases f <;> rfl

end OutputFile

namespace Bundle

variable {b : Bundle} {f g : OutputFile} {a : Asset}

theorem HasDistinctNames.eq_of_fileName (h : b.HasDistinctNames) (hf : f ∈ b.files) (hg : g ∈ b.files)
    (hSame : f.fileName = g.fileName) : f = g :=
  List.inj_on_of_nodup_map h hf hg hSame

theorem HasDistinctNames.get?_of_mem (h : b.HasDistinctNames) (hf : f ∈ b.files) :
    b.get? f.fileName = some f := by
  cases hGet : b.get? f.fileName with
  | none => exact absurd rfl (get?_eq_none_iff.mp hGet f hf)
  | some g =>
    have hSame : g.fileName = f.fileName := by
      simpa using List.find?_some hGet
    rw [h.eq_of_fileName (List.mem_of_find?_eq_some hGet) hf hSame]

theorem HasDistinctNames.replace_of_mem (h : b.HasDistinctNames) (ha : .asset a ∈ b.files)
    (text : String) :
    b.replace a.fileName text =
      .ok ⟨b.files.filter (fun f => f.fileName != a.fileName) ++
        [(OutputFile.asset a).withText text]⟩ := by
  have hAsset : b.asset? a.fileName = some a := by
    unfold Bundle.asset?
    rw [show a.fileName = (OutputFile.asset a).fileName from rfl, h.get?_of_mem ha]
    rfl
  have hFree : (b.erase a.fileName).contains a.fileName = false := by
    apply not_contains_iff.mpr
    intro f hf
    simpa using (List.mem_filter.mp hf).2
  unfold Bundle.replace
  rw [hAsset]
  show (if (b.erase a.fileName).contains a.fileName = true then _ else _) = _
  rw [hFree, if_neg Bool.false_ne_true]
  rfl

end Bundle

end StyleSieve
