import Mathlib.Data.List.Sort
import Mathlib.Data.String.Basic
import StyleSieve.AssetPurge
import StyleSieve.Proofs.Options.Reads

/-!
# Options that a user does not decide about

The style sheets, and whether what is removed is reported, are up to the pass. Fields of these names
are taken out before anything else is looked at, so that they change neither the options that are read
nor the fault that shows, and nothing of them reaches a request.

* `outcome_of_perm`: the other fields make the outcome, in whichever order they come.
* `requests_of_perm`: and what engines are asked for.
-/

namespace StyleSieve

open Setting (valueIn)

namespace Options

variable {fields other : List (String × Setting)}

/-! ## Outcomes -/

/-- Outcomes that a user cannot tell apart: the same options, faults with the same message, or the
same fault if there is no message. -/
def Alike : Except Error Options → Except Error Options → Prop
  | .ok o, .ok o' => o = o'
  | .error e, .error e' => e.message? = e'.message? ∧ (e.message? = none → e = e')
  | _, _ => False

theorem Alike.refl (outcome : Except Error Options) : Alike outcome outcome := by
  cases outcome with
  | ok o => exact Eq.refl o
  | error e => exact ⟨Eq.refl e.message?, fun _ => Eq.refl e⟩

/-- Sorted names do not show in which order they came. -/
theorem listed_of_perm {names others : List String} (h : others.Perm names) :
    Error.listed others = Error.listed names := by
  have hPerm : (others.mergeSort (· ≤ ·)).Perm (names.mergeSort (· ≤ ·)) :=
    (List.mergeSort_perm _ _).trans (h.trans (List.mergeSort_perm _ _).symm)
  have hSame := hPerm.eq_of_pairwise' (List.pairwise_mergeSort' _ others)
    (List.pairwise_mergeSort' _ names)
  exact congrArg (String.intercalate ", ") hSame

theorem alike_unknown {names others : List String} (h : others.Perm names) :
    Alike (.error (.unknownOptions others)) (.error (.unknownOptions names)) := by
  refine ⟨?_, nofun⟩
  rw [Error.message?, Error.message?, listed_of_perm h]

/-! ## Fields that a user decides about -/

/-- The fields that a user decides about make the outcome, in whichever order they come. -/
theorem outcome_of_perm [Runtime] (hNodup : (fields.map (·.1)).Nodup)
    (hOwn : (ownNamed other).Perm (ownNamed fields)) :
    Alike (read (.map other)).outcome (read (.map fields)).outcome := by
  have hNodupOwn : ((ownNamed fields).map (·.1)).Nodup :=
    hNodup.sublist (List.Sublist.map _ List.filter_sublist)
  have hNamed : readNamed other = readNamed fields := by
    rw [← readNamed_ownNamed other, ← readNamed_ownNamed fields]
    apply readNamed_congr
    intro name _
    rw [valueIn, lookup_of_perm hNodupOwn hOwn, ← valueIn]
  have hUnknown := (hOwn.map (·.1)).filter fun name => !names.contains name
  rw [outcome_map, outcome_map, readFields_map, readFields_map, hUnknown.isEmpty_eq, hNamed]
  split
  · exact Alike.refl _
  · exact alike_unknown hUnknown

/-! ## Requests -/

/-- A request for a style sheet of a bundle: for its text without the blanks around it, under its own
name, with all reports. -/
structure IsRequestFor (a : Asset) (text : String) (r : PurgeRequest) : Prop where
  css : r.css = [⟨Text.trim text, some a.fileName⟩]
  wantsSelectors : r.wantsSelectors = true
  wantsRules : r.wantsRules = true

/-- Whatever the options are, engines are asked for the text of an asset, if it is one. -/
theorem exists_ofAsset {a : Asset} {text : String} (o : Options) (safelist : Safelist) (root : Path)
    (h : a.text? = .ok text) :
    ∃ r, PurgeRequest.ofAsset o safelist root a = .ok r ∧ IsRequestFor a text r := by
  refine ⟨PurgeRequest.ofSheet o safelist root a.fileName text, ?_, rfl, rfl, rfl⟩
  rw [PurgeRequest.ofAsset, h]
  rfl

/-- Two mappings that have the same fields apart from those that a user does not decide about are read
alike, and engines are asked for the same. -/
theorem requests_of_perm [Runtime] (hNodup : (fields.map (·.1)).Nodup)
    (hOwn : (ownNamed other).Perm (ownNamed fields)) :
    Alike (read (.map other)).outcome (read (.map fields)).outcome ∧
      ∀ o o', (read (.map fields)).outcome = .ok o → (read (.map other)).outcome = .ok o' →
        ∀ (safelist : Safelist) (root : Path) (a : Asset),
          PurgeRequest.ofAsset o' safelist root a = PurgeRequest.ofAsset o safelist root a ∧
          ∀ text, a.text? = .ok text →
            ∃ r, PurgeRequest.ofAsset o safelist root a = .ok r ∧ IsRequestFor a text r := by
  have hAlike := outcome_of_perm hNodup hOwn
  refine ⟨hAlike, ?_⟩
  intro o o' hFields hOther safelist root a
  rw [hFields, hOther] at hAlike
  have hSame : o' = o := hAlike
  constructor
  · rw [hSame]
  · intro text hText
    exact exists_ofAsset o safelist root hText

/-- A style sheet and a report that are given among the options in another order change nothing. -/
theorem requests_of_perm_added :
    let fields := [("content", Setting.str "a.html"), ("max_workers", .int 2)]
    let other := [("rejected", Setting.bool false), ("max_workers", .int 2),
      ("css", .list [.str "p\x7b\x7d"]), ("content", .str "a.html"), ("rejected_css", .null)]
    (fields.map (·.1)).Nodup ∧ (ownNamed other).Perm (ownNamed fields) ∧
      Alike (read (.map other)).outcome (read (.map fields)).outcome ∧
      (read (.map fields)).outcome = .ok { content := [.files "a.html"], maxWorkers := some 2 } := by
  intro fields other
  have hNodup : (fields.map (·.1)).Nodup := by decide
  have hOwn : (ownNamed other).Perm (ownNamed fields) := List.Perm.swap _ _ _
  exact ⟨hNodup, hOwn, (requests_of_perm hNodup hOwn).1, rfl⟩

end Options

end StyleSieve
