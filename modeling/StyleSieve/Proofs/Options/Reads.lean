import Mathlib.Data.List.Basic
import StyleSieve.Options.Reader
import StyleSieve.Proofs.Pass.Result

/-!
# What options are read from

Options, and the parts of a safelist, are read one by one from the values that fields hold. So a
field that is set changes what it is read for, and nothing else.

* `Safelist.readFields_eq_ok_iff`: a safelist is read part by part, from known parts only.
* `Options.outcome_eq_ok_iff`: options are read one by one, from known options only.
-/

namespace StyleSieve

/-! ## Fields -/

section Fields

variable {α β : Type} {key other : String} {value : α} {fields : List (String × α)}

theorem lookup_eq_find? (key : String) (fields : List (String × α)) :
    (fields.find? fun f => f.1 == key).map (·.2) = fields.lookup key := by
  induction fields with
  | nil => rfl
  | cons f fields ih =>
    rw [List.find?_cons, List.lookup_cons, BEq.comm (a := key), ← ih]
    cases f.1 == key <;> rfl

theorem lookup_setField_self : (setField key value fields).lookup key = some value := by
  induction fields with
  | nil => simp [setField]
  | cons f fields ih =>
    rw [setField]
    by_cases hName : f.1 = key
    · simp [hName]
    · have hKey : (key == f.1) = false := beq_eq_false_iff_ne.mpr (Ne.symm hName)
      rw [if_neg (by simpa using hName), List.lookup_cons, hKey]
      exact ih

theorem lookup_setField_of_ne (h : other ≠ key) :
    (setField key value fields).lookup other = fields.lookup other := by
  have hOther : (other == key) = false := beq_eq_false_iff_ne.mpr h
  induction fields with
  | nil => simp [setField, List.lookup_cons, hOther]
  | cons f fields ih =>
    rw [setField]
    by_cases hName : f.1 = key
    · have hFirst : (other == f.1) = false := hName ▸ hOther
      rw [if_pos (beq_iff_eq.mpr hName), List.lookup_cons, List.lookup_cons, hOther, hFirst]
    · rw [if_neg (by simpa using hName), List.lookup_cons, List.lookup_cons, ih]

theorem mem_setField {f : String × α} (h : f ∈ setField key value fields) :
    f = (key, value) ∨ f ∈ fields := by
  induction fields with
  | nil => exact Or.inl (List.mem_singleton.mp h)
  | cons g fields ih =>
    rw [setField] at h
    split at h
    · rcases List.mem_cons.mp h with rfl | h
      · exact Or.inl rfl
      · exact Or.inr (List.mem_cons_of_mem _ h)
    · rcases List.mem_cons.mp h with rfl | h
      · exact Or.inr List.mem_cons_self
      · exact (ih h).imp_right (List.mem_cons_of_mem _)

theorem lookup_map_snd (g : α → β) (key : String) (fields : List (String × α)) :
    (fields.map fun f => (f.1, g f.2)).lookup key = (fields.lookup key).map g := by
  induction fields with
  | nil => rfl
  | cons f fields ih =>
    rw [List.map_cons, List.lookup_cons, List.lookup_cons, ih]
    cases key == f.1 <;> rfl

theorem lookup_filter {p : String → Bool} (h : p key = true) :
    (fields.filter fun f => p f.1).lookup key = fields.lookup key := by
  induction fields with
  | nil => rfl
  | cons f fields ih =>
    rw [List.filter_cons, List.lookup_cons]
    by_cases hName : f.1 = key
    · rw [hName, h, if_pos rfl, List.lookup_cons, hName]
      simp
    · have hKey : (key == f.1) = false := beq_eq_false_iff_ne.mpr (Ne.symm hName)
      rw [hKey]
      split
      · rw [List.lookup_cons, hKey]
        exact ih
      · exact ih

theorem lookup_filter_of_not {p : String → Bool} (h : p key = false) :
    (fields.filter fun f => p f.1).lookup key = none := by
  refine List.lookup_eq_none_iff.mpr fun f hf => bne_iff_ne.mpr ?_
  have hName : p f.1 = true := (List.mem_filter.mp hf).2
  rintro rfl
  exact Bool.false_ne_true (h.symm.trans hName)

theorem lookup_eq_some_iff_mem (hNodup : (fields.map (·.1)).Nodup) :
    fields.lookup key = some value ↔ (key, value) ∈ fields := by
  induction fields with
  | nil => simp
  | cons f fields ih =>
    obtain ⟨hNew, hRest⟩ := List.nodup_cons.mp hNodup
    rw [List.lookup_cons, List.mem_cons]
    by_cases hName : key = f.1
    · have hOnly : (f.1, value) ∉ fields := fun h => hNew (List.mem_map.mpr ⟨_, h, rfl⟩)
      rw [hName, beq_self_eq_true, or_iff_left hOnly, Prod.ext_iff]
      simp [eq_comm]
    · rw [beq_eq_false_iff_ne.mpr hName, ih hRest]
      exact (or_iff_right fun h => hName (congrArg Prod.fst h)).symm

/-- In which order fields come does not matter if each has a name of its own. -/
theorem lookup_of_perm {other : List (String × α)} (hNodup : (fields.map (·.1)).Nodup)
    (hPerm : other.Perm fields) : other.lookup key = fields.lookup key := by
  have hOther : (other.map (·.1)).Nodup := ((hPerm.map (·.1)).nodup_iff).mpr hNodup
  apply Option.ext
  intro value
  rw [lookup_eq_some_iff_mem hOther, lookup_eq_some_iff_mem hNodup, hPerm.mem_iff]

/-- No name is unknown if all are known. -/
theorem isEmpty_unknown_iff {known : List String} :
    ((fields.map (·.1)).filter fun name => !known.contains name).isEmpty = true ↔
      ∀ f ∈ fields, f.1 ∈ known := by
  rw [List.isEmpty_iff, List.filter_eq_nil_iff, List.forall_mem_map]
  simp

end Fields

namespace Setting

theorem get?_map (key : String) (fields : List (String × Setting)) :
    (Setting.map fields).get? key = fields.lookup key := lookup_eq_find? key fields

theorem ofJsonItems_eq_map (items : List Json) : ofJsonItems items = items.map ofJson := by
  induction items with
  | nil => rfl
  | cons j items ih => rw [ofJsonItems, ih, List.map_cons]

theorem ofJsonFields_eq_map (fields : List (String × Json)) :
    ofJsonFields fields = fields.map fun f => (f.1, ofJson f.2) := by
  induction fields with
  | nil => rfl
  | cons f fields ih => rw [ofJsonFields, ih, List.map_cons]

/-- The value of a field, or nothing. -/
def valueIn (fields : List (String × Setting)) (name : String) : Setting :=
  (fields.lookup name).getD .null

theorem getD_get?_map (name : String) (fields : List (String × Setting)) :
    ((Setting.map fields).get? name).getD .null = valueIn fields name := by
  rw [get?_map, ← valueIn]

end Setting

open Setting (valueIn)

/-! ## Safelists -/

namespace Safelist

/-- Each part of a safelist is read from its value. -/
structure Reads [Runtime] (value : String → Setting) (s : Safelist) : Prop where
  standard : ((value "standard").parts >>= fun items => items.mapM readEntry) = .ok s.standard
  greedy : ((value "greedy").parts >>= fun items => items.mapM readPatternEntry) = .ok s.greedy
  deep : ((value "deep").parts >>= fun items => items.mapM readPatternEntry) = .ok s.deep
  keyframes : ((value "keyframes").parts >>= fun items => items.mapM readEntry) = .ok s.keyframes
  «variables» : ((value "variables").parts >>= fun items => items.mapM readEntry) = .ok s.variables

theorem readPart_eq {α : Type} (read : Setting → Except Options.Error α)
    (fields : List (String × Setting)) (name : String) :
    readPart read fields name = (valueIn fields name).parts >>= fun items => items.mapM read := by
  rw [readPart, Setting.getD_get?_map]

theorem readFields_eq_ok_iff [Runtime] {fields : List (String × Setting)} {s : Safelist} :
    readFields fields = .ok s ↔
      (∀ f ∈ fields, f.1 ∈ partitions) ∧ Reads (valueIn fields) s := by
  unfold readFields
  simp only [readPart_eq]
  by_cases hNames : ∀ f ∈ fields, f.1 ∈ partitions
  · rw [and_iff_right hNames, isEmpty_unknown_iff.mpr hNames]
    constructor
    · intro h
      obtain ⟨standard, hStandard, h⟩ := bind_eq_ok_iff.mp h
      obtain ⟨greedy, hGreedy, h⟩ := bind_eq_ok_iff.mp h
      obtain ⟨deep, hDeep, h⟩ := bind_eq_ok_iff.mp h
      obtain ⟨keyframes, hKeyframes, h⟩ := bind_eq_ok_iff.mp h
      obtain ⟨properties, hProperties, h⟩ := bind_eq_ok_iff.mp h
      cases Except.ok.inj h
      exact ⟨hStandard, hGreedy, hDeep, hKeyframes, hProperties⟩
    · intro h
      exact bind_eq_ok_iff.mpr ⟨_, h.standard, bind_eq_ok_iff.mpr ⟨_, h.greedy,
        bind_eq_ok_iff.mpr ⟨_, h.deep, bind_eq_ok_iff.mpr ⟨_, h.keyframes,
        bind_eq_ok_iff.mpr ⟨_, h.variables, rfl⟩⟩⟩⟩⟩
  · rw [if_pos]
    · refine iff_of_false ?_ fun h => hNames h.1
      intro h
      cases h
    · simpa only [Bool.not_eq_true', ← Bool.not_eq_true] using
        fun h => hNames (isEmpty_unknown_iff.mp h)

end Safelist

/-! ## Options -/

namespace Options

/-- Each option is read from its value. -/
structure Reads [Runtime] (value : String → Setting) (o : Options) : Prop where
  defaultExtractor : readDefaultExtractor (value "default_extractor") = .ok o.defaultExtractor
  extractors : readExtractors (value "extractors") = .ok o.extractors
  content : readItems "content" readContentEntry (value "content") = .ok o.content
  safelist : Safelist.read (value "safelist") = .ok o.safelist
  blocklist : readItems "blocklist" Safelist.readEntry (value "blocklist") = .ok o.blocklist
  skippedContent : readItems "skipped_content" readText (value "skipped_content") =
    .ok o.skippedContent
  maxWorkers : readMaxWorkers (value "max_workers") = .ok o.maxWorkers

namespace Reads

variable {value other : String → Setting} {o : Options}

/-- Options that are read with another content and safelist, all else being the same. -/
theorem changed [Runtime] {content : List Content} {safelist : Safelist} (h : Reads value o)
    (hOther : ∀ name ∈ names, name ≠ "content" → name ≠ "safelist" → other name = value name)
    (hContent : readItems "content" readContentEntry (other "content") = .ok content)
    (hSafelist : Safelist.read (other "safelist") = .ok safelist) :
    Reads other { o with content := content, safelist := safelist } where
  defaultExtractor := by
    rw [hOther "default_extractor" (by decide) (by decide) (by decide)]
    exact h.defaultExtractor
  extractors := by
    rw [hOther "extractors" (by decide) (by decide) (by decide)]
    exact h.extractors
  content := hContent
  safelist := hSafelist
  blocklist := by
    rw [hOther "blocklist" (by decide) (by decide) (by decide)]
    exact h.blocklist
  skippedContent := by
    rw [hOther "skipped_content" (by decide) (by decide) (by decide)]
    exact h.skippedContent
  maxWorkers := by
    rw [hOther "max_workers" (by decide) (by decide) (by decide)]
    exact h.maxWorkers

theorem not_lacksWorkers [Runtime] (h : Reads value o) : ¬ o.LacksWorkers := by
  rintro ⟨n, hSome, hLess⟩
  have hRead := h.maxWorkers
  unfold readMaxWorkers at hRead
  split at hRead
  · rw [hSome] at hRead
    cases hRead
  · split at hRead
    · cases (Except.ok.inj hRead).trans hSome
      omega
    · cases hRead
  · cases hRead

end Reads

theorem readNamed_eq_ok_iff [Runtime] {fields : List (String × Setting)} {o : Options} :
    readNamed fields = .ok o ↔ Reads (valueIn fields) o := by
  unfold readNamed
  simp only [Setting.getD_get?_map]
  constructor
  · intro h
    obtain ⟨defaultExtractor, hDefault, h⟩ := bind_eq_ok_iff.mp h
    obtain ⟨extractors, hExtractors, h⟩ := bind_eq_ok_iff.mp h
    obtain ⟨content, hContent, h⟩ := bind_eq_ok_iff.mp h
    obtain ⟨safelist, hSafelist, h⟩ := bind_eq_ok_iff.mp h
    obtain ⟨blocklist, hBlocklist, h⟩ := bind_eq_ok_iff.mp h
    obtain ⟨skippedContent, hSkipped, h⟩ := bind_eq_ok_iff.mp h
    obtain ⟨maxWorkers, hWorkers, h⟩ := bind_eq_ok_iff.mp h
    cases Except.ok.inj h
    exact ⟨hDefault, hExtractors, hContent, hSafelist, hBlocklist, hSkipped, hWorkers⟩
  · intro h
    exact bind_eq_ok_iff.mpr ⟨_, h.defaultExtractor, bind_eq_ok_iff.mpr ⟨_, h.extractors,
      bind_eq_ok_iff.mpr ⟨_, h.content, bind_eq_ok_iff.mpr ⟨_, h.safelist,
      bind_eq_ok_iff.mpr ⟨_, h.blocklist, bind_eq_ok_iff.mpr ⟨_, h.skippedContent,
      bind_eq_ok_iff.mpr ⟨_, h.maxWorkers, rfl⟩⟩⟩⟩⟩⟩⟩

/-- Options are read from the values of known names only. -/
theorem readNamed_congr [Runtime] {fields other : List (String × Setting)}
    (h : ∀ name ∈ names, valueIn other name = valueIn fields name) :
    readNamed other = readNamed fields := by
  unfold readNamed
  simp only [Setting.getD_get?_map]
  rw [h "default_extractor" (by decide), h "extractors" (by decide), h "content" (by decide),
    h "safelist" (by decide), h "blocklist" (by decide), h "skipped_content" (by decide),
    h "max_workers" (by decide)]

/-- Whether a user decides about the option of a name. -/
def isOwnName (name : String) : Bool := name != computedName && !forcedNames.contains name

theorem isOwnName_of_mem {name : String} (h : name ∈ names) : isOwnName name = true := by
  revert name
  decide

/-- Names that options may be given under. -/
def IsKnownName (name : String) : Prop := isOwnName name = true → name ∈ names

/-- The fields that a user decides about. -/
def ownNamed (fields : List (String × Setting)) : List (String × Setting) :=
  fields.filter fun f => isOwnName f.1

theorem valueIn_ownNamed (fields : List (String × Setting)) {name : String} (h : name ∈ names) :
    valueIn (ownNamed fields) name = valueIn fields name := by
  rw [valueIn, ownNamed, lookup_filter (isOwnName_of_mem h), ← valueIn]

theorem readNamed_ownNamed [Runtime] (fields : List (String × Setting)) :
    readNamed (ownNamed fields) = readNamed fields :=
  readNamed_congr fun _ hName => valueIn_ownNamed fields hName

/-- Options are read if the fields that a user decides about are all known. -/
theorem readFields_map [Runtime] (fields : List (String × Setting)) :
    readFields (fields.map fun f => (some f.1, f.2)) =
      if (((ownNamed fields).map (·.1)).filter fun name => !names.contains name).isEmpty then
        readNamed fields
      else .error (.unknownOptions
        (((ownNamed fields).map (·.1)).filter fun name => !names.contains name)) := by
  have hOwn : ownFields (fields.map fun f => (some f.1, f.2)) =
      (ownNamed fields).map fun f => (some f.1, f.2) := by
    rw [ownFields, List.filter_map]
    rfl
  have hNamed : (((ownNamed fields).map fun f => ((some f.1, f.2) : Key × Setting)).filterMap fun f =>
      f.1.map fun name => (name, f.2)) = ownNamed fields := by
    rw [List.filterMap_map]
    exact List.filterMap_some
  unfold readFields
  simp only [hOwn, hNamed, readNamed_ownNamed]
  rw [if_neg (by simp)]
  cases (((ownNamed fields).map (·.1)).filter fun name => !names.contains name).isEmpty <;> rfl

theorem isEmpty_unknown_ownNamed_iff {fields : List (String × Setting)} :
    (((ownNamed fields).map (·.1)).filter fun name => !names.contains name).isEmpty = true ↔
      ∀ f ∈ fields, IsKnownName f.1 := by
  rw [isEmpty_unknown_iff]
  simp [ownNamed, IsKnownName]

theorem readFields_named [Runtime] (fields : List (String × Setting)) {o : Options} :
    readFields (fields.map fun f => (some f.1, f.2)) = .ok o ↔
      (∀ f ∈ fields, IsKnownName f.1) ∧ Reads (valueIn fields) o := by
  rw [readFields_map, ← isEmpty_unknown_ownNamed_iff, ← readNamed_eq_ok_iff]
  split
  · rename_i hKnown
    rw [and_iff_right hKnown]
  · rename_i hUnknown
    exact iff_of_false nofun fun h => hUnknown h.1

theorem outcome_map [Runtime] (fields : List (String × Setting)) :
    (read (.map fields)).outcome = readFields (fields.map fun f => (some f.1, f.2)) := by
  cases fields <;> rfl

theorem outcome_eq_ok_iff [Runtime] {fields : List (String × Setting)} {o : Options} :
    (read (.map fields)).outcome = .ok o ↔
      (∀ f ∈ fields, IsKnownName f.1) ∧ Reads (valueIn fields) o := by
  rw [outcome_map, readFields_named]

end Options

end StyleSieve
