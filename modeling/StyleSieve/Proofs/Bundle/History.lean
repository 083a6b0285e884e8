import StyleSieve.Json.Basic
import StyleSieve.Proofs.Bundle.Replace
import StyleSieve.Proofs.Options.Reads

/-!
# Histories of bundles

A bundle can be kept in a dictionary that its uses change in place, one statement after the other, so
that what a statement has done stays done when a later one fails. `Slots.replace` takes an asset out
before it emits the renewed one: were the second step to fail, the file would be lost.

* `IsSound.perform_slots`: on the dictionary of a bundle, each use ends as it does on the bundle, and leaves the
  dictionary of the bundle that comes of it.
* `IsSound.after`: whatever is done to a bundle, the names of its files stay distinct.
* `history_exact`: so after every history a use fails just where it should, leaves everything as it is
  then, and otherwise does what it should to one file only.
-/

namespace StyleSieve

/-- Whether there can be such a file: an asset has a name. -/
def OutputFile.IsMade : OutputFile → Prop
  | asset a => a.fileName ≠ ""
  | chunk _ => True

namespace Bundle

variable {b next : Bundle} {a : Asset} {file : OutputFile} {files : List OutputFile}
  {name text : String}

/-! ## Dictionaries -/

/-- A dictionary of files: the keys in the order in which they came in, each with its file. -/
abbrev Slots := List (String × OutputFile)

/-- The dictionary that has each file of a bundle under its own name. -/
def slots (b : Bundle) : Slots := b.files.map fun f => (f.fileName, f)

namespace Slots

/-- Something done to a dictionary in place. What it has changed before it fails stays changed. -/
abbrev Work := ExceptT Error (StateM Slots)

/-- Puts a file under its name, unless the name is taken. -/
def emit (file : OutputFile) : Work Unit := do
  if ((← get).lookup file.fileName).isSome then
    throw (.alreadyEmitted file.fileName)
  modify (setField file.fileName file)

/-- Takes out what is under a key. -/
def delete (name : String) : Work Unit := do
  if ((← get).lookup name).isNone then
    throw (.noFile name)
  modify (List.eraseP fun slot => slot.1 == name)

/-- Takes out an asset, makes it anew with another text, and emits that. -/
def replace (name text : String) : Work Unit := do
  match (← get).lookup name with
  | some (.asset a) =>
    delete name
    let renewed ← liftM ({ a with source := .text text } : Asset).named
    emit (.asset renewed)
  | _ => throw (.noAsset name)

/-- Emits files into a dictionary of their own, which is the one at hand from then on. -/
def construct (files : List OutputFile) : Work Unit := do
  match (files.forM emit).run.run [] with
  | (.ok (), made) => set made
  | (.error e, _) => throw e

variable {slots : Slots}

theorem run_bind (first : Work Unit) (second : Unit → Work Unit) :
    (first >>= second).run.run slots =
      match first.run.run slots with
      | (.ok (), left) => (second ()).run.run left
      | (.error e, left) => (.error e, left) := by
  change StateT.run (ExceptT.bind first second) slots = _
  unfold ExceptT.bind
  rw [ExceptT.mk, StateT.run_bind]
  cases hFirst : first.run.run slots with
  | mk result left => cases result <;> simp_all [StateT.run, ExceptT.run, ExceptT.bindCont] <;> rfl

theorem run_emit :
    (emit file).run.run slots =
      if (slots.lookup file.fileName).isSome then (.error (.alreadyEmitted file.fileName), slots)
      else (.ok (), setField file.fileName file slots) := by
  change StateT.run (ExceptT.run (if _ then _ else _)) slots = _
  split <;> rfl

theorem run_delete :
    (delete name).run.run slots =
      if (slots.lookup name).isNone then (.error (.noFile name), slots)
      else (.ok (), slots.eraseP fun slot => slot.1 == name) := by
  change StateT.run (ExceptT.run (if _ then _ else _)) slots = _
  split <;> rfl

theorem run_replace_asset (h : slots.lookup name = some (.asset a)) (hNamed : a.fileName ≠ "") :
    (replace name text).run.run slots =
      (delete name >>= fun _ => emit (.asset { a with source := .text text })).run.run slots := by
  have hMade :
      ({ a with source := .text text } : Asset).named = .ok { a with source := .text text } := by
    rw [Asset.named, String.isEmpty_eq_false_iff.mpr hNamed]
    rfl
  change StateT.run (ExceptT.run (match slots.lookup name with
    | some (.asset a) => _
    | _ => _)) slots = _
  rw [h]
  dsimp only
  rw [hMade, run_bind, run_bind]
  rfl

theorem run_replace_of_not_asset (h : (slots.lookup name).bind OutputFile.asset? = none) :
    (replace name text).run.run slots = (.error (.noAsset name), slots) := by
  change StateT.run (ExceptT.run (match slots.lookup name with
    | some (.asset a) => _
    | _ => _)) slots = _
  split
  · rename_i hAsset
    rw [hAsset] at h
    cases h
  · rfl

end Slots

/-! ## The dictionary of a bundle -/

/-- How a use of the dictionary of a bundle ends, and which dictionary it leaves, by what the same use
makes of the bundle. -/
def shown (b : Bundle) : Except Error Bundle → Except Error Unit × Slots
  | .ok next => (.ok (), next.slots)
  | .error e => (.error e, b.slots)

theorem lookup_slots : b.slots.lookup name = b.get? name := by
  rw [← lookup_eq_find?, slots, List.find?_map, Option.map_map]
  exact Option.map_id'

theorem isSome_lookup_slots : (b.slots.lookup name).isSome = b.contains name := by
  rw [lookup_slots, contains]

theorem setField_of_lookup {slots : Slots} (h : (slots.lookup name).isSome = false) :
    setField name file slots = slots ++ [(name, file)] := by
  induction slots with
  | nil => rfl
  | cons slot slots ih =>
    rw [List.lookup_cons] at h
    cases hName : name == slot.1 with
    | true =>
      rw [hName] at h
      cases h
    | false =>
      rw [hName] at h
      rw [setField, BEq.comm, hName, if_neg Bool.false_ne_true, ih h, List.cons_append]

theorem run_emit_slots : (Slots.emit file).run.run b.slots = b.shown (b.emit file) := by
  rw [Slots.run_emit, isSome_lookup_slots, Bundle.emit]
  cases hTaken : b.contains file.fileName with
  | true => rfl
  | false =>
    rw [if_neg Bool.false_ne_true, if_neg Bool.false_ne_true,
      setField_of_lookup (isSome_lookup_slots.trans hTaken)]
    simp [shown, slots]

/-! ## Files in their places -/

section Places

variable {before after : List OutputFile}

theorem exists_split (h : b.contains name = true) :
    ∃ before f after, b.files = before ++ f :: after ∧ f.fileName = name := by
  obtain ⟨f, hGet⟩ := Option.isSome_iff_exists.mp h
  obtain ⟨before, after, hSplit⟩ := List.append_of_mem (List.mem_of_find?_eq_some hGet)
  exact ⟨before, f, after, hSplit, by simpa using List.find?_some hGet⟩

theorem mem_of_split {f : OutputFile} (hSplit : b.files = before ++ file :: after)
    (hf : f ∈ before ++ after) : f ∈ b.files :=
  hSplit ▸ List.Sublist.mem hf ((List.sublist_cons_self _ _).append_left _)

theorem HasDistinctNames.ne_of_split (h : b.HasDistinctNames)
    (hSplit : b.files = before ++ file :: after) :
    ∀ f ∈ before ++ after, f.fileName ≠ file.fileName := by
  unfold HasDistinctNames at h
  rw [hSplit, List.map_append, List.map_cons, List.nodup_middle, List.nodup_cons,
    ← List.map_append] at h
  intro f hf hSame
  exact h.1 (hSame ▸ List.mem_map_of_mem hf)

theorem HasDistinctNames.erase_of_split (h : b.HasDistinctNames)
    (hSplit : b.files = before ++ file :: after) : b.erase file.fileName = ⟨before ++ after⟩ := by
  have hOthers : (before ++ after).filter (fun f => f.fileName != file.fileName) = before ++ after :=
    List.filter_eq_self.mpr fun f hf => bne_iff_ne.mpr (h.ne_of_split hSplit f hf)
  rw [List.filter_append] at hOthers
  rw [Bundle.erase, hSplit, List.filter_append, List.filter_cons_of_neg (by simp), hOthers]

/-- A dictionary loses one key where the bundle loses all files of a name; there is no more than one. -/
theorem HasDistinctNames.eraseP_slots (h : b.HasDistinctNames)
    (hSplit : b.files = before ++ file :: after) :
    (b.slots.eraseP fun slot => slot.1 == file.fileName) = slots ⟨before ++ after⟩ := by
  have hBefore : ∀ slot ∈ before.map (fun f => (f.fileName, f)),
      ¬ (slot.1 == file.fileName) = true := by
    intro slot hSlot
    obtain ⟨f, hf, rfl⟩ := List.mem_map.mp hSlot
    simpa using h.ne_of_split hSplit f (List.mem_append_left _ hf)
  rw [slots, hSplit, List.map_append, List.eraseP_append_right _ hBefore, List.map_cons,
    List.eraseP_cons_of_pos (by simp), slots, List.map_append]

end Places

theorem HasDistinctNames.run_delete_slots (h : b.HasDistinctNames) (name : String) :
    (Slots.delete name).run.run b.slots = b.shown (b.delete name) := by
  rw [Slots.run_delete, ← Option.not_isSome, isSome_lookup_slots, Bundle.delete]
  cases hThere : b.contains name with
  | true =>
    obtain ⟨before, f, after, hSplit, rfl⟩ := exists_split hThere
    exact congrArg (Prod.mk _)
      ((h.eraseP_slots hSplit).trans (congrArg slots (h.erase_of_split hSplit).symm))
  | false => rfl

theorem eq_of_asset? (h : b.asset? name = some a) :
    OutputFile.asset a ∈ b.files ∧ a.fileName = name := by
  obtain ⟨f, hGet, hAsset⟩ := Option.bind_eq_some_iff.mp h
  cases f with
  | chunk c => cases hAsset
  | asset g =>
    cases hAsset
    have hName := List.find?_some hGet
    exact ⟨List.mem_of_find?_eq_some hGet, eq_of_beq hName⟩

theorem HasDistinctNames.run_replace_slots (h : b.HasDistinctNames)
    (hMade : ∀ f ∈ b.files, f.IsMade) (name text : String) :
    (Slots.replace name text).run.run b.slots = b.shown (b.replace name text) := by
  cases hAsset : b.asset? name with
  | none =>
    rw [Slots.run_replace_of_not_asset (by rw [lookup_slots]; exact hAsset), Bundle.replace, hAsset]
    rfl
  | some a =>
    obtain ⟨hMem, rfl⟩ := eq_of_asset? hAsset
    have hGet : b.get? a.fileName = some (.asset a) := h.get?_of_mem hMem
    have hDelete : b.delete a.fileName = .ok (b.erase a.fileName) := by
      rw [Bundle.delete, contains, hGet]
      rfl
    -- The name has just been given up, so it is free again.
    have hReplace := h.replace_of_mem hMem text
    have hEmit := hReplace
    rw [Bundle.replace, hAsset] at hEmit
    rw [Slots.run_replace_asset (lookup_slots.trans hGet) (hMade _ hMem), Slots.run_bind,
      h.run_delete_slots, hDelete, hReplace]
    exact run_emit_slots.trans (congrArg (b.erase a.fileName).shown hEmit)

theorem run_forM_emit (files : List OutputFile) (b : Bundle) :
    match files.foldlM Bundle.emit b with
    | .ok next => (files.forM Slots.emit).run.run b.slots = (.ok (), next.slots)
    | .error e => ∃ left, (files.forM Slots.emit).run.run b.slots = (.error e, left) := by
  induction files generalizing b with
  | nil => rfl
  | cons file rest ih =>
    rw [List.foldlM_cons, List.forM_eq_forM, List.forM_cons, Slots.run_bind, run_emit_slots]
    cases hEmit : b.emit file with
    | error e => exact ⟨b.slots, rfl⟩
    | ok next => exact ih next

theorem run_construct_slots (files : List OutputFile) :
    (Slots.construct files).run.run b.slots = b.shown (ofFiles files) := by
  have hRun := run_forM_emit files empty
  unfold Slots.construct ofFiles
  cases hFiles : files.foldlM Bundle.emit empty with
  | ok next =>
    rw [hFiles] at hRun
    rw [show (files.forM Slots.emit).run.run [] = _ from hRun]
    rfl
  | error e =>
    rw [hFiles] at hRun
    obtain ⟨left, hRun⟩ := hRun
    rw [show (files.forM Slots.emit).run.run [] = _ from hRun]
    rfl

/-! ## Uses -/

/-- A use of a bundle. -/
inductive Change where
  | construct (files : List OutputFile)
  | emit (file : OutputFile)
  | delete (name : String)
  | replace (name text : String)

namespace Change

/-- There can be the files that a use brings with it. -/
def IsMade : Change → Prop
  | construct files => ∀ f ∈ files, f.IsMade
  | emit file => file.IsMade
  | delete _ => True
  | replace _ _ => True

/-- What a use makes of a bundle. -/
def outcome : Change → Bundle → Except Error Bundle
  | construct files, _ => ofFiles files
  | emit file, b => b.emit file
  | delete name, b => b.delete name
  | replace name text, b => b.replace name text

/-- What a use does to a dictionary. -/
def work : Change → Slots.Work Unit
  | construct files => Slots.construct files
  | emit file => Slots.emit file
  | delete name => Slots.delete name
  | replace name text => Slots.replace name text

/-- How a use of a dictionary ends, and which dictionary it leaves. -/
def perform (c : Change) (slots : Slots) : Except Error Unit × Slots := c.work.run.run slots

/-- Whether a bundle must refuse a use: to emit a name that it has, to delete one that it does not
have, to replace one that it does not have or that is the name of a chunk. -/
def IsRefused (b : Bundle) : Change → Prop
  | construct files => ¬ (files.map OutputFile.fileName).Nodup
  | emit file => file.fileName ∈ b.files.map OutputFile.fileName
  | delete name => name ∉ b.files.map OutputFile.fileName
  | replace name _ =>
    name ∉ b.files.map OutputFile.fileName ∨ ∃ c, OutputFile.chunk c ∈ b.files ∧ c.fileName = name

/-- What a use should make of a bundle that does not refuse it. -/
inductive Makes (b : Bundle) : Change → Bundle → Prop
  | construct (files : List OutputFile) : Makes b (.construct files) ⟨files⟩
  | emit (file : OutputFile) : Makes b (.emit file) ⟨b.files ++ [file]⟩
  | delete {before after : List OutputFile} {file : OutputFile}
      (place : b.files = before ++ file :: after) : Makes b (.delete file.fileName) ⟨before ++ after⟩
  | replace {before after : List OutputFile} {a : Asset}
      (place : b.files = before ++ .asset a :: after) (text : String) :
      Makes b (.replace a.fileName text)
        ⟨before ++ after ++ [.asset { a with source := .text text }]⟩

end Change

/-- What comes of a bundle by a use. A use that fails leaves it as it is. -/
def after (b : Bundle) (c : Change) : Bundle :=
  match c.outcome b with
  | .ok next => next
  | .error _ => b

/-- What comes of a bundle by one use after the other. -/
def afterAll (b : Bundle) (history : List Change) : Bundle := history.foldl after b

/-- What comes of a dictionary by one use after the other. -/
def Slots.afterAll (slots : Slots) (history : List Change) : Slots :=
  history.foldl (fun slots c => (c.perform slots).2) slots

/-- A bundle as it can be reached: no name is there twice, and no asset is without one. -/
structure IsSound (b : Bundle) : Prop where
  names : b.HasDistinctNames
  made : ∀ f ∈ b.files, f.IsMade

variable {c : Change} {history : List Change}

theorem IsSound.perform_slots (h : b.IsSound) : c.perform b.slots = b.shown (c.outcome b) := by
  cases c with
  | construct files => exact run_construct_slots files
  | emit file => exact run_emit_slots
  | delete name => exact h.names.run_delete_slots name
  | replace name text => exact h.names.run_replace_slots h.made name text

/-! ## Outcomes -/

theorem contains_iff : b.contains name = true ↔ name ∈ b.files.map OutputFile.fileName := by
  rw [List.mem_map]
  constructor
  · intro h
    obtain ⟨before, f, after, hSplit, hName⟩ := exists_split h
    exact ⟨f, hSplit ▸ List.mem_append_right _ List.mem_cons_self, hName⟩
  · rintro ⟨f, hf, rfl⟩
    by_contra hAbsent
    exact not_contains_iff.mp (Bool.eq_false_iff.mpr hAbsent) f hf rfl

theorem emitAll_eq_ok (h : ((b.files ++ files).map OutputFile.fileName).Nodup) :
    files.foldlM Bundle.emit b = .ok ⟨b.files ++ files⟩ := by
  induction files generalizing b with
  | nil => rw [List.append_nil]; rfl
  | cons file rest ih =>
    have hFree : b.contains file.fileName = false := by
      rw [← Bool.not_eq_true, contains_iff]
      intro hTaken
      rw [List.map_append, List.nodup_append] at h
      exact h.2.2 _ hTaken _ List.mem_cons_self rfl
    rw [List.foldlM_cons, Bundle.emit, hFree, if_neg Bool.false_ne_true]
    have hRest := ih (b := ⟨b.files ++ [file]⟩) (List.append_cons b.files file rest ▸ h)
    rw [← List.append_cons] at hRest
    exact hRest

theorem ofFiles_eq_ok_iff :
    ofFiles files = .ok next ↔ (files.map OutputFile.fileName).Nodup ∧ next = ⟨files⟩ := by
  constructor
  · intro h
    obtain ⟨made⟩ := next
    obtain rfl : made = files := files_of_emitAll h
    exact ⟨hasDistinctNames_ofFiles h, rfl⟩
  · rintro ⟨hNames, rfl⟩
    exact emitAll_eq_ok hNames

/-- A bundle refuses a use that it must refuse. -/
theorem HasDistinctNames.outcome_of_isRefused (h : b.HasDistinctNames) (hRefused : c.IsRefused b) :
    ∃ e, c.outcome b = .error e := by
  cases c with
  | construct files =>
    cases hOutcome : ofFiles files with
    | error e => exact ⟨e, hOutcome⟩
    | ok next => exact absurd (ofFiles_eq_ok_iff.mp hOutcome).1 hRefused
  | emit file => exact ⟨.alreadyEmitted file.fileName, if_pos (contains_iff.mpr hRefused)⟩
  | delete name => exact ⟨.noFile name, if_neg (mt contains_iff.mp hRefused)⟩
  | replace name text =>
    have hNone : b.asset? name = none := by
      rcases hRefused with hAbsent | ⟨c, hMem, rfl⟩
      · rw [← contains_iff, contains, Bool.not_eq_true, Option.isSome_eq_false_iff,
          Option.isNone_iff_eq_none] at hAbsent
        rw [asset?, hAbsent]
        rfl
      · rw [asset?, show b.get? c.fileName = some (.chunk c) from h.get?_of_mem hMem]
        rfl
    refine ⟨.noAsset name, ?_⟩
    rw [Change.outcome, Bundle.replace, hNone]

/-- A bundle makes of every other use what it should. -/
theorem HasDistinctNames.exists_makes (h : b.HasDistinctNames) (hFits : ¬ c.IsRefused b) :
    ∃ next, c.outcome b = .ok next ∧ Change.Makes b c next := by
  cases c with
  | construct files =>
    exact ⟨⟨files⟩, ofFiles_eq_ok_iff.mpr ⟨not_not.mp hFits, rfl⟩, .construct files⟩
  | emit file => exact ⟨_, if_neg (mt contains_iff.mp hFits), .emit file⟩
  | delete name =>
    have hThere := contains_iff.mpr (not_not.mp hFits)
    obtain ⟨before, f, after, hSplit, rfl⟩ := exists_split hThere
    refine ⟨⟨before ++ after⟩, ?_, .delete hSplit⟩
    rw [Change.outcome, Bundle.delete, hThere, h.erase_of_split hSplit]
    rfl
  | replace name text =>
    obtain ⟨hNamed, hNoChunk⟩ := not_or.mp hFits
    obtain ⟨before, f, after, hSplit, rfl⟩ := exists_split (contains_iff.mpr (not_not.mp hNamed))
    have hMem : f ∈ b.files := hSplit ▸ List.mem_append_right _ List.mem_cons_self
    cases f with
    | chunk c => exact absurd ⟨c, hMem, rfl⟩ hNoChunk
    | asset a =>
      refine ⟨_, ?_, .replace hSplit text⟩
      have hOthers : b.files.filter (fun f => f.fileName != a.fileName) = before ++ after :=
        congrArg Bundle.files (h.erase_of_split hSplit)
      rw [Change.outcome, show (OutputFile.asset a).fileName = a.fileName from rfl,
        h.replace_of_mem hMem text, hOthers]
      rfl

theorem HasDistinctNames.outcome (h : b.HasDistinctNames) (hOutcome : c.outcome b = .ok next) :
    next.HasDistinctNames := by
  cases c with
  | construct files => exact hasDistinctNames_ofFiles hOutcome
  | emit file => exact h.emit hOutcome
  | delete name => exact h.delete hOutcome
  | replace name text => exact h.replace hOutcome

theorem Change.Makes.isMade (hMakes : Change.Makes b c next) (hFiles : ∀ f ∈ b.files, f.IsMade)
    (hMade : c.IsMade) : ∀ f ∈ next.files, f.IsMade := by
  cases hMakes with
  | construct files => exact hMade
  | emit file =>
    intro f hf
    rcases List.mem_append.mp hf with hf | hf
    · exact hFiles f hf
    · exact List.mem_singleton.mp hf ▸ hMade
  | delete hSplit =>
    intro f hf
    exact hFiles f (mem_of_split hSplit hf)
  | @replace before after a hSplit text =>
    intro f hf
    rcases List.mem_append.mp hf with hf | hf
    · exact hFiles f (mem_of_split hSplit hf)
    · have hOld : (OutputFile.asset a).IsMade :=
        hFiles _ (hSplit ▸ List.mem_append_right _ List.mem_cons_self)
      exact List.mem_singleton.mp hf ▸ hOld

/-! ## Histories -/

/-- What comes of a bundle as it can be reached can be reached as well. -/
theorem IsSound.after (h : b.IsSound) (hMade : c.IsMade) : (b.after c).IsSound := by
  unfold Bundle.after
  split
  · rename_i next hOutcome
    refine ⟨h.names.outcome hOutcome, ?_⟩
    by_cases hRefused : c.IsRefused b
    · obtain ⟨e, hError⟩ := h.names.outcome_of_isRefused hRefused
      rw [hError] at hOutcome
      cases hOutcome
    · obtain ⟨made, hMake, hMakes⟩ := h.names.exists_makes hRefused
      cases hMake.symm.trans hOutcome
      exact hMakes.isMade h.made hMade
  · exact h

theorem IsSound.perform_after (h : b.IsSound) : (c.perform b.slots).2 = (b.after c).slots := by
  rw [h.perform_slots, Bundle.after]
  cases c.outcome b <;> rfl

theorem IsSound.afterAll (h : b.IsSound) (hMade : ∀ c ∈ history, c.IsMade) :
    (b.afterAll history).IsSound ∧ b.slots.afterAll history = (b.afterAll history).slots := by
  induction history generalizing b with
  | nil => exact ⟨h, rfl⟩
  | cons c rest ih =>
    obtain ⟨hSound, hSlots⟩ :=
      ih (h.after (hMade c List.mem_cons_self)) fun d hd => hMade d (List.mem_cons_of_mem _ hd)
    refine ⟨hSound, ?_⟩
    rw [Slots.afterAll, List.foldl_cons, h.perform_after]
    exact hSlots

theorem isSound_empty : empty.IsSound := ⟨hasDistinctNames_empty, fun _ hf => nomatch hf⟩

/-- After every history of uses that may fail or not, each file of the dictionary is under its own name
and no name is there twice. Whatever is done next fails just if it must be refused, and leaves the
files and their order then; otherwise a file that is emitted comes last, one that is deleted is
missing between the others, and an asset that is replaced has moved to the end with its new text, all
else unchanged. -/
theorem history_exact (history : List Change) (hMade : ∀ c ∈ history, c.IsMade) :
    let b := empty.afterAll history
    Slots.afterAll [] history = b.slots ∧ b.HasDistinctNames ∧
    ∀ c : Change,
      (c.IsRefused b → ∃ e, c.outcome b = .error e ∧ c.perform b.slots = (.error e, b.slots)) ∧
      (¬ c.IsRefused b → ∃ next, c.outcome b = .ok next ∧ c.perform b.slots = (.ok (), next.slots) ∧
        Change.Makes b c next) := by
  intro b
  obtain ⟨hSound, hSlots⟩ := isSound_empty.afterAll hMade
  refine ⟨hSlots, hSound.names, fun c => ⟨fun hRefused => ?_, fun hFits => ?_⟩⟩
  · obtain ⟨e, hError⟩ := hSound.names.outcome_of_isRefused hRefused
    exact ⟨e, hError, hSound.perform_slots.trans (congrArg b.shown hError)⟩
  · obtain ⟨next, hOk, hMakes⟩ := hSound.names.exists_makes hFits
    exact ⟨next, hOk, hSound.perform_slots.trans (congrArg b.shown hOk), hMakes⟩

/-- A style sheet and a script: the script can be neither emitted again nor replaced, and what is not
there cannot be deleted. The style sheet moves to the end when it is replaced, and can be so again. -/
theorem history_exact_mixed :
    let sheet : Asset := ⟨"a.css", .text "", some "a", none, false⟩
    let script : Chunk := ⟨"a.js", ""⟩
    let history : List Change :=
      [.construct [.asset sheet, .chunk script], .emit (.chunk script), .replace "a.js" "b",
        .delete "b.css", .replace "a.css" "b"]
    let b : Bundle := ⟨[.chunk script, .asset { sheet with source := .text "b" }]⟩
    (∀ c ∈ history, c.IsMade) ∧ Slots.afterAll [] history = b.slots ∧ b.HasDistinctNames ∧
      ∃ next, (Change.replace "a.css" "c").perform b.slots = (.ok (), next.slots) ∧
        Change.Makes b (.replace "a.css" "c") next := by
  intro sheet script history b
  have hMade : ∀ c ∈ history, c.IsMade := by
    simp [history, sheet, Change.IsMade, OutputFile.IsMade]
  have hReached : empty.afterAll history = b := by decide +kernel
  obtain ⟨hSlots, hNames, hNext⟩ := history_exact history hMade
  rw [hReached] at hSlots hNames hNext
  obtain ⟨-, hFits⟩ := hNext (.replace "a.css" "c")
  have hReplaced : ¬ (Change.replace "a.css" "c").IsRefused b := by
    simp [Change.IsRefused, b, sheet, script, OutputFile.fileName]
  obtain ⟨next, -, hPerform, hMakes⟩ := hFits hReplaced
  exact ⟨hMade, hSlots, hNames, next, hPerform, hMakes⟩

end Bundle

end StyleSieve
