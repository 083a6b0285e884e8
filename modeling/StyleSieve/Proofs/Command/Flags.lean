import StyleSieve.Command.Config
import StyleSieve.Proofs.Options.Reads
import StyleSieve.Proofs.Pattern.Plain

/-!
# Options of the command line

What the command line says is appended to what the configuration file holds before any of it is
looked into. Options of the file that are written in another way than as a list are not always
taken for what they are then.

* `OptionFlags.read_appended_iff`: when the options are those of the file with the others appended.
-/

namespace StyleSieve.Command

open Options (names readItems readContentEntry)
open Setting (valueIn)

variable {fields own : Fields} {content : List Content} {safelist : Safelist}
  {patterns entries : List String} {converted : List Entry}

theorem get?_obj (key : String) (fields : Fields) :
    (Json.obj fields).get? key = fields.lookup key := lookup_eq_find? key fields

/-- The value of a field of an object, or nothing. -/
def heldBy (fields : Fields) (name : String) : Json := (fields.lookup name).getD .null

theorem valueIn_ofJsonFields (fields : Fields) (name : String) :
    valueIn (Setting.ofJsonFields fields) name = Setting.ofJson (heldBy fields name) := by
  rw [valueIn, Setting.ofJsonFields_eq_map, lookup_map_snd, heldBy]
  cases fields.lookup name <;> rfl

theorem heldBy_setField_self {key : String} {value : Json} :
    heldBy (setField key value fields) key = value := by
  rw [heldBy, lookup_setField_self, Option.getD_some]

theorem heldBy_setField_of_ne {key other : String} {value : Json} (h : other ≠ key) :
    heldBy (setField key value fields) other = heldBy fields other := by
  rw [heldBy, lookup_setField_of_ne h, ← heldBy]

/-- What holds of the names of all fields still does when one is set that it holds of. -/
theorem forall_names_setField {P : String → Prop} {key : String} {value : Json} (hKey : P key)
    (h : ∀ f ∈ Setting.ofJsonFields fields, P f.1) :
    ∀ f ∈ Setting.ofJsonFields (setField key value fields), P f.1 := by
  rw [Setting.ofJsonFields_eq_map, List.forall_mem_map] at h ⊢
  intro f hf
  rcases mem_setField hf with rfl | hf
  · exact hKey
  · exact h f hf

/-! ## Parts -/

/-- A value that is made of parts: a list, a text or an object. -/
def HasParts : Json → Prop
  | .arr _ => True
  | .str _ => True
  | .obj _ => True
  | _ => False

theorem exists_parts_iff {value : Json} : (∃ items, parts value = .ok items) ↔ HasParts value := by
  cases value <;> simp [parts, HasParts]

theorem parts_text (s : String) :
    (Setting.str s).parts = .ok (s.toList.map fun c => .str (String.singleton c)) := by
  rw [Setting.parts]
  split
  · rename_i hEmpty
    rw [String.isEmpty_iff.mp hEmpty]
    rfl
  · rfl

/-- The parts of a written value are those of the value that it is read as. -/
theorem parts_ofJson {value : Json} {items : List Json} (h : parts value = .ok items) :
    (Setting.ofJson value).parts = .ok (items.map Setting.ofJson) := by
  cases value with
  | arr =>
    cases h
    rw [Setting.ofJson, Setting.ofJsonItems_eq_map]
    cases items <;> rfl
  | str s =>
    cases h
    rw [Setting.ofJson, parts_text, List.map_map]
    rfl
  | obj fields =>
    cases h
    rw [Setting.ofJson, Setting.ofJsonFields_eq_map]
    cases fields <;> simp [Setting.parts, Setting.isEmpty, Setting.ofJson]
  | null => cases h
  | bool b => cases h
  | int n => cases h
  | float x => cases h

/-! ## Content -/

/-- Content options to which patterns can be appended: none, a list, and a text only if its letters
are the same as the text. -/
def TakesPatterns : Option Json → Prop
  | none => True
  | some (.arr _) => True
  | some (.obj _) => True
  | some (.str s) => s.length ≤ 1
  | some _ => False

theorem readItems_list {α : Type} (name : String) (read : Setting → Except Options.Error α)
    (items : List Setting) : readItems name read (.list items) = items.mapM read := by
  cases items <;> rfl

theorem mapM_readContentEntry [Runtime] (patterns : List String) :
    (patterns.map Setting.str).mapM readContentEntry = .ok (patterns.map .files) := by
  induction patterns with
  | nil => rfl
  | cons p patterns ih =>
    rw [List.map_cons, List.mapM_cons, ih]
    rfl

theorem readItems_appended [Runtime] (known : List Json) :
    readItems "content" readContentEntry (Setting.ofJson (.arr (known ++ patterns.map .str))) =
        .ok (content ++ patterns.map .files) ↔
      (known.map Setting.ofJson).mapM readContentEntry = .ok content := by
  have hTexts : (patterns.map Json.str).map Setting.ofJson = patterns.map Setting.str := by
    rw [List.map_map]
    rfl
  rw [Setting.ofJson, Setting.ofJsonItems_eq_map, readItems_list, List.map_append, hTexts]
  exact mapM_append_eq_ok_iff (mapM_readContentEntry patterns)

/-- The letters of a text as patterns are the text itself just if there is at most one. -/
theorem mapM_letters_iff [Runtime] {s : String} :
    (s.toList.map fun c => Setting.str (String.singleton c)).mapM readContentEntry =
        readItems "content" readContentEntry (.str s) ↔ s.length ≤ 1 := by
  have hLetters : (s.toList.map fun c => Setting.str (String.singleton c)).mapM readContentEntry =
      .ok (s.toList.map fun c => .files (String.singleton c)) := by
    have h := mapM_readContentEntry (s.toList.map String.singleton)
    rw [List.map_map, List.map_map] at h
    exact h
  rw [hLetters, ← String.length_toList]
  by_cases hEmpty : s = ""
  · rw [hEmpty]
    exact iff_of_true rfl (by decide)
  · have hWhole : readItems "content" readContentEntry (.str s) = .ok [.files s] := by
      rw [readItems, if_neg (by simpa [Setting.isEmpty] using hEmpty)]
      rfl
    rw [hWhole]
    constructor
    · intro h
      have hLength := congrArg List.length (Except.ok.inj h)
      rw [List.length_map] at hLength
      exact Nat.le_of_eq hLength
    · intro h
      cases hChars : s.toList with
      | nil => exact absurd (String.toList_eq_nil_iff.mp hChars) hEmpty
      | cons c rest =>
        rw [hChars, List.length_cons] at h
        have hRest : rest = [] := List.eq_nil_of_length_eq_zero (by omega)
        rw [hRest, List.map_cons, List.map_nil, String.singleton_eq_ofList, ← hRest, ← hChars,
          String.ofList_toList]

/-- Patterns are appended to the content options just if these can take them. -/
theorem content_appended_iff [Runtime] (patterns : List String)
    (hContent : readItems "content" readContentEntry (Setting.ofJson (heldBy fields "content")) =
      .ok content) :
    (∃ known, partsOf "content" fields = .ok known ∧
      readItems "content" readContentEntry (Setting.ofJson (.arr (known ++ patterns.map .str))) =
        .ok (content ++ patterns.map .files)) ↔ TakesPatterns (fields.lookup "content") := by
  simp only [readItems_appended, partsOf, get?_obj]
  rw [heldBy] at hContent
  cases hField : fields.lookup "content" with
  | none =>
    rw [hField] at hContent
    exact iff_of_true ⟨[], rfl, hContent⟩ trivial
  | some value =>
    rw [hField, Option.getD_some] at hContent
    cases value with
    | arr items =>
      refine iff_of_true ⟨items, rfl, ?_⟩ trivial
      rw [Setting.ofJson, Setting.ofJsonItems_eq_map, readItems_list] at hContent
      exact hContent
    | str s =>
      rw [Setting.ofJson] at hContent
      rw [TakesPatterns, ← mapM_letters_iff, hContent]
      constructor
      · rintro ⟨known, hKnown, hLetters⟩
        cases hKnown
        rw [List.map_map] at hLetters
        exact hLetters
      · intro hLetters
        refine ⟨_, rfl, ?_⟩
        rw [List.map_map]
        exact hLetters
    | obj own =>
      cases own with
      | nil => exact iff_of_true ⟨[], rfl, hContent⟩ trivial
      | cons f own => cases hContent
    | null => exact iff_of_false (fun ⟨_, h, _⟩ => nomatch h) id
    | bool b => exact iff_of_false (fun ⟨_, h, _⟩ => nomatch h) id
    | int n => exact iff_of_false (fun ⟨_, h, _⟩ => nomatch h) id
    | float x => exact iff_of_false (fun ⟨_, h, _⟩ => nomatch h) id

/-! ## Safelist -/

/-- A safelist to which entries can be appended: its standard part, if it is named, has parts. -/
def TakesEntries : Option Json → Prop
  | some (.obj own) => ∀ value ∈ own.lookup "standard", HasParts value
  | _ => True

/-- A list is the standard part of a safelist. -/
theorem readFields_standard [Runtime] {items : List Setting}
    (h : Safelist.read (.list items) = .ok safelist) :
    Safelist.readFields [("standard", .list items)] = .ok safelist := by
  obtain ⟨standard, hStandard, h⟩ := bind_eq_ok_iff.mp h
  cases Except.ok.inj h
  refine Safelist.readFields_eq_ok_iff.mpr ⟨by simp [Safelist.partitions], ?_, rfl, rfl, rfl, rfl⟩
  have hParts : (Setting.list items).parts = .ok items := by
    cases items <;> rfl
  exact bind_eq_ok_iff.mpr ⟨items, hParts, hStandard⟩

/-- The fields that a safelist is taken for are those of the same safelist. -/
theorem exists_safelistFields [Runtime]
    (h : Safelist.read (Setting.ofJson (heldBy fields "safelist")) = .ok safelist) :
    ∃ own, safelistFields fields = .ok own ∧
      Safelist.readFields (Setting.ofJsonFields own) = .ok safelist ∧
      (TakesEntries (fields.lookup "safelist") ↔ ∀ value ∈ own.lookup "standard", HasParts value) := by
  rw [heldBy] at h
  rw [safelistFields, get?_obj]
  have hNothing : ∀ value ∈ ([] : Fields).lookup "standard", HasParts value := by
    simp
  cases hField : fields.lookup "safelist" with
  | none =>
    rw [hField] at h
    exact ⟨[], rfl, h, iff_of_true trivial hNothing⟩
  | some value =>
    rw [hField, Option.getD_some] at h
    rw [Option.getD_some]
    cases value with
    | null => exact ⟨[], rfl, h, iff_of_true trivial hNothing⟩
    | arr items =>
      rw [Setting.ofJson] at h
      have hFields := readFields_standard h
      cases items with
      | nil => exact ⟨[], rfl, h, iff_of_true trivial hNothing⟩
      | cons first rest =>
        refine ⟨[("standard", .arr (first :: rest))], rfl, hFields, iff_of_true trivial ?_⟩
        simp [HasParts]
    | obj own => exact ⟨own, rfl, h, Iff.rfl⟩
    | bool b => cases h
    | int n => cases h
    | float x => cases h
    | str s => cases h

/-- Entries are appended to the standard part just if it has parts. -/
theorem standard_appended_iff [Runtime]
    (hSafelist : Safelist.readFields (Setting.ofJsonFields own) = .ok safelist)
    (hEntries : entries.mapM (fun e => Safelist.readEntry (.str e)) = .ok converted) :
    (∃ known, partsOf "standard" own = .ok known ∧
      Safelist.readFields (Setting.ofJsonFields
          (setField "standard" (.arr (known ++ entries.map .str)) own)) =
        .ok { safelist with standard := safelist.standard ++ converted }) ↔
      ∀ value ∈ own.lookup "standard", HasParts value := by
  obtain ⟨hKnown, hReads⟩ := Safelist.readFields_eq_ok_iff.mp hSafelist
  constructor
  · rintro ⟨known, hParts, -⟩ value hValue
    rw [partsOf, get?_obj, hValue] at hParts
    exact exists_parts_iff.mp ⟨known, hParts⟩
  · intro hHas
    have hStandard := hReads.standard
    rw [valueIn_ofJsonFields, heldBy] at hStandard
    obtain ⟨known, hParts, hRead⟩ : ∃ known, partsOf "standard" own = .ok known ∧
        (known.map Setting.ofJson).mapM Safelist.readEntry = .ok safelist.standard := by
      rw [partsOf, get?_obj]
      cases hField : own.lookup "standard" with
      | none =>
        rw [hField] at hStandard
        exact ⟨[], rfl, hStandard⟩
      | some value =>
        obtain ⟨items, hItems⟩ := exists_parts_iff.mpr (hHas value hField)
        rw [hField, Option.getD_some, parts_ofJson hItems] at hStandard
        exact ⟨items, hItems, hStandard⟩
    have hTexts : ((entries.map Json.str).map Setting.ofJson).mapM Safelist.readEntry =
        .ok converted := by
      rw [List.map_map, List.mapM_map]
      exact hEntries
    refine ⟨known, hParts, Safelist.readFields_eq_ok_iff.mpr
      ⟨forall_names_setField (by decide) hKnown, ?_, ?_, ?_, ?_, ?_⟩⟩
    · rw [valueIn_ofJsonFields, heldBy_setField_self, parts_ofJson rfl, List.map_append]
      exact (mapM_append_eq_ok_iff hTexts).mpr hRead
    · rw [valueIn_ofJsonFields, heldBy_setField_of_ne (by decide), ← valueIn_ofJsonFields]
      exact hReads.greedy
    · rw [valueIn_ofJsonFields, heldBy_setField_of_ne (by decide), ← valueIn_ofJsonFields]
      exact hReads.deep
    · rw [valueIn_ofJsonFields, heldBy_setField_of_ne (by decide), ← valueIn_ofJsonFields]
      exact hReads.keyframes
    · rw [valueIn_ofJsonFields, heldBy_setField_of_ne (by decide), ← valueIn_ofJsonFields]
      exact hReads.variables

/-! ## Both -/

/-- Fields of which at most one, that of a given name, has been set. -/
def IsSet (key : String) (fields after : Fields) : Prop :=
  after = fields ∨ ∃ value, after = setField key value fields

theorem IsSet.lookup {key name : String} {after : Fields} (h : IsSet key fields after)
    (hName : name ≠ key) : after.lookup name = fields.lookup name := by
  rcases h with rfl | ⟨value, rfl⟩
  · rfl
  · exact lookup_setField_of_ne hName

theorem IsSet.heldBy {key name : String} {after : Fields} (h : IsSet key fields after)
    (hName : name ≠ key) : heldBy after name = heldBy fields name := by
  rw [Command.heldBy, h.lookup hName, ← Command.heldBy]

theorem IsSet.forall_names {P : String → Prop} {key : String} {after : Fields}
    (h : IsSet key fields after) (hKey : P key) (hNames : ∀ f ∈ Setting.ofJsonFields fields, P f.1) :
    ∀ f ∈ Setting.ofJsonFields after, P f.1 := by
  rcases h with rfl | ⟨value, rfl⟩
  · exact hNames
  · exact forall_names_setField hKey hNames

theorem isSet_appendContent {after : Fields} (h : appendContent patterns fields = .ok after) :
    IsSet "content" fields after := by
  unfold appendContent at h
  split at h
  · exact Or.inl (Except.ok.inj h).symm
  · obtain ⟨known, -, h⟩ := bind_eq_ok_iff.mp h
    exact Or.inr ⟨_, (Except.ok.inj h).symm⟩

theorem isSet_appendSafelist {after : Fields} (h : appendSafelist entries fields = .ok after) :
    IsSet "safelist" fields after := by
  unfold appendSafelist at h
  split at h
  · exact Or.inl (Except.ok.inj h).symm
  · obtain ⟨own, -, h⟩ := bind_eq_ok_iff.mp h
    obtain ⟨extended, -, h⟩ := bind_eq_ok_iff.mp h
    exact Or.inr ⟨_, (Except.ok.inj h).symm⟩

theorem appendContent_iff [Runtime]
    (hContent : readItems "content" readContentEntry (Setting.ofJson (heldBy fields "content")) =
      .ok content) :
    (∃ after, appendContent patterns fields = .ok after ∧
      readItems "content" readContentEntry (Setting.ofJson (heldBy after "content")) =
        .ok (content ++ patterns.map .files)) ↔
      (patterns ≠ [] → TakesPatterns (fields.lookup "content")) := by
  cases patterns with
  | nil => exact iff_of_true ⟨fields, rfl, by simpa using hContent⟩ fun h => absurd rfl h
  | cons first rest =>
    rw [← content_appended_iff (first :: rest) hContent]
    constructor
    · rintro ⟨after, hAfter, hRead⟩ -
      obtain ⟨known, hKnown, h⟩ := bind_eq_ok_iff.mp hAfter
      cases Except.ok.inj h
      rw [heldBy_setField_self] at hRead
      exact ⟨known, hKnown, hRead⟩
    · intro h
      obtain ⟨known, hKnown, hRead⟩ := h (List.cons_ne_nil first rest)
      refine ⟨_, bind_eq_ok_iff.mpr ⟨known, hKnown, rfl⟩, ?_⟩
      rw [heldBy_setField_self]
      exact hRead

theorem appendSafelist_iff [Runtime]
    (hSafelist : Safelist.read (Setting.ofJson (heldBy fields "safelist")) = .ok safelist)
    (hEntries : entries.mapM (fun e => Safelist.readEntry (.str e)) = .ok converted) :
    (∃ after, appendSafelist entries fields = .ok after ∧
      Safelist.read (Setting.ofJson (heldBy after "safelist")) =
        .ok { safelist with standard := safelist.standard ++ converted }) ↔
      (entries ≠ [] → TakesEntries (fields.lookup "safelist")) := by
  cases entries with
  | nil =>
    cases hEntries
    exact iff_of_true ⟨fields, rfl, by simpa using hSafelist⟩ fun h => absurd rfl h
  | cons first rest =>
    obtain ⟨own, hOwn, hRead, hTakes⟩ := exists_safelistFields hSafelist
    rw [hTakes, ← standard_appended_iff hRead hEntries]
    constructor
    · rintro ⟨after, hAfter, hRead⟩ -
      obtain ⟨own', hOwn', h⟩ := bind_eq_ok_iff.mp hAfter
      cases hOwn.symm.trans hOwn'
      obtain ⟨extended, hExtended, h⟩ := bind_eq_ok_iff.mp h
      obtain ⟨known, hKnown, hSet⟩ := bind_eq_ok_iff.mp hExtended
      cases Except.ok.inj hSet
      cases Except.ok.inj h
      rw [heldBy_setField_self] at hRead
      exact ⟨known, hKnown, hRead⟩
    · intro h
      obtain ⟨known, hKnown, hRead⟩ := h (List.cons_ne_nil first rest)
      refine ⟨_, bind_eq_ok_iff.mpr ⟨own, hOwn, bind_eq_ok_iff.mpr ⟨_, bind_eq_ok_iff.mpr
        ⟨known, hKnown, rfl⟩, rfl⟩⟩, ?_⟩
      rw [heldBy_setField_self]
      exact hRead

/-- The object in a file that is a text of JSON with plain line ends. -/
theorem readObject_encode {path text : String} (hText : Utf8.decode (Utf8.encode text) = .ok text)
    (hLines : Text.withPlainLineEnds text = text) (hJson : Json.read text.toList = .ok (.obj fields)) :
    readObject path (Utf8.encode text) = .ok fields := by
  refine bind_eq_ok_iff.mpr ⟨text, mapError_eq_ok_iff.mpr hText, ?_⟩
  dsimp only
  rw [hLines, hJson]
  rfl

namespace OptionFlags

theorem fields_of_readObject {path : String} {contents : Bytes}
    (hFile : readObject path contents = .ok fields) :
    OptionFlags.fields ⟨some (path, contents), patterns, entries⟩ =
      appendContent patterns fields >>= appendSafelist entries := by
  change (readObject path contents >>= fun own =>
    appendContent patterns own >>= appendSafelist entries) = _
  rw [hFile]
  rfl

theorem read_eq_ok_iff [Runtime] {f : OptionFlags} {options : Options} :
    f.read.2 = .ok options ↔ ∃ fields, f.fields = .ok fields ∧
      (Options.read (Setting.ofJson (.obj fields))).outcome = .ok options := by
  unfold read
  cases f.fields with
  | error e => simp
  | ok fields => simp [mapError_eq_ok_iff]

/-- Options of the command line are appended to those of a file, and all else is as the file says,
just if the content and the standard part of the safelist are written in a way that takes more. -/
theorem read_appended_iff [Runtime] {path : String} {contents : Bytes} {options : Options}
    (hFile : readObject path contents = .ok fields)
    (hOptions : (Options.read (Setting.ofJson (.obj fields))).outcome = .ok options)
    (hEntries : entries.mapM (fun e => Safelist.readEntry (.str e)) = .ok converted) :
    (OptionFlags.read ⟨some (path, contents), patterns, entries⟩).2 =
        .ok { options with
          content := options.content ++ patterns.map .files
          safelist := { options.safelist with
            standard := options.safelist.standard ++ converted } } ↔
      (patterns ≠ [] → TakesPatterns (fields.lookup "content")) ∧
      (entries ≠ [] → TakesEntries (fields.lookup "safelist")) := by
  have hFields : ∀ last, OptionFlags.fields ⟨some (path, contents), patterns, entries⟩ = .ok last ↔
      ∃ after, appendContent patterns fields = .ok after ∧ appendSafelist entries after = .ok last := by
    intro last
    rw [fields_of_readObject hFile]
    exact bind_eq_ok_iff
  obtain ⟨hKnown, hReads⟩ := Options.outcome_eq_ok_iff.mp hOptions
  have hContent := hReads.content
  have hSafelist := hReads.safelist
  rw [valueIn_ofJsonFields] at hContent hSafelist
  rw [read_eq_ok_iff, ← appendContent_iff hContent]
  constructor
  · rintro ⟨last, hLast, hRead⟩
    obtain ⟨after, hAfter, hLast⟩ := (hFields last).mp hLast
    obtain ⟨-, hReads'⟩ := Options.outcome_eq_ok_iff.mp hRead
    have hContent' := hReads'.content
    have hSafelist' := hReads'.safelist
    have hSet := isSet_appendContent hAfter
    rw [valueIn_ofJsonFields] at hContent' hSafelist'
    rw [(isSet_appendSafelist hLast).heldBy (by decide)] at hContent'
    refine ⟨⟨after, hAfter, hContent'⟩, ?_⟩
    rw [← hSet.lookup (by decide)]
    rw [← hSet.heldBy (by decide)] at hSafelist
    exact (appendSafelist_iff hSafelist hEntries).mp ⟨last, hLast, hSafelist'⟩
  · rintro ⟨⟨after, hAfter, hContent'⟩, hTakes⟩
    have hSet := isSet_appendContent hAfter
    rw [← hSet.lookup (by decide)] at hTakes
    rw [← hSet.heldBy (by decide)] at hSafelist
    obtain ⟨last, hLast, hSafelist'⟩ := (appendSafelist_iff hSafelist hEntries).mpr hTakes
    have hSet' := isSet_appendSafelist hLast
    refine ⟨last, (hFields last).mpr ⟨after, hAfter, hLast⟩, Options.outcome_eq_ok_iff.mpr ⟨?_, ?_⟩⟩
    · have hAfterKnown := hSet.forall_names (P := Options.IsKnownName) (fun _ => by decide) hKnown
      exact hSet'.forall_names (P := Options.IsKnownName) (fun _ => by decide) hAfterKnown
    · refine hReads.changed ?_ ?_ ?_
      · intro name hName hNotContent hNotSafelist
        rw [valueIn_ofJsonFields, valueIn_ofJsonFields, hSet'.heldBy hNotSafelist,
          hSet.heldBy hNotContent]
      · rw [valueIn_ofJsonFields, hSet'.heldBy (by decide)]
        exact hContent'
      · rw [valueIn_ofJsonFields]
        exact hSafelist'

/-- Entries are appended to the letters of a standard part that is a text, next to another part, and
patterns to a list. -/
theorem read_appended_letters :
    let text := "\x7b\"content\": [\"a.html\"], \"safelist\": \x7b\"keyframes\": [\"k\"], " ++
      "\"standard\": \"ab\"\x7d\x7d"
    let fields : Fields := [("content", .arr [.str "a.html"]),
      ("safelist", .obj [("keyframes", .arr [.str "k"]), ("standard", .str "ab")])]
    let options : Options := { content := [.files "a.html"], safelist := {
      standard := [.literal "a", .literal "b"], keyframes := [.literal "k"] } }
    let pattern : Pattern := ⟨"gh", {}, [.literal 103, .literal 104], [none]⟩
    let entries := ["/gh/", "hero"]
    readObject "purge.json" (Utf8.encode text) = .ok fields ∧
      (Options.read (Setting.ofJson (.obj fields))).outcome = .ok options ∧
      entries.mapM (fun e => Safelist.readEntry (.str e)) =
        .ok [.pattern pattern, .literal "hero"] ∧
      (OptionFlags.read ⟨some ("purge.json", Utf8.encode text), ["b.html"], entries⟩).2 = .ok {
        options with
        content := [.files "a.html", .files "b.html"]
        safelist := { options.safelist with
          standard := [.literal "a", .literal "b", .pattern pattern, .literal "hero"] } } := by
  intro text fields options pattern entries
  have hFile : readObject "purge.json" (Utf8.encode text) = .ok fields := by
    refine readObject_encode (by decide +kernel) (by decide +kernel) ?_
    unfold text fields
    cbv
  have hOptions : (Options.read (Setting.ofJson (.obj fields))).outcome = .ok options := rfl
  have hPattern : Pattern.compile "gh" = .ok pattern := Pattern.compile_of_plain (by decide)
  have hEntry : Safelist.readEntry (.str "/gh/") = .ok (.pattern pattern) := by
    have hSource : Safelist.slashed? "/gh/" = some "gh" := by
      decide +kernel
    rw [Safelist.readEntry, hSource]
    dsimp only
    rw [Safelist.readPattern, hPattern]
    rfl
  have hEntries : entries.mapM (fun e => Safelist.readEntry (.str e)) =
      .ok [.pattern pattern, .literal "hero"] := by
    rw [List.mapM_cons, hEntry]
    rfl
  have hStandard : TakesEntries (fields.lookup "safelist") := by
    intro value hValue
    cases hValue
    trivial
  refine ⟨hFile, hOptions, hEntries, ?_⟩
  exact (read_appended_iff hFile hOptions hEntries).mpr ⟨fun _ => trivial, fun _ => hStandard⟩

/-- A content pattern that the file gives without a list is lost when another one is appended: its
letters are taken for patterns. An option that the file gives as nothing takes no pattern at all. -/
theorem not_read_appended :
    (let text := "\x7b\"content\": \"hero.txt\"\x7d"
    let fields : Fields := [("content", .str "hero.txt")]
    let options : Options := { content := [.files "hero.txt"] }
    readObject "purge.json" (Utf8.encode text) = .ok fields ∧
      (Options.read (Setting.ofJson (.obj fields))).outcome = .ok options ∧
      (OptionFlags.read ⟨some ("purge.json", Utf8.encode text), ["more.txt"], []⟩).2 ≠
        .ok { options with content := [.files "hero.txt", .files "more.txt"] }) ∧
    (let text := "\x7b\"content\": null\x7d"
    let fields : Fields := [("content", .null)]
    readObject "purge.json" (Utf8.encode text) = .ok fields ∧
      (Options.read (Setting.ofJson (.obj fields))).outcome = .ok {} ∧
      (OptionFlags.read ⟨some ("purge.json", Utf8.encode text), ["more.txt"], []⟩).2 =
        .error .notAppendable) := by
  constructor
  · intro text fields options
    have hFile : readObject "purge.json" (Utf8.encode text) = .ok fields := by
      refine readObject_encode (by decide +kernel) (by decide +kernel) ?_
      unfold text fields
      cbv
    refine ⟨hFile, rfl, fun hRead => ?_⟩
    obtain ⟨last, hLast, hOutcome⟩ := read_eq_ok_iff.mp hRead
    rw [fields_of_readObject hFile] at hLast
    cases hLast
    have hContent := (Options.outcome_eq_ok_iff.mp hOutcome).2.content
    revert hContent
    decide +kernel
  · intro text fields
    have hFile : readObject "purge.json" (Utf8.encode text) = .ok fields := by
      refine readObject_encode (by decide +kernel) (by decide +kernel) ?_
      unfold text fields
      cbv
    refine ⟨hFile, rfl, ?_⟩
    rw [read, fields_of_readObject hFile]
    rfl

end OptionFlags

end StyleSieve.Command
