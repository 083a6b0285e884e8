import StyleSieve.Proofs.Options.Reads
import StyleSieve.Proofs.Pattern.Literal
import StyleSieve.Proofs.Usage.Blocked
import StyleSieve.Proofs.Usage.Expansion

/-!
# Literal entries of the pattern parts

The greedy and the deep part of a safelist hold patterns. An entry there that is not between slashes
stands for its text, wherever it occurs in a selector.

* `Safelist.read_literal_parts`: such entries never fail, so all that can fail are the other parts.
* `Usage.keeps_withPatterns_iff`: patterns for whole selectors only ever add to what is kept.
* `Usage.keeps_iff_of_literal_parts`: a selector is kept if an entry occurs in it, and as without these
  parts otherwise.
-/

namespace StyleSieve

open Setting (valueIn)

namespace Safelist

variable {fields : List (String × Setting)} {entries greedy deep : List String} {text : String}

/-! ## Entries -/

/-- A text between slashes, with at least one character between them. -/
def IsSlashed (text : String) : Prop :=
  ∃ source : String, source ≠ "" ∧ text.toList = '/' :: source.toList ++ ['/']

theorem slashed?_eq_some_iff {source : String} :
    slashed? text = some source ↔ source ≠ "" ∧ text.toList = '/' :: source.toList ++ ['/'] := by
  unfold slashed?
  split
  · rename_i rest hText
    rw [hText, List.cons_append, List.cons.injEq, and_iff_right rfl]
    split
    · rename_i hEnds
      obtain ⟨hLength, hLast⟩ := Bool.and_eq_true_iff.mp hEnds
      obtain ⟨inner, rfl⟩ := List.getLast?_eq_some_iff.mp (eq_of_beq hLast)
      rw [List.dropLast_concat, Option.some.injEq, List.append_left_inj]
      constructor
      · rintro rfl
        refine ⟨?_, String.toList_ofList.symm⟩
        intro hEmpty
        rw [String.ofList_eq_empty_iff.mp hEmpty] at hLength
        exact absurd hLength (by decide)
      · rintro ⟨-, rfl⟩
        exact String.ofList_toList
    · rename_i hEnds
      refine iff_of_false nofun ?_
      rintro ⟨hSome, rfl⟩
      have hLength : 0 < source.toList.length :=
        List.length_pos_iff.mpr fun hNil => hSome (String.toList_eq_nil_iff.mp hNil)
      refine hEnds (Bool.and_eq_true_iff.mpr ⟨decide_eq_true ?_, ?_⟩)
      · rw [List.length_append]
        exact Nat.succ_le_succ hLength
      · rw [List.getLast?_concat]
        exact beq_self_eq_true _
  · rename_i hOther
    refine iff_of_false nofun ?_
    rintro ⟨-, hText⟩
    exact hOther _ hText

theorem slashed?_eq_none_iff : slashed? text = none ↔ ¬IsSlashed text := by
  rw [Option.eq_none_iff_forall_ne_some, IsSlashed, not_exists]
  exact forall_congr' fun source => not_congr slashed?_eq_some_iff

instance (text : String) : Decidable (IsSlashed text) :=
  decidable_of_iff (¬slashed? text = none) (not_congr slashed?_eq_none_iff |>.trans not_not)

/-- A text that is not between slashes stands for itself. -/
theorem readPatternEntry_literal [Runtime] (h : ¬IsSlashed text) :
    readPatternEntry (.str text) = .ok (Pattern.literal text) := by
  have hEntry : readEntry (.str text) = .ok (.literal text) := by
    rw [readEntry, slashed?_eq_none_iff.mpr h]
  refine bind_eq_ok_iff.mpr ⟨.literal text, hEntry, ?_⟩
  dsimp only
  rw [readPattern, Pattern.compile_escape]

theorem mapM_readPatternEntry_literal [Runtime] (h : ∀ e ∈ entries, ¬IsSlashed e) :
    (entries.map Setting.str).mapM readPatternEntry = .ok (entries.map Pattern.literal) := by
  rw [mapM_eq_ok_iff, List.forall₂_map_left_iff, List.forall₂_map_right_iff]
  exact List.forall₂_same.mpr fun e he => readPatternEntry_literal (h e he)

/-! ## Parts -/

/-- The parts that hold patterns only. -/
def patternPartitions : List String := ["greedy", "deep"]

/-- The fields of a mapping that are not about the parts that hold patterns only. -/
def otherFields (fields : List (String × Setting)) : List (String × Setting) :=
  fields.filter fun f => !patternPartitions.contains f.1

theorem readPart_otherFields {α : Type} {read : Setting → Except Options.Error α} {name : String}
    (h : patternPartitions.contains name = false) :
    readPart read (otherFields fields) name = readPart read fields name := by
  have hLookup : (otherFields fields).lookup name = fields.lookup name :=
    lookup_filter (p := fun name => !patternPartitions.contains name) (by rw [h]; rfl)
  rw [readPart_eq, readPart_eq, valueIn, hLookup, ← valueIn]

theorem readPart_otherFields_pattern {α : Type} {read : Setting → Except Options.Error α}
    {name : String} (h : patternPartitions.contains name = true) :
    readPart read (otherFields fields) name = .ok [] := by
  have hLookup : (otherFields fields).lookup name = none :=
    lookup_filter_of_not (p := fun name => !patternPartitions.contains name) (by rw [h]; rfl)
  rw [readPart_eq, valueIn, hLookup]
  rfl

theorem readPart_literal [Runtime] {name : String}
    (hParts : (valueIn fields name).parts = .ok (entries.map .str))
    (h : ∀ e ∈ entries, ¬IsSlashed e) :
    readPart readPatternEntry fields name = .ok (entries.map Pattern.literal) := by
  rw [readPart_eq, hParts]
  exact mapM_readPatternEntry_literal h

/-- The names of unknown parts are the same. -/
theorem unknown_otherFields :
    (((otherFields fields).map (·.1)).filter fun name => !partitions.contains name) =
      (fields.map (·.1)).filter fun name => !partitions.contains name := by
  rw [List.filter_map, List.filter_map, otherFields, List.filter_filter]
  refine congrArg _ (List.filter_congr fun f _ => ?_)
  have hKnown : ∀ name ∈ patternPartitions, partitions.contains name = true := by decide
  cases hPart : patternPartitions.contains f.1 with
  | false => exact Bool.and_true _
  | true =>
    have hName : partitions.contains f.1 = true := hKnown f.1 (List.contains_iff_mem.mp hPart)
    simp only [Function.comp_apply, hName]
    rfl

/-- Literal entries never fail: with them a safelist is read as without, and has their patterns. -/
theorem read_literal_parts [Runtime] (hGreedy : (valueIn fields "greedy").parts = .ok (greedy.map .str))
    (hDeep : (valueIn fields "deep").parts = .ok (deep.map .str))
    (hPlain : ∀ e ∈ greedy ++ deep, ¬IsSlashed e) :
    read (.map fields) = (read (.map (otherFields fields))).map fun s =>
      { s with greedy := greedy.map Pattern.literal, deep := deep.map Pattern.literal } := by
  obtain ⟨hPlainGreedy, hPlainDeep⟩ := List.forall_mem_append.mp hPlain
  change readFields fields = (readFields (otherFields fields)).map _
  unfold readFields
  rw [unknown_otherFields, readPart_otherFields (by decide), readPart_otherFields_pattern (by decide),
    readPart_otherFields_pattern (by decide), readPart_otherFields (by decide),
    readPart_otherFields (by decide), readPart_literal hGreedy hPlainGreedy,
    readPart_literal hDeep hPlainDeep]
  dsimp only
  split
  · rfl
  · cases readPart readEntry fields "standard" with
    | error e => rfl
    | ok standard =>
      cases readPart readEntry fields "keyframes" with
      | error e => rfl
      | ok keyframes => cases readPart readEntry fields "variables" <;> rfl

end Safelist

/-! ## Verdicts -/

namespace Usage

variable {u : Usage} {patterns deeper : List Pattern} {text : String}

/-- What is known with other patterns for whole selectors. -/
def withPatterns (u : Usage) (greedy deep : List Pattern) : Usage :=
  { u with safelist := { u.safelist with greedy := greedy, deep := deep } }

/-- Patterns for whole selectors say nothing about single terms. -/
theorem keepsTerms_withPatterns (c : ComplexSelector) :
    (u.withPatterns patterns deeper).keepsTerms c = u.keepsTerms c := by
  rw [Bool.eq_iff_iff, keepsTerms_iff_exists_admits, keepsTerms_iff_exists_admits]
  rfl

/-- Patterns for whole selectors only ever add to what is kept. -/
theorem keeps_withPatterns_iff :
    (u.withPatterns patterns deeper).keeps text = true ↔
      (∃ p ∈ patterns ++ deeper, p.search text = true) ∨ (u.withPatterns [] []).keeps text = true := by
  have hNone : ¬∃ p ∈ ([] ++ [] : List Pattern), p.search text = true := by
    rintro ⟨p, hp, -⟩
    cases hp
  rw [keeps_iff, keeps_iff, isProtected_iff, isProtected_iff]
  simp only [keepsTerms_withPatterns]
  exact or_congr_right (or_iff_right hNone).symm

/-- **Literal entries mean that their text occurs**: the greedy and the deep part of a safelist that
hold texts which are not between slashes are always read, and with them a selector is kept just if one
of the texts occurs in it, or it is kept without the two parts. -/
theorem keeps_iff_of_literal_parts [Runtime] {fields : List (String × Setting)} {greedy deep : List String}
    (hGreedy : (valueIn fields "greedy").parts = .ok (greedy.map .str))
    (hDeep : (valueIn fields "deep").parts = .ok (deep.map .str))
    (hPlain : ∀ e ∈ greedy ++ deep, ¬Safelist.IsSlashed e) :
    (Safelist.read (.map fields) =
        (Safelist.read (.map (Safelist.otherFields fields))).map fun s =>
          { s with greedy := greedy.map Pattern.literal, deep := deep.map Pattern.literal }) ∧
      ∀ s, Safelist.read (.map fields) = .ok s → ∀ tokens blocklist text,
        (keeps ⟨tokens, s, blocklist⟩ text = true ↔
          (∃ e ∈ greedy ++ deep, e.toList <:+: text.toList) ∨
            keeps ⟨tokens, { s with greedy := [], deep := [] }, blocklist⟩ text = true) := by
  have hRead := Safelist.read_literal_parts hGreedy hDeep hPlain
  refine ⟨hRead, ?_⟩
  intro s hs tokens blocklist text
  rw [hRead] at hs
  obtain ⟨others, -, rfl⟩ := map_eq_ok_iff.mp hs
  have hFound : (∃ p ∈ greedy.map Pattern.literal ++ deep.map Pattern.literal, p.search text = true) ↔
      ∃ e ∈ greedy ++ deep, e.toList <:+: text.toList := by
    rw [← List.map_append]
    simp only [List.mem_map, exists_exists_and_eq_and, Pattern.search_literal_iff]
  rw [← hFound]
  exact keeps_withPatterns_iff (u := ⟨tokens, others, blocklist⟩)

/-- Signs of patterns, a lone slash, a backslash and a line feed stand for themselves; the last two are
entries of a part that is given as a text. -/
theorem keeps_iff_of_literal_parts_signs :
    let greedy := ["a.b[c", "/"]
    let deep := ["\\", "\n"]
    let fields : List (String × Setting) :=
      [("greedy", .list (greedy.map .str)), ("standard", .list [.str "x"]), ("deep", .str "\\\n")]
    ((valueIn fields "greedy").parts = .ok (greedy.map .str) ∧
      (valueIn fields "deep").parts = .ok (deep.map .str) ∧
      ∀ e ∈ greedy ++ deep, ¬Safelist.IsSlashed e) ∧
    ∃ s, Safelist.read (.map fields) = .ok s ∧
      keeps ⟨["b"], s, []⟩ "p a.b[c q" = true ∧ keeps ⟨["b"], s, []⟩ "b\n" = true ∧
      keeps ⟨["b"], s, []⟩ "b.x" = true ∧ keeps ⟨["b"], s, []⟩ "axb" = false := by
  intro greedy deep fields
  have hGreedy : (valueIn fields "greedy").parts = .ok (greedy.map .str) := rfl
  have hDeep : (valueIn fields "deep").parts = .ok (deep.map .str) := rfl
  have hPlain : ∀ e ∈ greedy ++ deep, ¬Safelist.IsSlashed e := by decide
  obtain ⟨hRead, hKeeps⟩ := keeps_iff_of_literal_parts hGreedy hDeep hPlain
  let s : Safelist := {
    standard := [.literal "x"]
    greedy := greedy.map Pattern.literal
    deep := deep.map Pattern.literal }
  have hs : Safelist.read (.map fields) = .ok s := by
    rw [hRead]
    rfl
  refine ⟨⟨hGreedy, hDeep, hPlain⟩, s, hs, ?_, ?_, ?_, Bool.eq_false_iff.mpr fun hKept => ?_⟩
  · exact (hKeeps s hs _ _ _).mpr (Or.inl ⟨"a.b[c", by decide, by decide⟩)
  · exact (hKeeps s hs _ _ _).mpr (Or.inl ⟨"\n", by decide, by decide⟩)
  · exact (hKeeps s hs _ _ _).mpr (Or.inr (by decide +kernel))
  · rcases (hKeeps s hs _ _ _).mp hKept with hOccurs | hOther
    · exact absurd hOccurs (by decide)
    · exact absurd hOther (by decide +kernel)

end Usage

end StyleSieve
