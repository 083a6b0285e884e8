import StyleSieve.Proofs.Selector.Opening
import StyleSieve.Proofs.Selector.TakenApart

/-!
# Attribute selectors that are written anew

A style sheet writes the names and the string of an attribute selector with escapes of its own. What
the attribute selector stands for does not change, unless it is taken apart in the midst of a name:
it is so at a blank and at a sign that may follow the name, even where they belong to an escape.

* `Bracketed.IsRead.attributeTerm?_eq`: the term of an attribute selector that is taken apart into its
  parts.
* `Bracketed.IsRead.requoted`: what a style sheet writes is an attribute selector again.
* `Bracketed.IsRead.attributeTerm?_requoted`: it stands for the same term.
-/

namespace StyleSieve.Selector

open Text
open Css (writtenInString writtenName)

variable {name rest cs taken after : List Char} {parts : Bracketed} {comparison : Comparison}

/-! ## Parts that are told apart -/

/-- A name without blanks is split off as it was read. -/
theorem isSplitOff_of_splitName {room : Nat} (h : splitName isNamePart room cs = (taken, after))
    (hBlanks : ∀ c ∈ taken, isBlank c = false) : IsSplitOff endsAttributeName taken := by
  have hSplit := isSplitOff_sign h
  clear h
  induction hSplit with
  | nil => exact .nil
  | escape d h ih => exact .escape d (ih fun c hc => hBlanks c (by simp [hc]))
  | @plain c name hSlash hSign h ih =>
    have hBlank := hBlanks c List.mem_cons_self
    rw [endsAtSign, hBlank, Bool.not_false, Bool.and_true] at hSign
    exact .plain hSlash hSign (ih fun d hd => hBlanks d (List.mem_cons_of_mem c hd))

/-- The name that stands in front of the bar, if there is one. -/
def Space.spelled : Space → List Char
  | .name text => text
  | _ => []

/-- The name that is the value, if it is one. -/
def Value.spelled : Value → List Char
  | .name text => text
  | .quoted .. => []

/-- The parts are told apart where the attribute selector is taken apart: there is no blank in a name, and
no sign at which the reader stops. -/
structure Bracketed.IsSeparable (parts : Bracketed) : Prop where
  space : ∀ c ∈ parts.space.spelled, (isBlank c || c == '|' || c == '=' || c == ']') = false
  name : ∀ c ∈ parts.name, (isBlank c || c == '|') = false
  value : ∀ comparison ∈ parts.comparison, ∀ c ∈ comparison.value.spelled, (isBlank c || c == ']') = false

theorem Bracketed.IsRead.isTakenApart (h : parts.IsRead) (hOpen : parts.IsSeparable) : parts.IsTakenApart where
  space := by
    have hSpace := hOpen.space
    cases hKind : parts.space with
    | none =>
      intro x y hName
      have hBar := hOpen.name '|' (by simp [hName])
      cases hBar
    | bar => trivial
    | star => trivial
    | name text =>
      rw [hKind] at hSpace
      exact fun c hc => hSpace c ((List.dropWhile_suffix isBlank).subset hc)
  name := by
    have hBlanks : ∀ c ∈ parts.name, isBlank c = false := fun c hc =>
      (Bool.or_eq_false_iff.mp (hOpen.name c hc)).1
    have hSplit := isSplitOff_of_splitName (readName_iff.mp h.readName_tail).2 hBlanks
    exact ⟨parts.name, .refl parts.name, hSplit.isTakenWhole⟩
  value := by
    intro comparison hComparison
    have hValue := hOpen.value comparison hComparison
    cases hKind : comparison.value with
    | name text =>
      rw [hKind] at hValue
      exact ⟨text, .refl text, hValue⟩
    | quoted quote body => trivial

/-- The term of an attribute selector that is taken apart into its parts. -/
theorem Bracketed.IsRead.attributeTerm?_eq (h : parts.IsRead) (hOpen : parts.IsSeparable) :
    attributeTerm? ('[' :: parts.text) =
      some (attributeOf parts.name (parts.comparison.bind Comparison.condition)) :=
  h.attributeTerm?_of_isTakenApart (h.isTakenApart hOpen)

/-! ## What a style sheet writes -/

def Space.requoted : Space → Space
  | .name text => .name (writtenName (unescape text))
  | space => space

def Value.requoted : Value → Value
  | .name text => .name (writtenName (unescape text))
  | .quoted _ body => .quoted '"' ((unescape body).flatMap writtenInString)

def Comparison.requoted (comparison : Comparison) : Comparison :=
  { comparison with value := comparison.value.requoted }

/-- The parts with the names and the string of a style sheet. -/
def Bracketed.requoted (parts : Bracketed) : Bracketed :=
  { parts with
    space := parts.space.requoted
    name := writtenName (unescape parts.name)
    comparison := parts.comparison.map Comparison.requoted }

/-- The names can be read and written, and the parts are told apart as they are spelled and as they are
written. -/
structure Bracketed.IsRewritable (parts : Bracketed) : Prop where
  half : parts.HasNoHalf
  space : ∀ c ∈ unescape parts.space.spelled, isWritable c = true
  name : ∀ c ∈ unescape parts.name, isWritable c = true
  value : ∀ comparison ∈ parts.comparison, ∀ c ∈ unescape comparison.value.spelled, isWritable c = true
  spelled : parts.IsSeparable
  written : parts.requoted.IsSeparable

theorem Value.text_requoted (value : Value) : value.requoted.text = value.rewritten := by
  cases value <;> rfl

theorem Comparison.text_requoted (comparison : Comparison) :
    comparison.requoted.text = comparison.rewritten :=
  congrArg (fun text => comparison.sign ++ (comparison.gap ++ (text ++ comparison.behind)))
    comparison.value.text_requoted

theorem Bracketed.text_requoted (parts : Bracketed) : parts.requoted.text = parts.rewritten ++ [']'] := by
  have hSpace : parts.space.requoted.text = parts.space.rewritten := by cases parts.space <;> rfl
  have hComparison : (parts.comparison.map Comparison.requoted).elim [] Comparison.text =
      parts.comparison.elim [] Comparison.rewritten := by
    cases parts.comparison with
    | none => rfl
    | some comparison => exact comparison.text_requoted
  unfold Bracketed.text Bracketed.rewritten Bracketed.tail Bracketed.requoted
  dsimp only
  rw [hSpace, hComparison]
  simp

theorem readName_requoted (hName : readName (name ++ rest) = some (name, rest))
    (hWritable : ∀ c ∈ unescape name, isWritable c = true) {behind : List Char} (hEnds : EndsName behind) :
    readName (writtenName (unescape name) ++ behind) = some (writtenName (unescape name), behind) :=
  readName_writtenName (unescape_ne_nil (ne_nil_of_readName hName)) hWritable hEnds

theorem Comparison.IsRead.requoted (h : comparison.IsRead)
    (hWritable : ∀ c ∈ unescape comparison.value.spelled, isWritable c = true) :
    comparison.requoted.IsRead := by
  refine ⟨h.sign, h.gap, ?_, h.gap', h.flag⟩
  have hValue := h.value
  change comparison.value.requoted.IsRead (comparison.behind ++ [']'])
  cases hKind : comparison.value with
  | name text =>
    rw [hKind] at hValue hWritable
    intro more
    have hRead := hValue more
    have hName : readName (text ++ (comparison.gap' ++ (comparison.flag ++ ']' :: more))) =
        some (text, comparison.gap' ++ (comparison.flag ++ ']' :: more)) := by
      simpa [Comparison.behind] using hRead
    obtain ⟨c, hCut, y, hBehind⟩ := exists_behindValue h.gap' h.flag hName
    have hText : comparison.behind ++ [']'] = c :: y := by
      rw [← hBehind]
      simp [Comparison.behind]
    have hSlash : c ≠ '\\' := by
      rintro rfl
      cases hCut
    rw [hText] at hRead ⊢
    have hPart : isNamePart c = false := (stop_of_readName hRead c rfl).resolve_left hSlash
    exact readName_requoted hRead hWritable (splitName_stop_of_not hSlash hPart _)
  | quoted quote body =>
    refine ⟨Or.inl rfl, fun more => ?_⟩
    have hRead := readQuoted_written (unescape body) more
    simpa using hRead

namespace Bracketed.IsRead

/-- What follows the name starts with the same character. -/
theorem exists_tail_head (h : parts.IsRead) :
    ∃ c y y', parts.tail = c :: y ∧ parts.requoted.tail = c :: y' ∧ c ∈ wordEnds := by
  have hEnds := h.mem_wordEnds_tail []
  rw [List.append_nil] at hEnds
  obtain ⟨gap, space, name, gap', comparison⟩ := parts
  cases gap' with
  | cons c gap' => exact ⟨c, _, _, rfl, rfl, hEnds c rfl⟩
  | nil =>
    cases comparison with
    | none => exact ⟨']', [], [], rfl, rfl, by decide⟩
    | some comparison =>
      obtain ⟨c, more, hSign, hc, -⟩ := operator_cases (h.comparison comparison rfl).sign
      refine ⟨c, more ++ (comparison.gap ++ (comparison.value.text ++ comparison.behind)) ++ [']'],
        more ++ (comparison.gap ++ (comparison.value.requoted.text ++ comparison.behind)) ++ [']'],
        ?_, ?_, hc⟩
      · simp [Bracketed.tail, Comparison.text, hSign]
      · simp [Bracketed.tail, Bracketed.requoted, Comparison.requoted, Comparison.text, hSign,
          Comparison.behind]

/-- What is written is an attribute selector. -/
theorem requoted (h : parts.IsRead) (hRewritable : parts.IsRewritable) : parts.requoted.IsRead where
  gap := h.gap
  space := by
    have hRead := h.space
    have hWritable := hRewritable.space
    change parts.space.requoted.IsRead
    cases hKind : parts.space with
    | name text =>
      rw [hKind] at hRead hWritable
      intro more
      exact readName_requoted (hRead []) hWritable (splitName_stop_of_not (by decide) (by decide) more)
    | _ => trivial
  name more := by
    obtain ⟨c, y, y', -, hTail, hc⟩ := h.exists_tail_head
    have hAll : ∀ c ∈ wordEnds, c ≠ '\\' ∧ isNamePart c = false := by decide
    obtain ⟨hSlash, hPart⟩ := hAll c hc
    rw [hTail]
    exact readName_requoted (h.name []) hRewritable.name (splitName_stop_of_not hSlash hPart _)
  gap' := h.gap'
  comparison := by
    intro comparison hComparison
    obtain ⟨inner, hInner, rfl⟩ := Option.map_eq_some_iff.mp hComparison
    exact (h.comparison inner hInner).requoted (hRewritable.value inner hInner)

end Bracketed.IsRead

end StyleSieve.Selector
