import StyleSieve.Proofs.Pattern.Plain
import StyleSieve.Proofs.Selector.Candidate
import StyleSieve.Selector.Admission

/-!
# Utility classes

The names of utility classes are segments of word characters and hyphens, with the signs of variants
(`md:`), importance (`!`), fractions (`1/2`) and decimals (`1.5`) in front of them.

* `readLooseName_segment`, `readLooseName_led`: a segment is read as one name, also behind a sign
  that may lead a name.
* `acceptsFrom_segments`: segment by segment, the rest of a name is accepted.
* `isAdmissible_of_isUtility`: the names of utility classes are admitted.
-/

namespace StyleSieve.Selector

open Text

variable {name segment rest cs after : List Char} {c : Char}

/-- A run of word characters and hyphens, not empty. -/
structure IsSegment (cs : List Char) : Prop where
  nonempty : cs ≠ []
  chars : ∀ c ∈ cs, isWordChar c = true ∨ c = '-'

/-- The signs that stand in front of segments behind the first. -/
def segmentSigns : List (List Char) := [[':'], [':', '!'], ['/'], ['.']]

/-- Any number of segments with signs in front of them. -/
inductive AreSegments : List Char → Prop where
  | nil : AreSegments []
  | cons {sign segment rest : List Char} (hSign : sign ∈ segmentSigns)
      (hSegment : IsSegment segment) (hRest : AreSegments rest) :
    AreSegments (sign ++ (segment ++ rest))

/-- The name of a utility class: segments, possibly behind an exclamation mark. -/
def IsUtility (cs : List Char) : Prop :=
  ∃ lead segment rest, cs = lead ++ (segment ++ rest) ∧ (lead = [] ∨ lead = ['!']) ∧
    IsSegment segment ∧ AreSegments rest

/-! ## Characters -/

theorem notMem_signs_of_isWordChar (h : isWordChar c = true) : c ∉ Pattern.signs := by
  have hNone : ∀ c ∈ Pattern.signs, isWordChar c = false := by decide +kernel
  intro hMem
  rw [hNone c hMem] at h
  cases h

theorem IsSegment.notMem_signs (h : IsSegment segment) : ∀ c ∈ segment, c ∉ Pattern.signs := by
  intro c hc
  rcases h.chars c hc with hWord | rfl
  · exact notMem_signs_of_isWordChar hWord
  · decide

theorem AreSegments.notMem_signs (h : AreSegments cs) : ∀ c ∈ cs, c ∉ Pattern.signs := by
  induction h with
  | nil => nofun
  | cons hSign hSegment _ ih =>
    have hSigns : ∀ sign ∈ segmentSigns, ∀ c ∈ sign, c ∉ Pattern.signs := by decide
    simp only [List.mem_append]
    rintro c (hc | hc | hc)
    · exact hSigns _ hSign c hc
    · exact hSegment.notMem_signs c hc
    · exact ih c hc

theorem IsUtility.notMem_signs (h : IsUtility cs) : ∀ c ∈ cs, c ∉ Pattern.signs := by
  obtain ⟨lead, segment, rest, rfl, hLead, hSegment, hRest⟩ := h
  simp only [List.mem_append]
  rintro c (hc | hc | hc)
  · rcases hLead with rfl | rfl
    · cases hc
    · rw [List.mem_singleton.mp hc]
      decide
  · exact hSegment.notMem_signs c hc
  · exact hRest.notMem_signs c hc

theorem IsSegment.isLoosePart (h : IsSegment segment) : ∀ c ∈ segment, isLoosePart c = true := by
  intro c hc
  rcases h.chars c hc with hWord | rfl <;> simp_all [Selector.isLoosePart]

/-- A segment begins with no character that makes more of a selector than its name. -/
theorem IsSegment.head_notMem (h : IsSegment segment) :
    ∀ c ∈ segment.head?, c ∉ ['*', '.', '#', '[', ':'] := by
  have hNone : ∀ c ∈ ['*', '.', '#', '[', ':'], Selector.isLoosePart c = false := by decide +kernel
  intro c hc hMem
  have hPart := h.isLoosePart c (List.mem_of_head? hc)
  rw [hNone c hMem] at hPart
  cases hPart

theorem IsSegment.ne_slash (h : IsSegment segment) : ∀ c ∈ segment, c ≠ '\\' := by
  rintro c hc rfl
  exact h.notMem_signs _ hc (by decide)

/-! ## Names -/

theorem AreSegments.endsLooseName (h : AreSegments rest) : EndsLooseName rest := by
  intro c hc
  cases h with
  | nil => cases hc
  | cons hSign hSegment hRest =>
    have hHeads : ∀ sign ∈ segmentSigns, ∀ more, ∀ c ∈ (sign ++ more).head?,
        c ≠ '\\' ∧ isLoosePart c = false := by
      have hSigns : ∀ c ∈ [':', '/', '.'], c ≠ '\\' ∧ isLoosePart c = false := by decide +kernel
      intro sign hSign more c hc
      simp only [segmentSigns, List.mem_cons, List.not_mem_nil, or_false] at hSign
      rcases hSign with rfl | rfl | rfl | rfl <;>
        cases hc <;>
        exact hSigns _ (by decide)
    exact hHeads _ hSign _ c hc

theorem splitName_segment (hSegment : IsSegment segment) (hEnds : EndsLooseName rest) :
    splitName isLoosePart 0 (segment ++ rest) = (segment, rest) :=
  splitName_parts (fun c hc => ⟨hSegment.ne_slash c hc, hSegment.isLoosePart c hc⟩) hEnds

/-- A segment is read as one name. -/
theorem readLooseName_segment (hSegment : IsSegment segment) (hEnds : EndsLooseName rest) :
    readLooseName (segment ++ rest) = some (segment, rest) :=
  readLooseName_of_splitName hSegment.nonempty (splitName_segment hSegment hEnds)

/-- A segment is read as one name together with a sign that may lead it. -/
theorem readLooseName_led (hLead : isLooseLead c = true) (hSegment : IsSegment segment)
    (hEnds : EndsLooseName rest) :
    readLooseName (c :: (segment ++ rest)) = some (c :: segment, rest) := by
  have hSome : segment.isEmpty = false := by simpa using hSegment.nonempty
  unfold readLooseName
  dsimp only
  rw [if_pos hLead, splitName_segment hSegment hEnds]
  simp [hSome]

/-! ## Pieces -/

namespace Piece

theorem notMem_paren (h : ∀ c ∈ cs, c ∉ Pattern.signs) : '(' ∉ cs := fun hMem =>
  h '(' hMem (by decide)

/-- A name that no parenthesis follows is a pseudo selector of its own. -/
theorem nextPseudo_name (h : readLooseName cs = some (name, after)) (hParen : '(' ∉ cs) :
    nextPseudo cs = some (simple, name.length) := by
  have hSelectors : readSelectorFunction cs = none := by
    have hAll : cs.takeWhile (· != '(') = cs :=
      List.takeWhile_eq_self_iff.mpr fun c hc => by
        have hOther : c ≠ '(' := fun hSame => hParen (hSame ▸ hc)
        simpa using hOther
    unfold readSelectorFunction
    rw [hAll]
    simp
  have hFunction : readFunction readLooseName cs = none := by
    unfold readFunction
    rw [h]
    cases after with
    | nil => rfl
    | cons c more =>
      have hOther : c ≠ '(' := by
        rintro rfl
        rw [← isReader_readLooseName.append h] at hParen
        simp at hParen
      split
      · rename_i hSame
        cases hSame
        exact absurd rfl hOther
      · rfl
  unfold nextPseudo
  rw [hSelectors, hFunction, h]
  rfl

/-- A loose name at the start is a simple selector. -/
theorem next_name (h : readLooseName (name ++ rest) = some (name, rest)) (hSome : name ≠ [])
    (hHead : ∀ c ∈ name.head?, c ∉ ['*', '.', '#', '[', ':']) :
    next true (name ++ rest) = some (simple, name.length) := by
  obtain ⟨c, more, rfl⟩ := List.exists_cons_of_ne_nil hSome
  rw [List.cons_append] at h ⊢
  simp [next, nextSimple_name (hHead c rfl), h]

/-- Every sign in front of a segment makes one simple selector of the two. -/
theorem next_segment {sign : List Char} (hSign : sign ∈ segmentSigns) (hSegment : IsSegment segment)
    (hEnds : EndsLooseName rest) (hParen : '(' ∉ segment ++ rest) :
    next false (sign ++ (segment ++ rest)) = some (simple, (sign ++ segment).length) := by
  have hName := readLooseName_segment hSegment hEnds
  have hHead : ∀ more, segment ++ rest ≠ ':' :: more := by
    intro more hSame
    obtain ⟨c, behind, rfl⟩ := List.exists_cons_of_ne_nil hSegment.nonempty
    have hColon := hSegment.head_notMem c rfl
    rw [(List.cons.inj hSame).1] at hColon
    exact hColon (by decide)
  simp only [segmentSigns, List.mem_cons, List.not_mem_nil, or_false] at hSign
  rcases hSign with rfl | rfl | rfl | rfl
  · rw [List.singleton_append, next_simple (by decide), nextSimple_colon hHead,
      nextPseudo_name hName hParen]
    simp
  · have hLed := readLooseName_led (c := '!') (by decide) hSegment hEnds
    have hParen : '(' ∉ '!' :: (segment ++ rest) := by simpa using hParen
    rw [List.cons_append, List.singleton_append, next_simple (by decide),
      nextSimple_colon (by simp), nextPseudo_name hLed hParen]
    simp
  · have hLed := readLooseName_led (c := '/') (by decide) hSegment hEnds
    have hBehind : nextBehind '/' (segment ++ rest) = nextSimple '/' (segment ++ rest) := rfl
    rw [List.singleton_append, next, if_neg Bool.false_ne_true, hBehind,
      nextSimple_name (by decide), hLed]
    simp
  · rw [List.singleton_append, next_simple (by decide), nextSimple_dot hName]
    simp

end Piece

/-- Segment by segment, the rest of a name is accepted. -/
theorem acceptsFrom_segments (h : AreSegments cs) : acceptsFrom 0 false cs = true := by
  induction h with
  | nil => rw [acceptsFrom_nil, beq_self_eq_true]
  | @cons sign segment rest hSign hSegment hRest ih =>
    have hChars : ∀ c ∈ segment ++ rest, c ∉ Pattern.signs := fun c hc =>
      (List.mem_append.mp hc).elim (hSegment.notMem_signs c) (hRest.notMem_signs c)
    have hNext := Piece.next_segment hSign hSegment hRest.endsLooseName (Piece.notMem_paren hChars)
    have hBehind : (sign ++ (segment ++ rest)).drop (sign ++ segment).length = rest := by
      rw [← List.append_assoc, List.drop_left]
    rw [acceptsFrom_of_next hNext rfl, hBehind]
    exact ih

theorem isCandidate_of_isUtility {token : String} (h : IsUtility token.toList) :
    isCandidate token = true := by
  obtain ⟨lead, segment, rest, hToken, hLead, hSegment, hRest⟩ := h
  have hEnds := hRest.endsLooseName
  have hSome : lead ++ segment ≠ [] := by simp [hSegment.nonempty]
  have hNext : Piece.next true (lead ++ segment ++ rest) =
      some (.simple, (lead ++ segment).length) := by
    rcases hLead with rfl | rfl
    · exact Piece.next_name (readLooseName_segment hSegment hEnds) hSome hSegment.head_notMem
    · refine Piece.next_name (readLooseName_led (by decide) hSegment hEnds) hSome fun c hc => ?_
      cases hc
      decide
  rw [← String.ofList_toList (s := token), hToken, ← List.append_assoc,
    isCandidate_ofList (List.append_ne_nil_of_left_ne_nil hSome rest),
    acceptsFrom_of_next hNext rfl, List.drop_left]
  exact acceptsFrom_segments hRest

/-- The names of utility classes are admitted. -/
theorem isAdmissible_of_isUtility [Runtime] (token : String) (h : IsUtility token.toList) :
    isAdmissible token = .ok true := by
  have hCompile := Pattern.compile_of_plain h.notMem_signs
  rw [isAdmissible, if_pos (isCandidate_of_isUtility h), isPattern, hCompile]

/-- A variant, with an important class of a fraction behind it. -/
theorem isAdmissible_of_isUtility_variant :
    IsUtility "!md:!w-1/2".toList ∧ isAdmissible "!md:!w-1/2" = .ok true := by
  have hFraction : AreSegments (['/'] ++ (['2'] ++ [])) :=
    .cons (by decide) ⟨by decide, by decide +kernel⟩ .nil
  have hImportant : AreSegments ([':', '!'] ++ (['w', '-', '1'] ++ ['/', '2'])) :=
    .cons (by decide) ⟨by decide, by decide +kernel⟩ hFraction
  have hUtility : IsUtility "!md:!w-1/2".toList :=
    ⟨['!'], ['m', 'd'], _, by decide, .inr rfl, ⟨by decide, by decide +kernel⟩, hImportant⟩
  exact ⟨hUtility, isAdmissible_of_isUtility _ hUtility⟩

end StyleSieve.Selector
