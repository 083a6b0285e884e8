import StyleSieve.Proofs.Selector.TakenWhole

/-!
# Attribute selectors that are taken apart into their parts

An attribute selector is read twice: once for what it is, and once more for its name, its operator and
its value. The second reading knows blanks and signs, but not which of them belong to an escape.

That the term comes out right only if both readings cut the text at the same places is shown by
counting. A cut at another equals sign leaves more or fewer of them in the value, a cut at another bar
more or fewer bars in the name, and a blank that is left out is missing from the value.

* `Bracketed.IsRead.rest_eq`: the operator is where it was read if the condition comes out right.
* `Bracketed.IsRead.attributeTerm?_iff`: exactly when the term comes out right.
-/

namespace StyleSieve.Selector

open Text

variable {name rest cs text blanks : List Char} {c : Char} {parts : Bracketed}
  {comparison : Comparison} {found : Option (AttributeOperator × List Char)}

/-! ## Conditions -/

/-- The condition that a comparison stands for. -/
def Comparison.condition (comparison : Comparison) : Option (AttributeOperator × List Char) :=
  (readOperator comparison.sign).map fun (op, _) => (op, comparison.value.inner)

/-- A condition with the value that its text stands for. -/
def resolved (condition : AttributeOperator × List Char) : AttributeOperator × String :=
  (condition.1, String.ofList (unescape condition.2))

theorem exists_readOperator {sign : List Char} (h : IsOperator ['~', '|', '^', '$', '*'] sign) :
    ∃ op, ∀ rest, readOperator (sign ++ rest) = some (op, rest) := by
  rcases h with rfl | ⟨c, hc, rfl⟩
  · exact ⟨.equals, fun rest => rfl⟩
  · simp only [List.mem_cons, List.not_mem_nil, or_false] at hc
    rcases hc with rfl | rfl | rfl | rfl | rfl
    · exact ⟨.includes, fun rest => rfl⟩
    · exact ⟨.dashMatch, fun rest => rfl⟩
    · exact ⟨.beginsWith, fun rest => rfl⟩
    · exact ⟨.endsWith, fun rest => rfl⟩
    · exact ⟨.contains, fun rest => rfl⟩

theorem append_of_readOperator {op : AttributeOperator} (h : readOperator cs = some (op, rest)) :
    cs = op.sign.toList ++ rest := by
  unfold readOperator at h
  split at h <;> cases h <;> rfl

theorem exists_mark (op : AttributeOperator) : ∃ mark, op.sign.toList = mark ++ ['='] := by
  cases op
  · exact ⟨[], rfl⟩
  · exact ⟨['~'], rfl⟩
  · exact ⟨['|'], rfl⟩
  · exact ⟨['^'], rfl⟩
  · exact ⟨['$'], rfl⟩
  · exact ⟨['*'], rfl⟩

theorem skipBlanks_blanks (hBlanks : ∀ b ∈ blanks, isBlank b = true) (rest : List Char) :
    skipBlanks (blanks ++ rest) = skipBlanks rest :=
  List.dropWhile_append_of_pos hBlanks

theorem skipBlanks_append (hBlank : isBlank c = false) (text rest : List Char) :
    skipBlanks (text ++ c :: rest) = skipBlanks text ++ c :: rest := by
  induction text with
  | nil => exact skipBlanks_other hBlank rest
  | cons d text ih =>
    cases hHead : isBlank d with
    | true => rw [List.cons_append, skipBlanks_blank hHead, skipBlanks_blank hHead, ih]
    | false => rw [List.cons_append, skipBlanks_other hHead, skipBlanks_other hHead, List.cons_append]

theorem readCondition_blanks (hBlanks : ∀ b ∈ blanks, isBlank b = true) (rest : List Char) :
    readCondition (blanks ++ rest) = readCondition rest := by
  unfold readCondition
  rw [skipBlanks_blanks hBlanks]

/-- A condition is nothing, or an operator with a value behind it. -/
theorem readCondition_cases (h : readCondition cs = some found) :
    ∃ blanks, (∀ b ∈ blanks, isBlank b = true) ∧
      ((found = none ∧ cs = blanks ++ [']']) ∨
        ∃ op value rest, found = some (op, value) ∧ cs = blanks ++ (op.sign.toList ++ rest) ∧
          readAttributeValue (skipBlanks rest) = some value) := by
  obtain ⟨blanks, hBlanks, hText⟩ := exists_blanks cs
  refine ⟨blanks, hBlanks, ?_⟩
  unfold readCondition at h
  dsimp only at h
  split at h
  · rename_i hClosed
    cases h
    rw [beq_iff_eq.mp hClosed] at hText
    exact Or.inl ⟨rfl, hText⟩
  · obtain ⟨⟨op, rest⟩, hOperator, h⟩ := Option.bind_eq_some_iff.mp h
    obtain ⟨value, hValue, h⟩ := Option.map_eq_some_iff.mp h
    cases h
    rw [append_of_readOperator hOperator] at hText
    exact Or.inr ⟨op, value, rest, rfl, hText, hValue⟩

theorem Comparison.IsRead.exists_operator (h : comparison.IsRead) :
    ∃ op : AttributeOperator, comparison.sign = op.sign.toList ∧
      comparison.condition = some (op, comparison.value.inner) := by
  obtain ⟨op, hOp⟩ := exists_readOperator h.sign
  have hAlone := hOp []
  have hSign := append_of_readOperator hAlone
  rw [List.append_nil] at hAlone
  rw [List.append_nil, List.append_nil] at hSign
  refine ⟨op, hSign, ?_⟩
  rw [Comparison.condition, hAlone]
  rfl

/-- What stands behind the operator up to the closing bracket. -/
def Comparison.behindSign (comparison : Comparison) : List Char :=
  comparison.gap ++ (comparison.value.text ++ (comparison.gap' ++ (comparison.flag ++ [']'])))

theorem Comparison.text_append (comparison : Comparison) :
    comparison.text ++ [']'] = comparison.sign ++ comparison.behindSign := by
  simp [Comparison.text, Comparison.behind, Comparison.behindSign]

theorem Comparison.IsRead.count_behindSign (h : comparison.IsRead) :
    (unescape comparison.behindSign).count '=' = (unescape comparison.value.inner).count '=' := by
  have hEnd := (isValueEnd_of_endsAttribute (endsAttribute_flag h.gap' h.flag)).harmless
  have hGap := harmless_gap h.gap (e := '=') (by decide)
  have hValue := h.value
  unfold Comparison.behindSign
  cases hKind : comparison.value with
  | name text => exact count_unescape_around (by decide) hGap hEnd text
  | quoted quote body =>
    rw [hKind] at hValue
    have hMark : IsHarmless '=' [quote] := by
      unfold IsHarmless
      rcases hValue.1 with rfl | rfl <;> decide
    have hText : comparison.gap ++ ((Value.quoted quote body).text ++
        (comparison.gap' ++ (comparison.flag ++ [']']))) = (comparison.gap ++ [quote]) ++ (body ++ ([quote] ++
          (comparison.gap' ++ (comparison.flag ++ [']'])))) := by simp [Value.text]
    rw [hText]
    exact count_unescape_around (by decide) (hGap.append hMark) (hMark.append hEnd) body

/-- The condition that the parts stand for. -/
def Bracketed.condition (parts : Bracketed) : Option (AttributeOperator × List Char) :=
  parts.comparison.bind Comparison.condition

/-- The term that the parts stand for. -/
def Bracketed.term (parts : Bracketed) : Term := attributeOf parts.name parts.condition

/-- What follows the gap behind the name. -/
def Bracketed.ending (parts : Bracketed) : List Char :=
  parts.comparison.elim [] Comparison.text ++ [']']

theorem Bracketed.tail_eq (parts : Bracketed) : parts.tail = parts.gap' ++ parts.ending := rfl

theorem Bracketed.eq_of_ending (parts : Bracketed)
    (h : parts.space.text ++ (parts.name ++ parts.tail) = text ++ parts.ending) :
    parts.space.text ++ (parts.name ++ parts.gap') = text := by
  rw [parts.tail_eq, ← List.append_assoc parts.name, ← List.append_assoc] at h
  exact List.append_cancel_right h

theorem Bracketed.tail_ne_nil (parts : Bracketed) : parts.tail ≠ [] := by
  simp [Bracketed.tail]

theorem stops_of_wordEnds (hc : c ∈ wordEnds) : c ≠ '\\' ∧ endsAttributeName c = true := by
  have hAll : ∀ c ∈ wordEnds, c ≠ '\\' ∧ endsAttributeName c = true := by decide
  exact hAll c hc

theorem attributeOf_eq_iff {name' : List Char} {found' : Option (AttributeOperator × List Char)} :
    attributeOf name found = attributeOf name' found' ↔
      unescape name = unescape name' ∧ found.map resolved = found'.map resolved := by
  have hForm : ∀ name found, attributeOf name found =
      .attribute (String.ofList (unescape name)) (found.map resolved) := fun _ _ => rfl
  rw [hForm, hForm, Term.attribute.injEq, String.ofList_inj]

namespace Bracketed.IsRead

/-- The operator is where it was read: with another one, the value would have more or fewer equals
signs. -/
theorem rest_eq (h : parts.IsRead) (hText : rest <:+ parts.text)
    (hCondition : readCondition rest = some found) (hSame : found.map resolved = parts.condition.map resolved) :
    ∃ blanks, (∀ b ∈ blanks, isBlank b = true) ∧ rest = blanks ++ parts.ending := by
  obtain ⟨front, hText⟩ := hText
  obtain ⟨blanks, hBlanks, hCases⟩ := readCondition_cases hCondition
  refine ⟨blanks, hBlanks, ?_⟩
  have hWhole : parts.text = parts.gap ++ (parts.space.text ++ (parts.name ++ parts.gap')) ++ parts.ending := by
    simp [Bracketed.text, Bracketed.tail, Bracketed.ending]
  unfold Bracketed.ending at hWhole ⊢
  unfold Bracketed.condition at hSame
  cases hKind : parts.comparison with
  | none =>
    rw [hKind] at hSame
    rcases hCases with ⟨-, hRest⟩ | ⟨op, value, rest', rfl, -⟩
    · exact hRest
    · cases hSame
  | some comparison =>
    have hRead := h.comparison comparison hKind
    obtain ⟨op, hSign, hOperator⟩ := hRead.exists_operator
    rw [hKind, Option.bind_some, hOperator] at hSame
    rw [hKind] at hWhole
    rcases hCases with ⟨rfl, -⟩ | ⟨op', value, rest', rfl, hRest, hValue⟩
    · cases hSame
    · have hInner : op' = op ∧ unescape value = unescape comparison.value.inner := by
        simpa [resolved, String.ofList_inj] using hSame
      obtain ⟨rfl, hInner⟩ := hInner
      obtain ⟨mark, hMark⟩ := exists_mark op'
      rw [← hText, hRest] at hWhole
      change _ = _ ++ (comparison.text ++ [']']) at hWhole
      change _ = _ ++ (comparison.text ++ [']'])
      rw [comparison.text_append, hSign, hMark] at hWhole ⊢
      rw [hRest, hMark]
      have hEqual : rest' = comparison.behindSign := by
        refine eq_of_count (e := '=') (a := front ++ (blanks ++ mark)) (by decide) (by decide) (by decide)
          (b := parts.gap ++ (parts.space.text ++ (parts.name ++ parts.gap')) ++ mark)
          (by simpa using hWhole) ?_
        rw [hRead.count_behindSign, ← hInner, ← count_of_readAttributeValue hValue]
        obtain ⟨blanks', hBlanks', hSkip⟩ := exists_blanks rest'
        have hAround := count_unescape_around (e := '=') (by decide)
          (harmless_blanks hBlanks' (by decide)) (b := []) (by intro c hc; cases hc) (skipBlanks rest')
        rw [List.append_nil, ← hSkip] at hAround
        exact hAround
      rw [hEqual]

/-- What is split off as a name where the term comes out right. -/
theorem exists_split (h : parts.IsRead) (hText : cs <:+ parts.text)
    (hTerm : namedTerm? cs = some parts.term) :
    ∃ name blanks found, cs = name ++ (blanks ++ parts.ending) ∧ name ≠ [] ∧ IsGuarded false name ∧
      (∀ b ∈ blanks, isBlank b = true) ∧ unescape name = unescape parts.name ∧
        readCondition parts.ending = some found ∧ found.map resolved = parts.condition.map resolved := by
  obtain ⟨name, rest, found, rfl, hSome, hGuarded, hCondition, hSame⟩ := exists_of_namedTerm? hTerm
  obtain ⟨hName, hResolved⟩ := attributeOf_eq_iff.mp hSame.symm
  obtain ⟨blanks, hBlanks, rfl⟩ := h.rest_eq ((List.suffix_append name rest).trans hText) hCondition hResolved
  rw [readCondition_blanks hBlanks] at hCondition
  exact ⟨name, blanks, found, rfl, hSome, hGuarded, hBlanks, hName, hCondition, hResolved⟩

end Bracketed.IsRead

/-! ## Parts that are taken apart -/

/-- What ends a namespace. -/
def endsNamespace (c : Char) : Bool := isBlank c || c == '|' || c == '=' || c == ']'

/-- The namespace is told from the name: it has none of the signs at which it is looked for, and if there
is none, what stands in front of such a bar in the name is not taken for one. -/
def Space.IsTakenWhole (name : List Char) : Space → Prop
  | .none => ∀ x y, name = x ++ '|' :: y → (∀ c ∈ x, endsNamespace c = false) → y = []
  | .name text => ∀ c ∈ skipBlanks text, endsNamespace c = false
  | _ => True

/-- The parts are what an attribute selector is taken apart into, up to a spacing that an escape at the
end of a name has taken. -/
structure Bracketed.IsTakenApart (parts : Bracketed) : Prop where
  space : parts.space.IsTakenWhole parts.name
  name : ∃ stem, IsStem stem parts.name ∧ IsTakenWhole stem
  value : ∀ comparison ∈ parts.comparison, comparison.value.IsTakenWhole

namespace Bracketed.IsRead

theorem readName_tail (h : parts.IsRead) :
    readName (parts.name ++ parts.tail) = some (parts.name, parts.tail) := by
  have hName := h.name []
  rwa [List.append_nil] at hName

/-- What is read behind the name where every value is taken whole. -/
theorem exists_condition (h : parts.IsRead)
    (hValue : ∀ comparison ∈ parts.comparison, comparison.value.IsTakenWhole) :
    ∃ found, readCondition parts.ending = some found ∧ found.map resolved = parts.condition.map resolved := by
  unfold Bracketed.ending Bracketed.condition
  cases hKind : parts.comparison with
  | none => exact ⟨none, rfl, rfl⟩
  | some comparison =>
    have hRead := h.comparison comparison hKind
    obtain ⟨op, hSign, hCondition⟩ := hRead.exists_operator
    obtain ⟨written, hWritten, hInner⟩ :=
      hRead.value.exists_readAttributeValue hRead.gap' hRead.flag (hValue comparison hKind)
    refine ⟨some (op, written), ?_, ?_⟩
    · change readCondition (comparison.text ++ [']']) = _
      rw [comparison.text_append, hSign, readCondition_of_readOperator (readOperator_sign op _),
        Comparison.behindSign, skipBlanks_gap hRead.gap, hWritten]
      rfl
    · rw [Option.bind_some, hCondition]
      exact congrArg (fun value => some (op, String.ofList value)) hInner

theorem value_takenWhole (h : parts.IsRead) (hFound : readCondition parts.ending = some found)
    (hSame : found.map resolved = parts.condition.map resolved) :
    ∀ comparison ∈ parts.comparison, comparison.value.IsTakenWhole := by
  intro comparison hKind
  have hRead := h.comparison comparison hKind
  obtain ⟨op, hSign, hCondition⟩ := hRead.exists_operator
  unfold Bracketed.ending at hFound
  unfold Bracketed.condition at hSame
  rw [Option.mem_def.mp hKind] at hFound hSame
  change readCondition (comparison.text ++ [']']) = _ at hFound
  rw [comparison.text_append, hSign, readCondition_of_readOperator (readOperator_sign op _),
    Comparison.behindSign, skipBlanks_gap hRead.gap] at hFound
  obtain ⟨written, hWritten, rfl⟩ := Option.map_eq_some_iff.mp hFound
  rw [Option.bind_some, hCondition] at hSame
  have hInner : unescape written = unescape comparison.value.inner := by
    simpa [resolved, String.ofList_inj] using hSame
  exact hRead.value.takenWhole hRead.gap' hRead.flag hWritten hInner

/-- What stands behind the name, possibly with a gap more, starts with a sign that ends the name. -/
theorem exists_stop (h : parts.IsRead) {gap : List Char} (hGap : IsGap gap) :
    ∃ c more, gap ++ parts.tail = c :: more ∧ c ≠ '\\' ∧ endsAttributeName c = true := by
  cases gap with
  | nil =>
    have hEnds := h.mem_wordEnds_tail []
    rw [List.append_nil] at hEnds
    obtain ⟨c, more, hTail⟩ := List.exists_cons_of_ne_nil parts.tail_ne_nil
    rw [hTail] at hEnds
    exact ⟨c, more, hTail, stops_of_wordEnds (hEnds c rfl)⟩
  | cons c gap =>
    have hBlank := isBlank_of_isSpacing (hGap c List.mem_cons_self)
    exact ⟨c, _, rfl, isBlank_ne_slash hBlank, endsAttributeName_of_isBlank hBlank⟩

theorem readCondition_gap (h : parts.IsRead) {gap : List Char} (hGap : IsGap gap) :
    readCondition (gap ++ parts.tail) = readCondition parts.ending := by
  rw [readCondition_blanks fun c hc => isBlank_of_isSpacing (hGap c hc), parts.tail_eq,
    readCondition_blanks fun c hc => isBlank_of_isSpacing (h.gap' c hc)]

/-- A name that is taken whole is read in front of what stands behind the name of the parts. -/
theorem namedTerm?_gap (h : parts.IsRead) {stem gap : List Char} (hStem : IsTakenWhole stem) (hSome : stem ≠ [])
    (hGap : IsGap gap) (hFound : readCondition parts.ending = some found) :
    namedTerm? (stem ++ (gap ++ parts.tail)) = some (attributeOf stem found) := by
  have hCondition := h.readCondition_gap hGap
  obtain ⟨c, more, hTail, hSlash, hEnds⟩ := h.exists_stop hGap
  rw [hTail] at hCondition ⊢
  exact namedTerm?_whole hStem hSome hSlash hEnds (hCondition.trans hFound)

theorem namedTerm?_name (h : parts.IsRead) (hApart : parts.IsTakenApart) :
    namedTerm? (parts.name ++ parts.tail) = some parts.term := by
  obtain ⟨stem, hStem, hWhole⟩ := hApart.name
  obtain ⟨gap, hGap, hName⟩ := hStem.cut
  obtain ⟨found, hFound, hSame⟩ := h.exists_condition hApart.value
  have hSome := hStem.ne_nil (ne_nil_of_readName h.readName_tail)
  have hTerm := h.namedTerm?_gap hWhole hSome hGap hFound
  rw [← List.append_assoc, ← hName] at hTerm
  rw [hTerm, Bracketed.term, attributeOf_eq_iff.mpr ⟨hStem.value, hSame⟩]

/-- A name that is split off for the right term is the name of the parts, up to a spacing. -/
theorem isStem_of_split (h : parts.IsRead) {stem : List Char} (hGuarded : IsGuarded false stem)
    (hBlanks : ∀ b ∈ blanks, isBlank b = true) (hCut : parts.name ++ parts.gap' = stem ++ blanks)
    (hValue : unescape stem = unescape parts.name) : IsStem stem parts.name ∧ IsSplitOff endsAtSign stem := by
  have hWhole := isSplitOff_sign (readName_iff.mp h.readName_tail).2
  rcases List.append_eq_append_iff.mp hCut with ⟨more, rfl, hMore⟩ | ⟨more, hName, hMore⟩
  · cases more with
    | nil => exact ⟨⟨⟨[], isGap_nil, by simp⟩, hValue⟩, by simpa using hWhole⟩
    | cons c more =>
      -- a blank behind the name would have to be escaped
      have hBlank := isBlank_of_isSpacing (h.gap' c (by simp [hMore]))
      have hSlash := hGuarded.getLast? (ne_nil_of_readName h.readName_tail) (endsAttributeName_of_isBlank hBlank)
      obtain ⟨-, -, hDigit⟩ := eq_of_blank_cut hBlank hValue
      cases hDigit '\\' hSlash
  · cases more with
    | nil =>
      rw [List.append_nil] at hName
      exact ⟨⟨⟨[], isGap_nil, by simp [hName]⟩, hValue⟩, hName ▸ hWhole⟩
    | cons c more =>
      have hBlank := hBlanks c (by simp [hMore])
      have hCutOff := hValue.symm
      rw [hName] at hCutOff
      obtain ⟨rfl, hSpacing, hDigit⟩ := eq_of_blank_cut hBlank hCutOff
      refine ⟨⟨⟨[c], fun d hd => ?_, hName⟩, hValue⟩, hWhole.init hName fun hSlash => ?_⟩
      · rw [List.mem_singleton.mp hd]
        exact hSpacing
      · cases hDigit '\\' hSlash

/-- If the right term is read from the name on, the name is taken whole. -/
theorem name_takenWhole (h : parts.IsRead) (hTerm : namedTerm? (parts.name ++ parts.tail) = some parts.term) :
    (∃ stem, IsStem stem parts.name ∧ IsTakenWhole stem) ∧
      ∀ comparison ∈ parts.comparison, comparison.value.IsTakenWhole := by
  obtain ⟨stem, blanks, found, hText, -, hGuarded, hBlanks, hValue, hFound, hSame⟩ :=
    h.exists_split ⟨parts.gap ++ parts.space.text, by simp [Bracketed.text]⟩ hTerm
  rw [parts.tail_eq, ← List.append_assoc, ← List.append_assoc] at hText
  obtain ⟨hStem, hSplit⟩ := h.isStem_of_split hGuarded hBlanks (List.append_cancel_right hText) hValue
  refine ⟨⟨stem, hStem, ?_⟩, h.value_takenWhole hFound hSame⟩
  rcases (hSplit.takenOrSlips hGuarded).1 rfl with hWhole | ⟨front, b, rfl, hBlank, hFront, hSlash⟩
  · exact hWhole
  · -- the name could end in front of the blank, so it would
    obtain ⟨gap, hGap, hName⟩ := hStem.cut
    have hSome : front ≠ [] := by
      rintro rfl
      cases hSlash
    have hCondition : readCondition (b :: (gap ++ parts.tail)) = some found := by
      rw [readCondition_blank hBlank, h.readCondition_gap hGap, hFound]
    have hShort := namedTerm?_whole hFront hSome (isBlank_ne_slash hBlank) (endsAttributeName_of_isBlank hBlank)
      hCondition
    have hSameText : parts.name ++ parts.tail = front ++ b :: (gap ++ parts.tail) := by simp [hName]
    rw [hSameText, hShort, Option.some_inj, Bracketed.term, attributeOf_eq_iff] at hTerm
    obtain ⟨-, -, hDigit⟩ := eq_of_blank_cut hBlank (hValue.trans hTerm.1.symm)
    cases hDigit '\\' hSlash

end Bracketed.IsRead

/-! ## Namespaces -/

theorem behindNamespace_skip {x : List Char} (h : ∀ c ∈ x, endsNamespace c = false) (rest : List Char) :
    behindNamespace (x ++ rest) = behindNamespace rest := by
  have hAll : ∀ c ∈ x, (!(isBlank c || c == '|' || c == '=' || c == ']')) = true := by
    intro c hc
    have hEnds := h c hc
    rw [endsNamespace] at hEnds
    rw [hEnds]
    rfl
  unfold behindNamespace
  rw [List.dropWhile_append_of_pos hAll]

/-- A namespace ends at a bar with none of its signs in front. -/
theorem exists_of_behindNamespace (h : behindNamespace cs = some rest) :
    ∃ x, cs = x ++ '|' :: rest ∧ ∀ c ∈ x, endsNamespace c = false := by
  refine ⟨cs.takeWhile fun c => !(isBlank c || c == '|' || c == '=' || c == ']'), ?_, fun c hc => ?_⟩
  · have hText := (List.takeWhile_append_dropWhile
      (p := fun c => !(isBlank c || c == '|' || c == '=' || c == ']')) (l := cs)).symm
    unfold behindNamespace at h
    split at h
    · cases h
    · rename_i hDrop
      cases h
      rwa [hDrop] at hText
    · cases h
  · have hTaken := List.mem_takeWhile_imp hc
    rw [endsNamespace]
    simpa using hTaken

theorem behindNamespace_bar (hOpen : ∀ c ∈ text, endsNamespace c = false) (hRest : ∀ more, rest ≠ '=' :: more) :
    behindNamespace (text ++ '|' :: rest) = some rest := by
  rw [behindNamespace_skip hOpen]
  unfold behindNamespace
  rw [List.dropWhile_cons_of_neg (by decide)]
  split <;> simp_all

/-- No bar behind the name belongs to a namespace. -/
theorem Bracketed.IsRead.behindNamespace_tail (h : parts.IsRead) : behindNamespace parts.tail = none := by
  obtain ⟨gap, space, name, gap', comparison⟩ := parts
  cases gap' with
  | cons c gap' =>
    rcases eq_of_isSpacing (h.gap' c List.mem_cons_self) with rfl | rfl | rfl | rfl | rfl <;> rfl
  | nil =>
    cases comparison with
    | none => rfl
    | some comparison =>
      obtain ⟨sign, gap', value, gap'', flag⟩ := comparison
      rcases (h.comparison _ rfl).sign with hSign | ⟨c, hc, hSign⟩
      · obtain rfl : sign = ['='] := hSign
        rfl
      · obtain rfl : sign = [c, '='] := hSign
        simp only [List.mem_cons, List.not_mem_nil, or_false] at hc
        rcases hc with rfl | rfl | rfl | rfl | rfl <;> rfl

/-- Names that are taken whole are so behind a bar as well. -/
theorem IsTakenWhole.behind_bar {x y : List Char} (h : IsTakenWhole text) (hText : text = x ++ '|' :: y) :
    IsTakenWhole y := by
  induction h generalizing x with
  | nil => simp at hText
  | @escape d name hName ih =>
    match x with
    | [] => cases hText
    | ['\\'] =>
      cases hText
      exact hName
    | f :: g :: x =>
      simp only [List.cons_append, List.cons.injEq] at hText
      exact ih hText.2.2
  | @plain c name hSlash hEnds hName ih =>
    cases x with
    | nil =>
      cases hText
      cases hEnds
    | cons f x => exact ih (List.cons.inj hText).2
  | @slip b name hBlank hSome hName ih =>
    match x with
    | [] => cases hText
    | [f] => cases hText
    | [f, g] =>
      cases hText
      cases hBlank
    | f :: g :: e :: x =>
      simp only [List.cons_append, List.cons.injEq] at hText
      exact ih hText.2.2.2

/-- A namespace ends with its bar. -/
theorem Space.exists_bar (space : Space) : space = .none ∨ ∃ front, space.text = front ++ ['|'] := by
  cases space with
  | none => exact Or.inl rfl
  | bar => exact Or.inr ⟨[], rfl⟩
  | star => exact Or.inr ⟨['*'], rfl⟩
  | name text => exact Or.inr ⟨text, rfl⟩

namespace Bracketed.IsRead

/-- What is split off for the name has as many bars as the name. -/
theorem count_bars (h : parts.IsRead) (hBlanks : ∀ b ∈ blanks, isBlank b = true)
    (hValue : unescape name = unescape parts.name) :
    (unescape (name ++ blanks)).count '|' = (unescape (parts.name ++ parts.gap')).count '|' := by
  have hNone : IsHarmless '|' [] := by
    intro c hc
    cases hc
  have hName := count_unescape_around (by decide) hNone (harmless_blanks hBlanks (by decide)) name
  have hGap := count_unescape_around (by decide) hNone (harmless_gap h.gap' (by decide)) parts.name
  rw [List.nil_append] at hName hGap
  rw [hName, hGap, hValue]

/-- If the right term is read from behind a bar, this is the bar of the namespace. -/
theorem space_of_bar (h : parts.IsRead) {x : List Char} (hTerm : namedTerm? cs = some parts.term)
    (hText : parts.space.text ++ (parts.name ++ parts.tail) = x ++ '|' :: cs) :
    parts.space.text = x ++ ['|'] ∧ parts.name ++ parts.tail = cs := by
  obtain ⟨name, blanks, found, rfl, -, -, hBlanks, hValue, -⟩ :=
    h.exists_split ⟨parts.gap ++ x ++ ['|'], by rw [Bracketed.text, hText]; simp⟩ hTerm
  have hCount := h.count_bars hBlanks hValue
  have hCut : parts.space.text ++ (parts.name ++ parts.gap') = x ++ '|' :: (name ++ blanks) :=
    parts.eq_of_ending (by simpa using hText)
  rcases parts.space.exists_bar with hSpace | ⟨front, hBar⟩
  · have hMore := count_unescape_behind (e := '|') (by decide) (by decide) (by decide) x (name ++ blanks)
    rw [← hCut, hSpace, hCount] at hMore
    exact absurd hMore (Nat.lt_irrefl _)
  · rw [hBar, List.append_assoc, List.singleton_append] at hCut
    have hSame := eq_of_count (by decide) (by decide) (by decide) hCut hCount.symm
    rw [← hSame] at hCut
    rw [hBar, List.append_cancel_right hCut, parts.tail_eq, ← List.append_assoc, hSame, List.append_assoc]
    exact ⟨rfl, rfl⟩

/-- If the right term is read from the first character on that is no blank, there is no namespace and no
blank in front of the name. -/
theorem space_of_start (h : parts.IsRead) (hTerm : namedTerm? cs = some parts.term)
    (hText : parts.space.text ++ (parts.name ++ parts.tail) = blanks ++ cs)
    (hStart : ∀ b ∈ blanks, isBlank b = true) : parts.space = .none ∧ parts.name ++ parts.tail = cs := by
  obtain ⟨name, blanks', found, rfl, -, -, hBlanks, hValue, -⟩ :=
    h.exists_split ⟨parts.gap ++ blanks, by rw [Bracketed.text, hText]; simp⟩ hTerm
  have hCount := h.count_bars hBlanks hValue
  have hCut : parts.space.text ++ (parts.name ++ parts.gap') = blanks ++ (name ++ blanks') :=
    parts.eq_of_ending (by simpa using hText)
  rcases parts.space.exists_bar with hSpace | ⟨front, hBar⟩
  · rw [hSpace] at hCut hText
    change parts.name ++ parts.gap' = _ at hCut
    change parts.name ++ parts.tail = _ at hText
    have hNil : blanks = [] := by
      refine eq_nil_of_blanks hCut (ne_nil_of_readName h.readName_tail)
        (fun b hb hBlank => ⟨isBlank_ne_slash hBlank, ?_⟩) hStart fun e hSlash => ?_
      · obtain ⟨more, hMore⟩ := List.head?_eq_some_iff.mp hb
        have hRead := h.readName_tail
        rw [hMore] at hRead
        exact harmless_gap h.gap' (isSpacing_of_isNamePart (isNamePart_of_readName hRead hBlank))
      · rw [← hValue]
        exact count_unescape_le hSlash
          (fun c hc => harmless_of_isBlank (hBlanks c (List.mem_of_mem_head? hc))) name
    rw [hNil, List.nil_append] at hText
    exact ⟨hSpace, hText⟩
  · have hMore := count_unescape_behind (e := '|') (by decide) (by decide) (by decide) front
      (parts.name ++ parts.gap')
    have hLess := count_unescape_around (e := '|') (by decide) (harmless_blanks hStart (by decide)) (b := [])
      (by intro c hc; cases hc) (name ++ blanks')
    rw [hBar, List.append_assoc, List.singleton_append] at hCut
    rw [List.append_nil, ← hCut, hCount] at hLess
    rw [hLess] at hMore
    exact absurd hMore (Nat.lt_irrefl _)

/-- If the right term comes out, it is read from the name on. -/
theorem namedTerm?_of_attributeTerm? (h : parts.IsRead)
    (hTerm : attributeTerm? ('[' :: parts.text) = some parts.term) :
    namedTerm? (parts.name ++ parts.tail) = some parts.term ∧
      (∀ text, parts.space = .name text → ∀ c ∈ skipBlanks text, endsNamespace c = false) ∧
      (parts.space = .none → (behindNamespace (parts.name ++ parts.tail)).bind namedTerm? = none) := by
  obtain ⟨blanks, hBlanks, hStart⟩ := exists_blanks (parts.space.text ++ (parts.name ++ parts.tail))
  have hDrop : skipBlanks (('[' :: parts.text).drop 1) =
      skipBlanks (parts.space.text ++ (parts.name ++ parts.tail)) := skipBlanks_gap h.gap _
  rw [Selector.attributeTerm?_eq, hDrop, Option.or_eq_some_iff] at hTerm
  rcases hTerm with hTerm | ⟨hNone, hTerm⟩
  · obtain ⟨cs, hBehind, hTerm⟩ := Option.bind_eq_some_iff.mp hTerm
    obtain ⟨x, hText, hX⟩ := exists_of_behindNamespace hBehind
    obtain ⟨hSpace, rfl⟩ := h.space_of_bar (x := blanks ++ x) hTerm (by rw [hStart, hText, List.append_assoc])
    refine ⟨hTerm, fun text hName => ?_, fun hNone => ?_⟩
    · rw [hName] at hSpace
      have hText : text = blanks ++ x := List.append_cancel_right hSpace
      rw [hText, skipBlanks_blanks hBlanks]
      exact fun c hc => hX c ((List.dropWhile_suffix isBlank).subset hc)
    · rw [hNone] at hSpace
      simp [Space.text] at hSpace
  · obtain ⟨hSpace, hSame⟩ := h.space_of_start hTerm hStart hBlanks
    rw [← hSame] at hTerm hNone
    refine ⟨hTerm, fun text hName => ?_, fun _ => hNone⟩
    rw [hSpace] at hName
    cases hName

/-- Where nothing in front of a name is taken for a namespace, nothing in it is. -/
theorem behindNamespace_taken (h : parts.IsRead)
    (hBars : ∀ x y, parts.name = x ++ '|' :: y → (∀ c ∈ x, endsNamespace c = false) → y = []) :
    (behindNamespace (parts.name ++ parts.tail)).bind namedTerm? = none := by
  cases hBehind : behindNamespace (parts.name ++ parts.tail) with
  | none => rfl
  | some cs =>
    obtain ⟨x, hText, hX⟩ := exists_of_behindNamespace hBehind
    rcases List.append_eq_append_iff.mp hText with ⟨more, rfl, hMore⟩ | ⟨more, hName, hMore⟩
    · have hTail := h.behindNamespace_tail
      rw [behindNamespace_skip fun c hc => hX c (List.mem_append_left more hc), hTail] at hBehind
      cases hBehind
    · cases more with
      | nil =>
        rw [List.append_nil] at hName
        rw [behindNamespace_skip (hName ▸ hX), h.behindNamespace_tail] at hBehind
        cases hBehind
      | cons c more =>
        obtain ⟨rfl, rfl⟩ := List.cons.inj hMore
        obtain rfl := hBars x more hName hX
        obtain ⟨c, rest, hTail, hSlash, hEnds⟩ := h.exists_stop isGap_nil
        rw [List.nil_append] at hTail
        change namedTerm? ([] ++ parts.tail) = none
        rw [List.nil_append, hTail]
        exact namedTerm?_stop hSlash hEnds

/-- Where nothing is read from behind a bar of the name, such a bar is its last character. -/
theorem eq_nil_of_bar (h : parts.IsRead) {stem x y : List Char} (hStem : IsStem stem parts.name)
    (hWhole : IsTakenWhole stem) (hFound : readCondition parts.ending = some found)
    (hNone : (behindNamespace (parts.name ++ parts.tail)).bind namedTerm? = none)
    (hName : parts.name = x ++ '|' :: y) (hX : ∀ c ∈ x, endsNamespace c = false) : y = [] := by
  obtain ⟨gap, hGap, hCut⟩ := hStem.cut
  -- the bar is no part of the gap that is cut off
  obtain ⟨y', rfl, hBar⟩ : ∃ y', y = y' ++ gap ∧ stem = x ++ '|' :: y' := by
    rw [hCut] at hName
    rcases List.append_eq_append_iff.mp hName with ⟨more, rfl, hMore⟩ | ⟨more, hStem, hMore⟩
    · cases hGap '|' (by simp [hMore])
    · cases more with
      | nil => cases hGap '|' (by rw [← List.nil_append gap, ← hMore]; simp)
      | cons c more =>
        obtain ⟨rfl, hY⟩ := List.cons.inj hMore
        exact ⟨more, hY, hStem⟩
  have hBehind := hWhole.behind_bar hBar
  by_cases hSome : y' = []
  · -- an escape takes a spacing only behind a digit
    subst hSome
    cases gap with
    | nil => rfl
    | cons c gap =>
      have hBlank := isBlank_of_isSpacing (hGap c List.mem_cons_self)
      have hValue := hStem.value.symm
      rw [hCut] at hValue
      obtain ⟨-, -, hDigit⟩ := eq_of_blank_cut hBlank hValue
      cases hDigit '|' (by rw [hBar, List.getLast?_concat])
  · obtain ⟨c, more, hHead, hEnds⟩ := hBehind.exists_head hSome
    have hText : parts.name ++ parts.tail = x ++ '|' :: (y' ++ (gap ++ parts.tail)) := by simp [hName]
    have hStart : ∀ more, y' ++ (gap ++ parts.tail) ≠ '=' :: more := by
      intro more hSame
      rw [hHead] at hSame
      obtain ⟨rfl, -⟩ := List.cons.inj hSame
      cases hEnds
    rw [hText, behindNamespace_bar hX hStart, Option.bind_some,
      h.namedTerm?_gap hBehind hSome hGap hFound] at hNone
    cases hNone

/-- From the parts that an attribute selector is taken apart into its term comes out right. -/
theorem attributeTerm?_of_isTakenApart (h : parts.IsRead) (hApart : parts.IsTakenApart) :
    attributeTerm? ('[' :: parts.text) = some parts.term := by
  have hTerm := h.namedTerm?_name hApart
  have hSpace := hApart.space
  have hStart : ∀ more, parts.name ++ parts.tail ≠ '=' :: more := by
    intro more hSame
    have hName := h.readName_tail
    rw [hSame] at hName
    cases hName
  have hBar : ∀ x, (∀ c ∈ x, endsNamespace c = false) →
      ((behindNamespace (x ++ '|' :: (parts.name ++ parts.tail))).bind namedTerm?).or
        (namedTerm? (x ++ '|' :: (parts.name ++ parts.tail))) = some parts.term := by
    intro x hX
    rw [behindNamespace_bar hX hStart, Option.bind_some, hTerm, Option.some_or]
  rw [Selector.attributeTerm?_eq]
  change ((behindNamespace (skipBlanks parts.text)).bind namedTerm?).or (namedTerm? (skipBlanks parts.text)) = _
  rw [Bracketed.text, skipBlanks_gap h.gap]
  cases hKind : parts.space with
  | none =>
    rw [hKind] at hSpace
    obtain ⟨stem, hStem, hWhole⟩ := hApart.name
    obtain ⟨gap, -, hName⟩ := hStem.cut
    obtain ⟨c, more, hHead, hEnds⟩ := hWhole.exists_head (hStem.ne_nil (ne_nil_of_readName h.readName_tail))
    have hBare : skipBlanks (parts.name ++ parts.tail) = parts.name ++ parts.tail := by
      have hBlank : isBlank c = false := Bool.eq_false_iff.mpr fun hBlank => by
        rw [endsAttributeName_of_isBlank hBlank] at hEnds
        cases hEnds
      rw [hName, hHead]
      exact skipBlanks_other hBlank _
    change ((behindNamespace (skipBlanks (parts.name ++ parts.tail))).bind namedTerm?).or
      (namedTerm? (skipBlanks (parts.name ++ parts.tail))) = _
    rw [hBare, h.behindNamespace_taken hSpace, Option.none_or, hTerm]
  | bar => exact hBar [] (by simp)
  | star => exact hBar ['*'] (by decide)
  | name text =>
    rw [hKind] at hSpace
    have hText : skipBlanks ((Space.name text).text ++ (parts.name ++ parts.tail)) =
        skipBlanks text ++ '|' :: (parts.name ++ parts.tail) := by
      rw [Space.text, List.append_assoc]
      exact skipBlanks_append (by decide) text _
    rw [hText]
    exact hBar _ hSpace

/-- The term of an attribute selector comes out right exactly if the parts are what it is taken apart
into. -/
theorem attributeTerm?_iff (h : parts.IsRead) :
    attributeTerm? ('[' :: parts.text) = some parts.term ↔ parts.IsTakenApart := by
  constructor
  · intro hTerm
    obtain ⟨hNamed, hSpace, hNone⟩ := h.namedTerm?_of_attributeTerm? hTerm
    obtain ⟨⟨stem, hStem, hWhole⟩, hValue⟩ := h.name_takenWhole hNamed
    obtain ⟨found, hFound, -⟩ := h.exists_condition hValue
    refine ⟨?_, ⟨stem, hStem, hWhole⟩, hValue⟩
    cases hKind : parts.space with
    | none => exact fun x y hName hX => h.eq_nil_of_bar hStem hWhole hFound (hNone hKind) hName hX
    | bar => trivial
    | star => trivial
    | name text => exact hSpace text hKind
  · exact h.attributeTerm?_of_isTakenApart

end Bracketed.IsRead

end StyleSieve.Selector
