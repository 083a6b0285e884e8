import StyleSieve.Proofs.Selector.Strings

/-!
# Taking attribute selectors apart

* `namedTerm?_whole`: a name that is taken whole is split off in front of what can be read.
* `attributeTerm?_named`: an attribute selector whose name has neither escapes nor blanks stands
  for its name and its condition.
-/

namespace StyleSieve.Selector

open Text

variable {α : Type} {ends : Char → Bool} {k : List Char → List Char → Option α}
  {taken name tail rest : List Char} {b c : Char} {x : α}

/-! ## Names -/

/-- Characters that neither end the name of an attribute nor escape anything. -/
def IsInName (ends : Char → Bool) (name : List Char) : Prop :=
  ∀ c ∈ name, c ≠ '\\' ∧ ends c = false

theorem withAttributeName_cons (hSlash : c ≠ '\\') (hEnds : ends c = false) :
    withAttributeName ends k taken (c :: rest) =
      (withAttributeName ends k (c :: taken) rest).or (k (c :: taken).reverse rest) := by
  rw [withAttributeName, if_neg (by simp [hEnds]), Option.orElse_eq_or]
  exact fun d more hSame => absurd hSame hSlash

theorem withAttributeName_stop (hSlash : c ≠ '\\') (hEnds : ends c = true) (rest : List Char) :
    withAttributeName ends k taken (c :: rest) = none := by
  rw [withAttributeName, if_pos hEnds]
  exact fun d more hSame => absurd hSame hSlash

/-- A name of escapes and of characters that do not end it. -/
inductive IsSplitOff (ends : Char → Bool) : List Char → Prop where
  | nil : IsSplitOff ends []
  | escape (d : Char) {name : List Char} (h : IsSplitOff ends name) : IsSplitOff ends ('\\' :: d :: name)
  | plain {c : Char} {name : List Char} (hSlash : c ≠ '\\') (hEnds : ends c = false)
      (h : IsSplitOff ends name) : IsSplitOff ends (c :: name)

theorem IsInName.isSplitOff (h : IsInName ends name) : IsSplitOff ends name := by
  induction name with
  | nil => exact .nil
  | cons c name ih =>
    obtain ⟨hSlash, hEnds⟩ := h c List.mem_cons_self
    exact .plain hSlash hEnds (ih fun d hd => h d (List.mem_cons_of_mem c hd))

/-- Names that are taken whole in front of what may follow a name. A blank behind an escaped backslash
slips through, as the second backslash may be taken to escape it, unless the name can end there. -/
inductive IsTakenWhole : List Char → Prop where
  | nil : IsTakenWhole []
  | escape (d : Char) {name : List Char} (h : IsTakenWhole name) : IsTakenWhole ('\\' :: d :: name)
  | plain {c : Char} {name : List Char} (hSlash : c ≠ '\\') (hEnds : endsAttributeName c = false)
      (h : IsTakenWhole name) : IsTakenWhole (c :: name)
  | slip {b : Char} {name : List Char} (hBlank : isBlank b = true) (hSome : name ≠ [])
      (h : IsTakenWhole name) : IsTakenWhole ('\\' :: '\\' :: b :: name)

theorem IsSplitOff.isTakenWhole (h : IsSplitOff endsAttributeName name) : IsTakenWhole name := by
  induction h with
  | nil => exact .nil
  | escape d _ ih => exact .escape d ih
  | plain hSlash hEnds _ ih => exact .plain hSlash hEnds ih

/-- A name that is taken whole starts with no sign that ends it. -/
theorem IsTakenWhole.exists_head (h : IsTakenWhole name) (hSome : name ≠ []) :
    ∃ c more, name = c :: more ∧ endsAttributeName c = false := by
  cases h with
  | nil => exact absurd rfl hSome
  | escape d => exact ⟨'\\', _, rfl, by decide⟩
  | plain hSlash hEnds => exact ⟨_, _, rfl, hEnds⟩
  | slip => exact ⟨'\\', _, rfl, by decide⟩

theorem isBlank_ne_slash (h : isBlank c = true) : c ≠ '\\' := by
  rintro rfl
  cases h

theorem endsAttributeName_of_isBlank (h : isBlank c = true) : endsAttributeName c = true := by
  simp [endsAttributeName, h]

/-- A name that is taken whole is split off if what follows can be read, and nothing can be read that
starts with a single blank. -/
theorem withAttributeName_whole (hName : IsTakenWhole name) (hSome : name ≠ []) (hSlash : c ≠ '\\')
    (hEnds : endsAttributeName c = true)
    (hBlanks : ∀ front b d more, isBlank b = true → endsAttributeName d = false →
      k front (b :: d :: more) = none)
    (h : k (taken.reverse ++ name) (c :: tail) = some x) :
    withAttributeName endsAttributeName k taken (name ++ c :: tail) = some x := by
  have hStop : ∀ taken, withAttributeName endsAttributeName k taken (c :: tail) = none :=
    fun taken => withAttributeName_stop hSlash hEnds tail
  induction hName generalizing taken with
  | nil => exact absurd rfl hSome
  | @escape d more hMore ih =>
    rw [List.cons_append, List.cons_append, withAttributeName]
    by_cases hNone : more = []
    · subst hNone
      have hTaken : (d :: '\\' :: taken).reverse = taken.reverse ++ ['\\', d] := by simp
      rw [List.nil_append, hStop, hTaken, h]
      rfl
    · rw [ih hNone (by simpa using h)]
      rfl
  | @plain d more hSlashD hEndsD hMore ih =>
    rw [List.cons_append, withAttributeName_cons hSlashD hEndsD]
    by_cases hNone : more = []
    · subst hNone
      rw [List.nil_append, hStop, Option.none_or]
      simpa using h
    · rw [ih hNone (by simpa using h), Option.some_or]
  | @slip b more hBlank hNone hMore ih =>
    -- with the two backslashes alone nothing is found, so the second one is tried with the blank
    obtain ⟨d, more, rfl, hD⟩ := hMore.exists_head hNone
    have hShort : ∀ rest, withAttributeName endsAttributeName k ('\\' :: '\\' :: taken) (b :: rest) = none :=
      withAttributeName_stop (isBlank_ne_slash hBlank) (endsAttributeName_of_isBlank hBlank)
    rw [List.cons_append, List.cons_append, List.cons_append, withAttributeName, hShort,
      List.cons_append, hBlanks _ _ _ _ hBlank hD, withAttributeName, ← List.cons_append,
      ih hNone (by simpa using h)]
    rfl

/-! ## Conditions -/

theorem skipBlanks_blank (h : isBlank b = true) (rest : List Char) : skipBlanks (b :: rest) = skipBlanks rest :=
  List.dropWhile_cons_of_pos h

theorem skipBlanks_other (h : isBlank c = false) (rest : List Char) : skipBlanks (c :: rest) = c :: rest :=
  List.dropWhile_cons_of_neg (by simp [h])

theorem readCondition_blank (h : isBlank b = true) (rest : List Char) :
    readCondition (b :: rest) = readCondition rest := by
  unfold readCondition
  rw [skipBlanks_blank h]

/-- Nothing but an operator or the closing bracket is read behind a name. -/
theorem readCondition_other (h : endsAttributeName c = false) (rest : List Char) :
    readCondition (c :: rest) = none := by
  simp only [endsAttributeName, Bool.or_eq_false_iff, beq_eq_false_iff_ne, ne_eq] at h
  obtain ⟨⟨⟨⟨⟨⟨⟨hBlank, hTilde⟩, hBar⟩, hHat⟩, hDollar⟩, hStar⟩, hEquals⟩, hClosing⟩ := h
  have hOpen : (c :: rest == [']']) = false := by
    refine beq_eq_false_iff_ne.mpr fun hSame => ?_
    exact hClosing (List.cons.inj hSame).1
  have hOperator : readOperator (c :: rest) = none := by
    unfold readOperator
    split <;> simp_all
  unfold readCondition
  dsimp only
  rw [skipBlanks_other hBlank, hOpen, hOperator]
  rfl

/-! ## Terms -/

/-- What follows a namespace and its bar when an attribute selector is taken apart. -/
def behindNamespace (cs : List Char) : Option (List Char) :=
  match cs.dropWhile fun c => !(isBlank c || c == '|' || c == '=' || c == ']') with
  | '|' :: '=' :: _ => none
  | '|' :: rest => some rest
  | _ => none

/-- The term that starts with the name of an attribute. -/
def namedTerm? (cs : List Char) : Option Term :=
  withAttributeName endsAttributeName (fun name after => (readCondition after).map fun condition =>
    .attribute (String.ofList (unescape name))
      (condition.map fun (op, value) => (op, String.ofList (unescape value)))) [] cs

theorem drop_length_takeWhile (p : Char → Bool) (cs : List Char) :
    cs.drop (cs.takeWhile p).length = cs.dropWhile p := by
  induction cs with
  | nil => rfl
  | cons c rest ih => cases h : p c <;> simp [h, ih]

theorem attributeTerm?_eq (text : List Char) :
    attributeTerm? text =
      ((behindNamespace (skipBlanks (text.drop 1))).bind namedTerm?).or
        (namedTerm? (skipBlanks (text.drop 1))) := by
  unfold attributeTerm?
  dsimp only
  rw [drop_length_takeWhile, Option.orElse_eq_or]
  rfl

/-- The term of an attribute with a condition. -/
def attributeOf (name : List Char) (condition : Option (AttributeOperator × List Char)) : Term :=
  .attribute (String.ofList (unescape name))
    (condition.map fun (op, value) => (op, String.ofList (unescape value)))

/-- A name that is taken whole is split off in front of what can be read. -/
theorem namedTerm?_whole (hName : IsTakenWhole name) (hSome : name ≠ []) (hSlash : c ≠ '\\')
    (hEnds : endsAttributeName c = true) {condition : Option (AttributeOperator × List Char)}
    (hCondition : readCondition (c :: tail) = some condition) :
    namedTerm? (name ++ c :: tail) = some (attributeOf name condition) := by
  refine withAttributeName_whole hName hSome hSlash hEnds (fun front b d more hBlank hD => ?_) ?_
  · rw [readCondition_blank hBlank, readCondition_other hD]
    rfl
  · rw [hCondition]
    rfl

theorem behindNamespace_append (hName : IsInName endsAttributeName name) (rest : List Char) :
    behindNamespace (name ++ rest) = behindNamespace rest := by
  have hPlain : ∀ c ∈ name, (!(isBlank c || c == '|' || c == '=' || c == ']')) = true := by
    intro c hc
    have hEnds := (hName c hc).2
    simp only [endsAttributeName, Bool.or_eq_false_iff] at hEnds
    simp [hEnds]
  unfold behindNamespace
  rw [List.dropWhile_append_of_pos hPlain]

/-- An attribute selector without a namespace stands for its name and its condition. -/
theorem attributeTerm?_named (hName : IsInName endsAttributeName name) (hSome : name ≠ [])
    (hSlash : c ≠ '\\') (hEnds : endsAttributeName c = true)
    (hSpace : behindNamespace (c :: tail) = none)
    {condition : Option (AttributeOperator × List Char)}
    (hCondition : readCondition (c :: tail) = some condition) :
    attributeTerm? ('[' :: (name ++ c :: tail)) = some (attributeOf name condition) := by
  have hStart : skipBlanks (name ++ c :: tail) = name ++ c :: tail := by
    obtain ⟨d, more, rfl⟩ := List.exists_cons_of_ne_nil hSome
    have hBlank : isBlank d = false := by
      have hEnds := (hName d List.mem_cons_self).2
      simp only [endsAttributeName, Bool.or_eq_false_iff] at hEnds
      simp only [hEnds]
    exact List.dropWhile_cons_of_neg (by simp [hBlank])
  have hTerm := namedTerm?_whole hName.isSplitOff.isTakenWhole hSome hSlash hEnds hCondition
  rw [attributeTerm?_eq]
  change ((behindNamespace (skipBlanks (name ++ c :: tail))).bind namedTerm?).or
    (namedTerm? (skipBlanks (name ++ c :: tail))) = _
  rw [hStart, behindNamespace_append hName, hSpace, hTerm]
  rfl

/-! ## Written conditions -/

/-- The written value of a condition. -/
def writtenValue (value : List Char) : List Char :=
  '"' :: value.flatMap Css.writtenInString ++ ['"']

theorem readAttributeValue_written (value : List Char) :
    readAttributeValue (writtenValue value ++ [']']) = some (value.flatMap Css.writtenInString) := by
  have hBody := readAnyQuotedRest_written value [']']
  have hText : writtenValue value ++ [']'] =
      '"' :: (value.flatMap Css.writtenInString ++ '"' :: [']']) := by
    simp [writtenValue]
  have hEnd : endsAttribute [']'] = true := by decide
  unfold readAttributeValue
  rw [hText]
  dsimp only
  rw [if_pos (by decide), hBody, Option.bind_some, if_pos hEnd]
  rfl

theorem readCondition_of_readOperator {cs : List Char} {op : AttributeOperator}
    (hOperator : readOperator (skipBlanks cs) = some (op, rest)) :
    readCondition cs = (readAttributeValue (skipBlanks rest)).map fun value => some (op, value) := by
  have hOpen : (skipBlanks cs == [']']) = false := by
    refine beq_eq_false_iff_ne.mpr fun hClosed => ?_
    rw [hClosed] at hOperator
    cases hOperator
  unfold readCondition
  dsimp only
  rw [hOpen, if_neg Bool.false_ne_true, hOperator]
  rfl

theorem readOperator_sign (op : AttributeOperator) (rest : List Char) :
    readOperator (skipBlanks (op.sign.toList ++ rest)) = some (op, rest) := by
  cases op <;> rfl

theorem readCondition_written (op : AttributeOperator) (value : List Char) :
    readCondition (op.sign.toList ++ (writtenValue value ++ [']'])) =
      some (some (op, value.flatMap Css.writtenInString)) := by
  have hStart : skipBlanks (writtenValue value ++ [']']) = writtenValue value ++ [']'] := rfl
  rw [readCondition_of_readOperator (readOperator_sign op _), hStart,
    readAttributeValue_written]
  rfl

end StyleSieve.Selector
