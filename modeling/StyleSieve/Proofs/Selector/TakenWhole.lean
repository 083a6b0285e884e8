import StyleSieve.Proofs.Selector.Bracketed
import StyleSieve.Proofs.Selector.Unescape

/-!
# Names and values that are taken whole

An attribute selector is taken apart by signs: its name ends at a blank or at a sign that may follow a
name, unless there is a backslash in front. Which name is split off is found by trying more before
less.

* `exists_of_namedTerm?`: what is split off has no such sign without a backslash in front of it.
* `IsSplitOff.takenOrSlips`: how such a name is taken if it was read as a name.
* `Value.IsRead.exists_readAttributeValue`, `Value.IsRead.takenWhole`: when a value is read as it stands.
-/

namespace StyleSieve.Selector

open Text

variable {α : Type} {ends : Char → Bool} {k : List Char → List Char → Option α}
  {name rest cs taken after stem text gap gap' flag blanks value : List Char} {b c : Char} {x : α}
  {term : Term} {condition : Option (AttributeOperator × List Char)} {escaped : Bool}

/-! ## Names -/

/-- Every sign that ends a name stands behind a backslash. What stands in front of the text is a
backslash if `escaped`. -/
def IsGuarded (escaped : Bool) : List Char → Prop
  | [] => True
  | c :: rest => (endsAttributeName c = true → escaped = true) ∧ IsGuarded (c == '\\') rest

theorem IsGuarded.mono (h : IsGuarded false cs) (escaped : Bool) : IsGuarded escaped cs := by
  cases cs with
  | nil => trivial
  | cons c rest =>
    obtain ⟨hEnds, hRest⟩ := h
    exact ⟨fun hc => absurd (hEnds hc) Bool.false_ne_true, hRest⟩

/-- A sign that ends a name is read as part of one only behind a backslash. -/
theorem IsGuarded.getLast? (h : IsGuarded escaped (name ++ c :: rest)) (hSome : name ≠ [])
    (hEnds : endsAttributeName c = true) : name.getLast? = some '\\' := by
  induction name generalizing escaped with
  | nil => exact absurd rfl hSome
  | cons d name ih =>
    cases name with
    | nil =>
      have hSlash : d = '\\' := by simpa using h.2.1 hEnds
      rw [hSlash]
      rfl
    | cons f name =>
      rw [List.getLast?_cons_cons]
      exact ih h.2 (List.cons_ne_nil f name)

/-- What is split off as a name is guarded. -/
theorem exists_of_withAttributeName (h : withAttributeName endsAttributeName k taken cs = some x) :
    ∃ name rest, cs = name ++ rest ∧ name ≠ [] ∧ IsGuarded false name ∧
      k (taken.reverse ++ name) rest = some x := by
  have hSlash : endsAttributeName '\\' = true → false = true := by decide
  fun_induction withAttributeName endsAttributeName k taken cs with
  | case1 => cases h
  | case2 taken c rest ihPair ihSlash =>
    simp only [Option.orElse_eq_or, Option.or_eq_some_iff] at h
    rcases h with h | ⟨-, h | ⟨-, h | ⟨-, h⟩⟩⟩
    · obtain ⟨name, rest, rfl, -, hGuarded, h⟩ := ihPair h
      exact ⟨'\\' :: c :: name, rest, rfl, by simp, ⟨hSlash, fun _ => rfl, hGuarded.mono _⟩, by simpa using h⟩
    · exact ⟨['\\', c], rest, rfl, by simp, ⟨hSlash, fun _ => rfl, trivial⟩, by simpa using h⟩
    · obtain ⟨name, rest', hRest, -, hGuarded, h⟩ := ihSlash h
      exact ⟨'\\' :: name, rest', by rw [hRest]; rfl, by simp, ⟨hSlash, hGuarded.mono _⟩, by simpa using h⟩
    · exact ⟨['\\'], c :: rest, rfl, by simp, ⟨hSlash, trivial⟩, by simpa using h⟩
  | case3 => cases h
  | case4 taken c rest hPair hEnds ih =>
    simp only [Option.orElse_eq_or, Option.or_eq_some_iff] at h
    have hC : endsAttributeName c = true → false = true := fun hc => absurd hc hEnds
    rcases h with h | ⟨-, h⟩
    · obtain ⟨name, rest, rfl, -, hGuarded, h⟩ := ih h
      exact ⟨c :: name, rest, rfl, by simp, ⟨hC, hGuarded.mono _⟩, by simpa using h⟩
    · exact ⟨[c], rest, rfl, by simp, ⟨hC, trivial⟩, by simpa using h⟩

theorem exists_of_namedTerm? (h : namedTerm? cs = some term) :
    ∃ name rest condition, cs = name ++ rest ∧ name ≠ [] ∧ IsGuarded false name ∧
      readCondition rest = some condition ∧ term = attributeOf name condition := by
  obtain ⟨name, rest, hText, hSome, hGuarded, h⟩ := exists_of_withAttributeName h
  obtain ⟨condition, hCondition, hTerm⟩ := Option.map_eq_some_iff.mp h
  exact ⟨name, rest, condition, hText, hSome, hGuarded, hCondition, hTerm.symm⟩

theorem namedTerm?_stop (hSlash : c ≠ '\\') (hEnds : endsAttributeName c = true) :
    namedTerm? (c :: rest) = none :=
  withAttributeName_stop hSlash hEnds rest

/-! ## Names of selectors -/

theorem isBlank_of_isSpacing (h : isSpacing c = true) : isBlank c = true := by
  rcases eq_of_isSpacing h with rfl | rfl | rfl | rfl | rfl <;> rfl

theorem skipBlanks_gap (hGap : IsGap gap) (rest : List Char) : skipBlanks (gap ++ rest) = skipBlanks rest :=
  List.dropWhile_append_of_pos fun c hc => isBlank_of_isSpacing (hGap c hc)

theorem inName_of_isNamePart (h : isNamePart c = true) (hBlank : isBlank c = false) :
    c ≠ '\\' ∧ endsAttributeName c = false := by
  have hSigns : ∀ d ∈ ['~', '|', '^', '$', '*', '=', ']'], c ≠ d := by
    have hParts : ∀ d ∈ ['~', '|', '^', '$', '*', '=', ']'], isNamePart d = false := by decide
    rintro d hd rfl
    rw [hParts c hd] at h
    cases h
  refine ⟨isNamePart_ne_slash h, ?_⟩
  simp only [List.forall_mem_cons, List.not_mem_nil, false_implies, implies_true, and_true] at hSigns
  simp [endsAttributeName, hBlank, hSigns]

theorem isNamePart_of_isHexDigit (h : isHexDigit c = true) : isNamePart c = true := by
  rcases letter_or_digit_of_isHexDigit h with h | h <;> simp [isNamePart, isNameStart, h]

/-- What ends the name of an attribute and is no blank. -/
def endsAtSign (c : Char) : Bool := endsAttributeName c && !isBlank c

theorem sign_of_isBlank (h : isBlank c = true) : c ≠ '\\' ∧ endsAtSign c = false := by
  refine ⟨?_, by simp [endsAtSign, h]⟩
  rintro rfl
  cases h

theorem sign_of_isNamePart (h : isNamePart c = true) : c ≠ '\\' ∧ endsAtSign c = false := by
  cases hBlank : isBlank c with
  | true => exact sign_of_isBlank hBlank
  | false =>
    obtain ⟨hSlash, hEnds⟩ := inName_of_isNamePart h hBlank
    exact ⟨hSlash, by rw [endsAtSign, hEnds, Bool.false_and]⟩

/-- A name has no sign without a backslash that would end it. -/
theorem isSplitOff_sign {room : Nat} (h : splitName isNamePart room cs = (taken, after)) :
    IsSplitOff endsAtSign taken := by
  fun_induction splitName isNamePart room cs generalizing taken after with
  | case1 =>
    cases h
    exact .nil
  | case2 room d rest hHex inner behind hRest ih =>
    cases h
    exact .escape d (ih hRest)
  | case3 =>
    cases h
    exact .nil
  | case4 room d rest hHex hLine inner behind hRest ih =>
    cases h
    exact .escape d (ih hRest)
  | case5 room c rest hOther hHex inner behind hRest ih =>
    cases h
    rw [Bool.and_eq_true] at hHex
    obtain ⟨hSlash, hSign⟩ := sign_of_isNamePart (isNamePart_of_isHexDigit hHex.2)
    exact .plain hSlash hSign (ih hRest)
  | case6 room c rest hOther hHex hPart inner behind hRest ih =>
    cases h
    obtain ⟨hSlash, hSign⟩ : c ≠ '\\' ∧ endsAtSign c = false := by
      rcases Bool.or_eq_true_iff.mp hPart with hGap | hPart
      · rw [Bool.and_eq_true] at hGap
        exact sign_of_isBlank (isBlank_of_isSpacing hGap.2)
      · exact sign_of_isNamePart hPart
    exact .plain hSlash hSign (ih hRest)
  | case7 =>
    cases h
    exact .nil

/-- The name is taken whole, or all of it is but a blank behind a backslash. -/
def IsTakenOrSlips (name : List Char) : Prop :=
  IsTakenWhole name ∨
    ∃ front b, name = front ++ [b] ∧ isBlank b = true ∧ IsTakenWhole front ∧ front.getLast? = some '\\'

namespace IsTakenOrSlips

theorem escape (h : IsTakenOrSlips name) (d : Char) : IsTakenOrSlips ('\\' :: d :: name) := by
  rcases h with h | ⟨front, b, rfl, hBlank, hFront, hLast⟩
  · exact Or.inl (.escape d h)
  · exact Or.inr ⟨'\\' :: d :: front, b, rfl, hBlank, .escape d hFront, by simp [List.getLast?_cons, hLast]⟩

theorem plain (h : IsTakenOrSlips name) (hSlash : c ≠ '\\') (hEnds : endsAttributeName c = false) :
    IsTakenOrSlips (c :: name) := by
  rcases h with h | ⟨front, b, rfl, hBlank, hFront, hLast⟩
  · exact Or.inl (.plain hSlash hEnds h)
  · exact Or.inr ⟨c :: front, b, rfl, hBlank, .plain hSlash hEnds hFront, by simp [List.getLast?_cons, hLast]⟩

theorem slip (h : IsTakenOrSlips name) (hBlank : isBlank b = true) :
    IsTakenOrSlips ('\\' :: '\\' :: b :: name) := by
  by_cases hSome : name = []
  · subst hSome
    exact Or.inr ⟨['\\', '\\'], b, rfl, hBlank, .escape '\\' .nil, rfl⟩
  · rcases h with h | ⟨front, b', rfl, hBlank', hFront, hLast⟩
    · exact Or.inl (.slip hBlank hSome h)
    · refine Or.inr ⟨'\\' :: '\\' :: b :: front, b', rfl, hBlank', .slip hBlank ?_ hFront, by
        simp [List.getLast?_cons, hLast]⟩
      rintro rfl
      cases hLast

end IsTakenOrSlips

/-- A guarded name without signs is taken, also behind an escaped backslash. -/
theorem IsSplitOff.takenOrSlips (hName : IsSplitOff endsAtSign name) (hGuarded : IsGuarded escaped name) :
    (escaped = false → IsTakenOrSlips name) ∧
      (escaped = true → IsTakenOrSlips ('\\' :: '\\' :: name)) := by
  induction hName generalizing escaped with
  | nil => exact ⟨fun _ => Or.inl .nil, fun _ => Or.inl (.escape '\\' .nil)⟩
  | @escape d name hMore ih =>
    obtain ⟨hAlone, hBehind⟩ := ih hGuarded.2.2
    have hWhole : IsTakenOrSlips ('\\' :: d :: name) := by
      by_cases hSlash : d = '\\'
      · subst hSlash
        exact hBehind rfl
      · exact (hAlone (by simpa using hSlash)).escape d
    exact ⟨fun _ => hWhole, fun _ => hWhole.escape '\\'⟩
  | @plain c name hSlash hSign hMore ih =>
    have hAlone := (ih hGuarded.2).1 (by simpa using hSlash)
    cases hEnds : endsAttributeName c with
    | false =>
      have hWhole := hAlone.plain hSlash hEnds
      exact ⟨fun _ => hWhole, fun _ => hWhole.escape '\\'⟩
    | true =>
      have hBlank : isBlank c = true := by simpa [endsAtSign, hEnds] using hSign
      have hEscaped := hGuarded.1 hEnds
      exact ⟨fun hOpen => absurd (hEscaped.symm.trans hOpen) (by decide), fun _ => hAlone.slip hBlank⟩

/-- Without its last character a name is split off as well, if that is not escaped. -/
theorem IsSplitOff.init (h : IsSplitOff ends text) (hText : text = name ++ [c])
    (hLast : name.getLast? ≠ some '\\') : IsSplitOff ends name := by
  induction h generalizing name with
  | nil => simp at hText
  | @escape d more hMore ih =>
    match name with
    | [] => cases hText
    | [f] =>
      cases hText
      exact absurd rfl hLast
    | f :: g :: name =>
      simp only [List.cons_append, List.cons.injEq] at hText
      obtain ⟨rfl, rfl, rfl⟩ := hText
      exact .escape d (ih rfl fun hSlash => hLast (by simp [List.getLast?_cons, hSlash]))
  | @plain d more hSlash hEnds hMore ih =>
    cases name with
    | nil => exact .nil
    | cons f name =>
      simp only [List.cons_append, List.cons.injEq] at hText
      obtain ⟨rfl, rfl⟩ := hText
      exact .plain hSlash hEnds (ih rfl fun hSlash => hLast (by simp [List.getLast?_cons, hSlash]))

/-! ## Values -/

/-- The value without its quotes. -/
def Value.inner : Value → List Char
  | .name text => text
  | .quoted _ body => body

theorem endsAttribute_flag (hGap : IsGap gap) (hFlag : IsFlag flag) :
    endsAttribute (gap ++ (flag ++ [']'])) = true := by
  unfold endsAttribute
  rw [skipBlanks_gap hGap]
  rcases hFlag with rfl | ⟨f, hf, gap', hGap', rfl⟩
  · rfl
  · have hLetters : ∀ f ∈ ['i', 'I', 's', 'S'], isBlank f = false := by decide
    have hStart : skipBlanks (f :: gap' ++ [']']) = f :: (gap' ++ [']']) :=
      List.dropWhile_cons_of_neg (by simp [hLetters f hf])
    have hEnd : skipBlanks (gap' ++ [']']) = [']'] := by
      rw [skipBlanks_gap hGap']
      rfl
    rw [hStart]
    dsimp only
    rw [hEnd, List.contains_iff_mem.mpr hf]
    simp

/-- Behind a name as value stands a blank or the closing bracket. -/
theorem exists_behindValue (hGap : IsGap gap) (hFlag : IsFlag flag)
    (h : readName (text ++ (gap ++ (flag ++ ']' :: rest))) = some (text, gap ++ (flag ++ ']' :: rest))) :
    ∃ c, (!isBlank c && c != ']') = false ∧ ∃ y, gap ++ (flag ++ [']']) = c :: y := by
  cases gap with
  | cons c gap => exact ⟨c, by simp [isBlank_of_isSpacing (hGap c List.mem_cons_self)], _, rfl⟩
  | nil =>
    rcases hFlag with rfl | ⟨f, hf, gap', -, rfl⟩
    · exact ⟨']', by decide, [], rfl⟩
    · have hFlags : ∀ f ∈ ['i', 'I', 's', 'S'], ¬(f = '\\' ∨ isNamePart f = false) := by decide
      exact absurd (stop_of_readName h f rfl) (hFlags f hf)

/-- No name starts with a quote. -/
theorem readName_quote {r : List Char × List Char} (h : readName (c :: rest) = some r) :
    (c == '"' || c == '\'') = false := by
  refine Bool.eq_false_iff.mpr fun hQuote => ?_
  simp only [Bool.or_eq_true, beq_iff_eq] at hQuote
  rcases hQuote with rfl | rfl <;> cases h

/-- A value without quotes is read up to a blank or the closing bracket. -/
theorem readAttributeValue_taken (hSome : text ≠ []) (hQuote : ∀ c ∈ text.head?, (c == '"' || c == '\'') = false)
    (hOpen : ∀ c ∈ text, (isBlank c || c == ']') = false) (hStop : (!isBlank c && c != ']') = false)
    (hEnd : endsAttribute (c :: rest) = true) : readAttributeValue (text ++ c :: rest) = some text := by
  have hTaken : (text ++ c :: rest).takeWhile (fun c => !isBlank c && c != ']') = text := by
    have hAll : ∀ c ∈ text, (!isBlank c && c != ']') = true := by
      intro c hc
      simpa using hOpen c hc
    rw [List.takeWhile_append_of_pos hAll, List.takeWhile_cons_of_neg (by simpa using hStop), List.append_nil]
  obtain ⟨d, more, rfl⟩ := List.exists_cons_of_ne_nil hSome
  unfold readAttributeValue
  dsimp only
  rw [hTaken, List.drop_left, hEnd, List.cons_append]
  dsimp only
  rw [hQuote d rfl, if_neg Bool.false_ne_true]
  rfl

theorem readAttributeValue_quoted {quote : Char} {body : List Char} (hGap : IsGap gap) (hFlag : IsFlag flag)
    (hRead : (Value.quoted quote body).IsRead (gap ++ flag ++ [']'])) :
    readAttributeValue ((Value.quoted quote body).text ++ (gap ++ (flag ++ [']']))) = some body := by
  obtain ⟨hQuote, hText⟩ := hRead
  have hQuoted := hText (gap ++ (flag ++ [']']))
  have hSlash : quote ≠ '\\' := by rcases hQuote with rfl | rfl <;> decide
  have hMark : (quote == '"' || quote == '\'') = true := by rcases hQuote with rfl | rfl <;> decide
  have hSame : quote :: body ++ [quote] ++ (gap ++ (flag ++ [']'])) =
      quote :: (body ++ [quote] ++ (gap ++ (flag ++ [']']))) := by simp
  rw [hSame, readQuoted, if_pos hMark] at hQuoted
  obtain ⟨⟨taken, after⟩, hTaken, hQuoted⟩ := Option.map_eq_some_iff.mp hQuoted
  obtain ⟨body', rfl, hBody⟩ := readAnyQuotedRest_of_readQuotedRest hSlash hTaken
  obtain ⟨hWhole, rfl⟩ := Prod.mk.inj hQuoted
  obtain rfl : body' = body := List.append_cancel_right (List.cons.inj hWhole).2
  change readAttributeValue (quote :: body' ++ [quote] ++ _) = _
  rw [hSame]
  unfold readAttributeValue
  dsimp only
  rw [if_pos hMark, hBody, Option.bind_some, if_pos (endsAttribute_flag hGap hFlag)]
  rfl

theorem skipBlanks_name (hSome : text ≠ []) (hBlanks : ∀ c ∈ text, isBlank c = false) (rest : List Char) :
    skipBlanks (text ++ rest) = text ++ rest := by
  obtain ⟨c, more, rfl⟩ := List.exists_cons_of_ne_nil hSome
  exact List.dropWhile_cons_of_neg (by simp [hBlanks c List.mem_cons_self])

/-- The text is `stem` up to a gap, and stands for the same value without it. -/
structure IsStem (stem text : List Char) : Prop where
  cut : ∃ gap, IsGap gap ∧ text = stem ++ gap
  value : unescape stem = unescape text

theorem IsStem.refl (text : List Char) : IsStem text text := ⟨⟨[], isGap_nil, (List.append_nil text).symm⟩, rfl⟩

theorem IsStem.ne_nil (h : IsStem stem text) (hSome : text ≠ []) : stem ≠ [] := by
  rintro rfl
  have hValue := h.value
  rw [unescape] at hValue
  exact unescape_ne_nil hSome hValue.symm

/-- Values that are read as they stand: strings, and names without blanks and closing brackets up to a
spacing at the end. -/
def Value.IsTakenWhole : Value → Prop
  | .name text => ∃ stem, IsStem stem text ∧ ∀ c ∈ stem, (isBlank c || c == ']') = false
  | .quoted .. => True

theorem isHexDigit_of_isBlank (h : isBlank c = true) : isHexDigit c = false := by
  have hCode : c.toNat = c.val.toNat := rfl
  have hLimits : '0'.val.toNat = 48 ∧ '9'.val.toNat = 57 ∧ 'a'.val.toNat = 97 ∧ 'f'.val.toNat = 102 ∧
      'A'.val.toNat = 65 ∧ 'F'.val.toNat = 70 := ⟨rfl, rfl, rfl, rfl, rfl, rfl⟩
  refine Bool.eq_false_iff.mpr fun hHex => ?_
  simp only [isHexDigit, isAsciiDigit, Bool.or_eq_true, Bool.and_eq_true, decide_eq_true_eq, Char.le_def,
    UInt32.le_iff_toNat_le] at hHex
  simp only [isBlank, isAsciiBlank, Bool.or_eq_true, Bool.and_eq_true, decide_eq_true_eq, beq_iff_eq, hCode] at h
  omega

theorem harmless_of_isBlank (h : isBlank c = true) : isHexDigit c = false ∧ c ≠ '\\' :=
  ⟨isHexDigit_of_isBlank h, isBlank_ne_slash h⟩

/-- If the value does not change where a text is cut off at a blank, the blank is the spacing of an escape
by its digits, and the end of the text. -/
theorem eq_of_blank_cut {v y : List Char} (hBlank : isBlank c = true) (h : unescape (v ++ c :: y) = unescape v) :
    y = [] ∧ isSpacing c = true ∧ ∀ e, v.getLast? = some e → isHexDigit e = true := by
  obtain ⟨rfl, hSpacing, d, hLast, hHex⟩ :=
    eq_of_unescape_cut (isHexDigit_of_isBlank hBlank) (isBlank_ne_slash hBlank) h
  refine ⟨rfl, hSpacing, fun e hSame => ?_⟩
  rwa [← Option.some_inj.mp (hLast.symm.trans hSame)]

/-- What may stand behind a value. -/
def IsValueEnd (cs : List Char) : Prop :=
  cs ≠ [] ∧ ∀ c ∈ cs, isBlank c = true ∨ c ∈ ['i', 'I', 's', 'S', ']']

theorem exists_blanks (cs : List Char) :
    ∃ blanks, (∀ b ∈ blanks, isBlank b = true) ∧ cs = blanks ++ skipBlanks cs :=
  ⟨cs.takeWhile isBlank, fun _ hb => List.mem_takeWhile_imp hb, List.takeWhile_append_dropWhile.symm⟩

theorem isValueEnd_of_endsAttribute (h : endsAttribute cs = true) : IsValueEnd cs := by
  obtain ⟨blanks, hBlanks, hText⟩ := exists_blanks cs
  have hWhole : ∀ after, (∀ c ∈ after, isBlank c = true ∨ c ∈ ['i', 'I', 's', 'S', ']']) → after ≠ [] →
      skipBlanks cs = after → IsValueEnd cs := by
    intro after hAfter hSome hSame
    rw [hText, hSame]
    refine ⟨by simp [hSome], fun c hc => ?_⟩
    rcases List.mem_append.mp hc with hc | hc
    · exact Or.inl (hBlanks c hc)
    · exact hAfter c hc
  unfold endsAttribute at h
  rcases Bool.or_eq_true_iff.mp h with h | h
  · exact hWhole [']'] (by decide) (by simp) (beq_iff_eq.mp h)
  · split at h
    · rename_i f rest hFlag
      rw [Bool.and_eq_true, List.contains_iff_mem, beq_iff_eq] at h
      obtain ⟨gap, hGap, hRest⟩ := exists_blanks rest
      refine hWhole (f :: rest) (fun c hc => ?_) (by simp) hFlag
      rw [hRest, h.2] at hc
      simp only [List.mem_cons, List.mem_append, List.not_mem_nil, or_false] at hc h ⊢
      rcases hc with rfl | hc | rfl
      · exact Or.inr (by tauto)
      · exact Or.inl (hGap c hc)
      · exact Or.inr (by tauto)
    · cases h

theorem IsValueEnd.harmless (h : IsValueEnd cs) : IsHarmless '=' cs := by
  have hLetters : ∀ c ∈ ['i', 'I', 's', 'S', ']'], isHexDigit c = false ∧ c ≠ '\\' ∧ c ≠ '=' := by decide
  intro c hc
  rcases h.2 c hc with hBlank | hMember
  · refine ⟨isHexDigit_of_isBlank hBlank, isBlank_ne_slash hBlank, ?_⟩
    rintro rfl
    cases hBlank
  · exact hLetters c hMember

theorem append_of_readAnyQuotedRest {quote : Char} {after : List Char}
    (h : readAnyQuotedRest quote cs = some (value, after)) : cs = value ++ quote :: after := by
  fun_induction readAnyQuotedRest quote cs generalizing value after with
  | case1 => cases h
  | case2 d rest ih =>
    obtain ⟨⟨more, after'⟩, hMore, h⟩ := Option.map_eq_some_iff.mp h
    cases h
    rw [ih hMore]
    rfl
  | case3 c rest hOther hQuote =>
    cases h
    rw [beq_iff_eq.mp hQuote]
    rfl
  | case4 => cases h
  | case5 c rest hOther hQuote hStop ih =>
    obtain ⟨⟨more, after'⟩, hMore, h⟩ := Option.map_eq_some_iff.mp h
    cases h
    rw [ih hMore]
    rfl

/-- A value is read with its quotes, or up to a blank or a closing bracket. -/
theorem readAttributeValue_cases (h : readAttributeValue cs = some value) :
    ∃ after, IsValueEnd after ∧
      ((∃ quote, (quote = '"' ∨ quote = '\'') ∧ cs = quote :: (value ++ quote :: after)) ∨
        cs = value ++ after ∧ (∀ c ∈ value, (isBlank c || c == ']') = false) ∧
          ∀ c ∈ after.head?, (isBlank c || c == ']') = true) := by
  unfold readAttributeValue at h
  dsimp only at h
  rw [Option.orElse_eq_or, Option.or_eq_some_iff] at h
  rcases h with h | ⟨-, h⟩
  · split at h
    · rename_i c rest
      split at h
      · rename_i hQuote
        obtain ⟨⟨value', after⟩, hBody, h⟩ := Option.bind_eq_some_iff.mp h
        dsimp only at h
        split at h
        · rename_i hEnd
          cases h
          refine ⟨after, isValueEnd_of_endsAttribute hEnd, Or.inl ⟨c, by simpa using hQuote, ?_⟩⟩
          rw [append_of_readAnyQuotedRest hBody]
        · cases h
      · cases h
    · cases h
  · split at h
    · rename_i hEnd
      rw [Bool.and_eq_true, drop_length_takeWhile] at hEnd
      cases h
      refine ⟨_, isValueEnd_of_endsAttribute hEnd.2, Or.inr ⟨List.takeWhile_append_dropWhile.symm, ?_, ?_⟩⟩
      · intro c hc
        simpa using List.mem_takeWhile_imp hc
      · intro c hc
        have hHead := List.head?_dropWhile_not (fun c => !isBlank c && c != ']') cs
        rw [Option.mem_def.mp hc] at hHead
        cases hBlank : isBlank c <;> simp_all
    · cases h

theorem IsValueEnd.harmless_head (h : IsValueEnd cs) : ∀ c ∈ cs.head?, isHexDigit c = false ∧ c ≠ '\\' := by
  intro c hc
  obtain ⟨more, rfl⟩ := List.head?_eq_some_iff.mp hc
  obtain ⟨hHex, hSlash, -⟩ := h.harmless c List.mem_cons_self
  exact ⟨hHex, hSlash⟩

/-- No sign of a value is lost around it. -/
theorem count_le_of_readAttributeValue (h : readAttributeValue cs = some value) {e : Char} (hSlash : e ≠ '\\') :
    (unescape value).count e ≤ (unescape cs).count e := by
  obtain ⟨after, hAfter, ⟨quote, hQuote, rfl⟩ | ⟨rfl, -⟩⟩ := readAttributeValue_cases h
  · have hPlain : isHexDigit quote = false ∧ quote ≠ '\\' := by rcases hQuote with rfl | rfl <;> decide
    have hLe := count_unescape_le hSlash (y := quote :: after) (by rintro _ ⟨⟩; exact hPlain) value
    rw [unescape_cons hPlain.2, List.count_cons]
    omega
  · exact count_unescape_le hSlash hAfter.harmless_head value

/-- There is no equals sign around a value. -/
theorem count_of_readAttributeValue (h : readAttributeValue cs = some value) :
    (unescape cs).count '=' = (unescape value).count '=' := by
  obtain ⟨after, hAfter, ⟨quote, hQuote, rfl⟩ | ⟨rfl, -⟩⟩ := readAttributeValue_cases h
  · have hMark : IsHarmless '=' [quote] := by
      unfold IsHarmless
      rcases hQuote with rfl | rfl <;> decide
    exact count_unescape_around (by decide) hMark (hMark.append hAfter.harmless) value
  · exact count_unescape_around (by decide) (a := []) (by intro c hc; cases hc) hAfter.harmless value

/-- A blank that starts a name is no spacing. -/
theorem isNamePart_of_readName {r : List Char × List Char} (h : readName (b :: rest) = some r)
    (hBlank : isBlank b = true) : isNamePart b = true := by
  rcases startsName_cases (readName_iff.mp h).1 with ⟨d, more, hSame, -⟩ | ⟨d, more, hSame, hPart⟩
  · exact absurd (List.cons.inj hSame).1 (isBlank_ne_slash hBlank)
  · rw [(List.cons.inj hSame).1]
    exact hPart

theorem isSpacing_of_isNamePart (hPart : isNamePart b = true) : isSpacing b = false := by
  refine Bool.eq_false_iff.mpr fun hSpacing => ?_
  rcases eq_of_isSpacing hSpacing with rfl | rfl | rfl | rfl | rfl <;> cases hPart

theorem harmless_gap (hGap : IsGap gap) {e : Char} (hOther : isSpacing e = false) : IsHarmless e gap := by
  intro c hc
  have hSpacing := hGap c hc
  have hBlank := isBlank_of_isSpacing hSpacing
  refine ⟨isHexDigit_of_isBlank hBlank, isBlank_ne_slash hBlank, ?_⟩
  rintro rfl
  rw [hSpacing] at hOther
  cases hOther

theorem harmless_blanks (hBlanks : ∀ b ∈ blanks, isBlank b = true) {e : Char} (hOther : isBlank e = false) :
    IsHarmless e blanks := by
  intro c hc
  have hBlank := hBlanks c hc
  refine ⟨isHexDigit_of_isBlank hBlank, isBlank_ne_slash hBlank, ?_⟩
  rintro rfl
  rw [hBlank] at hOther
  cases hOther

theorem harmless_flag (hFlag : IsFlag flag) (hPart : isNamePart b = true) (hBlank : isBlank b = true) :
    IsHarmless b (flag ++ [']']) := by
  have hLetters : ∀ f ∈ ['i', 'I', 's', 'S', ']'], isHexDigit f = false ∧ f ≠ '\\' ∧ isBlank f = false := by
    decide
  have hSign : ∀ f ∈ ['i', 'I', 's', 'S', ']'], IsHarmless b [f] := by
    intro f hf c hc
    rw [List.mem_singleton.mp hc]
    obtain ⟨hHex, hSlash, hNone⟩ := hLetters f hf
    refine ⟨hHex, hSlash, ?_⟩
    rintro rfl
    rw [hNone] at hBlank
    cases hBlank
  have hClosing := hSign ']' (by decide)
  rcases hFlag with rfl | ⟨f, hf, gap, hGap, rfl⟩
  · exact hClosing
  · have hLetter := hSign f (by simp only [List.mem_cons] at hf ⊢; tauto)
    have hSpacings := harmless_gap hGap (isSpacing_of_isNamePart hPart)
    exact hLetter.append (hSpacings.append hClosing)

namespace Value.IsRead

variable {written : List Char} {value : Value}

theorem readName_text (hRead : (Value.name text).IsRead (gap ++ flag ++ [']'])) :
    readName (text ++ (gap ++ (flag ++ [']']))) = some (text, gap ++ (flag ++ [']'])) := by
  simpa using hRead []

/-- A value that is taken whole is read as what it stands for. -/
theorem exists_readAttributeValue (h : value.IsRead (gap ++ flag ++ [']'])) (hGap : IsGap gap)
    (hFlag : IsFlag flag) (hWhole : value.IsTakenWhole) :
    ∃ written, Selector.readAttributeValue (skipBlanks (value.text ++ (gap ++ (flag ++ [']'])))) = some written ∧
      unescape written = unescape value.inner := by
  cases value with
  | quoted quote body =>
    refine ⟨body, ?_, rfl⟩
    have hStart : skipBlanks ((Value.quoted quote body).text ++ (gap ++ (flag ++ [']']))) =
        (Value.quoted quote body).text ++ (gap ++ (flag ++ [']'])) := by
      rcases h.1 with rfl | rfl <;> rfl
    rw [hStart]
    exact readAttributeValue_quoted hGap hFlag h
  | name text =>
    obtain ⟨stem, hStem, hOpen⟩ := hWhole
    obtain ⟨cut, hCut, rfl⟩ := hStem.cut
    have hName := readName_text h
    have hSome := hStem.ne_nil (ne_nil_of_readName hName)
    have hBlanks : ∀ c ∈ stem, isBlank c = false := fun c hc => (Bool.or_eq_false_iff.mp (hOpen c hc)).1
    have hText : (Value.name (stem ++ cut)).text ++ (gap ++ (flag ++ [']'])) =
        stem ++ (cut ++ gap ++ (flag ++ [']'])) := by simp [Value.text]
    have hEnd := endsAttribute_flag (fun c hc => (List.mem_append.mp hc).elim (hCut c) (hGap c)) hFlag
    obtain ⟨d, y, hBehind, hStop⟩ : ∃ d y, cut ++ gap ++ (flag ++ [']']) = d :: y ∧
        (!isBlank d && d != ']') = false := by
      cases cut with
      | nil =>
        obtain ⟨d, hStop, y, hBehind⟩ := exists_behindValue hGap hFlag hName
        exact ⟨d, y, hBehind, hStop⟩
      | cons d cut => exact ⟨d, _, rfl, by simp [isBlank_of_isSpacing (hCut d List.mem_cons_self)]⟩
    refine ⟨stem, ?_, hStem.value⟩
    rw [hText, skipBlanks_name hSome hBlanks, hBehind]
    rw [hBehind] at hEnd
    refine readAttributeValue_taken hSome (fun c hc => ?_) hOpen hStop hEnd
    obtain ⟨more, rfl⟩ := List.head?_eq_some_iff.mp hc
    exact readName_quote hName

/-- If a name is read as what it stands for, no blank is left out in front of it. -/
theorem skipBlanks_text (h : (Value.name text).IsRead (gap ++ flag ++ [']'])) (hGap : IsGap gap)
    (hFlag : IsFlag flag)
    (hRead : Selector.readAttributeValue (skipBlanks (text ++ (gap ++ (flag ++ [']'])))) = some written)
    (hValue : unescape written = unescape text) :
    skipBlanks (text ++ (gap ++ (flag ++ [']']))) = text ++ (gap ++ (flag ++ [']'])) := by
  have hName := readName_text h
  obtain ⟨blanks, hBlanks, hText⟩ := exists_blanks (text ++ (gap ++ (flag ++ [']'])))
  have hNone : blanks = [] := by
    refine eq_nil_of_blanks hText (ne_nil_of_readName hName) (fun b hb hBlank => ⟨isBlank_ne_slash hBlank, ?_⟩)
      hBlanks fun e hSlash => hValue ▸ count_le_of_readAttributeValue hRead hSlash
    obtain ⟨more, rfl⟩ := List.head?_eq_some_iff.mp hb
    have hPart := isNamePart_of_readName hName hBlank
    exact (harmless_gap hGap (isSpacing_of_isNamePart hPart)).append (harmless_flag hFlag hPart hBlank)
  rw [hNone, List.nil_append] at hText
  exact hText.symm

/-- If a value is read as what it stands for, it is taken whole. -/
theorem takenWhole (h : value.IsRead (gap ++ flag ++ [']'])) (hGap : IsGap gap) (hFlag : IsFlag flag)
    (hRead : Selector.readAttributeValue (skipBlanks (value.text ++ (gap ++ (flag ++ [']'])))) = some written)
    (hValue : unescape written = unescape value.inner) : value.IsTakenWhole := by
  cases value with
  | quoted => trivial
  | name text =>
    change Selector.readAttributeValue (skipBlanks (text ++ (gap ++ (flag ++ [']'])))) = _ at hRead
    change unescape written = unescape text at hValue
    have hName := readName_text h
    obtain ⟨c, hStop, behind, hBehind⟩ := exists_behindValue hGap hFlag hName
    rw [h.skipBlanks_text hGap hFlag hRead hValue] at hRead
    obtain ⟨after, -, ⟨quote, hQuote, hSame⟩ | ⟨hSame, hOpen, hHead⟩⟩ := readAttributeValue_cases hRead
    · obtain ⟨d, more, rfl⟩ := List.exists_cons_of_ne_nil (ne_nil_of_readName hName)
      obtain ⟨rfl, -⟩ := List.cons.inj hSame
      have hNot := readName_quote hName
      rcases hQuote with rfl | rfl <;> cases hNot
    · rcases List.append_eq_append_iff.mp hSame with ⟨more, rfl, hMore⟩ | ⟨more, rfl, hMore⟩
      · cases more with
        | nil => exact ⟨text, .refl text, by simpa using hOpen⟩
        | cons d more =>
          rw [hBehind] at hMore
          obtain ⟨rfl, -⟩ := List.cons.inj hMore
          have hGoesOn : (!isBlank c && c != ']') = true := by simpa using hOpen c (by simp)
          exact absurd (hGoesOn.symm.trans hStop) (by decide)
      · refine ⟨written, ⟨⟨more, ?_, rfl⟩, hValue⟩, hOpen⟩
        cases more with
        | nil => exact isGap_nil
        | cons d more =>
          have hD : (isBlank d || d == ']') = true := hHead d (by rw [hMore]; rfl)
          have hPlain : isHexDigit d = false ∧ d ≠ '\\' := by
            rcases Bool.or_eq_true_iff.mp hD with hBlank | hClosing
            · exact harmless_of_isBlank hBlank
            · rw [beq_iff_eq.mp hClosing]
              decide
          obtain ⟨rfl, hSpacing, -⟩ := eq_of_unescape_cut hPlain.1 hPlain.2 hValue.symm
          intro c hc
          rw [List.mem_singleton.mp hc]
          exact hSpacing

end Value.IsRead

end StyleSieve.Selector
