import StyleSieve.Proofs.Selector.Bracket
import StyleSieve.Proofs.Selector.Spelling
import StyleSieve.Proofs.Selector.Strings

/-!
# Loose readings of strict text

Where a name or an attribute selector is read strictly, a loose reader reads the same. Only a
value without quotes can be cut short, at a blank that a strict name admits.

* `readLooseName_of_readName`: a strict name that also ends for the loose reader.
* `readLooseAttribute_cases`: an attribute selector is read loosely whatever follows it, or
  never.
-/

namespace StyleSieve.Selector

open Text

variable {isPart isOther : Char → Bool} {room : Nat} {name rest after x y tail : List Char}
  {c : Char}

/-! ## Names -/

theorem splitName_blocked (hSlash : c ≠ '\\') (hHex : ¬(decide (1 < room) && isHexDigit c) = true)
    (hPart : ¬(decide (0 < room) && isSpacing c || isOther c) = true) (rest : List Char) :
    splitName isOther room (c :: rest) = ([], c :: rest) := by
  rw [splitName_cons hSlash, if_neg hHex, if_neg hPart]

/-- In front of the character `c` the run `x` is read whole, or up to a part that is not admitted.
What follows does not matter. -/
def ReadsUpTo (isPart isOther : Char → Bool) (room : Nat) (x : List Char) (c : Char) : Prop :=
  (∀ more, splitName isOther room (x ++ c :: more) = (x, c :: more)) ∨
    ∃ v d w, x = v ++ d :: w ∧ isPart d = true ∧ isOther d = false ∧
      ∀ more, splitName isOther room (x ++ more) = (v, d :: (w ++ more))

theorem ReadsUpTo.prepend {room' : Nat} {front : List Char} (h : ReadsUpTo isPart isOther room' x c)
    (hFront : ∀ text, splitName isOther room (front ++ text) =
      (front ++ (splitName isOther room' text).1, (splitName isOther room' text).2)) :
    ReadsUpTo isPart isOther room (front ++ x) c := by
  rcases h with hAll | ⟨v, d, w, rfl, hPart, hNot, hAll⟩
  · refine Or.inl fun more => ?_
    rw [List.append_assoc, hFront, hAll]
  · refine Or.inr ⟨front ++ v, d, w, by simp, hPart, hNot, fun more => ?_⟩
    rw [List.append_assoc, hFront, hAll]

/-- Where a run ends at a given character, another reader reads the same run or stops at the
first part that it does not admit. -/
theorem readsUpTo_of_splitName (hSlash : c ≠ '\\') (hOther : isOther c = false)
    (h : splitName isPart room (x ++ c :: y) = (x, c :: y)) : ReadsUpTo isPart isOther room x c := by
  generalize hText : x ++ c :: y = text at h
  fun_induction splitName isPart room text generalizing x with
  | case1 room => simp at hText
  | case2 room d rest hHex taken after hRest ih =>
    cases h
    have hRun : taken ++ c :: y = rest := by simpa using hText
    have hFront : ∀ text, splitName isOther room (['\\', d] ++ text) =
        (['\\', d] ++ (splitName isOther 6 text).1, (splitName isOther 6 text).2) := by
      intro text
      change splitName isOther room ('\\' :: d :: text) = _
      rw [splitName, if_pos hHex]
      rfl
    exact (ih hRun hRest).prepend hFront
  | case3 room d rest hHex hLine =>
    cases h
    exact absurd (List.cons.inj hText).1 hSlash
  | case4 room d rest hHex hLine taken after hRest ih =>
    cases h
    have hRun : taken ++ c :: y = rest := by simpa using hText
    have hFront : ∀ text, splitName isOther room (['\\', d] ++ text) =
        (['\\', d] ++ (splitName isOther 0 text).1, (splitName isOther 0 text).2) := by
      intro text
      change splitName isOther room ('\\' :: d :: text) = _
      rw [splitName, if_neg hHex, if_neg hLine]
      rfl
    exact (ih hRun hRest).prepend hFront
  | case5 room d rest hEscape hHex taken after hRest ih =>
    cases h
    have hRun : taken ++ c :: y = rest := by simpa using hText
    have hSlashD : d ≠ '\\' := by
      rintro rfl
      simp [isHexDigit, isAsciiDigit] at hHex
    have hFront : ∀ text, splitName isOther room ([d] ++ text) =
        ([d] ++ (splitName isOther (room - 1) text).1, (splitName isOther (room - 1) text).2) := by
      intro text
      rw [List.singleton_append, splitName_cons hSlashD, if_pos hHex]
      rfl
    exact (ih hRun hRest).prepend hFront
  | case6 room d rest hEscape hHex hPart taken after hRest ih =>
    cases h
    have hRun : taken ++ c :: y = rest := by simpa using hText
    have hSlashD : d ≠ '\\' := by
      rintro rfl
      cases taken with
      | nil => exact hEscape c y rfl hRun.symm
      | cons e taken => exact hEscape e (taken ++ c :: y) rfl hRun.symm
    by_cases hPart' : (decide (0 < room) && isSpacing d || isOther d) = true
    · have hFront : ∀ text, splitName isOther room ([d] ++ text) =
          ([d] ++ (splitName isOther 0 text).1, (splitName isOther 0 text).2) := by
        intro text
        rw [List.singleton_append, splitName_cons hSlashD, if_neg hHex, if_pos hPart']
        rfl
      exact (ih hRun hRest).prepend hFront
    · obtain ⟨hGap, hNot⟩ := Bool.or_eq_false_iff.mp (Bool.eq_false_iff.mpr hPart')
      rw [hGap, Bool.false_or] at hPart
      exact Or.inr ⟨[], d, taken, rfl, hPart, hNot,
        fun more => splitName_blocked hSlashD hHex hPart' _⟩
  | case7 room d rest hEscape hHex hPart =>
    cases h
    cases hText
    refine Or.inl fun more => splitName_blocked hSlash hHex ?_ more
    simp_all

/-- Among the ASCII characters both kinds of names have the same parts. -/
theorem isLoosePart_of_ascii (hLow : c.toNat < 0x80) : isLoosePart c = isNamePart c := by
  have hWord : isWordChar c = (isAsciiLetter c || isAsciiDigit c || c == '_') := if_pos hLow
  have hBeyond : isBeyondAscii c = false := by
    unfold isBeyondAscii
    rw [decide_eq_false (by omega), Bool.false_and]
  rw [isLoosePart, isNamePart, isNameStart, hWord, hBeyond, Bool.or_false, Bool.or_false,
    Bool.or_right_comm (isAsciiLetter c)]

theorem isLoosePart_of_isNamePart (h : isNamePart c = true) : isLoosePart c = true := by
  rcases Bool.or_eq_true_iff.mp (isWritable_of_isNamePart h) with hLow | hBeyond
  · rwa [isLoosePart_of_ascii (by simpa using hLow)]
  · rw [isLoosePart, hBeyond, Bool.or_true]

/-- A text that no loose name goes on with. -/
def EndsLooseName (rest : List Char) : Prop := ∀ c ∈ rest.head?, c ≠ '\\' ∧ isLoosePart c = false

theorem readLooseName_of_splitName (hSome : name ≠ [])
    (h : splitName isLoosePart 0 (name ++ rest) = (name, rest)) :
    readLooseName (name ++ rest) = some (name, rest) := by
  obtain ⟨c, more, rfl⟩ := List.exists_cons_of_ne_nil hSome
  rw [List.cons_append] at h ⊢
  unfold readLooseName
  dsimp only
  by_cases hLead : isLooseLead c = true
  · have hSlash : c ≠ '\\' := by
      rintro rfl
      cases hLead
    rw [splitName_cons hSlash] at h
    by_cases hPart : isLoosePart c = true
    · have hMore : splitName isLoosePart 0 (more ++ rest) = (more, rest) := by
        simp only [hPart, Bool.or_true, if_true] at h
        simpa [Prod.ext_iff] using h
      rw [if_pos hLead, hMore]
      cases more with
      | nil =>
        rw [if_neg (by simp), if_pos hPart]
        rfl
      | cons d more => rw [if_pos (by simp)]
    · simp [hPart] at h
  · rw [if_neg hLead, h, if_neg (by simp)]

theorem readLooseName_of_readName (h : readName (name ++ rest) = some (name, rest))
    (hEnds : EndsLooseName rest) : readLooseName (name ++ rest) = some (name, rest) := by
  have hSplit := (readName_iff.mp h).2
  have hLoose := splitName_of_le (fun c hc => isLoosePart_of_isNamePart hc)
    (fun c hc => (hEnds c (by rwa [hSplit] at hc)).2)
  exact readLooseName_of_splitName (ne_nil_of_readName h) (hLoose.trans hSplit)

/-- The characters that end a name in an attribute selector, for every reader. -/
def nameEnds : List Char :=
  [' ', '\t', '\r', '\n', '\x0c', ']', '=', '~', '|', '^', '$', '*', '"', '\'']

theorem not_isLoosePart_of_mem_nameEnds : ∀ c ∈ nameEnds, isLoosePart c = false := by decide +kernel

theorem ends_of_isSpacing (h : isSpacing c = true) : c ≠ '\\' ∧ isLoosePart c = false := by
  have hEnds : ∀ c ∈ [' ', '\t', '\r', '\n', '\x0c'], c ≠ '\\' ∧ c ∈ nameEnds := by decide
  obtain ⟨hSlash, hMem⟩ := hEnds c (by simpa using eq_of_isSpacing h)
  exact ⟨hSlash, not_isLoosePart_of_mem_nameEnds c hMem⟩

/-- What follows a name behind a character that ends it does not matter. -/
theorem readLooseName_behind (h : readName (name ++ c :: y) = some (name, c :: y)) (hSlash : c ≠ '\\')
    (hPart : isLoosePart c = false) (more : List Char) :
    readLooseName (name ++ c :: more) = some (name, c :: more) := by
  refine readLooseName_of_splitName (ne_nil_of_readName h) ?_
  rcases readsUpTo_of_splitName hSlash hPart (readName_iff.mp h).2 with hAll | ⟨v, d, w, -, hIn, hOut, -⟩
  · exact hAll more
  · rw [isLoosePart_of_isNamePart hIn] at hOut
    cases hOut

theorem readLooseName_lead (hLead : isLooseLead c = true) (hPart : isLoosePart c = false)
    (hRest : splitName isLoosePart 0 rest = ([], rest)) : readLooseName (c :: rest) = none := by
  unfold readLooseName
  dsimp only
  rw [if_pos hLead, hRest, hPart]
  rfl

theorem readLooseName_stop (hSlash : c ≠ '\\') (hLead : isLooseLead c = false)
    (hPart : isLoosePart c = false) (rest : List Char) : readLooseName (c :: rest) = none := by
  unfold readLooseName
  dsimp only
  rw [hLead, splitName_stop_of_not hSlash hPart]
  rfl

theorem isReader_readLooseName : IsReader readLooseName where
  append h := by
    rename_i cs taken after
    unfold readLooseName at h
    split at h
    · cases h
    · rename_i c rest
      have hRest := splitName_append_eq isLoosePart 0 rest
      have hWhole := splitName_append_eq isLoosePart 0 (c :: rest)
      split at h
      · dsimp only at h
        split at h
        · cases h
          rw [List.cons_append, hRest]
        · split at h
          · cases h
            rfl
          · cases h
      · dsimp only at h
        split at h
        · cases h
        · cases h
          exact hWhole
  spacing rest hSpacing := by
    have hPart := (ends_of_isSpacing hSpacing).2
    rcases eq_of_isSpacing hSpacing with rfl | rfl | rfl | rfl | rfl <;>
      exact readLooseName_stop (by decide) (by decide) hPart rest

/-! ## Values -/

theorem isLooseValuePart_of_isNamePart (h : isNamePart c = true) (hBlank : isBlank c = false) :
    isLooseValuePart c = true := by
  have hOther : ∀ d ∈ [']', '"', '\'', '\\'], isNamePart d = false := by decide
  have hNot : c ∉ [']', '"', '\'', '\\'] := by
    intro hMem
    rw [hOther c hMem] at h
    cases h
  simp only [List.mem_cons, List.not_mem_nil, or_false, not_or] at hNot
  simp [isLooseValuePart, hBlank, hNot]

theorem isBeyondAscii_of_isBlank (h : isNamePart c = true) (hBlank : isBlank c = true) :
    isBeyondAscii c = true := by
  rcases Bool.or_eq_true_iff.mp (isWritable_of_isNamePart h) with hLow | hBeyond
  · have hLow : c.toNat < 0x80 := by simpa using hLow
    have hAscii : c ∈ ['\t', '\n', '\x0b', '\x0c', '\r', '\x1c', '\x1d', '\x1e', '\x1f', ' '] := by
      rw [← Char.ofNat_toNat c]
      simp only [isBlank, isAsciiBlank, Bool.or_eq_true, Bool.and_eq_true, decide_eq_true_eq,
        beq_iff_eq] at hBlank
      generalize c.toNat = n at hBlank hLow
      have hCode : n ∈ [9, 10, 11, 12, 13, 28, 29, 30, 31, 32] := by
        simp only [List.mem_cons, List.not_mem_nil, or_false]
        omega
      have hAll : ∀ n ∈ [9, 10, 11, 12, 13, 28, 29, 30, 31, 32], Char.ofNat n ∈ ['\t', '\n',
          '\x0b', '\x0c', '\r', '\x1c', '\x1d', '\x1e', '\x1f', ' '] := by decide
      exact hAll n hCode
    have hNone : ∀ c ∈ ['\t', '\n', '\x0b', '\x0c', '\r', '\x1c', '\x1d', '\x1e', '\x1f', ' '],
        isNamePart c = false := by decide
    rw [hNone c hAscii] at h
    cases h
  · exact hBeyond

/-- What follows a string does not matter. -/
theorem readQuotedRest_behind {quote : Char} (hQuote : quote ≠ '\\')
    (h : readQuotedRest quote (x ++ y) = some (x, y)) (more : List Char) :
    readQuotedRest quote (x ++ more) = some (x, more) := by
  generalize hText : x ++ y = text at h
  fun_induction readQuotedRest quote text generalizing x with
  | case1 => cases h
  | case2 => cases h
  | case3 d rest hLine ih =>
    obtain ⟨⟨taken, after⟩, hRest, h⟩ := Option.map_eq_some_iff.mp h
    cases h
    have hMore := ih (by simpa using hText) hRest
    rw [List.cons_append, List.cons_append, readQuotedRest, if_neg hLine, hMore]
    rfl
  | case4 c rest hOther hSame =>
    cases h
    rw [beq_iff_eq] at hSame
    rw [List.singleton_append, hSame, readQuotedRest_quote hQuote]
  | case5 => cases h
  | case6 c rest hOther hSame hStop ih =>
    obtain ⟨⟨taken, after⟩, hRest, h⟩ := Option.map_eq_some_iff.mp h
    cases h
    have hMore := ih (by simpa using hText) hRest
    have hSlash : c ≠ '\\' := by
      rintro rfl
      simp at hStop
    rw [List.cons_append, readQuotedRest_plain (by simpa using hSame) hSlash (by simp_all), hMore]
    rfl

theorem readQuoted_behind (h : readQuoted (x ++ y) = some (x, y)) (more : List Char) :
    readQuoted (x ++ more) = some (x, more) := by
  unfold readQuoted at h
  split at h
  · rename_i c rest hText
    split at h
    · rename_i hQuote
      obtain ⟨⟨taken, after⟩, hRest, h⟩ := Option.map_eq_some_iff.mp h
      cases h
      obtain ⟨-, hText⟩ := List.cons.inj hText
      have hSlash : c ≠ '\\' := by
        rintro rfl
        cases hQuote
      rw [← hText] at hRest
      rw [List.cons_append, readQuoted, if_pos hQuote, readQuotedRest_behind hSlash hRest more]
      rfl
    · cases h
  · cases h

theorem exists_quote (h : readQuoted x = some (name, after)) :
    ∃ q more, name = q :: more ∧ (q = '"' ∨ q = '\'') := by
  unfold readQuoted at h
  split at h
  · rename_i c rest
    split at h
    · rename_i hQuote
      obtain ⟨⟨taken, after'⟩, -, h⟩ := Option.map_eq_some_iff.mp h
      cases h
      exact ⟨c, taken, rfl, by simpa using hQuote⟩
    · cases h
  · cases h

/-- A string consists of its quotes and what stands between them. -/
theorem exists_body (h : readQuoted x = some (name, after)) :
    ∃ q body, (q = '"' ∨ q = '\'') ∧ name = q :: body ++ [q] := by
  unfold readQuoted at h
  split at h
  · rename_i c rest
    split at h
    · rename_i hQuote
      obtain ⟨⟨taken, after'⟩, hRest, h⟩ := Option.map_eq_some_iff.mp h
      cases h
      have hQuote : c = '"' ∨ c = '\'' := by simpa using hQuote
      have hSlash : c ≠ '\\' := by rcases hQuote with rfl | rfl <;> decide
      obtain ⟨body, rfl, -⟩ := readAnyQuotedRest_of_readQuotedRest hSlash hRest
      exact ⟨c, body, hQuote, rfl⟩
    · cases h
  · cases h

theorem readQuoted_of_not_quote (h : c ≠ '"' ∧ c ≠ '\'') (rest : List Char) :
    readQuoted (c :: rest) = none := by
  rw [readQuoted, if_neg (by simp [h])]

/-- A value without quotes is read like a name. -/
theorem readLooseValue_of_not_quoted (h : readQuoted x = none) :
    readLooseValue x = if (splitName isLooseValuePart 0 x).1.isEmpty then none
      else some (splitName isLooseValuePart 0 x) := by
  unfold readLooseValue
  rw [h]

theorem isReader_readLooseValue : IsReader readLooseValue where
  append h := by
    unfold readLooseValue at h
    split at h
    · rename_i r hQuoted
      cases h
      exact readQuoted_append hQuoted
    · dsimp only at h
      split at h
      · cases h
      · cases h
        exact splitName_append_eq isLooseValuePart 0 _
  spacing {c} rest hSpacing := by
    have hBlank : ∀ c ∈ [' ', '\t', '\r', '\n', '\x0c'],
        c ≠ '\\' ∧ isLooseValuePart c = false ∧ c ≠ '"' ∧ c ≠ '\'' := by
      decide
    obtain ⟨hSlash, hPart, hQuote⟩ := hBlank c (by simpa using eq_of_isSpacing hSpacing)
    rw [readLooseValue_of_not_quoted (readQuoted_of_not_quote hQuote rest),
      splitName_stop_of_not hSlash hPart]
    rfl

theorem readAttributeEnd_none (hSpacing : isSpacing c = false) (hOther : c ∉ [']', 'i', 'I', 's', 'S'])
    (rest : List Char) : readAttributeEnd (c :: rest) = none := by
  have hFlag : ['i', 'I', 's', 'S'].contains c = false := by
    simpa using fun h => hOther (List.mem_cons_of_mem _ h)
  unfold readAttributeEnd
  rw [skipSpacing_cons hSpacing]
  split
  · rename_i hSame
    cases hSame
    exact absurd (by decide) hOther
  · rename_i hSame
    cases hSame
    rw [hFlag, if_neg Bool.false_ne_true]
  · rename_i hSame
    cases hSame

/-- A blank that a name may contain, though a loose value may not. -/
def HasBlank (text : List Char) : Prop := ∃ c ∈ text, isBlank c = true ∧ isBeyondAscii c = true

/-- A name as a value is read loosely, unless a blank in it stands in the way of the closing
bracket. -/
theorem readLooseValue_cases {value : List Char} (hSlash : c ≠ '\\')
    (hPart : isLooseValuePart c = false) (h : readName (value ++ c :: y) = some (value, c :: y)) :
    (∀ more, readLooseValue (value ++ c :: more) = some (value, c :: more)) ∨
      (HasBlank value ∧ ∀ more,
        (readLooseValue (value ++ more)).bind (fun r => readAttributeEnd r.2) = none) := by
  obtain ⟨hStart, hSplit⟩ := readName_iff.mp h
  have hSome := ne_nil_of_readName h
  have hQuoted : ∀ more, readQuoted (value ++ more) = none := by
    intro more
    obtain ⟨d, rest, rfl⟩ := List.exists_cons_of_ne_nil hSome
    refine readQuoted_of_not_quote ?_ _
    rcases startsName_cases hStart with ⟨e, after, hText, -⟩ | ⟨e, after, hText, hIn⟩
    · obtain ⟨rfl, -⟩ := List.cons.inj hText
      decide
    · obtain ⟨rfl, -⟩ := List.cons.inj hText
      constructor
      · rintro rfl
        cases hIn
      · rintro rfl
        cases hIn
  rcases readsUpTo_of_splitName hSlash hPart hSplit with hAll | ⟨v, d, w, rfl, hIn, hOut, hAll⟩
  · refine Or.inl fun more => ?_
    rw [readLooseValue_of_not_quoted (hQuoted _), hAll, if_neg (by simpa using hSome)]
  · have hBlank : isBlank d = true := by
      by_contra hNot
      rw [isLooseValuePart_of_isNamePart hIn (Bool.eq_false_iff.mpr hNot)] at hOut
      cases hOut
    refine Or.inr ⟨⟨d, by simp, hBlank, isBeyondAscii_of_isBlank hIn hBlank⟩, fun more => ?_⟩
    have hSpacing : isSpacing d = false := by
      by_contra hSpacing
      rcases eq_of_isSpacing (by simpa using hSpacing) with rfl | rfl | rfl | rfl | rfl <;> cases hIn
    have hOther : d ∉ [']', 'i', 'I', 's', 'S'] := by
      intro hMem
      have hNone : ∀ d ∈ [']', 'i', 'I', 's', 'S'], isBlank d = false := by decide
      rw [hNone d hMem] at hBlank
      cases hBlank
    have hEnd := readAttributeEnd_none hSpacing hOther (w ++ more)
    rw [readLooseValue_of_not_quoted (hQuoted _), hAll]
    split
    · rfl
    · exact hEnd

/-! ## Behind the name -/

/-- The signs that may stand in front of the `=` of a loose operator. -/
def looseMarks : List Char := ['~', '|', '^', '$', '*', '!']

theorem areMarks_loose : AreMarks looseMarks := by
  refine ⟨by decide, ?_⟩
  decide

theorem IsOperator.loose {op : List Char} (h : IsOperator ['~', '|', '^', '$', '*'] op) :
    IsOperator looseMarks op := by
  have hMark : ∀ c ∈ ['~', '|', '^', '$', '*'], c ∈ looseMarks := by decide
  rcases h with rfl | ⟨c, hc, rfl⟩
  · exact Or.inl rfl
  · exact Or.inr ⟨c, hMark c hc, rfl⟩

/-- What stands behind a name as a value starts with the same character, whatever follows it, and
this character ends the value for every reader. -/
theorem exists_end {value gap flag : List Char} (hGap : IsGap gap) (hFlag : IsFlag flag)
    (h : readName (value ++ (gap ++ (flag ++ ']' :: rest))) =
      some (value, gap ++ (flag ++ ']' :: rest))) :
    ∃ c, c ≠ '\\' ∧ isLoosePart c = false ∧ isLooseValuePart c = false ∧
      ∀ more, ∃ y, gap ++ (flag ++ ']' :: more) = c :: y := by
  have hGaps : ∀ c ∈ [' ', '\t', '\r', '\n', '\x0c'], isLooseValuePart c = false := by decide
  cases gap with
  | cons c gap =>
    have hSpacing := hGap c List.mem_cons_self
    obtain ⟨hSlash, hPart⟩ := ends_of_isSpacing hSpacing
    have hValue := hGaps c (by simpa using eq_of_isSpacing hSpacing)
    exact ⟨c, hSlash, hPart, hValue, fun more => ⟨_, rfl⟩⟩
  | nil =>
    rcases hFlag with rfl | ⟨f, hf, gap', -, rfl⟩
    · have hPart := not_isLoosePart_of_mem_nameEnds ']' (by decide)
      exact ⟨']', by decide, hPart, by decide, fun more => ⟨more, rfl⟩⟩
    · have hFlags : ∀ f ∈ ['i', 'I', 's', 'S'], ¬(f = '\\' ∨ isNamePart f = false) := by decide
      exact absurd (stop_of_readName h f rfl) (hFlags f hf)

/-- A strict value is read loosely, or never so that the closing bracket follows. -/
theorem readLooseValue_of_readStrictValue {value gap flag : List Char} (hGap : IsGap gap)
    (hFlag : IsFlag flag)
    (h : readStrictValue (value ++ (gap ++ (flag ++ ']' :: rest))) =
      some (value, gap ++ (flag ++ ']' :: rest))) :
    (∀ more, readLooseValue (value ++ (gap ++ (flag ++ ']' :: more))) =
      some (value, gap ++ (flag ++ ']' :: more))) ∨
      (HasBlank value ∧ ∀ more,
        (readLooseValue (value ++ more)).bind (fun r => readAttributeEnd r.2) = none) := by
  unfold readStrictValue at h
  cases hName : readName (value ++ (gap ++ (flag ++ ']' :: rest))) with
  | none =>
    rw [hName] at h
    refine Or.inl fun more => ?_
    unfold readLooseValue
    rw [readQuoted_behind h]
  | some r =>
    rw [hName] at h
    cases h
    obtain ⟨c, hSlash, -, hPart, hEnd⟩ := exists_end hGap hFlag hName
    obtain ⟨y, hText⟩ := hEnd rest
    rw [hText] at hName
    refine (readLooseValue_cases hSlash hPart hName).imp_left fun hAll more => ?_
    obtain ⟨z, hMore⟩ := hEnd more
    rw [hMore, hAll]

/-- What stands behind the name is read loosely, unless a blank stands in a value. -/
theorem readAttributeTail_cases (h : TakesTail ['~', '|', '^', '$', '*'] readStrictValue rest tail) :
    (∀ more, readAttributeTail looseMarks readLooseValue (tail ++ more) = some more) ∨
      (HasBlank tail ∧ ∀ more, readAttributeTail looseMarks readLooseValue (tail ++ more) = none) := by
  cases h with
  | bare hGap =>
    exact Or.inl fun more =>
      readAttributeTail_of_takesTail areMarks_loose isReader_readLooseValue (.bare hGap)
  | @compared gap op gap' value gap'' flag hGap hOp hGap' hValue hGap'' hFlag =>
    rcases readLooseValue_of_readStrictValue hGap'' hFlag hValue with hAll | ⟨hBlank, hNone⟩
    · exact Or.inl fun more => readAttributeTail_of_takesTail areMarks_loose isReader_readLooseValue
        (.compared hGap hOp.loose hGap' (hAll more) hGap'' hFlag)
    · refine Or.inr ⟨?_, fun more => ?_⟩
      · obtain ⟨c, hc, hBoth⟩ := hBlank
        exact ⟨c, by simp [hc], hBoth⟩
      · have hStart : skipSpacing (value ++ (gap'' ++ (flag ++ ([']'] ++ more)))) =
            value ++ (gap'' ++ (flag ++ ([']'] ++ more))) := by
          obtain ⟨c, v, rfl⟩ := List.exists_cons_of_ne_nil (show value ≠ [] by
            rintro rfl
            obtain ⟨c, hc, -⟩ := hBlank
            cases hc)
          exact skipSpacing_cons
            (isSpacing_of_skipSpacing (isReader_readStrictValue.skipSpacing_append hValue)) _
        simp only [List.append_assoc]
        rw [readAttributeTail_operator areMarks_loose hGap hOp.loose hGap' hStart]
        exact hNone _

/-! ## The sign of an operator as a name -/

/-- The value behind `=`, read as a name together with this sign. -/
theorem readLooseName_equals {value : List Char} (hSlash : c ≠ '\\') (hPart : isLoosePart c = false)
    (h : readName (value ++ c :: y) = some (value, c :: y)) (more : List Char) :
    readLooseName ('=' :: (value ++ c :: more)) = some ('=' :: value, c :: more) := by
  have hSplit : splitName isLoosePart 0 (value ++ c :: more) = (value, c :: more) := by
    rcases readsUpTo_of_splitName hSlash hPart (readName_iff.mp h).2 with hAll | ⟨v, d, w, -, hIn, hOut, -⟩
    · exact hAll more
    · rw [isLoosePart_of_isNamePart hIn] at hOut
      cases hOut
  unfold readLooseName
  dsimp only
  rw [if_pos (by decide), hSplit, if_pos (by simpa using ne_nil_of_readName h)]

/-- Behind a value that is read as part of a name only the closing bracket is left, or the
reading fails. -/
theorem readAttributeTail_end {gap flag : List Char} (hGap : IsGap gap) (hFlag : IsFlag flag) :
    (∀ more, readAttributeTail looseMarks readLooseValue (gap ++ (flag ++ ']' :: more)) = some more) ∨
      ∀ more, readAttributeTail looseMarks readLooseValue (gap ++ (flag ++ ']' :: more)) = none := by
  rcases hFlag with rfl | ⟨f, hf, gap', hGap', rfl⟩
  · refine Or.inl fun more => readAttributeTail_closed ?_
    rw [skipSpacing_append hGap]
    rfl
  · refine Or.inr fun more => ?_
    have hFlags : ∀ f ∈ ['i', 'I', 's', 'S'], isSpacing f = false ∧ f ≠ ']' ∧ ∀ rest,
        afterOperator looseMarks f rest = none := by
      simp only [List.forall_mem_cons]
      refine ⟨⟨rfl, by decide, fun _ => rfl⟩, ⟨rfl, by decide, fun _ => rfl⟩,
        ⟨rfl, by decide, fun _ => rfl⟩, ⟨rfl, by decide, fun _ => rfl⟩, by simp⟩
    obtain ⟨hSpacing, hOpen, hOperator⟩ := hFlags f hf
    have hStart : skipSpacing (gap ++ (f :: gap' ++ ']' :: more)) = f :: (gap' ++ ']' :: more) := by
      rw [skipSpacing_append hGap]
      exact skipSpacing_cons hSpacing _
    rw [readAttributeTail_open hStart hOpen, hOperator]
    rfl

/-- Where a bar belongs to an operator, the loose reader tries it as the end of a namespace. -/
theorem readNamed_equals_cases {text : List Char}
    (h : TakesTail ['~', '|', '^', '$', '*'] readStrictValue rest ('|' :: text)) :
    (∀ more, readNamed looseMarks readLooseName readLooseValue (text ++ more) = some more) ∨
      ∀ more, readNamed looseMarks readLooseName readLooseValue (text ++ more) = none := by
  have hStop : ∀ c, c ≠ '\\' → isLoosePart c = false → ∀ more,
      readNamed looseMarks readLooseName readLooseValue ('=' :: c :: more) = none := by
    intro c hSlash hPart more
    rw [readNamed, readLooseName_lead (by decide) (not_isLoosePart_of_mem_nameEnds '=' (by decide))
      (splitName_stop_of_not hSlash hPart more)]
    rfl
  generalize hTail : '|' :: text = tail at h
  cases h with
  | @bare gap hGap =>
    cases gap with
    | nil => cases hTail
    | cons c gap =>
      obtain ⟨rfl, -⟩ := List.cons.inj hTail
      cases hGap '|' List.mem_cons_self
  | @compared gap op gap' value gap'' flag hGap hOp hGap' hValue hGap'' hFlag =>
    cases gap with
    | cons c gap =>
      obtain ⟨rfl, -⟩ := List.cons.inj hTail
      cases hGap '|' List.mem_cons_self
    | nil =>
      obtain rfl : text = '=' :: (gap' ++ (value ++ (gap'' ++ (flag ++ [']'])))) := by
        rcases hOp with rfl | ⟨c, -, rfl⟩
        · cases hTail
        · exact (List.cons.inj hTail).2
      cases gap' with
      | cons c gap' =>
        obtain ⟨hSlash, hPart⟩ := ends_of_isSpacing (hGap' c List.mem_cons_self)
        exact Or.inr fun more => hStop c hSlash hPart _
      | nil =>
        unfold readStrictValue at hValue
        cases hName : readName (value ++ (gap'' ++ (flag ++ ']' :: rest))) with
        | none =>
          rw [hName] at hValue
          obtain ⟨q, v, rfl, rfl | rfl⟩ := exists_quote hValue
          · have hPart := not_isLoosePart_of_mem_nameEnds '"' (by decide)
            exact Or.inr fun more => hStop '"' (by decide) hPart _
          · have hPart := not_isLoosePart_of_mem_nameEnds '\'' (by decide)
            exact Or.inr fun more => hStop '\'' (by decide) hPart _
        | some r =>
          rw [hName] at hValue
          cases hValue
          obtain ⟨c, hSlash, hPart, -, hEnd⟩ := exists_end hGap'' hFlag hName
          have hRead : ∀ more, readLooseName ('=' :: (value ++ (gap'' ++ (flag ++ ']' :: more)))) =
              some ('=' :: value, gap'' ++ (flag ++ ']' :: more)) := by
            intro more
            obtain ⟨y, hText⟩ := hEnd rest
            obtain ⟨z, hMore⟩ := hEnd more
            rw [hText] at hName
            rw [hMore]
            exact readLooseName_equals hSlash hPart hName z
          simp only [List.nil_append, List.cons_append, List.append_assoc]
          refine (readAttributeTail_end hGap'' hFlag).imp (fun hAll more => ?_) fun hNone more => ?_
          · rw [readNamed, hRead, Option.bind_some, hAll]
          · rw [readNamed, hRead, Option.bind_some, hNone]

/-! ## Attribute selectors -/

theorem TakesTail.exists_head {readValue : List Char → Option (List Char × List Char)}
    (h : TakesTail ['~', '|', '^', '$', '*'] readValue rest tail) :
    ∃ c more, tail = c :: more ∧ c ≠ '\\' ∧ isLoosePart c = false := by
  have hEnds : ∀ c ∈ [']', '=', '~', '|', '^', '$', '*'], c ≠ '\\' ∧ c ∈ nameEnds := by decide
  have hSigns : ∀ c ∈ [']', '=', '~', '|', '^', '$', '*'], c ≠ '\\' ∧ isLoosePart c = false :=
    fun c hc => ⟨(hEnds c hc).1, not_isLoosePart_of_mem_nameEnds c (hEnds c hc).2⟩
  have hStart : ∀ {gap : List Char} c behind, IsGap gap → (c ≠ '\\' ∧ isLoosePart c = false) →
      ∃ d more, gap ++ c :: behind = d :: more ∧ d ≠ '\\' ∧ isLoosePart d = false := by
    intro gap c behind hGap hc
    cases gap with
    | nil => exact ⟨c, behind, rfl, hc⟩
    | cons d gap => exact ⟨d, _, rfl, ends_of_isSpacing (hGap d List.mem_cons_self)⟩
  cases h with
  | bare hGap => exact hStart ']' [] hGap (hSigns ']' (by decide))
  | compared hGap hOp =>
    rcases hOp with rfl | ⟨c, hc, rfl⟩
    · exact hStart '=' _ hGap (hSigns '=' (by decide))
    · exact hStart c _ hGap (hSigns c (List.mem_cons_of_mem _ (List.mem_cons_of_mem _ hc)))

theorem readLooseName_sign (h : c = '|' ∨ c = '*') (rest : List Char) :
    readLooseName (c :: rest) = none := by
  rcases h with rfl | rfl
  · exact readLooseName_stop (by decide) (by decide) (not_isLoosePart_of_mem_nameEnds '|' (by decide)) rest
  · exact readLooseName_stop (by decide) (by decide) (not_isLoosePart_of_mem_nameEnds '*' (by decide)) rest

/-- Without a namespace, a bar behind the name is tried as the end of one. -/
theorem readLooseAttribute_unspaced {gap : List Char} (hGap : IsGap gap)
    (hName : readLooseName (name ++ rest) = some (name, rest)) :
    readLooseAttribute (gap ++ (name ++ rest)) =
      ((behindBar rest).bind (readNamed looseMarks readLooseName readLooseValue)).or
        (readAttributeTail looseMarks readLooseValue rest) := by
  change readAttribute looseMarks readLooseName readLooseValue _ = _
  rw [readAttribute_eq, skipSpacing_append hGap, isReader_readLooseName.skipSpacing_append hName,
    afterNamespace_of_read (fun _ => readLooseName_sign (Or.inl rfl) _)
      (fun _ => readLooseName_sign (Or.inr rfl) _) hName, Option.orElse_eq_or, readNamed, hName]
  rfl

/-- With a namespace, only what stands behind it counts. -/
theorem readLooseAttribute_spaced {gap space : List Char} (hGap : IsGap gap) (hSome : space ≠ [])
    (hSpace : IsNamespace readName space (name ++ y))
    (hName : readName (name ++ y) = some (name, y))
    (hLoose : readLooseName (name ++ rest) = some (name, rest)) :
    readLooseAttribute (gap ++ (space ++ (name ++ rest))) =
      readAttributeTail looseMarks readLooseValue rest := by
  have hNamed : readNamed looseMarks readLooseName readLooseValue (name ++ rest) =
      readAttributeTail looseMarks readLooseValue rest := by
    rw [readNamed, hLoose, Option.bind_some]
  change readAttribute looseMarks readLooseName readLooseValue _ = _
  rw [readAttribute_eq, skipSpacing_append hGap, Option.orElse_eq_or]
  rcases hSpace with rfl | rfl | rfl | ⟨before, rfl, hBefore⟩
  · exact absurd rfl hSome
  · change (readNamed _ _ _ (name ++ rest)).or (readNamed _ _ _ ('|' :: (name ++ rest))) = _
    rw [hNamed, readNamed, readLooseName_sign (Or.inl rfl), Option.bind_none, Option.or_none]
  · change (readNamed _ _ _ (name ++ rest)).or (readNamed _ _ _ ('*' :: '|' :: (name ++ rest))) = _
    rw [hNamed, readNamed, readLooseName_sign (Or.inr rfl), Option.bind_none, Option.or_none]
  · have hPart := not_isLoosePart_of_mem_nameEnds '|' (by decide)
    have hBar := readLooseName_behind hBefore (by decide) hPart (name ++ rest)
    have hStart := isReader_readLooseName.skipSpacing_append hBar
    have hNone : readAttributeTail looseMarks readLooseValue ('|' :: (name ++ rest)) = none := by
      obtain ⟨c, more, rfl⟩ := List.exists_cons_of_ne_nil (ne_nil_of_readName hName)
      have hEquals : c ≠ '=' := by
        rintro rfl
        cases hName
      rw [readAttributeTail_open (skipSpacing_cons (by decide) _) (by decide)]
      have hOperator : afterOperator looseMarks '|' (c :: more ++ rest) = none := by
        unfold afterOperator
        rw [if_neg (by decide), if_pos (by decide)]
        split
        · rename_i hSame
          exact absurd (List.cons.inj hSame).1 hEquals
        · rfl
      rw [hOperator]
      rfl
    simp only [List.append_assoc, List.singleton_append]
    rw [hStart, afterNamespace_of_read (fun _ => readLooseName_sign (Or.inl rfl) _)
      (fun _ => readLooseName_sign (Or.inr rfl) _) hBar]
    change (readNamed _ _ _ (name ++ rest)).or (readNamed _ _ _ (before ++ '|' :: (name ++ rest))) = _
    rw [hNamed, readNamed, hBar, Option.bind_some, hNone, Option.or_none]

theorem behindBar_cases (h : TakesTail ['~', '|', '^', '$', '*'] readStrictValue rest tail) :
    (∀ more, (behindBar (tail ++ more)).bind (readNamed looseMarks readLooseName readLooseValue) =
      some more) ∨
      ∀ more, (behindBar (tail ++ more)).bind (readNamed looseMarks readLooseName readLooseValue) =
        none := by
  obtain ⟨c, behind, rfl, -⟩ := h.exists_head
  by_cases hBar : c = '|'
  · subst hBar
    exact readNamed_equals_cases h
  · refine Or.inr fun more => ?_
    have hNone : behindBar (c :: (behind ++ more)) = none := by
      unfold behindBar
      split
      · rename_i hSame
        exact absurd (List.cons.inj hSame).1 hBar
      · rfl
    rw [List.cons_append, hNone]
    rfl

/-- A strict attribute selector is read loosely, whatever follows it, or it never is because of a
blank in its value. -/
theorem readLooseAttribute_cases {text : List Char}
    (h : readStrictAttribute (text ++ rest) = some rest) :
    (∀ more, readLooseAttribute (text ++ more) = some more) ∨
      (HasBlank text ∧ ∀ more, readLooseAttribute (text ++ more) = none) := by
  obtain ⟨gap, space, name, tail, hText, hGap, hSpace, hName, hTail⟩ := readStrictAttribute_iff.mp h
  obtain rfl : text = gap ++ (space ++ (name ++ tail)) := by
    refine List.append_cancel_right (hText.trans ?_)
    simp
  have hLoose : ∀ more, readLooseName (name ++ (tail ++ more)) = some (name, tail ++ more) := by
    intro more
    obtain ⟨c, behind, rfl, hSlash, hPart⟩ := hTail.exists_head
    exact readLooseName_behind hName hSlash hPart _
  have hMono : HasBlank tail → HasBlank (gap ++ (space ++ (name ++ tail))) := by
    rintro ⟨c, hc, hBoth⟩
    exact ⟨c, by simp [hc], hBoth⟩
  simp only [List.append_assoc]
  by_cases hSome : space = []
  · subst hSome
    simp only [List.nil_append, readLooseAttribute_unspaced hGap (hLoose _)] at hMono ⊢
    rcases behindBar_cases hTail with hAll | hNone
    · exact Or.inl fun more => by rw [hAll, Option.some_or]
    · simp only [hNone, Option.none_or]
      exact (readAttributeTail_cases hTail).imp_right fun h => ⟨hMono h.1, h.2⟩
  · simp only [readLooseAttribute_spaced hGap hSome hSpace hName (hLoose _)]
    exact (readAttributeTail_cases hTail).imp_right fun h => ⟨hMono h.1, h.2⟩

end StyleSieve.Selector
