import StyleSieve.Proofs.Css.Stop
import StyleSieve.Proofs.Selector.Spelling

/-!
# Names, strings and addresses as they are written

What is written of a value is read as this value again: a name if no part of a name follows, a string
and an address up to the sign that closes it.

* `IsEscape`: what is read behind a backslash.
* `readName_writtenName`, `readName_flatMap`: names, and what stands behind the start of one.
* `readString_flatMap`: strings.
* `readUrl_flatMap`: addresses without control characters.
-/

namespace StyleSieve.Css

open Text

variable [Surrogates] {c d e : Char} {value r text : List Char}

/-! ## Escapes -/

/-- The text is an escape of the character, behind the backslash. -/
structure IsEscape (c : Char) (text : List Char) : Prop where
  some : text ≠ []
  escapes : ∀ r, escapes (text ++ r) = true
  reads : ∀ r, readEscape (text ++ r) = (c, text.length)

/-- Below the surrogates, every code but zero is that of a character. -/
theorem codeChar_of_lt {code : Nat} (hSome : code ≠ 0) (hLow : code < 0xD800) :
    codeChar code = Char.ofNat code := by
  have hHalf : isSurrogate code = false := by
    rw [isSurrogate, decide_eq_false (by omega), Bool.false_and]
  rw [codeChar, if_neg (by simp [hSome]; omega), hHalf, if_neg Bool.false_ne_true]

/-- A character that is no digit stands for itself. -/
theorem isEscape_self (hHex : isHexDigit c = false) (hLine : c ≠ '\n') : IsEscape c [c] where
  some := List.cons_ne_nil c []
  escapes r := by simpa [escapes] using hLine
  reads r := by
    have hNone : ((c :: r).take 6).takeWhile isHexDigit = [] := by
      rw [List.take_succ_cons, List.takeWhile_cons_of_neg (by simp [hHex])]
    rw [List.singleton_append]
    unfold readEscape
    rw [hNone]
    rfl

/-- Digits with a blank behind them stand for the character of this code. -/
theorem isEscape_digits (ds : List Char) (hSome : ds ≠ []) (hHex : ds.all isHexDigit = true)
    (hLength : ds.length ≤ 5)
    (hCode : (digitsValue 16 ds ≠ 0 ∧ digitsValue 16 ds < 0xD800) ∧ Char.ofNat (digitsValue 16 ds) = c) :
    IsEscape c (ds ++ [' ']) where
  some := by simp
  escapes r := by
    obtain ⟨d, more, rfl⟩ := List.exists_cons_of_ne_nil hSome
    have hDigit : isHexDigit d = true := List.all_eq_true.mp hHex d List.mem_cons_self
    have hLine : d ≠ '\n' := by
      rintro rfl
      cases hDigit
    simpa [escapes] using hLine
  reads r := by
    have hDigits : ((ds ++ [' '] ++ r).take 6).takeWhile isHexDigit = ds := by
      rw [takeWhile_take, List.append_assoc,
        List.takeWhile_append_of_pos fun d hd => List.all_eq_true.mp hHex d hd,
        List.singleton_append, List.takeWhile_cons_of_neg (by decide), List.append_nil,
        List.take_of_length_le (by omega)]
    unfold readEscape
    rw [hDigits, List.append_assoc]
    dsimp only
    rw [List.drop_left]
    simp [hSome, codeChar_of_lt hCode.1.1 hCode.1.2, hCode.2, isBlank]

theorem isEscape_lineEnds : IsEscape '\n' ['A', ' '] ∧ IsEscape '\r' ['D', ' '] ∧
    IsEscape '\x0c' ['C', ' '] ∧ IsEscape '\t' ['9', ' '] := by
  refine ⟨?_, ?_, ?_, ?_⟩
  · exact isEscape_digits ['A'] (by simp) (by decide) (by simp) (by decide)
  · exact isEscape_digits ['D'] (by simp) (by decide) (by simp) (by decide)
  · exact isEscape_digits ['C'] (by simp) (by decide) (by simp) (by decide)
  · exact isEscape_digits ['9'] (by simp) (by decide) (by simp) (by decide)

/-! ## Names -/

/-- No part of a name starts here. -/
def EndsName (r : List Char) : Prop :=
  ∀ c more, r = c :: more → isNamePart c = false ∧ (c = '\\' → escapes more = false)

/-- A character of a name is written as it is or as an escape. -/
theorem writtenInName_cases (c : Char) :
    isNamePart c = true ∧ writtenInName c = [c] ∨
      ∃ text, writtenInName c = '\\' :: text ∧ IsEscape c text := by
  unfold writtenInName
  split
  · exact Or.inl ⟨‹_›, rfl⟩
  · rename_i hPart
    have hHex : isHexDigit c = false :=
      Bool.eq_false_iff.mpr fun hHex => hPart (Selector.isHexDigit_isNamePart hHex)
    refine Or.inr ?_
    split
    · rename_i hLine
      exact ⟨_, rfl, eq_of_beq hLine ▸ isEscape_lineEnds.1⟩
    split
    · rename_i hReturn
      exact ⟨_, rfl, eq_of_beq hReturn ▸ isEscape_lineEnds.2.1⟩
    split
    · rename_i hFeed
      exact ⟨_, rfl, eq_of_beq hFeed ▸ isEscape_lineEnds.2.2.1⟩
    · rename_i hLine _ _
      exact ⟨_, rfl, isEscape_self hHex (by simpa using hLine)⟩

theorem readName_part (h : isNamePart c = true) (r : List Char) :
    readName (c :: r) = (c :: (readName r).1, (readName r).2 + 1) := by
  rw [readName, if_pos h]

theorem readName_escape (h : IsEscape c text) (r : List Char) :
    readName ('\\' :: (text ++ r)) = (c :: (readName r).1, (readName r).2 + text.length + 1) := by
  rw [readName, if_neg (by decide), h.escapes, if_pos (by simp), h.reads]
  dsimp only
  rw [List.drop_left]

theorem readName_writtenInName (c : Char) (r : List Char) :
    readName (writtenInName c ++ r) =
      (c :: (readName r).1, (readName r).2 + (writtenInName c).length) := by
  rcases writtenInName_cases c with ⟨hPart, hWritten⟩ | ⟨text, hWritten, hEscape⟩
  · rw [hWritten, List.singleton_append, readName_part hPart]
    rfl
  · rw [hWritten, List.cons_append, readName_escape hEscape, List.length_cons, Nat.add_assoc]

theorem readName_of_endsName (h : EndsName r) : readName r = ([], 0) := by
  cases r with
  | nil => rw [readName]
  | cons c more =>
    obtain ⟨hPart, hSlash⟩ := h c more rfl
    rw [readName, if_neg (by simp [hPart]), if_neg ?_]
    intro hEscape
    rw [Bool.and_eq_true, beq_iff_eq] at hEscape
    rw [hSlash hEscape.1] at hEscape
    cases hEscape.2

/-- What is written behind the start of a name is read as it was. -/
theorem readName_flatMap (value : List Char) (h : EndsName r) :
    readName (value.flatMap writtenInName ++ r) = (value, (value.flatMap writtenInName).length) := by
  induction value with
  | nil => exact readName_of_endsName h
  | cons c rest ih =>
    rw [List.flatMap_cons, List.append_assoc, readName_writtenInName, ih, List.length_append,
      Nat.add_comm]

/-! ## Starts of names -/

/-- The first character of a name is written as it is or as an escape. -/
theorem writtenAtStart_cases (c : Char) :
    isNameStart c = true ∧ writtenAtStart c = [c] ∨
      ∃ text, writtenAtStart c = '\\' :: text ∧ IsEscape c text := by
  unfold writtenAtStart
  split
  · rename_i hDigit
    refine Or.inr ⟨_, rfl, ?_⟩
    have hAll : ∀ c ∈ ['0', '1', '2', '3', '4', '5', '6', '7', '8', '9'],
        (Nat.toDigits 16 c.toNat).map Char.toUpper ≠ [] ∧
          ((Nat.toDigits 16 c.toNat).map Char.toUpper).all isHexDigit = true ∧
          ((Nat.toDigits 16 c.toNat).map Char.toUpper).length ≤ 5 ∧
          (digitsValue 16 ((Nat.toDigits 16 c.toNat).map Char.toUpper) ≠ 0 ∧
            digitsValue 16 ((Nat.toDigits 16 c.toNat).map Char.toUpper) < 0xD800) ∧
          Char.ofNat (digitsValue 16 ((Nat.toDigits 16 c.toNat).map Char.toUpper)) = c := by
      decide
    obtain ⟨hSome, hHex, hLength, hCode⟩ := hAll c (mem_of_isAsciiDigit hDigit)
    exact isEscape_digits _ hSome hHex hLength hCode
  · rename_i hDigit
    split
    · exact Or.inl ⟨‹_›, rfl⟩
    rename_i hStart
    refine Or.inr ?_
    split
    · rename_i hHyphen
      rw [eq_of_beq hHyphen]
      exact ⟨_, rfl, isEscape_self (by decide) (by decide)⟩
    · rename_i hHyphen
      rcases writtenInName_cases c with ⟨hPart, -⟩ | hEscape
      · rw [isNamePart, Bool.or_eq_true, Bool.or_eq_true] at hPart
        rcases hPart with (hPart | hPart) | hPart
        · exact absurd hPart hStart
        · exact absurd hPart hDigit
        · exact absurd hPart hHyphen
      · exact hEscape

theorem readName_writtenAtStart (c : Char) (r : List Char) :
    readName (writtenAtStart c ++ r) =
      (c :: (readName r).1, (readName r).2 + (writtenAtStart c).length) := by
  rcases writtenAtStart_cases c with ⟨hStart, hWritten⟩ | ⟨text, hWritten, hEscape⟩
  · have hPart : isNamePart c = true := by rw [isNamePart, hStart, Bool.true_or, Bool.true_or]
    rw [hWritten, List.singleton_append, readName_part hPart]
    rfl
  · rw [hWritten, List.cons_append, readName_escape hEscape, List.length_cons, Nat.add_assoc]

theorem startsName_writtenAtStart (c : Char) (r : List Char) :
    startsName (writtenAtStart c ++ r) = true := by
  rcases writtenAtStart_cases c with ⟨hStart, hWritten⟩ | ⟨text, hWritten, hEscape⟩
  · simp [hWritten, startsName, hStart]
  · simp [hWritten, startsName, hEscape.escapes]

omit [Surrogates] in
theorem startsName_hyphen (h : startsName r = true) : startsName ('-' :: r) = true := by
  cases r with
  | nil => cases h
  | cons c rest =>
    simp only [startsName, Bool.or_eq_true, Bool.and_eq_true, beq_iff_eq] at h ⊢
    refine Or.inl (Or.inr ⟨trivial, ?_⟩)
    rcases h with (hStart | ⟨rfl, -⟩) | hEscape
    · exact Or.inl (Or.inl hStart)
    · exact Or.inl (Or.inr rfl)
    · exact Or.inr hEscape

/-- A name is written in a way that starts a name and is read as it was. -/
theorem readName_writtenName (hSome : value ≠ []) (h : EndsName r) :
    readName (writtenName value ++ r) = (value, (writtenName value).length) := by
  have hHyphen : ∀ r, readName ('-' :: r) = ('-' :: (readName r).1, (readName r).2 + 1) :=
    fun r => readName_part (by decide) r
  rw [writtenName.eq_def]
  split
  · exact absurd rfl hSome
  · exact (readName_escape (isEscape_self (by decide) (by decide)) r).trans
      (by rw [readName_of_endsName h]; rfl)
  · rw [List.cons_append, List.cons_append, hHyphen, hHyphen, readName_flatMap _ h]
    rfl
  · rw [List.append_assoc, List.cons_append, hHyphen, readName_writtenAtStart, readName_flatMap _ h]
    simp [Nat.add_comm]
  · rw [List.append_assoc, readName_writtenAtStart, readName_flatMap _ h, List.length_append,
      Nat.add_comm]

theorem startsName_writtenName (hSome : value ≠ []) (r : List Char) :
    startsName (writtenName value ++ r) = true := by
  rw [writtenName.eq_def]
  split
  · exact absurd rfl hSome
  · rfl
  · rfl
  · rw [List.append_assoc, List.cons_append]
    exact startsName_hyphen (startsName_writtenAtStart _ _)
  · rw [List.append_assoc]
    exact startsName_writtenAtStart _ _

/-! ## Strings -/

/-- A character of a string is written as it is or as an escape. -/
theorem writtenInString_cases (c : Char) :
    (c ≠ '"' ∧ c ≠ '\\' ∧ c ≠ '\n') ∧ writtenInString c = [c] ∨
      ∃ text, writtenInString c = '\\' :: text ∧ IsEscape c text := by
  unfold writtenInString
  split
  · rename_i hQuote
    rw [eq_of_beq hQuote]
    exact Or.inr ⟨_, rfl, isEscape_self (by decide) (by decide)⟩
  split
  · rename_i hSlash
    rw [eq_of_beq hSlash]
    exact Or.inr ⟨_, rfl, isEscape_self (by decide) (by decide)⟩
  split
  · rename_i hLine
    exact Or.inr ⟨_, rfl, eq_of_beq hLine ▸ isEscape_lineEnds.1⟩
  split
  · rename_i hReturn
    exact Or.inr ⟨_, rfl, eq_of_beq hReturn ▸ isEscape_lineEnds.2.1⟩
  split
  · rename_i hFeed
    exact Or.inr ⟨_, rfl, eq_of_beq hFeed ▸ isEscape_lineEnds.2.2.1⟩
  · rename_i hQuote hSlash hLine _ _
    exact Or.inl ⟨⟨by simpa using hQuote, by simpa using hSlash, by simpa using hLine⟩, rfl⟩

theorem readString_writtenInString (c : Char) (r : List Char) :
    readString '"' (writtenInString c ++ r) =
      (c :: (readString '"' r).1, (readString '"' r).2.1 + (writtenInString c).length,
        (readString '"' r).2.2) := by
  rcases writtenInString_cases c with
    ⟨⟨hQuote, hSlash, hLine⟩, hWritten⟩ | ⟨text, hWritten, hEscape⟩
  · rw [hWritten, List.singleton_append, readString_cons, if_neg (by simpa using hQuote),
      if_neg (by simpa using hSlash), if_neg (by simpa using hLine)]
    rfl
  · have hFirst := hEscape.escapes r
    have hReads := hEscape.reads r
    rw [hWritten, List.cons_append, readString_cons, if_neg (by decide), if_pos (by decide)]
    cases hText : text ++ r with
    | nil => exact absurd (List.append_eq_nil_iff.mp hText).1 hEscape.some
    | cons d more =>
      rw [hText] at hFirst hReads
      have hLine : (d == '\n') = false := by simpa [escapes] using hFirst
      dsimp only
      rw [hLine, if_neg Bool.false_ne_true, hReads, ← hText]
      dsimp only
      rw [List.drop_left, List.length_cons, Nat.add_assoc]

/-- A string is read as it was, up to the quote behind it. -/
theorem readString_flatMap (value r : List Char) :
    readString '"' (value.flatMap writtenInString ++ '"' :: r) =
      (value, (value.flatMap writtenInString).length + 1, .closed) := by
  induction value with
  | nil => rw [List.flatMap_nil, List.nil_append, readString_cons]; rfl
  | cons c rest ih =>
    rw [List.flatMap_cons, List.append_assoc, readString_writtenInString, ih, List.length_append]
    simp [Nat.add_comm, Nat.add_left_comm]

/-! ## Addresses -/

/-- A character of an address is written as it is or as an escape. -/
theorem writtenInUrl_cases (hControl : isControl c = false) :
    (c ≠ ')' ∧ isBlank c = false ∧ c ≠ '\\' ∧ c ≠ '"' ∧ c ≠ '\'' ∧ c ≠ '(') ∧
      writtenInUrl c = [c] ∨
      ∃ text, writtenInUrl c = '\\' :: text ∧ IsEscape c text := by
  unfold writtenInUrl
  split
  · rename_i hMark
    refine Or.inr ⟨_, rfl, ?_⟩
    simp only [Bool.or_eq_true, beq_iff_eq] at hMark
    rcases hMark with ((((rfl | rfl) | rfl) | rfl) | rfl) | rfl <;>
      exact isEscape_self (by decide) (by decide)
  rename_i hMark
  split
  · rename_i hTab
    exact Or.inr ⟨_, rfl, eq_of_beq hTab ▸ isEscape_lineEnds.2.2.2⟩
  rename_i hTab
  split
  · rename_i hLine
    exact Or.inr ⟨_, rfl, eq_of_beq hLine ▸ isEscape_lineEnds.1⟩
  rename_i hLine
  split
  · rename_i hReturn
    exact Or.inr ⟨_, rfl, eq_of_beq hReturn ▸ isEscape_lineEnds.2.1⟩
  split
  · rename_i hFeed
    exact Or.inr ⟨_, rfl, eq_of_beq hFeed ▸ isEscape_lineEnds.2.2.1⟩
  · refine Or.inl ⟨?_, rfl⟩
    simp only [Bool.or_eq_true, beq_iff_eq, not_or] at hMark hTab hLine
    obtain ⟨⟨⟨⟨⟨hSingle, hDouble⟩, hSlash⟩, hSpace⟩, hOpening⟩, hClosing⟩ := hMark
    refine ⟨hClosing, ?_, hSlash, hDouble, hSingle, hOpening⟩
    simp [isBlank, hSpace, hLine, hTab]

theorem readUrl_writtenInUrl (hControl : isControl c = false) (r : List Char) :
    readUrl (writtenInUrl c ++ r) =
      (c :: (readUrl r).1, (readUrl r).2.1 + (writtenInUrl c).length, (readUrl r).2.2) := by
  rcases writtenInUrl_cases hControl with ⟨hPlain, hWritten⟩ | ⟨text, hWritten, hEscape⟩
  · obtain ⟨hClosing, hBlank, hSlash, hDouble, hSingle, hOpening⟩ := hPlain
    rw [hWritten, List.singleton_append, readUrl, if_neg (by simpa using hClosing),
      if_neg (by simp [hBlank]), if_neg (by simp [hSlash]),
      if_neg (by simp [hDouble, hSingle, hOpening, hControl])]
    rfl
  · rw [hWritten, List.cons_append, readUrl, if_neg (by decide), if_neg (by decide),
      if_pos (by simp [hEscape.escapes]), hEscape.reads]
    dsimp only
    rw [List.drop_left, List.length_cons, Nat.add_assoc]

/-- An address without control characters is read as it was, up to the parenthesis behind it. -/
theorem readUrl_flatMap (hControl : ∀ c ∈ value, isControl c = false) (r : List Char) :
    readUrl (value.flatMap writtenInUrl ++ ')' :: r) =
      (value, (value.flatMap writtenInUrl).length + 1, .closed) := by
  induction value with
  | nil => rw [List.flatMap_nil, List.nil_append, readUrl]; rfl
  | cons c rest ih =>
    rw [List.flatMap_cons, List.append_assoc, readUrl_writtenInUrl (hControl c List.mem_cons_self),
      ih fun d hd => hControl d (List.mem_cons_of_mem c hd), List.length_append]
    simp [Nat.add_comm, Nat.add_left_comm]

end StyleSieve.Css
