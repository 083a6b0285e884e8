import StyleSieve.Proofs.Css.ReadWritten

/-!
# Reading lexemes again

Whether a text goes on with a lexeme in front of it is told by the lexemes of the text, so what is
written of a lexeme is read again in front of lexemes that leave it alone.

* `endsCodeRange_of_front`, `staysName_of_isOdd`: where ranges of code points start and end.
* `lexemes_written`: every sound lexeme is read again.
-/

namespace StyleSieve.Css

open Text

variable {c d : Char} {cs rest r value digits unit : List Char} {l : Lexeme} {ls : List Lexeme}

/-! ## Ranges of code points -/

/-- A digit to base sixteen that is a letter. -/
structure IsHexLetter (c : Char) : Prop where
  start : isNameStart c = true
  apart : c ≠ 'u' ∧ c ≠ 'U'
  hyphen : c ≠ '-'

theorem isHexLetter_of (hHex : isHexDigit c = true) (hDigit : isAsciiDigit c = false) : IsHexLetter c := by
  rw [isHexDigit, hDigit, Bool.false_or, Bool.or_eq_true, Bool.and_eq_true, Bool.and_eq_true] at hHex
  simp only [decide_eq_true_eq, Char.le_def, UInt32.le_iff_toNat_le] at hHex
  have hLetter : isAsciiLetter c = true := by
    simp only [isAsciiLetter, Bool.or_eq_true, Bool.and_eq_true, decide_eq_true_eq, Char.le_def,
      UInt32.le_iff_toNat_le]
    exact hHex.imp (fun h => ⟨h.1, h.2.trans (by decide)⟩) (fun h => ⟨h.1, h.2.trans (by decide)⟩)
  refine ⟨by rw [isNameStart, hLetter]; rfl, ⟨?_, ?_⟩, ?_⟩
  all_goals
    rintro rfl
    revert hHex
    decide

namespace IsHexLetter

theorem namePart (h : IsHexLetter c) : isNamePart c = true := by rw [isNamePart, h.start]; rfl

theorem startsName (h : IsHexLetter c) (rest : List Char) : startsName (c :: rest) = true := by
  simp [Css.startsName, h.start]

/-- The text is read as a name from this letter on. -/
theorem front [Surrogates] (h : IsHexLetter c) (rest : List Char) :
    ∃ l ∈ front (c :: rest), l.nameValue.head? = some c := by
  have hMarkup : ¬markupEnd <+: c :: rest := by
    rintro ⟨more, hMore⟩
    exact h.hyphen (List.cons.inj hMore).1.symm
  obtain ⟨l, hl, hValue⟩ := front_nameValue (h.startsName rest) h.namePart h.apart hMarkup
  refine ⟨l, hl, ?_⟩
  rw [hValue, readName_part h.namePart]
  rfl

theorem front_hyphen [Surrogates] (h : IsHexLetter c) (rest : List Char) :
    ∃ l ∈ Css.front ('-' :: c :: rest), l.nameValue.head? = some '-' := by
  have hMarkup : ¬markupEnd <+: '-' :: c :: rest := by
    rintro ⟨more, hMore⟩
    exact h.hyphen (List.cons.inj (List.cons.inj hMore).2).1.symm
  obtain ⟨l, hl, hValue⟩ :=
    front_nameValue (startsName_hyphen (h.startsName rest)) (by rfl) (by decide) hMarkup
  refine ⟨l, hl, ?_⟩
  rw [hValue, readName_part (by rfl)]
  rfl

end IsHexLetter

theorem nameValue_of_isNumeric (h : l.isNumeric = true) : l.nameValue = [] := by
  cases l <;> first | rfl | cases h

/-- A text that starts like a number. -/
theorem front_of_readNumber [Surrogates] (hBlank : isBlank c = false)
    (hRange : startsCodeRange c rest = false)
    (hName : startsName (c :: rest) = false) (hSome : readNumber (c :: rest) ≠ []) :
    ∃ l ∈ front (c :: rest), l.isNumeric = true := by
  rw [front_cons, step_numberStep hBlank hRange hName hSome]
  exact isNumeric_numberStep c rest _

theorem readNumber_signed (rest : List Char) (hSign : c = '+' ∨ c = '-')
    (hDigit : isAsciiDigit d = true) : readNumber (c :: d :: rest) ≠ [] := by
  rw [Ne, readNumber_sign_eq_nil_iff hSign]
  exact readMantissa_ne_nil hDigit rest

theorem endsCodeRange_of_front [Surrogates]
    (h : ∀ l ∈ front r, l.isNumeric = false ∧ l.nameValue = [] ∧ l ≠ .sign ['?']) :
    EndsCodeRange r := by
  rintro c more rfl
  refine ⟨?_, ?_, ?_⟩
  · refine Bool.eq_false_iff.mpr fun hHex => ?_
    cases hDigit : isAsciiDigit c with
    | true =>
      obtain ⟨l, hl, hNumeric⟩ := front_of_readMantissa (readMantissa_ne_nil hDigit more)
      rw [(h l hl).1] at hNumeric
      cases hNumeric
    | false =>
      obtain ⟨l, hl, hValue⟩ := (isHexLetter_of hHex hDigit).front more
      rw [(h l hl).2.1] at hValue
      cases hValue
  · rintro rfl
    exact (h (.sign ['?']) ((front_cons '?' more).trans rfl)).2.2 rfl
  · rintro rfl d hd
    obtain ⟨rest, rfl⟩ := List.head?_eq_some_iff.mp hd
    refine Bool.eq_false_iff.mpr fun hHex => ?_
    cases hDigit : isAsciiDigit d with
    | true =>
      obtain ⟨l, hl, hNumeric⟩ := front_of_readNumber (c := '-') rfl rfl
        (not_startsName_hyphen (Or.inl hDigit) rest) (readNumber_signed _ (Or.inr rfl) hDigit)
      rw [(h l hl).1] at hNumeric
      cases hNumeric
    | false =>
      obtain ⟨l, hl, hValue⟩ := (isHexLetter_of hHex hDigit).front_hyphen rest
      rw [(h l hl).2.1] at hValue
      cases hValue

theorem staysName_of_isOdd [Surrogates] (hFront : ∀ l ∈ front r, l.isNumeric = false)
    (hOdd : IsOdd value r) :
    StaysName value (lexemes r) = false := by
  rcases hOdd with ⟨c, rfl, hRange⟩ | ⟨rfl, hHead⟩
  · simp only [startsCodeRange, Bool.and_eq_true, Bool.or_eq_true, beq_iff_eq] at hRange
    obtain ⟨⟨hLetter, hPlus⟩, hDigits⟩ := hRange
    obtain ⟨more, rfl⟩ := List.head?_eq_some_iff.mp hPlus
    rw [List.drop_succ_cons, List.drop_zero] at hDigits
    obtain ⟨d, rest, rfl⟩ : ∃ d rest, more = d :: rest := by
      cases more with
      | nil => cases hDigits
      | cons d rest => exact ⟨d, rest, rfl⟩
    have hMark : (isHexDigit d || d == '?') = true := hDigits
    obtain ⟨l, hl, hStarts, hNumeric⟩ :
        ∃ l ∈ front (d :: rest), l.startsRange = true ∧ l.isNumeric = false := by
      rcases Bool.or_eq_true_iff.mp hMark with hHex | hQuestion
      · cases hDigit : isAsciiDigit d with
        | true =>
          obtain ⟨l, hl, hNumeric⟩ := front_of_readNumber (c := '+') rfl rfl rfl
            (readNumber_signed rest (Or.inl rfl) hDigit)
          rw [hFront l hl] at hNumeric
          cases hNumeric
        | false =>
          obtain ⟨l, hl, hValue⟩ := (isHexLetter_of hHex hDigit).front rest
          refine ⟨l, hl, ?_, ?_⟩
          · rw [Lexeme.startsRange, hValue, Option.any_some, hHex, Bool.or_true]
          · refine Bool.eq_false_iff.mpr fun hNumeric => ?_
            rw [nameValue_of_isNumeric hNumeric] at hValue
            cases hValue
      · rw [eq_of_beq hQuestion]
        exact ⟨.sign ['?'], (front_cons '?' rest).trans rfl, rfl, rfl⟩
    have hEnds : Lexeme.signEnds '+' (lexemes (d :: rest)) := by
      intro l' hl'
      cases (Option.mem_def.mp hl).symm.trans (Option.mem_def.mp hl')
      exact hNumeric
    obtain ⟨tail, hTail⟩ := lexemes_eq_of_front hl
    rw [lexemes_single (by rfl) (signStands_of_ends (by rfl) hEnds), hTail]
    rcases hLetter with rfl | rfl <;> simp [StaysName, hStarts]
  · obtain ⟨more, rfl⟩ := List.head?_eq_some_iff.mp hHead
    have hFirst : lexemes ('>' :: more) = .sign ['>'] :: lexemes more :=
      lexemes_of_step (show step '>' _ = ([.sign ['>']], 0) from rfl)
    rw [hFirst]
    rfl

theorem Takes.head_of_isGap [Surrogates] (h : Takes cs ls r) (hl : l ∈ ls) (hGap : l.isGap = true) :
    ∃ c ∈ cs.head?, isBlank c = true := by
  cases h with
  | @blank gap r has blank ends =>
    obtain ⟨c, more, rfl⟩ := List.exists_cons_of_ne_nil has
    rw [List.all_cons, Bool.and_eq_true] at blank
    exact ⟨c, rfl, blank.1⟩
  | address => obtain ⟨v, rfl⟩ | rfl | rfl := mem_addressStep hl <;> cases hGap
  | string => obtain ⟨t, rfl⟩ | rfl | rfl := mem_stringStep hl <;> cases hGap
  | _ =>
    rw [List.mem_singleton.mp hl] at hGap
    cases hGap

theorem Takes.head_of_isQuoted [Surrogates] (h : Takes cs ls r) (hl : l ∈ ls)
    (hQuoted : l.isQuoted = true) :
    cs.head? = some '"' ∨ cs.head? = some '\'' := by
  cases h with
  | string hQuote => exact hQuote.imp (congrArg some) (congrArg some)
  | address => obtain ⟨v, rfl⟩ | rfl | rfl := mem_addressStep hl <;> cases hQuoted
  | _ =>
    rw [List.mem_singleton.mp hl] at hQuoted
    cases hQuoted

theorem head_of_isQuoted [Surrogates] (hl : l ∈ front r) (h : l.isQuoted = true) :
    r.head? = some '"' ∨ r.head? = some '\'' := by
  cases r with
  | nil =>
    rw [front_nil] at hl
    cases hl
  | cons c rest =>
    rw [front_cons] at hl
    exact (takes_step c rest).head_of_isQuoted (List.mem_of_head? hl) h

theorem startsQuoted_of_startsWithString [Surrogates] (h : StartsWithString (lexemes r)) :
    StartsQuoted r := by
  cases r with
  | nil =>
    rw [lexemes_nil] at h
    cases h
  | cons c rest =>
    cases hBlank : isBlank c with
    | true =>
      rw [lexemes_blank hBlank, drop_length_takeWhile] at h
      cases hMore : lexemes (rest.dropWhile isBlank) with
      | nil =>
        rw [hMore] at h
        cases h
      | cons l more =>
        rw [hMore] at h
        have hFront : l ∈ front (rest.dropWhile isBlank) := by
          rw [front, hMore]
          rfl
        rw [StartsQuoted, List.dropWhile_cons_of_pos hBlank]
        exact head_of_isQuoted hFront h
    | false =>
      rw [StartsQuoted, List.dropWhile_cons_of_neg (by simp [hBlank])]
      obtain ⟨l, more, hMore⟩ := List.exists_cons_of_ne_nil (lexemes_ne_nil (List.cons_ne_nil c rest))
      have hFront : l ∈ front (c :: rest) := by
        rw [front, hMore]
        rfl
      refine head_of_isQuoted hFront ?_
      cases l with
      | blank gap =>
        rw [front_cons] at hFront
        obtain ⟨d, hd, hIs⟩ := (takes_step c rest).head_of_isGap (List.mem_of_head? hFront) rfl
        cases hd
        rw [hBlank] at hIs
        cases hIs
      | _ =>
        rw [hMore] at h
        exact h

theorem lexemes_writtenBlank [Surrogates] {gap : List Char} (h : (Lexeme.blank gap).IsSound)
    (hEnds : ∀ l ∈ front r, l.isGap = false) : lexemes (gap ++ r) = .blank gap :: lexemes r := by
  have hHead : ∀ c ∈ r.head?, isBlank c = false := by
    intro c hc
    obtain ⟨more, rfl⟩ := List.head?_eq_some_iff.mp hc
    refine Bool.eq_false_iff.mpr fun hBlank => ?_
    obtain ⟨l, hl, hIs⟩ := @front_blank c more _ hBlank
    rw [hEnds l hl] at hIs
    cases hIs
  have hGap : r.takeWhile isBlank = [] ∧ r.dropWhile isBlank = r := by
    cases r with
    | nil => exact ⟨rfl, rfl⟩
    | cons c more =>
      have hFirst : ¬isBlank c = true := by simp [hHead c rfl]
      exact ⟨List.takeWhile_cons_of_neg hFirst, List.dropWhile_cons_of_neg hFirst⟩
  rw [lexemes_gap h.1 h.2, hGap.1, hGap.2, List.append_nil]

/-- A sound lexeme is read again in front of lexemes that leave it alone. -/
theorem lexemes_written [Surrogates] (hSound : l.IsSound) (hEnds : l.EndsBefore (lexemes r)) :
    lexemes (l.written ++ r) = l :: lexemes r := by
  cases l with
  | blank t => exact lexemes_writtenBlank hSound hEnds
  | comment t => exact lexemes_comment hSound r
  | sign t =>
    rcases hSound with ⟨c, rfl, hSign⟩ | hJoint
    · exact lexemes_single hSign (signStands_of_ends hSign hEnds)
    · exact lexemes_writtenJoint hJoint r
  | name v =>
    obtain ⟨hFront, hStays⟩ := hEnds
    have hParen : r.head? ≠ some '(' := by
      intro hParen
      obtain ⟨more, rfl⟩ := List.head?_eq_some_iff.mp hParen
      refine (hFront (.opening '(') ?_).2 rfl
      exact (front_cons '(' more).trans rfl
    refine lexemes_writtenName hSound (endsName_of_front fun l hl => (hFront l hl).1) hParen fun hOdd => ?_
    rw [staysName_of_isOdd (fun l hl => (continuesName_eq_false (hFront l hl).1).2.1) hOdd] at hStays
    cases hStays
  | atName v =>
    have hRead := readName_writtenName hSound (endsName_of_front hEnds)
    have hAt := lexemes_at (startsName_writtenName hSound r)
    rw [hRead, List.drop_left] at hAt
    exact hAt
  | hash v alone => exact lexemes_writtenHash hSound.1 hSound.2 (endsName_of_front hEnds)
  | text t =>
    obtain ⟨value, rfl⟩ := hSound
    have hText := lexemes_writtenText value r
    simpa [Lexeme.written] using hText
  | url t =>
    obtain ⟨value, hControl, rfl⟩ := hSound
    have hUrl := lexemes_writtenUrl hControl r
    simpa [Lexeme.written] using hUrl
  | codeRange first last => exact lexemes_writtenRange hSound (endsCodeRange_of_front hEnds)
  | number digits =>
    refine lexemes_writtenNumber hSound (not_startsName_of_front fun l hl => (hEnds l hl).1)
      (readMantissa_of_front fun l hl => (hEnds l hl).2.1) fun hPercent => ?_
    obtain ⟨more, rfl⟩ := List.head?_eq_some_iff.mp hPercent
    refine (hEnds (.sign ['%']) ?_).2.2 rfl
    exact (front_cons '%' more).trans rfl
  | percentage digits =>
    have hPercent := lexemes_writtenPercentage hSound r
    simpa [Lexeme.written] using hPercent
  | dimension digits unit =>
    have hDimension := lexemes_writtenDimension hSound (endsName_of_front hEnds)
    simpa [Lexeme.written] using hDimension
  | function v =>
    have hFunction := lexemes_writtenFunction (r := r) hSound fun hUrl =>
      startsQuoted_of_startsWithString (hEnds hUrl)
    simpa [Lexeme.written] using hFunction
  | opening c =>
    have hBrackets : c = '{' ∨ c = '[' ∨ c = '(' := by simpa [Lexeme.IsSound] using hSound
    have hStep : step c r = ([.opening c], 0) := by rcases hBrackets with rfl | rfl | rfl <;> rfl
    exact lexemes_of_step hStep
  | closing c =>
    have hBrackets : c = '}' ∨ c = ']' ∨ c = ')' := by simpa [Lexeme.IsSound] using hSound
    have hStep : step c r = ([.closing c], 0) := by rcases hBrackets with rfl | rfl | rfl <;> rfl
    exact lexemes_of_step hStep
  | flaw kind => exact hSound.elim

end StyleSieve.Css
