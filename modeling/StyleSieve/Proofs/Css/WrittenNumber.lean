import Mathlib.Tactic.IntervalCases
import StyleSieve.Proofs.Css.WrittenName
import StyleSieve.Proofs.Text.Runs

/-!
# Numbers and ranges of code points as they are written

* `isNumeral_readNumber`, `readNumber_append_of_isNumeral`: a number is read again in front of every text
  that does not go on with it.
* `readCodeRange_written`: so is a range of code points.
-/

namespace StyleSieve.Css

open Text

variable {c : Char} {cs r digits : List Char}

/-! ## Numbers -/

/-- The parts of a number: a sign, digits, digits behind a point, and an exponent. -/
structure NumeralParts where
  sign : List Char
  whole : List Char
  fraction : List Char
  exponent : List Char

namespace NumeralParts

/-- The digits with the point between them. -/
def mantissa (n : NumeralParts) : List Char :=
  if n.fraction.isEmpty then n.whole else n.whole ++ '.' :: n.fraction

/-- The text of a number. -/
def text (n : NumeralParts) : List Char := n.sign ++ n.mantissa ++ n.exponent

/-- An exponent with at least one digit. -/
def IsExponent (text : List Char) : Prop :=
  ∃ e sign ds, (e = 'e' ∨ e = 'E') ∧ (sign = [] ∨ sign = ['+'] ∨ sign = ['-']) ∧
    ds ≠ [] ∧ ds.all isAsciiDigit = true ∧ text = e :: sign ++ ds

/-- The parts are those of a number. -/
structure IsWhole (n : NumeralParts) : Prop where
  sign : n.sign = [] ∨ n.sign = ['+'] ∨ n.sign = ['-']
  whole : n.whole.all isAsciiDigit = true
  fraction : n.fraction.all isAsciiDigit = true
  some : n.mantissa ≠ []
  exponent : n.exponent = [] ∨ IsExponent n.exponent

end NumeralParts

/-- The text of a number. -/
def IsNumeral (digits : List Char) : Prop := ∃ n : NumeralParts, n.IsWhole ∧ digits = n.text

theorem readSign_cases (cs : List Char) :
    readSign cs = [] ∨ readSign cs = ['+'] ∨ readSign cs = ['-'] := by
  cases cs with
  | nil => exact Or.inl rfl
  | cons c rest =>
    rw [readSign]
    split
    · rename_i hSign
      rcases Bool.or_eq_true_iff.mp hSign with hPlus | hMinus
      · rw [eq_of_beq hPlus]
        exact Or.inr (Or.inl rfl)
      · rw [eq_of_beq hMinus]
        exact Or.inr (Or.inr rfl)
    · exact Or.inl rfl

theorem readFraction_digits (cs : List Char) : (readFraction cs).all isAsciiDigit = true := by
  unfold readFraction
  split
  · exact List.all_takeWhile
  · rfl

theorem readExponent_cases (cs : List Char) :
    readExponent cs = [] ∨ NumeralParts.IsExponent (readExponent cs) := by
  cases cs with
  | nil => exact Or.inl rfl
  | cons e more =>
    rw [readExponent]
    dsimp only
    split
    · rename_i hLetter
      split
      · exact Or.inl rfl
      · rename_i hSome
        refine Or.inr ⟨e, readSign more, _, ?_, readSign_cases more, by simpa using hSome,
          List.all_takeWhile, rfl⟩
        simpa using hLetter
    · exact Or.inl rfl

/-- What is read as a number is the text of one. -/
theorem isNumeral_readNumber (h : readNumber cs ≠ []) : IsNumeral (readNumber cs) := by
  unfold readNumber at h ⊢
  dsimp only at h ⊢
  generalize cs.drop (readSign cs).length = body at h ⊢
  split at h
  · exact absurd rfl h
  · rename_i hSome
    rw [if_neg hSome]
    refine ⟨⟨readSign cs, body.takeWhile isAsciiDigit,
      readFraction (body.drop (body.takeWhile isAsciiDigit).length),
      readExponent (body.drop (readMantissa body).length)⟩, ?_, rfl⟩
    have hMantissa : readMantissa body ≠ [] := by simpa using hSome
    exact ⟨readSign_cases cs, List.all_takeWhile, readFraction_digits _, hMantissa, readExponent_cases _⟩

/-- Whether a number has an exponent. -/
def hasExponent (digits : List Char) : Bool := digits.any fun c => c == 'e' || c == 'E'

/-- A text that does not go on with the digits in front of it. -/
def EndsNumeral (digits r : List Char) : Prop :=
  readMantissa r = [] ∧ (hasExponent digits = true ∨ readExponent r = [])

theorem readMantissa_eq_nil_iff :
    readMantissa cs = [] ↔ cs.takeWhile isAsciiDigit = [] ∧ readFraction cs = [] := by
  unfold readMantissa
  dsimp only
  constructor
  · intro h
    split at h
    · rename_i hNone
      refine ⟨h, ?_⟩
      rw [h] at hNone
      simpa using hNone
    · simp at h
  · rintro ⟨hDigits, hFraction⟩
    rw [hDigits]
    simp [hFraction]

theorem readMantissa_ne_nil (hDigit : isAsciiDigit c = true) (rest : List Char) :
    readMantissa (c :: rest) ≠ [] := by
  rw [Ne, readMantissa_eq_nil_iff, List.takeWhile_cons_of_pos hDigit]
  exact fun h => List.cons_ne_nil _ _ h.1

namespace NumeralParts

variable {n : NumeralParts}

theorem IsWhole.ne_letter (h : n.IsWhole) (hNone : n.exponent = []) (hc : c ∈ n.text) :
    (c == 'e' || c == 'E') = false := by
  have hDigit : ∀ c, isAsciiDigit c = true → (c == 'e' || c == 'E') = false := by
    intro c hc
    have hAll : ∀ c ∈ ['0', '1', '2', '3', '4', '5', '6', '7', '8', '9'],
        (c == 'e' || c == 'E') = false := by
      decide
    exact hAll c (mem_of_isAsciiDigit hc)
  rw [text, hNone, List.append_nil, List.mem_append] at hc
  rcases hc with hSign | hMantissa
  · rcases h.sign with hNo | hPlus | hMinus
    · rw [hNo] at hSign
      cases hSign
    · rw [hPlus, List.mem_singleton] at hSign
      rw [hSign]
      rfl
    · rw [hMinus, List.mem_singleton] at hSign
      rw [hSign]
      rfl
  · unfold mantissa at hMantissa
    split at hMantissa
    · exact hDigit c (List.all_eq_true.mp h.whole c hMantissa)
    · rcases List.mem_append.mp hMantissa with hWhole | hFraction
      · exact hDigit c (List.all_eq_true.mp h.whole c hWhole)
      · rcases List.mem_cons.mp hFraction with rfl | hFraction
        · rfl
        · exact hDigit c (List.all_eq_true.mp h.fraction c hFraction)

theorem IsWhole.hasExponent_text (h : n.IsWhole) (hNone : n.exponent = []) :
    hasExponent n.text = false :=
  List.any_eq_false.mpr fun c hc => by simpa using h.ne_letter hNone hc

/-- A digit or a point is what a mantissa starts with. -/
theorem IsWhole.head_mantissa (h : n.IsWhole) :
    ∃ c more, n.mantissa = c :: more ∧ (isAsciiDigit c = true ∨ c = '.') := by
  obtain ⟨c, more, hMantissa⟩ := List.exists_cons_of_ne_nil h.some
  refine ⟨c, more, hMantissa, ?_⟩
  unfold mantissa at hMantissa
  split at hMantissa
  · exact Or.inl (List.all_eq_true.mp h.whole c (by simp [hMantissa]))
  · cases hWhole : n.whole with
    | nil =>
      rw [hWhole] at hMantissa
      exact Or.inr (List.cons.inj hMantissa).1.symm
    | cons d rest =>
      rw [hWhole] at hMantissa
      obtain rfl := (List.cons.inj hMantissa).1
      exact Or.inl (List.all_eq_true.mp h.whole d (by simp [hWhole]))

theorem IsWhole.readSign_text (h : n.IsWhole) (r : List Char) :
    readSign (n.text ++ r) = n.sign := by
  rw [text]
  rcases h.sign with hNo | hPlus | hMinus
  · obtain ⟨c, more, hMantissa, hFirst⟩ := h.head_mantissa
    rw [hNo, hMantissa]
    have hOther : (c == '+' || c == '-') = false := by
      rcases hFirst with hDigit | rfl
      · have hAll : ∀ c ∈ ['0', '1', '2', '3', '4', '5', '6', '7', '8', '9'],
            (c == '+' || c == '-') = false := by
          decide
        exact hAll c (mem_of_isAsciiDigit hDigit)
      · rfl
    change (if (c == '+' || c == '-') = true then [c] else []) = []
    rw [hOther, if_neg Bool.false_ne_true]
  · rw [hPlus]
    rfl
  · rw [hMinus]
    rfl

theorem takeWhile_digits_append {ds : List Char} (hDigits : ds.all isAsciiDigit = true)
    (hEnds : r.takeWhile isAsciiDigit = []) : (ds ++ r).takeWhile isAsciiDigit = ds := by
  rw [List.takeWhile_append_of_pos fun d hd => List.all_eq_true.mp hDigits d hd, hEnds,
    List.append_nil]

/-- An exponent is no part of a mantissa. -/
theorem IsWhole.readMantissa_exponent (h : n.IsWhole) (hEnds : readMantissa r = []) :
    readMantissa (n.exponent ++ r) = [] := by
  rcases h.exponent with hNone | ⟨e, sign, ds, hLetter, -, -, -, hText⟩
  · rw [hNone]
    exact hEnds
  · rw [hText]
    refine readMantissa_eq_nil_iff.mpr ?_
    rcases hLetter with rfl | rfl
    · exact ⟨List.takeWhile_cons_of_neg (by decide), rfl⟩
    · exact ⟨List.takeWhile_cons_of_neg (by decide), rfl⟩

theorem IsWhole.readMantissa_append (h : n.IsWhole) (hEnds : readMantissa r = []) :
    readMantissa (n.mantissa ++ (n.exponent ++ r)) = n.mantissa := by
  obtain ⟨hDigits, hFraction⟩ := readMantissa_eq_nil_iff.mp (h.readMantissa_exponent hEnds)
  generalize n.exponent ++ r = behind at hDigits hFraction ⊢
  unfold mantissa
  cases hSome : n.fraction.isEmpty with
  | true =>
    rw [if_pos rfl]
    unfold readMantissa
    rw [takeWhile_digits_append h.whole hDigits]
    dsimp only
    rw [List.drop_left, hFraction, List.isEmpty_nil, if_pos rfl]
  | false =>
    have hPoint : ('.' :: n.fraction ++ behind).takeWhile isAsciiDigit = [] :=
      List.takeWhile_cons_of_neg (by decide)
    have hRead : readFraction ('.' :: n.fraction ++ behind) = n.fraction :=
      takeWhile_digits_append h.fraction hDigits
    rw [if_neg Bool.false_ne_true, List.append_assoc]
    unfold readMantissa
    rw [takeWhile_digits_append h.whole hPoint]
    dsimp only
    rw [List.drop_left, hRead, hSome, if_neg Bool.false_ne_true]

theorem IsWhole.readExponent_append (h : n.IsWhole) (hEnds : EndsNumeral n.text r) :
    readExponent (n.exponent ++ r) = n.exponent := by
  obtain ⟨hMantissa, hExponent⟩ := hEnds
  rcases h.exponent with hNone | ⟨e, sign, ds, hLetter, hSign, hSome, hDigits, hText⟩
  · rw [h.hasExponent_text hNone] at hExponent
    rw [hNone]
    exact hExponent.resolve_left Bool.false_ne_true
  · have hEnd := (readMantissa_eq_nil_iff.mp hMantissa).1
    have hRead : readSign (sign ++ (ds ++ r)) = sign := by
      obtain ⟨d, more, rfl⟩ := List.exists_cons_of_ne_nil hSome
      rcases hSign with rfl | rfl | rfl
      · have hAll : ∀ c ∈ ['0', '1', '2', '3', '4', '5', '6', '7', '8', '9'],
            (c == '+' || c == '-') = false := by
          decide
        have hOther := hAll d (mem_of_isAsciiDigit (List.all_eq_true.mp hDigits d (by simp)))
        change (if (d == '+' || d == '-') = true then [d] else []) = []
        rw [hOther, if_neg Bool.false_ne_true]
      · rfl
      · rfl
    have hLetter : (e == 'e' || e == 'E') = true := by simpa using hLetter
    rw [hText, List.append_assoc, List.cons_append, readExponent]
    dsimp only
    rw [if_pos hLetter, hRead, List.drop_left, takeWhile_digits_append hDigits hEnd,
      if_neg (by simpa using hSome)]

end NumeralParts

/-- A number is read again in front of every text that does not go on with it. -/
theorem readNumber_append_of_isNumeral (h : IsNumeral digits) (hEnds : EndsNumeral digits r) :
    readNumber (digits ++ r) = digits := by
  obtain ⟨n, hn, rfl⟩ := h
  have hBody : (n.text ++ r).drop n.sign.length = n.mantissa ++ (n.exponent ++ r) := by
    rw [NumeralParts.text, List.append_assoc, List.append_assoc, List.drop_left]
  unfold readNumber
  rw [hn.readSign_text]
  dsimp only
  rw [hBody, hn.readMantissa_append hEnds.1, if_neg (by simpa using hn.some), List.drop_left,
    hn.readExponent_append hEnds, NumeralParts.text]

/-! ## Ranges of code points -/

theorem upperHex_digit {n : Nat} (h : n < 16) :
    isHexDigit (Nat.digitChar n).toUpper = true ∧ hexValue (Nat.digitChar n).toUpper = n := by
  interval_cases n <;> decide

theorem upperHex_of_lt {n : Nat} (h : n < 16) : upperHex n = [(Nat.digitChar n).toUpper] := by
  rw [upperHex, Nat.toDigits_of_lt_base h]
  rfl

theorem upperHex_of_le {n : Nat} (h : 16 ≤ n) :
    upperHex n = upperHex (n / 16) ++ [(Nat.digitChar (n % 16)).toUpper] := by
  rw [upperHex, Nat.toDigits_of_base_le (by decide) h, List.map_append]
  rfl

theorem isHexDigit_upperHex (n : Nat) : (upperHex n).all isHexDigit = true := by
  induction n using Nat.strongRecOn with
  | ind n ih =>
    rcases Nat.lt_or_ge n 16 with hLess | hMore
    · rw [upperHex_of_lt hLess, List.all_cons, (upperHex_digit hLess).1]
      rfl
    · rw [upperHex_of_le hMore, List.all_append, ih (n / 16) (by omega), List.all_cons,
        (upperHex_digit (Nat.mod_lt n (by decide))).1]
      rfl

theorem digitsValue_upperHex (n : Nat) : digitsValue 16 (upperHex n) = n := by
  induction n using Nat.strongRecOn with
  | ind n ih =>
    rcases Nat.lt_or_ge n 16 with hLess | hMore
    · rw [upperHex_of_lt hLess, digitsValue]
      simp [(upperHex_digit hLess).2]
    · rw [upperHex_of_le hMore, digitsValue, List.foldl_append, ← digitsValue, ih (n / 16) (by omega)]
      simp only [List.foldl_cons, List.foldl_nil, (upperHex_digit (Nat.mod_lt n (by decide))).2]
      omega

theorem upperHex_ne_nil (n : Nat) : upperHex n ≠ [] := by
  simp [upperHex, Nat.toDigits_ne_nil]

theorem length_upperHex {n : Nat} (h : n < 16 ^ 6) : (upperHex n).length ≤ 6 := by
  rw [upperHex, List.length_map]
  exact (Nat.length_toDigits_le_iff (by decide) (by decide)).mpr h

/-- A text that does not go on with a range of code points in front of it. -/
def EndsCodeRange (r : List Char) : Prop :=
  ∀ c more, r = c :: more → isHexDigit c = false ∧ c ≠ '?' ∧
    (c = '-' → ∀ d ∈ more.head?, isHexDigit d = false)

theorem takeWhile_hex_append (ds : List Char) (hHex : ds.all isHexDigit = true)
    (hLength : ds.length ≤ 6) (hEnds : ∀ c ∈ r.head?, isHexDigit c = false) :
    ((ds ++ r).take 6).takeWhile isHexDigit = ds := by
  rw [takeWhile_take, takeWhile_append_of_head? (fun d hd => List.all_eq_true.mp hHex d hd) hEnds,
    List.take_of_length_le hLength]

theorem EndsCodeRange.head (h : EndsCodeRange r) : ∀ c ∈ r.head?, isHexDigit c = false := by
  intro c hc
  cases r with
  | nil => cases hc
  | cons d more =>
    cases hc
    exact (h _ _ rfl).1

/-- The text of a range of code points behind `U+`. -/
def writtenRange (first last : Nat) : List Char :=
  upperHex first ++ if first == last then [] else '-' :: upperHex last

/-- A range of code points is read as it was. -/
theorem readCodeRange_written {first last : Nat} (hFirst : first < 16 ^ 6) (hLast : last < 16 ^ 6)
    (hEnds : EndsCodeRange r) :
    readCodeRange (writtenRange first last ++ r) = (first, last, (writtenRange first last).length) := by
  have hNoMarks : ∀ (n : Nat) (cs : List Char), cs.head? ≠ some '?' →
      (cs.take n).takeWhile (· == '?') = [] := by
    intro n cs hOther
    rw [takeWhile_take]
    cases cs with
    | nil => simp
    | cons c more =>
      have hNone : (c == '?') = false := by simpa using hOther
      rw [List.takeWhile_cons, hNone, if_neg Bool.false_ne_true, List.take_nil]
  unfold writtenRange
  by_cases hSame : first = last
  · subst hSame
    rw [beq_self_eq_true, if_pos rfl, List.append_nil]
    unfold readCodeRange
    rw [takeWhile_hex_append _ (isHexDigit_upperHex first) (length_upperHex hFirst) hEnds.head]
    dsimp only
    have hMark : r.head? ≠ some '?' := by
      intro hMark
      cases r with
      | nil => cases hMark
      | cons c more => exact (hEnds c more rfl).2.1 (Option.some.inj hMark)
    rw [List.drop_left, hNoMarks _ _ hMark, digitsValue_upperHex, List.isEmpty_nil, Bool.not_true,
      if_neg Bool.false_ne_true]
    split
    · rename_i more
      have hNone : (more.take 6).takeWhile isHexDigit = [] :=
        takeWhile_hex_append [] rfl (by simp) ((hEnds _ _ rfl).2.2 rfl)
      rw [hNone]
      rfl
    · rfl
  · have hOther : (first == last) = false := beq_eq_false_iff_ne.mpr hSame
    rw [hOther, if_neg Bool.false_ne_true, List.append_assoc]
    unfold readCodeRange
    rw [takeWhile_hex_append _ (isHexDigit_upperHex first) (length_upperHex hFirst)
      (by simp [isHexDigit, isAsciiDigit])]
    dsimp only
    rw [List.drop_left, hNoMarks _ _ (by simp), List.cons_append]
    change (if ((upperHex last ++ r).take 6).takeWhile isHexDigit |>.isEmpty then _ else _) = _
    rw [takeWhile_hex_append _ (isHexDigit_upperHex last) (length_upperHex hLast) hEnds.head,
      if_neg (by simpa using upperHex_ne_nil last), digitsValue_upperHex, digitsValue_upperHex]
    simp
    omega

end StyleSieve.Css
