import Mathlib.Data.List.Basic
import StyleSieve.Proofs.Script.CodePoints
import StyleSieve.Proofs.Text.Digits

/-!
# Digit escapes and escapes without a value

Outside of templates a backslash and octal digits are an octal escape, which ends before its value
leaves a byte. In templates no digit escape but `\0` has a value, and `\0` has none in front of a
digit. `cook` keeps to this with two exceptions: it always takes up to three octal digits, and it
takes `\0` also in front of `8` and `9`.

* `IsLongestOctal`: the octal escape at the front of a text.
* `IsInvalidEscape`: the escapes that have no value in templates.
* `cook_digits_iff`: what `cook` makes of both.
-/

namespace StyleSieve.Script

open Text Escape

variable {template : Bool} {cs ds es rest more front tail : List Char} {c d : Char}
  {n : Nat}

/-! ## Octal escapes -/

/-- The digits of an octal escape: one to three that denote a number below 256. -/
structure IsOctalEscape (ds : List Char) : Prop where
  nonempty : ds ≠ []
  octal : AreOctal ds
  length_le : ds.length ≤ 3
  value_le : digitsValue 8 ds ≤ 255

/-- Whether a text begins with an octal escape, `rest` being behind it, and with no longer one. -/
structure IsLongestOctal (ds rest : List Char) : Prop where
  escape : IsOctalEscape ds
  longest : ∀ es more, ds ++ rest = es ++ more → IsOctalEscape es → es.length ≤ ds.length

/-- Whether a text begins with three octal digits that denote a number above 255. -/
def StartsAboveByte (cs : List Char) : Prop :=
  ∃ ds rest, cs = ds ++ rest ∧ ds.length = 3 ∧ AreOctal ds ∧ 255 < digitsValue 8 ds

theorem digitsValue_octal_lt (h : AreOctal ds) : digitsValue 8 ds < 8 ^ ds.length :=
  digitsValue_lt_of fun d hd => hexValue_lt_of_isOctalDigit (h d hd)

/-- Up to three octal digits are taken where there is one. -/
theorem exists_takes_octal (h : isOctalDigit d = true) (more : List Char) :
    ∃ ds rest, d :: more = ds ++ rest ∧ Takes rest (.octal ds) ds := by
  cases hRead : readOctal (d :: more) with
  | none =>
    rw [readOctal_eq_none_iff.mp hRead] at h
    cases h
  | some r =>
    obtain ⟨ds, rest⟩ := r
    obtain ⟨hWhole, hSome, hOctal, hLength, hEnd⟩ := readOctal_iff.mp hRead
    exact ⟨ds, rest, hWhole, .octal hSome hOctal hLength hEnd⟩

/-- What is taken as octal digits. -/
theorem octal_of_takes (h : Takes rest (.octal ds) ds) :
    ds ≠ [] ∧ AreOctal ds ∧ ds.length ≤ 3 ∧
      (ds.length < 3 → ∀ d ∈ rest.head?, isOctalDigit d = false) := by
  cases h with
  | octal hSome hOctal hLength hEnd => exact ⟨hSome, hOctal, hLength, hEnd⟩

theorem length_le_of_takes (h : Takes rest (.octal ds) ds) (hWhole : ds ++ rest = es ++ more)
    (hOctal : AreOctal es) (hLength : es.length ≤ 3) : es.length ≤ ds.length := by
  rcases List.append_eq_append_iff.mp hWhole with ⟨behind, rfl, rfl⟩ | ⟨behind, rfl, -⟩
  · cases behind with
    | nil => simp
    | cons d behind =>
      -- one more digit could have been taken
      obtain ⟨-, -, -, hEnd⟩ := octal_of_takes h
      rw [List.length_append, List.length_cons] at hLength
      have hDigit := hEnd (by omega) d rfl
      rw [hOctal d (by simp)] at hDigit
      cases hDigit
  · simp

theorem isLongestOctal_of_takes (h : Takes rest (.octal ds) ds) (hByte : digitsValue 8 ds ≤ 255) :
    IsLongestOctal ds rest := by
  obtain ⟨hSome, hOctal, hLength, -⟩ := octal_of_takes h
  exact ⟨⟨hSome, hOctal, hLength, hByte⟩, fun es more hWhole hEscape =>
    length_le_of_takes h hWhole hEscape.octal hEscape.length_le⟩

theorem length_eq_of_above (h : Takes rest (.octal ds) ds) (hAbove : 255 < digitsValue 8 ds) :
    ds.length = 3 := by
  obtain ⟨-, hOctal, hLength, -⟩ := octal_of_takes h
  by_contra hOther
  have hSmall := digitsValue_octal_lt hOctal
  have hPower : 8 ^ ds.length ≤ 8 ^ 2 := Nat.pow_le_pow_right (by decide) (by omega)
  omega

/-- Of three digits above a byte the first two are an octal escape. -/
theorem exists_isLongestOctal_of_above (h : Takes rest (.octal ds) ds)
    (hAbove : 255 < digitsValue 8 ds) :
    ∃ es d, ds = es ++ [d] ∧ IsLongestOctal es (d :: rest) := by
  have hThree := length_eq_of_above h hAbove
  obtain ⟨-, hOctal, -, -⟩ := octal_of_takes h
  obtain ⟨a, b, c, rfl⟩ := List.length_eq_three.mp hThree
  have hTwo : AreOctal [a, b] := fun d hd => hOctal d (List.mem_append_left [c] hd)
  have hSmall := digitsValue_octal_lt hTwo
  refine ⟨[a, b], c, rfl, ⟨by simp, hTwo, by simp, by simp at hSmall; omega⟩, ?_⟩
  intro es more hWhole hEscape
  have hLe := length_le_of_takes h hWhole hEscape.octal hEscape.length_le
  by_contra hLonger
  have hLength : [a, b, c].length = es.length := by
    simp only [List.length_cons, List.length_nil] at hLe hLonger ⊢
    omega
  have hWhole : [a, b, c] ++ rest = es ++ more := hWhole
  have hSame := (List.append_inj hWhole hLength).1
  have hByte := hEscape.value_le
  rw [← hSame] at hByte
  omega

theorem startsAboveByte_iff (h : Takes rest (.octal ds) ds) :
    StartsAboveByte (ds ++ rest) ↔ 255 < digitsValue 8 ds := by
  obtain ⟨-, hTaken, hShort, -⟩ := octal_of_takes h
  constructor
  · rintro ⟨es, more, hWhole, hLength, hOctal, hAbove⟩
    have hLe := length_le_of_takes h hWhole hOctal (by omega)
    have hSame : ds = es := (List.append_inj hWhole (by omega)).1
    rwa [hSame]
  · intro hAbove
    exact ⟨ds, rest, rfl, length_eq_of_above h hAbove, hTaken, hAbove⟩

/-! ## Texts around an escape -/

/-- A character between two texts, as far as both of them have a value. -/
def between (before : Option String) (c : Char) (behind : Option String) : Option String :=
  before.bind fun a => behind.map fun b => a.push c ++ b

/-- An escape for one character is cooked apart from what stands around it. -/
theorem cook_escape {e : Escape} {text : List Char} (hFront : isClosed front = true)
    (hTakes : Takes rest e text) (hValue : e.value template = some [n])
    (hWhole : isHalf n = false) :
    cook template (String.ofList (front ++ '\\' :: (text ++ rest))) =
      between (cook template (String.ofList front)) (Char.ofNat n)
        (cook template (String.ofList rest)) := by
  simp only [cook, String.toList_ofList]
  rw [codePoints?_append hFront, codePoints?_escape hTakes, hValue, Option.bind_some]
  cases codePoints? template front with
  | none => rfl
  | some ms =>
    cases codePoints? template rest with
    | none => rfl
    | some ns =>
      simp only [between, Option.map_some, Option.bind_some, List.singleton_append,
        joinHalves_append hWhole, Option.some.injEq]
      apply String.toList_inj.mp
      simp

theorem between_inj {before behind behind' : Option String} {c c' : Char} {text : String}
    (h : between before c behind = some text) (h' : between before c' behind' = some text) :
    c = c' := by
  obtain ⟨a, rfl, h⟩ := Option.bind_eq_some_iff.mp h
  obtain ⟨b, -, rfl⟩ := Option.map_eq_some_iff.mp h
  obtain ⟨b', -, h'⟩ := Option.map_eq_some_iff.mp h'
  have hList := congrArg String.toList h'
  simp only [String.toList_append, String.toList_push, List.append_assoc,
    List.append_cancel_left_eq] at hList
  exact (List.cons.inj hList).1.symm

/-! ## Escapes without a value -/

/-- What behind a backslash is an escape without a value in templates. -/
inductive IsInvalidEscape : List Char → Prop where
  | digit {d : Char} (h : isAsciiDigit d = true) (hOther : d ≠ '0') (rest : List Char) :
    IsInvalidEscape (d :: rest)
  | zero {d : Char} (h : isAsciiDigit d = true) (rest : List Char) :
    IsInvalidEscape ('0' :: d :: rest)
  | byte {rest : List Char} (h : ¬StartsHex 2 rest) : IsInvalidEscape ('x' :: rest)
  | codePoint {rest : List Char} (hBraced : ¬StartsBraced rest) (hFour : ¬StartsHex 4 rest) :
    IsInvalidEscape ('u' :: rest)
  | tooLarge {ds : List Char} (hDigits : AreHex ds) (h : 0x10FFFF < digitsValue 16 ds)
      (rest : List Char) : IsInvalidEscape ('u' :: '{' :: (ds ++ '}' :: rest))

/-- Whether a text begins with a zero in front of a digit that is not octal. -/
def StartsZeroEight (cs : List Char) : Prop := ∃ d rest, cs = '0' :: d :: rest ∧ (d = '8' ∨ d = '9')

theorem not_startsZeroEight (h : d ≠ '0') (rest : List Char) : ¬StartsZeroEight (d :: rest) := by
  rintro ⟨_, _, hSame, -⟩
  exact h (List.cons.inj hSame).1

theorem value_octal : (octal ds).value true = none ↔ ds ≠ ['0'] := by
  rw [Escape.value]
  split <;> simp_all

theorem value_single (h : (single c).value true = none) :
    c = 'u' ∨ c = 'x' ∨ c = '8' ∨ c = '9' := by
  rw [Escape.value] at h
  split at h
  · rename_i hOne
    simpa [or_assoc] using hOne
  · split at h <;> cases h

theorem isInvalidEscape_of_takes {e : Escape} {text : List Char} (h : Takes rest e text)
    (hValue : e.value true = none) :
    IsInvalidEscape (text ++ rest) ∧ ¬StartsZeroEight (text ++ rest) := by
  cases h with
  | @braced ds hSome hDigits =>
    have hLarge : 0x10FFFF < digitsValue 16 ds := by
      by_contra hLe
      rw [value_codePoint rfl (by omega)] at hValue
      cases hValue
    have hText : 'u' :: '{' :: (ds ++ ['}']) ++ rest = 'u' :: '{' :: (ds ++ '}' :: rest) := by simp
    rw [hText]
    exact ⟨.tooLarge hDigits hLarge rest, not_startsZeroEight (by decide) _⟩
  | @four ds hLength hDigits =>
    have hLt := digitsValue_lt ds
    rw [hLength] at hLt
    rw [value_codePoint rfl (by omega)] at hValue
    cases hValue
  | byte hLength hDigits => cases hValue
  | octal hSome hOctal hLength hEnd =>
    have hOther := value_octal.mp hValue
    obtain ⟨d, more, rfl⟩ := List.exists_cons_of_ne_nil hSome
    have hDigit : ∀ x ∈ d :: more, isAsciiDigit x = true := fun x hx =>
      isAsciiDigit_of_isOctalDigit (hOctal x hx)
    by_cases hZero : d = '0'
    · subst hZero
      cases more with
      | nil => exact absurd rfl hOther
      | cons x more =>
        refine ⟨.zero (hDigit x (by simp)) (more ++ rest), ?_⟩
        rintro ⟨y, behind, hSame, hY⟩
        have hOctalX := hOctal x (by simp)
        cases hSame
        rcases hY with rfl | rfl <;> cases hOctalX
    · exact ⟨.digit (hDigit d (by simp)) hZero (more ++ rest), not_startsZeroEight hZero _⟩
  | crlf => cases hValue
  | @single c hAlone =>
    rcases value_single hValue with rfl | rfl | rfl | rfl
    · obtain ⟨hBraced, hFour⟩ := hAlone.noCodePoint rfl
      exact ⟨.codePoint hBraced hFour, not_startsZeroEight (by decide) rest⟩
    · exact ⟨.byte (hAlone.noByte rfl), not_startsZeroEight (by decide) rest⟩
    · exact ⟨.digit (by decide) (by decide) rest, not_startsZeroEight (by decide) rest⟩
    · exact ⟨.digit (by decide) (by decide) rest, not_startsZeroEight (by decide) rest⟩

/-- An octal escape that is no lone zero has no value in templates. -/
theorem hasNoValue_octal (h : isOctalDigit d = true)
    (hZero : d = '0' → ∃ x ∈ more.head?, isOctalDigit x = true) : HasNoValue true (d :: more) := by
  obtain ⟨ds, rest, hWhole, hTakes⟩ := exists_takes_octal h more
  refine ⟨.octal ds, ds, rest, hWhole, hTakes, value_octal.mpr ?_⟩
  rintro rfl
  cases hWhole
  obtain ⟨x, hx, hOctal⟩ := hZero rfl
  obtain ⟨-, -, -, hEnd⟩ := octal_of_takes hTakes
  rw [hEnd (by decide) x hx] at hOctal
  cases hOctal

theorem hasNoValue_single {c : Char} (hAlone : IsAlone c rest)
    (hValue : (single c).value true = none) :
    HasNoValue true (c :: rest) :=
  ⟨.single c, [c], rest, rfl, .single hAlone, hValue⟩

theorem isOctalDigit_or (h : isAsciiDigit d = true) :
    isOctalDigit d = true ∨ d = '8' ∨ d = '9' := by
  have hAll : ∀ d ∈ ['0', '1', '2', '3', '4', '5', '6', '7', '8', '9'],
      isOctalDigit d = true ∨ d = '8' ∨ d = '9' := by decide
  exact hAll d (mem_of_isAsciiDigit h)

theorem hasNoValue_of_isInvalidEscape (h : IsInvalidEscape tail) (hOther : ¬StartsZeroEight tail) :
    HasNoValue true tail := by
  cases h with
  | digit h hZero rest =>
    rcases isOctalDigit_or h with hOctal | rfl | rfl
    · exact hasNoValue_octal hOctal fun h => absurd h hZero
    · exact hasNoValue_single ⟨by decide, nofun, nofun, nofun⟩ rfl
    · exact hasNoValue_single ⟨by decide, nofun, nofun, nofun⟩ rfl
  | @zero d h rest =>
    rcases isOctalDigit_or h with hOctal | hEight
    · exact hasNoValue_octal (by decide) fun _ => ⟨d, rfl, hOctal⟩
    · exact absurd ⟨d, rest, rfl, hEight⟩ hOther
  | byte h => exact hasNoValue_single ⟨by decide, nofun, fun _ => h, nofun⟩ rfl
  | codePoint hBraced hFour =>
    exact hasNoValue_single ⟨by decide, fun _ => ⟨hBraced, hFour⟩, nofun, nofun⟩ rfl
  | @tooLarge ds hDigits h rest =>
    have hSome : ds ≠ [] := by
      rintro rfl
      cases h
    refine ⟨.codePoint ds, _, rest, by simp, .braced hSome hDigits, ?_⟩
    rw [Escape.value, if_pos h]

theorem hasNoValue_iff : HasNoValue true tail ↔ IsInvalidEscape tail ∧ ¬StartsZeroEight tail := by
  constructor
  · rintro ⟨e, text, rest, rfl, hTakes, hValue⟩
    exact isInvalidEscape_of_takes hTakes hValue
  · rintro ⟨hInvalid, hOther⟩
    exact hasNoValue_of_isInvalidEscape hInvalid hOther

/-! ## What is cooked -/

/-- What the text around an octal escape is cooked to, with the character of the escape in it. -/
def octalReading (front ds rest : List Char) : Option String :=
  between (cook false (String.ofList front)) (Char.ofNat (digitsValue 8 ds))
    (cook false (String.ofList rest))

theorem value_octal_false (ds : List Char) : (octal ds).value false = some [digitsValue 8 ds] := by
  rw [Escape.value]
  split
  · rename_i hZero
    rw [eq_of_beq hZero]
    rfl
  · rfl

/-- No octal escape of up to three digits reaches the halves of pairs. -/
theorem isHalf_octal (h : AreOctal ds) (hLength : ds.length ≤ 3) :
    isHalf (digitsValue 8 ds) = false ∧ digitsValue 8 ds < 512 := by
  have hLt := digitsValue_octal_lt h
  have hPower : 8 ^ ds.length ≤ 8 ^ 3 := Nat.pow_le_pow_right (by decide) hLength
  refine ⟨?_, by omega⟩
  simp only [isHalf, isHighHalf, isLowHalf, Bool.or_eq_false_iff, Bool.and_eq_false_iff,
    decide_eq_false_iff_not]
  omega

theorem cook_octal (hFront : isClosed front = true) (h : Takes rest (.octal ds) ds) :
    cook false (String.ofList (front ++ '\\' :: (ds ++ rest))) = octalReading front ds rest := by
  obtain ⟨-, hOctal, hLength, -⟩ := octal_of_takes h
  exact cook_escape hFront h (value_octal_false ds) (isHalf_octal hOctal hLength).1

theorem toNat_ofNat (h : n < 0xD800) : (Char.ofNat n).toNat = n := by
  rw [Char.ofNat, dif_pos (Or.inl h)]
  rfl

/-- What the digits of an octal escape above a byte are cooked to is another character than the
longest escape that fits into a byte. -/
theorem octalReading_ne {es : List Char} {text : String} (h : Takes rest (.octal ds) ds)
    (hAbove : 255 < digitsValue 8 ds) (hByte : digitsValue 8 es ≤ 255)
    (hText : octalReading front ds rest = some text) : octalReading front es more ≠ some text := by
  intro hOther
  obtain ⟨-, hOctal, hLength, -⟩ := octal_of_takes h
  have hSmall := (isHalf_octal hOctal hLength).2
  have hSame := congrArg Char.toNat (between_inj hText hOther)
  rw [toNat_ofNat (by omega), toNat_ofNat (by omega)] at hSame
  omega

/-- Octal escapes are cooked as the longest ones that fit into a byte, unless three octal digits
denote a larger number. In templates a text has no value if it has an escape that is invalid,
and that is no `\0` in front of `8` or `9`. -/
theorem cook_digits_iff (raw : String) :
    (∀ front d more, raw.toList = front ++ '\\' :: d :: more → isClosed front = true →
        isOctalDigit d = true →
          ∃ ds rest, d :: more = ds ++ rest ∧ IsLongestOctal ds rest ∧
            (¬StartsAboveByte (d :: more) → cook false raw = octalReading front ds rest) ∧
            (StartsAboveByte (d :: more) →
              ∀ text, cook false raw = some text → octalReading front ds rest ≠ some text)) ∧
      (cook true raw = none ↔
        ∃ front tail, raw.toList = front ++ '\\' :: tail ∧ isClosed front = true ∧
          IsInvalidEscape tail ∧ ¬StartsZeroEight tail) := by
  constructor
  · intro front d more hRaw hFront hDigit
    obtain ⟨ds, rest, hTail, hTakes⟩ := exists_takes_octal hDigit more
    have hCook : cook false raw = octalReading front ds rest := by
      rw [← cook_octal hFront hTakes, ← hTail, ← hRaw, String.ofList_toList]
    rw [hTail]
    by_cases hByte : digitsValue 8 ds ≤ 255
    · refine ⟨ds, rest, rfl, isLongestOctal_of_takes hTakes hByte, fun _ => hCook, fun hAbove => ?_⟩
      exact absurd ((startsAboveByte_iff hTakes).mp hAbove) (by omega)
    · rw [Nat.not_le] at hByte
      obtain ⟨es, d, rfl, hLongest⟩ := exists_isLongestOctal_of_above hTakes hByte
      refine ⟨es, d :: rest, by simp, hLongest, fun hNot => ?_, fun _ text hText => ?_⟩
      · exact absurd ((startsAboveByte_iff hTakes).mpr hByte) hNot
      · exact octalReading_ne hTakes hByte hLongest.escape.value_le (hCook ▸ hText)
  · rw [cook, Option.map_eq_none_iff, codePoints?_eq_none_iff]
    simp only [hasNoValue_iff]

/-- Outside of templates the letter that three digits denote stands before the next digit, and in
templates the text has no value. -/
theorem cook_digits_iff_letter :
    isClosed ['a'] = true ∧ ¬StartsAboveByte ['1', '0', '1', '9'] ∧
      (∃ ds rest, ['1', '0', '1', '9'] = ds ++ rest ∧ IsLongestOctal ds rest ∧
        cook false "a\\1019" = octalReading ['a'] ds rest) ∧
      IsInvalidEscape ['1', '0', '1', '9'] ∧ cook true "a\\1019" = none := by
  have hTakes : Takes ['9'] (.octal ['1', '0', '1']) ['1', '0', '1'] :=
    .octal (by decide) (by decide) (by decide) (by decide)
  have hByte : ¬StartsAboveByte ['1', '0', '1', '9'] := fun hAbove =>
    absurd ((startsAboveByte_iff hTakes).mp hAbove) (by decide)
  have hInvalid : IsInvalidEscape ['1', '0', '1', '9'] := .digit (by decide) (by decide) _
  obtain ⟨hOctal, hNone⟩ := cook_digits_iff "a\\1019"
  obtain ⟨ds, rest, hTail, hLongest, hCook, -⟩ := hOctal ['a'] '1' ['0', '1', '9'] rfl rfl rfl
  refine ⟨rfl, hByte, ⟨ds, rest, hTail, hLongest, hCook hByte⟩, hInvalid, hNone.mpr ?_⟩
  exact ⟨['a'], ['1', '0', '1', '9'], rfl, rfl, hInvalid, not_startsZeroEight (by decide) _⟩

/-- Three octal digits above a byte are one character, and a zero in front of `8` is an escape in
templates too. -/
theorem not_cook_digits :
    (IsLongestOctal ['4', '0'] ['0'] ∧ cook false "\\400" ≠ octalReading [] ['4', '0'] ['0']) ∧
      IsInvalidEscape ['0', '8'] ∧ cook true "\\08" ≠ none := by
  have hTakes : Takes [] (.octal ['4', '0', '0']) ['4', '0', '0'] :=
    .octal (by decide) (by decide) (by decide) (by decide)
  obtain ⟨es, d, hSame, hLongest⟩ := exists_isLongestOctal_of_above hTakes (by decide)
  have hSame : ['4', '0'] ++ ['0'] = es ++ [d] := hSame
  obtain ⟨rfl, hLast⟩ := List.append_inj' hSame rfl
  cases hLast
  exact ⟨⟨hLongest, by decide +kernel⟩, .zero (by decide) [], by decide +kernel⟩

end StyleSieve.Script
