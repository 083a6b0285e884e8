import StyleSieve.Proofs.Script.CodePoints
import StyleSieve.Proofs.Text.Digits

/-!
# Spellings of a text

A literal can spell each character of its value in several ways, and can break its lines between
characters.

* `Spelling`, `Spells`: how a character and how a text can be spelled.
* `Spelling.exists_codePoints`: a spelled character is one character again, whatever follows it.
* `cook_of_spells`: every spelling of a text is cooked to the text, in templates too.
-/

namespace StyleSieve.Script

open Text Escape

variable {template : Bool} {c l : Char} {front rest text raw : List Char} {ns : List Nat}
  {n : Nat} {e : Escape}

/-! ## Spellings -/

/-- Letters with the characters that they stand for behind a backslash. -/
def letterEscapes : List (Char × Char) :=
  [('b', '\x08'), ('f', '\x0c'), ('n', '\n'), ('r', '\r'), ('t', '\t'), ('v', '\x0b')]

/-- The line breaks that vanish behind a backslash. -/
def lineBreaks : List (List Char) := [['\n'], ['\r'], ['\r', '\n'], ['\u2028'], ['\u2029']]

/-- Whether a backslash can stand in front of a character without a change of its meaning: it is no
digit, begins no other escape and is no line break. -/
structure KeepsMeaning (c : Char) : Prop where
  notDigit : isAsciiDigit c = false
  noLetter : c ∉ ['u', 'x', 'b', 'f', 'n', 'r', 't', 'v']
  noBreak : c ∉ ['\n', '\r', '\u2028', '\u2029']

/-- The ways to spell a character. -/
inductive Spelling (c : Char) : List Char → Prop where
  | itself (h : c ≠ '\\') : Spelling c [c]
  /-- By its code in braces, with any number of digits. -/
  | braced {ds : List Char} (hSome : ds ≠ []) (hDigits : AreHex ds)
      (hCode : digitsValue 16 ds = c.toNat) : Spelling c ('\\' :: 'u' :: '{' :: (ds ++ ['}']))
  /-- By its code with four digits. -/
  | four {ds : List Char} (hLength : ds.length = 4) (hDigits : AreHex ds)
      (hCode : digitsValue 16 ds = c.toNat) : Spelling c ('\\' :: 'u' :: ds)
  /-- By the two halves of its surrogate pair, with four digits each. -/
  | halves {hi lo : List Char} (hHiLength : hi.length = 4) (hHiDigits : AreHex hi)
      (hLoLength : lo.length = 4) (hLoDigits : AreHex lo)
      (hHigh : 0xD800 ≤ digitsValue 16 hi ∧ digitsValue 16 hi ≤ 0xDBFF)
      (hLow : 0xDC00 ≤ digitsValue 16 lo ∧ digitsValue 16 lo ≤ 0xDFFF)
      (hCode : 0x10000 + (digitsValue 16 hi - 0xD800) * 0x400 + (digitsValue 16 lo - 0xDC00) =
        c.toNat) :
    Spelling c ('\\' :: 'u' :: (hi ++ '\\' :: 'u' :: lo))
  /-- By its code with two digits. -/
  | byte {ds : List Char} (hLength : ds.length = 2) (hDigits : AreHex ds)
      (hCode : digitsValue 16 ds = c.toNat) : Spelling c ('\\' :: 'x' :: ds)
  | letter {l : Char} (h : (l, c) ∈ letterEscapes) : Spelling c ['\\', l]
  | escaped (h : KeepsMeaning c) : Spelling c ['\\', c]

/-- Whether a literal text spells a text, character by character and with line breaks anywhere. A
carriage return that a line feed follows is not a line break alone. -/
inductive Spells : List Char → List Char → Prop where
  | nil : Spells [] []
  | char {c : Char} {front rest text : List Char} (hFront : Spelling c front)
      (hRest : Spells rest text) : Spells (front ++ rest) (c :: text)
  | lineBreak {lineBreak rest text : List Char} (hBreak : lineBreak ∈ lineBreaks)
      (hFeed : lineBreak = ['\r'] → rest.head? ≠ some '\n') (hRest : Spells rest text) :
    Spells ('\\' :: (lineBreak ++ rest)) text

/-! ## Characters -/

theorem joinHalves_toNat (c : Char) (ns : List Nat) :
    joinHalves ([c.toNat] ++ ns) = c :: joinHalves ns := by
  rw [List.singleton_append, joinHalves_cons (isHalf_toNat c), Char.ofNat_toNat]

/-- An escape for a character is that character again, whatever follows it. -/
theorem codePoints?_of_value (hTakes : ∀ rest, Takes rest e text)
    (hValue : e.value template = some ns) (rest : List Char) :
    codePoints? template ('\\' :: text ++ rest) = (codePoints? template rest).map (ns ++ ·) := by
  rw [List.cons_append, codePoints?_escape (hTakes rest), hValue, Option.bind_some]

/-- Four digits are one code point, which may be a half of a pair. -/
theorem codePoints?_four {ds : List Char} (hLength : ds.length = 4) (hDigits : AreHex ds)
    (template : Bool) (rest : List Char) :
    codePoints? template ('\\' :: 'u' :: ds ++ rest) =
      (codePoints? template rest).map ([digitsValue 16 ds] ++ ·) := by
  have hLt := digitsValue_lt ds
  rw [hLength] at hLt
  exact codePoints?_of_value (fun _ => .four hLength hDigits) (value_codePoint rfl (by omega)) rest

theorem takes_letter (h : (l, c) ∈ letterEscapes) (rest : List Char) :
    Takes rest (.single l) [l] := by
  have hOther : ∀ p ∈ letterEscapes,
      isOctalDigit p.1 = false ∧ p.1 ≠ 'u' ∧ p.1 ≠ 'x' ∧ p.1 ≠ '\r' := by decide
  obtain ⟨hOctal, hU, hX, hReturn⟩ := hOther (l, c) h
  exact .single ⟨hOctal, fun h => absurd h hU, fun h => absurd h hX, fun h => absurd h hReturn⟩

theorem value_letter (h : (l, c) ∈ letterEscapes) : (single l).value template = some [c.toNat] := by
  have hAll : ∀ p ∈ letterEscapes, ∀ template, (single p.1).value template = some [p.2.toNat] := by
    decide
  exact hAll (l, c) h template

theorem KeepsMeaning.takes (h : KeepsMeaning c) (rest : List Char) :
    Takes rest (.single c) [c] := by
  have hOctal : isOctalDigit c = false :=
    Bool.eq_false_iff.mpr fun hOctal =>
      Bool.eq_false_iff.mp h.notDigit (isAsciiDigit_of_isOctalDigit hOctal)
  refine .single ⟨hOctal, ?_, ?_, ?_⟩
  · rintro rfl
    exact absurd h.noLetter (by decide)
  · rintro rfl
    exact absurd h.noLetter (by decide)
  · rintro rfl
    exact absurd h.noBreak (by decide)

theorem KeepsMeaning.value (h : KeepsMeaning c) : (single c).value template = some [c.toNat] := by
  have hDigit : c ≠ '8' ∧ c ≠ '9' := by
    constructor <;>
      rintro rfl <;>
      exact absurd h.notDigit (by decide)
  have hLetter := h.noLetter
  have hBreak := h.noBreak
  simp only [List.mem_cons, List.not_mem_nil, or_false, not_or] at hLetter hBreak
  simp [Escape.value, letterValue, isLineBreak, hDigit, hLetter, hBreak]

theorem toNat_le (c : Char) : c.toNat ≤ 0x10FFFF := by
  have hValid := toNat_valid c
  omega

/-- A spelled character is one character again, whatever follows it. -/
theorem Spelling.exists_codePoints (h : Spelling c front) (template : Bool) :
    ∃ ns, (∀ rest, codePoints? template (front ++ rest) =
        (codePoints? template rest).map (ns ++ ·)) ∧
      ∀ more, joinHalves (ns ++ more) = c :: joinHalves more := by
  cases h with
  | itself h => exact ⟨[c.toNat], codePoints?_plain h, joinHalves_toNat c⟩
  | braced hSome hDigits hCode =>
    exact ⟨[c.toNat], codePoints?_of_value (fun _ => .braced hSome hDigits)
      (value_codePoint hCode (toNat_le c)), joinHalves_toNat c⟩
  | four hLength hDigits hCode =>
    exact ⟨[c.toNat], hCode ▸ codePoints?_four hLength hDigits template, joinHalves_toNat c⟩
  | @halves hi lo hHiLength hHiDigits hLoLength hLoDigits hHigh hLow hCode =>
    -- the two halves are escapes of their own, and are joined only behind both
    have hFirst := codePoints?_four hHiLength hHiDigits template
    have hSecond := codePoints?_four hLoLength hLoDigits template
    refine ⟨[digitsValue 16 hi, digitsValue 16 lo], fun rest => ?_, fun more => ?_⟩
    · have hWhole : '\\' :: 'u' :: (hi ++ '\\' :: 'u' :: lo) ++ rest =
          '\\' :: 'u' :: hi ++ ('\\' :: 'u' :: lo ++ rest) := by simp
      rw [hWhole, hFirst, hSecond, Option.map_map]
      rfl
    · have hHighHalf : isHighHalf (digitsValue 16 hi) = true := by simp [isHighHalf, hHigh]
      have hLowHalf : isLowHalf (digitsValue 16 lo) = true := by simp [isLowHalf, hLow]
      rw [List.cons_append, List.singleton_append, joinHalves_pair hHighHalf hLowHalf, hCode,
        Char.ofNat_toNat]
  | byte hLength hDigits hCode =>
    refine ⟨[c.toNat], codePoints?_of_value (fun _ => .byte hLength hDigits) ?_, joinHalves_toNat c⟩
    rw [Escape.value, hCode]
  | letter h =>
    exact ⟨[c.toNat], codePoints?_of_value (takes_letter h) (value_letter h), joinHalves_toNat c⟩
  | escaped h => exact ⟨[c.toNat], codePoints?_of_value h.takes h.value, joinHalves_toNat c⟩

theorem exists_takes_lineBreak {lineBreak : List Char} (hBreak : lineBreak ∈ lineBreaks)
    (hFeed : lineBreak = ['\r'] → rest.head? ≠ some '\n') :
    ∃ e, Takes rest e lineBreak ∧ ∀ template, e.value template = some [] := by
  simp only [lineBreaks, List.mem_cons, List.not_mem_nil, or_false] at hBreak
  rcases hBreak with rfl | rfl | rfl | rfl | rfl
  · exact ⟨.single '\n', .single ⟨by decide, nofun, nofun, nofun⟩, by decide⟩
  · exact ⟨.single '\r', .single ⟨by decide, nofun, nofun, fun _ => hFeed rfl⟩, by decide⟩
  · exact ⟨.crlf, .crlf, fun _ => rfl⟩
  · exact ⟨.single '\u2028', .single ⟨by decide, nofun, nofun, nofun⟩, by decide⟩
  · exact ⟨.single '\u2029', .single ⟨by decide, nofun, nofun, nofun⟩, by decide⟩

/-- A line break behind a backslash leaves nothing. -/
theorem codePoints?_lineBreak {lineBreak : List Char} (hBreak : lineBreak ∈ lineBreaks)
    (hFeed : lineBreak = ['\r'] → rest.head? ≠ some '\n') :
    codePoints? template ('\\' :: (lineBreak ++ rest)) = codePoints? template rest := by
  obtain ⟨e, hTakes, hValue⟩ := exists_takes_lineBreak hBreak hFeed
  rw [codePoints?_escape hTakes, hValue, Option.bind_some]
  cases codePoints? template rest <;> rfl

/-! ## Texts -/

theorem exists_codePoints_of_spells (h : Spells raw text) (template : Bool) :
    ∃ ns, codePoints? template raw = some ns ∧ joinHalves ns = text := by
  induction h with
  | nil => exact ⟨[], codePoints?_nil, rfl⟩
  | char hFront _ ih =>
    obtain ⟨ns, hRest, hText⟩ := ih
    obtain ⟨ms, hResolved, hJoined⟩ := hFront.exists_codePoints template
    exact ⟨ms ++ ns, by rw [hResolved, hRest]; rfl, by rw [hJoined, hText]⟩
  | lineBreak hBreak hFeed _ ih =>
    obtain ⟨ns, hRest, hText⟩ := ih
    exact ⟨ns, by rw [codePoints?_lineBreak hBreak hFeed, hRest], hText⟩

/-- Every spelling of a text is cooked to the text. -/
theorem cook_of_spells {raw text : String} (h : Spells raw.toList text.toList) (template : Bool) :
    cook template raw = some text := by
  obtain ⟨ns, hPoints, hText⟩ := exists_codePoints_of_spells h template
  rw [cook, hPoints, Option.map_some, hText, String.ofList_toList]

/-- The halves of a pair, a code, a line break, a letter and a backslash, one behind the other. -/
theorem cook_of_spells_halves :
    Spells "\\uD83D\\uDE00\\x41\\\n\\n\\\\".toList "😀A\n\\".toList ∧
      cook true "\\uD83D\\uDE00\\x41\\\n\\n\\\\" = some "😀A\n\\" := by
  have hFace : Spelling '😀'
      ('\\' :: 'u' :: (['D', '8', '3', 'D'] ++ '\\' :: 'u' :: ['D', 'E', '0', '0'])) :=
    .halves rfl (by decide) rfl (by decide) (by decide) (by decide) rfl
  have hLetter : Spelling 'A' ('\\' :: 'x' :: ['4', '1']) := .byte rfl (by decide) rfl
  have hSlash : Spelling '\\' ['\\', '\\'] := .escaped ⟨by decide, by decide, by decide⟩
  have hEnd : Spells "\\n\\\\".toList "\n\\".toList :=
    .char (.letter (by decide)) (.char hSlash .nil)
  have hBreak : Spells ('\\' :: (['\n'] ++ "\\n\\\\".toList)) "\n\\".toList :=
    .lineBreak (by decide) nofun hEnd
  have hAll : Spells "\\uD83D\\uDE00\\x41\\\n\\n\\\\".toList "😀A\n\\".toList :=
    .char hFace (.char hLetter hBreak)
  exact ⟨hAll, cook_of_spells hAll true⟩

end StyleSieve.Script
