import StyleSieve.Text.Blank
import StyleSieve.Text.Utf8

/-!
# Surrogates

The codes from U+D800 to U+DFFF are halves of surrogate pairs and no characters, but style sheets can
name them by escapes. In a text, a character stands in for such a half. Which characters do so is left
open: those of a text that holds none of them are told apart from the halves, and a character that is
no letter, such as one for private use, is like a half in every other way.
-/

namespace StyleSieve

open Text

/-- Whether a code is one half of a surrogate pair. -/
def isSurrogate (code : Nat) : Bool := 0xD800 ≤ code && code ≤ 0xDFFF

/-- The characters that stand in for the halves of surrogate pairs. -/
class Surrogates where
  /-- The character that stands in for a half. -/
  char : Nat → Char
  /-- The half that a character stands in for. -/
  code? : Char → Option Nat
  code?_eq_some_iff (c : Char) (code : Nat) :
    code? c = some code ↔ isSurrogate code = true ∧ char code = c
  le_toNat_char (code : Nat) : isSurrogate code = true → 0xA0 ≤ (char code).toNat
  toNat_char_le (code : Nat) : isSurrogate code = true → (char code).toNat ≤ 0xFFFF
  isBlank_char (code : Nat) : isSurrogate code = true → isBlank (char code) = false

namespace Surrogates

/-! ## Blocks of characters -/

theorem toNat_ofNat_block {start code : Nat} (hStart : 0xE000 ≤ start ∧ start ≤ 0xF000)
    (h : isSurrogate code = true) :
    (Char.ofNat (code - 0xD800 + start)).toNat = code - 0xD800 + start := by
  simp only [isSurrogate, Bool.and_eq_true, decide_eq_true_eq] at h
  rw [Char.ofNat, dif_pos (Or.inr (by omega))]
  rfl

/-- Characters for private use stand in, from a given one on. -/
@[reducible] def block (start : Nat) (hStart : 0xE000 ≤ start ∧ start ≤ 0xF000) : Surrogates where
  char code := Char.ofNat (code - 0xD800 + start)
  code? c := if start ≤ c.toNat && isSurrogate (c.toNat - start + 0xD800) then
    some (c.toNat - start + 0xD800) else none
  code?_eq_some_iff c code := by
    constructor
    · intro h
      split at h
      · rename_i hHalf
        rw [Bool.and_eq_true, decide_eq_true_eq] at hHalf
        rw [← Option.some.inj h]
        refine ⟨hHalf.2, ?_⟩
        rw [Nat.add_sub_cancel, Nat.sub_add_cancel hHalf.1, Char.ofNat_toNat]
      · cases h
    · rintro ⟨hHalf, rfl⟩
      have hCode : code - 0xD800 + start - start + 0xD800 = code := by
        simp only [isSurrogate, Bool.and_eq_true, decide_eq_true_eq] at hHalf
        omega
      rw [toNat_ofNat_block hStart hHalf, hCode, if_pos]
      rw [hHalf, Bool.and_true, decide_eq_true_eq]
      exact Nat.le_add_left _ _
  le_toNat_char code h := by
    rw [toNat_ofNat_block hStart h]
    omega
  toNat_char_le code h := by
    rw [toNat_ofNat_block hStart h]
    simp only [isSurrogate, Bool.and_eq_true, decide_eq_true_eq] at h
    omega
  isBlank_char code h := by
    simp only [isBlank, isAsciiBlank, toNat_ofNat_block hStart h]
    simp only [isSurrogate, Bool.and_eq_true, decide_eq_true_eq] at h
    simp only [Bool.or_eq_false_iff, Bool.and_eq_false_iff, decide_eq_false_iff_not, beq_eq_false_iff_ne]
    omega

/-- Without another choice, the first characters for private use stand in. -/
instance (priority := low) : Surrogates := block 0xE000 (by decide)

/-- Whether a text names a character of a block: by itself, or by digits to base sixteen. -/
def names (start : Nat) : List Char → Bool
  | [] => false
  | c :: rest =>
    let digits := (c :: rest).take 4
    (start ≤ c.toNat && c.toNat < start + 0x800) ||
      (digits.all isHexDigit && start ≤ digitsValue 16 digits &&
        digitsValue 16 digits < start + 0x800) || names start rest

/-- The characters of a block stand in for nothing in a text that names none of them. -/
theorem code?_block_of_not_names {start : Nat} (hStart : 0xE000 ≤ start ∧ start ≤ 0xF000)
    {text : List Char} (h : names start text = false) : ∀ c ∈ text, (block start hStart).code? c = none := by
  induction text with
  | nil => exact nofun
  | cons c rest ih =>
    simp only [names, Bool.or_eq_false_iff, Bool.and_eq_false_iff, decide_eq_false_iff_not] at h
    obtain ⟨⟨hSelf, -⟩, hRest⟩ := h
    refine List.forall_mem_cons.mpr ⟨if_neg ?_, ih hRest⟩
    simp only [isSurrogate, Bool.and_eq_true, decide_eq_true_eq]
    omega

/-- The stand-ins for texts: characters of a block that none of them names, if there is one. -/
@[reducible] def besides (texts : List (List Char)) : Surrogates :=
  if !texts.any (names 0xE000) then block 0xE000 (by decide)
  else if !texts.any (names 0xE800) then block 0xE800 (by decide)
  else block 0xF000 (by decide)

variable [Surrogates]

/-! ## Texts with halves -/

/-- Whether a character stands in for a half. -/
def isHalf (c : Char) : Bool := (code? c).isSome

/-- One character of a text quoted with `quote`; a half is shown by its code. -/
def quotedChar (quote c : Char) : List Char :=
  match code? c with
  | some code => '\\' :: 'u' :: hexPadded 4 code
  | none => Text.quotedChar quote c

/-- A text between quotes. -/
def quoted (s : String) : String :=
  let cs := s.toList
  let quote := quoteFor cs
  String.ofList (quote :: cs.flatMap (quotedChar quote) ++ [quote])

/-- The bytes of a text; a text with a half has none. -/
def encode? (s : String) : Option Bytes :=
  if s.toList.any isHalf then none else some (Utf8.encode s)

end Surrogates

end StyleSieve
