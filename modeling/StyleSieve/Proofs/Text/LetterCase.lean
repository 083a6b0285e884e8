import StyleSieve.Text.Case

/-!
# Letter case of ASCII

A text has the same lower-case form as with its ASCII letters alone in lower case, because a capital
letter of ASCII stands in the classes of letters that its lower-case form stands in.

* `lower_lowerAsciiAll`: ASCII letters in lower case do not change the lower-case form.
-/

namespace StyleSieve.Text

variable {c : Char}

/-- The capital letters of ASCII. -/
def asciiCapitals : List Char := "ABCDEFGHIJKLMNOPQRSTUVWXYZ".toList

theorem mem_asciiCapitals (h : 'A' ≤ c ∧ c ≤ 'Z') : c ∈ asciiCapitals := by
  have hAll : ∀ k < 26, Char.ofNat (65 + k) ∈ asciiCapitals := by decide
  have hLow : 65 ≤ c.toNat := h.1
  have hHigh : c.toNat ≤ 90 := h.2
  have hCode : 65 + (c.toNat - 65) = c.toNat := by omega
  have hMem := hAll (c.toNat - 65) (by omega)
  rwa [hCode, Char.ofNat_toNat] at hMem

/-- What lower-casing looks at is the same for two characters. -/
structure SameCaseForms (c d : Char) : Prop where
  lower : lowerChar c = lowerChar d
  sigma : (c == 'Σ') = (d == 'Σ')
  dotted : (c == 'İ') = (d == 'İ')
  ignorable : caseIgnorableChanges.contains c.toNat = caseIgnorableChanges.contains d.toNat
  cased : casedChanges.contains c.toNat = casedChanges.contains d.toNat

theorem sameCaseForms_lowerAscii (c : Char) : SameCaseForms (lowerAscii c) c := by
  by_cases h : 'A' ≤ c ∧ c ≤ 'Z'
  · have hAll : ∀ c ∈ asciiCapitals, lowerChar (lowerAscii c) = lowerChar c ∧
        (lowerAscii c == 'Σ') = (c == 'Σ') ∧ (lowerAscii c == 'İ') = (c == 'İ') ∧
        caseIgnorableChanges.contains (lowerAscii c).toNat = caseIgnorableChanges.contains c.toNat ∧
        casedChanges.contains (lowerAscii c).toNat = casedChanges.contains c.toNat := by
      decide +kernel
    obtain ⟨hLower, hSigma, hDotted, hIgnorable, hCased⟩ := hAll c (mem_asciiCapitals h)
    exact ⟨hLower, hSigma, hDotted, hIgnorable, hCased⟩
  · have hSame : lowerAscii c = c := if_neg (by simpa using h)
    rw [hSame]
    exact ⟨rfl, rfl, rfl, rfl, rfl⟩

theorem caseFollows_map_lowerAscii (cs : List Char) :
    caseFollows (cs.map lowerAscii) = caseFollows cs := by
  induction cs with
  | nil => rfl
  | cons c rest ih =>
    have hForms := sameCaseForms_lowerAscii c
    rw [List.map_cons, caseFollows, caseFollows, hForms.ignorable, hForms.cased, ih]

theorem lowerFrom_map_lowerAscii (before cs : List Char) :
    lowerFrom (before.map lowerAscii) (cs.map lowerAscii) = lowerFrom before cs := by
  induction cs generalizing before with
  | nil => rfl
  | cons c rest ih =>
    have hForms := sameCaseForms_lowerAscii c
    rw [List.map_cons, lowerFrom, lowerFrom, hForms.sigma, hForms.dotted, hForms.lower,
      caseFollows_map_lowerAscii, caseFollows_map_lowerAscii, ← List.map_cons, ih]

/-- ASCII letters in lower case do not change the lower-case form of a text. -/
theorem lower_lowerAsciiAll (s : String) : lower (lowerAsciiAll s) = lower s := by
  rw [lower, lowerAsciiAll, String.toList_ofList, lowerChars]
  exact congrArg String.ofList (lowerFrom_map_lowerAscii [] s.toList)

end StyleSieve.Text
