import Mathlib.Data.List.Induction
import Mathlib.Tactic.IntervalCases
import StyleSieve.Text.Class

/-!
# Digits

* `mem_of_isAsciiDigit`: the digits by name.
* `digitsValue_lt_of`: what a row of digits can denote.
-/

namespace StyleSieve.Text

variable {c : Char}

theorem mem_of_isAsciiDigit (h : isAsciiDigit c = true) :
    c ∈ ['0', '1', '2', '3', '4', '5', '6', '7', '8', '9'] := by
  have hBounds : 48 ≤ c.toNat ∧ c.toNat ≤ 57 := by
    simpa [isAsciiDigit, Char.le_def, UInt32.le_iff_toNat_le] using h
  obtain ⟨hLow, hHigh⟩ := hBounds
  rw [← Char.ofNat_toNat c]
  generalize c.toNat = n at hLow hHigh
  interval_cases n <;> decide

theorem isAsciiDigit_of_isOctalDigit (h : isOctalDigit c = true) : isAsciiDigit c = true := by
  simp only [isOctalDigit, isAsciiDigit, Bool.and_eq_true, decide_eq_true_eq] at h ⊢
  exact ⟨h.1, Char.le_trans h.2 (by decide : '7' ≤ '9')⟩

theorem hexValue_lt (c : Char) : hexValue c < 16 := by
  unfold hexValue isAsciiDigit
  simp only [Bool.and_eq_true, decide_eq_true_eq, Char.le_def, UInt32.le_iff_toNat_le]
  change (if 48 ≤ c.toNat ∧ c.toNat ≤ 57 then c.toNat - 48
    else if 97 ≤ c.toNat ∧ c.toNat ≤ 102 then c.toNat - 87
    else if 65 ≤ c.toNat ∧ c.toNat ≤ 70 then c.toNat - 55 else 0) < 16
  split <;> [omega; split] <;> [omega; split] <;> omega

theorem hexValue_lt_of_isOctalDigit (h : isOctalDigit c = true) : hexValue c < 8 := by
  have hAll : ∀ d ∈ ['0', '1', '2', '3', '4', '5', '6', '7', '8', '9'],
      isOctalDigit d = true → hexValue d < 8 := by decide
  exact hAll c (mem_of_isAsciiDigit (isAsciiDigit_of_isOctalDigit h)) h

/-- What a row of digits can denote. -/
theorem digitsValue_lt_of {base : Nat} {ds : List Char} (h : ∀ d ∈ ds, hexValue d < base) :
    digitsValue base ds < base ^ ds.length := by
  induction ds using List.reverseRecOn with
  | nil => exact Nat.one_pos
  | append_singleton ds d ih =>
    have hFront := ih fun x hx => h x (List.mem_append_left _ hx)
    have hDigit := h d (by simp)
    rw [digitsValue, List.foldl_append, ← digitsValue, List.length_append, List.length_singleton,
      pow_succ]
    change digitsValue base ds * base + hexValue d < _
    calc digitsValue base ds * base + hexValue d
      _ < digitsValue base ds * base + base := Nat.add_lt_add_left hDigit _
      _ = (digitsValue base ds + 1) * base := (Nat.succ_mul _ _).symm
      _ ≤ base ^ ds.length * base := Nat.mul_le_mul_right base hFront

theorem digitsValue_lt (ds : List Char) : digitsValue 16 ds < 16 ^ ds.length :=
  digitsValue_lt_of fun d _ => hexValue_lt d

end StyleSieve.Text
