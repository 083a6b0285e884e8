import Mathlib.Data.List.TakeWhile
import StyleSieve.Text.Blank

/-!
# Trimmed texts

* `trimChars_of_isBare`: a text without blanks at its ends is left as it is.
* `trim_trim`: trimming twice is trimming once.
-/

namespace StyleSieve.Text

/-- A text that neither starts nor ends with a blank. -/
structure IsBare (cs : List Char) : Prop where
  start : ∀ c ∈ cs.head?, isBlank c = false
  stop : ∀ c ∈ cs.getLast?, isBlank c = false

theorem trimStartChars_of_start {cs : List Char} (h : ∀ c ∈ cs.head?, isBlank c = false) :
    trimStartChars cs = cs := by
  cases cs with
  | nil => rfl
  | cons c rest => exact List.dropWhile_cons_of_neg (by simp [h c rfl])

theorem trimEndChars_of_stop {cs : List Char} (h : ∀ c ∈ cs.getLast?, isBlank c = false) :
    trimEndChars cs = cs := by
  have hReverse : trimStartChars cs.reverse = cs.reverse :=
    trimStartChars_of_start fun c hc => h c (by rwa [List.head?_reverse] at hc)
  rw [trimStartChars] at hReverse
  rw [trimEndChars, hReverse, List.reverse_reverse]

theorem isBlank_head?_dropWhile {cs : List Char} :
    ∀ c ∈ (cs.dropWhile isBlank).head?, isBlank c = false := by
  intro c hc
  cases hBlank : isBlank c with
  | false => rfl
  | true =>
    have hHead := List.head?_dropWhile_not isBlank cs
    rw [Option.mem_def.mp hc] at hHead
    simp [hBlank] at hHead

theorem isBare_trimChars (cs : List Char) : IsBare (trimChars cs) where
  stop c hc := by
    rw [trimChars, trimEndChars, List.getLast?_reverse] at hc
    exact isBlank_head?_dropWhile c hc
  start c hc := by
    have hPrefix : trimChars cs <+: trimStartChars cs := by
      have hSuffix := List.dropWhile_suffix isBlank (l := (trimStartChars cs).reverse)
      rw [← List.reverse_prefix, List.reverse_reverse] at hSuffix
      exact hSuffix
    obtain ⟨rest, hRest⟩ := hPrefix
    refine @isBlank_head?_dropWhile cs c ?_
    rw [← trimStartChars, ← hRest, List.head?_append, Option.mem_def.mp hc]
    rfl

theorem trimChars_of_isBare {cs : List Char} (h : IsBare cs) : trimChars cs = cs := by
  rw [trimChars, trimStartChars_of_start h.start, trimEndChars_of_stop h.stop]

theorem trimEndChars_append {pre : List Char} (h : ∃ c ∈ pre.getLast?, isBlank c = false)
    (cs : List Char) : trimEndChars (pre ++ cs) = pre ++ trimEndChars cs := by
  obtain ⟨c, hc, hBlank⟩ := h
  have hStop : ∀ d ∈ pre.getLast?, isBlank d = false := by
    intro d hd
    rw [Option.mem_def] at hc hd
    rw [← Option.some.inj (hc.symm.trans hd)]
    exact hBlank
  have hPre := trimEndChars_of_stop hStop
  unfold trimEndChars at hPre ⊢
  rw [List.reverse_append, List.dropWhile_append]
  split
  · rename_i hNone
    rw [hPre, List.isEmpty_iff.mp hNone, List.reverse_nil, List.append_nil]
  · rw [List.reverse_append, List.reverse_reverse]

theorem trimStartChars_append {before : List Char} (h : ∀ c ∈ before, isBlank c = true)
    (cs : List Char) : trimStartChars (before ++ cs) = trimStartChars cs :=
  List.dropWhile_append_of_pos h

theorem trimEndChars_blanks {behind : List Char} (h : ∀ c ∈ behind, isBlank c = true)
    (cs : List Char) : trimEndChars (cs ++ behind) = trimEndChars cs := by
  unfold trimEndChars
  rw [List.reverse_append, List.dropWhile_append_of_pos fun c hc => h c (List.mem_reverse.mp hc)]

/-- Trimming twice is trimming once. -/
theorem trim_trim (s : String) : trim (trim s) = trim s := by
  rw [trim, trim, String.toList_ofList, trimChars_of_isBare (isBare_trimChars s.toList)]

end StyleSieve.Text
