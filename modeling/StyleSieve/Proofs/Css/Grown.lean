import StyleSieve.Proofs.Css.Flat
import StyleSieve.Proofs.Css.Rows
import StyleSieve.Proofs.Selector.Segments

/-!
# The components of a text in a row

The lexemes of the components of a text are a row as texts have them.

* `isGrown_flatAll_components`
-/

namespace StyleSieve.Css

open Text

variable {cs r : List Char} {l : Lexeme} {ls ls' more : List Lexeme}

theorem Takes.hasSign [Surrogates] (h : Takes cs ls r) (hl : l ∈ ls) : l.hasSign = true := by
  cases h with
  | address => obtain ⟨v, rfl⟩ | rfl | rfl := mem_addressStep hl <;> rfl
  | string => obtain ⟨t, rfl⟩ | rfl | rfl := mem_stringStep hl <;> rfl
  | opening hSign r =>
    rw [List.mem_singleton.mp hl]
    simpa [Lexeme.hasSign, or_assoc] using hSign
  | closing hSign r =>
    rw [List.mem_singleton.mp hl]
    simpa [Lexeme.hasSign, or_assoc] using hSign
  | _ =>
    rw [List.mem_singleton.mp hl]
    rfl

theorem hasSign_lexemes [Surrogates] (cs : List Char) : ∀ l ∈ lexemes cs, l.hasSign = true := by
  induction hLength : cs.length using Nat.strongRecOn generalizing cs with
  | ind n ih =>
    subst hLength
    cases cs with
    | nil =>
      rw [lexemes_nil]
      nofun
    | cons c rest =>
      intro l hl
      rw [lexemes_cons, List.mem_append] at hl
      rcases hl with hl | hl
      · exact (takes_step c rest).hasSign hl
      · refine ih _ ?_ _ rfl l hl
        simp only [List.length_drop, List.length_cons]
        omega

/-! ## Marked rows -/

/-- Closing brackets do not start with a sign, a blank or a string. -/
theorem not_mem_head?_ending (ends : List Bracket) :
    ∀ l ∈ (ends.map Bracket.ending).head?, ∃ c, l = .closing c := by
  intro l hl
  cases ends with
  | nil => cases hl
  | cons b ends =>
    cases hl
    exact ⟨_, rfl⟩

theorem isQuoted_of_mark {l' : Lexeme} (h : l' = l ∨ ∃ c, l = .closing c ∧ l' = .flaw (.unmatched c))
    (hQuoted : l.isQuoted = true) : l'.isQuoted = true := by
  rcases h with rfl | ⟨c, rfl, -⟩
  · exact hQuoted
  · cases hQuoted

theorem StartsWithString.marks (h : StartsWithString ls) (hMarks : Marks ls ls') (more : List Lexeme) :
    StartsWithString (ls' ++ more) := by
  cases hMarks with
  | nil => cases h
  | @cons l l' ls ls' hFirst hRest =>
    cases hQuoted : l.isQuoted with
    | true => exact startsWithString_cons (isQuoted_of_mark hFirst hQuoted) _
    | false =>
      cases l with
      | blank t =>
        obtain rfl : l' = .blank t := hFirst.resolve_right nofun
        cases hRest with
        | nil => cases h
        | cons hSecond hRest => exact isQuoted_of_mark hSecond h
      | _ =>
        have hIs : Lexeme.isQuoted _ = true := h
        rw [hQuoted] at hIs
        cases hIs

theorem Lexeme.Admits.marks (h : l.Admits ls) (hMarks : Marks ls ls') (ends : List Bracket) :
    l.Admits (ls' ++ ends.map Bracket.ending) := by
  have hHead : ∀ l' ∈ (ls' ++ ends.map Bracket.ending).head?,
      l' ∈ ls.head? ∨ (∃ c, l' = .closing c) ∨ l'.isFlaw = true := by
    intro l' hl'
    cases hMarks with
    | nil => exact Or.inr (Or.inl (not_mem_head?_ending ends l' hl'))
    | cons hFirst hRest =>
      cases hl'
      rcases hFirst with rfl | ⟨c, rfl, rfl⟩
      · exact Or.inl rfl
      · exact Or.inr (Or.inr rfl)
  constructor
  · intro t ht hSign
    rcases hHead _ hSign with hSign | ⟨c, hClosing⟩ | hFlaw
    · exact h.signs t ht hSign
    · cases hClosing
    · cases hFlaw
  · intro hGap l' hl'
    rcases hHead l' hl' with hl' | ⟨c, rfl⟩ | hFlaw
    · exact h.gaps hGap l' hl'
    · rfl
    · cases l' <;> first | rfl | cases hFlaw
  · intro v hFunction hUrl
    exact (h.quoted v hFunction hUrl).marks hMarks _
  · intro hSlash
    obtain ⟨t, more, rfl⟩ := h.lineEnd hSlash
    cases hMarks with
    | cons hFirst hRest =>
      rcases hFirst with rfl | ⟨c, hClosing, -⟩
      · exact ⟨t, _, rfl⟩
      · cases hClosing

theorem IsGrown.marks (h : IsGrown ls) (hMarks : Marks ls ls') (ends : List Bracket) :
    IsGrown (ls' ++ ends.map Bracket.ending) := by
  induction hMarks with
  | nil =>
    induction ends with
    | nil => trivial
    | cons b ends ih =>
      refine ⟨fun _ _ => ⟨?_, fun _ => ?_, admits_of_isUsual rfl _⟩, ih⟩
      · cases b <;> rfl
      · have hSign : b.signs.2 ∈ ['}', ']', ')'] := by cases b <;> decide
        exact hSign
  | @cons l l' ls ls' hFirst hRest ih =>
    refine ⟨fun hFlaw hNext => ?_, ih h.2⟩
    obtain rfl : l' = l := by
      rcases hFirst with rfl | ⟨c, -, rfl⟩
      · rfl
      · cases hFlaw
    have hOld := h.1 hFlaw fun next hMem => ?_
    · exact ⟨hOld.plain, hOld.sound, hOld.admits.marks hRest ends⟩
    · cases hRest with
      | nil => cases hMem
      | @cons next next' _ _ hMark _ =>
        cases hMem
        have hOther := hNext next' rfl
        rcases hMark with rfl | ⟨c, rfl, -⟩
        · exact hOther
        · rfl

/-- The lexemes of the components of a text. -/
theorem isGrown_flatAll_components [Surrogates] (source : String) :
    IsGrown (flatAll (components source)) := by
  have hGrown := isGrown_lexemes (Selector.isPlain_normalize source.toList)
  obtain ⟨ls, ends, hMarks, hFlat⟩ := exists_flatAll_nest (scan 1 (normalize source.toList))
    (fun l hl => hasSign_lexemes _ l.2 (List.mem_map_of_mem hl)) [] rfl []
  rw [components, hFlat]
  exact hGrown.marks hMarks ends

end StyleSieve.Css
