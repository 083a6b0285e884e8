import StyleSieve.Proofs.Css.Nest

/-!
# Texts that are read as they are written

A text spells lexemes if it is read as them in front of every stop, and is what is written of
the components that they form. Not every text is written as it was read: an escape may have
another spelling, and something that is still open at the end of the text takes in what is
put behind it.

* `Spells.comma`: spelled texts can be listed with commas between them.
* `lexemes_block`, `formed_headed_block`: how a head with a block is read, whatever comes behind.
-/

namespace StyleSieve.Css

/-- A character that normalizing leaves as it is, whatever stands around it. -/
def isPlain (c : Char) : Bool := c != '\r' && c != '\x0c' && c != '\x00'

theorem normalize_of_plain {cs : List Char} (h : cs.all isPlain = true) : normalize cs = cs := by
  induction cs with
  | nil => rfl
  | cons c rest ih =>
    rw [List.all_cons, Bool.and_eq_true] at h
    obtain ⟨⟨hReturn, hFeed⟩, hNull⟩ : (c ≠ '\r' ∧ c ≠ '\x0c') ∧ c ≠ '\x00' := by
      simpa [isPlain] using h.1
    rw [normalize, ih h.2]
    · simp [hReturn, hFeed, hNull]
    · intro more hEq
      exact absurd hEq hReturn

/-- A text that is read as the given lexemes before any stop, and is written as it stands. -/
structure Spells [Surrogates] (s : List Char) (ls : List Lexeme) : Prop where
  plain : s.all isPlain = true
  reads : Reads s ls
  balanced : balanced [] ls = true
  written : writtenAfter none (formed ls) = s

instance [Surrogates] (s : List Char) (ls : List Lexeme) : Decidable (Reads s ls) :=
  inferInstanceAs (Decidable (_ = _))

instance [Surrogates] (s : List Char) (ls : List Lexeme) : Decidable (Spells s ls) :=
  decidable_of_iff (s.all isPlain = true ∧ Reads s ls ∧ balanced [] ls = true ∧
      writtenAfter none (formed ls) = s)
    ⟨fun ⟨hPlain, hReads, hBalanced, hWritten⟩ => ⟨hPlain, hReads, hBalanced, hWritten⟩,
      fun h => ⟨h.plain, h.reads, h.balanced, h.written⟩⟩

namespace Spells

variable {s s' : List Char} {ls ls' : List Lexeme}

/-- What is spelled does not run into a comma behind it. -/
theorem gapText_comma [Surrogates] (h : Spells s ls) :
    gapText (lastEdge none (formed ls)) (.lexeme 0 (.sign [','])) = [] := by
  cases hLast : lastEdge none (formed ls) with
  | none => rfl
  | some edge =>
    refine gapText_eq_nil (runsInto_comma edge) ?_
    rintro rfl
    by_cases hLs : ls = []
    · rw [hLs] at hLast
      cases hLast
    · exact h.reads.getLast?_ne_backslash
        (@getLast?_of_lastEdge_nest ls [] h.balanced hLs [] _ hLast)

theorem balanced_comma [Surrogates] (h : Spells s ls) (h' : Spells s' ls') :
    Css.balanced [] (ls ++ .sign [','] :: .blank [' '] :: ls') = true :=
  (balanced_append h.balanced []).trans h'.balanced

theorem formed_comma [Surrogates] (h : Spells s ls) (h' : Spells s' ls') :
    formed (ls ++ .sign [','] :: .blank [' '] :: ls') =
      formed ls ++ .lexeme 0 (.sign [',']) :: .lexeme 0 (.blank [' ']) :: formed ls' := by
  have hBlank : Css.balanced [] (.blank [' '] :: ls') = true := h'.balanced
  have hComma : Css.balanced [] (.sign [','] :: .blank [' '] :: ls') = true := h'.balanced
  rw [formed_append h.balanced hComma, formed_cons rfl hBlank, formed_cons rfl h'.balanced]

/-- Spelled texts can be listed with a comma and a blank between them. -/
theorem comma [Surrogates] (h : Spells s ls) (h' : Spells s' ls')
    (hStart : ∀ c ∈ s'.head?, isBlank c = false) :
    Spells (s ++ ',' :: ' ' :: s') (ls ++ .sign [','] :: .blank [' '] :: ls') where
  plain := by
    rw [List.all_append, h.plain]
    exact h'.plain
  reads := h.reads.append rfl (h'.reads.space hStart)
  balanced := h.balanced_comma h'
  written := by
    have hBlank : gapText (some (.sign [','])) (.lexeme 0 (.blank [' '])) = [] :=
      gapText_eq_nil rfl (by decide)
    have hRest : writtenAfter (some .other) (formed ls') = s' := by
      rw [writtenAfter_blank, h'.written]
    rw [h.formed_comma h', writtenAfter_append, h.written, writtenAfter, h.gapText_comma,
      writtenAfter]
    change s ++ ([] ++ [','] ++ (gapText (some (.sign [','])) (.lexeme 0 (.blank [' '])) ++ [' '] ++
      writtenAfter (some .other) (formed ls'))) = _
    rw [hBlank, hRest]
    rfl

end Spells

/-! ## Blocks -/

variable {head block : List Char} {hs bs ls : List Lexeme}

theorem lexemes_block [Surrogates] (hHead : Reads head hs) (hBlock : Reads block bs) (rest : List Char) :
    lexemes (head ++ '{' :: (block ++ '}' :: rest)) =
      hs ++ .opening '{' :: (bs ++ .closing '}' :: lexemes rest) := by
  rw [hHead.before_stop rfl, hBlock.before_stop rfl]
  rfl

theorem balanced_headed_block (hHead : balanced [] hs = true) (hBlock : balanced [] bs = true)
    (h : balanced [] ls = true) :
    balanced [] (hs ++ .opening '{' :: (bs ++ .closing '}' :: ls)) = true :=
  (balanced_append hHead []).trans (balanced_block hBlock h)

theorem formed_headed_block (hHead : balanced [] hs = true) (hBlock : balanced [] bs = true)
    (h : balanced [] ls = true) :
    formed (hs ++ .opening '{' :: (bs ++ .closing '}' :: ls)) =
      formed hs ++ .block 0 .curly (formed bs) :: formed ls := by
  have hAlone : balanced [] (.opening '{' :: bs ++ [.closing '}']) = true :=
    balanced_block hBlock rfl
  have hSplit : Lexeme.opening '{' :: (bs ++ .closing '}' :: ls) =
      (.opening '{' :: bs ++ [.closing '}']) ++ ls := by simp
  rw [hSplit, formed_append hHead ((balanced_append hAlone []).trans h), formed_append hAlone h,
    formed_block hBlock]
  rfl

end StyleSieve.Css
