import Mathlib.Data.List.DropRight
import StyleSieve.Proofs.Css.Tame
import StyleSieve.Proofs.Stylesheet.Found
import StyleSieve.Proofs.Stylesheet.Steady

/-!
# The selectors of a rule as entries of a list

What is written of a part of the prelude of a rule is read as this part again, with a comment wherever
one is written between neighbours.

* `core`: a part without the blanks around it.
* `IsFirm`: parts that are read again, decided by their lexemes.
* `isEntry_of_isFirm`: the selector of a firm part is an entry of a list.
-/

namespace StyleSieve.Stylesheet

open Css

variable {part current cs : List Component} {ls : List Lexeme} {f : FoundRule}

/-- A blank between components. -/
def isGapComponent : Component → Bool
  | .lexeme _ (.blank _) => true
  | _ => false

/-- A part of a list without the blanks around it. -/
def core (part : List Component) : List Component :=
  (part.dropWhile isGapComponent).rdropWhile isGapComponent

/-- The lexemes of a part are read again where they are written, and trimming takes the blanks around
them and nothing else. -/
structure IsFirm (part : List Component) : Prop where
  tame : isTame (flatAll (core part)) = true
  trimmed : Text.trim (written part) = written (core part)
  last : (flatAll (core part)).getLast? ≠ some (.sign ['\\'])

instance : DecidablePred IsFirm := fun part =>
  decidable_of_iff (isTame (flatAll (core part)) = true ∧
      Text.trim (written part) = written (core part) ∧
      (flatAll (core part)).getLast? ≠ some (.sign ['\\']))
    ⟨fun ⟨hTame, hTrimmed, hLast⟩ => ⟨hTame, hTrimmed, hLast⟩, fun h => ⟨h.tame, h.trimmed, h.last⟩⟩

/-! ## Parts in their list -/

theorem exists_gaps (part : List Component) :
    ∃ lead gap, part = lead ++ (core part ++ gap) ∧ ∀ c ∈ gap, isGapComponent c = true := by
  refine ⟨part.takeWhile isGapComponent, (part.dropWhile isGapComponent).rtakeWhile isGapComponent, ?_,
    fun c hc => List.mem_rtakeWhile_imp hc⟩
  rw [core, List.rdropWhile_append_rtakeWhile, List.takeWhile_append_dropWhile]

/-- A part stands in its list, in front of a comma unless the list ends there. -/
theorem exists_of_mem_splitAtCommas (h : part ∈ splitAtCommas current cs) :
    ∃ front behind, current.reverse ++ cs = front ++ (part ++ behind) ∧
      ∀ c ∈ behind.head?, c.edge = .sign [','] := by
  induction cs generalizing current with
  | nil =>
    rw [splitAtCommas, List.mem_singleton] at h
    exact ⟨[], [], by rw [h]; simp, by simp⟩
  | cons c rest ih =>
    rw [splitAtCommas] at h
    split at h
    · rename_i hComma
      rcases List.mem_cons.mp h with rfl | h
      · refine ⟨[], c :: rest, rfl, fun d hd => ?_⟩
        cases hd
        exact eq_of_beq hComma
      · obtain ⟨front, behind, hRest, hBehind⟩ := ih h
        refine ⟨current.reverse ++ c :: front, behind, ?_, hBehind⟩
        rw [List.reverse_nil, List.nil_append] at hRest
        rw [hRest]
        simp
    · obtain ⟨front, behind, hRest, hBehind⟩ := ih h
      refine ⟨front, behind, ?_, hBehind⟩
      rw [← hRest]
      simp

/-- The core of a part stands in its list, in front of a blank or a comma unless the list ends there. -/
theorem exists_core (h : part ∈ splitAtCommas [] cs) :
    ∃ front behind, cs = front ++ (core part ++ behind) ∧
      ∀ c ∈ behind.head?, isGapComponent c = true ∨ c.edge = .sign [','] := by
  obtain ⟨lead, gap, hCore, hGap⟩ := exists_gaps part
  obtain ⟨front, behind, hList, hComma⟩ := exists_of_mem_splitAtCommas h
  rw [List.reverse_nil, List.nil_append] at hList
  refine ⟨front ++ lead, gap ++ behind, ?_, fun c hc => ?_⟩
  · rw [hList]
    nth_rewrite 1 [hCore]
    simp
  · cases gap with
    | nil => exact Or.inr (hComma c hc)
    | cons d gap =>
      cases hc
      exact Or.inl (hGap _ List.mem_cons_self)

theorem edge_ne_of_mem_splitAtCommas (hCurrent : ∀ c ∈ current, c.edge ≠ .sign [','])
    (h : part ∈ splitAtCommas current cs) : ∀ c ∈ part, c.edge ≠ .sign [','] := by
  induction cs generalizing current with
  | nil =>
    rw [splitAtCommas, List.mem_singleton] at h
    rw [h]
    exact fun c hc => hCurrent c (List.mem_reverse.mp hc)
  | cons c rest ih =>
    rw [splitAtCommas] at h
    split at h
    · rcases List.mem_cons.mp h with rfl | h
      · exact fun c hc => hCurrent c (List.mem_reverse.mp hc)
      · exact ih (List.forall_mem_nil _) h
    · rename_i hOther
      refine ih (fun d hd => ?_) h
      rcases List.mem_cons.mp hd with rfl | hd
      · exact fun hComma => hOther (beq_iff_eq.mpr hComma)
      · exact hCurrent d hd

theorem mem_of_mem_core {c : Component} (h : c ∈ core part) : c ∈ part :=
  (List.dropWhile_suffix _).subset ((List.rdropWhile_prefix _ _).subset h)

/-- A blank or a comma is no flaw. -/
theorem exists_flat_of_gap_or_comma {c : Component} (h : isGapComponent c = true ∨ c.edge = .sign [',']) :
    ∃ l, c.flat = [l] ∧ l.isFlaw = false := by
  cases c with
  | lexeme n l => cases l <;> first | exact ⟨_, rfl, rfl⟩ | (rcases h with h | h <;> cases h)
  | function n name arguments => rcases h with h | h <;> cases h
  | block n bracket content => cases bracket <;> rcases h with h | h <;> cases h

/-- The core of a part is followed by a blank, a comma or the block of the rule. -/
theorem exists_tail (h : f.Stands ls) (hPart : part ∈ splitAtCommas [] f.prelude) :
    ∃ tail, flatAll (core part) ++ tail <:+ ls ∧ ∀ l ∈ tail.head?, l.isFlaw = false := by
  obtain ⟨front, behind, hPrelude, hBehind⟩ := exists_core hPart
  obtain ⟨before, after, hRow⟩ := h.row
  refine ⟨flatAll behind ++ .opening '{' :: (flatAll f.content ++ .closing '}' :: after), ?_, ?_⟩
  · refine ⟨before ++ flatAll front, ?_⟩
    rw [← hRow, hPrelude]
    simp [flatAll_append]
  · intro l hl
    cases behind with
    | nil =>
      cases hl
      rfl
    | cons c behind =>
      obtain ⟨first, hFirst, hFlaw⟩ := exists_flat_of_gap_or_comma (hBehind c rfl)
      rw [flatAll, hFirst] at hl
      cases hl
      exact hFlaw

/-! ## Parts and blocks that are read again -/

theorem isGrown_of_suffix {ls' : List Lexeme} (h : IsGrown ls') (hSuffix : ls <:+ ls') : IsGrown ls := by
  obtain ⟨front, rfl⟩ := hSuffix
  exact h.drop front

theorem exists_isPart_core (h : f.Stands ls) (hGrown : IsGrown ls)
    (hPart : part ∈ splitAtCommas [] f.prelude) (hFirm : IsFirm part) :
    ∃ tail, IsPart (flatAll (core part)) tail := by
  obtain ⟨tail, hSuffix, hTail⟩ := exists_tail h hPart
  exact ⟨tail, isGrown_of_suffix hGrown hSuffix, hFirm.tame, hTail, hFirm.last⟩

/-- Behind a backslash that is no escape a line ends, so it does not end a tame row in front of
something else. -/
theorem getLast?_ne_backslash {l : Lexeme} {tail : List Lexeme} (hGrown : IsGrown (ls ++ l :: tail))
    (hTame : isTame ls = true) (hFlaw : l.isFlaw = false) (hLine : ∀ t, l ≠ .blank ('\n' :: t)) :
    ls.getLast? ≠ some (.sign ['\\']) := by
  intro hLast
  obtain ⟨front, rfl⟩ := List.getLast?_eq_some_iff.mp hLast
  rw [List.append_assoc] at hGrown
  obtain ⟨t, more, hBlank⟩ := ((hGrown.drop front).1 rfl (by simpa using hFlaw)).admits.lineEnd rfl
  exact hLine t (List.cons.inj hBlank).1

theorem exists_isPart_content (h : f.Stands ls) (hGrown : IsGrown ls)
    (hTame : isTame (flatAll f.content) = true) : ∃ tail, IsPart (flatAll f.content) tail := by
  obtain ⟨before, after, hRow⟩ := h.row
  have hContent : IsGrown (flatAll f.content ++ .closing '}' :: after) := by
    refine isGrown_of_suffix hGrown ⟨before ++ flatAll f.prelude ++ [.opening '{'], ?_⟩
    rw [← hRow]
    simp
  exact ⟨_, hContent, hTame, by rintro l ⟨⟩; rfl, getLast?_ne_backslash hContent hTame rfl nofun⟩

/-! ## Spaced components -/

theorem mem_spacedAfter {before : Option Edge} {d : Component} (h : d ∈ spacedAfter before cs) :
    d = .lexeme 0 (.comment []) ∨ ∃ c ∈ cs, d = c.spaced := by
  induction cs generalizing before with
  | nil => cases h
  | cons c rest ih =>
    rw [spacedAfter, List.mem_append, List.mem_cons] at h
    rcases h with hGap | rfl | hRest
    · unfold gapBetween at hGap
      split at hGap
      · exact Or.inl (List.mem_singleton.mp hGap)
      · cases hGap
    · exact Or.inr ⟨c, List.mem_cons_self, rfl⟩
    · obtain hComment | ⟨c', hc', hSame⟩ := ih hRest
      · exact Or.inl hComment
      · exact Or.inr ⟨c', List.mem_cons_of_mem c hc', hSame⟩

theorem formed_spaced (hWhole : allWhole cs = true) :
    formed (spaced none (flatAll cs)) = (spacedAfter none cs).map Component.unplaced := by
  rw [← flatAll_spacedAfter none hWhole, formed_flatAll _ (allWhole_spacedAfter none cs hWhole),
    unplacedAll_eq_map]

/-- What holds of a comment and of components without lines holds of them with comments in between. -/
theorem forall_formed_spaced {p : Component → Prop} (hWhole : allWhole cs = true)
    (hComment : p (.lexeme 0 (.comment []))) (h : ∀ c ∈ cs, p c.spaced.unplaced) :
    ∀ c ∈ formed (spaced none (flatAll cs)), p c := by
  intro d hd
  rw [formed_spaced hWhole, List.mem_map] at hd
  obtain ⟨d, hd, rfl⟩ := hd
  obtain rfl | ⟨c, hc, rfl⟩ := mem_spacedAfter hd
  · exact hComment
  · exact h c hc

theorem isCurly_spaced (c : Component) : isCurly c.spaced = isCurly c := by
  cases c with
  | block n bracket content => cases bracket <;> rfl
  | _ => rfl

theorem startsRule_formed_spaced (hWhole : allWhole cs = true) :
    startsRule (formed (spaced none (flatAll cs))) = startsRule cs := by
  rw [formed_spaced hWhole]
  cases cs with
  | nil => rfl
  | cons c rest =>
    cases c with
    | lexeme n l => cases l <;> rfl
    | _ => rfl

theorem mem_prelude_of_mem_core (hPart : part ∈ splitAtCommas [] cs) {c : Component}
    (hc : c ∈ core part) : c ∈ cs := by
  obtain ⟨front, behind, hList, -⟩ := exists_core hPart
  rw [hList]
  simp [hc]

theorem allWhole_core (h : f.Stands ls) (hPart : part ∈ splitAtCommas [] f.prelude) :
    allWhole (core part) = true := by
  have hAll := h.prelude
  rw [allWhole_eq_all, List.all_eq_true] at hAll ⊢
  exact fun c hc => hAll c (mem_prelude_of_mem_core hPart hc)

/-- The selector of a firm part is an entry of a list. -/
theorem isEntry_of_isFirm [Surrogates] (h : f.Stands ls) (hGrown : IsGrown ls)
    (hPart : part ∈ splitAtCommas [] f.prelude) (hFirm : IsFirm part)
    (hSome : Text.trim (written part) ≠ "") :
    IsEntry (Text.trim (written part)).toList (spaced none (flatAll (core part))) := by
  obtain ⟨tail, hIsPart⟩ := exists_isPart_core h hGrown hPart hFirm
  have hWhole := allWhole_core h hPart
  have hText : (Text.trim (written part)).toList = writtenAfter none (core part) := by
    rw [hFirm.trimmed, written, String.toList_ofList]
  constructor
  · rw [hText]
    exact spells_spaced hWhole hIsPart
  · refine forall_formed_spaced hWhole rfl fun c hc => ?_
    rw [isCurly_unplaced, isCurly_spaced]
    exact h.flat c (mem_prelude_of_mem_core hPart hc)
  · refine forall_formed_spaced hWhole (by decide) fun c hc => ?_
    rw [edge_unplaced, edge_spaced]
    exact edge_ne_of_mem_splitAtCommas (List.forall_mem_nil _) hPart c (mem_of_mem_core hc)
  · rw [Text.trim, String.toList_ofList, Text.trimChars_of_isBare (Text.isBare_trimChars _)]
  · exact fun hNone => hSome (String.toList_eq_nil_iff.mp hNone)

end StyleSieve.Stylesheet
