import StyleSieve.Proofs.Css.Spaced

/-!
# Rows that are read again where they are written

The lexemes of a part of a text leave each other alone once the comments of `spaced` stand between
them, apart from a few neighbours that nothing keeps apart.

* `isTame`: rows without flaws and without these neighbours.
* `IsPart`: tame parts of a text.
* `spells_spaced`: what is written of tame components of a text spells their lexemes.
-/

namespace StyleSieve.Css

open Text

variable {l : Lexeme} {ls tail : List Lexeme} {cs : List Component} {before : Option Edge}

/-- Nothing becomes a range of code points or a mark of markup with the lexemes behind it. -/
def Lexeme.keepsApart (l : Lexeme) (ls : List Lexeme) : Bool :=
  match l with
  | .name value => StaysName value ls
  | .sign ['<'] => !startsMarkup ls
  | _ => true

/-- Rows of lexemes that are read again where they are written. -/
def isTame : List Lexeme → Bool
  | [] => true
  | l :: ls => l.isRegular && l.keepsApart ls && isTame ls

/-- The lexemes are sound and leave each other alone. -/
def Stand (tail : List Lexeme) : List Lexeme → Prop
  | [] => True
  | l :: ls => l.IsSound ∧ l.EndsBefore (ls ++ tail) ∧ Stand tail ls

theorem lexemes_of_stand [Surrogates] {r : List Char} (h : Stand (lexemes r) ls) :
    lexemes (ls.flatMap Lexeme.written ++ r) = ls ++ lexemes r := by
  induction ls with
  | nil => rfl
  | cons l ls ih =>
    have hRest := ih h.2.2
    rw [List.flatMap_cons, List.append_assoc, lexemes_written h.1 (by rw [hRest]; exact h.2.1), hRest]
    rfl

/-- What holds of a comma, of a comment and of what does not run together with the neighbour in front
holds of what comes first in a spaced row. -/
theorem forall_head?_spaced {p : Lexeme → Prop} (hComma : p (.sign [','])) (hComment : p (.comment []))
    (hNext : ∀ next more, ls = next :: more → (∀ e ∈ before, e.runsInto next.ahead = false) →
      p next.lowered) :
    ∀ l' ∈ (spaced before ls ++ [Lexeme.sign [',']]).head?, p l' := by
  intro l' h
  cases ls with
  | nil =>
    cases h
    exact hComma
  | cons next more =>
    rw [spaced] at h
    unfold gapBetween at h
    split at h
    · cases h
      exact hComment
    · rename_i hRuns
      cases h
      refine hNext next more rfl fun e he => ?_
      rw [Option.mem_def.mp he, Option.any_some] at hRuns
      exact Bool.eq_false_iff.mpr hRuns

/-! ## Neighbours that nothing is put between -/

section Neighbours

variable {a : Edge} {next : Lexeme}

theorem not_isWord (hRegular : next.isRegular = true) (hWord : next.ahead.startsWord = false)
    (hRange : next.ahead ≠ .codeRange) (hMarkup : next ≠ .sign markupEnd) :
    next.lowered.isWord = false := by
  cases next with
  | name => cases hWord
  | function => cases hWord
  | url => cases hWord
  | codeRange => exact absurd rfl hRange
  | sign t =>
    change Lexeme.isWord (.sign t) = false
    unfold Lexeme.isWord
    split
    all_goals
      rename_i hSame
      first
      | rfl
      | exact absurd hSame hMarkup
      | cases hSame
  | flaw => cases hRegular
  | _ => rfl

theorem not_isNumeric (h : next.ahead.startsNumber = false) : next.lowered.isNumeric = false := by
  cases next with
  | number => cases h
  | percentage => cases h
  | dimension => cases h
  | _ => rfl

theorem not_continuesName (hWord : next.lowered.isWord = false) (hNumeric : next.lowered.isNumeric = false)
    (hHyphen : next ≠ .sign ['-']) : next.lowered.continuesName = false := by
  rw [Lexeme.continuesName, hWord, hNumeric, Bool.or_self, Bool.false_or, beq_eq_false_iff_ne]
  intro hSame
  cases next <;> first | exact hHyphen hSame | cases hSame

/-- Nothing goes on with a name where the neighbours need no comment. -/
theorem not_continuesName_of_runsInto (ha : a = .name ∨ a = .atName ∨ a = .hash ∨ a = .dimension)
    (hRuns : a.runsInto next.ahead = false) (hRegular : next.isRegular = true) :
    next.lowered.continuesName = false := by
  have hEdge : next.ahead.startsWord = false ∧ next.ahead.startsNumber = false ∧
      next.ahead ≠ .codeRange ∧ next.ahead ≠ .sign ['-'] ∧ next.ahead ≠ .sign markupEnd := by
    rcases ha with rfl | rfl | rfl | rfl <;> simp [Edge.runsInto, and_assoc] at hRuns <;>
      simp [hRuns, markupEnd]
  obtain ⟨hWord, hNumber, hRange, hHyphen, hMarkup⟩ := hEdge
  refine not_continuesName (not_isWord hRegular hWord hRange ?_) (not_isNumeric hNumber) ?_
  · rintro rfl
    exact hMarkup rfl
  · rintro rfl
    exact hHyphen rfl

end Neighbours

theorem startsRange_lowered (l : Lexeme) : l.lowered.startsRange = l.startsRange := by
  cases l <;> rfl

theorem lowered_eq_sign {t : List Char} (h : l.lowered = .sign t) : l = .sign t := by
  cases l <;> first | exact h | cases h

theorem not_equals_of_runsInto {a : Edge} {next : Lexeme}
    (ha : a ∈ [Edge.sign ['~'], .sign ['^'], .sign ['$'], .sign ['*']])
    (hRuns : a.runsInto next.ahead = false) : next.lowered ≠ .sign ['='] := by
  intro hSame
  rw [lowered_eq_sign hSame] at hRuns
  simp only [List.mem_cons, List.not_mem_nil, or_false] at ha
  rcases ha with rfl | rfl | rfl | rfl <;> cases hRuns

/-- A spaced row starts with a comma, a comment or its first lexeme. -/
theorem spaced_eq_cons {x : Lexeme} {xs : List Lexeme}
    (h : spaced before ls ++ [Lexeme.sign [',']] = x :: xs) :
    x = .sign [','] ∨ x = .comment [] ∨
      ∃ next more, ls = next :: more ∧ x = next.lowered ∧
        xs = spaced next.behind more ++ [.sign [',']] := by
  cases ls with
  | nil =>
    cases h
    exact Or.inl rfl
  | cons next more =>
    rw [spaced] at h
    unfold gapBetween at h
    split at h
    · cases h
      exact Or.inr (Or.inl rfl)
    · cases h
      exact Or.inr (Or.inr ⟨next, more, rfl, rfl, rfl⟩)

/-- A spaced row that starts with a sign other than a comma. -/
theorem spaced_eq_sign_cons {t : List Char} {xs : List Lexeme} (ht : t ≠ [','])
    (h : spaced before ls ++ [Lexeme.sign [',']] = .sign t :: xs) :
    ∃ more, ls = .sign t :: more ∧ xs = spaced (some (.sign t)) more ++ [.sign [',']] := by
  rcases spaced_eq_cons h with hComma | hComment | ⟨next, more, rfl, hNext, rfl⟩
  · cases hComma
    exact absurd rfl ht
  · cases hComment
  · rw [lowered_eq_sign hNext.symm]
    exact ⟨more, rfl, rfl⟩

theorem staysName_spaced {value : List Char} (h : StaysName value ls = true) :
    StaysName value (spaced before ls ++ [.sign [',']]) = true := by
  unfold StaysName
  split
  · rename_i l rest hRow
    obtain ⟨more, rfl, hMore⟩ := spaced_eq_sign_cons (by decide) hRow
    rcases spaced_eq_cons hMore.symm with rfl | rfl | ⟨next, more, rfl, rfl, -⟩
    · rw [Bool.not_eq_true', Bool.and_eq_false_imp]
      exact fun _ => rfl
    · rw [Bool.not_eq_true', Bool.and_eq_false_imp]
      exact fun _ => rfl
    · rw [startsRange_lowered]
      exact h
  · rename_i hRow
    obtain ⟨more, rfl, -⟩ := spaced_eq_sign_cons (by decide) hRow
    exact h
  · rfl

theorem startsMarkup_spaced (h : startsMarkup ls = false) :
    startsMarkup (spaced before ls ++ [.sign [',']]) = false := by
  unfold startsMarkup
  split
  · rename_i l rest hRow
    obtain ⟨more, rfl, hMore⟩ := spaced_eq_sign_cons (by decide) hRow
    rcases spaced_eq_cons hMore.symm with rfl | rfl | ⟨next, more, rfl, rfl, -⟩
    · rfl
    · rfl
    · have hValue : next.lowered.nameValue = next.nameValue := by cases next <;> rfl
      have hEnd : (next.lowered == .sign markupEnd) = (next == .sign markupEnd) := by cases next <;> rfl
      rw [hValue, hEnd]
      exact h
  · rfl

theorem StartsWithString.spaced {value : List Char} {stack : List Bracket}
    (h : StartsWithString (ls ++ tail)) (hBalanced : balanced stack (.function value :: ls) = true) :
    StartsWithString (spaced none ls ++ [.sign [',']]) := by
  change balanced (.round :: stack) ls = true at hBalanced
  cases ls with
  | nil => cases hBalanced
  | cons l more =>
    change StartsWithString (l.lowered :: (Css.spaced l.behind more ++ [.sign [',']]))
    cases hQuoted : l.isQuoted with
    | true =>
      refine startsWithString_cons ?_ _
      cases l <;> exact hQuoted
    | false =>
      cases l with
      | blank t =>
        cases more with
        | nil => cases hBalanced
        | cons l' more =>
          have hSecond : l'.lowered.isQuoted = true := by
            have hIs : l'.isQuoted = true := h
            cases l' <;> exact hIs
          exact hSecond
      | _ =>
        have hIs : Lexeme.isQuoted _ = true := h
        rw [hQuoted] at hIs
        cases hIs

/-- A name sign and a hyphen go on with names and numbers. -/
theorem not_continuesName_of_sign {c : Char} {next : Lexeme} (hSign : c ∈ ['#', '-'])
    (hRuns : (Edge.sign [c]).runsInto next.ahead = false) (hRegular : next.isRegular = true)
    (hStranger : ∀ t ∈ (Lexeme.sign [c]).strangers, next ≠ .sign t) :
    next.lowered.continuesName = false := by
  simp only [List.mem_cons, List.not_mem_nil, or_false] at hSign
  have hEdge : next.ahead.startsWord = false ∧ next.ahead.startsNumber = false ∧
      next.ahead ≠ .codeRange := by
    rcases hSign with rfl | rfl <;> simpa [Edge.runsInto, and_assoc] using hRuns
  have hApart : next ≠ .sign markupEnd ∧ next ≠ .sign ['-'] := by
    rcases hSign with rfl | rfl <;>
      exact ⟨hStranger _ (List.mem_cons_of_mem _ List.mem_cons_self), hStranger _ List.mem_cons_self⟩
  exact not_continuesName (not_isWord hRegular hEdge.1 hEdge.2.2 hApart.1) (not_isNumeric hEdge.2.1) hApart.2

/-- A plus and a point go on with numbers. -/
theorem not_isNumeric_of_sign {c : Char} {next : Lexeme} (hSign : c ∈ ['+', '.'])
    (hRuns : (Edge.sign [c]).runsInto next.ahead = false) : next.lowered.isNumeric = false := by
  simp only [List.mem_cons, List.not_mem_nil, or_false] at hSign
  refine not_isNumeric ?_
  rcases hSign with rfl | rfl <;> simpa [Edge.runsInto] using hRuns

/-- A sign leaves what is written behind it alone. -/
theorem signEnds_spaced {c : Char} (hRegular : ∀ next ∈ ls.head?, next.isRegular = true)
    (hAdmits : (Lexeme.sign [c]).Admits (ls ++ tail)) (hApart : (Lexeme.sign [c]).keepsApart ls = true)
    (hLast : Lexeme.sign [c] = .sign ['\\'] → ls ≠ []) :
    Lexeme.signEnds c (spaced (some (.sign [c])) ls ++ [.sign [',']]) := by
  have hStranger : ∀ {next more}, ls = next :: more →
      ∀ t ∈ (Lexeme.sign [c]).strangers, next ≠ .sign t := by
    rintro next more rfl t ht rfl
    exact hAdmits.signs t ht rfl
  unfold Lexeme.signEnds
  split
  · refine forall_head?_spaced rfl rfl fun next more hLs hRuns => ?_
    have hEdge : next.ahead.startsWord = false ∧ next.ahead ≠ .codeRange ∧
        next.ahead ≠ .sign ['-'] := by
      simpa [Edge.runsInto, and_assoc] using hRuns _ rfl
    exact not_isWord (hRegular next (by rw [hLs]; rfl)) hEdge.1 hEdge.2.1 (hStranger hLs _ List.mem_cons_self)
  · exact forall_head?_spaced rfl rfl fun next more hLs hRuns =>
      not_continuesName_of_sign (by decide) (hRuns _ rfl) (hRegular next (by rw [hLs]; rfl)) (hStranger hLs)
  · exact forall_head?_spaced rfl rfl fun next more hLs hRuns =>
      not_continuesName_of_sign (by decide) (hRuns _ rfl) (hRegular next (by rw [hLs]; rfl)) (hStranger hLs)
  · exact forall_head?_spaced rfl rfl fun next more hLs hRuns =>
      not_isNumeric_of_sign (by decide) (hRuns _ rfl)
  · exact forall_head?_spaced rfl rfl fun next more hLs hRuns =>
      not_isNumeric_of_sign (by decide) (hRuns _ rfl)
  · refine forall_head?_spaced (by decide) (by decide) fun next more hLs hRuns hMem => ?_
    have hEdge : next.ahead ≠ .sign ['='] ∧ next.ahead ≠ .sign ['|'] := by
      simpa [Edge.runsInto] using hRuns _ rfl
    simp only [List.mem_cons, List.not_mem_nil, or_false] at hMem
    rcases hMem with hSame | hSame | hSame | hSame
    · exact hEdge.2 (by rw [lowered_eq_sign hSame]; rfl)
    · exact hStranger hLs _ List.mem_cons_self (lowered_eq_sign hSame)
    · exact hStranger hLs _ (List.mem_cons_of_mem _ List.mem_cons_self) (lowered_eq_sign hSame)
    · exact hEdge.1 (by rw [lowered_eq_sign hSame]; rfl)
  · exact forall_head?_spaced (by decide) (by decide) fun _ _ _ hRuns =>
      not_equals_of_runsInto (by decide) (hRuns _ rfl)
  · exact forall_head?_spaced (by decide) (by decide) fun _ _ _ hRuns =>
      not_equals_of_runsInto (by decide) (hRuns _ rfl)
  · exact forall_head?_spaced (by decide) (by decide) fun _ _ _ hRuns =>
      not_equals_of_runsInto (by decide) (hRuns _ rfl)
  · exact forall_head?_spaced (by decide) (by decide) fun _ _ _ hRuns =>
      not_equals_of_runsInto (by decide) (hRuns _ rfl)
  · refine forall_head?_spaced (by decide) (by decide) fun next more hLs hRuns hMem => ?_
    have hEdge : next.ahead ≠ .sign ['*'] := by
      simpa [Edge.runsInto] using hRuns _ rfl
    simp only [List.mem_cons, List.not_mem_nil, or_false] at hMem
    rcases hMem with hSame | hSame
    · exact hEdge (by rw [lowered_eq_sign hSame]; rfl)
    · exact hStranger hLs _ List.mem_cons_self (lowered_eq_sign hSame)
  · exact startsMarkup_spaced (by simpa [Lexeme.keepsApart] using hApart)
  · obtain ⟨t, more, hBlank⟩ := hAdmits.lineEnd rfl
    obtain ⟨next, rest, rfl⟩ := List.exists_cons_of_ne_nil (hLast rfl)
    obtain ⟨rfl, -⟩ := List.cons.inj hBlank
    exact ⟨t, _, rfl⟩
  · trivial

/-- A lexeme leaves what is written behind it alone. -/
theorem endsBefore_spaced {stack : List Bracket} (hRegular : ∀ next ∈ ls.head?, next.isRegular = true)
    (hAdmits : l.Admits (ls ++ tail)) (hApart : l.keepsApart ls = true)
    (hBalanced : balanced stack (l :: ls) = true)
    (hLast : l = .sign ['\\'] → ls ≠ []) :
    l.lowered.EndsBefore (spaced l.behind ls ++ [.sign [',']]) := by
  have hStranger : ∀ {next more}, ls = next :: more → ∀ t ∈ l.strangers, next ≠ .sign t := by
    rintro next more rfl t ht rfl
    exact hAdmits.signs t ht rfl
  cases l with
  | blank t =>
    refine forall_head?_spaced rfl rfl fun next more hLs hRuns => ?_
    have hGap := hAdmits.gaps rfl next (by rw [hLs]; rfl)
    cases next <;> first | rfl | cases hGap
  | comment t => trivial
  | sign t =>
    rcases t with _ | ⟨c, _ | ⟨d, t⟩⟩
    · trivial
    · exact signEnds_spaced hRegular hAdmits hApart hLast
    · trivial
  | name v =>
    refine ⟨?_, staysName_spaced hApart⟩
    refine forall_head?_spaced (by decide) (by decide) fun next more hLs hRuns => ?_
    have hName := hRegular next (by rw [hLs]; rfl)
    refine ⟨not_continuesName_of_runsInto (Or.inl rfl) (hRuns _ rfl) hName, ?_⟩
    intro hSame
    have hRound : Edge.name.runsInto next.ahead = false := hRuns _ rfl
    cases next <;> first | (cases hSame; cases hRound) | cases hSame
  | atName v =>
    exact forall_head?_spaced rfl rfl fun next more hLs hRuns =>
      not_continuesName_of_runsInto (Or.inr (Or.inl rfl)) (hRuns _ rfl) (hRegular next (by rw [hLs]; rfl))
  | hash v alone =>
    exact forall_head?_spaced rfl rfl fun next more hLs hRuns =>
      not_continuesName_of_runsInto (Or.inr (Or.inr (Or.inl rfl))) (hRuns _ rfl)
        (hRegular next (by rw [hLs]; rfl))
  | text t => trivial
  | url t => trivial
  | codeRange first last =>
    refine forall_head?_spaced (by decide) (by decide) fun next more hLs hRuns => ?_
    have hEdge : next.ahead.startsNumber = false ∧ next.ahead ≠ .name ∧ next.ahead ≠ .function ∧
        next.ahead ≠ .sign ['?'] := by
      have hRun : Edge.codeRange.runsInto next.ahead = false := hRuns _ rfl
      simpa [Edge.runsInto, and_assoc] using hRun
    refine ⟨not_isNumeric hEdge.1, ?_, ?_⟩
    · cases next <;> first | rfl | exact absurd rfl hEdge.2.1 | exact absurd rfl hEdge.2.2.1
    · intro hSame
      cases next <;> first | (cases hSame; exact hEdge.2.2.2 rfl) | cases hSame
  | number digits =>
    refine forall_head?_spaced (by decide) (by decide) fun next more hLs hRuns => ?_
    have hEdge : next.ahead.startsWord = false ∧ next.ahead.startsNumber = false ∧
        next.ahead ≠ .codeRange := by
      have hRun : Edge.number.runsInto next.ahead = false := hRuns _ rfl
      simpa [Edge.runsInto, and_assoc] using hRun
    have hMarkup := hStranger hLs markupEnd (by simp [Lexeme.strangers])
    refine ⟨not_isWord (hRegular next (by rw [hLs]; rfl)) hEdge.1 hEdge.2.2 hMarkup,
      not_isNumeric hEdge.2.1, fun hSame => hStranger hLs ['%'] (by simp [Lexeme.strangers]) ?_⟩
    cases next <;> first | exact hSame | cases hSame
  | percentage digits => trivial
  | dimension digits unit =>
    exact forall_head?_spaced rfl rfl fun next more hLs hRuns =>
      not_continuesName_of_runsInto (Or.inr (Or.inr (Or.inr rfl))) (hRuns _ rfl)
        (hRegular next (by rw [hLs]; rfl))
  | function v => exact fun hUrl => (hAdmits.quoted v rfl hUrl).spaced hBalanced
  | opening c => trivial
  | closing c => trivial
  | flaw kind => trivial

/-! ## Whole rows -/

theorem balanced_tail {stack : List Bracket} (h : balanced stack (l :: ls) = true) :
    ∃ stack', balanced stack' ls = true := by
  cases l with
  | function name => exact ⟨_, h⟩
  | opening c => exact ⟨_, h⟩
  | closing c =>
    cases stack with
    | nil => cases h
    | cons top outer =>
      rw [balanced, Bool.and_eq_true] at h
      exact ⟨_, h.2⟩
  | _ => exact ⟨_, h⟩

/-- A tame part of a text, in front of something that is no flaw. -/
structure IsPart (ls tail : List Lexeme) : Prop where
  grown : IsGrown (ls ++ tail)
  tame : isTame ls = true
  tail : ∀ l ∈ tail.head?, l.isFlaw = false
  last : ls.getLast? ≠ some (.sign ['\\'])

namespace IsPart

theorem regular_head (h : IsPart ls tail) : ∀ l ∈ ls.head?, l.isRegular = true := by
  intro l hl
  have hTame := h.tame
  cases ls with
  | nil => cases hl
  | cons first rest =>
    cases hl
    rw [isTame, Bool.and_eq_true, Bool.and_eq_true] at hTame
    exact hTame.1.1

theorem rest (h : IsPart (l :: ls) tail) : IsPart ls tail where
  grown := h.grown.2
  tame := by
    have hTame := h.tame
    rw [isTame, Bool.and_eq_true] at hTame
    exact hTame.2
  tail := h.tail
  last hLast := by
    refine h.last ?_
    rw [List.getLast?_cons_of_ne_nil ?_, hLast]
    rintro rfl
    cases hLast

theorem first (h : IsPart (l :: ls) tail) :
    l.isRegular = true ∧ l.keepsApart ls = true ∧ l.Grows (ls ++ tail) := by
  have hTame := h.tame
  rw [isTame, Bool.and_eq_true, Bool.and_eq_true] at hTame
  refine ⟨hTame.1.1, hTame.1.2, h.grown.1 (isFlaw_of_regular hTame.1.1) fun next hNext => ?_⟩
  cases ls with
  | nil => exact h.tail next hNext
  | cons second rest =>
    cases hNext
    exact isFlaw_of_regular (h.rest.regular_head _ rfl)

theorem endsLine (h : IsPart (l :: ls) tail) : EndsLine l ls := by
  rintro rfl
  obtain ⟨t, more, hBlank⟩ := h.first.2.2.admits.lineEnd rfl
  cases ls with
  | nil => exact absurd rfl h.last
  | cons next rest =>
    obtain ⟨rfl, -⟩ := List.cons.inj hBlank
    exact ⟨t, _, rfl⟩

theorem isFlawless (h : IsPart ls tail) : isFlawless ls = true := by
  induction ls with
  | nil => rfl
  | cons l ls ih =>
    have hRest := ih h.rest
    rw [Css.isFlawless] at hRest ⊢
    rw [List.all_cons, hRest, isFlaw_of_regular h.first.1]
    rfl

theorem endsLines (h : IsPart ls tail) : Everywhere EndsLine ls := by
  induction ls with
  | nil => trivial
  | cons l ls ih => exact ⟨h.endsLine, ih h.rest⟩

theorem isPlain (h : IsPart ls tail) (before : Option Edge) :
    ((spaced before ls).flatMap Lexeme.written).all isPlain = true := by
  induction ls generalizing before with
  | nil => rfl
  | cons l ls ih =>
    have hGap : ((gapBetween before l.ahead).flatMap Lexeme.written).all Css.isPlain = true := by
      unfold gapBetween
      split <;> rfl
    rw [spaced, List.flatMap_append, List.flatMap_cons, List.all_append, List.all_append, hGap, ih h.rest,
      written_lowered, h.first.2.2.plain]
    rfl

/-- The lexemes of a part stand where they are written with the comments. -/
theorem stand (h : IsPart ls tail) {stack : List Bracket} (hBalanced : balanced stack ls = true)
    (before : Option Edge) : Stand [.sign [',']] (spaced before ls) := by
  induction ls generalizing before stack with
  | nil => trivial
  | cons l ls ih =>
    obtain ⟨hRegular, hApart, hGrows⟩ := h.first
    obtain ⟨stack', hRest⟩ := balanced_tail hBalanced
    have hLast : l = .sign ['\\'] → ls ≠ [] := by
      rintro rfl rfl
      exact h.last rfl
    have hLexeme : Stand [.sign [',']] (l.lowered :: spaced l.behind ls) :=
      ⟨hGrows.sound hRegular, endsBefore_spaced h.rest.regular_head hGrows.admits hApart hBalanced hLast,
        ih h.rest hRest _⟩
    rw [spaced]
    unfold gapBetween
    split
    · exact ⟨rfl, trivial, hLexeme⟩
    · exact hLexeme

end IsPart

/-- What is written of components of a text spells their lexemes with the comments. -/
theorem spells_spaced [Surrogates] (hWhole : allWhole cs = true) (h : IsPart (flatAll cs) tail) :
    Spells (writtenAfter none cs) (spaced none (flatAll cs)) := by
  have hText : (spaced none (flatAll cs)).flatMap Lexeme.written = writtenAfter none cs := by
    rw [← flatAll_spacedAfter none hWhole]
    refine text_spacedAfter none cs [] h.isFlawless ?_ (by simp)
    rw [List.append_nil]
    exact h.endsLines
  have hSpaced := flatAll_spacedAfter none hWhole
  have hComma : lexemes [','] = [.sign [',']] := by rw [lexemes_comma, lexemes_nil]
  have hStand := h.stand (balanced_flatAll cs hWhole) none
  constructor
  · rw [← hText]
    exact h.isPlain none
  · rw [← hComma] at hStand
    rw [Reads, ← hText, lexemes_of_stand hStand, hComma]
  · rw [← hSpaced]
    exact balanced_flatAll _ (allWhole_spacedAfter none cs hWhole)
  · rw [← hSpaced, formed_flatAll _ (allWhole_spacedAfter none cs hWhole), writtenAfter_unplacedAll,
      writtenAfter_spacedAfter none cs hWhole h.isFlawless]

end StyleSieve.Css
