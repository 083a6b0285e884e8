import StyleSieve.Proofs.Css.Stop

/-!
# Lexemes of joined texts

A text is read piece by piece if its pieces are joined by stops and none of them takes in the
stop behind it.

* `lexemes_cons`: the lexemes of a text are those at its front and those of the rest.
* `Reads.before_stop`: a piece that leaves a comma behind it alone is read in the same way
  before any stop.
* `Reads.append`: two such pieces with a stop between them are read one after the other.
-/

namespace StyleSieve.Css

variable [Surrogates]

/-! ## Lexemes without lines -/

/-- The lexemes of a normalized text. -/
def lexemes (cs : List Char) : List Lexeme := (scan 1 cs).map (·.2)

theorem scan_map_snd (line other : Nat) (cs : List Char) :
    (scan line cs).map (·.2) = (scan other cs).map (·.2) := by
  induction hLength : cs.length using Nat.strongRecOn generalizing cs line other with
  | ind n ih =>
    subst hLength
    cases cs with
    | nil => simp [scan]
    | cons c rest =>
      rw [scan, scan]
      dsimp only
      simp only [List.map_append, List.map_map]
      congr 1
      exact ih _ (by simp only [List.length_drop, List.length_cons]; omega) _ _ _ rfl

theorem lexemes_nil : lexemes [] = [] := by simp [lexemes, scan]

theorem lexemes_cons (c : Char) (rest : List Char) :
    lexemes (c :: rest) = (step c rest).1 ++ lexemes (rest.drop (step c rest).2) := by
  unfold lexemes
  rw [scan]
  dsimp only
  rw [List.map_append, scan_map_snd _ 1]
  simp [Function.comp_def]

theorem lexemes_blank {c : Char} (hBlank : isBlank c = true) (rest : List Char) :
    lexemes (c :: rest) = .blank (c :: rest.takeWhile isBlank) ::
      lexemes (rest.drop (rest.takeWhile isBlank).length) := by
  have hStep : step c rest =
      ([.blank (c :: rest.takeWhile isBlank)], (rest.takeWhile isBlank).length) := by
    unfold step
    rw [if_pos hBlank]
  rw [lexemes_cons, hStep]
  rfl

/-- A blank is read with all blanks behind it. -/
theorem lexemes_gap {gap : List Char} (hSome : gap ≠ []) (hGap : gap.all isBlank = true)
    (rest : List Char) :
    lexemes (gap ++ rest) = .blank (gap ++ rest.takeWhile isBlank) ::
      lexemes (rest.dropWhile isBlank) := by
  obtain ⟨c, gap, rfl⟩ := List.exists_cons_of_ne_nil hSome
  rw [List.all_cons, Bool.and_eq_true] at hGap
  have hTaken : (gap ++ rest).takeWhile isBlank = gap ++ rest.takeWhile isBlank :=
    List.takeWhile_append_of_pos fun d hd => List.all_eq_true.mp hGap.2 d hd
  have hRest : (rest.takeWhile isBlank ++ rest.dropWhile isBlank).drop
      (rest.takeWhile isBlank).length = rest.dropWhile isBlank := List.drop_left
  rw [List.takeWhile_append_dropWhile] at hRest
  have hDrop : (gap ++ rest).drop (gap ++ rest.takeWhile isBlank).length =
      rest.dropWhile isBlank := by
    rw [List.length_append, ← List.drop_drop, List.drop_left, hRest]
  rw [List.cons_append, lexemes_blank hGap.1, hTaken, hDrop]
  rfl

/-! ## Stops -/

/-- The lexeme that a stop is. -/
def stopLexeme (x : Char) : Lexeme :=
  if x == '{' then .opening x else if x == '}' then .closing x else .sign [x]

theorem step_stop {x : Char} (hStop : isStop x = true) (r : List Char) :
    step x r = ([stopLexeme x], 0) := by
  simp only [isStop, Bool.or_eq_true, beq_iff_eq] at hStop
  rcases hStop with ((rfl | rfl) | rfl) | rfl <;>
    simp [step, isBlank, startsCodeRange, startsName, isNameStart, Text.isAsciiLetter,
      readNumber, readSign, readMantissa, readFraction, Text.isAsciiDigit, signStep, stopLexeme]

/-- The lexemes at the front of a text that starts with `c`: there is one, and if it is a single
sign, it is `c` and nothing else is taken. -/
structure IsFrontStep (c : Char) (s : Step) : Prop where
  ne_nil : s.1 ≠ []
  sign : ∀ x, .sign [x] ∈ s.1 → x = c ∧ s.2 = 0

theorem isFrontStep_nameStep (c : Char) (rest : List Char) : IsFrontStep c (nameStep c rest) := by
  unfold nameStep addressStep
  generalize readName (c :: rest) = name
  obtain ⟨value, n⟩ := name
  dsimp only
  split
  · split
    · constructor <;> simp
    · generalize readUrl _ = url
      obtain ⟨address, k, ending⟩ := url
      cases ending <;> constructor <;> simp
  · constructor <;> simp

theorem isFrontStep_stringStep (c : Char) (rest : List Char) :
    IsFrontStep c (stringStep c rest) := by
  unfold stringStep
  generalize readString c rest = r
  obtain ⟨value, n, ending⟩ := r
  cases ending <;> constructor <;> simp

theorem isFrontStep_numberStep (c : Char) (rest digits : List Char) :
    IsFrontStep c (numberStep c rest digits) := by
  unfold numberStep
  dsimp only
  split
  · constructor <;> simp
  · split <;> constructor <;> simp

theorem isFrontStep_signStep (c : Char) (rest : List Char) : IsFrontStep c (signStep c rest) := by
  unfold signStep
  split
  · rename_i hAt
    split
    · constructor <;> simp
    · constructor <;> simp_all
  split
  · rename_i hHash
    split
    · constructor <;> simp_all
    · split
      · constructor <;> simp
      · constructor <;> simp_all
  split
  · constructor <;> simp
  split
  · constructor <;> simp
  split
  · exact isFrontStep_stringStep c rest
  split
  · constructor <;> simp
  split
  · constructor <;> simp
  split
  · constructor <;> simp
  split
  · constructor <;> simp
  · constructor <;> simp

theorem isFrontStep_step (c : Char) (rest : List Char) : IsFrontStep c (step c rest) := by
  unfold step
  dsimp only
  split
  · constructor <;> simp
  split
  · constructor <;> simp
  split
  · constructor <;> simp
  split
  · exact isFrontStep_nameStep c rest
  split
  · exact isFrontStep_signStep c rest
  · exact isFrontStep_numberStep c rest _

theorem lexemes_ne_nil {cs : List Char} (h : cs ≠ []) : lexemes cs ≠ [] := by
  obtain ⟨c, rest, rfl⟩ := List.exists_cons_of_ne_nil h
  rw [lexemes_cons]
  exact List.append_ne_nil_of_left_ne_nil (isFrontStep_step c rest).ne_nil _

/-! ## Pieces -/

/-- A piece of text with the given lexemes leaves a comma behind it alone. -/
def Reads (p : List Char) (ls : List Lexeme) : Prop :=
  lexemes (p ++ [',']) = ls ++ [.sign [',']]

omit [Surrogates] in
theorem stopsAt_comma (r : List Char) : StopsAt (',' :: r) := ⟨',', r, rfl, rfl⟩

theorem lexemes_stop {x : Char} (hStop : isStop x = true) (r : List Char) :
    lexemes (x :: r) = stopLexeme x :: lexemes r := by
  rw [lexemes_cons, step_stop hStop]
  rfl

theorem lexemes_comma (r : List Char) : lexemes (',' :: r) = .sign [','] :: lexemes r :=
  lexemes_stop rfl r

/-- A comma behind a backslash is escaped. -/
theorem step_backslash_comma : (step '\\' [',']).1 = [.name [',']] := by
  have hEscape : readEscape [','] = (',', 1) := rfl
  have hName : readName ['\\', ','] = ([','], 2) := by
    rw [readName, if_neg (by decide), if_pos (by decide), hEscape]
    dsimp only
    rw [List.drop_one, List.tail_cons, readName]
  rw [step, if_neg (by decide), if_neg (by decide), if_neg (by decide), if_pos (by decide), nameStep,
    hName]
  rfl

namespace Reads

variable {p p' : List Char} {ls ls' : List Lexeme}

/-- What takes in the comma has no comma. -/
theorem taken {c : Char} (h : Reads (c :: p) ls) : (step c (p ++ [','])).2 ≤ p.length := by
  refine Nat.not_lt.mp fun hTaken => ?_
  have hRest : (p ++ [',']).drop (step c (p ++ [','])).2 = [] :=
    List.drop_eq_nil_of_le (by simp only [List.length_append, List.length_singleton]; omega)
  rw [Reads, List.cons_append, lexemes_cons, hRest, lexemes_nil, List.append_nil] at h
  have hNone : (step c (p ++ [','])).2 = 0 :=
    ((isFrontStep_step c (p ++ [','])).sign ',' (by rw [h]; simp)).2
  rw [hNone] at hTaken
  exact Nat.not_lt_zero _ hTaken

/-- A piece is read step by step. -/
theorem step_rest {c : Char} (h : Reads (c :: p) ls) : ∃ more,
    ls = (step c (p ++ [','])).1 ++ more ∧ Reads (p.drop (step c (p ++ [','])).2) more := by
  have hTaken := h.taken
  rw [Reads, List.cons_append, lexemes_cons, List.drop_append_of_le_length hTaken] at h
  generalize hRest : lexemes (p.drop (step c (p ++ [','])).2 ++ [',']) = rest at h
  rcases List.eq_nil_or_concat rest with rfl | ⟨more, last, rfl⟩
  · exact absurd hRest (lexemes_ne_nil (by simp))
  · rw [List.concat_eq_append, ← List.append_assoc] at h
    obtain ⟨hMore, hLast⟩ := List.append_inj' h rfl
    cases hLast
    rw [List.concat_eq_append] at hRest
    exact ⟨more, hMore.symm, hRest⟩

/-- Nothing is read as nothing. -/
theorem eq_nil_of_nil (h : Reads [] ls) : ls = [] := by
  rw [Reads, List.nil_append, lexemes_comma, lexemes_nil] at h
  cases ls with
  | nil => rfl
  | cons l ls =>
    rw [List.cons_append, List.cons.injEq] at h
    cases ls <;> cases h.2

/-- The induction along the steps by which a piece is read. -/
theorem along {motive : List Char → List Lexeme → Prop} (h : Reads p ls) (hNil : motive [] [])
    (hStep : ∀ c p more, (step c (p ++ [','])).2 ≤ p.length →
      Reads (p.drop (step c (p ++ [','])).2) more → motive (p.drop (step c (p ++ [','])).2) more →
        motive (c :: p) ((step c (p ++ [','])).1 ++ more)) : motive p ls := by
  induction hLength : p.length using Nat.strongRecOn generalizing p ls with
  | ind n ih =>
    subst hLength
    cases p with
    | nil =>
      rw [h.eq_nil_of_nil]
      exact hNil
    | cons c p =>
      obtain ⟨more, rfl, hRest⟩ := h.step_rest
      refine hStep c p more h.taken hRest (ih _ ?_ hRest rfl)
      rw [List.length_drop, List.length_cons]
      omega

/-- A piece that leaves a comma alone leaves every stop alone, whatever comes behind it. -/
theorem before_stop (h : Reads p ls) {x : Char} (hStop : isStop x = true) (r : List Char) :
    lexemes (p ++ x :: r) = ls ++ stopLexeme x :: lexemes r := by
  refine h.along (motive := fun p ls => lexemes (p ++ x :: r) = ls ++ stopLexeme x :: lexemes r)
    (lexemes_stop hStop r) ?_
  intro c p more hTaken _ ih
  have hStops : StopsAt (x :: r) := ⟨x, r, rfl, hStop⟩
  have hStep := step_of_stops (stopsAt_comma []) hStops c hTaken
  rw [List.cons_append, lexemes_cons, hStep, List.drop_append_of_le_length hTaken, ih,
    List.append_assoc]

/-- Two pieces with a stop between them are read one after the other. -/
theorem append (h : Reads p ls) {x : Char} (hStop : isStop x = true) (h' : Reads p' ls') :
    Reads (p ++ x :: p') (ls ++ stopLexeme x :: ls') := by
  rw [Reads, List.append_assoc, List.cons_append, h.before_stop hStop, h', List.append_assoc]
  rfl

/-- A piece without lexemes is empty. -/
theorem eq_nil (h : Reads p []) : p = [] := by
  cases p with
  | nil => rfl
  | cons c p =>
    obtain ⟨more, hMore, -⟩ := h.step_rest
    exact absurd (List.append_eq_nil_iff.mp hMore.symm).1 (isFrontStep_step c _).ne_nil

/-- A backslash that is no escape stands in front of a line end, so it is not what a piece
ends in. -/
theorem getLast?_ne_backslash (h : Reads p ls) : ls.getLast? ≠ some (.sign ['\\']) := by
  refine h.along (motive := fun _ ls => ls.getLast? ≠ some (.sign ['\\'])) nofun ?_
  intro c p more hTaken hRest ih hLast
  rw [List.getLast?_append] at hLast
  cases hMore : more.getLast? with
  | some l =>
    rw [hMore, Option.some_or] at hLast
    exact ih (hMore.trans hLast)
  | none =>
    -- then the step is the last one, and it reads a backslash in front of the comma
    rw [hMore, Option.none_or] at hLast
    rw [List.getLast?_eq_none_iff.mp hMore] at hRest
    obtain ⟨hBackslash, hNone⟩ :=
      (isFrontStep_step c (p ++ [','])).sign _ (List.mem_of_getLast? hLast)
    rw [hNone, List.drop_zero] at hRest
    have hAlone : p = [] := hRest.eq_nil
    subst hBackslash hAlone
    rw [List.nil_append, step_backslash_comma] at hLast
    cases hLast

/-- A piece that starts with no blank may have one put in front. -/
theorem space (h : Reads p ls) (hStart : ∀ c ∈ p.head?, isBlank c = false) :
    Reads (' ' :: p) (.blank [' '] :: ls) := by
  have hGap : (p ++ [',']).takeWhile isBlank = [] := by
    cases p with
    | nil => rfl
    | cons c p => exact List.takeWhile_cons_of_neg (by simp [hStart c rfl])
  rw [Reads, List.cons_append, lexemes_blank rfl, hGap, List.length_nil, List.drop_zero, h]
  rfl

end Reads

end StyleSieve.Css
