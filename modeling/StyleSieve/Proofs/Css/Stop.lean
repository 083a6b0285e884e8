import StyleSieve.Css.Lexeme

/-!
# Stops

A comma, a semicolon and a curly bracket end every lexeme in front of them that does not take
them in. So what is read in front of one of them depends neither on which of them it is nor on
what comes behind.

* `step_of_stops`: the lexemes at the front of a text are the same before any stop.
-/

namespace StyleSieve.Css

open Text

/-- A sign that is a lexeme of its own, whatever stands behind it. -/
def isStop (c : Char) : Bool := c == ',' || c == ';' || c == '{' || c == '}'

/-- The text starts with a stop. -/
def StopsAt (q : List Char) : Prop := ∃ x r, q = x :: r ∧ isStop x = true

variable {p q q' : List Char} {x : Char} {f : Char → Bool}

theorem isStop_eq_false (hStop : isStop x = true)
    (h : f ',' = false ∧ f ';' = false ∧ f '{' = false ∧ f '}' = false) : f x = false := by
  simp only [isStop, Bool.or_eq_true, beq_iff_eq] at hStop
  obtain ⟨hComma, hSemicolon, hOpening, hClosing⟩ := h
  rcases hStop with ((rfl | rfl) | rfl) | rfl
  · exact hComma
  · exact hSemicolon
  · exact hOpening
  · exact hClosing

theorem ne_of_isStop {c : Char} (hStop : isStop x = true) (h : isStop c = false) : x ≠ c := by
  rintro rfl
  rw [h] at hStop
  cases hStop

/-! ## Runs of characters -/

theorem takeWhile_append_of_stops (hq : StopsAt q) (h : ∀ x, isStop x = true → f x = false) :
    (p ++ q).takeWhile f = p.takeWhile f := by
  obtain ⟨x, r, rfl, hStop⟩ := hq
  induction p with
  | nil =>
    have hFirst : ¬f x = true := by simp [h x hStop]
    rw [List.nil_append, List.takeWhile_cons_of_neg hFirst, List.takeWhile_nil]
  | cons c p ih => rw [List.cons_append, List.takeWhile_cons, List.takeWhile_cons, ih]

theorem takeWhile_take (n : Nat) (cs : List Char) :
    (cs.take n).takeWhile f = (cs.takeWhile f).take n := by
  induction cs generalizing n with
  | nil => simp
  | cons c cs ih =>
    cases n with
    | zero => simp
    | succ n =>
      rw [List.take_succ_cons, List.takeWhile_cons, List.takeWhile_cons, ih]
      cases f c <;> rfl

theorem length_takeWhile_le (cs : List Char) : (cs.takeWhile f).length ≤ cs.length :=
  (List.takeWhile_prefix f).length_le

theorem isHexDigit_stop (x : Char) (h : isStop x = true) : isHexDigit x = false :=
  isStop_eq_false h (by decide)

theorem isAsciiDigit_stop (x : Char) (h : isStop x = true) : isAsciiDigit x = false :=
  isStop_eq_false h (by decide)

theorem isBlank_stop (x : Char) (h : isStop x = true) : isBlank x = false :=
  isStop_eq_false h (by decide)

theorem isNamePart_stop (x : Char) (h : isStop x = true) : isNamePart x = false :=
  isStop_eq_false h (by decide)

theorem isNameStart_stop (x : Char) (h : isStop x = true) : isNameStart x = false :=
  isStop_eq_false h (by decide)

theorem head?_append_of_stops (hq : StopsAt q) {c : Char} (hOther : isStop c = false) :
    ((p ++ q).head? == some c) = (p.head? == some c) := by
  cases p with
  | cons d p => rfl
  | nil =>
    obtain ⟨x, r, rfl, hStop⟩ := hq
    simp [ne_of_isStop hStop hOther]

/-! ## Names -/

theorem escapes_append (hq : StopsAt q) : escapes (p ++ q) = escapes p := by
  unfold escapes bne
  rw [head?_append_of_stops hq (by decide)]

theorem startsName_append (hq : StopsAt q) : startsName (p ++ q) = startsName p := by
  obtain ⟨x, r, rfl, hStop⟩ := hq
  have hStart := isNameStart_stop x hStop
  have hHyphen : (x == '-') = false := beq_eq_false_iff_ne.mpr (ne_of_isStop hStop (by decide))
  have hSlash : (x == '\\') = false := beq_eq_false_iff_ne.mpr (ne_of_isStop hStop (by decide))
  have hEscapes : ∀ p, escapes (p ++ x :: r) = escapes p :=
    fun p => escapes_append ⟨x, r, rfl, hStop⟩
  match p with
  | [] => simp [startsName, hStart, hHyphen, hSlash]
  | [c] =>
    have := hEscapes []
    simp only [List.nil_append] at this
    simp [startsName, hStart, hHyphen, hSlash, this]
  | c :: d :: more =>
    have := hEscapes (d :: more)
    simp only [List.cons_append] at this
    simp only [List.cons_append, startsName, hEscapes more, this]

theorem readEscape_of_stops [Surrogates] (hq : StopsAt q) (hq' : StopsAt q')
    (h : (readEscape (p ++ q)).2 ≤ p.length) : readEscape (p ++ q') = readEscape (p ++ q) := by
  have hDigits : ∀ q, StopsAt q →
      ((p ++ q).take 6).takeWhile isHexDigit = (p.take 6).takeWhile isHexDigit := by
    intro q hq
    rw [takeWhile_take, takeWhile_take, takeWhile_append_of_stops hq isHexDigit_stop]
  have hLength : ((p.take 6).takeWhile isHexDigit).length ≤ p.length :=
    Nat.le_trans (length_takeWhile_le _) (List.length_take_le' _ _)
  unfold readEscape at h ⊢
  rw [hDigits q hq] at h ⊢
  rw [hDigits q' hq']
  generalize (p.take 6).takeWhile isHexDigit = ds at *
  cases hEmpty : ds.isEmpty with
  | true =>
    cases p with
    | cons c p => simp only [hEmpty, if_true, List.cons_append]
    | nil =>
      obtain ⟨x, r, rfl, -⟩ := hq
      simp [hEmpty] at h
  | false =>
    simp only [hEmpty, Bool.false_eq_true, if_false]
    rw [List.drop_append_of_le_length hLength, List.drop_append_of_le_length hLength]
    obtain ⟨x, r, rfl, hStop⟩ := hq
    obtain ⟨x', r', rfl, hStop'⟩ := hq'
    cases p.drop ds.length with
    | cons c rest => rfl
    | nil => simp [isBlank_stop x hStop, isBlank_stop x' hStop']

/-- An escape that ends in front of a stop is the same in front of any other, and it leaves the rest of
the text. -/
theorem exists_readEscape_of_stops [Surrogates] (hq : StopsAt q) (hq' : StopsAt q')
    (h : (readEscape (p ++ q)).2 ≤ p.length) :
    ∃ e k, k ≤ p.length ∧ readEscape (p ++ q) = (e, k) ∧ readEscape (p ++ q') = (e, k) ∧
      (p ++ q).drop k = p.drop k ++ q ∧ (p ++ q').drop k = p.drop k ++ q' :=
  ⟨_, _, h, rfl, readEscape_of_stops hq hq' h, List.drop_append_of_le_length h,
    List.drop_append_of_le_length h⟩

/-! ## Readers

A reader that takes in no more than the text in front of a stop takes in the same text in front
of any other. -/

theorem readName_of_stops [Surrogates] (hq : StopsAt q) (hq' : StopsAt q')
    (h : (readName (p ++ q)).2 ≤ p.length) : readName (p ++ q') = readName (p ++ q) := by
  -- an escape takes in several characters, so the induction is on the length
  induction hLength : p.length using Nat.strongRecOn generalizing p with
  | ind n ih =>
    subst hLength
    cases p with
    | nil =>
      obtain ⟨x, r, rfl, hStop⟩ := hq
      obtain ⟨x', r', rfl, hStop'⟩ := hq'
      have hOther : ∀ x, isStop x = true → (x == '\\') = false :=
        fun x hx => beq_eq_false_iff_ne.mpr (ne_of_isStop hx (by decide))
      simp [readName, isNamePart_stop _ hStop, isNamePart_stop _ hStop', hOther _ hStop,
        hOther _ hStop']
    | cons c p =>
      rw [List.cons_append, readName] at h ⊢
      rw [List.cons_append, readName, escapes_append hq, escapes_append hq']
      rw [escapes_append hq] at h
      split
      · rename_i hPart
        rw [if_pos hPart] at h
        simp only [List.length_cons, Nat.add_le_add_iff_right] at h
        rw [ih p.length (by simp) h rfl]
      · rename_i hPart
        rw [if_neg hPart] at h
        split
        · rename_i hEscape
          rw [if_pos hEscape] at h
          simp only [List.length_cons, Nat.add_le_add_iff_right] at h
          obtain ⟨e, k, hShorter, hEscaped, hEscaped', hRest, hRest'⟩ :=
            exists_readEscape_of_stops (p := p) hq hq' (by omega)
          simp only [hEscaped, hRest] at h ⊢
          simp only [hEscaped', hRest']
          rw [ih (p.drop k).length (by simp only [List.length_drop, List.length_cons]; omega)
            (by simp only [List.length_drop]; omega) rfl]
        · rfl

theorem readString_cons [Surrogates] (quote c : Char) (rest : List Char) :
    readString quote (c :: rest) =
      if c == quote then ([], 1, .closed)
      else if c == '\\' then
        match rest with
        | [] => ([], 1, .textEnd)
        | d :: more =>
          if d == '\n' then
            let (value, n, ending) := readString quote more
            (value, n + 2, ending)
          else
            let (e, k) := readEscape (d :: more)
            let (value, n, ending) := readString quote ((d :: more).drop k)
            (e :: value, n + k + 1, ending)
      else if c == '\n' then ([], 0, .broken)
      else
        let (value, n, ending) := readString quote rest
        (c :: value, n + 1, ending) := by
  exact readString.eq_def quote (c :: rest)

theorem readString_of_stops [Surrogates] {quote : Char} (hQuote : isStop quote = false) (hq : StopsAt q)
    (hq' : StopsAt q') (h : (readString quote (p ++ q)).2.1 ≤ p.length) :
    readString quote (p ++ q') = readString quote (p ++ q) := by
  induction hLength : p.length using Nat.strongRecOn generalizing p with
  | ind n ih =>
    subst hLength
    cases p with
    | nil =>
      obtain ⟨x, r, rfl, hStop⟩ := hq
      have hOther : ∀ c, isStop c = false → (x == c) = false :=
        fun c hc => beq_eq_false_iff_ne.mpr (ne_of_isStop hStop hc)
      rw [List.nil_append, readString_cons, hOther quote hQuote, hOther '\\' (by decide),
        hOther '\n' (by decide)] at h
      simp at h
    | cons c p =>
      rw [List.cons_append, readString_cons] at h ⊢
      rw [List.cons_append, readString_cons]
      split
      · rfl
      · rename_i hOpen
        rw [if_neg hOpen] at h
        split
        · rename_i hSlash
          rw [if_pos hSlash] at h
          cases p with
          | nil =>
            -- the backslash takes in the stop
            obtain ⟨x, r, rfl, hStop⟩ := hq
            have hLine : (x == '\n') = false :=
              beq_eq_false_iff_ne.mpr (ne_of_isStop hStop (by decide))
            simp only [List.nil_append, hLine, Bool.false_eq_true, if_false] at h
            have hEscape : (readEscape (x :: r)).2 ≠ 0 := by
              simp [readEscape, isHexDigit_stop x hStop]
            simp only [List.length_cons, List.length_nil] at h
            omega
          | cons d p =>
            simp only [List.cons_append] at h ⊢
            split
            · rename_i hLine
              rw [if_pos hLine] at h
              change (readString quote (p ++ q)).2.1 + 2 ≤ p.length + 1 + 1 at h
              rw [ih p.length (by simp only [List.length_cons]; omega) (by omega) rfl]
            · rename_i hLine
              rw [if_neg hLine] at h
              simp only [List.length_cons, Nat.add_le_add_iff_right] at h
              rw [← List.cons_append] at h ⊢
              rw [← List.cons_append]
              obtain ⟨e, k, hShorter, hEscaped, hEscaped', hRest, hRest'⟩ :=
                exists_readEscape_of_stops (p := d :: p) hq hq' (by simp only [List.length_cons]; omega)
              simp only [hEscaped, hRest] at h ⊢
              simp only [hEscaped', hRest']
              change (readString quote ((d :: p).drop k ++ q)).2.1 + k ≤ p.length + 1 at h
              have hLeft : ((d :: p).drop k).length = p.length + 1 - k := List.length_drop
              rw [ih ((d :: p).drop k).length (by simp only [hLeft, List.length_cons]; omega) (by omega) rfl]
        · rename_i hSlash
          rw [if_neg hSlash] at h
          split
          · rfl
          · rename_i hLine
            rw [if_neg hLine] at h
            simp only [List.length_cons, Nat.add_le_add_iff_right] at h
            rw [ih p.length (by simp) h rfl]

theorem readUrl_of_stops [Surrogates] (hq : StopsAt q) (hq' : StopsAt q')
    (h : (readUrl (p ++ q)).2.1 ≤ p.length) : readUrl (p ++ q') = readUrl (p ++ q) := by
  induction hLength : p.length using Nat.strongRecOn generalizing p with
  | ind n ih =>
    subst hLength
    cases p with
    | nil =>
      -- an address takes in every stop
      obtain ⟨x, r, rfl, hStop⟩ := hq
      have hOther : ∀ c, isStop c = false → (x == c) = false :=
        fun c hc => beq_eq_false_iff_ne.mpr (ne_of_isStop hStop hc)
      have hControl : isControl x = false := isStop_eq_false hStop (by decide)
      rw [List.nil_append, readUrl] at h
      simp [hOther ')' (by decide), hOther '\\' (by decide), hOther '"' (by decide),
        hOther '\'' (by decide), hOther '(' (by decide), isBlank_stop x hStop, hControl] at h
    | cons c p =>
      rw [List.cons_append, readUrl] at h ⊢
      rw [List.cons_append, readUrl]
      split
      · rfl
      · rename_i hOpen
        rw [if_neg hOpen] at h
        split
        · dsimp only
          rw [takeWhile_append_of_stops hq isBlank_stop, takeWhile_append_of_stops hq' isBlank_stop,
            List.drop_append_of_le_length (length_takeWhile_le p),
            List.drop_append_of_le_length (length_takeWhile_le p)]
          cases p.drop (p.takeWhile isBlank).length with
          | cons d rest =>
            by_cases hClosing : d = ')'
            · rw [hClosing]
              rfl
            · simp [hClosing]
          | nil =>
            obtain ⟨x, r, rfl, hStop⟩ := hq
            obtain ⟨x', r', rfl, hStop'⟩ := hq'
            have hOther : ∀ x, isStop x = true → x ≠ ')' :=
              fun x hx => ne_of_isStop hx (by decide)
            simp [hOther x hStop, hOther x' hStop']
        · rename_i hGap
          rw [if_neg hGap, escapes_append hq] at h
          rw [escapes_append hq, escapes_append hq']
          split
          · rename_i hEscape
            rw [if_pos hEscape] at h
            simp only [List.length_cons, Nat.add_le_add_iff_right] at h
            obtain ⟨e, k, hShorter, hEscaped, hEscaped', hRest, hRest'⟩ :=
              exists_readEscape_of_stops (p := p) hq hq' (by omega)
            simp only [hEscaped, hRest] at h ⊢
            simp only [hEscaped', hRest']
            change (readUrl (p.drop k ++ q)).2.1 + k ≤ p.length at h
            have hLeft : (p.drop k).length = p.length - k := List.length_drop
            rw [ih (p.drop k).length (by simp only [hLeft, List.length_cons]; omega) (by omega) rfl]
          · rename_i hEscape
            rw [if_neg hEscape] at h
            split
            · rfl
            · rename_i hPlain
              rw [if_neg hPlain] at h
              simp only [List.length_cons, Nat.add_le_add_iff_right] at h
              rw [ih p.length (by simp) h rfl]

theorem brokenUrlLength_of_stops (hq : StopsAt q) (hq' : StopsAt q')
    (h : brokenUrlLength (p ++ q) ≤ p.length) :
    brokenUrlLength (p ++ q') = brokenUrlLength (p ++ q) := by
  obtain ⟨x, r, rfl, hStop⟩ := hq
  obtain ⟨x', r', rfl, hStop'⟩ := hq'
  have hParen : ∀ x, isStop x = true → x ≠ ')' := fun x hx => ne_of_isStop hx (by decide)
  have hAt : brokenUrlLength (x :: r) = brokenUrlLength r + 1 := by
    rw [brokenUrlLength]
    · simp [hParen x hStop]
    · rintro rest hSame -
      exact ne_of_isStop hStop (by decide) hSame
  induction hLength : p.length using Nat.strongRecOn generalizing p with
  | ind n ih =>
    subst hLength
    match p with
    | [] =>
      rw [List.nil_append, hAt] at h
      simp at h
    | [c] =>
      have hStep : ∀ x r, isStop x = true → brokenUrlLength (c :: x :: r) =
          if c == ')' then 1 else brokenUrlLength (x :: r) + 1 := by
        intro x r hx
        rw [brokenUrlLength]
        rintro rest - hSame
        cases hSame
        exact hParen _ hx rfl
      simp only [List.cons_append, List.nil_append] at h ⊢
      rw [hStep x' r' hStop', hStep x r hStop]
      rw [hStep x r hStop] at h
      split
      · rfl
      · rename_i hOpen
        rw [if_neg hOpen, hAt] at h
        simp at h
    | c :: d :: p =>
      simp only [List.cons_append] at h ⊢
      by_cases hPair : c = '\\' ∧ d = ')'
      · obtain ⟨rfl, rfl⟩ := hPair
        rw [brokenUrlLength] at h ⊢
        rw [brokenUrlLength, ih p.length (by simp only [List.length_cons]; omega)
          (by simp only [List.length_cons] at h; omega) rfl]
      · have hStep : ∀ rest, brokenUrlLength (c :: d :: rest) =
            if c == ')' then 1 else brokenUrlLength (d :: rest) + 1 := by
          intro rest
          rw [brokenUrlLength]
          rintro more rfl hSame
          cases hSame
          exact hPair ⟨rfl, rfl⟩
        rw [hStep, hStep]
        rw [hStep] at h
        split
        · rfl
        · rename_i hOpen
          rw [if_neg hOpen] at h
          simp only [List.length_cons, Nat.add_le_add_iff_right] at h
          rw [← List.cons_append] at h ⊢
          rw [← List.cons_append, ih (d :: p).length (by simp) h rfl]

theorem readComment_of_stops (hq : StopsAt q) (hq' : StopsAt q')
    (h : (readComment (p ++ q)).2 ≤ p.length) : readComment (p ++ q') = readComment (p ++ q) := by
  obtain ⟨x, r, rfl, hStop⟩ := hq
  obtain ⟨x', r', rfl, hStop'⟩ := hq'
  have hStar : ∀ x, isStop x = true → x ≠ '*' := fun x hx => ne_of_isStop hx (by decide)
  have hSlash : ∀ x, isStop x = true → x ≠ '/' := fun x hx => ne_of_isStop hx (by decide)
  induction p with
  | nil =>
    rw [List.nil_append, readComment] at h
    · simp at h
    · rintro rest hSame -
      exact hStar x hStop hSame
  | cons c p ih =>
    have hStep : ∀ q, (∀ rest, c = '*' → p ++ q = '/' :: rest → False) →
        readComment (c :: p ++ q) =
          (c :: (readComment (p ++ q)).1, (readComment (p ++ q)).2 + 1) := by
      intro q hOther
      rw [List.cons_append, readComment]
      exact hOther
    by_cases hEnd : c = '*' ∧ p.head? = some '/'
    · obtain ⟨rfl, hHead⟩ := hEnd
      cases p with
      | nil => cases hHead
      | cons d p =>
        cases Option.some.inj hHead
        rw [List.cons_append, List.cons_append, List.cons_append, List.cons_append, readComment,
          readComment]
    · have hOther : ∀ x r, isStop x = true →
          ∀ rest, c = '*' → p ++ x :: r = '/' :: rest → False := by
        rintro x r hx rest rfl hSame
        cases p with
        | nil =>
          cases hSame
          exact hSlash _ hx rfl
        | cons d p =>
          cases hSame
          exact hEnd ⟨rfl, rfl⟩
      rw [hStep _ (hOther x r hStop)] at h ⊢
      rw [hStep _ (hOther x' r' hStop'), ih (by simpa using h)]

/-! ## Numbers and ranges

These never take in a stop. -/

theorem append_takeWhile_start (run cs : List Char) (h : run <+: cs) :
    run ++ (cs.drop run.length).takeWhile f <+: cs := by
  obtain ⟨rest, rfl⟩ := h
  rw [List.drop_left]
  exact (List.prefix_append_right_inj run).mpr (List.takeWhile_prefix f)

theorem readSign_start (cs : List Char) : readSign cs <+: cs := by
  cases cs with
  | nil => exact List.prefix_rfl
  | cons c cs =>
    rw [readSign]
    split
    · exact List.cons_prefix_cons.mpr ⟨rfl, List.nil_prefix⟩
    · exact List.nil_prefix

theorem readSign_append (hq : StopsAt q) : readSign (p ++ q) = readSign p := by
  cases p with
  | cons c p => rfl
  | nil =>
    obtain ⟨x, r, rfl, hStop⟩ := hq
    simp [readSign, ne_of_isStop hStop (c := '+') (by decide),
      ne_of_isStop hStop (c := '-') (by decide)]

theorem readFraction_append (hq : StopsAt q) : readFraction (p ++ q) = readFraction p := by
  cases p with
  | nil =>
    obtain ⟨x, r, rfl, hStop⟩ := hq
    have hPoint : x ≠ '.' := ne_of_isStop hStop (by decide)
    rw [List.nil_append, readFraction]
    · rfl
    · rintro more hSame
      cases hSame
      exact hPoint rfl
  | cons c p =>
    by_cases hPoint : c = '.'
    · rw [hPoint]
      exact takeWhile_append_of_stops hq isAsciiDigit_stop
    · rw [List.cons_append, readFraction, readFraction]
      all_goals
        rintro more hSame
        cases hSame
        exact hPoint rfl

theorem readFraction_start (cs : List Char) (h : readFraction cs ≠ []) :
    '.' :: readFraction cs <+: cs := by
  cases cs with
  | nil => exact absurd rfl h
  | cons c cs =>
    by_cases hPoint : c = '.'
    · rw [hPoint]
      exact List.cons_prefix_cons.mpr ⟨rfl, List.takeWhile_prefix _⟩
    · refine absurd ?_ h
      rw [readFraction]
      rintro more hSame
      cases hSame
      exact hPoint rfl

theorem readMantissa_start (cs : List Char) : readMantissa cs <+: cs := by
  unfold readMantissa
  dsimp only
  split
  · exact List.takeWhile_prefix _
  · rename_i hSome
    have hSome : readFraction (cs.drop (cs.takeWhile isAsciiDigit).length) ≠ [] := by
      simpa using hSome
    have hFraction := readFraction_start _ hSome
    obtain ⟨rest, hRest⟩ := List.takeWhile_prefix isAsciiDigit (l := cs)
    generalize cs.takeWhile isAsciiDigit = whole at *
    rw [← hRest, List.drop_left] at hFraction ⊢
    exact (List.prefix_append_right_inj whole).mpr hFraction

theorem readMantissa_append (hq : StopsAt q) : readMantissa (p ++ q) = readMantissa p := by
  unfold readMantissa
  rw [takeWhile_append_of_stops hq isAsciiDigit_stop]
  dsimp only
  rw [List.drop_append_of_le_length (length_takeWhile_le p), readFraction_append hq]

theorem readExponent_start (cs : List Char) : readExponent cs <+: cs := by
  cases cs with
  | nil => exact List.prefix_rfl
  | cons e more =>
    rw [readExponent]
    dsimp only
    split
    · split
      · exact List.nil_prefix
      · rw [List.cons_append]
        exact List.cons_prefix_cons.mpr
          ⟨rfl, append_takeWhile_start _ more (readSign_start more)⟩
    · exact List.nil_prefix

theorem readExponent_append (hq : StopsAt q) : readExponent (p ++ q) = readExponent p := by
  cases p with
  | nil =>
    obtain ⟨x, r, rfl, hStop⟩ := hq
    simp [readExponent, ne_of_isStop hStop (c := 'e') (by decide),
      ne_of_isStop hStop (c := 'E') (by decide)]
  | cons e p =>
    rw [List.cons_append, readExponent, readExponent, readSign_append hq]
    dsimp only
    rw [List.drop_append_of_le_length (readSign_start p).length_le,
      takeWhile_append_of_stops hq isAsciiDigit_stop]

theorem readNumber_append (hq : StopsAt q) : readNumber (p ++ q) = readNumber p := by
  unfold readNumber
  rw [readSign_append hq]
  dsimp only
  rw [List.drop_append_of_le_length (readSign_start p).length_le, readMantissa_append hq,
    List.drop_append_of_le_length (readMantissa_start _).length_le, readExponent_append hq]

theorem readNumber_start (cs : List Char) : readNumber cs <+: cs := by
  unfold readNumber
  dsimp only
  split
  · exact List.nil_prefix
  · obtain ⟨body, hBody⟩ := readSign_start cs
    generalize readSign cs = sign at *
    rw [← hBody, List.drop_left]
    obtain ⟨rest, hRest⟩ := readMantissa_start body
    generalize readMantissa body = mantissa at *
    rw [← hRest, List.drop_left, ← List.append_assoc]
    exact (List.prefix_append_right_inj _).mpr (readExponent_start rest)

/-- There is a number where a mantissa stands behind the sign, if there is a sign. -/
theorem readNumber_eq_nil_iff {cs : List Char} :
    readNumber cs = [] ↔ readMantissa (cs.drop (readSign cs).length) = [] := by
  unfold readNumber
  dsimp only
  split
  · rename_i hNone
    simpa using hNone
  · rename_i hSome
    have hMantissa : readMantissa (cs.drop (readSign cs).length) ≠ [] := by simpa using hSome
    simp [hMantissa]

theorem readNumber_eq_nil_iff_of_readSign {cs : List Char} (h : readSign cs = []) :
    readNumber cs = [] ↔ readMantissa cs = [] := by
  rw [readNumber_eq_nil_iff, h, List.length_nil, List.drop_zero]

theorem readSign_of_sign {c : Char} (hSign : c = '+' ∨ c = '-') (rest : List Char) :
    readSign (c :: rest) = [c] := by
  rw [readSign, if_pos (by simpa using hSign)]

theorem readNumber_sign_eq_nil_iff {c : Char} {rest : List Char} (hSign : c = '+' ∨ c = '-') :
    readNumber (c :: rest) = [] ↔ readMantissa rest = [] := by
  rw [readNumber_eq_nil_iff, readSign_of_sign hSign, List.length_singleton, List.drop_succ_cons,
    List.drop_zero]

theorem readCodeRange_append (hq : StopsAt q) : readCodeRange (p ++ q) = readCodeRange p := by
  have hTake : ∀ n p f, (∀ x, isStop x = true → f x = false) →
      ((p ++ q).take n).takeWhile f = (p.take n).takeWhile f := by
    intro n p f hf
    rw [takeWhile_take, takeWhile_take, takeWhile_append_of_stops hq hf]
  have hLength : ((p.take 6).takeWhile isHexDigit).length ≤ p.length :=
    Nat.le_trans (length_takeWhile_le _) (List.length_take_le' _ _)
  unfold readCodeRange
  rw [hTake 6 p isHexDigit isHexDigit_stop]
  dsimp only
  rw [List.drop_append_of_le_length hLength,
    hTake _ _ (· == '?') fun x hx => isStop_eq_false (f := (· == '?')) hx (by decide)]
  split
  · rfl
  · cases hRest : p.drop ((p.take 6).takeWhile isHexDigit).length with
    | nil =>
      obtain ⟨x, r, rfl, hStop⟩ := hq
      have hHyphen : x ≠ '-' := ne_of_isStop hStop (by decide)
      simp [hHyphen]
    | cons c more =>
      by_cases hHyphen : c = '-'
      · subst hHyphen
        simp only [List.cons_append, hTake 6 more isHexDigit isHexDigit_stop]
      · simp [hHyphen]

/-! ## Steps -/

theorem addressStep_of_stops [Surrogates] (hq : StopsAt q) (hq' : StopsAt q')
    (h : (addressStep (p ++ q)).2 ≤ p.length) : addressStep (p ++ q') = addressStep (p ++ q) := by
  have hTaken : (readUrl (p ++ q)).2.1 ≤ (addressStep (p ++ q)).2 := by
    unfold addressStep
    generalize readUrl (p ++ q) = r
    obtain ⟨address, k, ending⟩ := r
    cases ending
    · exact Nat.le_refl _
    · exact Nat.le_refl _
    · exact Nat.le_add_right _ _
  have hUrl := readUrl_of_stops hq hq' (Nat.le_trans hTaken h)
  unfold addressStep at h ⊢
  rw [hUrl]
  generalize readUrl (p ++ q) = r at *
  obtain ⟨address, k, ending⟩ := r
  cases ending with
  | closed => rfl
  | textEnd => rfl
  | broken =>
    dsimp only at h ⊢
    have hShorter : k ≤ p.length := by omega
    rw [List.drop_append_of_le_length hShorter] at h ⊢
    have hRest : (p.drop k).length = p.length - k := List.length_drop
    rw [List.drop_append_of_le_length hShorter, brokenUrlLength_of_stops hq hq' (by omega)]

theorem nameStep_of_stops [Surrogates] (hq : StopsAt q) (hq' : StopsAt q') (c : Char)
    (h : (nameStep c (p ++ q)).2 ≤ p.length) :
    nameStep c (p ++ q') = nameStep c (p ++ q) := by
  have hTaken : (readName (c :: p ++ q)).2 - 1 ≤ (nameStep c (p ++ q)).2 := by
    unfold nameStep
    rw [← List.cons_append]
    generalize readName (c :: p ++ q) = r
    obtain ⟨value, n⟩ := r
    dsimp only
    split
    · split
      · exact Nat.sub_le n 1
      · dsimp only
        omega
    · exact Nat.le_refl _
  replace hTaken := Nat.le_trans hTaken h
  have hName := readName_of_stops (p := c :: p) hq hq'
    (by simp only [List.length_cons]; omega)
  unfold nameStep at h ⊢
  rw [← List.cons_append] at h ⊢
  rw [← List.cons_append, hName]
  generalize readName (c :: p ++ q) = r at *
  obtain ⟨value, n⟩ := r
  dsimp only at h hTaken ⊢
  have hShorter : n ≤ (c :: p).length := by
    simp only [List.length_cons]
    omega
  rw [List.drop_append_of_le_length hShorter] at h ⊢
  rw [List.drop_append_of_le_length hShorter]
  have hRest : ((c :: p).drop n).length = p.length + 1 - n := by simp
  generalize (c :: p).drop n = m at *
  have hOther : ∀ x, isStop x = true → x ≠ '(' := fun x hx => ne_of_isStop hx (by decide)
  cases m with
  | nil =>
    obtain ⟨x, r, rfl, hStop⟩ := hq
    obtain ⟨x', r', rfl, hStop'⟩ := hq'
    simp [hOther x hStop, hOther x' hStop']
  | cons d m =>
    by_cases hOpen : d = '('
    · subst hOpen
      simp only [List.cons_append] at h ⊢
      rw [takeWhile_append_of_stops hq isBlank_stop,
        List.drop_append_of_le_length (length_takeWhile_le m),
        head?_append_of_stops hq (by decide), head?_append_of_stops hq (by decide)] at h ⊢
      rw [takeWhile_append_of_stops hq' isBlank_stop,
        List.drop_append_of_le_length (length_takeWhile_le m),
        head?_append_of_stops hq' (by decide), head?_append_of_stops hq' (by decide)]
      split
      · rfl
      · rename_i hUrl
        rw [if_neg hUrl] at h
        have hGap := length_takeWhile_le (f := isBlank) m
        have hContent : (m.drop (m.takeWhile isBlank).length).length =
            m.length - (m.takeWhile isBlank).length := List.length_drop
        simp only [List.length_cons] at hRest
        dsimp only at h
        rw [addressStep_of_stops hq hq' (by omega)]
    · simp [hOpen]

theorem stringStep_of_stops [Surrogates] (hq : StopsAt q) (hq' : StopsAt q') {c : Char}
    (hQuote : isStop c = false) (h : (stringStep c (p ++ q)).2 ≤ p.length) :
    stringStep c (p ++ q') = stringStep c (p ++ q) := by
  have hLength : (stringStep c (p ++ q)).2 = (readString c (p ++ q)).2.1 := by
    unfold stringStep
    generalize readString c (p ++ q) = r
    obtain ⟨value, n, ending⟩ := r
    cases ending <;> rfl
  rw [hLength] at h
  unfold stringStep
  rw [readString_of_stops hQuote hq hq' h]

theorem numberStep_of_stops [Surrogates] (hq : StopsAt q) (hq' : StopsAt q') (c : Char) {digits : List Char}
    (hDigits : digits <+: c :: p) (hSome : digits ≠ [])
    (h : (numberStep c (p ++ q) digits).2 ≤ p.length) :
    numberStep c (p ++ q') digits = numberStep c (p ++ q) digits := by
  have hAfter : ∀ q, (c :: (p ++ q)).drop digits.length = (c :: p).drop digits.length ++ q :=
    fun q => by rw [← List.cons_append, List.drop_append_of_le_length hDigits.length_le]
  have hLength := hDigits.length_le
  have hPos := List.length_pos_iff.mpr hSome
  have hRest : ((c :: p).drop digits.length).length = p.length + 1 - digits.length := by simp
  unfold numberStep at h ⊢
  dsimp only at h ⊢
  rw [hAfter, hAfter, startsName_append hq, startsName_append hq',
    head?_append_of_stops hq (by decide), head?_append_of_stops hq' (by decide)]
  rw [hAfter, startsName_append hq] at h
  split
  · rename_i hUnit
    rw [if_pos hUnit] at h
    rw [readName_of_stops hq hq']
    change digits.length - 1 + (readName ((c :: p).drop digits.length ++ q)).2 ≤ p.length at h
    omega
  · rfl

theorem isPrefixOf_append (hq : StopsAt q) (signs : List Char)
    (h : signs.any isStop = false) : signs.isPrefixOf (p ++ q) = signs.isPrefixOf p := by
  obtain ⟨x, r, rfl, hStop⟩ := hq
  induction signs generalizing p with
  | nil => simp
  | cons c signs ih =>
    rw [List.any_cons, Bool.or_eq_false_iff] at h
    have hOther : (c == x) = false := beq_eq_false_iff_ne.mpr (ne_of_isStop hStop h.1).symm
    cases p with
    | nil => simp [List.isPrefixOf, hOther]
    | cons d p =>
      rw [List.cons_append, List.isPrefixOf, List.isPrefixOf, ih h.2]

/-! ### Signs

What a sign begins is told by the sign, and for some by the first character behind it. -/

theorem signStep_at [Surrogates] (rest : List Char) :
    signStep '@' rest =
      if startsName rest then ([.atName (readName rest).1], (readName rest).2)
      else ([.sign ['@']], 0) := rfl

theorem signStep_hash [Surrogates] (d : Char) (more : List Char) :
    signStep '#' (d :: more) =
      if isNamePart d || (d == '\\' && escapes more) then
        ([.hash (readName (d :: more)).1 (startsName (d :: more))], (readName (d :: more)).2)
      else ([.sign ['#']], 0) := rfl

theorem signStep_quote [Surrogates] {c : Char} (hQuote : c = '"' ∨ c = '\'') (rest : List Char) :
    signStep c rest = stringStep c rest := by
  rcases hQuote with rfl | rfl <;> rfl

theorem signStep_comment [Surrogates] (rest : List Char) :
    signStep '/' ('*' :: rest) = ([.comment (readComment rest).1], (readComment rest).2 + 1) := rfl

theorem atStep_of_stops [Surrogates] (hq : StopsAt q) (hq' : StopsAt q')
    (h : (signStep '@' (p ++ q)).2 ≤ p.length) :
    signStep '@' (p ++ q') = signStep '@' (p ++ q) := by
  rw [signStep_at, startsName_append hq] at h
  rw [signStep_at, signStep_at, startsName_append hq, startsName_append hq']
  split
  · rename_i hName
    rw [if_pos hName] at h
    rw [readName_of_stops hq hq' h]
  · rfl

theorem hashStep_of_stops [Surrogates] (hq : StopsAt q) (hq' : StopsAt q')
    (h : (signStep '#' (p ++ q)).2 ≤ p.length) :
    signStep '#' (p ++ q') = signStep '#' (p ++ q) := by
  cases p with
  | nil =>
    obtain ⟨x, r, rfl, hStop⟩ := hq
    obtain ⟨x', r', rfl, hStop'⟩ := hq'
    have hSlash : ∀ x, isStop x = true → x ≠ '\\' := fun x hx => ne_of_isStop hx (by decide)
    simp [signStep_hash, isNamePart_stop x hStop, isNamePart_stop x' hStop', hSlash x hStop,
      hSlash x' hStop']
  | cons d p =>
    rw [List.cons_append, signStep_hash, escapes_append hq] at h
    rw [List.cons_append, List.cons_append, signStep_hash, signStep_hash, escapes_append hq,
      escapes_append hq']
    split
    · rename_i hName
      rw [if_pos hName, ← List.cons_append] at h
      rw [← List.cons_append, ← List.cons_append, readName_of_stops hq hq' h, startsName_append hq,
        startsName_append hq']
    · rfl

theorem commentStep_of_stops [Surrogates] (hq : StopsAt q) (hq' : StopsAt q')
    (h : (signStep '/' ('*' :: (p ++ q))).2 ≤ p.length + 1) :
    signStep '/' ('*' :: (p ++ q')) = signStep '/' ('*' :: (p ++ q)) := by
  rw [signStep_comment] at h
  rw [signStep_comment, signStep_comment, readComment_of_stops hq hq' (by simpa using h)]

/-- A sign that begins neither a name nor a string nor a comment is told from what stands in front of the
stop. -/
theorem markStep_append [Surrogates] (hq : StopsAt q) {c : Char} (hAt : c ≠ '@') (hHash : c ≠ '#')
    (hQuote : ¬(c = '"' ∨ c = '\'')) (hComment : ¬(c = '/' ∧ p.head? = some '*')) :
    signStep c (p ++ q) = signStep c p := by
  have hHead : ∀ d, isStop d = false → ((p ++ q).head? == some d) = (p.head? == some d) :=
    fun d hd => head?_append_of_stops hq hd
  unfold signStep
  rw [hHead '*' (by decide), hHead '|' (by decide), hHead '=' (by decide),
    isPrefixOf_append hq ['!', '-', '-'] (by decide)]
  simp only [beq_iff_eq, Bool.or_eq_true, Bool.and_eq_true, if_neg hAt, if_neg hHash, if_neg hQuote,
    if_neg hComment]

theorem signStep_of_stops [Surrogates] (hq : StopsAt q) (hq' : StopsAt q') (c : Char)
    (h : (signStep c (p ++ q)).2 ≤ p.length) :
    signStep c (p ++ q') = signStep c (p ++ q) := by
  by_cases hAt : c = '@'
  · subst hAt
    exact atStep_of_stops hq hq' h
  by_cases hHash : c = '#'
  · subst hHash
    exact hashStep_of_stops hq hq' h
  by_cases hQuote : c = '"' ∨ c = '\''
  · rw [signStep_quote hQuote] at h ⊢
    rw [signStep_quote hQuote]
    refine stringStep_of_stops hq hq' ?_ h
    rcases hQuote with rfl | rfl <;> decide
  by_cases hComment : c = '/' ∧ p.head? = some '*'
  · obtain ⟨rfl, hStar⟩ := hComment
    obtain ⟨p, rfl⟩ := List.head?_eq_some_iff.mp hStar
    exact commentStep_of_stops hq hq' h
  · rw [markStep_append hq hAt hHash hQuote hComment, markStep_append hq' hAt hHash hQuote hComment]

theorem startsCodeRange_append (hq : StopsAt q) (c : Char) :
    startsCodeRange c (p ++ q) = startsCodeRange c p := by
  unfold startsCodeRange
  rw [head?_append_of_stops hq (by decide)]
  match p with
  | [] => simp
  | [d] =>
    obtain ⟨x, r, rfl, hStop⟩ := hq
    have hMark : (isHexDigit x || x == '?') = false :=
      isStop_eq_false (f := fun d => isHexDigit d || d == '?') hStop (by decide)
    simp [hMark]
  | d :: e :: p => rfl

/-- The lexemes at the front of a text that take in no more than what stands in front of a stop
are the same in front of any other. -/
theorem step_of_stops [Surrogates] (hq : StopsAt q) (hq' : StopsAt q') (c : Char)
    (h : (step c (p ++ q)).2 ≤ p.length) : step c (p ++ q') = step c (p ++ q) := by
  have hName : ∀ {q}, StopsAt q → startsName (c :: (p ++ q)) = startsName (c :: p) :=
    fun hq => startsName_append (p := c :: p) hq
  have hNumber : ∀ {q}, StopsAt q → readNumber (c :: (p ++ q)) = readNumber (c :: p) :=
    fun hq => readNumber_append (p := c :: p) hq
  unfold step at h ⊢
  rw [takeWhile_append_of_stops hq isBlank_stop, startsCodeRange_append hq,
    isPrefixOf_append hq ['-', '>'] (by decide), hName hq, hNumber hq] at h ⊢
  rw [takeWhile_append_of_stops hq' isBlank_stop, startsCodeRange_append hq',
    isPrefixOf_append hq' ['-', '>'] (by decide), hName hq', hNumber hq']
  split
  · rfl
  rename_i hBlank
  rw [if_neg hBlank] at h
  split
  · rename_i hRange
    rw [if_pos hRange] at h
    cases p with
    | nil => simp [startsCodeRange] at hRange
    | cons d p =>
      simp only [List.cons_append, List.drop_succ_cons, List.drop_zero]
      rw [readCodeRange_append hq, readCodeRange_append hq']
  rename_i hRange
  rw [if_neg hRange] at h
  split
  · rfl
  rename_i hMarkup
  rw [if_neg hMarkup] at h
  split
  · rename_i hStart
    rw [if_pos hStart] at h
    exact nameStep_of_stops hq hq' c h
  rename_i hStart
  rw [if_neg hStart] at h
  dsimp only at h ⊢
  split
  · rename_i hSign
    rw [if_pos hSign] at h
    exact signStep_of_stops hq hq' c h
  · rename_i hSign
    rw [if_neg hSign] at h
    exact numberStep_of_stops hq hq' c (readNumber_start _) (by simpa using hSign) h

end StyleSieve.Css
