import StyleSieve.Proofs.Selector.Lexemes

/-!
# Where the value of a text is that of its parts

What stands behind a character that is neither a backslash nor a digit of an escape is resolved on
its own. The character itself is lost only as the spacing of an escape in front of it.

* `meets`: the value of a text at such a character.
* `count_unescape_around`, `exists_unescape_behind`: how often a sign stands in a value.
* `eq_of_count`: what follows a sign is the same where the values have as many of these signs.
* `eq_of_unescape_cut`: only the spacing of an escape can be cut off without changing the value.
-/

namespace StyleSieve.Selector

open Text

variable {v w x y a b u : List Char} {c d e : Char}

/-! ## Escapes within a text -/

theorem unescape_ne_nil (h : v ≠ []) : unescape v ≠ [] := by
  fun_cases unescape v <;> simp_all

theorem escapeDigits_start (v : List Char) : escapeDigits 5 v <+: v :=
  (List.takeWhile_prefix _).trans (List.take_prefix 5 v)

/-- An escape ends in front of a character that is no digit, and may take it as its spacing only if it
has nothing but digits before. -/
theorem behindEscape_append (hHex : isHexDigit c = false) (v y : List Char) :
    escapeDigits 5 (v ++ c :: y) = escapeDigits 5 v ∧
      (behindEscape (v ++ c :: y) = behindEscape v ++ c :: y ∨
        v = escapeDigits 5 v ∧ isSpacing c = true ∧ behindEscape (v ++ c :: y) = y) := by
  have hDigits : escapeDigits 5 (v ++ c :: y) = escapeDigits 5 v := by
    refine escapeDigits_append ?_ v
    rintro _ ⟨⟩
    exact hHex
  refine ⟨hDigits, ?_⟩
  have hTaken := List.prefix_iff_eq_append.mp (escapeDigits_start v)
  rw [behindEscape, hDigits, List.drop_append_of_le_length (escapeDigits_start v).length_le, behindEscape]
  cases hBehind : v.drop (escapeDigits 5 v).length with
  | nil =>
    rw [hBehind, List.append_nil] at hTaken
    rw [List.nil_append, dropOneSpacing, dropOneSpacing]
    by_cases hSpacing : isSpacing c = true
    · rw [if_pos hSpacing]
      exact Or.inr ⟨hTaken.symm, hSpacing, rfl⟩
    · rw [if_neg hSpacing]
      exact Or.inl rfl
  | cons f more =>
    left
    rw [List.cons_append, dropOneSpacing, dropOneSpacing]
    split <;> rfl

theorem mem_hexDigits_getLast (hHex : isHexDigit d = true) (hDigits : v = escapeDigits 5 v) :
    ∃ f ∈ ('\\' :: d :: v).getLast?, isHexDigit f = true := by
  have hSome : (d :: v).getLast? = some ((d :: v).getLast (List.cons_ne_nil d v)) := List.getLast?_eq_some_getLast _
  refine ⟨_, by rw [List.getLast?_cons_cons, hSome]; rfl, ?_⟩
  rcases List.mem_cons.mp (List.getLast_mem (List.cons_ne_nil d v)) with hHead | hMember
  · rw [hHead]
    exact hHex
  · have hMember : (d :: v).getLast (List.cons_ne_nil d v) ∈ escapeDigits 5 v := hDigits ▸ hMember
    exact List.mem_takeWhile_imp hMember

/-- What becomes of the character `c` behind `v`: it stands for itself, it is the spacing of the escape
that `v` ends with, or the backslash at the end of `v` escapes it. -/
inductive Meets (v : List Char) (c : Char) (y : List Char) : Prop where
  | itself (h : unescape (v ++ c :: y) = unescape v ++ c :: unescape y)
  | spacing (hSpacing : isSpacing c = true) (hDigit : ∃ d ∈ v.getLast?, isHexDigit d = true)
      (h : unescape (v ++ c :: y) = unescape v ++ unescape y)
  | escaped (u : List Char) (hOpen : unescape v = u ++ ['\\'])
      (h : unescape (v ++ c :: y) = u ++ c :: unescape y)

theorem Meets.behind (hMeets : Meets v c y) (hOpen : unescape (x ++ v) = u ++ unescape v)
    (hWhole : unescape (x ++ (v ++ c :: y)) = u ++ unescape (v ++ c :: y)) : Meets (x ++ v) c y := by
  cases hMeets with
  | itself h => exact .itself (by rw [List.append_assoc, hWhole, hOpen, h, List.append_assoc])
  | spacing hSpacing hDigit h =>
    obtain ⟨d, hLast, hHex⟩ := hDigit
    refine .spacing hSpacing ⟨d, ?_, hHex⟩ (by rw [List.append_assoc, hWhole, hOpen, h, List.append_assoc])
    rw [List.getLast?_append, Option.mem_def.mp hLast]
    rfl
  | escaped u' hEnd h =>
    exact .escaped (u ++ u') (by rw [hOpen, hEnd, List.append_assoc])
      (by rw [List.append_assoc, hWhole, h, List.append_assoc])

theorem meets (hHex : isHexDigit c = false) (hSlash : c ≠ '\\') (v y : List Char) : Meets v c y := by
  induction hLength : v.length using Nat.strongRecOn generalizing v with
  | ind n ih =>
  cases v with
  | nil => exact .itself (by rw [List.nil_append, unescape_cons hSlash, unescape, List.nil_append])
  | cons d v =>
    rw [List.length_cons] at hLength
    by_cases hD : d = '\\'
    · subst hD
      cases v with
      | nil => exact .escaped [] (by rw [unescape, List.nil_append]) (unescape_escape hHex y)
      | cons d v =>
        rw [List.length_cons] at hLength
        by_cases hD : isHexDigit d = true
        · obtain ⟨hDigits, hBehind⟩ := behindEscape_append hHex v y
          have hWhole := unescape_digit hD (v ++ c :: y)
          have hOpen := unescape_digit hD v
          rw [hDigits] at hWhole
          rcases hBehind with hBehind | ⟨hAll, hSpacing, hBehind⟩
          · have hShorter := length_behindEscape v
            have hText : '\\' :: d :: v = ('\\' :: d :: escapeRest v) ++ behindEscape v :=
              congrArg (fun rest => '\\' :: d :: rest) (escapeRest_append v).symm
            rw [hBehind] at hWhole
            rw [hText]
            refine (ih _ (by omega) (behindEscape v) rfl).behind
              (u := [escapedChar (digitsValue 16 (d :: escapeDigits 5 v))]) ?_ ?_
            · rw [← hText]
              exact hOpen
            · rw [← List.append_assoc, ← hText]
              exact hWhole
          · refine .spacing hSpacing (mem_hexDigits_getLast hD hAll) ?_
            have hNone : behindEscape v = [] := by
              have hRest := escapeRest_append v
              have hTaken := congrArg List.length hRest
              rw [escapeRest, ← hAll, List.length_append, List.length_append] at hTaken
              exact List.length_eq_zero_iff.mp (by omega)
            rw [List.cons_append, List.cons_append, hWhole, hOpen, hBehind, hNone, unescape]
            rfl
        · have hD : isHexDigit d = false := by simpa using hD
          exact (ih _ (by omega) v rfl).behind (x := ['\\', d]) (u := [d]) (unescape_escape hD v)
            (unescape_escape hD _)
    · exact (ih _ (by omega) v rfl).behind (x := [d]) (u := [d]) (unescape_cons hD v) (unescape_cons hD _)

/-! ## Signs in a value -/

/-- A text whose characters stand for themselves, without the sign `e`. -/
def IsHarmless (e : Char) (a : List Char) : Prop :=
  ∀ c ∈ a, isHexDigit c = false ∧ c ≠ '\\' ∧ c ≠ e

theorem IsHarmless.append (hA : IsHarmless e a) (hB : IsHarmless e b) : IsHarmless e (a ++ b) := by
  intro c hc
  rcases List.mem_append.mp hc with hc | hc
  · exact hA c hc
  · exact hB c hc

theorem IsHarmless.notMem (h : IsHarmless e a) : e ∉ a := fun hMember => (h e hMember).2.2 rfl

theorem unescape_harmless (h : ∀ c ∈ a, c ≠ '\\') (rest : List Char) :
    unescape (a ++ rest) = a ++ unescape rest := by
  induction a with
  | nil => rfl
  | cons c a ih =>
    obtain ⟨hSlash, hMore⟩ := List.forall_mem_cons.mp h
    rw [List.cons_append, unescape_cons hSlash, ih hMore, List.cons_append]

/-- Harmless text around another one adds no sign to its value. -/
theorem count_unescape_around (hSlash : e ≠ '\\') (hA : IsHarmless e a) (hB : IsHarmless e b) (v : List Char) :
    (unescape (a ++ (v ++ b))).count e = (unescape v).count e := by
  rw [unescape_harmless fun c hc => (hA c hc).2.1, List.count_append,
    List.count_eq_zero_of_not_mem hA.notMem, Nat.zero_add]
  cases b with
  | nil => rw [List.append_nil]
  | cons c y =>
    obtain ⟨hHex, hC, hE⟩ := hB c List.mem_cons_self
    have hY : IsHarmless e y := fun c hc => hB c (List.mem_cons_of_mem _ hc)
    have hNone : (unescape y).count e = 0 := by
      have hValue := unescape_harmless (fun c hc => (hY c hc).2.1) []
      rw [List.append_nil, unescape, List.append_nil] at hValue
      rw [hValue]
      exact List.count_eq_zero_of_not_mem hY.notMem
    cases meets hHex hC v y with
    | itself h => rw [h, List.count_append, List.count_cons_of_ne hE, hNone, Nat.add_zero]
    | spacing _ _ h => rw [h, List.count_append, hNone, Nat.add_zero]
    | escaped u hOpen h =>
      rw [h, hOpen, List.count_append, List.count_append, List.count_cons_of_ne hE, hNone,
        List.count_cons_of_ne hSlash.symm, List.count_nil]

/-- No sign is lost where a text goes on. -/
theorem count_unescape_le (hSlash : e ≠ '\\') (hStop : ∀ c ∈ y.head?, isHexDigit c = false ∧ c ≠ '\\')
    (v : List Char) : (unescape v).count e ≤ (unescape (v ++ y)).count e := by
  cases y with
  | nil => rw [List.append_nil]
  | cons c y =>
    obtain ⟨hHex, hC⟩ := hStop c rfl
    cases meets hHex hC v y with
    | itself h => rw [h, List.count_append]; omega
    | spacing _ _ h => rw [h, List.count_append]; omega
    | escaped u hOpen h =>
      rw [h, hOpen, List.count_append, List.count_append, List.count_cons_of_ne hSlash.symm, List.count_nil]
      omega

/-- A sign that is no spacing stands in the value of the text. -/
theorem exists_unescape_behind (hHex : isHexDigit e = false) (hSlash : e ≠ '\\') (hSpacing : isSpacing e = false)
    (w y : List Char) : ∃ u, unescape (w ++ e :: y) = u ++ e :: unescape y := by
  cases meets hHex hSlash w y with
  | itself h => exact ⟨_, h⟩
  | spacing h =>
    rw [hSpacing] at h
    cases h
  | escaped u _ h => exact ⟨u, h⟩

theorem count_unescape_behind (hHex : isHexDigit e = false) (hSlash : e ≠ '\\') (hSpacing : isSpacing e = false)
    (w y : List Char) : (unescape y).count e < (unescape (w ++ e :: y)).count e := by
  obtain ⟨u, h⟩ := exists_unescape_behind hHex hSlash hSpacing w y
  rw [h, List.count_append, List.count_cons_self]
  omega

theorem behind_cases (h : a ++ e :: v = b ++ e :: w) :
    v = w ∨ (∃ x, v = x ++ e :: w) ∨ ∃ x, w = x ++ e :: v := by
  rcases List.append_eq_append_iff.mp h with ⟨x, -, hX⟩ | ⟨x, -, hX⟩
  · cases x with
    | nil => exact Or.inl (List.cons.inj hX).2
    | cons f x => exact Or.inr (Or.inl ⟨x, (List.cons.inj hX).2⟩)
  · cases x with
    | nil => exact Or.inl (List.cons.inj hX).2.symm
    | cons f x => exact Or.inr (Or.inr ⟨x, (List.cons.inj hX).2⟩)

/-- What follows a sign is the same where the values have as many of these signs. -/
theorem eq_of_count (hHex : isHexDigit e = false) (hSlash : e ≠ '\\') (hSpacing : isSpacing e = false)
    (h : a ++ e :: v = b ++ e :: w) (hCount : (unescape v).count e = (unescape w).count e) : v = w := by
  rcases behind_cases h with h | ⟨x, rfl⟩ | ⟨x, rfl⟩
  · exact h
  · have := count_unescape_behind hHex hSlash hSpacing x w
    omega
  · have := count_unescape_behind hHex hSlash hSpacing x v
    omega

/-! ## Cuts -/

/-- Blanks that stand in front of a text, but not of what has at least the same value, are none. -/
theorem eq_nil_of_blanks {blanks text behind : List Char} (hText : text ++ behind = blanks ++ y)
    (hSome : text ≠ []) (hHarmless : ∀ b ∈ text.head?, isBlank b = true → b ≠ '\\' ∧ IsHarmless b behind)
    (hBlanks : ∀ b ∈ blanks, isBlank b = true)
    (hValue : ∀ e, e ≠ '\\' → (unescape text).count e ≤ (unescape y).count e) : blanks = [] := by
  cases blanks with
  | nil => rfl
  | cons b blanks =>
    obtain ⟨c, more, rfl⟩ := List.exists_cons_of_ne_nil hSome
    obtain ⟨rfl, hMore⟩ := List.cons.inj hText
    obtain ⟨hSlash, hBehind⟩ := hHarmless c rfl (hBlanks c List.mem_cons_self)
    have hCount := count_unescape_around hSlash (a := []) (by intro c hc; cases hc) hBehind (c :: more)
    have hPlain : ∀ b ∈ c :: blanks, b ≠ '\\' := by
      intro b hb
      rintro rfl
      cases hBlanks _ hb
    have hLess := hValue c hSlash
    rw [List.nil_append, hText, unescape_harmless hPlain, List.count_append, List.count_cons_self] at hCount
    omega

/-- If the value does not change where a text is cut off, only the spacing of an escape is cut off. -/
theorem eq_of_unescape_cut (hHex : isHexDigit c = false) (hSlash : c ≠ '\\')
    (h : unescape (v ++ c :: y) = unescape v) :
    y = [] ∧ isSpacing c = true ∧ ∃ d ∈ v.getLast?, isHexDigit d = true := by
  cases meets hHex hSlash v y with
  | itself hSame =>
    rw [hSame] at h
    have := congrArg List.length h
    simp at this
  | spacing hSpacing hDigit hSame =>
    rw [hSame, List.append_right_eq_self] at h
    exact ⟨by_contra fun hSome => unescape_ne_nil hSome h, hSpacing, hDigit⟩
  | escaped u hOpen hSame =>
    rw [hSame, hOpen, List.append_cancel_left_eq] at h
    exact absurd (List.cons.inj h).1 hSlash

end StyleSieve.Selector
