import StyleSieve.Selector.Escape

/-!
# Reading names

A name is read as far as it goes. Nothing of the text is lost in between, and a reader that lets
further characters into a name reads the same name where it cannot go on either.

* `splitName_append_eq`: what is read and what remains are the text again.
* `splitName_of_le`: a name that ends for a laxer reader as well is the same name for it.
* `IsSpelling`: a text that is read whole inside a name, with the value that it stands for.
* `readName_iff`: what it means that a name stands in front of a text.
-/

namespace StyleSieve.Selector

open Text

variable {isPart isOther : Char → Bool} {room : Nat} {cs name after rest x y : List Char} {c d : Char}

/-! ## Runs -/

theorem splitName_append_eq (isPart : Char → Bool) (room : Nat) (cs : List Char) :
    (splitName isPart room cs).1 ++ (splitName isPart room cs).2 = cs := by
  fun_induction splitName isPart room cs <;> simp_all

/-- A run ends at the end, at a backslash that is no escape, or at a character that is no part
of it. -/
theorem splitName_stop (isPart : Char → Bool) (room : Nat) (cs : List Char) :
    ∀ c ∈ (splitName isPart room cs).2.head?, c = '\\' ∨ isPart c = false := by
  fun_induction splitName isPart room cs <;> simp_all

/-- A name that ends for a laxer reader as well is the same name for it. -/
theorem splitName_of_le (hLe : ∀ c, isPart c = true → isOther c = true)
    (hStop : ∀ c ∈ (splitName isPart room cs).2.head?, isOther c = false) :
    splitName isOther room cs = splitName isPart room cs := by
  fun_induction splitName isPart room cs with
  | case1 room => rw [splitName]
  | case2 room d rest hHex taken after hRest ih =>
    rw [splitName, if_pos hHex, ih (hRest ▸ hStop), hRest]
  | case3 room d rest hHex hLine => rw [splitName, if_neg hHex, if_pos hLine]
  | case4 room d rest hHex hLine taken after hRest ih =>
    rw [splitName, if_neg hHex, if_neg hLine, ih (hRest ▸ hStop), hRest]
  | case5 room c rest hOther hHex taken after hRest ih =>
    rw [splitName, if_pos hHex, ih (hRest ▸ hStop), hRest]
    exact hOther
  | case6 room c rest hOther hHex hPart taken after hRest ih =>
    have hPart' : (decide (0 < room) && isSpacing c || isOther c) = true := by
      rcases Bool.or_eq_true_iff.mp hPart with hGap | hPart
      · rw [hGap, Bool.true_or]
      · rw [hLe c hPart, Bool.or_true]
    rw [splitName, if_neg hHex, if_pos hPart', ih (hRest ▸ hStop), hRest]
    exact hOther
  | case7 room c rest hOther hHex hPart =>
    have hStop : isOther c = false := hStop c rfl
    have hPart' : ¬(decide (0 < room) && isSpacing c || isOther c) = true := by
      rw [hStop]
      simp_all
    rw [splitName, if_neg hHex, if_neg hPart']
    exact hOther

theorem splitName_cons (hSlash : c ≠ '\\') :
    splitName isPart room (c :: rest) =
      if 1 < room && isHexDigit c then
        (c :: (splitName isPart (room - 1) rest).1, (splitName isPart (room - 1) rest).2)
      else if (0 < room && isSpacing c) || isPart c then
        (c :: (splitName isPart 0 rest).1, (splitName isPart 0 rest).2)
      else ([], c :: rest) := by
  rw [splitName]
  intro d more hSame
  exact absurd hSame hSlash

theorem splitName_part (hSlash : c ≠ '\\') (hPart : isPart c = true) (rest : List Char) :
    splitName isPart 0 (c :: rest) =
      (c :: (splitName isPart 0 rest).1, (splitName isPart 0 rest).2) := by
  rw [splitName_cons hSlash]
  simp [hPart]

theorem splitName_stop_of_not (hSlash : c ≠ '\\') (hPart : isPart c = false) (rest : List Char) :
    splitName isPart 0 (c :: rest) = ([], c :: rest) := by
  rw [splitName_cons hSlash]
  simp [hPart]

/-- Parts of a name are read up to the first character that is none. -/
theorem splitName_parts (h : ∀ c ∈ cs, c ≠ '\\' ∧ isPart c = true)
    (hEnds : ∀ c ∈ rest.head?, c ≠ '\\' ∧ isPart c = false) :
    splitName isPart 0 (cs ++ rest) = (cs, rest) := by
  induction cs with
  | nil =>
    cases rest with
    | nil => rw [List.nil_append, splitName]
    | cons c rest =>
      obtain ⟨hSlash, hPart⟩ := hEnds c rfl
      exact splitName_stop_of_not hSlash hPart rest
  | cons c more ih =>
    obtain ⟨hSlash, hPart⟩ := h c List.mem_cons_self
    rw [List.cons_append, splitName_part hSlash hPart,
      ih fun d hd => h d (List.mem_cons_of_mem _ hd)]

theorem splitName_escape (hHex : isHexDigit d = false) (hLine : isLineEnd d = false)
    (rest : List Char) :
    splitName isPart room ('\\' :: d :: rest) =
      ('\\' :: d :: (splitName isPart 0 rest).1, (splitName isPart 0 rest).2) := by
  rw [splitName, if_neg (by simp [hHex]), if_neg (by simp [hLine])]

theorem splitName_digits {digits : List Char} (hDigits : ∀ d ∈ digits, isHexDigit d = true)
    (hRoom : digits.length < room) (rest : List Char) :
    splitName isPart room (digits ++ ' ' :: rest) =
      (digits ++ ' ' :: (splitName isPart 0 rest).1, (splitName isPart 0 rest).2) := by
  induction digits generalizing room with
  | nil =>
    have hGap : (decide (0 < room) && isSpacing ' ') = true := by
      simpa [isSpacing] using hRoom
    have hHex : (decide (1 < room) && isHexDigit ' ') = false := by
      simp [isHexDigit, isAsciiDigit]
    rw [List.nil_append, splitName_cons (by decide), hHex, hGap]
    rfl
  | cons d more ih =>
    have hHex := hDigits d List.mem_cons_self
    have hSlash : d ≠ '\\' := by
      rintro rfl
      cases hHex
    rw [List.length_cons] at hRoom
    rw [List.cons_append, splitName_cons hSlash, if_pos (by simp [hHex]; omega),
      ih (fun e he => hDigits e (List.mem_cons_of_mem d he)) (by omega)]
    rfl

/-- An escape with up to six digits takes the blank behind them. -/
theorem splitName_hex {digits : List Char} (hDigits : ∀ d ∈ digits, isHexDigit d = true)
    (hSome : digits ≠ []) (hLength : digits.length ≤ 6) (rest : List Char) :
    splitName isPart room ('\\' :: digits ++ ' ' :: rest) =
      ('\\' :: digits ++ ' ' :: (splitName isPart 0 rest).1, (splitName isPart 0 rest).2) := by
  obtain ⟨d, more, rfl⟩ := List.exists_cons_of_ne_nil hSome
  rw [List.length_cons] at hLength
  rw [List.cons_append, List.cons_append, splitName, if_pos (hDigits d List.mem_cons_self),
    splitName_digits (fun e he => hDigits e (List.mem_cons_of_mem d he)) (by omega)]
  rfl

/-! ## Escapes -/

theorem unescape_cons (hSlash : c ≠ '\\') (rest : List Char) :
    unescape (c :: rest) = c :: unescape rest := by
  cases rest with
  | nil => rw [unescape, unescape]
  | cons d rest => rw [unescape, if_neg (by simpa using hSlash)]

theorem unescape_escape (hHex : isHexDigit d = false) (rest : List Char) :
    unescape ('\\' :: d :: rest) = d :: unescape rest := by
  rw [unescape, if_pos (by rfl), if_neg (by simp [hHex])]

theorem unescape_hex {digits : List Char} (hDigits : ∀ d ∈ digits, isHexDigit d = true)
    (hSome : digits ≠ []) (hLength : digits.length ≤ 6) (rest : List Char) :
    unescape ('\\' :: digits ++ ' ' :: rest) =
      escapedChar (digitsValue 16 digits) :: unescape rest := by
  obtain ⟨d, more, rfl⟩ := List.exists_cons_of_ne_nil hSome
  have hTaken : ((d :: (more ++ ' ' :: rest)).take 6).takeWhile isHexDigit = d :: more := by
    obtain ⟨n, hn⟩ := Nat.exists_eq_add_of_le hLength
    rw [hn, ← List.cons_append, List.take_length_add_append, List.takeWhile_append_of_pos hDigits]
    cases n with
    | zero => simp
    | succ n => simp [isHexDigit, isAsciiDigit]
  simp only [List.cons_append]
  rw [unescape, if_pos (by rfl), if_pos (hDigits d List.mem_cons_self), hTaken]
  simp [dropOneSpacing, isSpacing]

/-! ## Names -/

/-- A text that no name can go on with. -/
def EndsName (rest : List Char) : Prop := splitName isNamePart 0 rest = ([], rest)

theorem readName_iff :
    readName cs = some (name, after) ↔
      startsName cs = true ∧ splitName isNamePart 0 cs = (name, after) := by
  unfold readName
  split <;> simp_all

theorem append_of_readName (h : readName cs = some (name, after)) : name ++ after = cs := by
  have hRead := splitName_append_eq isNamePart 0 cs
  rwa [(readName_iff.mp h).2] at hRead

theorem stop_of_readName (h : readName cs = some (name, after)) :
    ∀ c ∈ after.head?, c = '\\' ∨ isNamePart c = false := by
  have hStop := splitName_stop isNamePart 0 cs
  rwa [(readName_iff.mp h).2] at hStop

theorem isNamePart_ne_slash (h : isNamePart c = true) : c ≠ '\\' := by
  rintro rfl
  cases h

/-- A name starts with an escape or with a character that may stand in it. -/
theorem startsPlainName_cases (h : startsPlainName cs = true) :
    (∃ d rest, cs = '\\' :: d :: rest ∧ isLineEnd d = false) ∨
      ∃ c rest, cs = c :: rest ∧ isNamePart c = true := by
  unfold startsPlainName at h
  split at h
  · exact Or.inl ⟨_, _, rfl, by simpa using h⟩
  · exact Or.inr ⟨_, _, rfl, by simp [isNamePart, h]⟩
  · cases h

theorem startsName_cases (h : startsName cs = true) :
    (∃ d rest, cs = '\\' :: d :: rest ∧ isLineEnd d = false) ∨
      ∃ c rest, cs = c :: rest ∧ isNamePart c = true := by
  unfold startsName at h
  split at h
  · exact Or.inr ⟨_, _, rfl, by decide⟩
  · exact Or.inr ⟨_, _, rfl, by decide⟩
  · exact startsPlainName_cases h

theorem startsPlainName_cons (hSlash : c ≠ '\\') (rest : List Char) :
    startsPlainName (c :: rest) = isNameStart c := by
  rw [startsPlainName]
  exact fun d more hSame => absurd hSame hSlash

theorem startsName_cons (hHyphen : c ≠ '-') (rest : List Char) :
    startsName (c :: rest) = startsPlainName (c :: rest) := by
  rw [startsName]
  · exact fun more hSame => hHyphen (List.cons.inj hSame).1
  · exact fun more hSame => hHyphen (List.cons.inj hSame).1

theorem startsName_hyphen (hHyphen : c ≠ '-') (rest : List Char) :
    startsName ('-' :: c :: rest) = startsPlainName (c :: rest) := by
  rw [startsName]
  exact fun more hSame => hHyphen (List.cons.inj hSame).1

/-- Whether a name starts is seen before a character that ends it. -/
theorem startsPlainName_take (hSlash : c ≠ '\\') (hStart : isNameStart c = false) (y : List Char)
    (h : startsPlainName (x ++ c :: y) = true) : startsPlainName (x ++ [c]) = true := by
  match x with
  | [] =>
    rw [List.nil_append, startsPlainName_cons hSlash, hStart] at h
    cases h
  | a :: x =>
    by_cases hA : a = '\\'
    · subst hA
      cases x <;> exact h
    · rw [List.cons_append, startsPlainName_cons hA] at h ⊢
      exact h

theorem startsName_take (hSlash : c ≠ '\\') (hPart : isNamePart c = false) (hSome : x ≠ [])
    (h : startsName (x ++ c :: y) = true) : startsName (x ++ [c]) = true := by
  have hStart : isNameStart c = false := by simp_all [isNamePart]
  have hHyphen : c ≠ '-' := by
    rintro rfl
    cases hPart
  obtain ⟨a, x, rfl⟩ := List.exists_cons_of_ne_nil hSome
  by_cases hA : a = '-'
  · subst hA
    cases x with
    | nil =>
      change startsName ('-' :: c :: y) = true at h
      rw [startsName_hyphen hHyphen, startsPlainName_cons hSlash, hStart] at h
      cases h
    | cons b x =>
      by_cases hB : b = '-'
      · subst hB
        rfl
      · simp only [List.cons_append, startsName_hyphen hB] at h ⊢
        exact startsPlainName_take (x := b :: x) hSlash hStart y h
  · rw [List.cons_append, startsName_cons hA] at h ⊢
    exact startsPlainName_take (x := a :: x) hSlash hStart y h

theorem startsName_of_plain (h : startsPlainName cs = true) : startsName cs = true := by
  unfold startsName
  split
  · rfl
  · cases h
  · exact h

theorem startsPlainName_append (h : startsPlainName cs = true) (rest : List Char) :
    startsPlainName (cs ++ rest) = true := by
  unfold startsPlainName at h
  split at h
  · exact h
  · rename_i c more hOther
    have hSlash : c ≠ '\\' := by
      rintro rfl
      cases h
    rw [List.cons_append, startsPlainName]
    · exact h
    · exact fun d rest hSame => absurd hSame hSlash
  · cases h

theorem startsName_append (h : startsName cs = true) (rest : List Char) :
    startsName (cs ++ rest) = true := by
  unfold startsName at h
  split at h
  · rfl
  · rename_i more hOther
    rw [List.cons_append]
    unfold startsName
    split
    · rfl
    · rename_i hSame
      cases hSame
      exact startsPlainName_append h rest
    · rename_i hNot
      exact absurd rfl (hNot _)
  · exact startsName_of_plain (startsPlainName_append h rest)

theorem ne_nil_of_readName (h : readName cs = some (name, after)) : name ≠ [] := by
  obtain ⟨hStart, hSplit⟩ := readName_iff.mp h
  rcases startsName_cases hStart with ⟨d, rest, rfl, hLine⟩ | ⟨c, rest, rfl, hPart⟩
  · rw [splitName] at hSplit
    split at hSplit
    · rintro rfl
      cases hSplit
    · rw [if_neg (by simp [hLine])] at hSplit
      rintro rfl
      cases hSplit
  · rw [splitName_part (isNamePart_ne_slash hPart) hPart] at hSplit
    rintro rfl
    cases hSplit

/-! ## Spellings -/

/-- Wherever the text `x` stands inside a name, it is read whole and stands for `value`. -/
structure IsSpelling (x value : List Char) : Prop where
  split : ∀ rest, splitName isNamePart 0 (x ++ rest) =
    (x ++ (splitName isNamePart 0 rest).1, (splitName isNamePart 0 rest).2)
  unescape : ∀ rest, unescape (x ++ rest) = value ++ unescape rest

namespace IsSpelling

variable {x y value value' : List Char}

theorem nil : IsSpelling [] [] := ⟨fun _ => rfl, fun _ => rfl⟩

theorem append (h : IsSpelling x value) (h' : IsSpelling y value') :
    IsSpelling (x ++ y) (value ++ value') where
  split rest := by
    rw [List.append_assoc, h.split, h'.split, List.append_assoc]
  unescape rest := by
    rw [List.append_assoc, h.unescape, h'.unescape, List.append_assoc]

theorem part (hPart : isNamePart c = true) : IsSpelling [c] [c] :=
  ⟨splitName_part (isNamePart_ne_slash hPart) hPart, unescape_cons (isNamePart_ne_slash hPart)⟩

theorem escape (hHex : isHexDigit c = false) (hLine : isLineEnd c = false) :
    IsSpelling ['\\', c] [c] :=
  ⟨splitName_escape hHex hLine, unescape_escape hHex⟩

theorem hex {digits : List Char} (hDigits : ∀ d ∈ digits, isHexDigit d = true)
    (hSome : digits ≠ []) (hLength : digits.length ≤ 6) :
    IsSpelling ('\\' :: digits ++ [' ']) [escapedChar (digitsValue 16 digits)] where
  split rest := by
    rw [List.append_assoc]
    exact (splitName_hex hDigits hSome hLength rest).trans (by simp)
  unescape rest := by
    rw [List.append_assoc]
    exact unescape_hex hDigits hSome hLength rest

/-- What has a spelling character by character has one as a whole. -/
theorem flatMap {write : Char → List Char} (h : ∀ c ∈ value, IsSpelling (write c) [c]) :
    IsSpelling (value.flatMap write) value := by
  induction value with
  | nil => exact nil
  | cons c rest ih =>
    rw [List.flatMap_cons]
    exact (h c List.mem_cons_self).append (ih fun d hd => h d (List.mem_cons_of_mem c hd))

theorem unescape_eq (h : IsSpelling x value) : Selector.unescape x = value := by
  have hValue := h.unescape []
  rwa [List.append_nil, Selector.unescape, List.append_nil] at hValue

/-- A spelling that starts a name is read up to its end. -/
theorem readName (h : IsSpelling x value) (hStart : startsName (x ++ rest) = true) :
    readName (x ++ rest) =
      some (x ++ (splitName isNamePart 0 rest).1, (splitName isNamePart 0 rest).2) :=
  readName_iff.mpr ⟨hStart, h.split rest⟩

end IsSpelling

end StyleSieve.Selector
