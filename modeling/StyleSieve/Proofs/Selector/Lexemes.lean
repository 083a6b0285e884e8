import StyleSieve.Proofs.Css.Spelling
import StyleSieve.Proofs.Selector.Spelling
import StyleSieve.Proofs.Selector.Strings

/-!
# Selectors as lexemes of style sheets

In a normalized text, a style sheet reads the names and strings of selectors as the same values.

* `css_readName`: a name of a selector is the same name for a style sheet.
* `css_readString`: a string in an attribute selector is the same string for a style sheet.
-/

namespace StyleSieve.Selector

open Text
open Css (isPlain)

variable {isPart : Char → Bool} {cs name rest x after : List Char} {c d : Char}

/-! ## Escapes -/

/-- One spacing character at the start. -/
def oneSpacing : List Char → List Char
  | c :: _ => if isSpacing c then [c] else []
  | [] => []

theorem oneSpacing_append (cs : List Char) : oneSpacing cs ++ dropOneSpacing cs = cs := by
  cases cs with
  | nil => rfl
  | cons c rest =>
    rw [oneSpacing, dropOneSpacing]
    split <;> rfl

/-- The digits of an escape behind the first. -/
def escapeDigits (room : Nat) (cs : List Char) : List Char := (cs.take room).takeWhile isHexDigit

theorem escapeDigits_digit (hHex : isHexDigit c = true) (room : Nat) (rest : List Char) :
    escapeDigits (room + 1) (c :: rest) = c :: escapeDigits room rest := by
  rw [escapeDigits, List.take_succ_cons, List.takeWhile_cons_of_pos hHex]
  rfl

theorem escapeDigits_other (hHex : isHexDigit c = false) (room : Nat) (rest : List Char) :
    escapeDigits room (c :: rest) = [] := by
  cases room with
  | zero => rfl
  | succ room =>
    rw [escapeDigits, List.take_succ_cons, List.takeWhile_cons_of_neg (by simp [hHex])]

theorem splitName_ordinary {room : Nat} (hHex : ¬(decide (1 < room) && isHexDigit c) = true)
    (hSpacing : isSpacing c = false) (rest : List Char) :
    splitName isPart room (c :: rest) = splitName isPart 0 (c :: rest) := by
  by_cases hSlash : c = '\\'
  · subst hSlash
    cases rest with
    | nil =>
      have hAlone : ∀ room, splitName isPart room ['\\'] =
          if isPart '\\' then (['\\'], []) else ([], ['\\']) := by
        intro room
        rw [splitName]
        · simp [isSpacing, isHexDigit, isAsciiDigit, splitName]
        · simp
      rw [hAlone, hAlone]
    | cons d rest => rw [splitName, splitName]
  · rw [splitName_cons hSlash, splitName_cons hSlash, if_neg hHex, hSpacing]
    simp

/-- Inside an escape, digits come first, then one spacing character, then the rest of the name. -/
theorem splitName_room (room : Nat) (cs : List Char) :
    splitName isPart (room + 1) cs =
      (escapeDigits room cs ++ (oneSpacing (cs.drop (escapeDigits room cs).length) ++
          (splitName isPart 0 (dropOneSpacing (cs.drop (escapeDigits room cs).length))).1),
        (splitName isPart 0 (dropOneSpacing (cs.drop (escapeDigits room cs).length))).2) := by
  induction room generalizing cs with
  | zero =>
    change splitName isPart 1 cs = (oneSpacing cs ++ (splitName isPart 0 (dropOneSpacing cs)).1,
      (splitName isPart 0 (dropOneSpacing cs)).2)
    cases cs with
    | nil => simp [splitName, oneSpacing, dropOneSpacing]
    | cons c rest =>
      by_cases hSpacing : isSpacing c = true
      · have hSlash : c ≠ '\\' := by
          rintro rfl
          cases hSpacing
        rw [splitName_cons hSlash, if_neg (by simp), if_pos (by simp [hSpacing]), oneSpacing,
          dropOneSpacing, if_pos hSpacing, if_pos hSpacing]
        rfl
      · rw [splitName_ordinary (by simp) (by simpa using hSpacing), oneSpacing, dropOneSpacing,
          if_neg hSpacing, if_neg hSpacing]
        rfl
  | succ room ih =>
    cases cs with
    | nil => simp [splitName, escapeDigits, oneSpacing, dropOneSpacing]
    | cons c rest =>
      by_cases hHex : isHexDigit c = true
      · have hSlash : c ≠ '\\' := by
          rintro rfl
          cases hHex
        rw [splitName_cons hSlash, if_pos (by simp [hHex]), escapeDigits_digit hHex]
        simp [ih]
      · have hOther : isHexDigit c = false := by simpa using hHex
        rw [escapeDigits_other hOther]
        change _ = (oneSpacing (c :: rest) ++ (splitName isPart 0 (dropOneSpacing (c :: rest))).1,
          (splitName isPart 0 (dropOneSpacing (c :: rest))).2)
        by_cases hSpacing : isSpacing c = true
        · have hSlash : c ≠ '\\' := by
            rintro rfl
            cases hSpacing
          rw [splitName_cons hSlash, if_neg (by simp [hOther]), if_pos (by simp [hSpacing]), oneSpacing,
            dropOneSpacing, if_pos hSpacing, if_pos hSpacing]
          rfl
        · rw [splitName_ordinary (by simp [hOther]) (by simpa using hSpacing), oneSpacing,
            dropOneSpacing, if_neg hSpacing, if_neg hSpacing]
          rfl

/-- What an escape takes behind its first digit. -/
def escapeRest (cs : List Char) : List Char :=
  escapeDigits 5 cs ++ oneSpacing (cs.drop (escapeDigits 5 cs).length)

/-- What follows an escape, with the text given behind its first digit. -/
def behindEscape (cs : List Char) : List Char :=
  dropOneSpacing (cs.drop (escapeDigits 5 cs).length)

theorem escapeRest_append (cs : List Char) : escapeRest cs ++ behindEscape cs = cs := by
  have hStart : escapeDigits 5 cs <+: cs := (List.takeWhile_prefix _).trans (List.take_prefix 5 cs)
  rw [escapeRest, behindEscape, List.append_assoc, oneSpacing_append]
  exact List.prefix_iff_eq_append.mp hStart

theorem length_behindEscape (cs : List Char) : (behindEscape cs).length ≤ cs.length := by
  have hLength := congrArg List.length (escapeRest_append cs)
  rw [List.length_append] at hLength
  omega

theorem mem_escapeRest (h : c ∈ escapeRest cs) : isHexDigit c = true ∨ isSpacing c = true := by
  rcases List.mem_append.mp h with h | h
  · exact Or.inl (List.mem_takeWhile_imp h)
  · unfold oneSpacing at h
    split at h
    · split at h
      · rename_i hSpacing
        rw [List.mem_singleton.mp h]
        exact Or.inr hSpacing
      · cases h
    · cases h

/-- An escape in a name takes its digits and one spacing character. -/
theorem splitName_digit (hHex : isHexDigit d = true) (room : Nat) (rest : List Char) :
    splitName isPart room ('\\' :: d :: rest) =
      ('\\' :: d :: (escapeRest rest ++ (splitName isPart 0 (behindEscape rest)).1),
        (splitName isPart 0 (behindEscape rest)).2) := by
  rw [splitName, if_pos hHex, splitName_room, escapeRest, List.append_assoc]
  rfl

/-- The end of an escape does not depend on what follows the text. -/
theorem escapeDigits_append {room : Nat} (h : ∀ c ∈ rest.head?, isHexDigit c = false) (x : List Char) :
    escapeDigits room (x ++ rest) = escapeDigits room x := by
  induction room generalizing x with
  | zero => rfl
  | succ room ih =>
    cases x with
    | nil =>
      cases rest with
      | nil => rfl
      | cons c rest => exact escapeDigits_other (h c rfl) _ _
    | cons d x =>
      by_cases hHex : isHexDigit d = true
      · rw [List.cons_append, escapeDigits_digit hHex, escapeDigits_digit hHex, ih]
      · rw [List.cons_append, escapeDigits_other (by simpa using hHex),
          escapeDigits_other (by simpa using hHex)]

theorem unescape_digit (hHex : isHexDigit d = true) (rest : List Char) :
    unescape ('\\' :: d :: rest) =
      escapedChar (digitsValue 16 (d :: escapeDigits 5 rest)) :: unescape (behindEscape rest) := by
  have hDigits : ((d :: rest).take 6).takeWhile isHexDigit = d :: escapeDigits 5 rest :=
    escapeDigits_digit hHex 5 rest
  rw [unescape, if_pos (by rfl), if_pos hHex, hDigits]
  rfl

/-- What follows the spacing of an escape is what follows it in any part of the text. -/
theorem dropOneSpacing_part (h : dropOneSpacing cs = x ++ after) :
    dropOneSpacing (oneSpacing cs ++ x) = x := by
  cases cs with
  | nil =>
    rw [dropOneSpacing, eq_comm, List.append_eq_nil_iff] at h
    rw [h.1]
    rfl
  | cons c rest =>
    by_cases hSpacing : isSpacing c = true
    · rw [oneSpacing, if_pos hSpacing, List.singleton_append, dropOneSpacing, if_pos hSpacing]
    · rw [dropOneSpacing, if_neg hSpacing] at h
      rw [oneSpacing, if_neg hSpacing, List.nil_append]
      cases x with
      | nil => rfl
      | cons d x =>
        obtain ⟨rfl, -⟩ := List.cons.inj h
        rw [dropOneSpacing, if_neg hSpacing]

/-- An escape has the same digits in any part of the text that contains it whole. -/
theorem escapeDigits_part (hAfter : ∀ c ∈ after.head?, isHexDigit c = false)
    (h : behindEscape rest = x ++ after) :
    escapeDigits 5 (escapeRest rest ++ x) = escapeDigits 5 rest := by
  rw [← escapeDigits_append hAfter, List.append_assoc, ← h, escapeRest_append]

/-- An escape stands for the same character in any part of the text that contains it whole. -/
theorem unescape_part (hHex : isHexDigit d = true) (hAfter : ∀ c ∈ after.head?, isHexDigit c = false)
    (h : behindEscape rest = x ++ after) :
    unescape ('\\' :: d :: (escapeRest rest ++ x)) =
      escapedChar (digitsValue 16 (d :: escapeDigits 5 rest)) :: unescape x := by
  rw [unescape_digit hHex, behindEscape, escapeDigits_part hAfter h, escapeRest, List.append_assoc,
    List.drop_left, dropOneSpacing_part h]

/-! ## Escapes of surrogates -/

/-- Whether a text holds an escape that names half of a surrogate pair. -/
def escapesHalf : List Char → Bool
  | '\\' :: d :: rest =>
    (isHexDigit d && isSurrogate (digitsValue 16 (d :: escapeDigits 5 rest))) || escapesHalf rest
  | _ :: rest => escapesHalf rest
  | [] => false

theorem escapesHalf_cons (hSlash : c ≠ '\\') (rest : List Char) :
    escapesHalf (c :: rest) = escapesHalf rest := by
  rw [escapesHalf.eq_def]
  split <;> simp_all

theorem escapesHalf_append (h : ∀ c ∈ cs, c ≠ '\\') (rest : List Char) :
    escapesHalf (cs ++ rest) = escapesHalf rest := by
  induction cs with
  | nil => rfl
  | cons c cs ih =>
    rw [List.cons_append, escapesHalf_cons (h c List.mem_cons_self),
      ih fun d hd => h d (List.mem_cons_of_mem c hd)]

theorem escapesHalf_escape (hHex : isHexDigit d = false) (rest : List Char) :
    escapesHalf ('\\' :: d :: rest) = escapesHalf rest := by
  rw [escapesHalf, hHex, Bool.false_and, Bool.false_or]

theorem escapesHalf_digit (hHex : isHexDigit d = true) (rest x : List Char) :
    escapesHalf ('\\' :: d :: (escapeRest rest ++ x)) =
      (isSurrogate (digitsValue 16 (d :: escapeDigits 5 (escapeRest rest ++ x))) || escapesHalf x) := by
  have hSlash : ∀ c ∈ escapeRest rest, c ≠ '\\' := by
    rintro _ hc rfl
    rcases mem_escapeRest hc with hHex | hSpacing
    · cases hHex
    · cases hSpacing
  rw [escapesHalf, hHex, Bool.true_and, escapesHalf_append hSlash]

theorem codeChar_eq_escapedChar [Surrogates] {code : Nat} (h : isSurrogate code = false) :
    Css.codeChar code = escapedChar code := by
  rw [Css.codeChar, escapedChar, h, if_neg Bool.false_ne_true]
  change _ = if (code == 0 || decide (0x10FFFF < code) || isSurrogate code) = true then _ else _
  rw [h, Bool.or_false]

/-! ## Escapes of style sheets -/

theorem isBlank_css_iff (h : isPlain c = true) : Css.isBlank c = isSpacing c := by
  have hPlain : c ≠ '\r' ∧ c ≠ '\x0c' := by
    simp only [isPlain, Bool.and_eq_true, bne_iff_ne] at h
    exact h.1
  simp only [Css.isBlank, isSpacing, beq_eq_false_iff_ne.mpr hPlain.1,
    beq_eq_false_iff_ne.mpr hPlain.2, Bool.or_false]
  exact Bool.or_right_comm _ _ _

theorem readEscape_digit [Surrogates] (hHex : isHexDigit d = true) (rest : List Char) :
    Css.readEscape (d :: rest) = (Css.codeChar (digitsValue 16 (d :: escapeDigits 5 rest)),
      (escapeDigits 5 rest).length + 1 +
        match rest.drop (escapeDigits 5 rest).length with
        | c :: _ => if Css.isBlank c then 1 else 0
        | [] => 0) := by
  have hDigits : ((d :: rest).take 6).takeWhile isHexDigit = d :: escapeDigits 5 rest :=
    escapeDigits_digit hHex 5 rest
  unfold Css.readEscape
  rw [hDigits]
  rfl

/-- A style sheet reads an escape to the same end, and as the same character unless this is half of a
surrogate pair. -/
theorem css_readEscape [Surrogates] (hHex : isHexDigit d = true) (h : rest.all isPlain = true)
    (hHalf : isSurrogate (digitsValue 16 (d :: escapeDigits 5 rest)) = false) :
    Css.readEscape (d :: rest) =
      (escapedChar (digitsValue 16 (d :: escapeDigits 5 rest)), (d :: escapeRest rest).length) := by
  have hMember : ∀ c ∈ rest.drop (escapeDigits 5 rest).length, isPlain c = true :=
    fun c hc => List.all_eq_true.mp h c (List.mem_of_mem_drop hc)
  rw [readEscape_digit hHex, codeChar_eq_escapedChar hHalf, escapeRest]
  cases hBehind : rest.drop (escapeDigits 5 rest).length with
  | nil => simp [oneSpacing]
  | cons c more =>
    have hBlank := isBlank_css_iff (hMember c (by rw [hBehind]; exact List.mem_cons_self))
    simp only [oneSpacing, hBlank]
    by_cases hSpacing : isSpacing c = true
    · simp [hSpacing]
    · simp [hSpacing]

theorem drop_escapeRest (d : Char) (rest : List Char) :
    (d :: rest).drop (d :: escapeRest rest).length = behindEscape rest := by
  have hText := escapeRest_append rest
  generalize hTaken : escapeRest rest = taken at hText ⊢
  rw [← hText, List.length_cons, List.drop_succ_cons, List.drop_left, hText]

theorem readEscape_other [Surrogates] (hHex : isHexDigit d = false) (rest : List Char) :
    Css.readEscape (d :: rest) = (d, 1) := by
  have hDigits : ((d :: rest).take 6).takeWhile isHexDigit = [] := escapeDigits_other hHex 6 rest
  unfold Css.readEscape
  rw [hDigits]
  rfl

/-! ## Names -/

theorem plain_behindEscape (h : rest.all isPlain = true) : (behindEscape rest).all isPlain = true := by
  rw [← escapeRest_append rest, List.all_append, Bool.and_eq_true] at h
  exact h.2

theorem css_readName_escape [Surrogates] (hFeed : d ≠ '\n') (rest : List Char) :
    Css.readName ('\\' :: d :: rest) =
      let (e, k) := Css.readEscape (d :: rest)
      let r := Css.readName ((d :: rest).drop k)
      (e :: r.1, r.2 + k + 1) := by
  have hName : Css.isNamePart '\\' = false := by decide
  rw [Css.readName, if_neg (by simp [hName]), if_pos (by simp [Css.escapes, hFeed])]

/-- An escape of digits at the start of a name, with the rest of the name given. -/
theorem css_readName_digit [Surrogates] (hHex : isHexDigit d = true) (hPlain : rest.all isPlain = true)
    (hAfter : ∀ c ∈ after.head?, isHexDigit c = false) (hSplit : behindEscape rest = name ++ after)
    (hHalf : isSurrogate (digitsValue 16 (d :: escapeDigits 5 rest)) = false)
    (hRest : Css.readName (behindEscape rest) = (unescape name, name.length)) :
    Css.readName ('\\' :: d :: rest) =
      (unescape ('\\' :: d :: (escapeRest rest ++ name)),
        ('\\' :: d :: (escapeRest rest ++ name)).length) := by
  have hFeed : d ≠ '\n' := by
    rintro rfl
    cases hHex
  rw [css_readName_escape hFeed, css_readEscape hHex hPlain hHalf]
  dsimp only
  rw [drop_escapeRest, hRest, unescape_part hHex hAfter hSplit]
  simp
  omega

/-- A name of a selector that also ends for a style sheet is the same name for it, unless it names
half of a surrogate pair. -/
theorem css_readName [Surrogates] (hPlain : cs.all isPlain = true)
    (hHalf : escapesHalf (splitName isNamePart 0 cs).1 = false)
    (hEnds : ∀ c ∈ (splitName isNamePart 0 cs).2.head?, Css.isNamePart c = false ∧ c ≠ '\\') :
    Css.readName cs =
      (unescape (splitName isNamePart 0 cs).1, (splitName isNamePart 0 cs).1.length) := by
  induction hLength : cs.length using Nat.strongRecOn generalizing cs with
  | ind n ih =>
  cases cs with
  | nil =>
    rw [Css.readName, splitName, unescape]
    rfl
  | cons c rest =>
    rw [List.all_cons, Bool.and_eq_true] at hPlain
    rw [List.length_cons] at hLength
    by_cases hSlash : c = '\\'
    · subst hSlash
      cases rest with
      | nil =>
        have hAlone : splitName isNamePart 0 ['\\'] = ([], ['\\']) := by decide
        rw [hAlone] at hEnds
        exact absurd rfl (hEnds '\\' rfl).2
      | cons d rest =>
        rw [List.all_cons, Bool.and_eq_true] at hPlain
        rw [List.length_cons] at hLength
        by_cases hHex : isHexDigit d = true
        · rw [splitName_digit hHex] at hEnds hHalf ⊢
          have hSplit := splitName_append_eq isNamePart 0 (behindEscape rest)
          have hShorter := length_behindEscape rest
          have hAfter : ∀ c ∈ (splitName isNamePart 0 (behindEscape rest)).2.head?,
              isHexDigit c = false := by
            intro c hc
            refine Bool.eq_false_iff.mpr fun hHex => ?_
            exact absurd (isHexDigit_isNamePart hHex) (by simp [(hEnds c hc).1])
          rw [escapesHalf_digit hHex, escapeDigits_part hAfter hSplit.symm, Bool.or_eq_false_iff] at hHalf
          exact css_readName_digit hHex hPlain.2.2 hAfter hSplit.symm hHalf.1
            (ih _ (by omega) (plain_behindEscape hPlain.2.2) hHalf.2 hEnds rfl)
        · have hOther : isHexDigit d = false := by simpa using hHex
          by_cases hLine : isLineEnd d = true
          · rw [splitName, if_neg hHex, if_pos hLine] at hEnds
            exact absurd rfl (hEnds '\\' rfl).2
          · have hFeed : d ≠ '\n' := by
              rintro rfl
              exact hLine rfl
            rw [splitName_escape hOther (by simpa using hLine)] at hEnds hHalf ⊢
            rw [escapesHalf_escape hOther] at hHalf
            rw [css_readName_escape hFeed, readEscape_other hOther]
            change (d :: (Css.readName rest).1, (Css.readName rest).2 + 1 + 1) = _
            rw [ih rest.length (by omega) hPlain.2.2 hHalf hEnds rfl, unescape_escape hOther]
            rfl
    · by_cases hPart : isNamePart c = true
      · rw [splitName_part hSlash hPart] at hEnds hHalf ⊢
        rw [escapesHalf_cons hSlash] at hHalf
        rw [Css.readName, if_pos (isNamePart_css hPart),
          ih rest.length (by omega) hPlain.2 hHalf hEnds rfl, unescape_cons hSlash]
        rfl
      · have hOther : isNamePart c = false := by simpa using hPart
        rw [splitName_stop_of_not hSlash hOther] at hEnds ⊢
        rw [Css.readName, if_neg (by simp [(hEnds c rfl).1]), if_neg (by simp [hSlash]), unescape]
        rfl

/-! ## Strings -/

section Strings

variable {quote : Char} {taken : List Char}

/-- Characters that neither end a string nor escape anything are taken as they are. -/
theorem exists_of_readQuotedRest {run : List Char} (hRun : ∀ c ∈ run, c ≠ quote ∧ c ≠ '\\')
    (h : readQuotedRest quote (run ++ rest) = some (taken, after)) :
    (∀ c ∈ run, isLineEnd c = false) ∧
      ∃ more, taken = run ++ more ∧ readQuotedRest quote rest = some (more, after) := by
  induction run generalizing taken with
  | nil => exact ⟨nofun, taken, rfl, h⟩
  | cons c run ih =>
    obtain ⟨hQuote, hSlash⟩ := hRun c List.mem_cons_self
    have hLine : isLineEnd c = false := by
      refine Bool.eq_false_iff.mpr fun hLine => ?_
      rw [List.cons_append, readQuotedRest, if_neg (by simpa using hQuote), if_pos (by simp [hLine])] at h
      · cases h
      · exact fun d more hSame => absurd hSame hSlash
    rw [List.cons_append, readQuotedRest_plain hQuote hSlash hLine] at h
    obtain ⟨⟨more, after'⟩, hMore, h⟩ := Option.map_eq_some_iff.mp h
    cases h
    obtain ⟨hLines, more', rfl, hRest⟩ := ih (fun d hd => hRun d (List.mem_cons_of_mem c hd)) hMore
    refine ⟨?_, more', rfl, hRest⟩
    intro d hd
    rcases List.mem_cons.mp hd with rfl | hd
    · exact hLine
    · exact hLines d hd

theorem css_readString_plain [Surrogates] (hQuote : c ≠ quote) (hSlash : c ≠ '\\') (hFeed : c ≠ '\n')
    (rest : List Char) :
    Css.readString quote (c :: rest) = (c :: (Css.readString quote rest).1,
      (Css.readString quote rest).2.1 + 1, (Css.readString quote rest).2.2) := by
  rw [Css.readString_cons, if_neg (by simpa using hQuote), if_neg (by simpa using hSlash),
    if_neg (by simpa using hFeed)]

theorem css_readString_escape [Surrogates] (hSlash : quote ≠ '\\') (hFeed : d ≠ '\n') (rest : List Char) :
    Css.readString quote ('\\' :: d :: rest) =
      let (e, k) := Css.readEscape (d :: rest)
      let r := Css.readString quote ((d :: rest).drop k)
      (e :: r.1, r.2.1 + k + 1, r.2.2) := by
  rw [Css.readString_cons, if_neg (by simpa using hSlash.symm), if_pos (by rfl)]
  dsimp only
  rw [if_neg (by simpa using hFeed)]

theorem ne_of_mem_escapeRest (hQuote : isHexDigit quote = false ∧ isSpacing quote = false)
    (hc : c ∈ escapeRest rest) : c ≠ quote ∧ c ≠ '\\' := by
  rcases mem_escapeRest hc with hHex | hSpacing
  · constructor <;> rintro rfl
    · rw [hQuote.1] at hHex
      cases hHex
    · cases hHex
  · constructor <;> rintro rfl
    · rw [hQuote.2] at hSpacing
      cases hSpacing
    · cases hSpacing

/-- An escape of digits at the start of a string, with the rest of the string given. -/
theorem css_readString_digit [Surrogates] {body : List Char} (hSlash : quote ≠ '\\')
    (hQuote : isHexDigit quote = false)
    (hHex : isHexDigit d = true) (hPlain : rest.all isPlain = true)
    (hSplit : behindEscape rest = body ++ quote :: after)
    (hHalf : isSurrogate (digitsValue 16 (d :: escapeDigits 5 rest)) = false)
    (hRest : Css.readString quote (behindEscape rest) = (unescape body, body.length + 1, .closed)) :
    Css.readString quote ('\\' :: d :: rest) =
      (unescape ('\\' :: d :: (escapeRest rest ++ body)),
        ('\\' :: d :: (escapeRest rest ++ body)).length + 1, .closed) := by
  have hFeed : d ≠ '\n' := by
    rintro rfl
    cases hHex
  have hAfter : ∀ c ∈ (quote :: after).head?, isHexDigit c = false := by
    intro c hc
    cases hc
    exact hQuote
  rw [css_readString_escape hSlash hFeed, css_readEscape hHex hPlain hHalf]
  dsimp only
  rw [drop_escapeRest, hRest, unescape_part hHex hAfter hSplit]
  simp
  omega

/-- A string of an attribute selector is the same string for a style sheet, unless it names half of a
surrogate pair. -/
theorem css_readString [Surrogates] (hQuote : quote = '"' ∨ quote = '\'') (hPlain : cs.all isPlain = true)
    (h : readQuotedRest quote cs = some (taken, after)) (hHalf : escapesHalf taken = false) :
    ∃ body, taken = body ++ [quote] ∧
      Css.readString quote cs = (unescape body, taken.length, .closed) := by
  have hNot : quote ≠ '\\' ∧ isHexDigit quote = false ∧ isSpacing quote = false := by
    rcases hQuote with rfl | rfl <;> decide
  induction hLength : cs.length using Nat.strongRecOn generalizing cs taken with
  | ind n ih =>
  cases cs with
  | nil => cases h
  | cons c rest =>
  rw [List.all_cons, Bool.and_eq_true] at hPlain
  rw [List.length_cons] at hLength
  by_cases hSlash : c = '\\'
  · subst hSlash
    cases rest with
    | nil =>
      rw [readQuotedRest, if_neg (by simpa using hNot.1.symm), if_pos (by rfl)] at h
      · cases h
      · intro d rest _ hMore
        cases hMore
    | cons d rest =>
      rw [List.all_cons, Bool.and_eq_true] at hPlain
      rw [List.length_cons] at hLength
      have hFeed : d ≠ '\n' := by
        rintro rfl
        cases h
      rw [readQuotedRest_escape hFeed] at h
      obtain ⟨⟨more, after'⟩, hMore, h⟩ := Option.map_eq_some_iff.mp h
      cases h
      by_cases hHex : isHexDigit d = true
      · have hShorter := length_behindEscape rest
        rw [← escapeRest_append rest] at hMore
        obtain ⟨-, more', rfl, hRest⟩ :=
          exists_of_readQuotedRest (fun c hc => ne_of_mem_escapeRest hNot.2 hc) hMore
        have hWhole := readQuotedRest_append hRest
        rw [escapesHalf_digit hHex, Bool.or_eq_false_iff] at hHalf
        obtain ⟨body, rfl, hBody⟩ :=
          ih _ (by omega) (plain_behindEscape hPlain.2.2) hRest hHalf.2 rfl
        rw [List.length_append] at hBody
        rw [List.append_assoc] at hWhole
        have hAfter : ∀ x, ∀ c ∈ (quote :: x).head?, isHexDigit c = false := by
          intro x c hc
          cases hc
          exact hNot.2.1
        rw [← List.append_assoc, escapeDigits_append (hAfter []),
          escapeDigits_part (hAfter after') hWhole.symm] at hHalf
        refine ⟨'\\' :: d :: (escapeRest rest ++ body), by simp, ?_⟩
        rw [css_readString_digit hNot.1 hNot.2.1 hHex hPlain.2.2 hWhole.symm hHalf.1 hBody]
        simp [Nat.add_assoc]
      · have hOther : isHexDigit d = false := by simpa using hHex
        rw [escapesHalf_escape hOther] at hHalf
        obtain ⟨body, rfl, hBody⟩ := ih _ (by omega) hPlain.2.2 hMore hHalf rfl
        refine ⟨'\\' :: d :: body, rfl, ?_⟩
        rw [css_readString_escape hNot.1 hFeed, readEscape_other hOther]
        dsimp only
        rw [List.drop_one, List.tail_cons, hBody, unescape_escape hOther]
        rfl
  · by_cases hEnd : c = quote
    · subst hEnd
      rw [readQuotedRest_quote hNot.1] at h
      cases h
      refine ⟨[], rfl, ?_⟩
      rw [Css.readString_cons, if_pos (by simp), unescape]
      rfl
    · have hRun : ∀ d ∈ [c], d ≠ quote ∧ d ≠ '\\' := by
        intro d hd
        rw [List.mem_singleton.mp hd]
        exact ⟨hEnd, hSlash⟩
      obtain ⟨hLine, more, rfl, hRest⟩ := exists_of_readQuotedRest hRun h
      rw [List.singleton_append, escapesHalf_cons hSlash] at hHalf
      obtain ⟨body, rfl, hBody⟩ := ih _ (by omega) hPlain.2 hRest hHalf rfl
      have hFeed : c ≠ '\n' := by
        rintro rfl
        exact absurd (hLine '\n' List.mem_cons_self) (by decide)
      refine ⟨c :: body, rfl, ?_⟩
      rw [css_readString_plain hEnd hSlash hFeed, hBody, unescape_cons hSlash]
      rfl

end Strings

end StyleSieve.Selector
