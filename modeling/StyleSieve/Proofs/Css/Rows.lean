import StyleSieve.Proofs.Css.Plain
import StyleSieve.Proofs.Css.Reread

/-!
# The lexemes of a text in a row

Of the lexemes of a text each is sound, and some lexemes never come directly behind others.

* `Lexeme.isRegular`: lexemes whose spelling says all there is to them.
* `Admits`: what follows a lexeme in a text.
* `IsGrown`: rows of lexemes as texts have them.
* `isGrown_lexemes`: the lexemes of a text.
-/

namespace StyleSieve.Css

open Text

variable {c d : Char} {cs rest r value digits unit : List Char} {l : Lexeme} {ls : List Lexeme}

namespace Lexeme

/-- Something that could not be read. -/
def isFlaw : Lexeme → Bool
  | .flaw _ => true
  | _ => false

/-- The lexeme that is read where a lexeme is written. -/
def lowered : Lexeme → Lexeme
  | .dimension digits unit => .dimension digits (loweredUnit unit)
  | l => l

/-- A lexeme whose spelling can be read: no flaw, no address with a control character, and no unit
that would go on with the digits in front of it. -/
def isRegular : Lexeme → Bool
  | .flaw _ => false
  | .url w => w.all fun c => !isControl c
  | .dimension digits unit => hasExponent digits || !startsExponent unit
  | _ => true

/-- Signs that do not come directly behind a lexeme, though nothing would be put between them. -/
def strangers : Lexeme → List (List Char)
  | .number _ => [['%'], markupEnd]
  | .sign ['@'] => [markupEnd]
  | .sign ['#'] => [['-'], markupEnd]
  | .sign ['-'] => [['-'], markupEnd]
  | .sign ['|'] => [['|', '|'], ['|', '=']]
  | .sign ['/'] => [['*', '=']]
  | _ => []

/-- What follows a lexeme in a text. -/
structure Admits (l : Lexeme) (ls : List Lexeme) : Prop where
  signs : ∀ t ∈ l.strangers, .sign t ∉ ls.head?
  gaps : l.isGap = true → ∀ l' ∈ ls.head?, l'.isGap = false
  quoted : ∀ v, l = .function v → isUrlName v = true → StartsWithString ls
  lineEnd : l = .sign ['\\'] → ∃ t more, ls = .blank ('\n' :: t) :: more

end Lexeme

/-- A lexeme is written plainly, and is sound and followed by what may follow it. -/
structure Lexeme.Grows (l : Lexeme) (ls : List Lexeme) : Prop where
  plain : l.written.all isPlain = true
  sound : l.isRegular = true → l.lowered.IsSound
  admits : l.Admits ls

/-- Something holds of each lexeme of a row and those behind it. -/
def Everywhere (p : Lexeme → List Lexeme → Prop) : List Lexeme → Prop
  | [] => True
  | l :: ls => p l ls ∧ Everywhere p ls

theorem Everywhere.mono {p q : Lexeme → List Lexeme → Prop} (h : Everywhere p ls)
    (hImp : ∀ l ls, p l ls → q l ls) : Everywhere q ls := by
  induction ls with
  | nil => trivial
  | cons l ls ih => exact ⟨hImp l ls h.1, ih h.2⟩

theorem Everywhere.drop {p : Lexeme → List Lexeme → Prop} (front : List Lexeme)
    (h : Everywhere p (front ++ ls)) : Everywhere p ls := by
  induction front with
  | nil => exact h
  | cons l front ih => exact ih h.2

/-- Rows of lexemes as texts have them, apart from flaws and what stands in front of them. -/
def IsGrown (ls : List Lexeme) : Prop :=
  Everywhere (fun l ls => l.isFlaw = false → (∀ l' ∈ ls.head?, l'.isFlaw = false) → l.Grows ls) ls

/-! ## Soundness -/

theorem isFlaw_of_regular (h : l.isRegular = true) : l.isFlaw = false := by
  cases l <;> first | rfl | cases h

theorem readName_ne_nil [Surrogates] (h : ¬EndsName cs) : (readName cs).1 ≠ [] := by
  cases cs with
  | nil => exact absurd nofun h
  | cons c rest =>
    rw [readName]
    split
    · exact List.cons_ne_nil _ _
    split
    · exact List.cons_ne_nil _ _
    · rename_i hPart hEscape
      refine absurd (endsName_of_not ?_) h
      intro d more hSame
      cases hSame
      simp only [Bool.or_eq_true, not_or]
      exact ⟨hPart, hEscape⟩

theorem not_endsName_of_startsName [Surrogates] (h : startsName cs = true) : ¬EndsName cs := by
  intro hEnds
  have hNone := readName_pos h
  rw [readName_of_endsName hEnds] at hNone
  exact hNone rfl

theorem ne_nil_of_reads [Surrogates] {n : Nat} (h : startsName cs = true)
    (hRead : readName cs = (value, n)) :
    value ≠ [] := by
  have hSome := readName_ne_nil (not_endsName_of_startsName h)
  rw [hRead] at hSome
  exact hSome

/-- What is read behind `#` where no name starts. -/
theorem isDigitValue_readName [Surrogates] (hName : startsName cs = false) (hEnds : ¬EndsName cs) :
    IsDigitValue (readName cs).1 := by
  have hShape : ∀ cs, startsName cs = false → ¬EndsName cs → ∃ c rest, cs = c :: rest ∧
      (isAsciiDigit c = true ∨ c = '-') ∧ (readName cs).1 = c :: (readName rest).1 := by
    intro cs hName hEnds
    obtain ⟨c, rest, rfl⟩ : ∃ c rest, cs = c :: rest := by
      refine List.exists_cons_of_ne_nil ?_
      rintro rfl
      exact hEnds nofun
    have hNoEscape : (c == '\\' && escapes rest) = false := by
      refine Bool.eq_false_iff.mpr fun hEscape => ?_
      simp [startsName, hEscape] at hName
    have hPart : isNamePart c = true := by
      by_contra hOther
      refine hEnds (endsName_of_not ?_)
      intro d more hSame
      cases hSame
      rw [hNoEscape, Bool.or_false]
      exact hOther
    have hStart : isNameStart c = false := by
      refine Bool.eq_false_iff.mpr fun hStart => ?_
      simp [startsName, hStart] at hName
    refine ⟨c, rest, rfl, ?_, by rw [readName_part hPart]⟩
    simpa [isNamePart, hStart] using hPart
  obtain ⟨c, rest, rfl, hFirst, hRead⟩ := hShape cs hName hEnds
  rcases hFirst with hDigit | rfl
  · exact Or.inr ⟨c, _, hDigit, Or.inl hRead⟩
  · by_cases hRest : EndsName rest
    · refine Or.inl ?_
      rw [hRead, readName_of_endsName hRest]
    · have hBehind : startsName rest = false :=
        Bool.eq_false_iff.mpr fun h => Bool.eq_false_iff.mp hName (startsName_hyphen h)
      obtain ⟨d, more, rfl, hSecond, hRead'⟩ := hShape rest hBehind hRest
      rcases hSecond with hDigit | rfl
      · exact Or.inr ⟨d, _, hDigit, Or.inr (by rw [hRead, hRead'])⟩
      · cases hName

theorem readCodeRange_lt (cs : List Char) :
    (readCodeRange cs).1 < 16 ^ 6 ∧ (readCodeRange cs).2.1 < 16 ^ 6 := by
  have hDigits : ∀ {ds : List Char}, ds.length ≤ 6 → digitsValue 16 ds < 16 ^ 6 := fun hLength =>
    Nat.lt_of_lt_of_le (digitsValue_lt _) (Nat.pow_le_pow_right (by decide) hLength)
  have hTake : ∀ (cs : List Char) (f : Char → Bool) n, ((cs.take n).takeWhile f).length ≤ n :=
    fun cs f n => (length_takeWhile_le _).trans (List.length_take_le n cs)
  unfold readCodeRange
  have hFirst := hTake cs isHexDigit 6
  generalize (cs.take 6).takeWhile isHexDigit = first at hFirst ⊢
  dsimp only
  have hMarks := hTake (cs.drop first.length) (· == '?') (6 - first.length)
  generalize ((cs.drop first.length).take (6 - first.length)).takeWhile (· == '?') = marks at hMarks ⊢
  split
  · constructor <;> exact hDigits (by simp only [List.length_append, List.length_map]; omega)
  · split
    · rename_i more _
      split
      · exact ⟨hDigits hFirst, hDigits hFirst⟩
      · exact ⟨hDigits hFirst, hDigits (hTake more isHexDigit 6)⟩
    · exact ⟨hDigits hFirst, hDigits hFirst⟩

/-- The text of a comment does not close it. -/
theorem readComment_text (cs : List Char) :
    (readComment ((readComment cs).1 ++ ['*', '/'])).1 = (readComment cs).1 := by
  induction cs with
  | nil => rfl
  | cons c rest ih =>
    by_cases hClosed : c = '*' ∧ ∃ more, rest = '/' :: more
    · obtain ⟨rfl, more, rfl⟩ := hClosed
      rfl
    · have hOpen : ∀ more, c = '*' → rest = '/' :: more → False := fun more hStar hSlash =>
        hClosed ⟨hStar, more, hSlash⟩
      have hText : ∀ more, c = '*' → (readComment rest).1 ++ ['*', '/'] = '/' :: more → False := by
        intro more hStar hSlash
        cases rest with
        | nil => cases hSlash
        | cons d rest =>
          by_cases hEnd : d = '*' ∧ ∃ tail, rest = '/' :: tail
          · obtain ⟨rfl, tail, rfl⟩ := hEnd
            cases hSlash
          · rw [readComment.eq_3 _ _ fun tail hIs hTail => hEnd ⟨hIs, tail, hTail⟩] at hSlash
            exact hOpen rest hStar (congrArg (· :: rest) (List.cons.inj hSlash).1)
      rw [readComment.eq_3 _ _ hOpen]
      rw [List.cons_append, readComment.eq_3 _ _ hText]
      exact congrArg (c :: ·) ih

/-- An address whose text shows no control character has none. -/
theorem not_isControl_of_written {value : List Char}
    (h : (value.flatMap writtenInUrl).all (fun c => !isControl c) = true) :
    ∀ c ∈ value, isControl c = false := by
  intro c hc
  refine Bool.eq_false_iff.mpr fun hControl => ?_
  have hMem : c ∈ writtenInUrl c := by
    have hSpacing : ∀ d ∈ ['\t', '\n', '\r', '\x0c'], isControl d = false := by decide
    have hOther : ∀ d ∈ ['\t', '\n', '\r', '\x0c'], ¬(c == d) = true := by
      intro d hd hSame
      rw [eq_of_beq hSame, hSpacing d hd] at hControl
      cases hControl
    unfold writtenInUrl
    split
    · exact List.mem_cons_of_mem _ List.mem_cons_self
    · rw [if_neg (hOther '\t' (by decide)), if_neg (hOther '\n' (by decide)),
        if_neg (hOther '\r' (by decide)), if_neg (hOther '\x0c' (by decide))]
      exact List.mem_cons_self
  have hNone := List.all_eq_true.mp h c (List.mem_flatMap.mpr ⟨c, hc, hMem⟩)
  rw [hControl] at hNone
  cases hNone

theorem isSound_dimension (hDigits : IsNumeral digits) (hSome : unit ≠ [])
    (hRegular : (Lexeme.dimension digits unit).isRegular = true) :
    (Lexeme.dimension digits (loweredUnit unit)).IsSound := by
  rw [Lexeme.isRegular, Bool.or_eq_true, Bool.not_eq_true'] at hRegular
  by_cases hShort : ∃ rest, unit = 'E' :: rest ∧ (rest.isEmpty || rest.head? == some '-') = true
  · obtain ⟨rest, rfl, hRest⟩ := hShort
    rw [loweredUnit, if_pos hRest]
    refine ⟨hDigits, List.cons_ne_nil _ _, rfl, Or.inr ?_⟩
    cases rest with
    | nil => rfl
    | cons d more =>
      obtain rfl : d = '-' := by simpa using hRest
      rfl
  · have hSame : loweredUnit unit = unit := by
      unfold loweredUnit
      split
      · rename_i rest
        exact if_neg fun hRest => hShort ⟨rest, rfl, hRest⟩
      · rfl
    rw [hSame]
    exact ⟨hDigits, hSome, hSame, hRegular⟩

/-- The lexemes that are taken from a text are sound. -/
theorem Takes.isSound [Surrogates] (h : Takes cs [l] r) (hRegular : l.isRegular = true) :
    l.lowered.IsSound := by
  generalize hLs : [l] = ls at h
  cases h with
  | blank has blank ends =>
    cases hLs
    exact ⟨has, blank⟩
  | @codeRange c rest first last n starts reads =>
    cases hLs
    have hLess := readCodeRange_lt (rest.drop 1)
    rw [reads] at hLess
    exact hLess
  | markup r =>
    cases hLs
    exact Or.inr (Or.inr rfl)
  | name starts reads ends =>
    cases hLs
    exact ne_nil_of_reads starts reads
  | function starts reads opens quoted =>
    cases hLs
    exact ne_nil_of_reads starts reads
  | address starts reads opens =>
    unfold addressStep at hLs
    generalize readUrl _ = url at hLs
    obtain ⟨address, k, ending⟩ := url
    cases ending with
    | closed =>
      cases hLs
      refine ⟨address, not_isControl_of_written ?_, rfl⟩
      rw [Lexeme.isRegular, List.all_append, List.all_append, Bool.and_eq_true,
        Bool.and_eq_true] at hRegular
      exact hRegular.1.2
    | textEnd => cases hLs
    | broken =>
      cases hLs
      cases hRegular
  | dimension has starts reads =>
    cases hLs
    exact isSound_dimension (isNumeral_readNumber has) (ne_nil_of_reads starts reads) hRegular
  | percentage has ends =>
    cases hLs
    exact isNumeral_readNumber has
  | number has ends noUnit noPercent =>
    cases hLs
    exact isNumeral_readNumber has
  | atName starts reads =>
    cases hLs
    exact ne_nil_of_reads starts reads
  | @hash rest value n starts reads =>
    cases hLs
    have hSome := readName_ne_nil starts
    have hDigit := fun hName : startsName rest = false => isDigitValue_readName hName starts
    rw [reads] at hSome hDigit
    exact ⟨hSome, hDigit⟩
  | opening h r =>
    cases hLs
    exact h
  | closing h r =>
    cases hLs
    exact h
  | @string quote h rest =>
    unfold stringStep at hLs
    generalize readString quote rest = string at hLs
    obtain ⟨value, n, ending⟩ := string
    cases ending with
    | closed =>
      cases hLs
      exact ⟨value, rfl⟩
    | textEnd => cases hLs
    | broken =>
      cases hLs
      cases hRegular
  | @comment rest t n reads =>
    cases hLs
    have hText := readComment_text rest
    rw [reads] at hText
    exact hText
  | joint h r =>
    cases hLs
    exact Or.inr (Or.inl h)
  | sign h stands =>
    cases hLs
    exact Or.inl ⟨_, rfl, h⟩

/-! ## Neighbours -/

theorem startsWithString_cons (h : l.isQuoted = true) (ls : List Lexeme) : StartsWithString (l :: ls) := by
  cases l with
  | blank t => cases h
  | _ => exact h

theorem lexemes_quoted [Surrogates] (h : c = '"' ∨ c = '\'') (rest : List Char) :
    ∃ l more, lexemes (c :: rest) = l :: more ∧ l.isQuoted = true := by
  have hStep : step c rest = stringStep c rest := by rcases h with rfl | rfl <;> rfl
  rw [lexemes_cons, hStep]
  unfold stringStep
  generalize readString c rest = string
  obtain ⟨value, n, ending⟩ := string
  cases ending <;> exact ⟨_, _, rfl, rfl⟩

theorem startsWithString_of_startsQuoted [Surrogates] (h : StartsQuoted r) :
    StartsWithString (lexemes r) := by
  have hQuoted : ∀ r : List Char, r.head? = some '"' ∨ r.head? = some '\'' →
      ∃ l more, lexemes r = l :: more ∧ l.isQuoted = true := by
    rintro r (hDouble | hSingle)
    · obtain ⟨rest, rfl⟩ := List.head?_eq_some_iff.mp hDouble
      exact lexemes_quoted (Or.inl rfl) rest
    · obtain ⟨rest, rfl⟩ := List.head?_eq_some_iff.mp hSingle
      exact lexemes_quoted (Or.inr rfl) rest
  obtain ⟨l, more, hLexemes, hIs⟩ := hQuoted _ h
  cases r with
  | nil =>
    rw [List.dropWhile_nil, lexemes_nil] at hLexemes
    cases hLexemes
  | cons c rest =>
    cases hBlank : isBlank c with
    | true =>
      rw [List.dropWhile_cons_of_pos hBlank] at hLexemes
      rw [lexemes_blank hBlank, drop_length_takeWhile, hLexemes]
      exact hIs
    | false =>
      rw [List.dropWhile_cons_of_neg (by simp [hBlank])] at hLexemes
      rw [hLexemes]
      exact startsWithString_cons hIs more

/-- A sign that never comes behind another one. -/
theorem SignStands.not_stranger (h : SignStands c r) {t : List Char}
    (ht : t ∈ (Lexeme.sign [c]).strangers) : ¬t <+: r := by
  rintro ⟨more, rfl⟩
  unfold Lexeme.strangers at ht
  split at ht
  · rename_i hSame
    cases hSame
  · rename_i hSame
    cases hSame
    cases List.mem_singleton.mp ht
    cases h.at_ rfl
  · rename_i hSame
    cases hSame
    have hEnds : EndsName ('-' :: (t.drop 1 ++ more)) := by
      rcases List.mem_pair.mp ht with rfl | rfl <;> exact h.hash rfl
    cases (hEnds _ _ rfl).1
  · rename_i hSame
    cases hSame
    have hName := h.noName
    rcases List.mem_pair.mp ht with rfl | rfl <;> cases hName
  · rename_i hSame
    cases hSame
    have hBar := h.bar rfl
    rcases List.mem_pair.mp ht with rfl | rfl <;> exact hBar rfl
  · rename_i hSame
    cases hSame
    cases List.mem_singleton.mp ht
    exact h.slash rfl rfl
  · cases ht

theorem SignStands.lineEnd [Surrogates] (h : SignStands '\\' r) :
    ∃ t more, lexemes r = .blank ('\n' :: t) :: more := by
  have hEscapes : escapes r = false := by
    have hName := h.noName
    simp only [startsName, Bool.or_eq_false_iff] at hName
    exact hName.2
  obtain ⟨more, rfl⟩ : ∃ more, r = '\n' :: more := by
    rw [← List.head?_eq_some_iff]
    simpa [escapes] using hEscapes
  exact ⟨_, _, lexemes_blank rfl more⟩

theorem isGap_front [Surrogates] (h : ∀ c ∈ r.head?, isBlank c = false) :
    ∀ l ∈ front r, l.isGap = false := by
  intro l hl
  cases r with
  | nil =>
    rw [front_nil] at hl
    cases hl
  | cons c rest =>
    refine Bool.eq_false_iff.mpr fun hGap => ?_
    rw [front_cons] at hl
    obtain ⟨d, hd, hBlank⟩ := (takes_step c rest).head_of_isGap (List.mem_of_head? hl) hGap
    rw [h d hd] at hBlank
    cases hBlank

/-- A lexeme that anything may follow. -/
def Lexeme.isUsual : Lexeme → Bool
  | .blank _ => false
  | .number _ => false
  | .function _ => false
  | .sign [_] => false
  | _ => true

theorem admits_of_isUsual (h : l.isUsual = true) (ls : List Lexeme) : l.Admits ls := by
  cases l with
  | blank => cases h
  | number => cases h
  | function => cases h
  | sign t =>
    rcases t with _ | ⟨c, _ | ⟨d, t⟩⟩
    · exact ⟨nofun, nofun, nofun, nofun⟩
    · cases h
    · refine ⟨fun s hs => ?_, nofun, nofun, nofun⟩
      unfold Lexeme.strangers at hs
      split at hs
      all_goals
        rename_i hSame
        first
        | cases hSame
        | cases hs
  | _ => exact ⟨nofun, nofun, nofun, nofun⟩

theorem Takes.admits [Surrogates] (h : Takes cs [l] r) : l.Admits (lexemes r) := by
  generalize hLs : [l] = ls at h
  cases h with
  | blank has blank ends =>
    cases hLs
    exact ⟨nofun, fun _ => isGap_front ends, nofun, nofun⟩
  | number has ends noUnit noPercent =>
    cases hLs
    refine ⟨fun t ht hFront => ?_, nofun, nofun, nofun⟩
    obtain ⟨more, rfl⟩ := prefix_verbatim_of_front hFront
    rcases List.mem_pair.mp ht with rfl | rfl
    · exact noPercent rfl
    · cases noUnit
  | function starts reads opens quoted =>
    cases hLs
    refine ⟨nofun, nofun, fun v hSame hUrl => ?_, nofun⟩
    cases hSame
    exact startsWithString_of_startsQuoted (quoted hUrl)
  | sign h stands =>
    cases hLs
    refine ⟨fun t ht hFront => ?_, nofun, nofun, ?_⟩
    · exact stands.not_stranger ht (prefix_verbatim_of_front hFront)
    intro hSame
    cases hSame
    exact stands.lineEnd
  | joint h r =>
    cases hLs
    have hAll : ∀ t ∈ jointSigns, (Lexeme.sign t).isUsual = true := by decide
    exact admits_of_isUsual (hAll _ h) _
  | address =>
    have hl := hLs ▸ List.mem_singleton_self l
    obtain ⟨v, rfl⟩ | rfl | rfl := mem_addressStep hl <;> exact admits_of_isUsual rfl _
  | string =>
    have hl := hLs ▸ List.mem_singleton_self l
    obtain ⟨t, rfl⟩ | rfl | rfl := mem_stringStep hl <;> exact admits_of_isUsual rfl _
  | _ =>
    cases hLs
    exact admits_of_isUsual rfl _

/-- The lexemes that are taken from a text are one, or one and a flaw. -/
theorem Takes.cases_lexemes [Surrogates] (h : Takes cs ls r) :
    (∃ l, ls = [l]) ∨ ∃ l kind, ls = [l, .flaw kind] := by
  cases h with
  | address =>
    unfold addressStep
    generalize readUrl _ = url
    obtain ⟨address, k, ending⟩ := url
    cases ending with
    | closed => exact Or.inl ⟨_, rfl⟩
    | textEnd => exact Or.inr ⟨_, _, rfl⟩
    | broken => exact Or.inl ⟨_, rfl⟩
  | string =>
    unfold stringStep
    generalize readString _ _ = string
    obtain ⟨value, n, ending⟩ := string
    cases ending with
    | closed => exact Or.inl ⟨_, rfl⟩
    | textEnd => exact Or.inr ⟨_, _, rfl⟩
    | broken => exact Or.inl ⟨_, rfl⟩
  | _ => exact Or.inl ⟨_, rfl⟩

/-- The lexemes of a plain text. -/
theorem isGrown_lexemes [Surrogates] (h : cs.all isPlain = true) : IsGrown (lexemes cs) := by
  induction hLength : cs.length using Nat.strongRecOn generalizing cs with
  | ind n ih =>
    subst hLength
    cases cs with
    | nil =>
      rw [lexemes_nil]
      trivial
    | cons c rest =>
      have hTakes := takes_step c rest
      have hRest : IsGrown (lexemes (rest.drop (step c rest).2)) := by
        refine ih _ ?_ (isPlain_drop (isPlain_drop h 1) _) rfl
        simp only [List.length_drop, List.length_cons]
        omega
      rw [lexemes_cons]
      generalize (step c rest).1 = ls at hTakes ⊢
      rcases hTakes.cases_lexemes with ⟨l, rfl⟩ | ⟨l, kind, rfl⟩
      · have hPlain := hTakes.isPlain_written h List.mem_cons_self
        exact ⟨fun _ _ => ⟨hPlain, hTakes.isSound, hTakes.admits⟩, hRest⟩
      · exact ⟨fun _ hNext => absurd (hNext _ rfl) Bool.noConfusion, ⟨nofun, hRest⟩⟩

end StyleSieve.Css
