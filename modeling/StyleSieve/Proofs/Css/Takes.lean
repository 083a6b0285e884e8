import StyleSieve.Proofs.Css.Front

/-!
# One lexeme of a text

* `Takes`: the lexemes at the front of a text, with what remains of it and why they end there.
* `takes_step`: what is read at the start of a text is taken from it.
-/

namespace StyleSieve.Css

open Text

variable {c d : Char} {cs rest r value : List Char} {l : Lexeme} {ls : List Lexeme} {n : Nat}

/-- Characters that may stand alone as a sign. -/
def isSignChar (c : Char) : Bool :=
  c == '-' || (c.toNat < 0x80 && !isBlank c && !isNamePart c && !"\x7b\x7d[]()\"'".toList.contains c)

/-- Signs of several characters, apart from the end of a comment of markup. -/
def jointSigns : List (List Char) :=
  [['<', '!', '-', '-'], ['|', '|'], ['~', '='], ['|', '='], ['^', '='], ['$', '='], ['*', '=']]

/-- A sign is a lexeme of its own in front of this text. -/
structure SignStands (c : Char) (r : List Char) : Prop where
  noName : startsName (c :: r) = false
  noNumber : readNumber (c :: r) = []
  at_ : c = '@' → startsName r = false
  hash : c = '#' → EndsName r
  slash : c = '/' → r.head? ≠ some '*'
  less : c = '<' → ¬['!', '-', '-'] <+: r
  bar : c = '|' → r.head? ≠ some '|'
  equals : c ∈ ['~', '|', '^', '$', '*'] → r.head? ≠ some '='

/-- What the gap in front of a text leaves starts with a quote. -/
def StartsQuoted (r : List Char) : Prop :=
  (r.dropWhile isBlank).head? = some '"' ∨ (r.dropWhile isBlank).head? = some '\''

/-- The lexemes at the front of a text and what remains of it. -/
inductive Takes [Surrogates] : List Char → List Lexeme → List Char → Prop
  | blank {gap r : List Char} (has : gap ≠ []) (blank : gap.all isBlank = true)
      (ends : ∀ c ∈ r.head?, isBlank c = false) : Takes (gap ++ r) [.blank gap] r
  | codeRange {c : Char} {rest : List Char} {first last n : Nat} (starts : startsCodeRange c rest = true)
      (reads : readCodeRange (rest.drop 1) = (first, last, n)) :
      Takes (c :: rest) [.codeRange first last] (rest.drop (n + 1))
  | markup (r : List Char) : Takes ('-' :: '-' :: '>' :: r) [.sign ['-', '-', '>']] r
  | name {cs value : List Char} {n : Nat} (starts : startsName cs = true)
      (reads : readName cs = (value, n)) (ends : (cs.drop n).head? ≠ some '(') :
      Takes cs [.name value] (cs.drop n)
  | function {cs value r : List Char} {n : Nat} (starts : startsName cs = true)
      (reads : readName cs = (value, n)) (opens : cs.drop n = '(' :: r)
      (quoted : isUrlName value = true → StartsQuoted r) : Takes cs [.function value] r
  | address {cs value r : List Char} {n : Nat} (starts : startsName cs = true)
      (reads : readName cs = (value, n)) (opens : cs.drop n = '(' :: r) :
      Takes cs (addressStep (r.dropWhile isBlank)).1
        ((r.dropWhile isBlank).drop (addressStep (r.dropWhile isBlank)).2)
  | dimension {cs unit : List Char} {k : Nat} (has : readNumber cs ≠ [])
      (starts : startsName (cs.drop (readNumber cs).length) = true)
      (reads : readName (cs.drop (readNumber cs).length) = (unit, k)) :
      Takes cs [.dimension (readNumber cs) unit] ((cs.drop (readNumber cs).length).drop k)
  | percentage {cs r : List Char} (has : readNumber cs ≠ [])
      (ends : cs.drop (readNumber cs).length = '%' :: r) :
      Takes cs [.percentage (readNumber cs)] r
  | number {cs r : List Char} (has : readNumber cs ≠ []) (ends : cs.drop (readNumber cs).length = r)
      (noUnit : startsName r = false) (noPercent : r.head? ≠ some '%') :
      Takes cs [.number (readNumber cs)] r
  | atName {rest value : List Char} {n : Nat} (starts : startsName rest = true)
      (reads : readName rest = (value, n)) : Takes ('@' :: rest) [.atName value] (rest.drop n)
  | hash {rest value : List Char} {n : Nat} (starts : ¬EndsName rest)
      (reads : readName rest = (value, n)) :
      Takes ('#' :: rest) [.hash value (startsName rest)] (rest.drop n)
  | opening {c : Char} (h : c ∈ ['{', '[', '(']) (r : List Char) : Takes (c :: r) [.opening c] r
  | closing {c : Char} (h : c ∈ ['}', ']', ')']) (r : List Char) : Takes (c :: r) [.closing c] r
  | string {quote : Char} (h : quote = '"' ∨ quote = '\'') (rest : List Char) :
      Takes (quote :: rest) (stringStep quote rest).1 (rest.drop (stringStep quote rest).2)
  | comment {rest text : List Char} {n : Nat} (reads : readComment rest = (text, n)) :
      Takes ('/' :: '*' :: rest) [.comment text] (rest.drop n)
  | joint {sign : List Char} (h : sign ∈ jointSigns) (r : List Char) : Takes (sign ++ r) [.sign sign] r
  | sign {c : Char} {r : List Char} (h : isSignChar c = true) (stands : SignStands c r) :
      Takes (c :: r) [.sign [c]] r

/-! ## Names and numbers -/

theorem drop_length_takeWhile (f : Char → Bool) (cs : List Char) :
    cs.drop (cs.takeWhile f).length = cs.dropWhile f := by
  induction cs with
  | nil => rfl
  | cons c rest ih =>
    rw [List.takeWhile_cons, List.dropWhile_cons]
    cases f c with
    | true => exact ih
    | false => rfl

theorem readName_pos [Surrogates] (h : startsName cs = true) : (readName cs).2 ≠ 0 := by
  cases cs with
  | nil => cases h
  | cons c rest =>
    rw [readName]
    split
    · exact Nat.succ_ne_zero _
    · rename_i hPart
      split
      · exact Nat.succ_ne_zero _
      · rename_i hEscape
        simp only [startsName, Bool.or_eq_true, Bool.and_eq_true, beq_iff_eq] at h
        simp only [isNamePart, Bool.or_eq_true, beq_iff_eq, not_or] at hPart
        simp only [Bool.and_eq_true, beq_iff_eq] at hEscape
        rcases h with (hStart | ⟨hHyphen, -⟩) | hSlash
        · exact absurd hStart hPart.1.1
        · exact absurd hHyphen hPart.2
        · exact absurd hSlash hEscape

theorem takes_nameStep [Surrogates] (h : startsName (c :: rest) = true) :
    Takes (c :: rest) (nameStep c rest).1 (rest.drop (nameStep c rest).2) := by
  have hPos := readName_pos h
  have hReads : readName (c :: rest) = ((readName (c :: rest)).1, (readName (c :: rest)).2) := rfl
  unfold nameStep
  generalize (readName (c :: rest)).1 = value at hReads
  generalize (readName (c :: rest)).2 = n at hReads hPos
  rw [hReads]
  obtain ⟨n, rfl⟩ := Nat.exists_eq_succ_of_ne_zero hPos
  dsimp only
  split
  · rename_i after hOpens
    have hAfter : rest.drop (n + 1) = after := by
      rw [List.drop_succ_cons] at hOpens
      rw [← List.drop_drop, hOpens]
      rfl
    rw [drop_length_takeWhile]
    split
    · rename_i hFunction
      dsimp only
      rw [hAfter]
      refine .function h hReads hOpens fun hUrl => ?_
      rw [hUrl] at hFunction
      simpa [StartsQuoted] using hFunction
    · dsimp only
      have hDrop : rest.drop (n + 1 + (after.takeWhile isBlank).length +
          (addressStep (after.dropWhile isBlank)).2) =
          (after.dropWhile isBlank).drop (addressStep (after.dropWhile isBlank)).2 := by
        rw [← List.drop_drop, ← List.drop_drop, hAfter, drop_length_takeWhile]
      rw [hDrop]
      exact .address h hReads hOpens
  · rename_i hOther
    refine .name h hReads fun hOpens => ?_
    cases hDrop : (c :: rest).drop (n + 1) with
    | nil =>
      rw [hDrop] at hOpens
      cases hOpens
    | cons d after =>
      rw [hDrop] at hOpens
      cases hOpens
      exact hOther after hDrop

theorem takes_numberStep [Surrogates] (hSome : readNumber (c :: rest) ≠ []) :
    Takes (c :: rest) (numberStep c rest (readNumber (c :: rest))).1
      (rest.drop (numberStep c rest (readNumber (c :: rest))).2) := by
  obtain ⟨m, hLength⟩ := Nat.exists_eq_succ_of_ne_zero fun h => hSome (List.length_eq_zero_iff.mp h)
  have hAfter : ∀ k, rest.drop ((readNumber (c :: rest)).length - 1 + k) =
      ((c :: rest).drop (readNumber (c :: rest)).length).drop k := by
    intro k
    rw [hLength, List.drop_succ_cons, List.drop_drop]
    rfl
  unfold numberStep
  dsimp only
  split
  · rename_i hUnit
    rw [hAfter]
    exact .dimension hSome hUnit rfl
  rename_i hUnit
  split
  · rename_i hPercent
    cases hRest : (c :: rest).drop (readNumber (c :: rest)).length with
    | nil =>
      rw [hRest] at hPercent
      cases hPercent
    | cons d r =>
      rw [hRest] at hPercent
      obtain rfl : d = '%' := by simpa using hPercent
      have hBehind : rest.drop (readNumber (c :: rest)).length = r := by
        have hOne := hAfter 1
        rw [hRest, hLength] at hOne
        rw [hLength]
        exact hOne
      rw [hBehind]
      exact .percentage hSome hRest
  · rename_i hPercent
    have hBehind := hAfter 0
    rw [Nat.add_zero, List.drop_zero] at hBehind
    rw [hBehind]
    exact .number hSome rfl (Bool.eq_false_iff.mpr hUnit) (by simpa using hPercent)

/-! ## Signs -/

/-- Where no name and no number starts, there is a sign, a bracket or a quote. -/
theorem isSignChar_of (hBlank : isBlank c = false) (hName : startsName (c :: rest) = false)
    (hNone : readNumber (c :: rest) = [])
    (hOther : c ∉ ['{', '}', '[', ']', '(', ')', '"', '\'']) : isSignChar c = true := by
  by_cases hHyphen : c = '-'
  · rw [hHyphen]
    rfl
  have hStart : isNameStart c = false := by
    refine Bool.eq_false_iff.mpr fun hStart => ?_
    simp [startsName, hStart] at hName
  have hDigit : isAsciiDigit c = false := by
    refine Bool.eq_false_iff.mpr fun hDigit => ?_
    have hSign := (step_of_head_readMantissa rest (Or.inl hDigit)).2.2.2
    exact readMantissa_ne_nil hDigit rest ((readNumber_eq_nil_iff_of_readSign hSign).mp hNone)
  have hLow : c.toNat < 0x80 := by
    rw [isNameStart, Bool.or_eq_false_iff, decide_eq_false_iff_not] at hStart
    omega
  simp [isSignChar, isNamePart, hHyphen, hStart, hDigit, hLow, hBlank]
  simpa using hOther

theorem endsName_of_not (h : ∀ d more, rest = d :: more →
    ¬(isNamePart d || d == '\\' && escapes more) = true) : EndsName rest := by
  rintro d more rfl
  have hOther := h d more rfl
  simp only [Bool.or_eq_true, Bool.and_eq_true, beq_iff_eq, not_or, not_and,
    Bool.not_eq_true] at hOther
  exact hOther

theorem takes_atStep [Surrogates] (rest : List Char) :
    Takes ('@' :: rest) (signStep '@' rest).1 (rest.drop (signStep '@' rest).2) := by
  rw [signStep_at]
  split
  · rename_i hStarts
    exact .atName hStarts rfl
  · rename_i hStarts
    refine .sign rfl ⟨rfl, rfl, fun _ => Bool.eq_false_iff.mpr hStarts, ?_, ?_, ?_, ?_, ?_⟩
    all_goals exact fun h => absurd h (by decide)

theorem takes_hashStep [Surrogates] (rest : List Char) :
    Takes ('#' :: rest) (signStep '#' rest).1 (rest.drop (signStep '#' rest).2) := by
  have hAlone : EndsName rest → Takes ('#' :: rest) [.sign ['#']] rest := by
    intro hEnds
    refine .sign rfl ⟨rfl, rfl, ?_, fun _ => hEnds, ?_, ?_, ?_, ?_⟩
    all_goals exact fun h => absurd h (by decide)
  cases rest with
  | nil => exact hAlone fun d more hSame => by cases hSame
  | cons d more =>
    rw [signStep_hash]
    split
    · rename_i hPart
      refine .hash (fun hEnds => ?_) rfl
      obtain ⟨hOther, hSlash⟩ := hEnds d more rfl
      rcases Bool.or_eq_true_iff.mp hPart with hPart | hEscape
      · rw [hOther] at hPart
        cases hPart
      · rw [Bool.and_eq_true, beq_iff_eq] at hEscape
        rw [hSlash hEscape.1] at hEscape
        cases hEscape.2
    · rename_i hOther
      refine hAlone (endsName_of_not ?_)
      rintro e rest hSame
      cases hSame
      exact hOther

theorem takes_signStep [Surrogates] (hBlank : isBlank c = false) (hName : startsName (c :: rest) = false)
    (hNone : readNumber (c :: rest) = []) :
    Takes (c :: rest) (signStep c rest).1 (rest.drop (signStep c rest).2) := by
  by_cases hAt : c = '@'
  · subst hAt
    exact takes_atStep rest
  by_cases hHash : c = '#'
  · subst hHash
    exact takes_hashStep rest
  unfold signStep
  rw [if_neg (by simpa using hAt), if_neg (by simpa using hHash)]
  split
  · rename_i hOpening
    exact .opening (by simpa [or_assoc] using hOpening) rest
  rename_i hOpening
  split
  · rename_i hClosing
    exact .closing (by simpa [or_assoc] using hClosing) rest
  rename_i hClosing
  split
  · rename_i hQuote
    exact .string (by simpa using hQuote) rest
  rename_i hQuote
  split
  · rename_i hComment
    rw [Bool.and_eq_true, beq_iff_eq, beq_iff_eq] at hComment
    obtain ⟨rfl, hStar⟩ := hComment
    obtain ⟨more, rfl⟩ := List.head?_eq_some_iff.mp hStar
    exact .comment rfl
  rename_i hComment
  split
  · rename_i hMarkup
    rw [Bool.and_eq_true, beq_iff_eq, List.isPrefixOf_iff_prefix] at hMarkup
    obtain ⟨rfl, more, rfl⟩ := hMarkup
    have hJoint : ['<', '!', '-', '-'] ∈ jointSigns := by decide
    exact .joint hJoint more
  rename_i hMarkup
  split
  · rename_i hBars
    rw [Bool.and_eq_true, beq_iff_eq, beq_iff_eq] at hBars
    obtain ⟨rfl, hBar⟩ := hBars
    obtain ⟨more, rfl⟩ := List.head?_eq_some_iff.mp hBar
    have hJoint : ['|', '|'] ∈ jointSigns := by decide
    exact .joint hJoint more
  rename_i hBars
  split
  · rename_i hEquals
    rw [Bool.and_eq_true, beq_iff_eq] at hEquals
    obtain ⟨hSign, hEqual⟩ := hEquals
    obtain ⟨more, rfl⟩ := List.head?_eq_some_iff.mp hEqual
    have hJoint : [c, '='] ∈ jointSigns := by
      simp only [Bool.or_eq_true, beq_iff_eq] at hSign
      rcases hSign with (((rfl | rfl) | rfl) | rfl) | rfl <;> decide
    exact .joint hJoint more
  rename_i hEquals
  refine .sign (isSignChar_of hBlank hName hNone ?_) ⟨hName, hNone, ?_, ?_, ?_, ?_, ?_, ?_⟩
  · simp only [Bool.or_eq_true, beq_iff_eq, not_or] at hOpening hClosing hQuote
    simp [hOpening, hClosing, hQuote]
  · exact fun hSame => absurd hSame hAt
  · exact fun hSame => absurd hSame hHash
  · rintro rfl
    simpa using hComment
  · rintro rfl
    simpa [List.isPrefixOf_iff_prefix] using hMarkup
  · rintro rfl
    simpa using hBars
  · intro hSign hEqual
    refine hEquals ?_
    rw [hEqual]
    simp only [List.mem_cons, List.not_mem_nil, or_false] at hSign
    rcases hSign with rfl | rfl | rfl | rfl | rfl <;> rfl

/-! ## Texts -/

theorem takes_step [Surrogates] (c : Char) (rest : List Char) :
    Takes (c :: rest) (step c rest).1 (rest.drop (step c rest).2) := by
  unfold step
  split
  · rename_i hBlank
    dsimp only
    rw [drop_length_takeWhile]
    have hTake : Takes (c :: rest.takeWhile isBlank ++ rest.dropWhile isBlank)
        [.blank (c :: rest.takeWhile isBlank)] (rest.dropWhile isBlank) := by
      refine .blank (List.cons_ne_nil c _) ?_ ?_
      · rw [List.all_cons, hBlank, List.all_takeWhile, Bool.and_self]
      · intro d hd
        have hFirst := List.head?_dropWhile_not isBlank rest
        rw [Option.mem_def.mp hd] at hFirst
        simpa using hFirst
    rw [List.cons_append, List.takeWhile_append_dropWhile] at hTake
    exact hTake
  rename_i hBlank
  split
  · rename_i hRange
    exact .codeRange hRange rfl
  rename_i hRange
  split
  · rename_i hMarkup
    rw [Bool.and_eq_true, beq_iff_eq, List.isPrefixOf_iff_prefix] at hMarkup
    obtain ⟨rfl, more, rfl⟩ := hMarkup
    exact .markup more
  split
  · rename_i hName
    exact takes_nameStep hName
  · rename_i hName
    dsimp only
    split
    · rename_i hNone
      exact takes_signStep (Bool.eq_false_iff.mpr hBlank) (Bool.eq_false_iff.mpr hName)
        (by simpa using hNone)
    · rename_i hSome
      exact takes_numberStep (by simpa using hSome)

/-- What is read as an address is one, or could not be read. -/
theorem mem_addressStep [Surrogates] (hl : l ∈ (addressStep cs).1) :
    (∃ v, l = .url v) ∨ l = .flaw .endInUrl ∨ l = .flaw .badUrl := by
  unfold addressStep at hl
  generalize readUrl cs = url at hl
  obtain ⟨address, k, ending⟩ := url
  cases ending with
  | closed => exact Or.inl ⟨_, List.mem_singleton.mp hl⟩
  | textEnd => exact (List.mem_pair.mp hl).imp (fun h => ⟨_, h⟩) Or.inl
  | broken => exact Or.inr (Or.inr (List.mem_singleton.mp hl))

/-- What is read as a string is one, or could not be read. -/
theorem mem_stringStep [Surrogates] (hl : l ∈ (stringStep c rest).1) :
    (∃ t, l = .text t) ∨ l = .flaw .endInString ∨ l = .flaw .badString := by
  unfold stringStep at hl
  generalize readString c rest = string at hl
  obtain ⟨value, n, ending⟩ := string
  cases ending with
  | closed => exact Or.inl ⟨_, List.mem_singleton.mp hl⟩
  | textEnd => exact (List.mem_pair.mp hl).imp (fun h => ⟨_, h⟩) Or.inl
  | broken => exact Or.inr (Or.inr (List.mem_singleton.mp hl))

/-- Blanks and signs are lexemes that hold the text they are taken from. -/
def Lexeme.verbatim : Lexeme → List Char
  | .blank t => t
  | .sign t => t
  | _ => []

theorem Takes.prefix_verbatim [Surrogates] (h : Takes cs ls r) (hl : l ∈ ls) : l.verbatim <+: cs := by
  cases h with
  | blank has blank ends =>
    rw [List.mem_singleton.mp hl]
    exact List.prefix_append _ _
  | joint hSign r =>
    rw [List.mem_singleton.mp hl]
    exact List.prefix_append _ _
  | sign hSign stands =>
    rw [List.mem_singleton.mp hl]
    exact List.prefix_append [_] _
  | markup r =>
    rw [List.mem_singleton.mp hl]
    exact List.prefix_append ['-', '-', '>'] _
  | address => obtain ⟨v, rfl⟩ | rfl | rfl := mem_addressStep hl <;> exact List.nil_prefix
  | string => obtain ⟨t, rfl⟩ | rfl | rfl := mem_stringStep hl <;> exact List.nil_prefix
  | _ =>
    rw [List.mem_singleton.mp hl]
    exact List.nil_prefix

/-- A text starts with its first lexeme, if this is a blank or a sign. -/
theorem prefix_verbatim_of_front [Surrogates] (h : l ∈ front cs) : l.verbatim <+: cs := by
  cases cs with
  | nil =>
    rw [front_nil] at h
    cases h
  | cons c rest =>
    rw [front_cons] at h
    exact (takes_step c rest).prefix_verbatim (List.mem_of_head? h)

end StyleSieve.Css
