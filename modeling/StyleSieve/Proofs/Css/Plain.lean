import StyleSieve.Proofs.Css.Takes
import StyleSieve.Proofs.Css.Spelling

/-!
# Plain texts are written plainly

What is written of the lexemes of a normalized text is normalized as well: a line end that is no plain
one is written as an escape, and no escape stands for the character zero.

* `readName_noNull`, `readString_noNull`, `readUrl_noNull`: values without the character zero.
* `isPlain_writtenName` and its siblings: how such values are written.
* `Takes.isPlain_written`: the lexemes at the front of a plain text.
-/

namespace StyleSieve.Css

open Text

variable {c : Char} {cs rest r value digits unit : List Char} {l : Lexeme} {ls : List Lexeme}

/-! ## Values -/

theorem codeChar_ne_null [Surrogates] (code : Nat) : codeChar code ≠ '\x00' := by
  unfold codeChar
  split
  · decide
  rename_i hCode
  split
  · rename_i hHalf
    have hFar := Surrogates.le_toNat_char code hHalf
    intro hNull
    rw [hNull] at hFar
    exact absurd hFar (by decide)
  · rename_i hHalf
    simp only [isSurrogate, Bool.or_eq_true, Bool.and_eq_true, beq_iff_eq, decide_eq_true_eq, not_or,
      not_and] at hCode hHalf
    intro hNull
    have hValid : code.isValidChar := by
      unfold Nat.isValidChar
      omega
    have hChar : Char.ofNat code = Char.ofNatAux code hValid := dif_pos hValid
    have hSame : (Char.ofNat code).toNat = code := congrArg Char.toNat hChar
    rw [hNull] at hSame
    exact hCode.1 hSame.symm

theorem readEscape_ne_null [Surrogates] (h : '\x00' ∉ cs) : (readEscape cs).1 ≠ '\x00' := by
  unfold readEscape
  dsimp only
  split
  · split
    · decide
    · rintro rfl
      exact h List.mem_cons_self
  · exact codeChar_ne_null _

theorem not_mem_drop {c : Char} (h : c ∉ cs) (n : Nat) : c ∉ cs.drop n :=
  fun hMem => h (List.mem_of_mem_drop hMem)

theorem readName_noNull [Surrogates] (h : '\x00' ∉ cs) : '\x00' ∉ (readName cs).1 := by
  -- an escape takes in several characters, so the induction is on the length
  induction hLength : cs.length using Nat.strongRecOn generalizing cs with
  | ind n ih =>
    subst hLength
    cases cs with
    | nil =>
      rw [readName]
      exact List.not_mem_nil
    | cons c rest =>
      have hRest : '\x00' ∉ rest := fun hMem => h (List.mem_cons_of_mem c hMem)
      rw [readName]
      split
      · refine List.not_mem_cons_of_ne_of_not_mem (fun hSame => h (hSame ▸ List.mem_cons_self)) ?_
        exact ih rest.length (by simp) hRest rfl
      split
      · refine List.not_mem_cons_of_ne_of_not_mem (readEscape_ne_null hRest).symm ?_
        refine ih _ ?_ (not_mem_drop hRest _) rfl
        simp only [List.length_drop, List.length_cons]
        omega
      · exact List.not_mem_nil

theorem readString_noNull [Surrogates] (quote : Char) (h : '\x00' ∉ cs) :
    '\x00' ∉ (readString quote cs).1 := by
  induction hLength : cs.length using Nat.strongRecOn generalizing cs with
  | ind n ih =>
    subst hLength
    cases cs with
    | nil =>
      rw [readString]
      exact List.not_mem_nil
    | cons c rest =>
      have hRest : '\x00' ∉ rest := fun hMem => h (List.mem_cons_of_mem c hMem)
      rw [readString_cons]
      split
      · exact List.not_mem_nil
      split
      · cases rest with
        | nil => exact List.not_mem_nil
        | cons d more =>
          dsimp only
          split
          · refine ih more.length ?_ (fun hMem => hRest (List.mem_cons_of_mem d hMem)) rfl
            simp only [List.length_cons]
            omega
          · refine List.not_mem_cons_of_ne_of_not_mem (readEscape_ne_null hRest).symm ?_
            refine ih _ ?_ (not_mem_drop hRest _) rfl
            simp only [List.length_drop, List.length_cons]
            omega
      split
      · exact List.not_mem_nil
      · refine List.not_mem_cons_of_ne_of_not_mem (fun hSame => h (hSame ▸ List.mem_cons_self)) ?_
        exact ih rest.length (by simp) hRest rfl

theorem readUrl_noNull [Surrogates] (h : '\x00' ∉ cs) : '\x00' ∉ (readUrl cs).1 := by
  induction hLength : cs.length using Nat.strongRecOn generalizing cs with
  | ind n ih =>
    subst hLength
    cases cs with
    | nil =>
      rw [readUrl]
      exact List.not_mem_nil
    | cons c rest =>
      have hRest : '\x00' ∉ rest := fun hMem => h (List.mem_cons_of_mem c hMem)
      rw [readUrl]
      split
      · exact List.not_mem_nil
      split
      · dsimp only
        split <;> exact List.not_mem_nil
      split
      · refine List.not_mem_cons_of_ne_of_not_mem (readEscape_ne_null hRest).symm ?_
        refine ih _ ?_ (not_mem_drop hRest _) rfl
        simp only [List.length_drop, List.length_cons]
        omega
      split
      · exact List.not_mem_nil
      · refine List.not_mem_cons_of_ne_of_not_mem (fun hSame => h (hSame ▸ List.mem_cons_self)) ?_
        exact ih rest.length (by simp) hRest rfl

/-! ## Characters -/

theorem isPlain_of_isNamePart (h : isNamePart c = true) : isPlain c = true := by
  rw [isPlain, Bool.and_eq_true, Bool.and_eq_true, bne_iff_ne, bne_iff_ne, bne_iff_ne]
  refine ⟨⟨?_, ?_⟩, ?_⟩ <;> (rintro rfl; cases h)

theorem isPlain_of_ne (hReturn : c ≠ '\r') (hFeed : c ≠ '\x0c') (hNull : c ≠ '\x00') :
    isPlain c = true := by
  simp [isPlain, hReturn, hFeed, hNull]

theorem isPlain_writtenInName (h : c ≠ '\x00') : (writtenInName c).all isPlain = true := by
  unfold writtenInName
  split
  · rename_i hPart
    rw [List.all_cons, isPlain_of_isNamePart hPart]
    rfl
  split
  · rfl
  split
  · rfl
  split
  · rfl
  · rename_i hReturn hFeed
    rw [List.all_cons, List.all_cons, isPlain_of_ne (by simpa using hReturn) (by simpa using hFeed) h]
    rfl

theorem isPlain_writtenAtStart (h : c ≠ '\x00') : (writtenAtStart c).all isPlain = true := by
  unfold writtenAtStart
  split
  · rename_i hDigit
    have hAll : ∀ c ∈ ['0', '1', '2', '3', '4', '5', '6', '7', '8', '9'],
        ('\\' :: (Nat.toDigits 16 c.toNat).map Char.toUpper ++ [' ']).all isPlain = true := by decide
    exact hAll c (mem_of_isAsciiDigit hDigit)
  split
  · rename_i hStart
    rw [List.all_cons, isPlain_of_isNamePart (by rw [isNamePart, hStart]; rfl)]
    rfl
  split
  · rfl
  · exact isPlain_writtenInName h

theorem isPlain_writtenInString (h : c ≠ '\x00') : (writtenInString c).all isPlain = true := by
  unfold writtenInString
  split
  · rfl
  split
  · rfl
  split
  · rfl
  split
  · rfl
  split
  · rfl
  · rename_i hReturn hFeed
    rw [List.all_cons, isPlain_of_ne (by simpa using hReturn) (by simpa using hFeed) h]
    rfl

theorem isPlain_writtenInUrl (h : c ≠ '\x00') : (writtenInUrl c).all isPlain = true := by
  unfold writtenInUrl
  split
  · rename_i hMark
    have hAll : ∀ c ∈ ['\'', '"', '\\', ' ', '(', ')'], ['\\', c].all isPlain = true := by decide
    exact hAll c (by simpa [or_assoc] using hMark)
  split
  · rfl
  split
  · rfl
  split
  · rfl
  split
  · rfl
  · rename_i hReturn hFeed
    rw [List.all_cons, isPlain_of_ne (by simpa using hReturn) (by simpa using hFeed) h]
    rfl

theorem isPlain_flatMap {f : Char → List Char} (hf : ∀ c, c ≠ '\x00' → (f c).all isPlain = true)
    (h : '\x00' ∉ value) : (value.flatMap f).all isPlain = true := by
  rw [List.all_flatMap, List.all_eq_true]
  intro c hc
  exact hf c fun hSame => h (hSame ▸ hc)

theorem isPlain_writtenName (h : '\x00' ∉ value) : (writtenName value).all isPlain = true := by
  rw [writtenName.eq_def]
  split
  · rfl
  · rfl
  · rename_i rest
    simp only [List.mem_cons, not_or] at h
    rw [List.all_cons, List.all_cons, isPlain_flatMap (fun _ => isPlain_writtenInName) h.2.2]
    rfl
  · rename_i c rest _ _
    simp only [List.mem_cons, not_or] at h
    rw [List.all_append, List.all_cons, isPlain_writtenAtStart (Ne.symm h.2.1),
      isPlain_flatMap (fun _ => isPlain_writtenInName) h.2.2]
    rfl
  · rename_i c rest _ _ _
    simp only [List.mem_cons, not_or] at h
    rw [List.all_append, isPlain_writtenAtStart (Ne.symm h.1),
      isPlain_flatMap (fun _ => isPlain_writtenInName) h.2]
    rfl

/-! ## Lexemes -/

theorem isPlain_upperHex (n : Nat) : (upperHex n).all isPlain = true := by
  rw [List.all_eq_true]
  intro c hc
  have hHex := List.all_eq_true.mp (isHexDigit_upperHex n) c hc
  refine isPlain_of_ne ?_ ?_ ?_ <;> (rintro rfl; cases hHex)

theorem isPlain_of_prefix {p : List Char} (h : p <+: cs) (hPlain : cs.all isPlain = true) :
    p.all isPlain = true := by
  rw [List.all_eq_true] at hPlain ⊢
  exact fun c hc => hPlain c (h.subset hc)

theorem isPlain_of_suffix {p : List Char} (h : p <:+ cs) (hPlain : cs.all isPlain = true) :
    p.all isPlain = true := by
  rw [List.all_eq_true] at hPlain ⊢
  exact fun c hc => hPlain c (h.subset hc)

theorem isPlain_drop (hPlain : cs.all isPlain = true) (n : Nat) : (cs.drop n).all isPlain = true := by
  rw [List.all_eq_true] at hPlain ⊢
  exact fun c hc => hPlain c (List.mem_of_mem_drop hc)

theorem null_not_mem (hPlain : cs.all isPlain = true) : '\x00' ∉ cs := by
  intro hMem
  cases List.all_eq_true.mp hPlain _ hMem

theorem prefix_readComment (cs : List Char) : (readComment cs).1 <+: cs := by
  fun_induction readComment cs with
  | case1 => exact List.prefix_rfl
  | case2 rest => exact List.nil_prefix
  | case3 c rest hOpen text n hRead ih =>
    rw [hRead] at ih
    exact List.cons_prefix_cons.mpr ⟨rfl, ih⟩

theorem null_not_mem_reads [Surrogates] {n : Nat} (hPlain : cs.all isPlain = true)
    (h : readName cs = (value, n)) :
    '\x00' ∉ value := by
  have hValue := readName_noNull (null_not_mem hPlain)
  rw [h] at hValue
  exact hValue

theorem isPlain_writtenUnit (h : '\x00' ∉ unit) : (writtenUnit unit).all isPlain = true := by
  unfold writtenUnit
  split
  · rename_i e rest
    split
    · rw [List.all_append,
        isPlain_flatMap (fun _ => isPlain_writtenInName) fun hMem => h (List.mem_cons_of_mem e hMem)]
      rfl
    · exact isPlain_writtenName h
  · rfl

theorem isPlain_addressStep [Surrogates] (hPlain : cs.all isPlain = true) :
    ∀ l ∈ (addressStep cs).1, l.written.all isPlain = true := by
  have hValue := isPlain_flatMap (fun _ => isPlain_writtenInUrl) (readUrl_noNull (null_not_mem hPlain))
  unfold addressStep
  generalize readUrl cs = url at hValue ⊢
  obtain ⟨address, k, ending⟩ := url
  have hOpen : (['u', 'r', 'l', '('] ++ address.flatMap writtenInUrl).all isPlain = true := by
    rw [List.all_append, hValue]
    rfl
  intro l hl
  cases ending with
  | closed =>
    rw [List.mem_singleton.mp hl, Lexeme.written, List.all_append, hOpen]
    rfl
  | textEnd =>
    rcases List.mem_cons.mp hl with rfl | hl
    · exact hOpen
    · rw [List.mem_singleton.mp hl]
      rfl
  | broken =>
    rw [List.mem_singleton.mp hl]
    decide

theorem isPlain_stringStep [Surrogates] (c : Char) (hPlain : rest.all isPlain = true) :
    ∀ l ∈ (stringStep c rest).1, l.written.all isPlain = true := by
  have hValue :=
    isPlain_flatMap (fun _ => isPlain_writtenInString) (readString_noNull c (null_not_mem hPlain))
  unfold stringStep
  generalize readString c rest = string at hValue ⊢
  obtain ⟨value, n, ending⟩ := string
  have hOpen : ('"' :: value.flatMap writtenInString).all isPlain = true := by
    rw [List.all_cons, hValue]
    rfl
  intro l hl
  cases ending with
  | closed =>
    rw [List.mem_singleton.mp hl, Lexeme.written, List.all_append, hOpen]
    rfl
  | textEnd =>
    rcases List.mem_cons.mp hl with rfl | hl
    · exact hOpen
    · rw [List.mem_singleton.mp hl]
      rfl
  | broken =>
    rw [List.mem_singleton.mp hl]
    decide

/-- The lexemes at the front of a plain text are written plainly. -/
theorem Takes.isPlain_written [Surrogates] (h : Takes cs ls r) (hPlain : cs.all isPlain = true)
    (hl : l ∈ ls) :
    l.written.all isPlain = true := by
  have hVerbatim := isPlain_of_prefix (h.prefix_verbatim hl) hPlain
  cases h with
  | blank has blank ends =>
    rw [List.mem_singleton.mp hl] at hVerbatim ⊢
    exact hVerbatim
  | codeRange starts reads =>
    rw [List.mem_singleton.mp hl, Lexeme.written, List.all_append, List.all_cons, List.all_cons,
      isPlain_upperHex]
    split
    · rfl
    · rw [List.all_cons, isPlain_upperHex]
      rfl
  | markup r =>
    rw [List.mem_singleton.mp hl]
    rfl
  | name starts reads ends =>
    rw [List.mem_singleton.mp hl]
    exact isPlain_writtenName (null_not_mem_reads hPlain reads)
  | function starts reads opens quoted =>
    rw [List.mem_singleton.mp hl, Lexeme.written, List.all_append,
      isPlain_writtenName (null_not_mem_reads hPlain reads)]
    rfl
  | @address _ value r n starts reads opens =>
    refine isPlain_addressStep ?_ l hl
    have hAfter := isPlain_drop hPlain n
    rw [opens, List.all_cons, Bool.and_eq_true] at hAfter
    exact isPlain_of_suffix (List.dropWhile_suffix isBlank) hAfter.2
  | dimension has starts reads =>
    have hDigits := isPlain_of_prefix (readNumber_start cs) hPlain
    have hUnit := null_not_mem_reads (isPlain_drop hPlain _) reads
    rw [List.mem_singleton.mp hl, Lexeme.written, List.all_append, hDigits, isPlain_writtenUnit hUnit]
    rfl
  | percentage has ends =>
    have hDigits := isPlain_of_prefix (readNumber_start cs) hPlain
    rw [List.mem_singleton.mp hl, Lexeme.written, List.all_append, hDigits]
    rfl
  | number has ends noUnit noPercent =>
    rw [List.mem_singleton.mp hl]
    exact isPlain_of_prefix (readNumber_start cs) hPlain
  | atName starts reads =>
    have hValue := null_not_mem_reads (isPlain_drop hPlain 1) reads
    rw [List.mem_singleton.mp hl, Lexeme.written, List.all_cons, isPlain_writtenName hValue]
    rfl
  | hash starts reads =>
    have hValue := null_not_mem_reads (isPlain_drop hPlain 1) reads
    rw [List.mem_singleton.mp hl, Lexeme.written, List.all_cons]
    split
    · rw [isPlain_writtenName hValue]
      rfl
    · rw [isPlain_flatMap (fun _ => isPlain_writtenInName) hValue]
      rfl
  | opening h r =>
    rw [List.mem_singleton.mp hl]
    exact isPlain_of_prefix (List.prefix_append [_] r) hPlain
  | closing h r =>
    rw [List.mem_singleton.mp hl]
    exact isPlain_of_prefix (List.prefix_append [_] r) hPlain
  | string h rest => exact isPlain_stringStep _ (isPlain_drop hPlain 1) l hl
  | @comment rest t n reads =>
    have hText := isPlain_of_prefix (prefix_readComment rest) (isPlain_drop hPlain 2)
    rw [reads] at hText
    rw [List.mem_singleton.mp hl, Lexeme.written, List.all_append, List.all_cons, List.all_cons, hText]
    rfl
  | joint h r =>
    rw [List.mem_singleton.mp hl] at hVerbatim ⊢
    exact hVerbatim
  | sign h stands =>
    rw [List.mem_singleton.mp hl] at hVerbatim ⊢
    exact hVerbatim

end StyleSieve.Css
