import StyleSieve.Proofs.Selector.Bracket
import StyleSieve.Selector.Token

/-!
# Slices of a selector list

`Token.Takes` says which slices of a text are which tokens, depending on what follows them.

* `Token.scan_takes`: such a slice is scanned as its token, and the scan goes on behind it.
* `Token.exists_takes`: every token but the last sign of an unreadable text comes from a slice.
-/

namespace StyleSieve.Selector

open Text

variable {kind : PseudoKind} {text rest cs name after head : List Char} {c : Char}

/-! ## What readers leave -/

theorem skipSpacing_suffix (cs : List Char) : skipSpacing cs <:+ cs := List.dropWhile_suffix _

theorem readSelectorFunction_suffix (h : readSelectorFunction cs = some (head, after)) :
    after <:+ cs := by
  unfold readSelectorFunction at h
  dsimp only at h
  split at h
  · rename_i rest hRest
    split at h
    · cases h
      refine (skipSpacing_suffix rest).trans ?_
      exact (List.suffix_cons '(' rest).trans (hRest ▸ List.drop_suffix _ cs)
    · cases h
  · cases h

theorem readFunction_suffix (h : readFunction readName cs = some (head, after)) :
    after <:+ cs := by
  unfold readFunction at h
  split at h
  · rename_i name rest hRead
    cases h
    refine (skipSpacing_suffix rest).trans ?_
    exact (List.suffix_cons '(' rest).trans ⟨name, append_of_readName hRead⟩
  · cases h

theorem readArgument_suffix {argument : Option (List Char)}
    (h : readArgument cs = some (argument, after)) : after <:+ cs := by
  unfold readArgument at h
  dsimp only at h
  split at h
  · rename_i rest hRest
    cases h
    exact (List.suffix_cons ')' _).trans (hRest ▸ List.drop_suffix _ cs)
  · cases h

theorem readStrictAttribute_suffix (h : readStrictAttribute cs = some after) : after <:+ cs := by
  obtain ⟨gap, space, name, tail, rfl, -⟩ := readStrictAttribute_iff.mp h
  exact ⟨gap ++ (space ++ (name ++ tail)), by simp⟩

namespace Token

/-! ## Steps of the scan -/

/-- The token at the front of a text, and how many characters it takes. -/
def next (atStart : Bool) : List Char → Option (Token × Nat)
  | [] => none
  | c :: rest =>
    (if atStart then nextAtStart c rest else nextBehind c rest).map fun (t, n) => (t, n + 1)

variable {atStart : Bool} {token : Token} {n : Nat}

theorem scan_nil (atStart : Bool) : scan atStart [] = if atStart then [stray false] else [] := by
  rw [scan]

theorem scan_of_next (h : next atStart cs = some (token, n)) :
    scan atStart cs = token :: scan token.opensCompound (cs.drop n) := by
  cases cs with
  | nil => cases h
  | cons c rest =>
    obtain ⟨⟨t, m⟩, hNext, h⟩ := Option.map_eq_some_iff.mp h
    cases h
    rw [scan, hNext]
    rfl

theorem scan_of_next_none (h : next atStart (c :: rest) = none) :
    scan atStart (c :: rest) = [stray (c == '.' || c == '#' || c == ':')] := by
  rw [scan, Option.map_eq_none_iff.mp h]

/-! ## Pseudo selectors -/

/-- Behind the colons of a pseudo selector and in front of `rest`, the text is the token. -/
inductive TakesPseudo (kind : PseudoKind) (rest : List Char) : Token → List Char → Prop where
  | opening {head text : List Char}
      (hHead : readSelectorFunction (text ++ rest) = some (head, rest)) :
      TakesPseudo kind rest (.opening kind head) text
  | function {head text after : List Char} {argument : Option (List Char)}
      (hOther : readSelectorFunction (text ++ rest) = none)
      (hHead : readFunction readName (text ++ rest) = some (head, after))
      (hArgument : readArgument after = some (argument, rest)) :
      TakesPseudo kind rest (.function kind head argument) text
  | name {text : List Char} (hOther : readSelectorFunction (text ++ rest) = none)
      (hBare : readFunction readName (text ++ rest) = none)
      (hName : readName (text ++ rest) = some (text, rest)) :
      TakesPseudo kind rest (.pseudo kind text) text

theorem nextPseudo_of_takes (h : TakesPseudo kind rest token text) :
    nextPseudo kind (text ++ rest) = some (token, text.length) := by
  unfold nextPseudo
  cases h with
  | opening hHead => simp [hHead]
  | function hOther hHead hArgument => simp [hOther, hHead, hArgument]
  | name hOther hBare hName => simp [hOther, hBare, hName]

theorem exists_takesPseudo (h : nextPseudo kind cs = some (token, n)) :
    ∃ text rest, cs = text ++ rest ∧ n = text.length ∧ TakesPseudo kind rest token text := by
  have hSlice : ∀ {after : List Char}, after <:+ cs →
      ∃ text, cs = text ++ after ∧ cs.length - after.length = text.length := by
    rintro after ⟨text, rfl⟩
    exact ⟨text, rfl, by simp⟩
  unfold nextPseudo at h
  cases hOther : readSelectorFunction cs with
  | some r =>
    obtain ⟨head, after⟩ := r
    obtain ⟨text, rfl, hLength⟩ := hSlice (readSelectorFunction_suffix hOther)
    rw [hOther] at h
    cases h
    exact ⟨text, after, rfl, hLength, .opening hOther⟩
  | none =>
    rw [hOther] at h
    cases hBare : readFunction readName cs with
    | some r =>
      obtain ⟨head, after⟩ := r
      rw [hBare] at h
      obtain ⟨⟨argument, after'⟩, hArgument, h⟩ := Option.map_eq_some_iff.mp h
      obtain ⟨text, rfl, hLength⟩ :=
        hSlice ((readArgument_suffix hArgument).trans (readFunction_suffix hBare))
      cases h
      exact ⟨text, after', rfl, hLength, .function hOther hBare hArgument⟩
    | none =>
      rw [hBare] at h
      obtain ⟨⟨name, after⟩, hName, h⟩ := Option.map_eq_some_iff.mp h
      cases h
      have hWhole := append_of_readName hName
      subst hWhole
      exact ⟨name, after, rfl, rfl, .name hOther hBare hName⟩

/-! ## Slices -/

/-- In front of `rest`, the text is the token. -/
inductive Takes (rest : List Char) : Bool → Token → List Char → Prop where
  | universal : Takes rest true .universal ['*']
  | tag {name : List Char} (hName : readName (name ++ rest) = some (name, rest)) :
      Takes rest true (.tag name) name
  | hasClass {b : Bool} {name : List Char} (hName : readName (name ++ rest) = some (name, rest)) :
      Takes rest b (.hasClass name) ('.' :: name)
  | hasId {b : Bool} {name : List Char} (hName : readName (name ++ rest) = some (name, rest)) :
      Takes rest b (.hasId name) ('#' :: name)
  | bracketed {b : Bool} {text : List Char} (hText : readStrictAttribute (text ++ rest) = some rest) :
      Takes rest b (.attribute ('[' :: text)) ('[' :: text)
  | ofElement {b : Bool} {token : Token} {text : List Char}
      (hPseudo : TakesPseudo .ofElement rest token text) : Takes rest b token (':' :: ':' :: text)
  | ofClass {b : Bool} {token : Token} {text : List Char} (hColon : ∀ more, text ++ rest ≠ ':' :: more)
      (hPseudo : TakesPseudo .ofClass rest token text) : Takes rest b token (':' :: text)
  | closing {gap : List Char} (hGap : IsGap gap) : Takes rest false .closing (gap ++ [')'])
  | comma {gap gap' : List Char} (hGap : IsGap gap) (hGap' : IsGap gap')
      (hRest : skipSpacing rest = rest) : Takes rest false .comma (gap ++ ',' :: gap')
  | joint {gap gap' : List Char} {sign : Char} (hSign : sign ∈ ['>', '+', '~']) (hGap : IsGap gap)
      (hGap' : IsGap gap') (hRest : skipSpacing rest = rest) :
      Takes rest false .combinator (gap ++ sign :: gap')
  | descendant {gap : List Char} (hGap : IsGap gap) (hSome : gap ≠ [])
      (hRest : skipSpacing rest = rest) (hOther : ∀ c ∈ rest.head?, c ∉ ['>', '+', '~', ',', ')']) :
      Takes rest false .combinator gap

theorem next_simple (h : c ∈ ['.', '#', '[', ':']) (rest : List Char) :
    next atStart (c :: rest) = (nextSimple c rest).map fun (t, n) => (t, n + 1) := by
  simp only [List.mem_cons, List.not_mem_nil, or_false] at h
  cases atStart <;> rcases h with rfl | rfl | rfl | rfl <;> rfl

/-- The token behind a simple selector when `gap` characters of spacing come first. -/
def nextBehindGap (gap : Nat) : List Char → Option (Token × Nat)
  | '>' :: cs => some (combinator, gap + (cs.takeWhile isSpacing).length + 1)
  | '+' :: cs => some (combinator, gap + (cs.takeWhile isSpacing).length + 1)
  | '~' :: cs => some (combinator, gap + (cs.takeWhile isSpacing).length + 1)
  | ',' :: cs => some (comma, gap + (cs.takeWhile isSpacing).length + 1)
  | ')' :: _ => some (closing, gap + 1)
  | c :: cs =>
    if gap = 0 then (nextSimple c cs).map fun (t, n) => (t, n + 1) else some (combinator, gap)
  | [] => if gap = 0 then none else some (combinator, gap)

theorem next_behind {gap : List Char} (hGap : IsGap gap) (hRest : skipSpacing rest = rest) :
    next false (gap ++ rest) = nextBehindGap gap.length rest := by
  cases hText : gap ++ rest with
  | nil =>
    obtain ⟨rfl, rfl⟩ := List.append_eq_nil_iff.mp hText
    rfl
  | cons c more =>
    unfold next nextBehind
    dsimp only
    rw [← hText, takeWhile_gap hGap hRest, List.drop_left, if_neg Bool.false_ne_true]
    unfold nextBehindGap
    split
    · rfl
    · rfl
    · rfl
    · rfl
    · rfl
    · cases gap with
      | nil =>
        cases hText
        split <;> simp_all
      | cons d gap =>
        rw [if_neg (by simp), Option.map_some]
        split <;> simp_all

theorem next_tag (hName : readName (name ++ rest) = some (name, rest)) :
    next true (name ++ rest) = some (tag name, name.length) := by
  obtain ⟨c, more, rfl⟩ := List.exists_cons_of_ne_nil (ne_nil_of_readName hName)
  have hStar : c ≠ '*' := by
    rintro rfl
    cases hName
  rw [List.cons_append] at hName
  simp [next, nextAtStart, hStar, hName]

theorem nextSimple_colon (hColon : ∀ more, cs ≠ ':' :: more) :
    nextSimple ':' cs = nextPseudo .ofClass cs := by
  unfold nextSimple
  split <;> simp_all

theorem next_of_takes (h : Takes rest atStart token text) :
    next atStart (text ++ rest) = some (token, text.length) := by
  cases h with
  | universal => rfl
  | tag hName => exact next_tag hName
  | hasClass hName => simp [next_simple, nextSimple, hName]
  | hasId hName => simp [next_simple, nextSimple, hName]
  | bracketed hText => simp [next_simple, nextSimple, hText]
  | ofElement hPseudo => simp [next_simple, nextSimple, nextPseudo_of_takes hPseudo]
  | ofClass hColon hPseudo =>
    simp [next_simple, nextSimple_colon hColon, nextPseudo_of_takes hPseudo]
  | closing hGap =>
    rw [List.append_assoc, next_behind hGap (by rfl)]
    simp [nextBehindGap]
  | comma hGap hGap' hRest =>
    rw [List.append_assoc, next_behind hGap (by rfl)]
    simp [nextBehindGap, takeWhile_gap hGap' hRest]
    omega
  | joint hSign hGap hGap' hRest =>
    simp only [List.mem_cons, List.not_mem_nil, or_false] at hSign
    rw [List.append_assoc]
    rcases hSign with rfl | rfl | rfl
    all_goals
      rw [next_behind hGap (by rfl)]
      simp [nextBehindGap, takeWhile_gap hGap' hRest]
      omega
  | descendant hGap hSome hRest hOther =>
    rw [next_behind hGap hRest]
    unfold nextBehindGap
    split <;> simp_all

/-- A slice is scanned as its token, and the scan goes on behind it. -/
theorem scan_takes (h : Takes rest atStart token text) :
    scan atStart (text ++ rest) = token :: scan token.opensCompound rest := by
  rw [scan_of_next (next_of_takes h), List.drop_left]

theorem Takes.ne_nil (h : Takes rest atStart token text) : text ≠ [] := by
  cases h with
  | tag hName => exact ne_nil_of_readName hName
  | descendant hGap hSome => exact hSome
  | _ => simp

/-- The characters that tokens behind a simple selector start with. -/
def signs : List Char :=
  [' ', '\t', '\r', '\n', '\x0c', '>', '+', '~', ',', ')', '.', '#', '[', ':']

theorem next_of_notMem_signs (h : c ∉ signs) (rest : List Char) : next false (c :: rest) = none := by
  have hNot : ∀ d ∈ signs, c ≠ d := by
    rintro d hd rfl
    exact h hd
  have hSpacing : isSpacing c = false := by
    by_contra hSpacing
    rcases eq_of_isSpacing (by simpa using hSpacing) with rfl | rfl | rfl | rfl | rfl <;>
      exact h (by decide)
  have hSimple : nextSimple c rest = none := by
    unfold nextSimple
    split <;> first | rfl | exact absurd rfl (hNot _ (by decide))
  rw [← List.nil_append (c :: rest), next_behind isGap_nil (skipSpacing_cons hSpacing rest)]
  simp only [signs, List.mem_cons, List.not_mem_nil, or_false, not_or] at h
  unfold nextBehindGap
  split <;> simp_all

/-- Behind a simple selector no token starts with a character beyond ASCII. -/
theorem next_beyond (h : 0x7F < c.toNat) (rest : List Char) : next false (c :: rest) = none := by
  have hLow : ∀ d ∈ signs, d.toNat ≤ 0x7F := by decide
  refine next_of_notMem_signs (fun hMem => ?_) rest
  have := hLow c hMem
  omega

/-! ## Where tokens come from -/

theorem exists_takes_of_nextSimple (b : Bool) (h : nextSimple c cs = some (token, n)) :
    ∃ text rest, c :: cs = text ++ rest ∧ n + 1 = text.length ∧ Takes rest b token text := by
  unfold nextSimple at h
  split at h
  · obtain ⟨⟨name, after⟩, hName, h⟩ := Option.map_eq_some_iff.mp h
    cases h
    have hWhole := append_of_readName hName
    subst hWhole
    exact ⟨'.' :: name, after, rfl, rfl, .hasClass hName⟩
  · obtain ⟨⟨name, after⟩, hName, h⟩ := Option.map_eq_some_iff.mp h
    cases h
    have hWhole := append_of_readName hName
    subst hWhole
    exact ⟨'#' :: name, after, rfl, rfl, .hasId hName⟩
  · obtain ⟨after, hText, h⟩ := Option.map_eq_some_iff.mp h
    obtain ⟨text, rfl⟩ := readStrictAttribute_suffix hText
    simp only [List.length_append, Nat.add_sub_cancel, List.take_left] at h
    cases h
    exact ⟨'[' :: text, after, rfl, rfl, .bracketed hText⟩
  · obtain ⟨⟨t, m⟩, hPseudo, h⟩ := Option.map_eq_some_iff.mp h
    cases h
    obtain ⟨text, rest, rfl, rfl, hTakes⟩ := exists_takesPseudo hPseudo
    exact ⟨':' :: ':' :: text, rest, rfl, rfl, .ofElement hTakes⟩
  · rename_i hColon
    obtain ⟨text, rest, rfl, rfl, hTakes⟩ := exists_takesPseudo h
    exact ⟨':' :: text, rest, rfl, rfl, .ofClass hColon hTakes⟩
  · cases h

theorem exists_takes_of_nextAtStart (h : nextAtStart c cs = some (token, n)) :
    ∃ text rest, c :: cs = text ++ rest ∧ n + 1 = text.length ∧ Takes rest true token text := by
  unfold nextAtStart at h
  split at h
  · rename_i hStar
    cases h
    rw [beq_iff_eq.mp hStar]
    exact ⟨['*'], cs, rfl, rfl, .universal⟩
  · split at h
    · rename_i name after hName
      cases h
      have hWhole := append_of_readName hName
      have hLength := List.length_pos_iff.mpr (ne_nil_of_readName hName)
      rw [← hWhole] at hName ⊢
      exact ⟨name, after, rfl, by omega, .tag hName⟩
    · exact exists_takes_of_nextSimple true h

theorem exists_takes_of_nextBehindGap {gap : List Char} (hGap : IsGap gap)
    (hRest : skipSpacing cs = cs) (h : nextBehindGap gap.length cs = some (token, n)) :
    ∃ text rest, gap ++ cs = text ++ rest ∧ n = text.length ∧ Takes rest false token text := by
  have hAround : ∀ sign more, cs = sign :: more → ∃ gap' rest, IsGap gap' ∧
      skipSpacing rest = rest ∧ gap ++ cs = (gap ++ sign :: gap') ++ rest ∧
      gap.length + (more.takeWhile isSpacing).length + 1 = (gap ++ sign :: gap').length := by
    rintro sign more rfl
    obtain ⟨gap', hGap', hMore, hTaken⟩ := exists_gap more
    refine ⟨gap', skipSpacing more, hGap', skipSpacing_skipSpacing more, ?_, ?_⟩
    · rw [List.append_assoc, List.cons_append, ← hMore]
    · rw [hTaken, List.length_append, List.length_cons]
      omega
  have hJoint : ∀ sign ∈ ['>', '+', '~'], ∀ more, cs = sign :: more →
      some (combinator, gap.length + (more.takeWhile isSpacing).length + 1) = some (token, n) →
      ∃ text rest, gap ++ cs = text ++ rest ∧ n = text.length ∧ Takes rest false token text := by
    intro sign hSign more hMore h
    cases h
    obtain ⟨gap', rest, hGap', hRest', hText, hLength⟩ := hAround sign more hMore
    exact ⟨_, rest, hText, hLength, .joint hSign hGap hGap' hRest'⟩
  unfold nextBehindGap at h
  split at h
  · exact hJoint '>' (by decide) _ rfl h
  · exact hJoint '+' (by decide) _ rfl h
  · exact hJoint '~' (by decide) _ rfl h
  · cases h
    obtain ⟨gap', rest, hGap', hRest', hText, hLength⟩ := hAround ',' _ rfl
    exact ⟨_, rest, hText, hLength, .comma hGap hGap' hRest'⟩
  · cases h
    rename_i more
    exact ⟨gap ++ [')'], more, by simp, by simp, .closing hGap⟩
  · split at h
    · rename_i hNone
      rw [List.length_eq_zero_iff] at hNone
      subst hNone
      obtain ⟨⟨t, m⟩, hSimple, h⟩ := Option.map_eq_some_iff.mp h
      cases h
      exact exists_takes_of_nextSimple false hSimple
    · cases h
      refine ⟨gap, _, rfl, rfl, .descendant hGap (by rintro rfl; simp_all) hRest ?_⟩
      simp_all
  · split at h
    · cases h
    · cases h
      exact ⟨gap, [], rfl, rfl, .descendant hGap (by rintro rfl; simp_all) rfl (by simp)⟩

theorem exists_takes_of_next (h : next atStart cs = some (token, n)) :
    ∃ text rest, cs = text ++ rest ∧ n = text.length ∧ Takes rest atStart token text := by
  cases atStart with
  | true =>
    cases cs with
    | nil => cases h
    | cons c rest =>
      obtain ⟨⟨t, m⟩, hNext, h⟩ := Option.map_eq_some_iff.mp h
      cases h
      exact exists_takes_of_nextAtStart hNext
  | false =>
    obtain ⟨gap, hGap, hText, -⟩ := exists_gap cs
    have hRest := skipSpacing_skipSpacing cs
    rw [hText, next_behind hGap hRest] at h
    rw [hText]
    exact exists_takes_of_nextBehindGap hGap hRest h

/-- Every token but the last sign of an unreadable text comes from a slice. -/
theorem exists_takes {tokens : List Token} (h : scan atStart cs = token :: tokens)
    (hStray : ∀ begun, token ≠ stray begun) :
    ∃ text rest, cs = text ++ rest ∧ Takes rest atStart token text ∧
      tokens = scan token.opensCompound rest := by
  cases hNext : next atStart cs with
  | none =>
    cases cs with
    | nil =>
      rw [scan] at h
      cases atStart <;> cases h
      exact absurd rfl (hStray _)
    | cons c rest =>
      rw [scan_of_next_none hNext] at h
      cases h
      exact absurd rfl (hStray _)
  | some r =>
    obtain ⟨t, n⟩ := r
    obtain ⟨text, rest, rfl, rfl, hTakes⟩ := exists_takes_of_next hNext
    rw [scan_takes hTakes] at h
    cases h
    exact ⟨text, rest, rfl, hTakes, rfl⟩

/-- Every token that is read comes from a slice. -/
theorem exists_takes_of_mem (h : token ∈ scan atStart cs) (hStray : ∀ begun, token ≠ stray begun) :
    ∃ b text rest, Takes rest b token text := by
  induction hLength : cs.length using Nat.strong_induction_on generalizing atStart cs with
  | _ n ih =>
  cases hScan : scan atStart cs with
  | nil =>
    rw [hScan] at h
    cases h
  | cons first tokens =>
    rw [hScan] at h
    rcases List.mem_cons.mp h with rfl | hMem
    · obtain ⟨text, rest, -, hTakes, -⟩ := exists_takes hScan hStray
      exact ⟨atStart, text, rest, hTakes⟩
    · cases hNext : next atStart cs with
      | none =>
        cases cs with
        | nil =>
          rw [scan_nil] at hScan
          cases atStart with
          | true =>
            cases hScan
            cases hMem
          | false => cases hScan
        | cons c rest =>
          rw [scan_of_next_none hNext] at hScan
          cases hScan
          cases hMem
      | some r =>
        obtain ⟨t, m⟩ := r
        obtain ⟨text, rest, rfl, rfl, hTakes⟩ := exists_takes_of_next hNext
        rw [scan_takes hTakes] at hScan
        cases hScan
        have hSome := List.length_pos_iff.mpr hTakes.ne_nil
        rw [List.length_append] at hLength
        exact ih rest.length (by omega) hMem rfl

end Token

end StyleSieve.Selector
