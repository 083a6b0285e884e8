import Mathlib.Data.List.TakeWhile
import StyleSieve.Proofs.Selector.Name

/-!
# Attribute selectors in their brackets

* `readAttributeTail_iff`: what may stand behind the name of an attribute selector.
* `exists_of_readAttribute`: an attribute selector consists of spacing, a namespace if there is
  one, a name and what stands behind it.
-/

namespace StyleSieve.Selector

open Text

variable {marks gap gap' text rest cs name value after taken : List Char} {c : Char}
  {read readValue : List Char → Option (List Char × List Char)}

/-! ## Spacing -/

/-- A text of nothing but spacing. -/
def IsGap (gap : List Char) : Prop := ∀ c ∈ gap, isSpacing c = true

theorem isGap_nil : IsGap [] := by
  intro c hc
  cases hc

theorem isGap_space : IsGap [' '] := by
  intro c hc
  rw [List.mem_singleton.mp hc]
  rfl

theorem skipSpacing_append (hGap : IsGap gap) (rest : List Char) :
    skipSpacing (gap ++ rest) = skipSpacing rest :=
  List.dropWhile_append_of_pos hGap

theorem skipSpacing_cons (h : isSpacing c = false) (rest : List Char) :
    skipSpacing (c :: rest) = c :: rest :=
  List.dropWhile_cons_of_neg (by simp [h])

theorem isSpacing_of_skipSpacing (h : skipSpacing cs = c :: rest) : isSpacing c = false := by
  have hHead := List.head?_dropWhile_not isSpacing cs
  rw [← skipSpacing, h] at hHead
  simpa using hHead

theorem skipSpacing_skipSpacing (cs : List Char) : skipSpacing (skipSpacing cs) = skipSpacing cs := by
  cases h : skipSpacing cs with
  | nil => rfl
  | cons c rest => exact skipSpacing_cons (isSpacing_of_skipSpacing h) rest

theorem takeWhile_gap (hGap : IsGap gap) (hRest : skipSpacing rest = rest) :
    (gap ++ rest).takeWhile isSpacing = gap := by
  rw [List.takeWhile_append_of_pos hGap]
  cases rest with
  | nil => simp
  | cons c more => simp [isSpacing_of_skipSpacing hRest]

/-- Every text is spacing and what is left without it. -/
theorem exists_gap (cs : List Char) :
    ∃ gap, IsGap gap ∧ cs = gap ++ skipSpacing cs ∧ cs.takeWhile isSpacing = gap :=
  ⟨cs.takeWhile isSpacing, fun _ hc => List.mem_takeWhile_imp hc,
    (List.takeWhile_append_dropWhile ..).symm, rfl⟩

/-! ## Readers -/

/-- A reader that takes a piece from the front, which never starts with spacing. -/
structure IsReader (read : List Char → Option (List Char × List Char)) : Prop where
  append : ∀ {cs taken after}, read cs = some (taken, after) → taken ++ after = cs
  spacing : ∀ {c} rest, isSpacing c = true → read (c :: rest) = none

theorem IsReader.skipSpacing_append (h : IsReader read) (hRead : read (text ++ rest) = some (text, rest)) :
    skipSpacing (text ++ rest) = text ++ rest := by
  cases hText : text ++ rest with
  | nil => rfl
  | cons c more =>
    refine skipSpacing_cons (Bool.eq_false_iff.mpr fun hSpacing => ?_) more
    rw [hText, h.spacing more hSpacing] at hRead
    cases hRead

theorem eq_of_isSpacing (h : isSpacing c = true) :
    c = ' ' ∨ c = '\t' ∨ c = '\r' ∨ c = '\n' ∨ c = '\x0c' := by
  simpa [isSpacing, or_assoc] using h

theorem isReader_readName : IsReader readName where
  append := append_of_readName
  spacing rest hSpacing := by
    rcases eq_of_isSpacing hSpacing with rfl | rfl | rfl | rfl | rfl <;> rfl

theorem readQuotedRest_append {quote : Char} (h : readQuotedRest quote cs = some (taken, after)) :
    taken ++ after = cs := by
  fun_induction readQuotedRest quote cs generalizing taken after with
  | case1 => cases h
  | case2 => cases h
  | case3 d rest hLine ih =>
    obtain ⟨⟨more, after'⟩, hMore, h⟩ := Option.map_eq_some_iff.mp h
    cases h
    rw [List.cons_append, List.cons_append, ih hMore]
  | case4 =>
    cases h
    rfl
  | case5 => cases h
  | case6 c rest hOther hQuote hStop ih =>
    obtain ⟨⟨more, after'⟩, hMore, h⟩ := Option.map_eq_some_iff.mp h
    cases h
    rw [List.cons_append, ih hMore]

theorem readQuoted_append (h : readQuoted cs = some (taken, after)) : taken ++ after = cs := by
  unfold readQuoted at h
  split at h
  · split at h
    · rw [Option.map_eq_some_iff] at h
      obtain ⟨⟨more, after'⟩, hMore, h⟩ := h
      cases h
      rw [List.cons_append, readQuotedRest_append hMore]
    · cases h
  · cases h

/-- The reader of strict values: a name or a string. -/
def readStrictValue (cs : List Char) : Option (List Char × List Char) :=
  (readName cs).orElse fun _ => readQuoted cs

theorem isReader_readStrictValue : IsReader readStrictValue where
  append h := by
    unfold readStrictValue at h
    cases hName : readName _ with
    | none =>
      rw [hName] at h
      exact readQuoted_append h
    | some r =>
      rw [hName] at h
      exact append_of_readName (hName.trans h)
  spacing rest hSpacing := by
    rw [readStrictValue, isReader_readName.spacing rest hSpacing]
    rcases eq_of_isSpacing hSpacing with rfl | rfl | rfl | rfl | rfl <;> rfl

/-! ## Behind the value -/

/-- Nothing, or a flag with spacing behind it. -/
def IsFlag (flag : List Char) : Prop :=
  flag = [] ∨ ∃ f ∈ ['i', 'I', 's', 'S'], ∃ gap, IsGap gap ∧ flag = f :: gap

/-- Reads what stands behind a value. -/
def readAttributeEnd (cs : List Char) : Option (List Char) :=
  match skipSpacing cs with
  | ']' :: rest => some rest
  | f :: rest =>
    if ['i', 'I', 's', 'S'].contains f then
      match skipSpacing rest with
      | ']' :: rest => some rest
      | _ => none
    else none
  | [] => none

theorem readAttributeEnd_iff :
    readAttributeEnd cs = some rest ↔
      ∃ gap flag, IsGap gap ∧ IsFlag flag ∧ cs = gap ++ (flag ++ ']' :: rest) := by
  constructor
  · intro h
    obtain ⟨gap, hGap, hText, -⟩ := exists_gap cs
    unfold readAttributeEnd at h
    split at h
    · rename_i more hMore
      cases h
      exact ⟨gap, [], hGap, Or.inl rfl, by rw [hText, hMore]; rfl⟩
    · rename_i f more hOther hMore
      split at h
      · rename_i hFlag
        obtain ⟨gap', hGap', hText', -⟩ := exists_gap more
        split at h
        · rename_i last hLast
          cases h
          refine ⟨gap, f :: gap', hGap, Or.inr ⟨f, by simpa using hFlag, gap', hGap', rfl⟩, ?_⟩
          rw [hText, hMore, hText', hLast]
          simp
        · cases h
      · cases h
    · cases h
  · rintro ⟨gap, flag, hGap, hFlag | ⟨f, hf, gap', hGap', rfl⟩, rfl⟩
    · subst hFlag
      rw [readAttributeEnd, skipSpacing_append hGap]
      rfl
    · have hSpacing : isSpacing f = false ∧ f ≠ ']' :=
        (by decide : ∀ f ∈ ['i', 'I', 's', 'S'], isSpacing f = false ∧ f ≠ ']') f hf
      rw [readAttributeEnd, skipSpacing_append hGap, List.cons_append,
        skipSpacing_cons hSpacing.1]
      split
      · rename_i hSame
        exact absurd (List.cons.inj hSame).1 hSpacing.2
      · rename_i hSame
        cases hSame
        rw [if_pos (by simpa using hf), skipSpacing_append hGap']
        rfl
      · rename_i hSame
        cases hSame

/-! ## Behind the name -/

/-- The sign of an operator. -/
def IsOperator (marks op : List Char) : Prop := op = ['='] ∨ ∃ c ∈ marks, op = [c, '=']

/-- What follows the sign of an operator that starts with `c`. -/
def afterOperator (marks : List Char) (c : Char) (rest : List Char) : Option (List Char) :=
  if c == '=' then some rest
  else if marks.contains c then
    match rest with
    | '=' :: rest => some rest
    | _ => none
  else none

theorem afterOperator_iff (hMarks : '=' ∉ marks) :
    afterOperator marks c rest = some after ↔
      ∃ op, IsOperator marks op ∧ c :: rest = op ++ after := by
  unfold afterOperator
  constructor
  · intro h
    split at h
    · rename_i hEquals
      cases h
      exact ⟨['='], Or.inl rfl, by rw [beq_iff_eq.mp hEquals]; rfl⟩
    · split at h
      · rename_i hMark
        split at h
        · cases h
          exact ⟨[c, '='], Or.inr ⟨c, by simpa using hMark, rfl⟩, rfl⟩
        · cases h
      · cases h
  · rintro ⟨op, rfl | ⟨d, hd, rfl⟩, hText⟩
    · cases hText
      rfl
    · cases hText
      have hNot : c ≠ '=' := by
        rintro rfl
        exact hMarks hd
      simp [hNot, hd]

theorem readAttributeTail_closed (h : skipSpacing cs = ']' :: rest) :
    readAttributeTail marks readValue cs = some rest := by
  unfold readAttributeTail
  dsimp only
  rw [h]
  rfl

theorem readAttributeTail_open (h : skipSpacing cs = c :: rest) (hOpen : c ≠ ']') :
    readAttributeTail marks readValue cs = (afterOperator marks c rest).bind fun cs =>
      (readValue (skipSpacing cs)).bind fun r => readAttributeEnd r.2 := by
  unfold readAttributeTail
  dsimp only
  rw [h]
  split
  · rename_i hSame
    exact absurd (List.cons.inj hSame).1 hOpen
  · rename_i hSame
    cases hSame
    rw [← Option.bind_assoc]
    split
    · rename_i hRead
      have hNone : ((afterOperator marks c rest).bind fun cs => readValue (skipSpacing cs)) = none :=
        hRead
      rw [hNone]
      rfl
    · rename_i value after hRead
      have hSome : ((afterOperator marks c rest).bind fun cs => readValue (skipSpacing cs)) =
          some (value, after) := hRead
      rw [hSome]
      rfl
  · rename_i hSame
    cases hSame

/-- The text may stand behind the name of an attribute selector, up to the closing bracket. -/
inductive TakesTail (marks : List Char) (readValue : List Char → Option (List Char × List Char))
    (rest : List Char) : List Char → Prop where
  | bare {gap : List Char} (hGap : IsGap gap) : TakesTail marks readValue rest (gap ++ [']'])
  | compared {gap op gap' value gap'' flag : List Char} (hGap : IsGap gap)
      (hOp : IsOperator marks op) (hGap' : IsGap gap')
      (hValue : readValue (value ++ (gap'' ++ (flag ++ ']' :: rest))) =
        some (value, gap'' ++ (flag ++ ']' :: rest)))
      (hGap'' : IsGap gap'') (hFlag : IsFlag flag) :
      TakesTail marks readValue rest (gap ++ (op ++ (gap' ++ (value ++ (gap'' ++ (flag ++ [']']))))))

/-- The signs that may stand in front of the `=` of an operator. -/
def AreMarks (marks : List Char) : Prop :=
  '=' ∉ marks ∧ ∀ c ∈ marks, isSpacing c = false ∧ c ≠ ']'

/-- Behind an operator the value is read, and then what follows it. -/
theorem readAttributeTail_operator {op : List Char} (hMarks : AreMarks marks) (hGap : IsGap gap)
    (hOp : IsOperator marks op) (hGap' : IsGap gap') (hRest : skipSpacing rest = rest) :
    readAttributeTail marks readValue (gap ++ (op ++ (gap' ++ rest))) =
      (readValue rest).bind fun r => readAttributeEnd r.2 := by
  obtain ⟨c, more, rfl, hSpacing, hOpen⟩ :
      ∃ c more, op = c :: more ∧ isSpacing c = false ∧ c ≠ ']' := by
    rcases hOp with rfl | ⟨c, hc, rfl⟩
    · exact ⟨'=', [], rfl, by decide, by decide⟩
    · exact ⟨c, ['='], rfl, hMarks.2 c hc⟩
  have hStart : skipSpacing (gap ++ (c :: more ++ (gap' ++ rest))) = c :: (more ++ (gap' ++ rest)) := by
    rw [skipSpacing_append hGap]
    exact skipSpacing_cons hSpacing _
  have hBehind : afterOperator marks c (more ++ (gap' ++ rest)) = some (gap' ++ rest) :=
    (afterOperator_iff hMarks.1).mpr ⟨c :: more, hOp, rfl⟩
  rw [readAttributeTail_open hStart hOpen, hBehind, Option.bind_some, skipSpacing_append hGap',
    hRest]

theorem readAttributeTail_of_takesTail (hMarks : AreMarks marks) (hReader : IsReader readValue)
    (h : TakesTail marks readValue rest text) :
    readAttributeTail marks readValue (text ++ rest) = some rest := by
  cases h with
  | bare hGap =>
    refine readAttributeTail_closed ?_
    rw [List.append_assoc, skipSpacing_append hGap]
    rfl
  | compared hGap hOp hGap' hValue hGap'' hFlag =>
    simp only [List.append_assoc, List.singleton_append]
    rw [readAttributeTail_operator hMarks hGap hOp hGap'
      (hReader.skipSpacing_append hValue), hValue]
    exact readAttributeEnd_iff.mpr ⟨_, _, hGap'', hFlag, rfl⟩

theorem exists_takesTail (hMarks : AreMarks marks) (hReader : IsReader readValue)
    (h : readAttributeTail marks readValue cs = some rest) :
    ∃ text, cs = text ++ rest ∧ TakesTail marks readValue rest text := by
  obtain ⟨gap, hGap, hText, -⟩ := exists_gap cs
  cases hStart : skipSpacing cs with
  | nil =>
    rw [readAttributeTail] at h
    dsimp only at h
    rw [hStart] at h
    cases h
  | cons c more =>
    rw [hStart] at hText
    by_cases hOpen : c = ']'
    · subst hOpen
      cases (readAttributeTail_closed hStart).symm.trans h
      exact ⟨gap ++ [']'], by simp [hText], .bare hGap⟩
    · rw [readAttributeTail_open hStart hOpen] at h
      obtain ⟨behind, hBehind, h⟩ := Option.bind_eq_some_iff.mp h
      obtain ⟨⟨value, after⟩, hValue, hEnd⟩ := Option.bind_eq_some_iff.mp h
      obtain ⟨op, hOp, hSign⟩ := (afterOperator_iff hMarks.1).mp hBehind
      obtain ⟨gap', hGap', hBehind, -⟩ := exists_gap behind
      obtain ⟨gap'', flag, hGap'', hFlag, rfl⟩ := readAttributeEnd_iff.mp hEnd
      have hWhole := hReader.append hValue
      rw [← hWhole] at hValue hBehind
      refine ⟨_, ?_, .compared hGap hOp hGap' hValue hGap'' hFlag⟩
      rw [hText, hSign, hBehind]
      simp

/-! ## Names -/

/-- Nothing, a bar, or a namespace in front of a bar. -/
def IsNamespace (read : List Char → Option (List Char × List Char)) (space rest : List Char) :
    Prop :=
  space = [] ∨ space = ['|'] ∨ space = ['*', '|'] ∨
    ∃ name, space = name ++ ['|'] ∧ read (name ++ '|' :: rest) = some (name, '|' :: rest)

/-- What follows a namespace and its bar. -/
def afterNamespace (read : List Char → Option (List Char × List Char)) (cs : List Char) :
    Option (List Char) :=
  match cs with
  | '|' :: rest => some rest
  | '*' :: '|' :: rest => some rest
  | _ => match read cs with
    | some (_, '|' :: rest) => some rest
    | _ => none

/-- Reads a name and what stands behind it. -/
def readNamed (marks : List Char) (read readValue : List Char → Option (List Char × List Char))
    (cs : List Char) : Option (List Char) :=
  (read cs).bind fun r => readAttributeTail marks readValue r.2

theorem readAttribute_eq (cs : List Char) :
    readAttribute marks read readValue cs =
      ((afterNamespace read (skipSpacing cs)).bind (readNamed marks read readValue)).orElse fun _ =>
        readNamed marks read readValue (skipSpacing cs) := by
  unfold readAttribute
  dsimp only
  split
  · rename_i rest hNamed
    have hSome : (afterNamespace read (skipSpacing cs)).bind (readNamed marks read readValue) =
        some rest := hNamed
    rw [hSome]
    rfl
  · rename_i hNamed
    have hNone : (afterNamespace read (skipSpacing cs)).bind (readNamed marks read readValue) =
        none := hNamed
    rw [hNone]
    rfl

theorem exists_of_afterNamespace (hReader : IsReader read)
    (h : afterNamespace read cs = some rest) :
    ∃ space, space ≠ [] ∧ cs = space ++ rest ∧ IsNamespace read space rest := by
  unfold afterNamespace at h
  split at h
  · cases h
    exact ⟨['|'], by simp, rfl, Or.inr (Or.inl rfl)⟩
  · cases h
    exact ⟨['*', '|'], by simp, rfl, Or.inr (Or.inr (Or.inl rfl))⟩
  · split at h
    · rename_i name more hName
      cases h
      have hWhole := hReader.append hName
      subst hWhole
      exact ⟨name ++ ['|'], by simp, by simp, Or.inr (Or.inr (Or.inr ⟨name, rfl, hName⟩))⟩
    · cases h

theorem exists_of_readNamed (hMarks : AreMarks marks) (hReader : IsReader read)
    (hValue : IsReader readValue) (h : readNamed marks read readValue cs = some rest) :
    ∃ name tail, cs = name ++ (tail ++ rest) ∧
      read (name ++ (tail ++ rest)) = some (name, tail ++ rest) ∧
      TakesTail marks readValue rest tail := by
  obtain ⟨⟨name, after⟩, hName, hRead⟩ := Option.bind_eq_some_iff.mp h
  obtain ⟨tail, rfl, hTail⟩ := exists_takesTail hMarks hValue hRead
  have hWhole := hReader.append hName
  exact ⟨name, tail, hWhole.symm, hWhole ▸ hName, hTail⟩

theorem readNamed_of_takesTail (hMarks : AreMarks marks) (hValue : IsReader readValue)
    {tail : List Char} (hName : read (name ++ (tail ++ rest)) = some (name, tail ++ rest))
    (hTail : TakesTail marks readValue rest tail) :
    readNamed marks read readValue (name ++ (tail ++ rest)) = some rest := by
  rw [readNamed, hName]
  exact readAttributeTail_of_takesTail hMarks hValue hTail

/-- An attribute selector is spacing, a namespace if there is one, a name and what stands behind
it. -/
theorem exists_of_readAttribute (hMarks : AreMarks marks) (hReader : IsReader read)
    (hValue : IsReader readValue) (h : readAttribute marks read readValue cs = some rest) :
    ∃ gap space name tail, cs = gap ++ (space ++ (name ++ (tail ++ rest))) ∧ IsGap gap ∧
      IsNamespace read space (name ++ (tail ++ rest)) ∧
      read (name ++ (tail ++ rest)) = some (name, tail ++ rest) ∧
      TakesTail marks readValue rest tail := by
  obtain ⟨gap, hGap, hText, -⟩ := exists_gap cs
  rw [readAttribute_eq, Option.orElse_eq_or, Option.or_eq_some_iff] at h
  rcases h with h | ⟨-, h⟩
  · obtain ⟨after, hAfter, h⟩ := Option.bind_eq_some_iff.mp h
    obtain ⟨name, tail, rfl, hName, hTail⟩ := exists_of_readNamed hMarks hReader hValue h
    obtain ⟨space, -, hInner, hSpace⟩ := exists_of_afterNamespace hReader hAfter
    exact ⟨gap, space, name, tail, hInner ▸ hText, hGap, hSpace, hName, hTail⟩
  · obtain ⟨name, tail, hInner, hName, hTail⟩ := exists_of_readNamed hMarks hReader hValue h
    exact ⟨gap, [], name, tail, hInner ▸ hText, hGap, Or.inl rfl, hName, hTail⟩

/-! ## Strict attribute selectors -/

theorem areMarks_strict : AreMarks ['~', '|', '^', '$', '*'] := by
  refine ⟨by decide, ?_⟩
  decide

/-- A bar behind a name belongs to an operator. -/
theorem eq_cons_of_bar {tail : List Char} (h : TakesTail ['~', '|', '^', '$', '*'] readStrictValue rest tail)
    (hBar : tail ++ rest = '|' :: after) : ∃ more, after = '=' :: more := by
  have hRead := readAttributeTail_of_takesTail areMarks_strict isReader_readStrictValue h
  rw [hBar, readAttributeTail_open (skipSpacing_cons (by decide) after) (by decide)] at hRead
  obtain ⟨behind, hBehind, -⟩ := Option.bind_eq_some_iff.mp hRead
  unfold afterOperator at hBehind
  rw [if_neg (by decide), if_pos (by decide)] at hBehind
  split at hBehind
  · exact ⟨_, rfl⟩
  · cases hBehind

/-- What follows a bar. -/
def behindBar : List Char → Option (List Char)
  | '|' :: rest => some rest
  | _ => none

theorem behindBar_eq_some (h : behindBar cs = some rest) : cs = '|' :: rest := by
  unfold behindBar at h
  split at h
  · rw [Option.some.inj h]
  · cases h

theorem afterNamespace_of_read (hBar : ∀ rest, read ('|' :: rest) = none)
    (hStar : ∀ rest, read ('*' :: rest) = none) (h : read cs = some (name, after)) :
    afterNamespace read cs = behindBar after := by
  unfold afterNamespace
  split
  · rw [hBar] at h
    cases h
  · rw [hStar] at h
    cases h
  · rw [h]
    unfold behindBar
    split
    · rename_i hSame
      cases hSame
      rfl
    · rename_i hOther
      split
      · exact absurd rfl (hOther name _)
      · rfl

theorem afterNamespace_of_readName (h : readName cs = some (name, after)) :
    afterNamespace readName cs = behindBar after :=
  afterNamespace_of_read (fun _ => rfl) (fun _ => rfl) h

theorem readStrictAttribute_iff :
    readStrictAttribute cs = some rest ↔
      ∃ gap space name tail, cs = gap ++ (space ++ (name ++ (tail ++ rest))) ∧ IsGap gap ∧
        IsNamespace readName space (name ++ (tail ++ rest)) ∧
        readName (name ++ (tail ++ rest)) = some (name, tail ++ rest) ∧
        TakesTail ['~', '|', '^', '$', '*'] readStrictValue rest tail := by
  constructor
  · exact exists_of_readAttribute areMarks_strict isReader_readName isReader_readStrictValue
  · rintro ⟨gap, space, name, tail, rfl, hGap, hSpace, hName, hTail⟩
    have hNamed := readNamed_of_takesTail areMarks_strict isReader_readStrictValue hName hTail
    change readAttribute _ readName readStrictValue _ = _
    rw [readAttribute_eq, skipSpacing_append hGap, Option.orElse_eq_or, Option.or_eq_some_iff]
    rcases hSpace with rfl | rfl | rfl | ⟨before, rfl, hBefore⟩
    · rw [List.nil_append, isReader_readName.skipSpacing_append hName,
        afterNamespace_of_readName hName]
      refine Or.inr ⟨?_, hNamed⟩
      cases hBar : behindBar (tail ++ rest) with
      | none => rfl
      | some after =>
        obtain ⟨more, rfl⟩ := eq_cons_of_bar hTail (behindBar_eq_some hBar)
        rfl
    · exact Or.inl hNamed
    · exact Or.inl hNamed
    · refine Or.inl ?_
      have hStart := isReader_readName.skipSpacing_append hBefore
      simp only [List.append_assoc, List.singleton_append] at hStart ⊢
      rw [hStart, afterNamespace_of_readName hBefore]
      exact hNamed

end StyleSieve.Selector
