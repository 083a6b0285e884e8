import Mathlib.Data.List.TakeWhile
import StyleSieve.Proofs.Text.Runs
import StyleSieve.Script.Literal

/-!
# Escapes

What a backslash takes is told by the text behind it alone. Nothing that it takes beyond the first
character is a backslash, so an escape never reaches into the next one.

* `read_iff`: which escape is read, and which text it takes.
* `Takes.exists_head`: beyond its first character, an escape takes no backslash.
* `Takes.append`: the next escape does not matter.
-/

namespace StyleSieve.Script

open Text

variable {cs ds text rest front tail : List Char} {c : Char} {e : Escape} {n : Nat}

namespace Escape

/-! ## Digits -/

/-- Digits to base sixteen. -/
def AreHex (ds : List Char) : Prop := ∀ d ∈ ds, isHexDigit d = true

instance decidableAreHex : DecidablePred AreHex := fun ds => List.decidableBAll _ ds

/-- Octal digits. -/
def AreOctal (ds : List Char) : Prop := ∀ d ∈ ds, isOctalDigit d = true

instance decidableAreOctal : DecidablePred AreOctal := fun ds => List.decidableBAll _ ds

/-- Where fewer characters are taken than might be, none of their kind follows. -/
theorem not_of_head?_drop_takeWhile_take {p : Char → Bool}
    (hShort : ((cs.take n).takeWhile p).length < n) :
    ∀ d ∈ (cs.drop ((cs.take n).takeWhile p).length).head?, p d = false := by
  induction n generalizing cs with
  | zero => cases hShort
  | succ n ih =>
    cases cs with
    | nil => simp
    | cons c rest =>
      rw [List.take_succ_cons, List.takeWhile_cons] at hShort ⊢
      cases hKind : p c with
      | false => simpa using hKind
      | true =>
        rw [hKind, if_pos rfl, List.length_cons] at hShort
        simpa using ih (by omega)

theorem readBraced_iff :
    readBraced cs = some (ds, rest) ↔ cs = ds ++ '}' :: rest ∧ ds ≠ [] ∧ AreHex ds := by
  constructor
  · intro h
    unfold readBraced at h
    dsimp only at h
    have hWhole := List.prefix_iff_eq_append.mp (List.takeWhile_prefix isHexDigit (l := cs))
    split at h
    · rename_i more hDrop
      rw [hDrop] at hWhole
      split at h
      · cases h
      · rename_i hSome
        cases h
        exact ⟨hWhole.symm, by simpa using hSome, fun d hd => List.mem_takeWhile_imp hd⟩
    · cases h
  · rintro ⟨rfl, hSome, hDigits⟩
    have hBrace : ∀ d ∈ ('}' :: rest).head?, isHexDigit d = false := by
      intro d hd
      cases hd
      decide
    unfold readBraced
    rw [takeWhile_append_of_head? hDigits hBrace]
    dsimp only
    rw [List.drop_left]
    simpa using hSome

theorem readHex_iff :
    readHex n cs = some (ds, rest) ↔ cs = ds ++ rest ∧ ds.length = n ∧ AreHex ds := by
  constructor
  · intro h
    unfold readHex at h
    dsimp only at h
    split at h
    · rename_i hTaken
      cases h
      obtain ⟨hLength, hDigits⟩ := Bool.and_eq_true_iff.mp hTaken
      exact ⟨(List.take_append_drop n cs).symm, by simpa using hLength,
        by simpa [AreHex] using hDigits⟩
    · cases h
  · rintro ⟨rfl, rfl, hDigits⟩
    unfold readHex
    rw [List.take_left, List.drop_left]
    simpa [AreHex] using hDigits

theorem readOctal_iff :
    readOctal cs = some (ds, rest) ↔ cs = ds ++ rest ∧ ds ≠ [] ∧ AreOctal ds ∧ ds.length ≤ 3 ∧
      (ds.length < 3 → ∀ d ∈ rest.head?, isOctalDigit d = false) := by
  constructor
  · intro h
    unfold readOctal at h
    dsimp only at h
    have hPrefix := (List.takeWhile_prefix isOctalDigit).trans (List.take_prefix 3 cs)
    have hWhole := List.prefix_iff_eq_append.mp hPrefix
    have hLength :=
      ((List.takeWhile_prefix isOctalDigit).length_le).trans (List.length_take_le 3 cs)
    have hOctal : AreOctal ((cs.take 3).takeWhile isOctalDigit) := fun d hd =>
      List.mem_takeWhile_imp hd
    split at h
    · cases h
    · rename_i hSome
      cases h
      refine ⟨hWhole.symm, by simpa using hSome, hOctal, hLength, not_of_head?_drop_takeWhile_take⟩
  · rintro ⟨rfl, hSome, hOctal, hLength, hEnd⟩
    have hStop : ∀ d ∈ (rest.take (3 - ds.length)).head?, isOctalDigit d = false := by
      intro d hd
      rw [List.head?_take] at hd
      split at hd
      · cases hd
      · exact hEnd (by omega) d hd
    unfold readOctal
    rw [List.take_append, List.take_of_length_le hLength,
      takeWhile_append_of_head? hOctal hStop]
    dsimp only
    rw [List.drop_left]
    simpa using hSome

theorem readCodePoint_iff :
    readCodePoint cs = some (ds, rest) ↔
      (cs = '{' :: (ds ++ '}' :: rest) ∧ ds ≠ [] ∧ AreHex ds) ∨
        (cs = ds ++ rest ∧ ds.length = 4 ∧ AreHex ds) := by
  unfold readCodePoint
  split
  · rename_i cs
    have hNever : ¬('{' :: cs = ds ++ rest ∧ ds.length = 4 ∧ AreHex ds) := by
      rintro ⟨hSame, hLength, hDigits⟩
      obtain ⟨d, ds, rfl⟩ := List.exists_cons_of_length_pos (by omega : 0 < ds.length)
      cases hSame
      exact absurd (hDigits '{' List.mem_cons_self) (by decide)
    rw [readBraced_iff, or_iff_left hNever, List.cons.injEq, eq_self, true_and]
  · rename_i hOther
    rw [readHex_iff, or_iff_right fun hBraced => hOther _ hBraced.1]

/-- Whether a text begins with the given number of digits to base sixteen. -/
def StartsHex (n : Nat) (cs : List Char) : Prop :=
  ∃ ds rest, cs = ds ++ rest ∧ ds.length = n ∧ AreHex ds

/-- Whether a text begins with digits to base sixteen in braces. -/
def StartsBraced (cs : List Char) : Prop :=
  ∃ ds rest, cs = '{' :: (ds ++ '}' :: rest) ∧ ds ≠ [] ∧ AreHex ds

theorem readHex_eq_none_iff : readHex n cs = none ↔ ¬StartsHex n cs := by
  simp only [Option.eq_none_iff_forall_ne_some, Prod.forall, ne_eq, readHex_iff, StartsHex,
    not_exists]

theorem readCodePoint_eq_none_iff :
    readCodePoint cs = none ↔ ¬StartsBraced cs ∧ ¬StartsHex 4 cs := by
  simp only [Option.eq_none_iff_forall_ne_some, Prod.forall, ne_eq, readCodePoint_iff, StartsBraced,
    StartsHex, not_exists, not_or, forall_and]

theorem readOctal_eq_none_iff : readOctal (c :: rest) = none ↔ isOctalDigit c = false := by
  unfold readOctal
  rw [List.take_succ_cons, List.takeWhile_cons]
  cases isOctalDigit c <;> simp

/-! ## What is taken -/

/-- Whether a character stands alone behind a backslash, the text behind it being given. -/
structure IsAlone (c : Char) (rest : List Char) : Prop where
  notOctal : isOctalDigit c = false
  noCodePoint : c = 'u' → ¬StartsBraced rest ∧ ¬StartsHex 4 rest
  noByte : c = 'x' → ¬StartsHex 2 rest
  noFeed : c = '\r' → rest.head? ≠ some '\n'

/-- Which text an escape takes, the text behind it being given. -/
inductive Takes (rest : List Char) : Escape → List Char → Prop where
  | braced {ds : List Char} (hSome : ds ≠ []) (hDigits : AreHex ds) :
    Takes rest (.codePoint ds) ('u' :: '{' :: (ds ++ ['}']))
  | four {ds : List Char} (hLength : ds.length = 4) (hDigits : AreHex ds) :
    Takes rest (.codePoint ds) ('u' :: ds)
  | byte {ds : List Char} (hLength : ds.length = 2) (hDigits : AreHex ds) :
    Takes rest (.byte ds) ('x' :: ds)
  | octal {ds : List Char} (hSome : ds ≠ []) (hOctal : AreOctal ds) (hLength : ds.length ≤ 3)
      (hEnd : ds.length < 3 → ∀ d ∈ rest.head?, isOctalDigit d = false) : Takes rest (.octal ds) ds
  | crlf : Takes rest .crlf ['\r', '\n']
  | single {c : Char} (hAlone : IsAlone c rest) : Takes rest (.single c) [c]

theorem takes_of_read (h : read cs = some (e, rest)) :
    ∃ text, cs = text ++ rest ∧ Takes rest e text := by
  unfold read at h
  split at h
  · cases h
  · split at h
    · rename_i hRead
      cases h
      rcases readCodePoint_iff.mp hRead with ⟨rfl, hSome, hDigits⟩ | ⟨rfl, hLength, hDigits⟩
      · exact ⟨_, by simp, .braced hSome hDigits⟩
      · exact ⟨_, rfl, .four hLength hDigits⟩
    · rename_i hRead
      cases h
      exact ⟨['u'], rfl,
        .single ⟨by decide, fun _ => readCodePoint_eq_none_iff.mp hRead, nofun, nofun⟩⟩
  · split at h
    · rename_i hRead
      cases h
      obtain ⟨rfl, hLength, hDigits⟩ := readHex_iff.mp hRead
      exact ⟨_, rfl, .byte hLength hDigits⟩
    · rename_i hRead
      cases h
      exact ⟨['x'], rfl, .single ⟨by decide, nofun, fun _ => readHex_eq_none_iff.mp hRead, nofun⟩⟩
  · cases h
    exact ⟨_, rfl, .crlf⟩
  · rename_i c rest hU hX hLine
    split at h
    · rename_i hRead
      cases h
      obtain ⟨hWhole, hSome, hOctal, hLength, hEnd⟩ := readOctal_iff.mp hRead
      exact ⟨_, hWhole, .octal hSome hOctal hLength hEnd⟩
    · rename_i hRead
      cases h
      refine ⟨[c], rfl, .single ⟨readOctal_eq_none_iff.mp hRead, fun h => absurd h hU,
        fun h => absurd h hX, fun hReturn hFeed => ?_⟩⟩
      cases rest with
      | nil => cases hFeed
      | cons d more =>
        cases hFeed
        exact hLine more hReturn rfl

theorem read_other (hU : c ≠ 'u') (hX : c ≠ 'x') (hFeed : c = '\r' → rest.head? ≠ some '\n') :
    read (c :: rest) =
      match readOctal (c :: rest) with
      | some (ds, rest) => some (octal ds, rest)
      | none => some (single c, rest) := by
  unfold read
  split
  · contradiction
  all_goals
    rename_i hSame
    cases hSame
  · exact absurd rfl hU
  · exact absurd rfl hX
  · exact absurd rfl (hFeed rfl)
  · rfl

theorem read_of_takes (h : Takes rest e text) : read (text ++ rest) = some (e, rest) := by
  cases h with
  | @braced ds hSome hDigits =>
    have hRead : readCodePoint ('{' :: (ds ++ '}' :: rest)) = some (ds, rest) :=
      readCodePoint_iff.mpr (Or.inl ⟨rfl, hSome, hDigits⟩)
    simp [read, hRead]
  | @four ds hLength hDigits =>
    have hRead : readCodePoint (ds ++ rest) = some (ds, rest) :=
      readCodePoint_iff.mpr (Or.inr ⟨rfl, hLength, hDigits⟩)
    simp [read, hRead]
  | @byte ds hLength hDigits =>
    have hRead : readHex 2 (ds ++ rest) = some (ds, rest) := readHex_iff.mpr ⟨rfl, hLength, hDigits⟩
    simp [read, hRead]
  | octal hSome hOctal hLength hEnd =>
    have hRead := readOctal_iff.mpr ⟨rfl, hSome, hOctal, hLength, hEnd⟩
    obtain ⟨d, more, rfl⟩ := List.exists_cons_of_ne_nil hSome
    have hDigit := hOctal d List.mem_cons_self
    rw [List.cons_append] at hRead ⊢
    rw [read_other, hRead]
    all_goals
      rintro rfl
      cases hDigit
  | crlf => rfl
  | @single c hAlone =>
    rw [List.singleton_append]
    by_cases hU : c = 'u'
    · subst hU
      rw [read, readCodePoint_eq_none_iff.mpr (hAlone.noCodePoint rfl)]
    by_cases hX : c = 'x'
    · subst hX
      rw [read, readHex_eq_none_iff.mpr (hAlone.noByte rfl)]
    · rw [read_other hU hX hAlone.noFeed, readOctal_eq_none_iff.mpr hAlone.notOctal]

/-- Which escape is read, and which text it takes. -/
theorem read_iff : read cs = some (e, rest) ↔ ∃ text, cs = text ++ rest ∧ Takes rest e text := by
  refine ⟨takes_of_read, ?_⟩
  rintro ⟨text, rfl, h⟩
  exact read_of_takes h

/-- Any character behind a backslash makes an escape. -/
theorem exists_takes (hSome : cs ≠ []) : ∃ e text rest, cs = text ++ rest ∧ Takes rest e text := by
  obtain ⟨c, more, rfl⟩ := List.exists_cons_of_ne_nil hSome
  have hRead : ∃ r, read (c :: more) = some r := by
    unfold read
    split
    · contradiction
    · split <;> exact ⟨_, rfl⟩
    · split <;> exact ⟨_, rfl⟩
    · exact ⟨_, rfl⟩
    · split <;> exact ⟨_, rfl⟩
  obtain ⟨⟨e, rest⟩, hRead⟩ := hRead
  obtain ⟨text, hWhole, h⟩ := takes_of_read hRead
  exact ⟨e, text, rest, hWhole, h⟩

/-! ## Texts in front of a backslash -/

/-- What holds no backslash and is at the front of a text also is at the front of what stands before
the next backslash. -/
theorem exists_of_append_slash (hSlash : '\\' ∉ text)
    (h : front ++ '\\' :: tail = text ++ rest) : ∃ more, front = text ++ more := by
  rcases List.append_eq_append_iff.mp h with ⟨more, rfl, hMore⟩ | ⟨more, hFront, -⟩
  · cases more with
    | nil => exact ⟨[], by simp⟩
    | cons c more =>
      cases hMore
      simp at hSlash
  · exact ⟨more, hFront⟩

theorem AreHex.slash_notMem (h : AreHex ds) : '\\' ∉ ds := fun hMem => by
  have hDigit := h _ hMem
  cases hDigit

theorem StartsHex.of_append (h : StartsHex n (front ++ '\\' :: tail)) : StartsHex n front := by
  obtain ⟨ds, rest, hWhole, hLength, hDigits⟩ := h
  obtain ⟨more, rfl⟩ := exists_of_append_slash hDigits.slash_notMem hWhole
  exact ⟨ds, more, rfl, hLength, hDigits⟩

theorem StartsBraced.of_append (h : StartsBraced (front ++ '\\' :: tail)) : StartsBraced front := by
  obtain ⟨ds, rest, hWhole, hSome, hDigits⟩ := h
  have hSlash : '\\' ∉ '{' :: (ds ++ ['}']) := by simp [hDigits.slash_notMem]
  have hWhole : front ++ '\\' :: tail = '{' :: (ds ++ ['}']) ++ rest := by simpa using hWhole
  obtain ⟨more, rfl⟩ := exists_of_append_slash hSlash hWhole
  exact ⟨ds, more, by simp, hSome, hDigits⟩

/-- Beyond its first character, an escape takes no backslash. -/
theorem Takes.exists_head (h : Takes rest e text) : ∃ c more, text = c :: more ∧ '\\' ∉ more := by
  cases h with
  | braced hSome hDigits => exact ⟨_, _, rfl, by simp [hDigits.slash_notMem]⟩
  | four hLength hDigits => exact ⟨_, _, rfl, hDigits.slash_notMem⟩
  | byte hLength hDigits => exact ⟨_, _, rfl, hDigits.slash_notMem⟩
  | octal hSome hOctal hLength hEnd =>
    obtain ⟨d, more, rfl⟩ := List.exists_cons_of_ne_nil hSome
    refine ⟨d, more, rfl, fun hMem => ?_⟩
    have hDigit := hOctal _ (List.mem_cons_of_mem _ hMem)
    cases hDigit
  | crlf => exact ⟨_, _, rfl, by decide⟩
  | single hAlone => exact ⟨_, _, rfl, List.not_mem_nil⟩

/-- The next escape does not matter. -/
theorem Takes.append (h : Takes rest e text) (tail : List Char) :
    Takes (rest ++ '\\' :: tail) e text := by
  cases h with
  | braced hSome hDigits => exact .braced hSome hDigits
  | four hLength hDigits => exact .four hLength hDigits
  | byte hLength hDigits => exact .byte hLength hDigits
  | octal hSome hOctal hLength hEnd =>
    refine .octal hSome hOctal hLength fun hShort d hd => ?_
    cases rest with
    | nil =>
      cases hd
      decide
    | cons x rest => exact hEnd hShort d hd
  | crlf => exact .crlf
  | single hAlone =>
    refine .single ⟨hAlone.notOctal, fun hU => ?_, fun hX h => hAlone.noByte hX h.of_append,
      fun hReturn => ?_⟩
    · obtain ⟨hBraced, hFour⟩ := hAlone.noCodePoint hU
      exact ⟨fun h => hBraced h.of_append, fun h => hFour h.of_append⟩
    · cases rest with
      | nil => simp
      | cons x rest => exact hAlone.noFeed hReturn

end Escape

end StyleSieve.Script
