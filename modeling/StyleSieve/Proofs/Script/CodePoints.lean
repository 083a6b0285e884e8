import StyleSieve.Proofs.Script.Escapes

/-!
# The code points of a literal text

* `isClosed`: where an escape can begin.
* `codePoints?_append`: what stands in front of an escape is resolved on its own.
* `codePoints?_eq_none_iff`: a text has no code points if one of its escapes has no value.
* `joinHalves_append`: a character that is no half of a pair keeps its neighbours apart.
-/

namespace StyleSieve.Script

open Text Escape

variable {template : Bool} {cs text rest front tail : List Char} {c : Char} {e : Escape} {n : Nat}
  {ns ms : List Nat}

/-! ## Texts up to an escape -/

/-- Whether every backslash of a text has a character behind it that goes with it, so that an escape
can begin where the text ends. -/
def isClosed : List Char → Bool
  | [] => true
  | ['\\'] => false
  | '\\' :: _ :: rest => isClosed rest
  | _ :: rest => isClosed rest

theorem isClosed_plain (hSlash : c ≠ '\\') (rest : List Char) :
    isClosed (c :: rest) = isClosed rest := by
  rw [isClosed]
  · rintro rfl rfl
    exact hSlash rfl
  · rintro d more rfl rfl
    exact hSlash rfl

theorem isClosed_append (hSlash : '\\' ∉ text) (rest : List Char) :
    isClosed (text ++ rest) = isClosed rest := by
  induction text with
  | nil => rfl
  | cons c text ih =>
    rw [List.mem_cons, not_or] at hSlash
    rw [List.cons_append, isClosed_plain (Ne.symm hSlash.1), ih hSlash.2]

/-- Behind an escape, a text is closed if it was closed with the escape in front of it. -/
theorem isClosed_escape (h : Takes rest e text) :
    isClosed ('\\' :: (text ++ rest)) = isClosed rest := by
  obtain ⟨c, more, rfl, hSlash⟩ := h.exists_head
  exact isClosed_append hSlash rest

/-! ## Code points -/

theorem codePoints?_nil : codePoints? template [] = some [] := by
  rw [codePoints?]

theorem codePoints?_plain (hSlash : c ≠ '\\') (rest : List Char) :
    codePoints? template (c :: rest) = (codePoints? template rest).map (c.toNat :: ·) := by
  rw [codePoints?, if_neg (by simpa using hSlash)]

/-- A backslash at the end stands for itself. -/
theorem codePoints?_slash : codePoints? template ['\\'] = some ['\\'.toNat] := by
  rw [codePoints?]
  rfl

/-- An escape is resolved, and the text goes on behind it. -/
theorem codePoints?_escape (h : Takes rest e text) :
    codePoints? template ('\\' :: (text ++ rest)) =
      (e.value template).bind fun ns => (codePoints? template rest).map (ns ++ ·) := by
  have hRead := read_iff.mpr ⟨text, rfl, h⟩
  rw [codePoints?, if_pos (by decide)]
  split
  · rename_i hNone
    rw [hRead] at hNone
    cases hNone
  · rename_i hSome
    rw [hRead] at hSome
    cases hSome
    split
    · rename_i hValue
      rw [hValue]
      rfl
    · rename_i hValue
      rw [hValue]
      rfl

/-- Every text consists of plain characters and of escapes, and may end in a backslash. -/
theorem escapes_induction {P : List Char → Prop} (nil : P []) (slash : P ['\\'])
    (plain : ∀ c rest, c ≠ '\\' → P rest → P (c :: rest))
    (escape : ∀ e text rest, Takes rest e text → P rest → P ('\\' :: (text ++ rest)))
    (cs : List Char) : P cs := by
  induction hLength : cs.length using Nat.strongRecOn generalizing cs with
  | ind n ih =>
    subst hLength
    cases cs with
    | nil => exact nil
    | cons c cs =>
      by_cases hSlash : c = '\\'
      · subst hSlash
        by_cases hSome : cs = []
        · rw [hSome]
          exact slash
        · obtain ⟨e, text, rest, rfl, hTakes⟩ := exists_takes hSome
          refine escape e text rest hTakes (ih rest.length ?_ rest rfl)
          simp only [List.length_cons, List.length_append]
          omega
      · exact plain c cs hSlash (ih cs.length (by simp) cs rfl)

/-- What stands in front of an escape is resolved on its own. -/
theorem codePoints?_append (h : isClosed front = true) (tail : List Char) :
    codePoints? template (front ++ '\\' :: tail) =
      (codePoints? template front).bind fun ns =>
        (codePoints? template ('\\' :: tail)).map (ns ++ ·) := by
  induction front using escapes_induction with
  | nil => simp [codePoints?_nil]
  | slash => cases h
  | plain c rest hSlash ih =>
    rw [isClosed_plain hSlash] at h
    rw [List.cons_append, codePoints?_plain hSlash, codePoints?_plain hSlash, ih h]
    cases codePoints? template rest <;> simp [Function.comp_def]
  | escape e text rest hTakes ih =>
    rw [isClosed_escape hTakes] at h
    rw [List.cons_append, List.append_assoc, codePoints?_escape (hTakes.append tail),
      codePoints?_escape hTakes, ih h]
    cases e.value template <;> cases codePoints? template rest <;> simp [Function.comp_def]

/-- Whether what stands behind a backslash is an escape without a value. -/
def HasNoValue (template : Bool) (tail : List Char) : Prop :=
  ∃ e text rest, tail = text ++ rest ∧ Takes rest e text ∧ e.value template = none

/-- A text has no code points if one of its escapes has no value. -/
theorem codePoints?_eq_none_iff :
    codePoints? template cs = none ↔
      ∃ front tail, cs = front ++ '\\' :: tail ∧ isClosed front = true ∧
        HasNoValue template tail := by
  constructor
  · intro h
    induction cs using escapes_induction with
    | nil =>
      rw [codePoints?_nil] at h
      cases h
    | slash =>
      rw [codePoints?_slash] at h
      cases h
    | plain c rest hSlash ih =>
      rw [codePoints?_plain hSlash, Option.map_eq_none_iff] at h
      obtain ⟨front, tail, rfl, hFront, hNone⟩ := ih h
      exact ⟨c :: front, tail, rfl, by rw [isClosed_plain hSlash, hFront], hNone⟩
    | escape e text rest hTakes ih =>
      cases hValue : e.value template with
      | none => exact ⟨[], text ++ rest, rfl, rfl, e, text, rest, rfl, hTakes, hValue⟩
      | some ns =>
        rw [codePoints?_escape hTakes, hValue, Option.bind_some, Option.map_eq_none_iff] at h
        obtain ⟨front, tail, rfl, hFront, hNone⟩ := ih h
        obtain ⟨c, more, rfl, hMore⟩ := hTakes.exists_head
        refine ⟨'\\' :: (c :: more ++ front), tail, by simp, ?_, hNone⟩
        exact (isClosed_append hMore front).trans hFront
  · rintro ⟨front, tail, rfl, hFront, e, text, rest, rfl, hTakes, hValue⟩
    rw [codePoints?_append hFront, codePoints?_escape hTakes, hValue]
    cases codePoints? template front <;> rfl

theorem value_codePoint {ds : List Char} (hCode : digitsValue 16 ds = n) (hLe : n ≤ 0x10FFFF) :
    (codePoint ds).value template = some [n] := by
  rw [Escape.value, hCode, if_neg (by omega)]

/-! ## Halves of pairs -/

/-- Whether a code point is a half of a surrogate pair. -/
def isHalf (n : Nat) : Bool := isHighHalf n || isLowHalf n

theorem toNat_valid (c : Char) :
    c.toNat < 0xD800 ∨ (0xDFFF < c.toNat ∧ c.toNat < 0x110000) :=
  c.valid

theorem isHalf_toNat (c : Char) : isHalf c.toNat = false := by
  have hValid := toNat_valid c
  simp only [isHalf, isHighHalf, isLowHalf, Bool.or_eq_false_iff, Bool.and_eq_false_iff,
    decide_eq_false_iff_not]
  omega

theorem joinHalves_cons (hWhole : isHalf n = false) (ns : List Nat) :
    joinHalves (n :: ns) = Char.ofNat n :: joinHalves ns := by
  obtain ⟨hHigh, hLow⟩ := Bool.or_eq_false_iff.mp hWhole
  cases ns with
  | nil => simp [joinHalves, hHigh, hLow]
  | cons m ns => simp [joinHalves, hHigh, hLow]

theorem joinHalves_pair {hi lo : Nat} (hHigh : isHighHalf hi = true) (hLow : isLowHalf lo = true)
    (ns : List Nat) :
    joinHalves (hi :: lo :: ns) =
      Char.ofNat (0x10000 + (hi - 0xD800) * 0x400 + (lo - 0xDC00)) :: joinHalves ns := by
  rw [joinHalves, if_pos hHigh, if_pos hLow]

/-- A character that is no half of a pair keeps its neighbours apart. -/
theorem joinHalves_append (hWhole : isHalf n = false) (ms ns : List Nat) :
    joinHalves (ms ++ n :: ns) = joinHalves ms ++ Char.ofNat n :: joinHalves ns := by
  have hBehind := joinHalves_cons hWhole ns
  obtain ⟨-, hLow⟩ := Bool.or_eq_false_iff.mp hWhole
  fun_induction joinHalves ms with
  | case1 => exact hBehind
  | case2 m =>
    rw [List.singleton_append, joinHalves, hLow, hBehind]
    cases hm : isHighHalf m <;> simp
  | case3 m k rest hm hk ih =>
    rw [List.cons_append, List.cons_append, joinHalves_pair hm hk, ih, List.cons_append]
  | case4 m k rest hm hk ih =>
    rw [List.cons_append, List.cons_append, joinHalves, if_pos hm, if_neg hk, ← List.cons_append,
      ih, List.cons_append]
  | case5 m k rest hm ih =>
    rw [List.cons_append, List.cons_append, joinHalves, if_neg hm, ← List.cons_append, ih,
      List.cons_append]

end StyleSieve.Script
