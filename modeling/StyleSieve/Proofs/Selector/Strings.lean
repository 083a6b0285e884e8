import StyleSieve.Css.Written
import StyleSieve.Proofs.Selector.Bracket
import StyleSieve.Selector.Attribute

/-!
# Strings that style sheets write

A style sheet writes every string in double quotes. Selectors read it up to its closing quote,
and its escapes stand for the characters of its value.

* `readQuoted_written`: a written string is a value of an attribute selector.
* `readAnyQuotedRest_written`: it is taken apart in the same way.
* `unescape_writtenInString`: what its escapes stand for.
-/

namespace StyleSieve.Selector

open Text
open Css (writtenInString)

variable {c : Char} {value : List Char}

/-- A character of a string is written as it is, escaped, or with its code. -/
theorem writtenInString_cases (c : Char) :
    (writtenInString c = ['\\', c] ∧ (c = '"' ∨ c = '\\')) ∨
      (∃ d ∈ ['A', 'D', 'C'], writtenInString c = ['\\', d, ' '] ∧
        escapedChar (digitsValue 16 [d]) = c) ∨
      (writtenInString c = [c] ∧ c ≠ '"' ∧ c ≠ '\\' ∧ isLineEnd c = false) := by
  by_cases hQuote : c = '"'
  · exact Or.inl ⟨by simp [writtenInString, hQuote], Or.inl hQuote⟩
  by_cases hSlash : c = '\\'
  · exact Or.inl ⟨by simp [writtenInString, hSlash], Or.inr hSlash⟩
  by_cases hFeed : c = '\n'
  · subst hFeed
    exact Or.inr (Or.inl ⟨'A', by decide, rfl, by decide⟩)
  by_cases hReturn : c = '\r'
  · subst hReturn
    exact Or.inr (Or.inl ⟨'D', by decide, rfl, by decide⟩)
  by_cases hForm : c = '\x0c'
  · subst hForm
    exact Or.inr (Or.inl ⟨'C', by decide, rfl, by decide⟩)
  · refine Or.inr (Or.inr ⟨?_, hQuote, hSlash, ?_⟩)
    · simp [writtenInString, hQuote, hSlash, hFeed, hReturn, hForm]
    · simp [isLineEnd, hFeed, hReturn, hForm]

section Reading

variable {quote : Char} {taken after : List Char}

theorem readQuotedRest_escape (hLine : c ≠ '\n') (rest : List Char) :
    readQuotedRest quote ('\\' :: c :: rest) =
      (readQuotedRest quote rest).map fun r => ('\\' :: c :: r.1, r.2) := by
  rw [readQuotedRest, if_neg (by simpa using hLine)]

theorem readQuotedRest_plain (hQuote : c ≠ quote) (hSlash : c ≠ '\\') (hLine : isLineEnd c = false)
    (rest : List Char) :
    readQuotedRest quote (c :: rest) =
      (readQuotedRest quote rest).map fun r => (c :: r.1, r.2) := by
  rw [readQuotedRest, if_neg (by simpa using hQuote), if_neg (by simp [hLine, hSlash])]
  exact fun d more hSame => absurd hSame hSlash

theorem readQuotedRest_quote (hSlash : quote ≠ '\\') (rest : List Char) :
    readQuotedRest quote (quote :: rest) = some ([quote], rest) := by
  rw [readQuotedRest, if_pos (by simp)]
  exact fun d more hSame => absurd hSame hSlash

theorem readAnyQuotedRest_escape (rest : List Char) :
    readAnyQuotedRest quote ('\\' :: c :: rest) =
      (readAnyQuotedRest quote rest).map fun r => ('\\' :: c :: r.1, r.2) := by
  rw [readAnyQuotedRest]

theorem readAnyQuotedRest_plain (hQuote : c ≠ quote) (hSlash : c ≠ '\\') (rest : List Char) :
    readAnyQuotedRest quote (c :: rest) =
      (readAnyQuotedRest quote rest).map fun r => (c :: r.1, r.2) := by
  rw [readAnyQuotedRest, if_neg (by simpa using hQuote), if_neg (by simpa using hSlash)]
  exact fun d more hSame => absurd hSame hSlash

theorem readAnyQuotedRest_quote (hSlash : quote ≠ '\\') (rest : List Char) :
    readAnyQuotedRest quote (quote :: rest) = some ([], rest) := by
  rw [readAnyQuotedRest, if_pos (by simp)]
  exact fun d more hSame => absurd hSame hSlash

/-- What the strict reader of strings takes, the reader of any strings takes as well, without the
closing quote. -/
theorem readAnyQuotedRest_of_readQuotedRest {cs : List Char} (hSlash : quote ≠ '\\')
    (h : readQuotedRest quote cs = some (taken, after)) :
    ∃ body, taken = body ++ [quote] ∧ readAnyQuotedRest quote cs = some (body, after) := by
  fun_induction readQuotedRest quote cs generalizing taken after with
  | case1 => cases h
  | case2 => cases h
  | case3 d rest hLine ih =>
    obtain ⟨⟨more, after'⟩, hMore, h⟩ := Option.map_eq_some_iff.mp h
    cases h
    obtain ⟨body, rfl, hBody⟩ := ih hMore
    exact ⟨'\\' :: d :: body, rfl, by rw [readAnyQuotedRest_escape, hBody]; rfl⟩
  | case4 c rest hOther hQuote =>
    cases h
    obtain rfl : c = quote := beq_iff_eq.mp hQuote
    exact ⟨[], rfl, readAnyQuotedRest_quote hSlash rest⟩
  | case5 => cases h
  | case6 c rest hOther hQuote hStop ih =>
    obtain ⟨⟨more, after'⟩, hMore, h⟩ := Option.map_eq_some_iff.mp h
    cases h
    obtain ⟨body, rfl, hBody⟩ := ih hMore
    have hPlain : c ≠ quote ∧ c ≠ '\\' := by simp_all
    exact ⟨c :: body, rfl, by rw [readAnyQuotedRest_plain hPlain.1 hPlain.2, hBody]; rfl⟩

end Reading

theorem readQuotedRest_writtenInString (c : Char) (rest : List Char) :
    readQuotedRest '"' (writtenInString c ++ rest) =
      (readQuotedRest '"' rest).map fun r => (writtenInString c ++ r.1, r.2) := by
  rcases writtenInString_cases c with ⟨h, hc⟩ | ⟨d, hd, h, -⟩ | ⟨h, hQuote, hSlash, hLine⟩
  · have hLine : c ≠ '\n' := by
      rcases hc with rfl | rfl <;> decide
    rw [h]
    exact readQuotedRest_escape hLine rest
  · have hLine : d ≠ '\n' := by
      rintro rfl
      exact absurd hd (by decide)
    rw [h]
    change readQuotedRest '"' ('\\' :: d :: ' ' :: rest) = _
    rw [readQuotedRest_escape hLine, readQuotedRest_plain (by decide) (by decide) (by decide)]
    cases readQuotedRest '"' rest <;> rfl
  · rw [h]
    exact readQuotedRest_plain hQuote hSlash hLine rest

/-- A written string is read up to its closing quote. -/
theorem readQuoted_written (value rest : List Char) :
    readQuoted ('"' :: (value.flatMap writtenInString ++ '"' :: rest)) =
      some ('"' :: value.flatMap writtenInString ++ ['"'], rest) := by
  have hRest : readQuotedRest '"' (value.flatMap writtenInString ++ '"' :: rest) =
      some (value.flatMap writtenInString ++ ['"'], rest) := by
    induction value with
    | nil => exact readQuotedRest_quote (by decide) rest
    | cons c more ih =>
      rw [List.flatMap_cons, List.append_assoc, readQuotedRest_writtenInString, ih]
      simp
  rw [readQuoted, if_pos (by decide), hRest]
  rfl

theorem readAnyQuotedRest_written (value rest : List Char) :
    readAnyQuotedRest '"' (value.flatMap writtenInString ++ '"' :: rest) =
      some (value.flatMap writtenInString, rest) := by
  have hWhole := readQuoted_written value rest
  rw [readQuoted, if_pos (by decide)] at hWhole
  obtain ⟨⟨taken, after⟩, hTaken, hWhole⟩ := Option.map_eq_some_iff.mp hWhole
  obtain ⟨body, rfl, hBody⟩ := readAnyQuotedRest_of_readQuotedRest (by decide) hTaken
  simp only [List.cons_append, Prod.mk.injEq, List.cons.injEq, true_and,
    List.append_cancel_right_eq] at hWhole
  rw [hBody, hWhole.1, hWhole.2]

theorem unescape_writtenInString (value rest : List Char) :
    unescape (value.flatMap writtenInString ++ rest) = value ++ unescape rest := by
  induction value with
  | nil => rfl
  | cons c more ih =>
    rw [List.flatMap_cons, List.append_assoc]
    rcases writtenInString_cases c with ⟨h, hc⟩ | ⟨d, hd, h, hValue⟩ | ⟨h, -, hSlash, -⟩
    · have hHex : isHexDigit c = false := by
        rcases hc with rfl | rfl <;> decide
      rw [h, List.cons_append, List.singleton_append, unescape_escape hHex, ih]
      rfl
    · have hHex : ∀ e ∈ [d], isHexDigit e = true := by
        have hLetters : ∀ d ∈ ['A', 'D', 'C'], isHexDigit d = true := by decide
        simpa using hLetters d hd
      have hWhole := unescape_hex hHex (List.cons_ne_nil d []) (by simp)
        (more.flatMap writtenInString ++ rest)
      rw [hValue, ih] at hWhole
      rw [h]
      exact hWhole
    · rw [h, List.singleton_append, unescape_cons hSlash, ih]
      rfl

end StyleSieve.Selector
