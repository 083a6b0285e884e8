import StyleSieve.Text.Class

/-!
# The value of a literal

String and template literals of a script spell characters with escapes. `cook` resolves them.
An escape that has no value makes the whole text worthless: this is so for malformed `\x` and
`\u` escapes everywhere, and in templates for the digit escapes too.

Escapes can spell the two halves of a surrogate pair one by one, so the text is first resolved
to code points; halves that meet are joined then, and the others are replaced.
-/

namespace StyleSieve.Script

open Text

/-- What a backslash introduces. -/
inductive Escape where
  /-- `\u` with digits in braces or with exactly four digits. -/
  | codePoint (digits : List Char)
  /-- `\x` with two digits. -/
  | byte (digits : List Char)
  /-- One to three octal digits. -/
  | octal (digits : List Char)
  /-- A line break of two characters, carriage return and line feed. -/
  | crlf
  /-- Any other character. -/
  | single (c : Char)

namespace Escape

/-- Reads the braced digits of a code point, without the opening brace. -/
def readBraced (cs : List Char) : Option (List Char × List Char) :=
  let ds := cs.takeWhile isHexDigit
  match cs.drop ds.length with
  | '}' :: rest => if ds.isEmpty then none else some (ds, rest)
  | _ => none

/-- Reads exactly `n` digits to base sixteen. -/
def readHex (n : Nat) (cs : List Char) : Option (List Char × List Char) :=
  let ds := cs.take n
  if ds.length == n && ds.all isHexDigit then some (ds, cs.drop n) else none

/-- Reads one to three octal digits, as many as there are. -/
def readOctal (cs : List Char) : Option (List Char × List Char) :=
  let ds := (cs.take 3).takeWhile isOctalDigit
  if ds.isEmpty then none else some (ds, cs.drop ds.length)

/-- Reads a code point escape behind its `u`. -/
def readCodePoint : List Char → Option (List Char × List Char)
  | '{' :: cs => readBraced cs
  | cs => readHex 4 cs

/-- Reads what a backslash introduces: the first of the spellings that fits. -/
def read : List Char → Option (Escape × List Char)
  | [] => none
  | 'u' :: rest =>
    match readCodePoint rest with
    | some (ds, rest) => some (.codePoint ds, rest)
    | none => some (.single 'u', rest)
  | 'x' :: rest =>
    match readHex 2 rest with
    | some (ds, rest) => some (.byte ds, rest)
    | none => some (.single 'x', rest)
  | '\r' :: '\n' :: rest => some (.crlf, rest)
  | c :: rest =>
    match readOctal (c :: rest) with
    | some (ds, rest) => some (.octal ds, rest)
    | none => some (.single c, rest)

theorem readHex_length {n : Nat} {cs ds rest : List Char} (h : readHex n cs = some (ds, rest)) :
    rest.length ≤ cs.length := by
  simp only [readHex] at h
  split at h
  · simp only [Option.some.injEq, Prod.mk.injEq] at h
    rw [← h.2, List.length_drop]
    omega
  · simp at h

theorem readBraced_length {cs ds rest : List Char} (h : readBraced cs = some (ds, rest)) :
    rest.length ≤ cs.length := by
  simp only [readBraced] at h
  split at h
  · next r heq =>
    split at h
    · simp at h
    · simp only [Option.some.injEq, Prod.mk.injEq] at h
      have := congrArg List.length heq
      rw [List.length_drop, List.length_cons, h.2] at this
      omega
  · simp at h

theorem readCodePoint_length {cs ds rest : List Char}
    (h : readCodePoint cs = some (ds, rest)) : rest.length ≤ cs.length := by
  unfold readCodePoint at h
  split at h
  · have := readBraced_length h
    simp only [List.length_cons]
    omega
  · exact readHex_length h

theorem readOctal_length {cs ds rest : List Char} (h : readOctal cs = some (ds, rest)) :
    rest.length < cs.length := by
  simp only [readOctal] at h
  split at h
  · simp at h
  · next hne =>
    simp only [Option.some.injEq, Prod.mk.injEq] at h
    have hpos : 0 < (List.takeWhile isOctalDigit (List.take 3 cs)).length := by
      cases hds : List.takeWhile isOctalDigit (List.take 3 cs) with
      | nil => simp [hds] at hne
      | cons => simp
    have hle : (List.takeWhile isOctalDigit (List.take 3 cs)).length ≤ cs.length := by
      have h1 := (List.takeWhile_sublist (p := isOctalDigit) (l := List.take 3 cs)).length_le
      have h2 := List.length_take_le' 3 cs
      omega
    rw [← h.2, List.length_drop]
    omega

/-- An escape takes at least one character. -/
theorem read_length {cs rest : List Char} {e : Escape} (h : read cs = some (e, rest)) :
    rest.length < cs.length := by
  unfold read at h
  split at h
  · simp at h
  · split at h
    · next hr =>
      simp only [Option.some.injEq, Prod.mk.injEq] at h
      have := readCodePoint_length hr
      simp only [List.length_cons, ← h.2]
      omega
    · simp only [Option.some.injEq, Prod.mk.injEq] at h
      simp [← h.2]
  · split at h
    · next hr =>
      simp only [Option.some.injEq, Prod.mk.injEq] at h
      have := readHex_length hr
      simp only [List.length_cons, ← h.2]
      omega
    · simp only [Option.some.injEq, Prod.mk.injEq] at h
      simp [← h.2]
  · simp only [Option.some.injEq, Prod.mk.injEq] at h
    simp only [← h.2, List.length_cons]
    omega
  · split at h
    · next hr =>
      simp only [Option.some.injEq, Prod.mk.injEq] at h
      have := readOctal_length hr
      rw [← h.2]
      exact this
    · simp only [Option.some.injEq, Prod.mk.injEq] at h
      simp [← h.2]

/-- The characters that one letter stands for. -/
def letterValue (c : Char) : Char :=
  if c == 'b' then '\x08'
  else if c == 'f' then '\x0c'
  else if c == 'n' then '\n'
  else if c == 'r' then '\r'
  else if c == 't' then '\t'
  else if c == 'v' then '\x0b'
  else c

/-- Line breaks, which vanish behind a backslash. -/
def isLineBreak (c : Char) : Bool :=
  c == '\r' || c == '\n' || c == '\u2028' || c == '\u2029'

/-- The code points that an escape stands for; `none` where it has no value. -/
def value (template : Bool) : Escape → Option (List Nat)
  | codePoint ds =>
    let n := digitsValue 16 ds
    if 0x10FFFF < n then none else some [n]
  | byte ds => some [digitsValue 16 ds]
  | octal ds =>
    if ds == ['0'] then some [0]
    else if template then none
    else some [digitsValue 8 ds]
  | crlf => some []
  | single c =>
    if c == 'u' || c == 'x' || (template && (c == '8' || c == '9')) then none
    else if isLineBreak c then some []
    else some [(letterValue c).toNat]

end Escape

/-- The code points of a literal text; `none` where an escape has no value. A backslash at the
very end stands for itself. -/
def codePoints? (template : Bool) (cs : List Char) : Option (List Nat) :=
  match cs with
  | [] => some []
  | c :: rest =>
    if c == '\\' then
      match h : Escape.read rest with
      | none => some [c.toNat]
      | some (e, after) =>
        have : after.length < rest.length + 1 := Nat.lt_succ_of_lt (Escape.read_length h)
        match e.value template with
        | none => none
        | some ns => (codePoints? template after).map (ns ++ ·)
    else (codePoints? template rest).map (c.toNat :: ·)
termination_by cs.length

/-- The first half of a surrogate pair. -/
def isHighHalf (n : Nat) : Bool := 0xD800 ≤ n && n ≤ 0xDBFF

/-- The second half of a surrogate pair. -/
def isLowHalf (n : Nat) : Bool := 0xDC00 ≤ n && n ≤ 0xDFFF

/-- Joins the halves of surrogate pairs that meet; a half on its own becomes the replacement
character. -/
def joinHalves : List Nat → List Char
  | [] => []
  | [n] => [if isHighHalf n || isLowHalf n then '\uFFFD' else Char.ofNat n]
  | n :: m :: rest =>
    if isHighHalf n then
      if isLowHalf m then
        Char.ofNat (0x10000 + (n - 0xD800) * 0x400 + (m - 0xDC00)) :: joinHalves rest
      else '\uFFFD' :: joinHalves (m :: rest)
    else (if isLowHalf n then '\uFFFD' else Char.ofNat n) :: joinHalves (m :: rest)

/-- Resolves the escapes of a literal text; `none` where one of them has no value. -/
def cook (template : Bool) (raw : String) : Option String :=
  (codePoints? template raw.toList).map fun ns => String.ofList (joinHalves ns)

/-- The cooked text, or the text as it stands where it cannot be cooked. -/
def cookOrRaw (template : Bool) (raw : String) : String :=
  (cook template raw).getD raw

end StyleSieve.Script
