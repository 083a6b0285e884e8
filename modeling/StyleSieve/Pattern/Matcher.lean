import StyleSieve.Pattern.Reader
import StyleSieve.Text.Case

/-!
# Matching patterns

A backtracking matcher. Every piece of a pattern is tried in its ways of matching, in order of
preference, each of which hands its progress to a continuation; the first way whose
continuation succeeds is taken. `Pattern.search` asks whether there is a match anywhere in a
text.
-/

namespace StyleSieve.Pattern

open Text

/-- How far matching has come: the text before, in reverse, and the text ahead, with the texts
that groups have captured. -/
structure Progress where
  before : List Char
  ahead : List Char
  offset : Nat
  captures : List (Nat × List Char)

/-- What is done after a piece has matched. -/
abbrev Continuation := Progress → Option Progress

/-- A letter, number or underscore, of every script or of ASCII. -/
def isWordFor (ascii : Bool) (c : Char) : Bool :=
  if ascii then c.toNat < 128 && isWordChar c else isWordChar c

/-- Whether a character is in a class. -/
def Category.contains (ascii : Bool) (c : Char) : Category → Bool
  | .digit => if ascii then isAsciiDigit c else isDigit c
  | .space => if ascii then c == ' ' || (9 ≤ c.toNat && c.toNat ≤ 13) else isBlank c
  | .word => isWordFor ascii c

/-- The lower-case form of a code under the given flags. -/
def lowerFor (ascii : Bool) (n : Nat) : Nat :=
  if ascii then (if n < 128 then lowerCode n else n) else lowerCode n

/-- The lower-case codes that count as the same letter as the lower-case code `n`. -/
def siblingsFor (ascii : Bool) (n : Nat) : List Nat :=
  if ascii then [n] else caseSiblings n

/-- The codes whose lower-case form is `n`. -/
def loweringTo (ascii : Bool) (n : Nat) : List Nat :=
  let self := if lowerFor ascii n == n then [n] else []
  let asciiUpper := if 97 ≤ n && n ≤ 122 then [n - 32] else []
  let others := if ascii then [] else caseRuns.toList.filterMap fun run =>
    let u := ((n : Int) - run.delta).toNat
    if 128 ≤ u && lowerCode u == n && run.first ≤ u && u ≤ run.last then some u else none
  self ++ asciiUpper ++ others

/-- Whether a character is among the members of a set. -/
def setContains (flags : Flags) (items : List SetItem) (c : Char) : Bool :=
  if flags.ignoreCase then
    let l := lowerFor flags.ascii c.toNat
    let siblings := siblingsFor flags.ascii l
    items.any fun
      | .literal code => siblings.contains (lowerFor flags.ascii code)
      | .range lo hi =>
        (siblings.flatMap (loweringTo flags.ascii)).any fun u => lo ≤ u && u ≤ hi
      | .category negated category => category.contains flags.ascii (Char.ofNat l) != negated
  else
    items.any fun
      | .literal code => code == c.toNat
      | .range lo hi => lo ≤ c.toNat && c.toNat ≤ hi
      | .category negated category => category.contains flags.ascii c != negated

/-- Whether a character is the one with the given code, apart from case if the flags say so. -/
def isLiteral (flags : Flags) (code : Nat) (c : Char) : Bool :=
  if flags.ignoreCase then
    (siblingsFor flags.ascii (lowerFor flags.ascii code)).contains (lowerFor flags.ascii c.toNat)
  else code == c.toNat

/-- Whether an anchor holds. -/
def Anchor.holds (flags : Flags) (p : Progress) : Anchor → Bool
  | .start =>
    p.before.isEmpty || (flags.multiline && p.before.head? == some '\n')
  | .finish =>
    p.ahead.isEmpty || p.ahead == ['\n'] || (flags.multiline && p.ahead.head? == some '\n')
  | .textStart => p.before.isEmpty
  | .textEnd => p.ahead.isEmpty
  | .boundary => atBoundary == some true
  | .noBoundary => atBoundary == some false
where
  /-- Whether exactly one side is a word character; undefined in an empty text. -/
  atBoundary : Option Bool :=
    if p.before.isEmpty && p.ahead.isEmpty then none
    else
      let isWord (c : Option Char) := (c.map (isWordFor flags.ascii)).getD false
      some (isWord p.before.head? != isWord p.ahead.head?)

/-- Passes one character. -/
def Progress.step (p : Progress) (c : Char) (rest : List Char) : Progress :=
  { p with before := c :: p.before, ahead := rest, offset := p.offset + 1 }

/-- Takes one character that satisfies a test. -/
def oneChar (test : Char → Bool) (k : Continuation) (p : Progress) : Option Progress :=
  match p.ahead with
  | [] => none
  | c :: rest => if test c then k (p.step c rest) else none

/-- Goes back by a number of characters. -/
def Progress.back (p : Progress) : Nat → Option Progress
  | 0 => some p
  | n + 1 =>
    match p.before with
    | [] => none
    | c :: before =>
      Progress.back { p with before := before, ahead := c :: p.ahead, offset := p.offset - 1 } n

/-- The text that a group has captured. -/
def Progress.captured (p : Progress) (number : Nat) : Option (List Char) :=
  (p.captures.find? (·.1 == number)).map (·.2)

/-- Records what a group that began at `start` has captured. -/
def Progress.capture (p : Progress) (number start : Nat) : Progress :=
  let text := (p.before.take (p.offset - start)).reverse
  { p with captures := (number, text) :: p.captures.filter (·.1 != number) }

/-- Takes the given characters. -/
def takeText (same : Char → Char → Bool) (k : Continuation) : List Char → Continuation
  | [], p => k p
  | c :: text, p =>
    match p.ahead with
    | [] => none
    | d :: rest => if same c d then takeText same k text (p.step d rest) else none

/-- Repeats a step as often as possible, then goes on; fewer repetitions are tried when that
fails. `last` is where the last repetition above the lower bound began: a repetition that takes
nothing is not repeated. -/
def repeatGreedy (step : Continuation → Continuation) (least : Nat) (most : Option Nat)
    (k : Continuation) : Nat → Nat → Option Nat → Continuation
  | 0, _, _, p => k p
  | fuel + 1, count, last, p =>
    if count < least then step (repeatGreedy step least most k fuel (count + 1) last) p
    else if most.all (count < ·) && last != some p.offset then
      (step (repeatGreedy step least most k fuel (count + 1) (some p.offset)) p).orElse
        fun _ => k p
    else k p

/-- Repeats a step as rarely as possible, then goes on; more repetitions are tried when that
fails. -/
def repeatLazy (step : Continuation → Continuation) (least : Nat) (most : Option Nat)
    (k : Continuation) : Nat → Nat → Option Nat → Continuation
  | 0, _, _, p => k p
  | fuel + 1, count, last, p =>
    if count < least then step (repeatLazy step least most k fuel (count + 1) last) p
    else
      (k p).orElse fun _ =>
        if most.all (count < ·) && last != some p.offset then
          step (repeatLazy step least most k fuel (count + 1) (some p.offset)) p
        else none

/-- Repeats a step as often as possible, for good. -/
def repeatPossessive (step : Continuation → Continuation) (least : Nat) (most : Option Nat) :
    Nat → Nat → Option Nat → Progress → Option Progress
  | 0, _, _, p => some p
  | fuel + 1, count, last, p =>
    if count < least then
      match step some p with
      | none => none
      | some p => repeatPossessive step least most fuel (count + 1) last p
    else if most.all (count < ·) && last != some p.offset then
      match step some p with
      | none => some p
      | some q => repeatPossessive step least most fuel (count + 1) (some p.offset) q
    else some p

/-- How many repetitions have to be considered: beyond the lower bound, every other one takes a
character. -/
def repeatFuel (least : Nat) (p : Progress) : Nat := least + 2 * p.ahead.length + 4

mutual

/-- Matches one piece and goes on with `k`. -/
def Node.run (groups : List (Option Width)) (flags : Flags) (k : Continuation) :
    Node → Continuation
  | .literal code => oneChar (isLiteral flags code) k
  | .notLiteral code => oneChar (fun c => !isLiteral flags code c) k
  | .any => oneChar (fun c => flags.dotAll || c != '\n') k
  | .set negated items => oneChar (fun c => setContains flags items c != negated) k
  | .anchor place => fun p => if place.holds flags p then k p else none
  | .group number on off body => fun p =>
    match number with
    | none => runAll groups (flags.inside on off) k body p
    | some n =>
      runAll groups (flags.inside on off) (fun q => k (q.capture n p.offset)) body p
  | .atomic body => fun p => (runAll groups flags some body p).bind k
  | .repetition greed least most body => fun p =>
    let step (k : Continuation) : Continuation := fun q => runAll groups flags k body q
    match greed with
    | .greedy => repeatGreedy step least most k (repeatFuel least p) 0 none p
    | .lazy => repeatLazy step least most k (repeatFuel least p) 0 none p
    | .possessive => (repeatPossessive step least most (repeatFuel least p) 0 none p).bind k
  | .branch alternatives => fun p => runAny groups flags k alternatives p
  | .reference n => fun p =>
    match p.captured n with
    | none => none
    | some text =>
      takeText (fun c d => if flags.ignoreCase then
        lowerFor flags.ascii c.toNat == lowerFor flags.ascii d.toNat else c == d) k text p
  | .condition n yes no => fun p =>
    if (p.captured n).isSome then runAll groups flags k yes p else runAll groups flags k no p
  | .look behind negated body => fun p =>
    let start := if behind then p.back (sequenceWidth groups body).1 else some p
    match start.bind fun q => runAll groups flags some body q with
    | some q => if negated then none else k { p with captures := q.captures }
    | none => if negated then k p else none

/-- Matches pieces in a row. -/
def runAll (groups : List (Option Width)) (flags : Flags) (k : Continuation) :
    List Node → Continuation
  | [] => k
  | node :: rest => node.run groups flags (fun p => runAll groups flags k rest p)

/-- Matches the first alternative that can be. -/
def runAny (groups : List (Option Width)) (flags : Flags) (k : Continuation) :
    List (List Node) → Continuation
  | [] => fun _ => none
  | body :: rest => fun p =>
    (runAll groups flags k body p).orElse fun _ => runAny groups flags k rest p

end

/-- Looks for a match from each place on, `before` being the text in front in reverse. -/
def searchFrom (pattern : Pattern) (before : List Char) (offset : Nat) (ahead : List Char) :
    Bool :=
  (runAll pattern.widths pattern.flags some pattern.nodes ⟨before, ahead, offset, []⟩).isSome ||
    match ahead with
    | [] => false
    | c :: rest => searchFrom pattern (c :: before) (offset + 1) rest

/-- Whether the pattern matches anywhere in a text. -/
def search (pattern : Pattern) (text : String) : Bool := searchFrom pattern [] 0 text.toList

end StyleSieve.Pattern
