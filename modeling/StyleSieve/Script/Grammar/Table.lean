import StyleSieve.Script.Grammar.Production

/-!
# Tables of a grammar

The symbols of a grammar are numbered, terminals first, and sets of terminals are kept as
numbers, one bit for each. The table of a grammar says which terminals each symbol can begin
with, and which productions can begin at a place where a symbol is expected.
-/

namespace StyleSieve.Script

/-- A set of terminals, by their numbers. -/
abbrev TerminalSet := Nat

/-- A production that can begin where some symbol is expected. -/
structure Corner where
  production : Nat
  /-- The terminals that can follow the production there, as far as the symbol itself says. -/
  follow : TerminalSet
  /-- Whether the production can also be followed by what follows the symbol. -/
  isOpen : Bool

/-- A grammar, made ready for use. -/
structure Table where
  terminals : List Terminal
  /-- The symbols that have rows. -/
  heads : Array Symbol
  productions : Array (Production Nat)
  /-- The terminals that each symbol can begin with. -/
  firsts : Array TerminalSet
  /-- For each symbol with rows, and each symbol after it: the productions that can begin where
  the former is expected, and do begin with the latter. -/
  corners : Array (Array (List Corner))
  precedence : List (List Contender)

/-! ## Terminals that can begin a symbol -/

/-- Repeats a step until it changes nothing any more, at most `n` times. -/
def untilStable {α : Type} [BEq α] (step : α → α) : Nat → α → α
  | 0, a => a
  | n + 1, a => if step a == a then a else untilStable step n (step a)

/-- Adds to what a symbol can begin with what the first symbol of one of its rows can. -/
def addFirst (firsts : Array TerminalSet) (p : Production Nat) : Array TerminalSet :=
  match p.row.steps with
  | [] => firsts
  | s :: _ => firsts.modify p.head fun set => set ||| firsts.getD s.symbol 0

/-- The terminals that each symbol can begin with, from those that are known at the start. -/
def firstSets (productions : Array (Production Nat)) (known : Array TerminalSet) :
    Array TerminalSet :=
  untilStable (fun firsts => productions.foldl addFirst firsts) known.size known

/-! ## Productions that can begin where a symbol is expected -/

/-- What is known of a symbol that can begin where another one is expected. -/
structure Reach where
  follow : TerminalSet
  isOpen : Bool
  deriving BEq

/-- Joins what is known from two ways of beginning. -/
def Reach.join (r : Reach) : Option Reach → Reach
  | none => r
  | some s => ⟨r.follow ||| s.follow, r.isOpen || s.isOpen⟩

/-- If the head of a production can begin, its first symbol can. -/
def addReach (terminalCount : Nat) (firsts : Array TerminalSet)
    (reached : Array (Option Reach)) (p : Production Nat) : Array (Option Reach) :=
  match reached.getD (p.head - terminalCount) none with
  | none => reached
  | some r =>
    match p.row.steps with
    | [] => reached
    | [s] =>
      if s.symbol < terminalCount then reached
      else reached.modify (s.symbol - terminalCount) fun known => some (r.join known)
    | s :: next :: _ =>
      if s.symbol < terminalCount then reached
      else reached.modify (s.symbol - terminalCount) fun known =>
        some (Reach.join ⟨firsts.getD next.symbol 0, false⟩ known)

/-- The symbols with rows that can begin where one of them is expected. -/
def reachFrom (terminalCount headCount : Nat) (productions : Array (Production Nat))
    (firsts : Array TerminalSet) (head : Nat) : Array (Option Reach) :=
  untilStable (fun reached => productions.foldl (addReach terminalCount firsts) reached)
    headCount ((Array.replicate headCount none).setIfInBounds head (some ⟨0, true⟩))

/-- Files the productions of all symbols that can begin under the symbols they begin with. -/
def cornersOf (terminalCount symbolCount : Nat) (productions : Array (Production Nat))
    (reached : Array (Option Reach)) : Array (List Corner) :=
  (productions.zipIdx).foldr (fun (p, i) corners =>
    match reached.getD (p.head - terminalCount) none, p.row.steps with
    | some r, s :: _ => corners.modify s.symbol fun cs => ⟨i, r.follow, r.isOpen⟩ :: cs
    | _, _ => corners) (Array.replicate symbolCount [])

/-! ## The table -/

namespace Grammar

/-- The terminals of a grammar, each once, and the two that no row holds. -/
def terminals (g : Grammar) : List Terminal :=
  .endOfText :: .propertyPosition :: (g.productions.flatMap fun p =>
    p.row.steps.filterMap fun s =>
      match s.symbol with
      | .terminal t => some t
      | _ => none).eraseDups

/-- What each symbol is known to begin with at the start: terminals begin with themselves. -/
def knownFirsts (g : Grammar) (terminals : List Terminal) (heads : List Symbol) :
    List TerminalSet :=
  (List.range terminals.length).map (1 <<< ·) ++ heads.map fun h =>
    if g.freeWords.any fun p => h == .phrase p then
      1 <<< terminals.idxOf .propertyPosition
    else 0

/-- The table of a grammar. -/
def table (g : Grammar) : Table :=
  let terminals := g.terminals
  let heads := g.forms.map (·.1)
  let symbols := terminals.map Symbol.terminal ++ heads
  let productions := (g.productions.map fun p =>
    Production.mk (symbols.idxOf p.head) (p.row.map symbols.idxOf)).toArray
  let firsts := firstSets productions (g.knownFirsts terminals heads).toArray
  { terminals
    heads := heads.toArray
    productions
    firsts
    corners := ((List.range heads.length).map fun h =>
      cornersOf terminals.length symbols.length productions
        (reachFrom terminals.length heads.length productions firsts h)).toArray
    precedence := g.precedence }

end Grammar

end StyleSieve.Script
