import StyleSieve.Script.Grammar.Full
import StyleSieve.Script.Grammar.Kernel
import StyleSieve.Script.Lexeme
import StyleSieve.Script.Tree

/-!
# Reading scripts

A script is read from left to right with a stack of states, and with several stacks side by side
where the grammar leaves open what a text means. Stacks that come to the same states at the same
place are one again, and the reading with the greatest weight counts.
-/

namespace StyleSieve.Script

/-- A state, and the trees that were read to come to it. -/
structure Frame where
  state : Kernel
  trees : List Tree

/-- A reading in progress. -/
structure Reading where
  offset : Nat
  rest : List Char
  /-- The states behind each other, the present one first. -/
  stack : List Frame
  weight : Int

/-- What has been read of a text as a whole. -/
structure Outcome where
  trees : List Tree
  weight : Int

/-! ## Trees -/

/-- What a token is. -/
def Terminal.kind : Terminal → NodeKind
  | identifier => .name
  | _ => .other

/-- What the trees of a row become under its symbol. -/
def Symbol.gather (s : Symbol) (trees : List Tree) : List Tree :=
  let node (kind : NodeKind) : List Tree :=
    match trees.head?, trees.getLast? with
    | some first, some last => [.node kind ⟨first.span.start, last.span.stop⟩ trees]
    | _, _ => []
  match s with
  | many _ => trees
  | phrase .string => node .string
  | phrase .markupString => node .string
  | phrase .template => node .template
  | phrase .substitution => node .substitution
  | _ => node .other

/-- Makes a word the name that it is in its row. -/
def Step.label (s : Step Nat) (trees : List Tree) : List Tree :=
  if s.isName then trees.map fun t => .node .name t.span t.children else trees

/-- Takes the trees of a row from a stack, given its steps from the last to the first. -/
def takeRow : List (Step Nat) → List Tree → List Frame → Option (List Tree × List Frame)
  | [], trees, stack => some (trees, stack)
  | _ :: _, _, [] => none
  | s :: steps, trees, f :: stack => takeRow steps (s.label f.trees ++ trees) stack

namespace Table

variable (t : Table)

/-- The terminals that a state expects. -/
def expectation (k : Kernel) : Expectation :=
  let set := t.expected k
  (t.terminals.zipIdx.filter fun p => set.testBit p.2).map (·.1)

/-! ## Steps of a reading -/

/-- Replaces the row of a production on top of a stack by its symbol. -/
def reduce (production : Nat) (stack : List Frame) : Option (List Frame) :=
  match takeRow (t.production production).row.steps.reverse [] stack with
  | none => none
  | some (_, []) => none
  | some (trees, below :: stack) =>
    some (⟨t.goto below.state (t.production production).head,
      (t.headOf production).gather trees⟩ :: below :: stack)

/-- Stacks that were brought to the next terminal, and texts that are read to their end. -/
structure Advance where
  ready : List (List Frame × Int) := []
  outcomes : List Outcome := []

/-- Ends rows before a terminal, in all ways that are possible, until it can be read on. -/
def settle (terminal : Nat) : Nat → List (List Frame × Int) → Advance → Advance
  | 0, _, found => found
  | _ + 1, [], found => found
  | fuel + 1, ([], _) :: rest, found => settle terminal fuel rest found
  | fuel + 1, (f :: stack, weight) :: rest, found =>
    if !(t.expected f.state).testBit terminal then settle terminal fuel rest found
    else
      let actions := t.actions f.state terminal
      let found := if actions.shifts then
          { found with ready := found.ready ++ [(f :: stack, weight)] }
        else found
      let found := if actions.reductions.contains 0 then
          { found with outcomes := found.outcomes ++ [⟨f.trees, weight⟩] }
        else found
      let reduced := (actions.reductions.filter (· != 0)).filterMap fun p =>
        (t.reduce p (f :: stack)).map (·, weight + (t.production p).row.weight)
      settle terminal fuel (rest ++ reduced) found

/-- Room for all rows that can end on a stack: rows of one symbol follow each other no longer
than there are symbols. -/
def settleFuel (stack : List Frame) : Nat := 4 * (stack.length + 1) * (t.heads.size + 1)

/-- One token or comment further. -/
def step (r : Reading) : List Reading × List Outcome :=
  match r.stack with
  | [] => ([], [])
  | f :: below =>
    match (t.expectation f.state).lexeme below.isEmpty r.rest with
    | none => ([], [])
    | some l =>
      let start := r.offset + l.skipped
      let stop := start + l.length
      let rest := r.rest.drop (l.skipped + l.length)
      match l.terminal? with
      | none => ([{ r with offset := stop, rest }], [])
      | some terminal =>
        if terminal == .endOfText && below.isEmpty then ([], [⟨[], 0⟩])
        else
          let number := t.numberOf terminal
          let advance := t.settle number (t.settleFuel r.stack) [(r.stack, r.weight)] {}
          (advance.ready.map fun (stack, weight) =>
            { offset := stop, rest, weight
              stack := ⟨match stack with
                | [] => []
                | top :: _ => t.goto top.state number, [.node terminal.kind ⟨start, stop⟩ []]⟩ ::
                  stack },
            advance.outcomes)

end Table

/-! ## Readings side by side -/

/-- Whether two readings are at the same place in the same states. -/
def Reading.meets (r s : Reading) : Bool :=
  r.offset == s.offset && r.stack.map (·.state) == s.stack.map (·.state)

/-- Adds a reading to others, which are in the order of their places. Of two that meet, the
heavier one stays. -/
def Reading.join (r : Reading) (others : List Reading) : List Reading :=
  if others.any r.meets then
    others.map fun s => if r.meets s && s.weight < r.weight then r else s
  else
    others.takeWhile (fun s => s.offset ≤ r.offset) ++
      r :: others.dropWhile (fun s => s.offset ≤ r.offset)

/-- Reads on, the reading that is furthest behind first, and gathers the outcomes. -/
def Table.readOn (t : Table) : Nat → List Reading → List Outcome → List Outcome
  | 0, _, outcomes => outcomes
  | _ + 1, [], outcomes => outcomes
  | fuel + 1, r :: rest, outcomes =>
    let (readings, found) := t.step r
    t.readOn fuel (readings.foldl (fun others s => s.join others) rest) (outcomes ++ found)

/-- The heaviest outcome, the first of equals. -/
def heaviest : List Outcome → Option Outcome
  | [] => none
  | o :: rest => some (rest.foldl (fun b c => if b.weight < c.weight then c else b) o)

/-- The table of the grammar of scripts. -/
def scriptTable : Table := scriptGrammar.table

/-- The syntax tree of a script, if it has one. -/
def parse? (source : List Char) : Option Tree :=
  let fuel := 64 * (source.length + 2)
  (heaviest (scriptTable.readOn fuel [⟨0, source, [⟨scriptTable.initial, []⟩], 0⟩] [])).map
    fun o => .node .other ⟨0, source.length⟩ o.trees

end StyleSieve.Script
