import StyleSieve.Script.Grammar.Table

/-!
# States of a reading

A state lists the rows that are being read, how far each has come, and which terminals can
follow it. From a state and a terminal `Table.actions` tells whether the terminal is read on, and
which rows end before it. Where both or several are possible, ranks and sides decide, and what
they leave open is tried side by side.
-/

namespace StyleSieve.Script

/-- A production that has been read up to one of its steps, and the terminals that can follow
it. -/
structure Item where
  production : Nat
  position : Nat
  follow : TerminalSet
  deriving DecidableEq

/-- The items of a state, in the order of their productions and positions. -/
abbrev Kernel := List Item

namespace Kernel

/-- Adds an item. Items that differ only in what follows them are one. -/
def insert (item : Item) : Kernel → Kernel
  | [] => [item]
  | i :: rest =>
    if i.production == item.production && i.position == item.position then
      { i with follow := i.follow ||| item.follow } :: rest
    else if item.production < i.production
        || (item.production == i.production && item.position < i.position) then
      item :: i :: rest
    else i :: insert item rest

end Kernel

/-- Which of two contenders is the tighter one, if both are in an order. -/
def compareIn (isFirst isSecond : Contender → Bool) (sawFirst sawSecond : Bool) :
    List Contender → Ordering
  | [] => .eq
  | c :: rest =>
    if isFirst c then
      if sawSecond then .lt else compareIn isFirst isSecond true sawSecond rest
    else if isSecond c then
      if sawFirst then .gt else compareIn isFirst isSecond sawFirst true rest
    else compareIn isFirst isSecond sawFirst sawSecond rest

/-- What competes: a rank, and the symbols whose rows are concerned. -/
structure Claimant where
  rank : Option Rank
  heads : List Symbol

/-- Whether a claimant is meant by a contender. -/
def Claimant.isCalled (c : Claimant) : Contender → Bool
  | .rank r => c.rank == some r
  | .phrase p => c.heads.any fun h => h == .phrase p

/-- What can happen to a state before a terminal. -/
structure Actions where
  /-- The productions that end here. -/
  reductions : List Nat
  /-- Whether the terminal is read on. -/
  shifts : Bool

namespace Table

variable (t : Table)

def terminalCount : Nat := t.terminals.length

/-- The number of a terminal. -/
def numberOf (terminal : Terminal) : Nat := t.terminals.idxOf terminal

def production (i : Nat) : Production Nat := t.productions.getD i default

/-- The terminals that a symbol can begin with. -/
def first (symbol : Nat) : TerminalSet := t.firsts.getD symbol 0

/-- The symbols of an item that are still to be read. -/
def pending (i : Item) : List (Step Nat) := (t.production i.production).row.steps.drop i.position

/-- The last step of an item that has been read. -/
def lastStep? (i : Item) : Option (Step Nat) :=
  (t.production i.production).row.steps[i.position - 1]?

/-- The symbol whose row an item reads. -/
def headOf (production : Nat) : Symbol :=
  t.heads.getD ((t.production production).head - t.terminalCount) .whole

/-- The state before anything is read. -/
def initial : Kernel := [⟨0, 0, 1 <<< t.numberOf .endOfText⟩]

/-- The productions that can begin at an item with a symbol, one step further on. -/
def cornersOf (follow : TerminalSet) (expected symbol : Nat) : List Item :=
  (((t.corners.getD (expected - t.terminalCount) #[]).getD symbol []).map fun c =>
    ⟨c.production, 1, if c.isOpen then c.follow ||| follow else c.follow⟩)

/-- Where an item can come to by one symbol. -/
def advance (symbol : Nat) (i : Item) : List Item :=
  match t.pending i with
  | [] => []
  | s :: rest =>
    let follow := match rest with
      | [] => i.follow
      | next :: _ => t.first next.symbol
    let begun := if s.symbol < t.terminalCount then [] else t.cornersOf follow s.symbol symbol
    if s.symbol == symbol then { i with position := i.position + 1 } :: begun else begun

/-- The state behind a symbol. -/
def goto (k : Kernel) (symbol : Nat) : Kernel :=
  (k.flatMap (t.advance symbol)).foldl (fun kernel i => kernel.insert i) []

/-- The terminals that can come next at an item. -/
def expectedAt (i : Item) : TerminalSet :=
  match t.pending i with
  | [] => i.follow
  | s :: _ => t.first s.symbol

/-- The terminals that can come next in a state. -/
def expected (k : Kernel) : TerminalSet :=
  k.foldl (fun set i => set ||| t.expectedAt i) 0

/-- Which of two claimants is the tighter one: the first order that holds both decides. -/
def compare (a b : Claimant) : Ordering :=
  t.precedence.foldl (fun o order => o.then (compareIn a.isCalled b.isCalled false false order)) .eq

/-! ## Rows that end before a terminal -/

/-- The rows of a state that end before a terminal, those that lose against others left out. -/
structure Endings where
  reductions : List Nat := []
  /-- What the rows put forward: the rank of the last of them, and their symbols. -/
  claimant : Claimant := ⟨none, []⟩
  /-- The sides to which the rows group. -/
  sides : List (Option Side) := []

/-- Lets one more row end. -/
def Endings.add (e : Endings) (production : Nat) (head : Symbol) (last : Option (Step Nat)) :
    Endings :=
  { reductions := e.reductions ++ [production]
    claimant := ⟨last.bind (·.rank), e.claimant.heads ++ [head]⟩
    sides := e.sides ++ [last.bind (·.side)] }

/-- Adds the row of an item, if it ends before the terminal and does not lose against those that
do; those that lose against it are left out. -/
def addEnding (terminal : Nat) (e : Endings) (i : Item) : Endings :=
  if !(t.pending i).isEmpty || !i.follow.testBit terminal then e
  else
    let head := t.headOf i.production
    let last := t.lastStep? i
    if e.reductions.isEmpty then ({} : Endings).add i.production head last
    else
      match t.compare ⟨last.bind (·.rank), [head]⟩ e.claimant with
      | .lt => e
      | .eq => e.add i.production head last
      | .gt => ({} : Endings).add i.production head last

/-- The rows of a state that end before a terminal. -/
def endings (k : Kernel) (terminal : Nat) : Endings := k.foldl (t.addEnding terminal) {}

/-! ## Reading on or ending rows -/

/-- Whether an item is in the middle of its row, and can go on with the terminal. -/
def continuesWith (terminal : Nat) (i : Item) : Bool :=
  match t.pending i with
  | [] => false
  | s :: _ => 0 < i.position && (t.first s.symbol).testBit terminal

/-- The items that compete before a terminal: they go on with it, or end before it. -/
def competing (k : Kernel) (terminal : Nat) : List Item :=
  k.filter fun i => t.continuesWith terminal i ||
    ((t.pending i).isEmpty && i.follow.testBit terminal && i.production != 0)

/-- Whether all items belong to one repetition. -/
def isRepetition (items : List Item) : Bool :=
  match items with
  | [] => false
  | i :: rest =>
    match t.headOf i.production with
    | .many item => rest.all fun j => t.headOf j.production == .many item
    | _ => false

/-- How the items that go on compare with the rows that end. -/
def verdicts (k : Kernel) (terminal : Nat) (e : Endings) : List Ordering :=
  (k.filter (t.continuesWith terminal)).map fun i =>
    t.compare ⟨(t.lastStep? i).bind (·.rank), [t.headOf i.production]⟩ e.claimant

/-- Decides between reading on and ending rows. A repetition takes its next item for itself.
Otherwise the tighter of the two wins, then the side to which the rows group; what this leaves
open is tried both ways. -/
def resolve (k : Kernel) (terminal : Nat) (e : Endings) : Actions :=
  let ending : Actions := ⟨e.reductions, false⟩
  let going : Actions := ⟨[], true⟩
  if t.isRepetition (t.competing k terminal) then ending
  else
    let found := t.verdicts k terminal e
    let wins := found.contains .gt
    let loses := found.contains .lt
    if wins && !loses then going
    else if loses && !wins then ending
    else if !wins && !loses && e.sides.all (· == some .left) then ending
    else if !wins && !loses && e.sides.all (· == some .right) then going
    else ⟨e.reductions, true⟩

/-- Whether a terminal can be read on in a state. -/
def canShift (k : Kernel) (terminal : Nat) : Bool :=
  k.any fun i =>
    match t.pending i with
    | [] => false
    | s :: _ => (t.first s.symbol).testBit terminal

/-- What can happen to a state before a terminal. -/
def actions (k : Kernel) (terminal : Nat) : Actions :=
  let e := t.endings k terminal
  let shifts := t.canShift k terminal
  if shifts && !e.reductions.isEmpty then t.resolve k terminal e else ⟨e.reductions, shifts⟩

end Table

end StyleSieve.Script
