import StyleSieve.Script.Grammar.Basic

/-!
# Productions

A form is a choice among rows of symbols. Each symbol of a row keeps the rank and the side that
the form gives to the place behind it, which is what competes with the symbol that comes next.
-/

namespace StyleSieve.Script

/-- What a row is made of, and what has rows. A repetition is a symbol of its own, whose rows
are one item, or a shorter repetition and one more item. -/
inductive Symbol where
  | terminal (t : Terminal)
  | phrase (p : Phrase)
  | many (item : Form)
  /-- The text as a whole. -/
  | whole
  deriving DecidableEq

/-- A symbol in a row. -/
structure Step (σ : Type) where
  symbol : σ
  rank : Option Rank
  side : Option Side
  /-- Whether the word is a name here. -/
  isName : Bool
  deriving Inhabited

/-- A row of symbols, and the weight it gives to a reading. -/
structure Row (σ : Type) where
  steps : List (Step σ)
  weight : Int
  deriving Inhabited

namespace Row

/-- The weight of two forms together: the heavier one, the first of two equals. -/
def heavier (v w : Int) : Int := if v.natAbs < w.natAbs then w else v

variable {σ τ : Type}

/-- One row after another. -/
def append (r s : Row σ) : Row σ := ⟨r.steps ++ s.steps, heavier r.weight s.weight⟩

/-- Changes the last step. -/
def mapLast (f : Step σ → Step σ) (r : Row σ) : Row σ :=
  { r with steps := r.steps.modify (r.steps.length - 1) f }

/-- The same row of other symbols. -/
def map (f : σ → τ) (r : Row σ) : Row τ :=
  ⟨r.steps.map fun s => ⟨f s.symbol, s.rank, s.side, s.isName⟩, r.weight⟩

end Row

/-- What surrounds a form: the rank and the side that hold there, whether words are names, and
whether the form is the last of its row. -/
structure Surroundings where
  rank : Option Rank := none
  side : Option Side := none
  isName : Bool := false
  isLast : Bool := true

/-- The row of one symbol. -/
def Surroundings.only (c : Surroundings) (s : Symbol) : Row Symbol :=
  ⟨[⟨s, c.rank, c.side, c.isName⟩], 0⟩

namespace Form

/-- The rows that a form is a choice of. The rank and the side of a form hold for all of its
symbols but the last one, unless that one ends the row. -/
def rows (c : Surroundings) : Form → List (Row Symbol)
  | nothing => [⟨[], 0⟩]
  | terminal t => [c.only (.terminal t)]
  | phrase p => [c.only (.phrase p)]
  | many item => [c.only (.many item)]
  | seq first second =>
    (first.rows { c with isLast := false }).flatMap fun r => (second.rows c).map r.append
  | either first second => first.rows c ++ second.rows c
  | bound rank side form =>
    let inner := form.rows { c with rank := rank.or c.rank, side := side.or c.side }
    if c.isLast then inner
    else inner.map (Row.mapLast fun s => { s with
      rank := if rank.isSome then c.rank else s.rank
      side := if side.isSome then c.side else s.side })
  | weighted weight form =>
    (form.rows c).map fun r => { r with weight := Row.heavier weight r.weight }
  | named word => word.rows { c with isName := true }

/-- The repetitions in a form, those inside of others included. -/
def repetitions : Form → List Form
  | nothing => []
  | terminal _ => []
  | phrase _ => []
  | seq first second => first.repetitions ++ second.repetitions
  | either first second => first.repetitions ++ second.repetitions
  | many item => item :: item.repetitions
  | bound _ _ form => form.repetitions
  | weighted _ form => form.repetitions
  | named word => word.repetitions

end Form

/-- A symbol with one of its rows. -/
structure Production (σ : Type) where
  head : σ
  row : Row σ
  deriving Inhabited

namespace Grammar

/-- The repetitions of a grammar, each once. -/
def repetitions (g : Grammar) : List Form :=
  (g.rules.flatMap fun r => r.2.repetitions).eraseDups

/-- The forms of all symbols that have rows. -/
def forms (g : Grammar) : List (Symbol × Form) :=
  (.whole, .phrase g.start) :: (g.rules.map fun r => (.phrase r.1, r.2)) ++
    g.repetitions.map fun item => (.many item, .either (.seq (.many item) item) item)

/-- The productions of a grammar, that of the whole text first. The empty text is read without
any production, so there is none with an empty row. -/
def productions (g : Grammar) : List (Production Symbol) :=
  (g.forms.flatMap fun f => (f.2.rows {}).map (Production.mk f.1)).filter fun p =>
    !p.row.steps.isEmpty

end Grammar

end StyleSieve.Script
