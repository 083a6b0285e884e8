import StyleSieve.Event
import StyleSieve.Json.Basic

/-!
# Event buses

Listeners register for a topic and are told every signal of that topic in the order of their
registration. A listener may use the bus itself while it is told: what it registers then is
told the same signal when its turn comes. Here a listener does so in its first call only, by a
step that is given with it, so that every run ends: a step is used up before it runs.

What a topic is, what a signal is, and which signals belong to which topics is left open. A bus
keeps a log of what has happened on it; the log tells apart to which emission a call belongs when
a listener emits something while it is told something else. Nothing that a bus does depends on it but
the numbers of emissions, which stand in the log only.
-/

namespace StyleSieve

/-- Which signals belong to which topics. -/
class Topics (τ σ : Type) where
  admits : τ → σ → Bool

namespace EventBus

/-- A use of a bus. -/
inductive Step (τ σ : Type) where
  /-- Registers a listener of a name, with what it does in its first call. A listener can also be
  registered by decorating it with a topic; that comes to the same. -/
  | subscribe (topic : τ) (name : String) (inside : Option (Step τ σ))
  /-- Registers a record of a name. -/
  | record (topic : τ) (name : String)
  | emit (signal : σ)
  /-- One use, and if it does not fail, another. -/
  | both (first second : Step τ σ)
  | fail (message : String)

/-- The number of uses in a step. -/
def Step.weight {τ σ : Type} : Step τ σ → Nat
  | subscribe _ _ none => 1
  | subscribe _ _ (some inside) => inside.weight + 1
  | record _ _ => 1
  | emit _ => 1
  | both first second => first.weight + second.weight
  | fail _ => 1

theorem Step.weight_pos {τ σ : Type} : ∀ step : Step τ σ, 0 < step.weight
  | subscribe _ _ none => Nat.one_pos
  | subscribe _ _ (some _) => Nat.succ_pos _
  | record _ _ => Nat.one_pos
  | emit _ => Nat.one_pos
  | both first second => Nat.add_pos_left first.weight_pos second.weight
  | fail _ => Nat.one_pos

/-- What a listener does when it is told a signal. -/
inductive Role (τ σ : Type) where
  /-- Calls out; a step that it has not used up runs behind the call. -/
  | caller (inside : Option (Step τ σ))
  /-- Keeps the signal. -/
  | recorder (seen : List σ)

/-- A registered listener. -/
structure Listener (τ σ : Type) where
  topic : τ
  name : String
  role : Role τ σ

/-- Something that has happened on a bus. Listeners are counted in the order of their registration,
and an emission is known by the number of notices in front of its beginning. -/
inductive Notice (τ σ : Type) where
  /-- A listener has registered, with what it is at that moment. -/
  | joined (l : Listener τ σ)
  | began (signal : σ)
  | told (emission listener : Nat) (signal : σ)
  | ended (emission : Nat)

end EventBus

/-- The listeners in the order of their registration, the calls that they have made, and what has
happened so far. -/
structure EventBus (τ σ : Type) where
  listeners : List (EventBus.Listener τ σ)
  calls : List (String × σ)
  log : List (EventBus.Notice τ σ)

namespace EventBus

variable {τ σ : Type}

namespace Listener

/-- The step that a listener runs when it is told a signal. -/
def inside (l : Listener τ σ) : Option (Step τ σ) :=
  match l.role with
  | .caller inside => inside
  | .recorder _ => none

/-- The listener after it has been told a signal, apart from the step that it runs then. -/
def told (l : Listener τ σ) (signal : σ) : Listener τ σ :=
  match l.role with
  | .caller _ => { l with role := .caller none }
  | .recorder seen => { l with role := .recorder (seen ++ [signal]) }

/-- The call that a listener makes when it is told a signal. -/
def call? (l : Listener τ σ) (signal : σ) : Option (String × σ) :=
  match l.role with
  | .caller _ => some (l.name, signal)
  | .recorder _ => none

/-- The weight of what a listener can still do. -/
def weight (l : Listener τ σ) : Nat := (l.inside.map Step.weight).getD 0

theorem weight_told (l : Listener τ σ) (signal : σ) : (l.told signal).weight = 0 := by
  unfold told
  split <;> rfl

end Listener

/-- The bus that nobody uses. -/
def quiet : EventBus τ σ := ⟨[], [], []⟩

/-- Adds to the log. -/
def note (b : EventBus τ σ) (notice : Notice τ σ) : EventBus τ σ := { b with log := b.log ++ [notice] }

/-- Registers a listener. -/
def register (b : EventBus τ σ) (l : Listener τ σ) : EventBus τ σ :=
  { b with listeners := b.listeners ++ [l], log := b.log ++ [.joined l] }

/-- The bus after the listener of an index has been told a signal. -/
def tell (b : EventBus τ σ) (emission i : Nat) (l : Listener τ σ) (signal : σ) : EventBus τ σ :=
  ⟨b.listeners.set i (l.told signal), b.calls ++ (l.call? signal).toList,
    b.log ++ [.told emission i signal]⟩

/-- The weight of what listeners can still do. -/
def weightAll : List (Listener τ σ) → Nat
  | [] => 0
  | l :: ls => l.weight + weightAll ls

theorem weightAll_append (ls ks : List (Listener τ σ)) :
    weightAll (ls ++ ks) = weightAll ls + weightAll ks := by
  induction ls with
  | nil => simp [weightAll]
  | cons l ls ih => simp [weightAll, ih, Nat.add_assoc]

/-- The weight of what the listeners of the bus can still do. -/
def weight (b : EventBus τ σ) : Nat := weightAll b.listeners

theorem weight_note (b : EventBus τ σ) (notice : Notice τ σ) : (b.note notice).weight = b.weight := rfl

theorem weight_subscribe (topic : τ) (name : String) (inside : Option (Step τ σ)) :
    (Step.subscribe topic name inside).weight = (Listener.mk topic name (.caller inside)).weight + 1 := by
  cases inside <;> rfl

theorem weight_register (b : EventBus τ σ) (l : Listener τ σ) :
    (b.register l).weight = b.weight + l.weight := by
  simp [register, weight, weightAll_append, weightAll]

theorem weight_tell (b : EventBus τ σ) (emission i : Nat) (h : i < b.listeners.length) (signal : σ) :
    (b.tell emission i b.listeners[i] signal).weight + b.listeners[i].weight = b.weight := by
  have hSplit : b.listeners = b.listeners.take i ++ b.listeners[i] :: b.listeners.drop (i + 1) := by
    rw [List.getElem_cons_drop, List.take_append_drop]
  have hTold : b.listeners.set i (b.listeners[i].told signal) =
      b.listeners.take i ++ b.listeners[i].told signal :: b.listeners.drop (i + 1) :=
    List.set_eq_take_append_cons_drop .. |>.trans (if_pos h)
  have hAll := congrArg weightAll hSplit
  rw [weightAll_append, weightAll] at hAll
  rw [weight, weight, tell, hTold, weightAll_append, weightAll, Listener.weight_told]
  omega

/-- How a use of the bus ended: with the message of a failure, if a step failed. -/
structure Outcome (τ σ : Type) where
  bus : EventBus τ σ
  failure : Option String

section Run

variable [Topics τ σ]

mutual

/-- Runs a step. What the bus can still do afterwards weighs less than it did with the step. -/
def run (step : Step τ σ) (b : EventBus τ σ) :
    { o : Outcome τ σ // o.bus.weight < step.weight + b.weight } :=
  match step with
  | .subscribe topic name inside =>
    ⟨⟨b.register ⟨topic, name, .caller inside⟩, none⟩, by
      rw [weight_register, weight_subscribe]
      omega⟩
  | .record topic name =>
    ⟨⟨b.register ⟨topic, name, .recorder []⟩, none⟩, by
      rw [weight_register]
      simp [Step.weight, Listener.weight, Listener.inside]⟩
  | .fail message => ⟨⟨b, some message⟩, by simp [Step.weight]⟩
  | .both first second =>
    let o := run first b
    match o.1.failure with
    | some _ => ⟨o.1, by have := o.2; simp only [Step.weight]; omega⟩
    | none =>
      have less : second.weight + o.1.bus.weight < first.weight + second.weight + b.weight := by
        have := o.2
        omega
      let next := run second o.1.bus
      ⟨next.1, Nat.lt_trans next.2 less⟩
  | .emit signal =>
    let o := tellFrom b.log.length signal 0 (b.note (.began signal))
    match o.1.failure with
    | some _ => ⟨o.1, by have := o.2; simp only [Step.weight, weight_note] at *; omega⟩
    | none =>
      ⟨⟨o.1.bus.note (.ended b.log.length), none⟩, by
        have := o.2
        simp only [Step.weight, weight_note] at *
        omega⟩
termination_by (step.weight + b.weight, 0, 0)
decreasing_by
  · have := second.weight_pos
    exact Prod.Lex.left _ _ (by simp only [Step.weight]; omega)
  · exact Prod.Lex.left _ _ less
  · have : (b.note (.began signal)).weight < 1 + b.weight := by
      rw [weight_note]
      omega
    exact Prod.Lex.left _ _ this

/-- Tells a signal to the listeners from an index on, also to those that register meanwhile. -/
def tellFrom (emission : Nat) (signal : σ) (i : Nat) (b : EventBus τ σ) :
    { o : Outcome τ σ // o.bus.weight ≤ b.weight } :=
  if h : i < b.listeners.length then
    let l := b.listeners[i]
    if Topics.admits l.topic signal then
      let told := b.tell emission i l signal
      have total : told.weight + l.weight = b.weight := weight_tell b emission i h signal
      match hi : l.inside with
      | none =>
        have same : told.weight = b.weight := by
          rw [Listener.weight, hi] at total
          exact total
        have later : told.listeners.length - (i + 1) < b.listeners.length - i := by
          simp only [told, tell, List.length_set]
          omega
        let o := tellFrom emission signal (i + 1) told
        ⟨o.1, by have := o.2; omega⟩
      | some step =>
        have less : step.weight + told.weight = b.weight := by
          rw [Listener.weight, hi] at total
          exact (Nat.add_comm ..).trans total
        let o := run step told
        match o.1.failure with
        | some _ => ⟨o.1, by have := o.2; omega⟩
        | none =>
          have lighter : o.1.bus.weight < b.weight := by have := o.2; omega
          let next := tellFrom emission signal (i + 1) o.1.bus
          ⟨next.1, by have := next.2; omega⟩
    else
      let o := tellFrom emission signal (i + 1) b
      ⟨o.1, o.2⟩
  else ⟨⟨b, none⟩, Nat.le_refl _⟩
termination_by (b.weight, 1, b.listeners.length - i)
decreasing_by
  all_goals first
    | exact Prod.Lex.left _ _ lighter
    | (have e : (b.tell emission i b.listeners[i] signal).weight = b.weight := same
       rw [e]
       exact Prod.Lex.right _ (Prod.Lex.right _ later))
    | (have e : step.weight + (b.tell emission i b.listeners[i] signal).weight = b.weight := less
       rw [e]
       exact Prod.Lex.right _ (Prod.Lex.left _ _ (by omega)))
    | exact Prod.Lex.right _ (Prod.Lex.right _ (by omega))

end

/-- Runs a step, with calls and a log of its own. -/
def perform (b : EventBus τ σ) (step : Step τ σ) : Outcome τ σ :=
  (run step { b with calls := [], log := [] }).1

end Run

/-- The records by name; of two records of one name the later. -/
def records (b : EventBus τ σ) : List (String × List σ) :=
  b.listeners.foldl (fun acc l =>
    match l.role with
    | .recorder seen => setField l.name seen acc
    | .caller _ => acc) []

end EventBus

/-! ## The bus of a build -/

/-- What can be sent over the bus of a build: an event of a pass, or any other value. -/
inductive Signal where
  | event (e : Event)
  | value (v : Json)

/-- What a listener of a build wants to be told. -/
inductive Topic where
  | anything
  | modulesScanned
  | safelistBuilt
  | assetPurged
  | assetSkipped
  | text
  /-- Integers, and also truth values. -/
  | integer
  | truth
  | real
  | list
  deriving DecidableEq

/-- Whether a signal belongs to a topic. -/
def Topic.admits : Topic → Signal → Bool
  | .anything, _ => true
  | .modulesScanned, .event (.modulesScanned ..) => true
  | .safelistBuilt, .event (.safelistBuilt ..) => true
  | .assetPurged, .event (.assetPurged ..) => true
  | .assetSkipped, .event (.assetSkipped ..) => true
  | .text, .value (.str _) => true
  | .integer, .value (.int _) => true
  | .integer, .value (.bool _) => true
  | .truth, .value (.bool _) => true
  | .real, .value (.float _) => true
  | .list, .value (.arr _) => true
  | _, _ => false

instance : Topics Topic Signal := ⟨Topic.admits⟩

/-- The bus of a build. -/
abbrev Bus := EventBus Topic Signal

/-- A use of the bus of a build. -/
abbrev BusStep := EventBus.Step Topic Signal

end StyleSieve
