import StyleSieve.Event.Bus

/-!
# Runs of an event bus

A step that emits tells the listeners, and a listener that is told runs a step: the two call each other.

* `run_both`, `run_emit`, `tellFrom_other`, `tellFrom_silent`, `tellFrom_inside`: what each does, said
  without the bounds that make them end.
* `run_induction`: what holds of them if it is kept by each of these equations. The induction is on the
  number of uses that are still to come.
-/

namespace StyleSieve.EventBus

variable {τ σ : Type} [Topics τ σ] {b : EventBus τ σ} {topic : τ} {name : String} {signal : σ}
  {emission i : Nat}

/-! ## What a run does -/

/-- What comes of a use of the bus and what is done next, if the use does not fail. -/
def Outcome.andThen (o : Outcome τ σ) (next : EventBus τ σ → Outcome τ σ) : Outcome τ σ :=
  match o.failure with
  | none => next o.bus
  | some _ => o

omit [Topics τ σ] in
theorem Outcome.andThen_of_none {o : Outcome τ σ} (h : o.failure = none)
    (next : EventBus τ σ → Outcome τ σ) : o.andThen next = next o.bus := by
  rw [andThen, h]

theorem run_subscribe {inside : Option (Step τ σ)} :
    (run (.subscribe topic name inside) b).1 = ⟨b.register ⟨topic, name, .caller inside⟩, none⟩ := by
  rw [run]

theorem run_record :
    (run (.record topic name) b).1 = ⟨b.register ⟨topic, name, .recorder []⟩, none⟩ := by
  rw [run]

theorem run_both (first second : Step τ σ) :
    (run (.both first second) b).1 = (run first b).1.andThen fun after => (run second after).1 := by
  rw [run]
  dsimp only
  unfold Outcome.andThen
  split <;> rename_i hFailure <;> rw [hFailure]

theorem run_emit :
    (run (.emit signal) b).1 =
      (tellFrom b.log.length signal 0 (b.note (.began signal))).1.andThen fun after =>
        ⟨after.note (.ended b.log.length), none⟩ := by
  rw [run]
  unfold Outcome.andThen
  split <;> rename_i hFailure <;> rw [hFailure]

theorem tellFrom_end (h : b.listeners.length ≤ i) : (tellFrom emission signal i b).1 = ⟨b, none⟩ := by
  rw [tellFrom, dif_neg (Nat.not_lt.mpr h)]

theorem tellFrom_other (h : i < b.listeners.length)
    (hOther : Topics.admits b.listeners[i].topic signal = false) :
    (tellFrom emission signal i b).1 = (tellFrom emission signal (i + 1) b).1 := by
  rw [tellFrom, dif_pos h]
  dsimp only
  rw [hOther, if_neg Bool.false_ne_true]

theorem tellFrom_silent (h : i < b.listeners.length)
    (hTopic : Topics.admits b.listeners[i].topic signal = true)
    (hSilent : b.listeners[i].inside = none) :
    (tellFrom emission signal i b).1 =
      (tellFrom emission signal (i + 1) (b.tell emission i b.listeners[i] signal)).1 := by
  rw [tellFrom, dif_pos h]
  dsimp only
  rw [if_pos hTopic]
  split
  · rfl
  · rename_i step hInside
    rw [hSilent] at hInside
    cases hInside

theorem tellFrom_inside {step : Step τ σ} (h : i < b.listeners.length)
    (hTopic : Topics.admits b.listeners[i].topic signal = true)
    (hInside : b.listeners[i].inside = some step) :
    (tellFrom emission signal i b).1 =
      (run step (b.tell emission i b.listeners[i] signal)).1.andThen fun after =>
        (tellFrom emission signal (i + 1) after).1 := by
  rw [tellFrom, dif_pos h]
  dsimp only
  rw [if_pos hTopic]
  split
  · rename_i hSilent
    rw [hInside] at hSilent
    cases hSilent
  · rename_i other hOther
    obtain rfl : other = step := Option.some.inj (hOther.symm.trans hInside)
    unfold Outcome.andThen
    split <;> rename_i hFailure <;> rw [hFailure]

/-! ## Induction -/

omit [Topics τ σ] in
theorem length_tell (b : EventBus τ σ) (emission i : Nat) (l : Listener τ σ) (signal : σ) :
    (b.tell emission i l signal).listeners.length = b.listeners.length :=
  List.length_set

/-- To prove something of all steps and something of all tellings, it is enough to prove each of them
from what the step or the telling does next. -/
theorem run_induction {P : Step τ σ → EventBus τ σ → Prop} {Q : Nat → σ → Nat → EventBus τ σ → Prop}
    (subscribe : ∀ topic name inside b, P (.subscribe topic name inside) b)
    (record : ∀ topic name b, P (.record topic name) b)
    (fail : ∀ message b, P (.fail message) b)
    (both : ∀ first second b, P first b → P second (run first b).1.bus → P (.both first second) b)
    (emit : ∀ signal b, Q b.log.length signal 0 (b.note (.began signal)) → P (.emit signal) b)
    (last : ∀ emission signal i b, b.listeners.length ≤ i → Q emission signal i b)
    (other : ∀ emission signal i b (h : i < b.listeners.length),
      Topics.admits b.listeners[i].topic signal = false →
      Q emission signal (i + 1) b → Q emission signal i b)
    (silent : ∀ emission signal i b (h : i < b.listeners.length),
      Topics.admits b.listeners[i].topic signal = true → b.listeners[i].inside = none →
      Q emission signal (i + 1) (b.tell emission i b.listeners[i] signal) → Q emission signal i b)
    (inside : ∀ emission signal i b step (h : i < b.listeners.length),
      Topics.admits b.listeners[i].topic signal = true → b.listeners[i].inside = some step →
      P step (b.tell emission i b.listeners[i] signal) →
      Q emission signal (i + 1) (run step (b.tell emission i b.listeners[i] signal)).1.bus →
      Q emission signal i b) :
    (∀ step b, P step b) ∧ ∀ emission signal i b, Q emission signal i b := by
  suffices hAll : ∀ n,
      (∀ step b, step.weight + b.weight = n → P step b) ∧
      ∀ emission signal i b, b.weight = n → Q emission signal i b from
    ⟨fun step b => (hAll _).1 step b rfl, fun emission signal i b => (hAll _).2 emission signal i b rfl⟩
  intro n
  induction n using Nat.strongRecOn with
  | ind n ih =>
    have hStep : ∀ step b, step.weight + b.weight = n → P step b := by
      intro step b hWeight
      cases step with
      | subscribe topic name inside => exact subscribe topic name inside b
      | record topic name => exact record topic name b
      | fail message => exact fail message b
      | both first second =>
        simp only [Step.weight] at hWeight
        have hSecond := second.weight_pos
        have hLess := (run first b).2
        exact both first second b ((ih (first.weight + b.weight) (by omega)).1 first b rfl)
          ((ih (second.weight + (run first b).1.bus.weight) (by omega)).1 second _ rfl)
      | emit signal =>
        simp only [Step.weight] at hWeight
        exact emit signal b ((ih b.weight (by omega)).2 _ signal 0 _ (weight_note b _))
    refine ⟨hStep, fun emission signal i b hWeight => ?_⟩
    -- The weight stays the same from listener to listener while no step runs, so here the listeners
    -- that are still to be told get fewer.
    induction hLeft : b.listeners.length - i generalizing i b with
    | zero => exact last emission signal i b (by omega)
    | succ left ihLeft =>
      have h : i < b.listeners.length := by omega
      have hTotal := weight_tell b emission i h signal
      cases hTopic : Topics.admits b.listeners[i].topic signal with
      | false => exact other emission signal i b h hTopic (ihLeft (i + 1) b hWeight (by omega))
      | true =>
        cases hInside : b.listeners[i].inside with
        | none =>
          rw [Listener.weight, hInside] at hTotal
          refine silent emission signal i b h hTopic hInside (ihLeft (i + 1) _ ?_ ?_)
          · exact hTotal.trans hWeight
          · rw [length_tell]
            omega
        | some step =>
          rw [Listener.weight, hInside, Option.map_some, Option.getD_some] at hTotal
          have hLess := (run step (b.tell emission i b.listeners[i] signal)).2
          refine inside emission signal i b step h hTopic hInside (hStep step _ (by omega)) ?_
          exact (ih _ (by omega)).2 emission signal (i + 1) _ rfl

end StyleSieve.EventBus
