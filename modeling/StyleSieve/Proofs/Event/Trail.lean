import Mathlib.Data.List.Basic
import StyleSieve.Proofs.Event.Run

/-!
# What a run leaves in the log

Every use of a bus leaves its notice in the log at the moment it is made, also the uses that listeners
make in their first calls. So the log of a run is not any log: it can be told from the steps, from the
calls, and from what the listeners that have joined still had to do.

* `Leaves`, `Tells`: what a step leaves behind a log, and what an emission leaves between its beginning
  and its end. A call of a listener that has still a step to run has what this step leaves behind it.
* `IsKnown`: the listeners and the calls of a bus are those that its log tells of. It is kept by each
  notice that the log gets: `IsKnown.register`, `IsKnown.tell`, `IsKnown.note`.
* `runs_leave`: so every step that does not fail leaves just that, whatever happened before.
-/

namespace StyleSieve.EventBus

variable {τ σ : Type}

/-! ## Reading the log -/

section Log

/-- The listeners that have joined, in their order, as they were when they joined. -/
def joined (log : List (Notice τ σ)) : List (Listener τ σ) :=
  log.filterMap fun
    | .joined l => some l
    | _ => none

/-- What a listener has been told, in the order of the calls. -/
def heard (listener : Nat) (log : List (Notice τ σ)) : List σ :=
  log.filterMap fun
    | .told _ i signal => if i = listener then some signal else none
    | _ => none

/-- The call that a notice tells of, with the name of the listener; telling a record is none. -/
def Notice.call? (ls : List (Listener τ σ)) : Notice τ σ → Option (String × σ)
  | told _ i signal => ls[i]?.bind fun l => l.call? signal
  | _ => none

/-- The calls that the log tells of. -/
def callsIn (log : List (Notice τ σ)) : List (String × σ) := log.filterMap (Notice.call? (joined log))

/-- The step that a listener runs when it is told the next signal: the one that it joined with, as long
as it has been told nothing. -/
def waiting (listener : Nat) (log : List (Notice τ σ)) : Option (Step τ σ) :=
  if (heard listener log).isEmpty then (joined log)[listener]?.bind Listener.inside else none

variable {log new : List (Notice τ σ)} {i : Nat} {notice : Notice τ σ}

theorem joined_append (log new : List (Notice τ σ)) : joined (log ++ new) = joined log ++ joined new :=
  List.filterMap_append

/-- The listeners that have joined stay the same when something else happens. -/
theorem joined_concat (h : ∀ l, notice ≠ .joined l) : joined (log ++ [notice]) = joined log := by
  rw [joined_append]
  cases notice with
  | joined l => exact absurd rfl (h l)
  | _ => exact List.append_nil _

theorem heard_append (listener : Nat) (log new : List (Notice τ σ)) :
    heard listener (log ++ new) = heard listener log ++ heard listener new :=
  List.filterMap_append

theorem heard_eq_nil (h : ∀ e signal, .told e i signal ∉ log) : heard i log = [] := by
  rw [heard, List.filterMap_eq_nil_iff]
  intro notice hNotice
  cases notice with
  | told e j signal =>
    refine if_neg fun hSame => ?_
    exact h e signal (hSame ▸ hNotice)
  | _ => rfl

/-- What a listener has been told stays the same when something happens that is no call. -/
theorem heard_concat (h : ∀ e i signal, notice ≠ .told e i signal) :
    heard i (log ++ [notice]) = heard i log := by
  have hNone : heard i [notice] = [] :=
    heard_eq_nil fun e signal hTold => h e i signal (List.mem_singleton.mp hTold).symm
  rw [heard_append, hNone, List.append_nil]

/-- Listeners that join do not change what calls there were, if only those were called that had joined
before. -/
theorem callsIn_append (h : ∀ e i signal, .told e i signal ∈ log → i < (joined log).length)
    (new : List (Notice τ σ)) :
    callsIn (log ++ new) = callsIn log ++ new.filterMap (Notice.call? (joined (log ++ new))) := by
  rw [callsIn, List.filterMap_append]
  congr 1
  refine List.filterMap_congr fun notice hNotice => ?_
  cases notice with
  | told e i signal =>
    rw [Notice.call?, joined_append, List.getElem?_append_left (h e i signal hNotice)]
    rfl
  | _ => rfl

end Log

/-! ## What steps leave -/

mutual

/-- What a step leaves behind a log. -/
inductive Leaves : List (Notice τ σ) → Step τ σ → List (Notice τ σ) → Prop where
  | subscribe {log topic name inside} :
      Leaves log (.subscribe topic name inside) [.joined ⟨topic, name, .caller inside⟩]
  | record {log topic name} : Leaves log (.record topic name) [.joined ⟨topic, name, .recorder []⟩]
  | emit {log signal new} (calls : Tells log.length signal (log ++ [.began signal]) new) :
      Leaves log (.emit signal) (.began signal :: new ++ [.ended log.length])
  | both {log first second new more} (left : Leaves log first new)
      (next : Leaves (log ++ new) second more) : Leaves log (.both first second) (new ++ more)

/-- What an emission that has begun leaves behind a log until it ends: its calls, and behind the call
of a listener that has still a step to run what this step leaves. -/
inductive Tells : Nat → σ → List (Notice τ σ) → List (Notice τ σ) → Prop where
  | nobody {emission signal log} : Tells emission signal log []
  | silent {emission signal log i more} (nothing : waiting i log = none)
      (rest : Tells emission signal (log ++ [.told emission i signal]) more) :
      Tells emission signal log (.told emission i signal :: more)
  | inside {emission signal log i step new more} (something : waiting i log = some step)
      (left : Leaves (log ++ [.told emission i signal]) step new)
      (rest : Tells emission signal (log ++ .told emission i signal :: new) more) :
      Tells emission signal log (.told emission i signal :: new ++ more)

end

/-- What steps leave behind a log that run one after the other. -/
def LeavesAll : List (Notice τ σ) → List (Step τ σ) → List (Notice τ σ) → Prop
  | _, [], new => new = []
  | log, step :: rest, new =>
    ∃ left more, new = left ++ more ∧ Leaves log step left ∧ LeavesAll (log ++ left) rest more

/-! ## Listeners -/

/-- What has become of a listener that has been told signals. -/
def Listener.toldAll (l : Listener τ σ) (signals : List σ) : Listener τ σ := signals.foldl Listener.told l

section Listeners

variable {l : Listener τ σ} {signal : σ} {seen : List σ}

theorem Listener.inside_told (l : Listener τ σ) (signal : σ) : (l.told signal).inside = none := by
  unfold Listener.told
  split <;> rfl

theorem Listener.topic_told (l : Listener τ σ) (signal : σ) : (l.told signal).topic = l.topic := by
  unfold Listener.told
  split <;> rfl

theorem Listener.call?_told (l : Listener τ σ) (signal : σ) : (l.told signal).call? = l.call? := by
  funext other
  unfold Listener.told Listener.call?
  cases l.role <;> rfl

theorem Listener.topic_toldAll (l : Listener τ σ) (signals : List σ) :
    (l.toldAll signals).topic = l.topic := by
  induction signals generalizing l with
  | nil => rfl
  | cons signal rest ih => exact (ih (l.told signal)).trans (l.topic_told signal)

theorem Listener.call?_toldAll (l : Listener τ σ) (signals : List σ) :
    (l.toldAll signals).call? = l.call? := by
  induction signals generalizing l with
  | nil => rfl
  | cons signal rest ih => exact (ih (l.told signal)).trans (l.call?_told signal)

theorem Listener.toldAll_concat (l : Listener τ σ) (signals : List σ) (signal : σ) :
    l.toldAll (signals ++ [signal]) = (l.toldAll signals).told signal := by
  rw [toldAll, List.foldl_append]
  rfl

theorem Listener.inside_toldAll_of_none (h : l.inside = none) (signals : List σ) :
    (l.toldAll signals).inside = none := by
  induction signals generalizing l with
  | nil => exact h
  | cons signal rest ih => exact ih (l.inside_told signal)

/-- A listener has something to do as long as it has been told nothing. -/
theorem Listener.inside_toldAll (l : Listener τ σ) (signals : List σ) :
    (l.toldAll signals).inside = if signals.isEmpty then l.inside else none := by
  cases signals with
  | nil => rfl
  | cons signal rest => exact Listener.inside_toldAll_of_none (l.inside_told signal) rest

theorem Listener.recorder_told (h : (l.told signal).role = .recorder seen) :
    ∃ before, l.role = .recorder before ∧ seen = before ++ [signal] := by
  unfold Listener.told at h
  split at h
  · cases h
  · rename_i before hRole
    cases h
    exact ⟨before, hRole, rfl⟩

/-- A record holds what it held before, and then what it has been told. -/
theorem Listener.recorder_toldAll {signals : List σ} (h : (l.toldAll signals).role = .recorder seen) :
    ∃ before, l.role = .recorder before ∧ seen = before ++ signals := by
  induction signals generalizing l with
  | nil => exact ⟨seen, h, (List.append_nil seen).symm⟩
  | cons signal rest ih =>
    obtain ⟨between, hBetween, rfl⟩ := ih h
    obtain ⟨before, hBefore, rfl⟩ := Listener.recorder_told hBetween
    exact ⟨before, hBefore, (List.append_cons ..).symm⟩

end Listeners

/-! ## Buses and their logs -/

/-- No step in a step fails, not even in the call of a listener. -/
def Step.NeverFails : Step τ σ → Prop
  | subscribe _ _ none => True
  | subscribe _ _ (some inside) => inside.NeverFails
  | record _ _ => True
  | emit _ => True
  | both first second => first.NeverFails ∧ second.NeverFails
  | fail _ => False

/-- What the log of a bus tells is what the bus is: the listeners are those that have joined, each after
what it has been told, the calls are those that the log tells of, records were empty when they joined,
and what listeners have still to do does not fail. -/
structure IsKnown (b : EventBus τ σ) : Prop where
  calm : ∀ l ∈ b.listeners, ∀ step, l.inside = some step → step.NeverFails
  listeners : ∀ i, b.listeners[i]? = (joined b.log)[i]?.map (Listener.toldAll · (heard i b.log))
  called : ∀ e i signal, .told e i signal ∈ b.log → i < b.listeners.length
  fresh : ∀ l ∈ joined b.log, ∀ seen, l.role = .recorder seen → seen = []
  calls : b.calls = callsIn b.log

theorem isKnown_quiet : IsKnown (quiet : EventBus τ σ) where
  calm := fun _ hl => nomatch hl
  listeners := fun _ => rfl
  called := fun _ _ _ hTold => nomatch hTold
  fresh := fun _ hl => nomatch hl
  calls := rfl

namespace IsKnown

variable {b : EventBus τ σ} {e i : Nat} {signal : σ} {l : Listener τ σ} {notice : Notice τ σ}

theorem length_joined (h : IsKnown b) : (joined b.log).length = b.listeners.length := by
  refine Nat.le_antisymm (Nat.le_of_not_lt fun hLess => ?_) (Nat.le_of_not_lt fun hLess => ?_)
  · have hNone := h.listeners b.listeners.length
    rw [List.getElem?_eq_none (Nat.le_refl _), List.getElem?_eq_getElem hLess] at hNone
    cases hNone
  · have hNone := h.listeners (joined b.log).length
    rw [List.getElem?_eq_none (Nat.le_refl (joined b.log).length), List.getElem?_eq_getElem hLess] at hNone
    cases hNone

theorem called_joined (h : IsKnown b) :
    ∀ e i signal, .told e i signal ∈ b.log → i < (joined b.log).length := by
  rw [h.length_joined]
  exact h.called

theorem exists_joined (h : IsKnown b) (hi : i < b.listeners.length) :
    ∃ l, (joined b.log)[i]? = some l ∧ b.listeners[i] = l.toldAll (heard i b.log) := by
  have hListener := h.listeners i
  rw [List.getElem?_eq_getElem hi] at hListener
  obtain ⟨l, hl, hSame⟩ := Option.map_eq_some_iff.mp hListener.symm
  exact ⟨l, hl, hSame.symm⟩

/-- What a listener has still to do can be told from the log. -/
theorem waiting_eq (h : IsKnown b) (hi : i < b.listeners.length) :
    waiting i b.log = b.listeners[i].inside := by
  obtain ⟨l, hl, hSame⟩ := h.exists_joined hi
  rw [hSame, Listener.inside_toldAll, waiting, hl]
  rfl

/-- A record holds what it has been told. -/
theorem eq_heard (h : IsKnown b) {seen : List σ} (hl : b.listeners[i]? = some l)
    (hRole : l.role = .recorder seen) : seen = heard i b.log := by
  rw [h.listeners i] at hl
  obtain ⟨k, hk, rfl⟩ := Option.map_eq_some_iff.mp hl
  obtain ⟨before, hBefore, rfl⟩ := Listener.recorder_toldAll hRole
  rw [h.fresh k (List.mem_of_getElem? hk) before hBefore, List.nil_append]

/-- A listener joins. -/
theorem register (h : IsKnown b) (hCalm : ∀ step, l.inside = some step → step.NeverFails)
    (hFresh : ∀ seen, l.role = .recorder seen → seen = []) : IsKnown (b.register l) where
  calm := by
    intro k hk
    rcases List.mem_append.mp hk with hk | hk
    · exact h.calm k hk
    · rw [List.mem_singleton.mp hk]
      exact hCalm
  listeners := by
    intro i
    have hNone : heard b.listeners.length b.log = [] :=
      heard_eq_nil fun e signal hTold => Nat.lt_irrefl _ (h.called e _ signal hTold)
    rw [EventBus.register, joined_append, heard_concat (by simp), List.getElem?_append,
      List.getElem?_append, h.length_joined, h.listeners i]
    split
    · rfl
    · rename_i hi
      cases hNew : i - b.listeners.length with
      | zero =>
        obtain rfl : i = b.listeners.length := by omega
        rw [hNone]
        rfl
      | succ _ => rfl
  called := by
    intro e i signal hTold
    have hOld := h.called e i signal (by simpa [EventBus.register] using hTold)
    rw [EventBus.register, List.length_append]
    exact Nat.lt_add_right 1 hOld
  fresh := by
    intro k hk
    rw [EventBus.register, joined_append] at hk
    rcases List.mem_append.mp hk with hk | hk
    · exact h.fresh k hk
    · rw [List.mem_singleton.mp hk]
      exact hFresh
  calls := by
    rw [EventBus.register, callsIn_append h.called_joined, h.calls]
    exact (List.append_nil _).symm

/-- A listener is told something. -/
theorem tell (h : IsKnown b) (hi : i < b.listeners.length) :
    IsKnown (b.tell e i b.listeners[i] signal) where
  calm := by
    intro k hk
    rcases List.mem_or_eq_of_mem_set hk with hk | rfl
    · exact h.calm k hk
    · intro step hInside
      rw [Listener.inside_told] at hInside
      cases hInside
  listeners := by
    intro j
    obtain ⟨l, hl, hSame⟩ := h.exists_joined hi
    rw [EventBus.tell, List.getElem?_set, joined_concat (by simp), heard_append]
    split
    · rename_i hThis
      subst hThis
      rw [hl, Option.map_some, hSame]
      simp [heard, Listener.toldAll_concat]
    · rename_i hOther
      rw [h.listeners j]
      simp [heard, hOther]
  called := by
    intro e' j signal' hTold
    rw [length_tell]
    rcases List.mem_append.mp hTold with hOld | hNew
    · exact h.called e' j signal' hOld
    · cases List.mem_singleton.mp hNew
      exact hi
  fresh := by
    rw [EventBus.tell, joined_concat (by simp)]
    exact h.fresh
  calls := by
    obtain ⟨l, hl, hSame⟩ := h.exists_joined hi
    have hCall : Notice.call? (joined b.log) (.told e i signal) = l.call? signal := by
      rw [Notice.call?, hl]
      rfl
    rw [EventBus.tell, callsIn_append h.called_joined, h.calls, hSame, Listener.call?_toldAll,
      joined_concat (by simp)]
    cases hNone : l.call? signal <;> simp [hCall, hNone]

/-- An emission begins, or ends. -/
theorem note (h : IsKnown b) (hJoined : ∀ l, notice ≠ .joined l)
    (hTold : ∀ e i signal, notice ≠ .told e i signal) : IsKnown (b.note notice) where
  calm := h.calm
  listeners := by
    intro i
    rw [EventBus.note, heard_concat hTold, joined_concat hJoined]
    exact h.listeners i
  called := by
    intro e i signal hMem
    rcases List.mem_append.mp hMem with hOld | hNew
    · exact h.called e i signal hOld
    · exact absurd (List.mem_singleton.mp hNew).symm (hTold e i signal)
  fresh := by
    rw [EventBus.note, joined_concat hJoined]
    exact h.fresh
  calls := by
    rw [EventBus.note, callsIn_append h.called_joined, h.calls]
    cases notice with
    | told e i signal => exact absurd rfl (hTold e i signal)
    | _ => exact (List.append_nil _).symm

end IsKnown

/-! ## Steps -/

variable [Topics τ σ]

/-- A step ends without a failure on a bus that is known again, and has left what it should. -/
def RunsKnown (step : Step τ σ) (b : EventBus τ σ) : Prop :=
  IsKnown b → step.NeverFails →
    (run step b).1.failure = none ∧ IsKnown (run step b).1.bus ∧
      ∃ new, (run step b).1.bus.log = b.log ++ new ∧ Leaves b.log step new

/-- Telling a signal from a listener on ends without a failure, and has left what it should. -/
def TellsKnown (e : Nat) (signal : σ) (i : Nat) (b : EventBus τ σ) : Prop :=
  IsKnown b →
    (tellFrom e signal i b).1.failure = none ∧ IsKnown (tellFrom e signal i b).1.bus ∧
      ∃ new, (tellFrom e signal i b).1.bus.log = b.log ++ new ∧ Tells e signal b.log new

section Cases

variable {b : EventBus τ σ} {first second step : Step τ σ} {e i : Nat} {signal : σ}

theorem runsKnown_subscribe (topic : τ) (name : String) (inside : Option (Step τ σ)) :
    RunsKnown (.subscribe topic name inside) b := by
  intro h hCalm
  rw [run_subscribe]
  refine ⟨rfl, h.register (fun step hInside => ?_) fun _ hNone => (nomatch hNone), _, rfl, .subscribe⟩
  obtain rfl : inside = some step := hInside
  exact hCalm

theorem runsKnown_record (topic : τ) (name : String) : RunsKnown (.record topic name) b := by
  intro h _
  rw [run_record]
  refine ⟨rfl, h.register (fun _ hNone => (nomatch hNone)) fun seen hRole => ?_, _, rfl, .record⟩
  exact (Role.recorder.inj hRole).symm

theorem runsKnown_both (hFirst : RunsKnown first b)
    (hSecond : RunsKnown second (run first b).1.bus) : RunsKnown (.both first second) b := by
  intro h hCalm
  obtain ⟨hOk, hKnown, new, hLog, hLeaves⟩ := hFirst h hCalm.1
  obtain ⟨hOkNext, hKnownNext, more, hLogNext, hLeavesNext⟩ := hSecond hKnown hCalm.2
  rw [run_both, Outcome.andThen_of_none hOk]
  refine ⟨hOkNext, hKnownNext, new ++ more, ?_, .both hLeaves (hLog ▸ hLeavesNext)⟩
  rw [hLogNext, hLog, List.append_assoc]

theorem runsKnown_emit (hTells : TellsKnown b.log.length signal 0 (b.note (.began signal))) :
    RunsKnown (.emit signal) b := by
  intro h _
  obtain ⟨hOk, hKnown, new, hLog, hCalls⟩ := hTells (h.note (by simp) (by simp))
  rw [run_emit, Outcome.andThen_of_none hOk]
  refine ⟨rfl, hKnown.note (by simp) (by simp), _, ?_, .emit hCalls⟩
  rw [note, hLog, note]
  simp

theorem tellsKnown_last (h : b.listeners.length ≤ i) : TellsKnown e signal i b := by
  intro hKnown
  rw [tellFrom_end h]
  exact ⟨rfl, hKnown, [], (List.append_nil _).symm, .nobody⟩

theorem tellsKnown_other (h : i < b.listeners.length)
    (hOther : Topics.admits b.listeners[i].topic signal = false)
    (hNext : TellsKnown e signal (i + 1) b) : TellsKnown e signal i b := by
  intro hKnown
  rw [tellFrom_other h hOther]
  exact hNext hKnown

theorem tellsKnown_silent (hi : i < b.listeners.length)
    (hTopic : Topics.admits b.listeners[i].topic signal = true)
    (hSilent : b.listeners[i].inside = none)
    (hNext : TellsKnown e signal (i + 1) (b.tell e i b.listeners[i] signal)) :
    TellsKnown e signal i b := by
  intro h
  obtain ⟨hOk, hKnown, more, hLog, hRest⟩ := hNext (h.tell hi)
  rw [tellFrom_silent hi hTopic hSilent]
  refine ⟨hOk, hKnown, _, ?_, .silent ((h.waiting_eq hi).trans hSilent) hRest⟩
  rw [hLog]
  exact (List.append_cons ..).symm

theorem tellsKnown_inside (hi : i < b.listeners.length)
    (hTopic : Topics.admits b.listeners[i].topic signal = true)
    (hInside : b.listeners[i].inside = some step)
    (hRun : RunsKnown step (b.tell e i b.listeners[i] signal))
    (hNext : TellsKnown e signal (i + 1) (run step (b.tell e i b.listeners[i] signal)).1.bus) :
    TellsKnown e signal i b := by
  intro h
  obtain ⟨hOkRun, hKnownRun, new, hLogRun, hLeaves⟩ :=
    hRun (h.tell hi) (h.calm _ (List.getElem_mem hi) step hInside)
  have hLogInside : (run step (b.tell e i b.listeners[i] signal)).1.bus.log =
      b.log ++ .told e i signal :: new := by
    rw [hLogRun, tell, List.append_assoc]
    rfl
  obtain ⟨hOk, hKnown, more, hLog, hRest⟩ := hNext hKnownRun
  rw [tellFrom_inside hi hTopic hInside, Outcome.andThen_of_none hOkRun]
  refine ⟨hOk, hKnown, _, ?_,
    .inside ((h.waiting_eq hi).trans hInside) hLeaves (hLogInside ▸ hRest)⟩
  rw [hLog, hLogInside, List.append_assoc]

end Cases

theorem runs_leave :
    (∀ (step : Step τ σ) b, RunsKnown step b) ∧
      ∀ e (signal : σ) i (b : EventBus τ σ), TellsKnown e signal i b :=
  run_induction (fun topic name inside _ => runsKnown_subscribe topic name inside)
    (fun topic name _ => runsKnown_record topic name) (fun _ _ _ hCalm => hCalm.elim)
    (fun _ _ _ => runsKnown_both) (fun _ _ => runsKnown_emit) (fun _ _ _ _ => tellsKnown_last)
    (fun _ _ _ _ => tellsKnown_other) (fun _ _ _ _ => tellsKnown_silent)
    (fun _ _ _ _ _ => tellsKnown_inside)

/-! ## Scripts -/

/-- Runs steps one after the other, as long as none fails. -/
def runAll : List (Step τ σ) → EventBus τ σ → Outcome τ σ
  | [], b => ⟨b, none⟩
  | step :: rest, b => (run step b).1.andThen (runAll rest)

/-- A script leaves what its steps leave, in their order. -/
theorem runAll_leaves {script : List (Step τ σ)} {b : EventBus τ σ} (h : IsKnown b)
    (hCalm : ∀ step ∈ script, step.NeverFails) :
    (runAll script b).failure = none ∧ IsKnown (runAll script b).bus ∧
      ∃ new, (runAll script b).bus.log = b.log ++ new ∧ LeavesAll b.log script new := by
  induction script generalizing b with
  | nil => exact ⟨rfl, h, [], (List.append_nil _).symm, rfl⟩
  | cons step rest ih =>
    obtain ⟨hOk, hKnown, left, hLog, hLeaves⟩ := runs_leave.1 step b h (hCalm step List.mem_cons_self)
    obtain ⟨hOkRest, hKnownRest, more, hLogRest, hLeavesRest⟩ :=
      ih hKnown fun other hOther => hCalm other (List.mem_cons_of_mem _ hOther)
    rw [runAll, Outcome.andThen_of_none hOk]
    refine ⟨hOkRest, hKnownRest, left ++ more, ?_, left, more, rfl, hLeaves, hLog ▸ hLeavesRest⟩
    rw [hLogRest, hLog, List.append_assoc]

end StyleSieve.EventBus
