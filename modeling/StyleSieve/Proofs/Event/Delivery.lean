import StyleSieve.Proofs.Event.Trail

/-!
# Delivery

Whom an emission tells can be read from the log of the bus: the calls that bear its number. While it
goes on, listeners may join, and other emissions may begin and end inside of it.

* `IsTidy`: what holds of a bus at every moment, while certain emissions go on. It is kept by each
  notice that the log gets: `IsTidy.register`, `IsTidy.tell`, `IsTidy.begin`, `IsTidy.finish`.
* `runs_tidily`: so it is kept by every step, and by telling a signal to the listeners, whose number may
  grow meanwhile.
* `delivery_exact`: when a script has run, every emission has told just those whom it should.
-/

namespace StyleSieve.EventBus

variable {τ σ : Type}

/-! ## Reading the log -/

section Log

/-- The listeners that an emission has told, in the order of the calls. -/
def toldBy (emission : Nat) (log : List (Notice τ σ)) : List Nat :=
  log.filterMap fun
    | .told e i _ => if e = emission then some i else none
    | _ => none

variable {log new : List (Notice τ σ)} {emission i p : Nat} {signal : σ} {notice other : Notice τ σ}

theorem toldBy_append (emission : Nat) (log new : List (Notice τ σ)) :
    toldBy emission (log ++ new) = toldBy emission log ++ toldBy emission new :=
  List.filterMap_append

theorem toldBy_eq_nil (h : ∀ i signal, .told emission i signal ∉ log) : toldBy emission log = [] := by
  rw [toldBy, List.filterMap_eq_nil_iff]
  intro notice hNotice
  cases notice with
  | told e i signal =>
    refine if_neg fun hSame => ?_
    exact h i signal (hSame ▸ hNotice)
  | _ => rfl

theorem getElem?_append_of_some (h : log[p]? = some notice) (new : List (Notice τ σ)) :
    (log ++ new)[p]? = some notice := by
  obtain ⟨hp, -⟩ := List.getElem?_eq_some_iff.mp h
  rw [List.getElem?_append_left hp, h]

/-- What stands in a log that has got one more notice stood there before, or is that notice. -/
theorem getElem?_concat (h : (log ++ [notice])[p]? = some other) :
    log[p]? = some other ∨ (p = log.length ∧ notice = other) := by
  rw [List.getElem?_append] at h
  split at h
  · exact Or.inl h
  · obtain ⟨hp, hNotice⟩ := List.getElem?_eq_some_iff.mp h
    rw [List.length_singleton] at hp
    exact Or.inr ⟨by omega, by simpa using hNotice⟩

end Log

/-! ## Listeners who want to be told -/

section Wanted

variable [Topics τ σ]

/-- The first so many listeners, as far as they want to be told a signal. -/
def wantedBelow (n : Nat) (ls : List (Listener τ σ)) (signal : σ) : List Nat :=
  (List.range n).filter fun i => ls[i]?.any fun l => Topics.admits l.topic signal

/-- The listeners that want to be told a signal. -/
def wanted (ls : List (Listener τ σ)) (signal : σ) : List Nat := wantedBelow ls.length ls signal

variable {n : Nat} {ls : List (Listener τ σ)} {l : Listener τ σ} {signal : σ}

theorem wantedBelow_succ (h : ls[n]? = some l) :
    wantedBelow (n + 1) ls signal =
      wantedBelow n ls signal ++ if Topics.admits l.topic signal then [n] else [] := by
  rw [wantedBelow, List.range_succ, List.filter_append, List.filter_cons, h, List.filter_nil]
  rfl

/-- Listeners that join later do not change who of the first wants to be told. -/
theorem wantedBelow_append (h : n ≤ ls.length) (more : List (Listener τ σ)) :
    wantedBelow n (ls ++ more) signal = wantedBelow n ls signal := by
  apply List.filter_congr
  intro i hi
  have hi : i < ls.length := Nat.lt_of_lt_of_le (List.mem_range.mp hi) h
  rw [List.getElem?_append_left hi]

end Wanted

/-! ## Emissions -/

section Emissions

variable [Topics τ σ] {log new : List (Notice τ σ)} {emission : Nat} {signal : σ}

/-- An emission has come to an end, and between its beginning and its end it has told each listener
that had joined by then and wanted to be told, once, in the order in which they had joined; and nobody
else. -/
def IsDelivered (log : List (Notice τ σ)) (emission : Nat) (signal : σ) : Prop :=
  ∃ before during after, log = before ++ .began signal :: during ++ .ended emission :: after ∧
    before.length = emission ∧ toldBy emission before = [] ∧
    toldBy emission during = wanted (joined (before ++ during)) signal ∧ toldBy emission after = []

theorem IsDelivered.append (h : IsDelivered log emission signal) (hNew : toldBy emission new = []) :
    IsDelivered (log ++ new) emission signal := by
  obtain ⟨before, during, after, rfl, hLength, hBefore, hDuring, hAfter⟩ := h
  refine ⟨before, during, after ++ new, ?_, hLength, hBefore, hDuring, ?_⟩
  · rw [List.append_assoc, List.cons_append]
  · rw [toldBy_append, hAfter, hNew]
    rfl

end Emissions

/-! ## Buses on their way -/

variable [Topics τ σ]

/-- What holds of a bus while certain emissions go on: all others have been delivered, and every call
belongs to an emission that had begun. -/
structure IsTidy (going : Nat → Prop) (b : EventBus τ σ) : Prop where
  told : ∀ (p e i : Nat) (signal : σ), b.log[p]? = some (.told e i signal) →
    e < p ∧ b.log[e]? = some (.began signal)
  begun : ∀ e, going e → e < b.log.length
  delivered : ∀ (e : Nat) (signal : σ), b.log[e]? = some (.began signal) → ¬ going e →
    IsDelivered b.log e signal

namespace IsTidy

variable {b : EventBus τ σ} {going : Nat → Prop} {e i : Nat} {signal : σ} {l : Listener τ σ}
  {notice : Notice τ σ}

theorem toldBy_length (h : IsTidy going b) : toldBy b.log.length b.log = [] := by
  refine toldBy_eq_nil fun i signal hTold => ?_
  obtain ⟨p, hp, hNotice⟩ := List.getElem_of_mem hTold
  obtain ⟨hLess, -⟩ := h.told p _ _ _ (List.getElem?_eq_some_iff.mpr ⟨hp, hNotice⟩)
  omega

/-- Calls belong to emissions also when something has happened that is no call. -/
theorem told_concat (h : IsTidy going b) (hNotice : ∀ e i signal, notice ≠ .told e i signal) :
    ∀ (p e i : Nat) (signal : σ), (b.log ++ [notice])[p]? = some (.told e i signal) →
      e < p ∧ (b.log ++ [notice])[e]? = some (.began signal) := by
  intro p e i signal hTold
  rcases getElem?_concat hTold with hOld | ⟨-, hNew⟩
  · obtain ⟨hLess, hBegan⟩ := h.told p e i signal hOld
    exact ⟨hLess, getElem?_append_of_some hBegan _⟩
  · exact absurd hNew (hNotice e i signal)

theorem delivered_concat (h : IsTidy going b) (hOver : ¬ going e)
    (hNotice : ∀ i signal, notice ≠ .told e i signal) (hBegan : b.log[e]? = some (.began signal)) :
    IsDelivered (b.log ++ [notice]) e signal := by
  refine (h.delivered e signal hBegan hOver).append (toldBy_eq_nil fun i signal' hTold => ?_)
  exact hNotice i signal' (List.mem_singleton.mp hTold).symm

/-- A listener joins. -/
theorem register (h : IsTidy going b) (l : Listener τ σ) : IsTidy going (b.register l) where
  told := h.told_concat (by simp)
  begun := by
    intro e hGoing
    have hLess := h.begun e hGoing
    rw [EventBus.register, List.length_append]
    omega
  delivered := by
    intro e signal hBegan hOver
    rcases getElem?_concat hBegan with hOld | ⟨-, hNew⟩
    · exact h.delivered_concat hOver (by simp) hOld
    · cases hNew

/-- An emission that goes on tells a listener. -/
theorem tell (h : IsTidy going b) (hGoing : going e) (hBegan : b.log[e]? = some (.began signal)) :
    IsTidy going (b.tell e i l signal) where
  told := by
    intro p e' j signal' hTold
    rcases getElem?_concat hTold with hOld | ⟨rfl, hNew⟩
    · obtain ⟨hLess, hOldBegan⟩ := h.told p e' j signal' hOld
      exact ⟨hLess, getElem?_append_of_some hOldBegan _⟩
    · cases hNew
      exact ⟨h.begun e hGoing, getElem?_append_of_some hBegan _⟩
  begun := by
    intro e' hGoing'
    have hLess := h.begun e' hGoing'
    rw [EventBus.tell, List.length_append]
    omega
  delivered := by
    intro e' signal' hBegan' hOver
    rcases getElem?_concat hBegan' with hOld | ⟨-, hNew⟩
    · refine h.delivered_concat hOver (fun j signal'' hNotice => ?_) hOld
      cases hNotice
      exact hOver hGoing
    · cases hNew

/-- An emission begins. -/
theorem begin (h : IsTidy going b) (signal : σ) :
    IsTidy (fun e => going e ∨ e = b.log.length) (b.note (.began signal)) where
  told := h.told_concat (by simp)
  begun := by
    intro e hGoing
    rw [EventBus.note, List.length_append, List.length_singleton]
    rcases hGoing with hGoing | rfl
    · exact Nat.lt_succ_of_lt (h.begun e hGoing)
    · exact Nat.lt_succ_self _
  delivered := by
    intro e signal' hBegan hOver
    obtain ⟨hOver, hNotNew⟩ := not_or.mp hOver
    rcases getElem?_concat hBegan with hOld | ⟨hNew, -⟩
    · exact h.delivered_concat hOver (by simp) hOld
    · exact absurd hNew hNotNew

/-- What an emission that goes on has told is all that it has told since it began. -/
theorem exists_during (h : IsTidy going b) (hBegan : b.log[e]? = some (.began signal)) :
    ∃ before during, b.log = before ++ .began signal :: during ∧ before.length = e ∧
      toldBy e before = [] ∧ toldBy e during = toldBy e b.log := by
  obtain ⟨he, hNotice⟩ := List.getElem?_eq_some_iff.mp hBegan
  have hSplit : b.log = b.log.take e ++ .began signal :: b.log.drop (e + 1) := by
    rw [← hNotice, List.getElem_cons_drop, List.take_append_drop]
  have hBefore : toldBy e (b.log.take e) = [] := by
    refine toldBy_eq_nil fun i signal' hTold => ?_
    obtain ⟨p, hp, hCall⟩ := List.getElem_of_mem hTold
    rw [List.length_take] at hp
    rw [List.getElem_take] at hCall
    obtain ⟨hLess, -⟩ := h.told p e i signal' (List.getElem?_eq_some_iff.mpr ⟨by omega, hCall⟩)
    omega
  refine ⟨b.log.take e, b.log.drop (e + 1), hSplit, List.length_take_of_le (Nat.le_of_lt he), hBefore,
    ?_⟩
  have hAll := congrArg (toldBy e) hSplit
  rw [toldBy_append, hBefore] at hAll
  exact hAll.symm

/-- An emission ends that has told everybody who wanted to be told and has joined by now. -/
theorem finish (h : IsTidy (fun e' => going e' ∨ e' = e) b) (hOver : ¬ going e)
    (hBegan : b.log[e]? = some (.began signal))
    (hAll : toldBy e b.log = wanted (joined b.log) signal) : IsTidy going (b.note (.ended e)) where
  told := h.told_concat (by simp)
  begun := by
    intro e' hGoing
    have hLess := h.begun e' (Or.inl hGoing)
    rw [EventBus.note, List.length_append]
    omega
  delivered := by
    intro e' signal' hBegan' hOver'
    rcases getElem?_concat hBegan' with hOld | ⟨-, hNew⟩
    · by_cases hSame : e' = e
      · subst hSame
        cases hOld.symm.trans hBegan
        obtain ⟨before, during, hSplit, hLength, hBefore, hDuring⟩ := h.exists_during hBegan
        have hJoined : joined b.log = joined (before ++ during) := by
          rw [hSplit, joined_append, joined_append]
          rfl
        refine ⟨before, during, [], ?_, hLength, hBefore, ?_, rfl⟩
        · rw [EventBus.note, hSplit]
        · rw [hDuring, hAll, hJoined]
      · exact h.delivered_concat (not_or.mpr ⟨hOver', hSame⟩) (by simp) hOld
    · cases hNew

end IsTidy

/-! ## Steps -/

/-- What happens from one moment to another, while the emissions that go on tell nobody themselves. -/
def Keeps (going : Nat → Prop) (b after : EventBus τ σ) : Prop :=
  ∃ new, after.log = b.log ++ new ∧ ∀ e, going e → toldBy e new = []

section Keeps

variable {b next after : EventBus τ σ} {going less : Nat → Prop} {e : Nat} {notice : Notice τ σ}

omit [Topics τ σ]

theorem Keeps.trans (h : Keeps going b next) (hNext : Keeps going next after) :
    Keeps going b after := by
  obtain ⟨new, hLog, hNone⟩ := h
  obtain ⟨newer, hLogNext, hNoneNext⟩ := hNext
  refine ⟨new ++ newer, by rw [hLogNext, hLog, List.append_assoc], fun e hGoing => ?_⟩
  rw [toldBy_append, hNone e hGoing, hNoneNext e hGoing]
  rfl

theorem Keeps.mono (h : Keeps going b after) (hLess : ∀ e, less e → going e) : Keeps less b after := by
  obtain ⟨new, hLog, hNone⟩ := h
  exact ⟨new, hLog, fun e hGoing => hNone e (hLess e hGoing)⟩

theorem Keeps.refl (going : Nat → Prop) (b : EventBus τ σ) : Keeps going b b :=
  ⟨[], (List.append_nil _).symm, fun _ _ => rfl⟩

theorem keeps_concat (hLog : after.log = b.log ++ [notice])
    (hNotice : ∀ e, going e → toldBy e [notice] = []) : Keeps going b after :=
  ⟨[notice], hLog, hNotice⟩

theorem Keeps.toldBy (h : Keeps going b after) (hGoing : going e) :
    toldBy e after.log = toldBy e b.log := by
  obtain ⟨new, hLog, hNone⟩ := h
  rw [hLog, toldBy_append, hNone e hGoing, List.append_nil]

theorem Keeps.began {signal : σ} (h : Keeps going b after) (hBegan : b.log[e]? = some (.began signal)) :
    after.log[e]? = some (.began signal) := by
  obtain ⟨new, hLog, -⟩ := h
  rw [hLog]
  exact getElem?_append_of_some hBegan new

theorem Keeps.exists_joined (h : Keeps going b after) :
    ∃ more, joined after.log = joined b.log ++ more := by
  obtain ⟨new, hLog, -⟩ := h
  exact ⟨joined new, by rw [hLog, joined_append]⟩

end Keeps

/-- A step leaves a bus tidy, whatever emissions it runs inside of. -/
def RunsTidily (step : Step τ σ) (b : EventBus τ σ) : Prop :=
  ∀ going : Nat → Prop, IsKnown b → IsTidy going b → step.NeverFails →
    IsTidy going (run step b).1.bus ∧ Keeps going b (run step b).1.bus

/-- Telling a signal from a listener on leaves a bus tidy, and all who want to be told have been told
then if those before the listener have been told already. -/
def TellsTidily (e : Nat) (signal : σ) (i : Nat) (b : EventBus τ σ) : Prop :=
  ∀ going : Nat → Prop, IsKnown b → IsTidy going b → going e → b.log[e]? = some (.began signal) →
    i ≤ b.listeners.length → toldBy e b.log = wantedBelow i (joined b.log) signal →
    IsTidy going (tellFrom e signal i b).1.bus ∧
      Keeps (fun e' => going e' ∧ e' ≠ e) b (tellFrom e signal i b).1.bus ∧
      toldBy e (tellFrom e signal i b).1.bus.log =
        wanted (joined (tellFrom e signal i b).1.bus.log) signal

section Cases

variable {b : EventBus τ σ} {first second step : Step τ σ} {e i : Nat} {signal : σ} {l : Listener τ σ}

theorem runsTidily_subscribe (topic : τ) (name : String) (inside : Option (Step τ σ)) :
    RunsTidily (.subscribe topic name inside) b := by
  intro going _ h _
  rw [run_subscribe]
  exact ⟨h.register _, keeps_concat rfl fun _ _ => rfl⟩

theorem runsTidily_record (topic : τ) (name : String) : RunsTidily (.record topic name) b := by
  intro going _ h _
  rw [run_record]
  exact ⟨h.register _, keeps_concat rfl fun _ _ => rfl⟩

theorem runsTidily_both (hFirst : RunsTidily first b) (hSecond : RunsTidily second (run first b).1.bus) :
    RunsTidily (.both first second) b := by
  intro going hKnown h hCalm
  obtain ⟨hOk, hKnownSecond, -⟩ := runs_leave.1 first b hKnown hCalm.1
  obtain ⟨hTidy, hKeeps⟩ := hFirst going hKnown h hCalm.1
  obtain ⟨hTidySecond, hKeepsSecond⟩ := hSecond going hKnownSecond hTidy hCalm.2
  rw [run_both, Outcome.andThen_of_none hOk]
  exact ⟨hTidySecond, hKeeps.trans hKeepsSecond⟩

theorem runsTidily_emit (hTell : TellsTidily b.log.length signal 0 (b.note (.began signal))) :
    RunsTidily (.emit signal) b := by
  intro going hKnown h _
  have hNew : ¬ going b.log.length := fun hGoing => Nat.lt_irrefl _ (h.begun _ hGoing)
  have hNone : toldBy b.log.length (b.note (.began signal)).log = [] := by
    rw [note, toldBy_append, h.toldBy_length]
    rfl
  have hKnownBegan : IsKnown (b.note (.began signal)) := hKnown.note (by simp) (by simp)
  obtain ⟨hOk, -⟩ := runs_leave.2 b.log.length signal 0 _ hKnownBegan
  obtain ⟨hTidy, hKeeps, hAll⟩ := hTell _ hKnownBegan (h.begin signal) (Or.inr rfl)
    List.getElem?_concat_length (Nat.zero_le _) hNone
  have hBegan := hKeeps.began (e := b.log.length) List.getElem?_concat_length
  rw [run_emit, Outcome.andThen_of_none hOk]
  refine ⟨hTidy.finish hNew hBegan hAll, ?_⟩
  have hStart : Keeps going b (b.note (.began signal)) := keeps_concat rfl fun _ _ => rfl
  refine (hStart.trans (hKeeps.mono fun e hGoing => ?_)).trans (keeps_concat rfl fun _ _ => rfl)
  exact ⟨Or.inl hGoing, fun hSame => hNew (hSame ▸ hGoing)⟩

theorem tellsTidily_last (hi : b.listeners.length ≤ i) : TellsTidily e signal i b := by
  intro going hKnown h hGoing hBegan hBound hTold
  rw [tellFrom_end hi]
  refine ⟨h, Keeps.refl _ b, ?_⟩
  rw [hTold, wanted, hKnown.length_joined, Nat.le_antisymm hBound hi]

omit [Topics τ σ] in
/-- A listener wants to be told what it wanted when it joined. -/
theorem IsKnown.exists_topic (h : IsKnown b) (hi : i < b.listeners.length) :
    ∃ l, (joined b.log)[i]? = some l ∧ l.topic = b.listeners[i].topic := by
  obtain ⟨l, hl, hSame⟩ := h.exists_joined hi
  exact ⟨l, hl, by rw [hSame, Listener.topic_toldAll]⟩

theorem tellsTidily_other (hi : i < b.listeners.length)
    (hOther : Topics.admits b.listeners[i].topic signal = false)
    (hNext : TellsTidily e signal (i + 1) b) : TellsTidily e signal i b := by
  intro going hKnown h hGoing hBegan hBound hTold
  obtain ⟨l, hl, hTopic⟩ := hKnown.exists_topic hi
  rw [tellFrom_other hi hOther]
  refine hNext going hKnown h hGoing hBegan hi ?_
  rw [hTold, wantedBelow_succ hl, hTopic, hOther]
  exact (List.append_nil _).symm

/-- With the call of a listener the emission has told one more of those who want to be told. -/
theorem IsKnown.toldBy_tell (h : IsKnown b) (hi : i < b.listeners.length)
    (hTopic : Topics.admits b.listeners[i].topic signal = true)
    (hTold : toldBy e b.log = wantedBelow i (joined b.log) signal) :
    toldBy e (b.tell e i b.listeners[i] signal).log =
      wantedBelow (i + 1) (joined (b.tell e i b.listeners[i] signal).log) signal := by
  obtain ⟨l, hl, hSame⟩ := h.exists_topic hi
  rw [EventBus.tell, joined_concat (by simp), wantedBelow_succ hl, hSame, hTopic, if_pos rfl, ← hTold,
    toldBy_append]
  simp [toldBy]

omit [Topics τ σ] in
theorem keeps_tell {going : Nat → Prop} (b : EventBus τ σ) (l : Listener τ σ) :
    Keeps (fun e' => going e' ∧ e' ≠ e) b (b.tell e i l signal) := by
  refine keeps_concat rfl fun e' hOther => ?_
  simp [toldBy, Ne.symm hOther.2]

theorem tellsTidily_silent (hi : i < b.listeners.length)
    (hTopic : Topics.admits b.listeners[i].topic signal = true)
    (hSilent : b.listeners[i].inside = none)
    (hNext : TellsTidily e signal (i + 1) (b.tell e i b.listeners[i] signal)) :
    TellsTidily e signal i b := by
  intro going hKnown h hGoing hBegan hBound hTold
  rw [tellFrom_silent hi hTopic hSilent]
  obtain ⟨hTidy, hKeeps, hAll⟩ :=
    hNext going (hKnown.tell hi) (h.tell hGoing hBegan) hGoing (getElem?_append_of_some hBegan _)
      (by rw [length_tell]; exact hi) (hKnown.toldBy_tell hi hTopic hTold)
  exact ⟨hTidy, (keeps_tell b _).trans hKeeps, hAll⟩

/-- The step that a listener runs may register others and emit something else, but it is over before
the next listener is told; those who were to be told before are the same. -/
theorem tellsTidily_inside (hi : i < b.listeners.length)
    (hTopic : Topics.admits b.listeners[i].topic signal = true)
    (hInside : b.listeners[i].inside = some step)
    (hRun : RunsTidily step (b.tell e i b.listeners[i] signal))
    (hNext : TellsTidily e signal (i + 1) (run step (b.tell e i b.listeners[i] signal)).1.bus) :
    TellsTidily e signal i b := by
  intro going hKnown h hGoing hBegan hBound hTold
  have hCalm := hKnown.calm _ (List.getElem_mem hi) step hInside
  have hCall : IsKnown (b.tell e i b.listeners[i] signal) := hKnown.tell hi
  obtain ⟨hOkRun, hKnownRun, -⟩ := runs_leave.1 step _ hCall hCalm
  obtain ⟨hTidyRun, hKeepsRun⟩ := hRun going hCall (h.tell hGoing hBegan) hCalm
  obtain ⟨more, hMore⟩ := hKeepsRun.exists_joined
  have hBefore : i + 1 ≤ (joined (b.tell e i b.listeners[i] signal).log).length := by
    rw [hCall.length_joined, length_tell]
    exact hi
  have hBoundRun : i + 1 ≤ (run step (b.tell e i b.listeners[i] signal)).1.bus.listeners.length := by
    rw [← hKnownRun.length_joined, hMore, List.length_append]
    omega
  have hToldRun := hKeepsRun.toldBy hGoing
  rw [hKnown.toldBy_tell hi hTopic hTold, ← wantedBelow_append hBefore more, ← hMore] at hToldRun
  rw [tellFrom_inside hi hTopic hInside, Outcome.andThen_of_none hOkRun]
  obtain ⟨hTidy, hKeeps, hAll⟩ := hNext going hKnownRun hTidyRun hGoing
    (hKeepsRun.began (getElem?_append_of_some hBegan _)) hBoundRun hToldRun
  exact ⟨hTidy, ((keeps_tell b _).trans (hKeepsRun.mono fun _ h => h.1)).trans hKeeps, hAll⟩

end Cases

theorem runs_tidily :
    (∀ (step : Step τ σ) b, RunsTidily step b) ∧
      ∀ e (signal : σ) i (b : EventBus τ σ), TellsTidily e signal i b :=
  run_induction (fun topic name inside _ => runsTidily_subscribe topic name inside)
    (fun topic name _ => runsTidily_record topic name) (fun _ _ _ _ _ hCalm => hCalm.elim)
    (fun _ _ _ => runsTidily_both) (fun _ _ => runsTidily_emit) (fun _ _ _ _ => tellsTidily_last)
    (fun _ _ _ _ => tellsTidily_other) (fun _ _ _ _ => tellsTidily_silent)
    (fun _ _ _ _ _ => tellsTidily_inside)

/-! ## Scripts -/

/-- No emission goes on between the steps of a script. -/
theorem runAll_tidily {script : List (Step τ σ)} {b : EventBus τ σ} (hKnown : IsKnown b)
    (h : IsTidy (fun _ => False) b) (hCalm : ∀ step ∈ script, step.NeverFails) :
    IsTidy (fun _ => False) (runAll script b).bus := by
  induction script generalizing b with
  | nil => exact h
  | cons step rest ih =>
    have hCalmStep := hCalm step List.mem_cons_self
    obtain ⟨hOk, hKnownRest, -⟩ := runs_leave.1 step b hKnown hCalmStep
    obtain ⟨hTidy, -⟩ := runs_tidily.1 step b _ hKnown h hCalmStep
    rw [runAll, Outcome.andThen_of_none hOk]
    exact ih hKnownRest hTidy fun other hOther => hCalm other (List.mem_cons_of_mem _ hOther)

theorem isTidy_quiet : IsTidy (fun _ => False) (quiet : EventBus τ σ) where
  told := fun _ _ _ _ hTold => nomatch hTold
  begun := fun _ hGoing => hGoing.elim
  delivered := fun _ _ hBegan => nomatch hBegan

/-- When a script has run whose listeners may use the bus in their first calls, the log tells of every
use in its order, of those of the script and of those that listeners made in their calls. Every emission
that began, also inside of others, has ended and has told each listener that had joined by then and
wanted to be told, once and in the order of joining, and nobody else. There are no calls but those of
emissions, the calls made are those that the log tells of, listeners are just those that have joined, and
each record holds what it has been told, in the order of the calls. -/
theorem delivery_exact (script : List (Step τ σ)) (hCalm : ∀ step ∈ script, step.NeverFails) :
    let o := runAll script quiet
    o.failure = none ∧
    LeavesAll [] script o.bus.log ∧
    (∀ e signal, o.bus.log[e]? = some (.began signal) → IsDelivered o.bus.log e signal) ∧
    (∀ (p e i : Nat) (signal : σ), o.bus.log[p]? = some (.told e i signal) →
      e < p ∧ o.bus.log[e]? = some (.began signal)) ∧
    o.bus.calls = callsIn o.bus.log ∧
    (∀ i : Nat, o.bus.listeners[i]? =
      (joined o.bus.log)[i]?.map (Listener.toldAll · (heard i o.bus.log))) ∧
    ∀ (i : Nat) (l : Listener τ σ) (seen : List σ), o.bus.listeners[i]? = some l →
      l.role = .recorder seen → seen = heard i o.bus.log := by
  intro o
  obtain ⟨hOk, hKnown, new, hLog, hLeaves⟩ := runAll_leaves isKnown_quiet hCalm
  have hTidy := runAll_tidily isKnown_quiet isTidy_quiet hCalm
  refine ⟨hOk, ?_, fun e signal hBegan => hTidy.delivered e signal hBegan id, hTidy.told, hKnown.calls,
    hKnown.listeners, fun _ _ _ => hKnown.eq_heard⟩
  obtain rfl : o.bus.log = new := hLog
  exact hLeaves

/-- A listener that registers another and emits a number when it is told a text: the number is told to
the record and to the newcomer before the newcomer is told the text. -/
theorem delivery_exact_nested :
    let text : Signal := .value (.str "a")
    let number : Signal := .value (.int 1)
    let first : Listener Topic Signal := ⟨.text, "first",
      .caller (some (.both (.subscribe .anything "late" none) (.emit number)))⟩
    let script : List BusStep :=
      [.record .anything "all",
        .subscribe .text "first" (some (.both (.subscribe .anything "late" none) (.emit number))),
        .emit text]
    let log : List (Notice Topic Signal) :=
      [.joined ⟨.anything, "all", .recorder []⟩, .joined first, .began text, .told 2 0 text,
        .told 2 1 text, .joined ⟨.anything, "late", .caller none⟩,
        .began number, .told 6 0 number, .told 6 2 number, .ended 6, .told 2 2 text, .ended 2]
    (∀ step ∈ script, step.NeverFails) ∧ (runAll script quiet).bus.log = log ∧
      LeavesAll [] script log ∧ IsDelivered log 2 text ∧ IsDelivered log 6 number ∧
      (runAll script quiet).bus.calls = [("first", text), ("late", number), ("late", text)] := by
  intro text number first script log
  have hCalm : ∀ step ∈ script, step.NeverFails := by simp [script, Step.NeverFails]
  have hLog : (runAll script quiet).bus.log = log := by
    simp [script, log, first, text, number, runAll, run_subscribe, run_record, run_both, run_emit,
      Outcome.andThen, tellFrom_silent, tellFrom_other, tellFrom_inside, tellFrom_end, quiet, register,
      note, tell, Topics.admits, Topic.admits, Listener.inside, Listener.told]
  obtain ⟨-, hLeaves, hDelivered, -, hCalls, -⟩ := delivery_exact script hCalm
  rw [hLog] at hLeaves hDelivered hCalls
  exact ⟨hCalm, hLog, hLeaves, hDelivered 2 text rfl, hDelivered 6 number rfl, hCalls⟩

end StyleSieve.EventBus
