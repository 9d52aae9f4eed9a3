import Wapsell.Lib.Run
import Wapsell.Resources.Scheduler

/-!
# The sync scheduler, started and stopped

`start`, `stop` and `_loop` of `sdk/wapsell/resources/scheduler.py` on one
event loop. Tasks, events and pending calls of `stop` are numbered, and a
label says which of them goes on. Between two labels anything else may
happen, more often than at the awaits of the source.

The lifespan of the application calls `start` once and `stop` once, behind
it. What is asked here is less: that no `start` falls inside a pending
`stop`. Then the scheduler is `Orderly`: one loop is live at a time, and it
is the one in `_task`.

An `asyncio.Event` belongs to the loop that was started with it: a
`start` makes a new one, and a task that still reads the old one is not
told anything through the new. That is why the tasks and events are
numbered and a task keeps the number of its event.
-/

namespace Wapsell.Resources

open Lib Py

namespace SyncScheduler

/-- Where a task of `_loop` is, with the `asyncio.Event` it has read in `_stopping`. A pass has a
number, and syncs it is still to attempt. -/
inductive Phase
  | created
  | head (event : Nat)
  | passing (event pass : Nat) (left : List String)
  | sleeping (event : Nat)
  | done (cancelled : Bool)
  deriving DecidableEq, Repr

/-- A task that is not `done()`. -/
def Phase.Live : Phase → Prop
  | .done _ => False
  | _ => True

instance : DecidablePred Phase.Live := fun phase => by
  cases phase <;> unfold Phase.Live <;> infer_instance

/-- The event a task has read. -/
def Phase.Reads : Phase → Nat → Prop
  | .head event, e | .passing event _ _, e | .sleeping event, e => event = e
  | _, _ => False

/-- The pass a task is in the middle of, and what is left of it. -/
def Phase.current : Phase → Option (Nat × List String)
  | .passing _ pass left => some (pass, left)
  | _ => none

/-- A task, and whether it is asked to cancel. Nothing reads that of a task that is done. -/
structure LoopTask where
  phase : Phase := .created
  cancelling : Bool := false
  deriving DecidableEq, Repr

/-- A call of `stop` that awaits a task, and whether its ten seconds are over. -/
structure StopCall where
  task : Nat
  gaveUp : Bool := false
  deriving DecidableEq, Repr

/-- What the passes have done: the syncs each is to attempt, those begun, each with its pass, and
the passes that a cancellation cut short. -/
structure Trace where
  passes : List (List String) := []
  syncs : List (Nat × String) := []
  cut : List Nat := []
  deriving DecidableEq, Repr

/-- The syncs a pass has begun. -/
def Trace.syncsOf (trace : Trace) (pass : Nat) : List String :=
  (trace.syncs.filter fun q => q.1 = pass).map Prod.snd

/-- The cancellation of a task in that phase. -/
def Trace.cancel (trace : Trace) : Phase → Trace
  | .passing _ pass _ => { trace with cut := trace.cut ++ [pass] }
  | _ => trace

/-- The passes ran one after the other, and the one in the middle is the last. -/
structure Trace.InTurn (trace : Trace) (current : Option (Nat × List String)) : Prop where
  /-- A pass begins no sync once a later one has. -/
  ordered : trace.syncs.Pairwise fun q r => q.1 ≤ r.1
  begun : ∀ q ∈ trace.syncs, q.1 < trace.passes.length
  /-- A pass that is over has begun the syncs `tick_once` attempts, in order, unless a cancellation
  cut it short. -/
  attempted : ∀ pass due, trace.passes[pass]? = some due → trace.syncsOf pass = due ∨
    trace.syncsOf pass <+: due ∧ pass ∈ trace.cut ∨ ∃ left, current = some (pass, left)
  current : ∀ pass left, current = some (pass, left) → pass + 1 = trace.passes.length ∧
    trace.passes[pass]? = some (trace.syncsOf pass ++ left)

/-- `_task` and `_stopping`, what they have pointed to, and the pending calls of `stop`. -/
structure Lifecycle where
  task : Option Nat := none
  stopping : Option Nat := none
  events : List Bool := []
  tasks : List LoopTask := []
  stops : List StopCall := []
  trace : Trace := {}
  deriving DecidableEq, Repr

/-- How a task of `_loop` goes on. -/
inductive Move
  | enter
  | leave
  | tick (pass : Pass) (listing : List DataSource)
  | sync
  | sleep
  | wake
  | timeout
  | cancelled

/-- What may happen next. A call of `stop` gives up when it times out or is cancelled itself, and is
over in its `finally`, with or without an exception caught before. -/
inductive Label
  | start
  | stop
  | giveUp (call : Nat)
  | stopped (call : Nat) (raised : Bool)
  | run (task : Nat) (move : Move)

namespace Lifecycle

def IsSet (s : Lifecycle) (event : Nat) : Prop := s.events[event]? = some true

instance (s : Lifecycle) : DecidablePred s.IsSet := fun _ => inferInstanceAs (Decidable (_ = _))

def phaseOf (s : Lifecycle) (i : Nat) : Option Phase := s.tasks[i]?.map LoopTask.phase

/-- The task is not done. -/
def Live (s : Lifecycle) (i : Nat) : Prop := ∃ phase ∈ s.phaseOf i, phase.Live

instance (s : Lifecycle) : DecidablePred s.Live := fun _ =>
  inferInstanceAs (Decidable (∃ phase ∈ _, Phase.Live phase))

/-- The task is asked to cancel. -/
def Cancelling (s : Lifecycle) (i : Nat) : Prop := ∃ t ∈ s.tasks[i]?, LoopTask.cancelling t = true

/-- `Task.cancel`. -/
def cancel (s : Lifecycle) (i : Nat) : Lifecycle :=
  { s with tasks := s.tasks.modify i fun t => { t with cancelling := true } }

/-- `self._stopping.set()`, when there is an event. -/
def setStopping (s : Lifecycle) : Lifecycle :=
  match s.stopping with
  | none => s
  | some event => { s with events := s.events.set event true }

/-- `start`: no task is made beside one that is not done. -/
def start (s : Lifecycle) : Lifecycle :=
  if ∃ i, s.task = some i ∧ s.Live i then s
  else { s with
    task := some s.tasks.length, stopping := some s.events.length
    events := s.events ++ [false], tasks := s.tasks ++ [{}] }

/-- `stop`, up to its await. -/
def stop (s : Lifecycle) : Lifecycle :=
  match s.task with
  | none => s.setStopping
  | some i => { s.setStopping with stops := s.stops ++ [{ task := i }] }

/-- The `finally` of a `stop`. What it caught has it cancel `self._task`, whichever that is by now;
where there is none, an `AttributeError` leaves the `finally` to do the same. -/
def stopped (s : Lifecycle) (k : Nat) (raised : Bool) : Lifecycle :=
  let after := if raised then s.task.elim s s.cancel else s
  { after with task := none, stopping := none, stops := s.stops.eraseIdx k }

end Lifecycle

variable (self : SyncScheduler) (U : Unicode)

/-- A move of `_loop`: the phase it leads to, and what the passes have done by then. A task asked to
cancel does nothing but end: neither `_loop` nor `tick_once` catches a `CancelledError`. -/
def next (s : Lifecycle) (t : LoopTask) (move : Move) : Option (Phase × Trace) :=
  match t.cancelling, move, t.phase with
  | _, _, .done _ => none
  | true, .cancelled, phase => some (.done true, s.trace.cancel phase)
  | true, _, _ => none
  | false, .enter, .created => some (s.stopping.elim (.done false) .head, s.trace)
  | false, .leave, .head event => if s.IsSet event then some (.done false, s.trace) else none
  | false, .tick pass listing, .head event =>
    if s.IsSet event then none
    else
      let due := (self.tickOnce U pass listing).2
      some (.passing event s.trace.passes.length due,
        { s.trace with passes := s.trace.passes ++ [due] })
  | false, .sync, .passing event pass (sourceId :: left) =>
    some (.passing event pass left,
      { s.trace with syncs := s.trace.syncs ++ [(pass, sourceId)] })
  | false, .sleep, .passing event _ [] => some (.sleeping event, s.trace)
  | false, .wake, .sleeping event => if s.IsSet event then some (.done false, s.trace) else none
  | false, .timeout, .sleeping event => some (.head event, s.trace)
  | false, _, _ => none

/-- What happens next. A call of `stop` is over only when the task it awaits is: with an exception
if that was cancelled, without one if it was not and the call did not give up. -/
def step (s : Lifecycle) : Label → Option Lifecycle
  | .start => some s.start
  | .stop => some s.stop
  | .giveUp k => s.stops[k]?.map fun call =>
    { s.cancel call.task with stops := s.stops.set k { call with gaveUp := true } }
  | .stopped k raised => s.stops[k]?.bind fun call => s.tasks[call.task]?.bind fun t =>
    match t.phase with
    | .done cancelled =>
      if (cancelled → raised) ∧ (raised → cancelled ∨ call.gaveUp) then some (s.stopped k raised)
      else none
    | _ => none
  | .run i move => s.tasks[i]?.bind fun t => (self.next U s t move).map fun (phase, trace) =>
    { s with tasks := s.tasks.set i { t with phase }, trace }

/-- No `start` falls inside a pending `stop`. -/
def Calm (s : Lifecycle) : Label → Prop
  | .start => s.stops = []
  | _ => True

instance (s : Lifecycle) : DecidablePred (Calm s) := fun label => by
  cases label <;> unfold Calm <;> infer_instance

/-! ## What can be said of a run -/

namespace Lifecycle

/-- What holds as long as no `start` falls inside a pending `stop`. It is the invariant of the runs;
the trace has one of its own. -/
structure Orderly (s : Lifecycle) : Prop where
  /-- A loop that is live is the one in `_task`: there are no two. -/
  held : ∀ i, s.Live i → s.task = some i
  /-- From a `start` to the next `stop` the loop is live, whatever its passes run into. -/
  running : s.stops = [] → ∀ i, s.task = some i → s.Live i ∧ ¬ s.Cancelling i ∧
    ∃ event, s.stopping = some event ∧ ¬ s.IsSet event
  /-- While a `stop` is pending, the event of the loop is set. -/
  signalled : s.stops ≠ [] → ∀ event, s.stopping = some event → s.IsSet event
  /-- A pending `stop` awaits the task in `_task`, or one that is done. -/
  awaited : ∀ call ∈ s.stops, call.task < s.tasks.length ∧ ∀ i, s.task = some i → call.task = i
  /-- A live loop has read the event in `_stopping`, if it has run. -/
  reads : ∀ i phase event, s.phaseOf i = some phase → phase.Reads event → s.stopping = some event
  bounds : ∀ i, s.task = some i →
    i < s.tasks.length ∧ ∃ event, s.stopping = some event ∧ event < s.events.length

/-- The pass the loop in `_task` is in the middle of, and the syncs it is still to attempt. -/
def current (s : Lifecycle) : Option (Nat × List String) :=
  (s.task.bind s.phaseOf).bind Phase.current

end Lifecycle

/-! ## What a step can do -/

/-- The moves of a task, with what each finds. -/
inductive Moves (s : Lifecycle) (t : LoopTask) : Phase → Trace → Prop
  | cancelled : t.phase.Live → t.cancelling = true → Moves s t (.done true) (s.trace.cancel t.phase)
  | enter : t.phase = .created → Moves s t (s.stopping.elim (.done false) .head) s.trace
  | leave {event} : t.phase = .head event ∨ t.phase = .sleeping event → s.IsSet event →
      Moves s t (.done false) s.trace
  | tick {event} (pass listing) : t.phase = .head event → ¬ s.IsSet event →
      Moves s t (.passing event s.trace.passes.length (self.tickOnce U pass listing).2)
        { s.trace with passes := s.trace.passes ++ [(self.tickOnce U pass listing).2] }
  | sync {event pass sourceId left} : t.phase = .passing event pass (sourceId :: left) →
      Moves s t (.passing event pass left)
        { s.trace with syncs := s.trace.syncs ++ [(pass, sourceId)] }
  | sleep {event pass} : t.phase = .passing event pass [] → Moves s t (.sleeping event) s.trace
  | timeout {event} : t.phase = .sleeping event → Moves s t (.head event) s.trace

variable {self U}

theorem Phase.live_of_ne {phase : Phase} (h : ∀ cancelled, phase ≠ .done cancelled) :
    phase.Live := by
  cases phase with
  | done cancelled => exact h cancelled rfl
  | _ => trivial

theorem Phase.Reads.live {phase : Phase} {event : Nat} (h : phase.Reads event) : phase.Live := by
  cases phase with
  | done => exact h.elim
  | _ => trivial

theorem moves_of_next {s : Lifecycle} {t : LoopTask} {move : Move} {phase : Phase} {trace : Trace}
    (h : self.next U s t move = some (phase, trace)) : Moves self U s t phase trace := by
  obtain ⟨here, cancelling⟩ := t
  unfold next at h
  dsimp only at h
  split at h
  case h_2 hlive =>
    cases h
    exact .cancelled (Phase.live_of_ne hlive) rfl
  case h_4 =>
    cases h
    exact .enter rfl
  case h_5 event =>
    split_ifs at h with hset
    cases h
    exact .leave (.inl rfl) hset
  case h_6 pass listing event =>
    split_ifs at h with hset
    cases h
    exact .tick pass listing rfl hset
  case h_7 =>
    cases h
    exact .sync rfl
  case h_8 =>
    cases h
    exact .sleep rfl
  case h_9 =>
    split_ifs at h with hset
    cases h
    exact .leave (.inr rfl) hset
  case h_10 =>
    cases h
    exact .timeout rfl
  all_goals cases h

/-- A task goes on, and nothing but its phase and what the passes have done changes. -/
theorem run_cases {s s' : Lifecycle} {i : Nat} {move : Move}
    (h : self.step U s (.run i move) = some s') : ∃ t phase trace, s.tasks[i]? = some t ∧
      Moves self U s t phase trace ∧
        s' = { s with tasks := s.tasks.set i { t with phase }, trace } := by
  obtain ⟨t, ht, h⟩ := Option.bind_eq_some_iff.mp h
  obtain ⟨⟨phase, trace⟩, hnext, rfl⟩ := Option.map_eq_some_iff.mp h
  exact ⟨t, phase, trace, ht, moves_of_next hnext, rfl⟩

/-- A `stop` gives up, and its task is asked to cancel. -/
theorem giveUp_cases {s s' : Lifecycle} {k : Nat} (h : self.step U s (.giveUp k) = some s') :
    ∃ call, s.stops[k]? = some call ∧
      s' = { s.cancel call.task with stops := s.stops.set k { call with gaveUp := true } } := by
  obtain ⟨call, hcall, rfl⟩ := Option.map_eq_some_iff.mp h
  exact ⟨call, hcall, rfl⟩

/-- A `stop` is over behind the task it awaits. -/
theorem stopped_cases {s s' : Lifecycle} {k : Nat} {raised : Bool}
    (h : self.step U s (.stopped k raised) = some s') : ∃ call cancelled,
      s.stops[k]? = some call ∧ s.phaseOf call.task = some (.done cancelled) ∧
        s' = s.stopped k raised := by
  obtain ⟨call, hcall, h⟩ := Option.bind_eq_some_iff.mp h
  obtain ⟨t, ht, h⟩ := Option.bind_eq_some_iff.mp h
  split at h
  · rename_i cancelled hdone
    split_ifs at h
    cases h
    exact ⟨call, cancelled, hcall, by rw [Lifecycle.phaseOf, ht, Option.map_some, hdone], rfl⟩
  · cases h

namespace Moves

variable {s : Lifecycle} {t : LoopTask} {phase : Phase} {trace : Trace}

/-- A task that is done makes no move. -/
theorem live (h : Moves self U s t phase trace) : t.phase.Live := by
  cases h with
  | cancelled hlive => exact hlive
  | leave h => rcases h with h | h <;> rw [h] <;> trivial
  | enter h | tick _ _ h | sync h | sleep h | timeout h => rw [h]; trivial

/-- The event a task has read is read when it first runs, from `_stopping`. -/
theorem reads (h : Moves self U s t phase trace) {event : Nat} (hreads : phase.Reads event) :
    t.phase.Reads event ∨ s.stopping = some event := by
  cases h with
  | cancelled | leave => exact hreads.elim
  | enter =>
    cases hstopping : s.stopping with
    | none =>
      rw [hstopping] at hreads
      exact hreads.elim
    | some e =>
      rw [hstopping] at hreads
      exact .inr (congrArg some hreads)
  | tick _ _ h | sync h | sleep h | timeout h =>
    rw [h]
    exact .inl hreads

/-- A task that is not asked to cancel stays live until its event is set. -/
theorem stays (h : Moves self U s t phase trace) (hcancelling : t.cancelling = false)
    (hunset : ∃ event, s.stopping = some event ∧ ¬ s.IsSet event)
    (hreads : ∀ event, t.phase.Reads event → s.stopping = some event) : phase.Live := by
  obtain ⟨event, hstopping, hunset⟩ := hunset
  cases h with
  | cancelled _ h =>
    rw [hcancelling] at h
    cases h
  | enter =>
    rw [hstopping]
    trivial
  | @leave e h hset =>
    have hread : s.stopping = some e := hreads e (by rcases h with h | h <;> rw [h] <;> rfl)
    rw [hstopping] at hread
    cases hread
    exact absurd hset hunset
  | tick | sync | sleep | timeout => trivial

end Moves

namespace Lifecycle

theorem phaseOf_cancel (s : Lifecycle) (i j : Nat) : (s.cancel i).phaseOf j = s.phaseOf j := by
  rw [phaseOf, phaseOf, cancel, List.getElem?_modify, Option.map_eq_map, Option.map_map]
  congr 1
  funext t
  rw [Function.comp_apply]
  split <;> rfl

/-- The `finally` of a `stop` does no more to tasks than ask one to cancel. -/
theorem stopped_unmoved (s : Lifecycle) (k : Nat) (raised : Bool) :
    (∀ j, (s.stopped k raised).phaseOf j = s.phaseOf j) ∧
      (s.stopped k raised).tasks.length = s.tasks.length ∧ (s.stopped k raised).trace = s.trace := by
  rw [stopped]
  cases raised with
  | false => exact ⟨fun _ => rfl, rfl, rfl⟩
  | true =>
    cases htask : s.task with
    | none => exact ⟨fun _ => rfl, rfl, rfl⟩
    | some i => exact ⟨phaseOf_cancel s i, List.length_modify _ _ _, rfl⟩

theorem phaseOf_setStopping (s : Lifecycle) (j : Nat) : s.setStopping.phaseOf j = s.phaseOf j := by
  rw [setStopping]
  split <;> rfl

theorem phaseOf_stop (s : Lifecycle) (j : Nat) : s.stop.phaseOf j = s.phaseOf j := by
  rw [stop]
  split
  · exact phaseOf_setStopping s j
  · exact phaseOf_setStopping s j

/-- A move of a task leaves the others where they are. -/
theorem phaseOf_set {s : Lifecycle} {i : Nat} {t : LoopTask} (h : s.tasks[i]? = some t)
    (phase : Phase) (trace : Trace) (j : Nat) :
    ({ s with tasks := s.tasks.set i { t with phase }, trace } : Lifecycle).phaseOf j =
      if i = j then some phase else s.phaseOf j := by
  rw [phaseOf, List.getElem?_set, if_pos (List.getElem?_eq_some_iff.mp h).1]
  split <;> rfl

/-- A task is live where the phases are the same. -/
theorem live_congr {s s' : Lifecycle} (h : ∀ i, s'.phaseOf i = s.phaseOf i) (i : Nat) :
    s'.Live i ↔ s.Live i := by
  rw [Live, Live, h]

theorem live_of_task {s : Lifecycle} {i : Nat} {t : LoopTask} (h : s.tasks[i]? = some t)
    (hlive : t.phase.Live) : s.Live i :=
  ⟨t.phase, by rw [phaseOf, h]; rfl, hlive⟩

theorem not_live_of_done {s : Lifecycle} {i : Nat} {cancelled : Bool}
    (h : s.phaseOf i = some (.done cancelled)) : ¬ s.Live i := by
  rintro ⟨phase, hphase, hlive⟩
  rw [h] at hphase
  cases hphase
  exact hlive

/-- A new task is behind all others. -/
theorem phaseOf_started {s : Lifecycle} (h : ¬ ∃ i, s.task = some i ∧ s.Live i) (j : Nat) :
    s.start.phaseOf j = if j = s.tasks.length then some .created else s.phaseOf j := by
  rw [start, if_neg h, phaseOf, phaseOf, List.getElem?_append]
  split_ifs with hlt heq heq
  · omega
  · rfl
  · rw [heq, Nat.sub_self]
    rfl
  · rw [List.getElem?_eq_none (by rw [List.length_singleton]; omega),
      List.getElem?_eq_none (by omega)]

theorem Orderly.start {s : Lifecycle} (hs : s.Orderly) (hstops : s.stops = []) :
    s.start.Orderly := by
  by_cases hheld : ∃ i, s.task = some i ∧ s.Live i
  · rw [Lifecycle.start, if_pos hheld]
    exact hs
  · have hdead : ∀ i, ¬ s.Live i := fun i hi => hheld ⟨i, hs.held i hi, hi⟩
    have hphases := phaseOf_started hheld
    have htask : s.start.task = some s.tasks.length := by rw [Lifecycle.start, if_neg hheld]
    have hstopping : s.start.stopping = some s.events.length := by
      rw [Lifecycle.start, if_neg hheld]
    have hnone : s.start.stops = [] := by rw [Lifecycle.start, if_neg hheld, hstops]
    have hlength : s.start.tasks.length = s.tasks.length + 1 := by
      rw [Lifecycle.start, if_neg hheld, List.length_append, List.length_singleton]
    have hevents : s.start.events = s.events ++ [false] := by rw [Lifecycle.start, if_neg hheld]
    refine ⟨?_, ?_, ?_, ?_, ?_, ?_⟩
    · rintro i ⟨phase, hphase, hlive⟩
      rw [hphases] at hphase
      split_ifs at hphase with heq
      · rw [htask, heq]
      · exact absurd ⟨phase, hphase, hlive⟩ (hdead i)
    · intro _ i hi
      rw [htask] at hi
      cases hi
      have hlive : s.start.Live s.tasks.length :=
        ⟨.created, by rw [hphases, if_pos rfl]; rfl, trivial⟩
      refine ⟨hlive, ?_, s.events.length, hstopping, ?_⟩
      · rintro ⟨t, ht, hcancelling⟩
        rw [Lifecycle.start, if_neg hheld, List.getElem?_concat_length] at ht
        cases ht
        cases hcancelling
      · rw [IsSet, hevents, List.getElem?_concat_length]
        simp
    · exact fun h => absurd hnone h
    · rw [hnone]
      exact fun call hcall => absurd hcall (List.not_mem_nil)
    · intro i phase event hphase hreads
      rw [hphases] at hphase
      split_ifs at hphase with heq
      · cases hphase
        exact hreads.elim
      · exact absurd ⟨phase, hphase, hreads.live⟩ (hdead i)
    · intro i hi
      rw [htask] at hi
      cases hi
      rw [hlength, hevents, List.length_append, List.length_singleton]
      exact ⟨by omega, s.events.length, hstopping, by omega⟩

theorem isSet_setStopping {s : Lifecycle} {event : Nat} (h : s.IsSet event) :
    s.setStopping.IsSet event := by
  rw [setStopping]
  split
  · exact h
  · rename_i e he
    rw [IsSet, List.getElem?_set]
    split_ifs with heq hlt
    · rfl
    · rw [← heq] at h
      exact absurd (List.getElem?_eq_some_iff.mp h).1 hlt
    · exact h

/-- `set` changes no more than an event. -/
theorem setStopping_eq (s : Lifecycle) : ∃ events, s.setStopping = { s with events } := by
  rw [setStopping]
  split
  · exact ⟨s.events, rfl⟩
  · exact ⟨_, rfl⟩

theorem Orderly.stop {s : Lifecycle} (hs : s.Orderly) : s.stop.Orderly := by
  have hphases := phaseOf_stop s
  cases htask : s.task with
  | none =>
    obtain ⟨events, hset⟩ := setStopping_eq s
    have heq : s.stop = s.setStopping := by simp only [Lifecycle.stop, htask]
    rw [heq, hset] at hphases ⊢
    refine ⟨?_, ?_, ?_, ?_, ?_, ?_⟩
    · intro j hj
      exact hs.held j ((live_congr hphases j).mp hj)
    · intro _ j hj
      cases htask.symm.trans hj
    · intro hstops e he
      have := isSet_setStopping (hs.signalled hstops e he)
      rw [hset] at this
      exact this
    · exact hs.awaited
    · exact hs.reads
    · intro j hj
      cases htask.symm.trans hj
  | some i =>
    obtain ⟨hlt, event, hstopping, hevent⟩ := hs.bounds i htask
    have heq : s.stop = { s with
        events := s.events.set event true, stops := s.stops ++ [{ task := i }] } := by
      simp only [Lifecycle.stop, setStopping, htask, hstopping]
    rw [heq] at hphases ⊢
    refine ⟨?_, ?_, ?_, ?_, ?_, ?_⟩
    · intro j hj
      exact hs.held j ((live_congr hphases j).mp hj)
    · intro h
      exact absurd h (List.concat_ne_nil _ _)
    · intro _ e he
      cases hstopping.symm.trans he
      exact List.getElem?_set_self hevent
    · intro call hcall
      rcases List.mem_append.mp hcall with hcall | hcall
      · exact hs.awaited call hcall
      · rw [List.mem_singleton.mp hcall]
        refine ⟨hlt, fun j hj => ?_⟩
        cases htask.symm.trans hj
        rfl
    · intro j phase e hphase hreads
      rw [hphases] at hphase
      exact hs.reads j phase e hphase hreads
    · intro j hj
      cases htask.symm.trans hj
      refine ⟨hlt, event, hstopping, ?_⟩
      rw [List.length_set]
      exact hevent

theorem Orderly.giveUp {s : Lifecycle} (hs : s.Orderly) {k : Nat} {call : StopCall}
    (hcall : s.stops[k]? = some call) :
    ({ s.cancel call.task with stops := s.stops.set k { call with gaveUp := true } } :
      Lifecycle).Orderly := by
  have hphases : ∀ j, (s.cancel call.task).phaseOf j = s.phaseOf j := phaseOf_cancel s call.task
  have hmem : call ∈ s.stops := List.mem_of_getElem? hcall
  have hlength : (s.cancel call.task).tasks.length = s.tasks.length := List.length_modify _ _ _
  refine ⟨?_, ?_, ?_, ?_, ?_, ?_⟩
  · intro j hj
    exact hs.held j ((live_congr hphases j).mp hj)
  · intro h
    rw [List.set_eq_nil_iff] at h
    rw [h] at hmem
    exact absurd hmem List.not_mem_nil
  · intro _ e he
    exact hs.signalled (List.ne_nil_of_mem hmem) e he
  · intro other hother
    rw [hlength]
    rcases List.mem_or_eq_of_mem_set hother with hother | rfl
    · exact hs.awaited other hother
    · exact hs.awaited call hmem
  · intro j phase e hphase hreads
    exact hs.reads j phase e ((hphases j).symm.trans hphase) hreads
  · intro j hj
    rw [hlength]
    exact hs.bounds j hj

/-- Once the task of a pending `stop` is done, no loop is live. -/
theorem Orderly.not_live {s : Lifecycle} (hs : s.Orderly) {k : Nat} {call : StopCall}
    {cancelled : Bool} (hcall : s.stops[k]? = some call)
    (hdone : s.phaseOf call.task = some (.done cancelled)) (i : Nat) : ¬ s.Live i := fun hi => by
  rw [(hs.awaited call (List.mem_of_getElem? hcall)).2 i (hs.held i hi)] at hdone
  exact not_live_of_done hdone hi

theorem Orderly.stopped {s : Lifecycle} (hs : s.Orderly) {k : Nat} {call : StopCall}
    {cancelled : Bool} (hcall : s.stops[k]? = some call)
    (hdone : s.phaseOf call.task = some (.done cancelled)) (raised : Bool) :
    (s.stopped k raised).Orderly := by
  obtain ⟨hphases, hlength, -⟩ := stopped_unmoved s k raised
  have hdead := hs.not_live hcall hdone
  refine ⟨?_, ?_, ?_, ?_, ?_, ?_⟩
  · intro j hj
    exact absurd ((live_congr hphases j).mp hj) (hdead j)
  · intro _ i hi
    cases hi
  · intro _ e he
    cases he
  · intro other hother
    refine ⟨?_, fun i hi => by cases hi⟩
    rw [hlength]
    exact (hs.awaited other (List.mem_of_mem_eraseIdx hother)).1
  · intro j phase e hphase hreads
    rw [hphases] at hphase
    exact absurd ⟨phase, hphase, hreads.live⟩ (hdead j)
  · intro i hi
    cases hi

/-- A move of the one live loop. -/
theorem Orderly.moved {s : Lifecycle} (hs : s.Orderly) {i : Nat} {t : LoopTask} {phase : Phase}
    {trace : Trace} (ht : s.tasks[i]? = some t) (hmoves : Moves self U s t phase trace) :
    ({ s with tasks := s.tasks.set i { t with phase }, trace } : Lifecycle).Orderly := by
  have hphases := phaseOf_set ht phase trace
  have hphase : s.phaseOf i = some t.phase := by rw [phaseOf, ht, Option.map_some]
  have htask : s.task = some i := hs.held i (live_of_task ht hmoves.live)
  refine ⟨?_, ?_, ?_, ?_, ?_, ?_⟩
  · rintro j ⟨q, hq, hlive⟩
    rw [hphases] at hq
    split_ifs at hq with heq
    · rw [← heq]
      exact htask
    · exact hs.held j ⟨q, hq, hlive⟩
  · intro hstops j hj
    cases htask.symm.trans hj
    obtain ⟨-, hcancelling, hunset⟩ := hs.running hstops i htask
    have hnot : t.cancelling = false := by
      cases h : t.cancelling with
      | false => rfl
      | true => exact absurd ⟨t, ht, h⟩ hcancelling
    refine ⟨⟨phase, by rw [hphases, if_pos rfl]; rfl,
      hmoves.stays hnot hunset fun e he => hs.reads i t.phase e hphase he⟩, ?_, hunset⟩
    rintro ⟨t', ht', hcancelling'⟩
    rw [List.getElem?_set_self (List.getElem?_eq_some_iff.mp ht).1] at ht'
    cases ht'
    rw [hnot] at hcancelling'
    cases hcancelling'
  · exact hs.signalled
  · intro call hcall
    rw [List.length_set]
    exact hs.awaited call hcall
  · intro j q e hq hreads
    rw [hphases] at hq
    split_ifs at hq with heq
    · cases hq
      rcases hmoves.reads hreads with h | h
      · exact hs.reads i t.phase e hphase h
      · exact h
    · exact hs.reads j q e hq hreads
  · intro j hj
    rw [List.length_set]
    exact hs.bounds j hj

theorem orderly_init : Orderly {} where
  held i := fun ⟨_, h, _⟩ => by cases h
  running _ i hi := by cases hi
  signalled h := absurd rfl h
  awaited call hcall := absurd hcall List.not_mem_nil
  reads i phase event h := by cases h
  bounds i hi := by cases hi

theorem Orderly.step {s s' : Lifecycle} (hs : s.Orderly) {label : Label} (hcalm : Calm s label)
    (h : self.step U s label = some s') : s'.Orderly := by
  cases label with
  | start =>
    cases h
    exact hs.start hcalm
  | stop =>
    cases h
    exact hs.stop
  | giveUp k =>
    obtain ⟨call, hcall, rfl⟩ := giveUp_cases h
    exact hs.giveUp hcall
  | stopped k raised =>
    obtain ⟨call, cancelled, hcall, hdone, rfl⟩ := stopped_cases h
    exact hs.stopped hcall hdone raised
  | run i move =>
    obtain ⟨t, phase, trace, ht, hmoves, rfl⟩ := run_cases h
    exact hs.moved ht hmoves

end Lifecycle

end SyncScheduler

end Wapsell.Resources
