import Wapsell.Resources.Lifecycle

/-!
# The passes of the sync scheduler

What the loops of a run have synced. There is one loop at a time, so the
passes take turns and no source is synced by two of them at once; and with
the last of them over, a stopped scheduler syncs nothing.

The hypothesis is about the labels only: no `start` while a `stop` is
pending. The lifespan of the application meets it by calling each once.
What a pass syncs is read off the trace, which is a ghost: the tasks do
not look at it.

What this does not establish: that a `stop` ends within a time. It can
always end, by giving up after its wait and cancelling the task.
-/

namespace Wapsell.Resources

open Lib Py

namespace SyncScheduler

variable {self : SyncScheduler} {U : Unicode}

/-! ## The passes -/

namespace Trace

variable {trace : Trace}

theorem inTurn_init : InTurn {} none where
  ordered := .nil
  begun q hq := absurd hq List.not_mem_nil
  attempted pass due h := by cases h
  current pass left h := by cases h

/-- A pass that has not begun has begun no sync. -/
theorem syncsOf_eq_nil {current : Option (Nat × List String)} (h : trace.InTurn current) {pass : Nat}
    (hpass : trace.passes.length ≤ pass) : trace.syncsOf pass = [] := by
  rw [syncsOf, List.map_eq_nil_iff, List.filter_eq_nil_iff]
  intro q hq
  have hlt := h.begun q hq
  rw [decide_eq_true_eq]
  omega

theorem InTurn.tick (h : trace.InTurn none) (due : List String) :
    ({ trace with passes := trace.passes ++ [due] } : Trace).InTurn
      (some (trace.passes.length, due)) where
  ordered := h.ordered
  begun q hq := by
    rw [List.length_append, List.length_singleton]
    exact (h.begun q hq).trans (Nat.lt_succ_self _)
  attempted pass due' hpass := by
    rw [List.getElem?_append] at hpass
    split_ifs at hpass with hlt
    · rcases h.attempted pass due' hpass with hall | hcut | ⟨left, hleft⟩
      · exact .inl hall
      · exact .inr (.inl hcut)
      · cases hleft
    · obtain ⟨hsub, rfl⟩ := List.getElem?_eq_some_iff.mp hpass
      rw [List.length_singleton] at hsub
      exact .inr (.inr ⟨due, by rw [show pass = trace.passes.length by omega]⟩)
  current pass left heq := by
    cases heq
    rw [List.length_append, List.length_singleton]
    refine ⟨rfl, ?_⟩
    have hnil : ({ trace with passes := trace.passes ++ [due] } : Trace).syncsOf
        trace.passes.length = [] := syncsOf_eq_nil h le_rfl
    rw [hnil, List.nil_append, List.getElem?_concat_length]

theorem syncsOf_concat (trace : Trace) (pass : Nat) (sourceId : String) (other : Nat) :
    ({ trace with syncs := trace.syncs ++ [(pass, sourceId)] } : Trace).syncsOf other =
      trace.syncsOf other ++ if pass = other then [sourceId] else [] := by
  rw [syncsOf, List.filter_append, List.map_append, ← syncsOf]
  congr 1
  by_cases heq : pass = other
  · rw [if_pos heq, List.filter_cons, if_pos (decide_eq_true heq)]
    rfl
  · rw [if_neg heq, List.filter_cons, if_neg (by simpa using heq)]
    rfl

theorem InTurn.sync {pass : Nat} {sourceId : String} {left : List String}
    (h : trace.InTurn (some (pass, sourceId :: left))) :
    ({ trace with syncs := trace.syncs ++ [(pass, sourceId)] } : Trace).InTurn
      (some (pass, left)) := by
  obtain ⟨hlast, hdue⟩ := h.current pass _ rfl
  refine ⟨?_, ?_, ?_, ?_⟩
  · refine List.pairwise_append.mpr ⟨h.ordered, List.pairwise_singleton _ _, fun q hq r hr => ?_⟩
    have hlt := h.begun q hq
    rw [List.mem_singleton.mp hr]
    dsimp only
    omega
  · intro q hq
    rcases List.mem_append.mp hq with hq | hq
    · exact h.begun q hq
    · rw [List.mem_singleton.mp hq]
      dsimp only
      omega
  · intro other due hother
    rw [syncsOf_concat]
    by_cases heq : pass = other
    · exact .inr (.inr ⟨left, by rw [heq]⟩)
    · rw [if_neg heq, List.append_nil]
      rcases h.attempted other due hother with hall | hcut | ⟨left', hleft⟩
      · exact .inl hall
      · exact .inr (.inl hcut)
      · cases hleft
        exact absurd rfl heq
  · intro other left' heq
    cases heq
    rw [syncsOf_concat, if_pos rfl, List.append_assoc]
    exact ⟨hlast, hdue⟩

theorem InTurn.sleep {pass : Nat} (h : trace.InTurn (some (pass, []))) : trace.InTurn none where
  ordered := h.ordered
  begun := h.begun
  attempted other due hother := by
    rcases h.attempted other due hother with hall | hcut | ⟨left, hleft⟩
    · exact .inl hall
    · exact .inr (.inl hcut)
    · cases hleft
      have hdue := (h.current pass [] rfl).2
      rw [List.append_nil, hother] at hdue
      cases hdue
      exact .inl rfl
  current pass left heq := by cases heq

/-- A cancellation leaves the pass in the middle, if there is one, cut short. -/
theorem InTurn.cancel {phase : Phase} (h : trace.InTurn phase.current) :
    (trace.cancel phase).InTurn none := by
  cases phase with
  | passing event pass left =>
    refine ⟨h.ordered, h.begun, ?_, fun _ _ heq => by cases heq⟩
    intro other due hother
    rcases h.attempted other due hother with hall | ⟨hpre, hcut⟩ | ⟨left', hleft⟩
    · exact .inl hall
    · exact .inr (.inl ⟨hpre, List.mem_append_left _ hcut⟩)
    · cases hleft
      have hdue := (h.current pass left rfl).2
      rw [show trace.passes[pass]? = some due from hother] at hdue
      cases hdue
      exact .inr (.inl ⟨List.prefix_append _ _, List.mem_append_right _ (List.mem_singleton.mpr rfl)⟩)
  | created | head | sleeping | done => exact h

end Trace

/-- The passes are in turn behind each move of the loop. -/
theorem Moves.inTurn {s : Lifecycle} {t : LoopTask} {phase : Phase} {trace : Trace}
    (h : Moves self U s t phase trace) (hs : s.trace.InTurn t.phase.current) :
    trace.InTurn phase.current := by
  cases h with
  | cancelled => exact hs.cancel
  | enter hphase =>
    rw [hphase] at hs
    cases s.stopping <;> exact hs
  | leave hphase =>
    rcases hphase with hphase | hphase <;> rw [hphase] at hs <;> exact hs
  | tick pass listing hphase =>
    rw [hphase] at hs
    exact hs.tick _
  | sync hphase =>
    rw [hphase] at hs
    exact hs.sync
  | sleep hphase =>
    rw [hphase] at hs
    exact hs.sleep
  | timeout hphase =>
    rw [hphase] at hs
    exact hs

namespace Lifecycle

theorem current_eq_none {s : Lifecycle} (h : ∀ i, ¬ s.Live i) : s.current = none := by
  cases hcurrent : s.current with
  | none => rfl
  | some current =>
    obtain ⟨phase, hphase, hsome⟩ := Option.bind_eq_some_iff.mp hcurrent
    obtain ⟨i, -, hi⟩ := Option.bind_eq_some_iff.mp hphase
    refine absurd ⟨phase, hi, ?_⟩ (h i)
    cases phase with
    | passing => trivial
    | _ => cases hsome

theorem current_congr {s s' : Lifecycle} (htask : s'.task = s.task)
    (hphases : ∀ i, s'.phaseOf i = s.phaseOf i) : s'.current = s.current := by
  rw [current, current, htask, funext hphases]

theorem current_of_phaseOf {s : Lifecycle} {i : Nat} {phase : Phase} (htask : s.task = some i)
    (hphase : s.phaseOf i = some phase) : s.current = phase.current := by
  rw [current, htask, Option.bind_some, hphase, Option.bind_some]

/-- What a call of `stop` does first is no move of a loop. -/
theorem stop_unmoved (s : Lifecycle) : s.stop.task = s.task ∧ s.stop.trace = s.trace := by
  obtain ⟨events, hset⟩ := setStopping_eq s
  rw [stop, hset]
  cases s.task <;> exact ⟨rfl, rfl⟩

/-- Every step keeps the passes in turn. -/
theorem Orderly.inTurn {s s' : Lifecycle} (hs : s.Orderly) (hturn : s.trace.InTurn s.current)
    {label : Label} (h : self.step U s label = some s') : s'.trace.InTurn s'.current := by
  cases label with
  | start =>
    cases h
    by_cases hheld : ∃ i, s.task = some i ∧ s.Live i
    · rw [Lifecycle.start, if_pos hheld]
      exact hturn
    · rw [current_eq_none fun i hi => hheld ⟨i, hs.held i hi, hi⟩] at hturn
      have hphase := phaseOf_started hheld s.tasks.length
      rw [if_pos rfl] at hphase
      have htask : s.start.task = some s.tasks.length := by rw [Lifecycle.start, if_neg hheld]
      rw [current_of_phaseOf htask hphase, Lifecycle.start, if_neg hheld]
      exact hturn
  | stop =>
    cases h
    obtain ⟨htask, htrace⟩ := stop_unmoved s
    rw [current_congr htask (phaseOf_stop s), htrace]
    exact hturn
  | giveUp k =>
    obtain ⟨call, hcall, rfl⟩ := giveUp_cases h
    have hcurrent : (s.cancel call.task).current = s.current :=
      current_congr rfl (phaseOf_cancel s call.task)
    rw [← hcurrent] at hturn
    exact hturn
  | stopped k raised =>
    obtain ⟨call, cancelled, hcall, hdone, rfl⟩ := stopped_cases h
    rw [current_eq_none (hs.not_live hcall hdone)] at hturn
    rw [(stopped_unmoved s k raised).2.2]
    exact hturn
  | run i move =>
    obtain ⟨t, phase, trace, ht, hmoves, rfl⟩ := run_cases h
    have htask : s.task = some i := hs.held i (live_of_task ht hmoves.live)
    rw [current_of_phaseOf htask (by rw [phaseOf, ht, Option.map_some])] at hturn
    have hafter := phaseOf_set ht phase trace i
    rw [if_pos rfl] at hafter
    have hcurrent := current_of_phaseOf (by exact htask) hafter
    rw [hcurrent]
    exact hmoves.inTurn hturn

/-! ## Stopping -/

/-- A `stop` is pending, or none has been followed by a `start`: the span in which nothing new may
begin. -/
def Stopping (s : Lifecycle) : Prop := s.stops ≠ [] ∨ s.task = none

/-- From a call of `stop` on no pass begins, and from its end on nothing is synced. -/
theorem Orderly.stopping_step {s s' : Lifecycle} (hs : s.Orderly) (hstopping : s.Stopping)
    {label : Label} (hlabel : label ≠ .start) (h : self.step U s label = some s') :
    s'.Stopping ∧ s'.trace.passes = s.trace.passes ∧
      (s.task = none → s'.task = none ∧ s'.trace = s.trace) := by
  cases label with
  | start => exact absurd rfl hlabel
  | stop =>
    cases h
    obtain ⟨htask, htrace⟩ := stop_unmoved s
    refine ⟨?_, by rw [htrace], fun hnone => ⟨htask.trans hnone, htrace⟩⟩
    rcases hstopping with hstops | hnone
    · refine .inl ?_
      rw [Lifecycle.stop]
      split
      · obtain ⟨events, hset⟩ := setStopping_eq s
        rw [hset]
        exact hstops
      · exact List.concat_ne_nil _ _
    · exact .inr (htask.trans hnone)
  | giveUp k =>
    obtain ⟨call, hcall, rfl⟩ := giveUp_cases h
    refine ⟨.inl fun hnil => ?_, rfl, fun hnone => ⟨hnone, rfl⟩⟩
    rw [List.set_eq_nil_iff] at hnil
    rw [hnil] at hcall
    cases hcall
  | stopped k raised =>
    obtain ⟨call, cancelled, -, -, rfl⟩ := stopped_cases h
    rw [(stopped_unmoved s k raised).2.2]
    exact ⟨.inr rfl, rfl, fun _ => ⟨rfl, rfl⟩⟩
  | run i move =>
    obtain ⟨t, phase, trace, ht, hmoves, rfl⟩ := run_cases h
    have htask : s.task = some i := hs.held i (live_of_task ht hmoves.live)
    refine ⟨hstopping, ?_, fun hnone => by cases hnone.symm.trans htask⟩
    cases hmoves with
    | @tick event _ _ hphase hunset =>
      have hread : s.stopping = some event :=
        hs.reads i t.phase event (by rw [phaseOf, ht, Option.map_some]) (by rw [hphase]; rfl)
      rcases hstopping with hstops | hnone
      · exact absurd (hs.signalled hstops event hread) hunset
      · cases hnone.symm.trans htask
    | cancelled => cases t.phase <;> rfl
    | enter | leave | sync | sleep | timeout => rfl

theorem Calm.of_ne {s : Lifecycle} {label : Label} (h : label ≠ .start) : Calm s label := by
  cases label with
  | start => exact absurd rfl h
  | _ => trivial

/-- What `stopping_step` says of a step holds of a run without a `start`. -/
theorem Orderly.stopping_run {s s' : Lifecycle} {labels : List Label} (hs : s.Orderly)
    (hstopping : s.Stopping) (hlabels : .start ∉ labels) (h : run (self.step U) s labels = some s') :
    s'.trace.passes = s.trace.passes ∧ (s.task = none → s'.trace = s.trace) := by
  induction labels generalizing s with
  | nil =>
    cases h
    exact ⟨rfl, fun _ => rfl⟩
  | cons label labels ih =>
    obtain ⟨t, hstep, hrest⟩ := run_cons_eq_some.mp h
    rw [List.mem_cons, not_or] at hlabels
    have hne : label ≠ .start := fun heq => hlabels.1 heq.symm
    obtain ⟨ht, hpasses, hnone⟩ := hs.stopping_step hstopping hne hstep
    obtain ⟨hpasses', hnone'⟩ := ih (hs.step (Calm.of_ne hne) hstep) ht hlabels.2 hrest
    refine ⟨hpasses'.trans hpasses, fun htask => ?_⟩
    obtain ⟨htask', htrace⟩ := hnone htask
    exact (hnone' htask').trans htrace

/-- A task that is not done takes a cancellation. -/
theorem next_cancelled (s : Lifecycle) {phase : Phase} (h : phase.Live) :
    self.next U s ⟨phase, true⟩ .cancelled = some (.done true, s.trace.cancel phase) := by
  cases phase with
  | done => exact h.elim
  | _ => rfl

/-- A `stop` is over once its task is done, with an exception exactly if that was cancelled. -/
theorem step_stopped {s : Lifecycle} {k : Nat} {call : StopCall} {t : LoopTask} {cancelled : Bool}
    (hcall : s.stops[k]? = some call) (ht : s.tasks[call.task]? = some t)
    (hphase : t.phase = .done cancelled) :
    self.step U s (.stopped k cancelled) = some (s.stopped k cancelled) := by
  simp only [SyncScheduler.step, hcall, Option.bind_some, ht, hphase]
  exact if_pos ⟨id, .inl⟩

/-- A pending `stop` can be over: at once, or when it gives up and its task takes the cancellation. -/
theorem Orderly.stop_ends {s : Lifecycle} (hs : s.Orderly) {k : Nat} {call : StopCall}
    (hcall : s.stops[k]? = some call) :
    (∃ raised, (self.step U s (.stopped k raised)).isSome) ∨
      (run (self.step U) s [.giveUp k, .run call.task .cancelled, .stopped k true]).isSome := by
  have hlt : call.task < s.tasks.length := (hs.awaited call (List.mem_of_getElem? hcall)).1
  obtain ⟨t, ht⟩ : ∃ t, s.tasks[call.task]? = some t := ⟨_, List.getElem?_eq_getElem hlt⟩
  by_cases hlive : t.phase.Live
  · refine .inr ?_
    have hasked : (s.cancel call.task).tasks[call.task]? = some ⟨t.phase, true⟩ := by
      rw [Lifecycle.cancel, List.getElem?_modify_eq, ht]
      rfl
    have hk := (List.getElem?_eq_some_iff.mp hcall).1
    have hi := (List.getElem?_eq_some_iff.mp hasked).1
    rw [run_cons, SyncScheduler.step, hcall, Option.map_some, Option.bind_some, run_cons,
      SyncScheduler.step, hasked, Option.bind_some, next_cancelled _ hlive, Option.map_some,
      Option.bind_some, run_cons,
      step_stopped (List.getElem?_set_self hk) (List.getElem?_set_self hi) rfl]
    rfl
  · refine .inl ?_
    cases hphase : t.phase with
    | done cancelled => exact ⟨cancelled, by rw [step_stopped hcall ht hphase]; rfl⟩
    | _ =>
      rw [hphase] at hlive
      exact absurd trivial hlive

end Lifecycle

/-- **One loop at a time.** In a run in which no `start` falls inside a pending `stop`, at most one
loop is live and it is the one in `_task`; started and not stopped, it is. The passes run one after
the other, each through the syncs `tick_once` attempts unless a cancellation cuts it short. From a
`stop` to the next `start` no pass begins, and behind the end of the `stop` no sync; and the `stop`
can always end. -/
theorem one_loop_at_a_time (self : SyncScheduler) (U : Unicode) {labels : List Label} {s : Lifecycle}
    (hcalm : EachStep (self.step U) Calm {} labels) (h : run (self.step U) {} labels = some s) :
    s.Orderly ∧ s.trace.InTurn s.current ∧
      (s.Stopping → ∀ more s', .start ∉ more → run (self.step U) s more = some s' →
        s'.trace.passes = s.trace.passes ∧ (s.task = none → s'.trace = s.trace)) ∧
      ∀ k call, s.stops[k]? = some call → (∃ raised, (self.step U s (.stopped k raised)).isSome) ∨
        (run (self.step U) s [.giveUp k, .run call.task .cancelled, .stopped k true]).isSome := by
  have hall : EachState (self.step U) (fun s => s.Orderly ∧ s.trace.InTurn s.current) {} labels :=
    eachState_of_guarded (fun _ _ _ ⟨hs, hturn⟩ hcalm hstep =>
      ⟨hs.step hcalm hstep, hs.inTurn hturn hstep⟩) ⟨Lifecycle.orderly_init, Trace.inTurn_init⟩ hcalm
  obtain ⟨hs, hturn⟩ := hall.last h
  exact ⟨hs, hturn, fun hstopping _ _ hmore hrun => hs.stopping_run hstopping hmore hrun,
    fun _ _ hcall => hs.stop_ends hcall⟩

/-- Two sources never synced. -/
def newListing : List DataSource :=
  [{ id := "s1", tenantId := "acme", kind := .manual, name := "First", createdAt := 0 },
    { id := "s2", tenantId := "acme", kind := .manual, name := "Second", createdAt := 0 }]

/-- Started, stopped in the middle of a pass, and started again. -/
def restart : List Label :=
  let pass : Pass := ⟨9, fun _ => false, fun _ => .error .keyError⟩
  [.start, .run 0 .enter, .run 0 (.tick pass newListing), .run 0 .sync, .stop, .giveUp 0,
    .run 0 .cancelled, .stopped 0 true, .start, .run 1 .enter, .run 1 (.tick pass newListing),
    .run 1 .sync, .run 1 .sync, .run 1 .sleep]

theorem one_loop_at_a_time_restart :
    let s := reached (({} : SyncScheduler).step Unicode.ascii) {} restart
    s.Orderly ∧ s.task = some 1 ∧
      s.trace = ⟨[["s1", "s2"], ["s1", "s2"]], [(0, "s1"), (1, "s1"), (1, "s2")], [0]⟩ :=
  ⟨(one_loop_at_a_time {} Unicode.ascii (by decide)
    (run_eq_some_reached (by decide))).1, by decide, by decide⟩

end SyncScheduler

end Wapsell.Resources
