import Mathlib.Logic.Relation
import Wapsell.Lib.Run
import Wapsell.Ingestion.Preprocessor

/-!
# The ingestion worker

`services/preprocessor/worker.py` as a system of two parties: a worker, which
runs `drain` or `run_forever`, and everyone else, who puts jobs on the queue
and sets `stop` at any time. A step of the worker is what it does between two
of its awaits. Both loops mark a job done in a `finally` and catch nothing,
so what `process` raises ends the worker; and both look at `stop` before
they look at the queue.

Everyone else is free: jobs are put and `stop` is set between any two
steps of the worker. So what the theorem says about a run holds for each
order in which producers and worker come to run, and the condition is
about single steps, decided when they happen.

What this does not establish: that a job that was taken is well
ingested. It is the subject of the preprocessor.
-/

namespace Wapsell.Ingestion

open Lib Py

/-- The two loops: `drain`, which returns when the queue is empty, and `run_forever`, which waits
for more. -/
inductive Loop
  | drain
  | runForever
  deriving DecidableEq, Repr

/-- Where the worker is: not called yet, in `queue.get()`, in `process`, or through. -/
inductive Phase
  | new
  | polling
  | processing (job : IngestionJob)
  | returned
  | raised (e : Exc)
  deriving DecidableEq, Repr

/-- The loop is through. -/
def Phase.ended : Phase → Bool
  | .returned => true
  | .raised _ => true
  | _ => false

/-- A queue with its worker. Beside what the two hold: the jobs put so far, those put before `stop`
was set, and those `process` was called with, each in order. -/
structure State where
  queue : List IngestionJob := []
  unfinished : Nat := 0
  stop : Bool := false
  phase : Phase := .new
  processed : Nat := 0
  hindsight : Hindsight := []
  put : List IngestionJob := []
  beforeStop : List IngestionJob := []
  taken : List IngestionJob := []

namespace State

/-- `queue.get()` with a job in the queue, and the call of `process` behind it. -/
def take (s : State) : State :=
  match s.queue with
  | [] => s
  | job :: rest => { s with queue := rest, phase := .processing job, taken := s.taken ++ [job] }

/-- The loop test, and what follows it up to the next await: `drain` takes a job that is there. -/
def enter (s : State) : Loop → State
  | .drain => if s.queue = [] ∨ s.stop = true then { s with phase := .returned } else s.take
  | .runForever => { s with phase := if s.stop then .returned else .polling }

end State

/-- What can happen: a job is put, `stop` is set, the worker is called, its `get` answers or times
out, or its `process` comes out. -/
inductive Label
  | put (job : IngestionJob)
  | setStop
  | call
  | wake
  | timeout
  | finish (extracted : Except Exc (List ExtractedChunk)) (draws : Nat → FactDraw)

variable (U : Unicode) (extractors : List String) (loop : Loop)

/-- `process` comes out: the job is done, and the loop goes on or the exception leaves it. -/
def finished (s : State) (job : IngestionJob) (extracted : Except Exc (List ExtractedChunk))
    (draws : Nat → FactDraw) : State :=
  match process U extractors s.hindsight job extracted draws with
  | (.error e, hindsight) =>
    { s with unfinished := s.unfinished - 1, hindsight, phase := .raised e }
  | (.ok _, hindsight) =>
    { s with unfinished := s.unfinished - 1, hindsight, processed := s.processed + 1 }.enter loop

/-- One step. -/
def step (s : State) : Label → Option State
  | .put job =>
    if s.phase.ended then none
    else some
      { s with
        queue := s.queue ++ [job], unfinished := s.unfinished + 1, put := s.put ++ [job]
        beforeStop := if s.stop then s.beforeStop else s.beforeStop ++ [job] }
  | .setStop => if s.phase.ended then none else some { s with stop := true }
  | .call => if s.phase = .new then some (s.enter loop) else none
  | .wake => if s.phase = .polling ∧ s.queue ≠ [] then some s.take else none
  | .timeout => if s.phase = .polling then some (s.enter loop) else none
  | .finish extracted draws =>
    match s.phase with
    | .processing job => some (finished U extractors loop s job extracted draws)
    | _ => none

/-! ## A worker that survives -/

/-- The jobs are taken in order and none twice; a loop that is through took every job put before
`stop`, was not left by an exception, and in the case of `run_forever` saw `stop`. -/
structure Survives (s : State) : Prop where
  inOrder : s.taken ++ s.queue = s.put
  complete : s.phase.ended = true → s.beforeStop <+: s.taken
  notRaised : ∀ e, s.phase ≠ .raised e
  stopped : loop = .runForever → s.phase = .returned → s.stop = true

/-- None of the jobs put before `stop` waits any more, if `stop` is set. -/
def Settled (s : State) : Prop := s.stop = true → s.beforeStop.length ≤ s.taken.length

/-- The step does not end the loop early: `process` answers, and the loop test does not find `stop`
set in front of a job put before it. -/
def Spared (s : State) : Label → Prop
  | .call => Settled s
  | .timeout => Settled s
  | .finish extracted _ =>
    Settled s ∧ ∀ job, s.phase = .processing job → Supported U extractors job ∧ extracted.isOk = true
  | _ => True

/-- What every run keeps of the jobs. -/
structure Kept (s : State) : Prop where
  inOrder : s.taken ++ s.queue = s.put
  before : s.beforeStop <+: s.put
  unstopped : s.stop = false → s.beforeStop = s.put

variable {U extractors loop}

theorem Kept.take {s : State} (h : Kept s) : Kept s.take := by
  unfold State.take
  split
  · exact h
  · next job rest hqueue =>
    refine ⟨?_, h.before, h.unstopped⟩
    rw [← h.inOrder, hqueue, List.append_assoc, List.singleton_append]

theorem Kept.enter {s : State} (h : Kept s) (loop : Loop) : Kept (s.enter loop) := by
  cases loop with
  | drain =>
    show Kept (if s.queue = [] ∨ s.stop = true then _ else s.take)
    split
    · exact ⟨h.inOrder, h.before, h.unstopped⟩
    · exact h.take
  | runForever => exact ⟨h.inOrder, h.before, h.unstopped⟩

theorem Kept.finished {s : State} (h : Kept s) (job : IngestionJob)
    (extracted : Except Exc (List ExtractedChunk)) (draws : Nat → FactDraw) :
    Kept (finished U extractors loop s job extracted draws) := by
  unfold Ingestion.finished
  split
  · exact ⟨h.inOrder, h.before, h.unstopped⟩
  · refine Kept.enter ?_ loop
    exact ⟨h.inOrder, h.before, h.unstopped⟩

/-- The job in `process` was put. -/
def Held (s : State) : Prop := ∀ job, s.phase = .processing job → job ∈ s.put

theorem Kept.held_take {s : State} (h : Kept s) (hqueue : s.queue ≠ []) : Held s.take := by
  obtain ⟨first, rest, hcons⟩ := List.exists_cons_of_ne_nil hqueue
  intro job hjob
  rw [State.take, hcons] at hjob ⊢
  cases hjob
  show first ∈ s.put
  rw [← h.inOrder, hcons]
  exact List.mem_append_right _ List.mem_cons_self

theorem Kept.held_enter {s : State} (h : Kept s) (loop : Loop) : Held (s.enter loop) := by
  cases loop with
  | drain =>
    show Held (if s.queue = [] ∨ s.stop = true then _ else s.take)
    split
    · exact fun job hjob => by cases hjob
    · next hgoes => exact h.held_take (not_or.mp hgoes).1
  | runForever =>
    intro job hjob
    rw [State.enter] at hjob
    cases hstop : s.stop <;> simp [hstop] at hjob

/-- What comes out is a `process` that ran. -/
theorem step_finish {s s' : State} {extracted : Except Exc (List ExtractedChunk)}
    {draws : Nat → FactDraw} (h : step U extractors loop s (.finish extracted draws) = some s') :
    ∃ job, s.phase = .processing job ∧ finished U extractors loop s job extracted draws = s' := by
  rw [step] at h
  split at h
  · next job hphase => exact ⟨job, hphase, Option.some.inj h⟩
  · cases h

theorem kept_step {s s' : State} {l : Label} (h : Kept s) (hstep : step U extractors loop s l = some s') :
    Kept s' := by
  cases l with
  | put job =>
    obtain ⟨-, ⟨⟩⟩ := Option.ite_none_left_eq_some.mp hstep
    refine ⟨?_, ?_, fun hstop => ?_⟩
    · rw [← h.inOrder, List.append_assoc]
    · dsimp only
      split
      · exact h.before.trans (List.prefix_append _ _)
      · next hstop =>
        rw [h.unstopped (Bool.not_eq_true _ ▸ hstop)]
    · dsimp only at hstop ⊢
      rw [hstop, if_neg Bool.false_ne_true, h.unstopped hstop]
  | setStop =>
    obtain ⟨-, ⟨⟩⟩ := Option.ite_none_left_eq_some.mp hstep
    exact ⟨h.inOrder, h.before, fun hstop => by cases hstop⟩
  | call =>
    obtain ⟨-, ⟨⟩⟩ := Option.ite_none_right_eq_some.mp hstep
    exact h.enter loop
  | wake =>
    obtain ⟨-, ⟨⟩⟩ := Option.ite_none_right_eq_some.mp hstep
    exact h.take
  | timeout =>
    obtain ⟨-, ⟨⟩⟩ := Option.ite_none_right_eq_some.mp hstep
    exact h.enter loop
  | finish extracted draws =>
    obtain ⟨job, -, rfl⟩ := step_finish hstep
    exact h.finished job extracted draws

theorem held_step {s s' : State} {l : Label} (h : Kept s) (hheld : Held s)
    (hstep : step U extractors loop s l = some s') : Held s' := by
  cases l with
  | put job =>
    obtain ⟨-, ⟨⟩⟩ := Option.ite_none_left_eq_some.mp hstep
    exact fun busy hbusy => List.mem_append_left _ (hheld busy hbusy)
  | setStop =>
    obtain ⟨-, ⟨⟩⟩ := Option.ite_none_left_eq_some.mp hstep
    exact hheld
  | call =>
    obtain ⟨-, ⟨⟩⟩ := Option.ite_none_right_eq_some.mp hstep
    exact h.held_enter loop
  | wake =>
    obtain ⟨⟨-, hqueue⟩, ⟨⟩⟩ := Option.ite_none_right_eq_some.mp hstep
    exact h.held_take hqueue
  | timeout =>
    obtain ⟨-, ⟨⟩⟩ := Option.ite_none_right_eq_some.mp hstep
    exact h.held_enter loop
  | finish extracted draws =>
    obtain ⟨job, -, rfl⟩ := step_finish hstep
    unfold finished
    split
    · exact fun busy hbusy => by cases hbusy
    · refine Kept.held_enter ?_ loop
      exact ⟨h.inOrder, h.before, h.unstopped⟩

/-! ## Step by step -/

/-- A loop that goes on survives. -/
theorem Survives.of_not_ended {s : State} (h : Kept s) (hended : s.phase.ended = false) :
    Survives loop s := by
  refine ⟨h.inOrder, fun hend => ?_, fun e he => ?_, fun _ hreturned => ?_⟩
  · rw [hended] at hend
    cases hend
  · rw [he] at hended
    cases hended
  · rw [hreturned] at hended
    cases hended

/-- A loop that returns survives when it took what was put before `stop`. -/
theorem survives_returned_iff {s : State} (h : Kept s) (hphase : s.phase = .returned)
    (hstop : loop = .runForever → s.stop = true) :
    Survives loop s ↔ s.beforeStop.length ≤ s.taken.length := by
  constructor
  · intro hs
    exact (hs.complete (by rw [hphase]; rfl)).length_le
  · intro hlen
    refine ⟨h.inOrder, fun _ => ?_, fun e he => ?_, fun hloop _ => hstop hloop⟩
    · exact List.prefix_of_prefix_length_le h.before ⟨s.queue, h.inOrder⟩ hlen
    · rw [hphase] at he
      cases he

theorem phase_take {s : State} (h : s.queue ≠ []) : ∃ job, s.take.phase = .processing job := by
  obtain ⟨job, rest, hqueue⟩ := List.exists_cons_of_ne_nil h
  refine ⟨job, ?_⟩
  rw [State.take, hqueue]

/-- At the loop test, the loop survives exactly if it is settled. -/
theorem survives_enter_iff {s : State} (h : Kept s) : Survives loop (s.enter loop) ↔ Settled s := by
  cases loop with
  | drain =>
    by_cases hthrough : s.queue = [] ∨ s.stop = true
    · have hreturned : s.enter .drain = { s with phase := .returned } := if_pos hthrough
      have hkept : Kept { s with phase := .returned } := ⟨h.inOrder, h.before, h.unstopped⟩
      rw [hreturned, survives_returned_iff hkept rfl fun hloop => by cases hloop]
      rcases hthrough with hqueue | hstop
      · have hlen : s.beforeStop.length ≤ s.taken.length := by
          rw [← List.append_nil s.taken, ← hqueue, h.inOrder]
          exact h.before.length_le
        exact iff_of_true hlen fun _ => hlen
      · exact ⟨fun hlen _ => hlen, fun hs => hs hstop⟩
    · rw [State.enter, if_neg hthrough]
      rw [not_or] at hthrough
      obtain ⟨job, hphase⟩ := phase_take hthrough.1
      exact iff_of_true (.of_not_ended h.take (by rw [hphase]; rfl)) fun hstop => absurd hstop hthrough.2
  | runForever =>
    have hkept : Kept (s.enter .runForever) := h.enter .runForever
    cases hstop : s.stop with
    | true =>
      rw [survives_returned_iff hkept (by rw [State.enter, hstop]; rfl) fun _ => hstop]
      exact ⟨fun hlen _ => hlen, fun hs => hs hstop⟩
    | false =>
      refine iff_of_true (.of_not_ended hkept (by rw [State.enter, hstop]; rfl)) fun h => ?_
      rw [hstop] at h
      cases h

theorem survives_finished_iff {s : State} (h : Kept s) {job : IngestionJob}
    {extracted : Except Exc (List ExtractedChunk)} {draws : Nat → FactDraw} :
    Survives loop (finished U extractors loop s job extracted draws) ↔
      Settled s ∧ Supported U extractors job ∧ extracted.isOk = true := by
  rw [← process_isOk_iff s.hindsight draws]
  unfold finished
  split
  · next e hindsight hprocess =>
    refine iff_of_false (fun hs => hs.notRaised e rfl) ?_
    rw [hprocess]
    rintro ⟨-, hok⟩
    cases hok
  · next facts hindsight hprocess =>
    have hkept : Kept { s with
        unfinished := s.unfinished - 1, hindsight, processed := s.processed + 1 } :=
      ⟨h.inOrder, h.before, h.unstopped⟩
    rw [survives_enter_iff hkept, hprocess]
    exact ⟨fun hs => ⟨hs, rfl⟩, fun hs => hs.1⟩

/-- A step keeps a worker alive exactly when it spares it. -/
theorem survives_step_iff {s s' : State} {l : Label} (h : Kept s)
    (hstep : step U extractors loop s l = some s') : Survives loop s' ↔ Spared U extractors s l := by
  have hkept := kept_step h hstep
  cases l with
  | put job =>
    obtain ⟨hended, ⟨⟩⟩ := Option.ite_none_left_eq_some.mp hstep
    exact iff_of_true (.of_not_ended hkept (Bool.not_eq_true _ ▸ hended)) trivial
  | setStop =>
    obtain ⟨hended, ⟨⟩⟩ := Option.ite_none_left_eq_some.mp hstep
    exact iff_of_true (.of_not_ended hkept (Bool.not_eq_true _ ▸ hended)) trivial
  | call =>
    obtain ⟨-, ⟨⟩⟩ := Option.ite_none_right_eq_some.mp hstep
    exact survives_enter_iff h
  | wake =>
    obtain ⟨⟨-, hqueue⟩, ⟨⟩⟩ := Option.ite_none_right_eq_some.mp hstep
    obtain ⟨job, hphase⟩ := phase_take hqueue
    exact iff_of_true (.of_not_ended hkept (by rw [hphase]; rfl)) trivial
  | timeout =>
    obtain ⟨-, ⟨⟩⟩ := Option.ite_none_right_eq_some.mp hstep
    exact survives_enter_iff h
  | finish extracted draws =>
    obtain ⟨job, hphase, rfl⟩ := step_finish hstep
    rw [survives_finished_iff h, Spared, hphase]
    simp

/-! ## Accounting -/

/-- The job in `process`, if there is one. -/
def Phase.busy : Phase → Nat
  | .processing _ => 1
  | _ => 0

/-- The queue counts the jobs that wait and the one in `process`, if there is one: what `join` waits
for. It holds in every run, since `task_done` stands in a `finally`. -/
def Accounted (s : State) : Prop := s.unfinished = s.queue.length + s.phase.busy

theorem accounted_take {s : State} (h : s.unfinished = s.queue.length) (hqueue : s.queue ≠ []) :
    Accounted s.take := by
  obtain ⟨job, rest, hcons⟩ := List.exists_cons_of_ne_nil hqueue
  rw [hcons] at h
  rw [Accounted, State.take, hcons]
  exact h

theorem accounted_enter {s : State} (h : s.unfinished = s.queue.length) (loop : Loop) :
    Accounted (s.enter loop) := by
  cases loop with
  | drain =>
    show Accounted (if s.queue = [] ∨ s.stop = true then _ else s.take)
    split
    · exact h
    · next hgoes => exact accounted_take h (not_or.mp hgoes).1
  | runForever =>
    cases hstop : s.stop <;> simp [State.enter, Accounted, hstop, Phase.busy, h]

theorem accounted_step {s s' : State} {l : Label} (h : Accounted s)
    (hstep : step U extractors loop s l = some s') : Accounted s' := by
  have hidle : s.phase.busy = 0 → s.unfinished = s.queue.length := by
    intro hbusy
    rw [h, hbusy, Nat.add_zero]
  cases l with
  | put job =>
    obtain ⟨-, ⟨⟩⟩ := Option.ite_none_left_eq_some.mp hstep
    simp only [Accounted, List.length_append, List.length_singleton]
    rw [h, Nat.add_right_comm]
  | setStop =>
    obtain ⟨-, ⟨⟩⟩ := Option.ite_none_left_eq_some.mp hstep
    exact h
  | call =>
    obtain ⟨hphase, ⟨⟩⟩ := Option.ite_none_right_eq_some.mp hstep
    exact accounted_enter (hidle (by rw [hphase]; rfl)) loop
  | wake =>
    obtain ⟨⟨hphase, hqueue⟩, ⟨⟩⟩ := Option.ite_none_right_eq_some.mp hstep
    exact accounted_take (hidle (by rw [hphase]; rfl)) hqueue
  | timeout =>
    obtain ⟨hphase, ⟨⟩⟩ := Option.ite_none_right_eq_some.mp hstep
    exact accounted_enter (hidle (by rw [hphase]; rfl)) loop
  | finish extracted draws =>
    obtain ⟨job, hphase, rfl⟩ := step_finish hstep
    have hdone : s.unfinished - 1 = s.queue.length := by
      rw [h, hphase]
      rfl
    unfold finished
    split
    · exact hdone
    · exact accounted_enter hdone loop

/-- In every run the queue is accounted for, even behind a job that raised. -/
theorem accounted_of_run {s : State} {ls : List Label} (h : run (step U extractors loop) {} ls = some s) :
    Accounted s :=
  Leads.invariant (fun _ _ _ hs hstep => accounted_step hs hstep) ⟨ls, h⟩ rfl

/-! ## What the worker gets to -/

/-- A step of the worker that spares it. -/
def OwnStep (U : Unicode) (extractors : List String) (loop : Loop) (s s' : State) : Prop :=
  ∃ l, (∀ job, l ≠ .put job) ∧ l ≠ .setStop ∧ Spared U extractors s l ∧
    step U extractors loop s l = some s'

/-- `process` runs on the next job, and nothing else changed of the jobs. -/
structure Took (s s' : State) (job : IngestionJob) (rest : List IngestionJob) : Prop where
  phase : s'.phase = .processing job
  queue : s'.queue = rest
  put : s'.put = s.put
  stop : s'.stop = false

theorem settled_of_not_stop {s : State} (h : s.stop = false) : Settled s := by
  intro hstop
  rw [h] at hstop
  cases hstop

theorem took_take {s : State} {job : IngestionJob} {rest : List IngestionJob}
    (hqueue : s.queue = job :: rest) (hstop : s.stop = false) : Took s s.take job rest := by
  rw [State.take, hqueue]
  exact ⟨rfl, rfl, rfl, hstop⟩

theorem finished_nil {s : State} {job : IngestionJob} (draws : Nat → FactDraw)
    (h : Supported U extractors job) : finished U extractors loop s job (.ok []) draws =
      { s with unfinished := s.unfinished - 1, processed := s.processed + 1 }.enter loop := by
  rw [finished, process_nil s.hindsight draws h]

/-- From the loop test with a job that waits, the worker gets to it. -/
theorem took_enter (U : Unicode) (extractors : List String) (loop : Loop) {s : State}
    {job : IngestionJob} {rest : List IngestionJob} (hqueue : s.queue = job :: rest)
    (hstop : s.stop = false) :
    ∃ s', Relation.ReflTransGen (OwnStep U extractors loop) (s.enter loop) s' ∧
      Took s s' job rest := by
  cases loop with
  | drain =>
    have htake : s.enter .drain = s.take := if_neg (by simp [hqueue, hstop])
    rw [htake]
    exact ⟨s.take, .refl, took_take hqueue hstop⟩
  | runForever =>
    have hpolls : (s.enter .runForever).phase = .polling := by rw [State.enter, hstop]; rfl
    have hwaits : (s.enter .runForever).queue = job :: rest := hqueue
    obtain ⟨hphase, htaken, hput, hstop'⟩ := took_take hwaits hstop
    refine ⟨(s.enter .runForever).take, .single ⟨.wake, by simp, by simp, trivial, ?_⟩,
      hphase, htaken, hput, hstop'⟩
    exact if_pos ⟨hpolls, by rw [hwaits]; exact List.cons_ne_nil job rest⟩

/-- While `stop` is not set, a loop that goes on gets to the next job. -/
theorem took_next (U : Unicode) (extractors : List String) (loop : Loop) {s : State}
    {job : IngestionJob} {rest : List IngestionJob}
    (hended : s.phase.ended = false) (hstop : s.stop = false) (hqueue : s.queue = job :: rest)
    (hbusy : ∀ busy, s.phase = .processing busy → Supported U extractors busy) :
    ∃ s', Relation.ReflTransGen (OwnStep U extractors loop) s s' ∧ Took s s' job rest := by
  cases hphase : s.phase with
  | new =>
    obtain ⟨s', hrun, htook⟩ := took_enter U extractors loop hqueue hstop
    exact ⟨s', .head ⟨.call, by simp, by simp, settled_of_not_stop hstop, if_pos hphase⟩ hrun, htook⟩
  | polling =>
    refine ⟨s.take, .single ⟨.wake, by simp, by simp, trivial, if_pos ⟨hphase, ?_⟩⟩,
      took_take hqueue hstop⟩
    rw [hqueue]
    exact List.cons_ne_nil job rest
  | processing busy =>
    -- the job in hand comes out without text, and the loop test is next
    let tested : State := { s with unfinished := s.unfinished - 1, processed := s.processed + 1 }
    obtain ⟨s', hrun, htook⟩ := took_enter U extractors loop
      (show tested.queue = job :: rest from hqueue) hstop
    refine ⟨s', .head ⟨.finish (.ok []) fun _ => ⟨"", 0⟩, by simp, by simp, ?_, ?_⟩ hrun,
      htook.phase, htook.queue, htook.put, htook.stop⟩
    · exact ⟨settled_of_not_stop hstop, fun job hjob => ⟨hbusy job hjob, rfl⟩⟩
    · rw [step, hphase]
      dsimp only
      rw [finished_nil _ (hbusy busy hphase)]
  | returned =>
    rw [hphase] at hended
    cases hended
  | raised e =>
    rw [hphase] at hended
    cases hended

/-- **The worker catches up.** While `stop` is not set, a loop that goes on takes by its own steps every
job put so far, if their files have extractors that answer. -/
theorem catches_up (U : Unicode) (extractors : List String) (loop : Loop) :
    ∀ {queue : List IngestionJob} {s : State}, s.queue = queue →
    s.phase.ended = false → s.stop = false →
    (∀ busy, s.phase = .processing busy → Supported U extractors busy) →
    (∀ job ∈ queue, Supported U extractors job) →
      ∃ s', Relation.ReflTransGen (OwnStep U extractors loop) s s' ∧ s'.queue = [] ∧ s'.put = s.put
  | [], s, hqueue, _, _, _, _ => ⟨s, .refl, hqueue, rfl⟩
  | job :: rest, s, hqueue, hended, hstop, hbusy, hsupported => by
    obtain ⟨t, hrun, htook⟩ := took_next U extractors loop hended hstop hqueue hbusy
    obtain ⟨s', hrun', hempty, hput⟩ := catches_up U extractors loop htook.queue
      (by rw [htook.phase]; rfl)
      htook.stop (fun busy h => by
        rw [htook.phase] at h
        cases h
        exact hsupported _ List.mem_cons_self)
      (fun job hjob => hsupported job (List.mem_cons_of_mem _ hjob))
    exact ⟨s', hrun.trans hrun', hempty, hput.trans htook.put⟩

/-- **Which runs survive.** In every run of a queue and its worker, the loop takes the jobs in order
and none twice, is through only with every job put before `stop` taken, and is never left by an
exception, exactly when no `process` raises and the loop test never finds `stop` set in front of a
job put before it. While `stop` is not set, such a loop gets to every job put so far.

The labels of the others are free, so the theorem covers a producer that never stops. That the loop
catches up is about the worker's own steps, with nobody else moving. -/
theorem worker_survives_iff (U : Unicode) (extractors : List String) (loop : Loop) (ls : List Label) :
    (EachState (step U extractors loop) (Survives loop) {} ls ↔
      EachStep (step U extractors loop) (Spared U extractors) {} ls) ∧
    ∀ s, run (step U extractors loop) {} ls = some s → s.phase.ended = false → s.stop = false →
      (∀ job ∈ s.put, Supported U extractors job) →
        ∃ s', Relation.ReflTransGen (OwnStep U extractors loop) s s' ∧ s'.taken = s.put := by
  have hinit : Kept {} := ⟨rfl, List.prefix_rfl, fun _ => rfl⟩
  constructor
  · exact eachState_iff_eachStep (fun s l s' hs _ hstep => kept_step hs hstep)
      (fun s l s' hs _ hstep => survives_step_iff hs hstep) hinit (.of_not_ended hinit rfl)
  · intro s hrun hended hstop hsupported
    have hkept : Kept s ∧ Held s := Leads.invariant (P := fun s => Kept s ∧ Held s)
      (fun s l s' hs hstep => ⟨kept_step hs.1 hstep, held_step hs.1 hs.2 hstep⟩) ⟨ls, hrun⟩
      ⟨hinit, fun job hjob => by cases hjob⟩
    obtain ⟨s', hsteps, hempty, hput⟩ := catches_up U extractors loop rfl hended hstop
      (fun busy hbusy => hsupported busy (hkept.2 busy hbusy))
      fun job hjob => hsupported job (hkept.1.inOrder ▸ List.mem_append_right _ hjob)
    have hkept' : Kept s' := by
      clear hempty hput
      induction hsteps with
      | refl => exact hkept.1
      | tail _ hown ih =>
        obtain ⟨l, -, -, -, hstep⟩ := hown
        exact kept_step ih hstep
    refine ⟨s', hsteps, ?_⟩
    rw [← hput, ← hkept'.inOrder, hempty, List.append_nil]

/-- A catalog, and a file no extractor takes. -/
def catalog : IngestionJob := { tenantId := "t1", path := { parent := ".", name := "catalog.csv" } }

def notes : IngestionJob := { tenantId := "t1", path := { parent := ".", name := "notes.txt" } }

/-- A file without an extractor ends `run_forever` with `stop` unset, and the catalog behind it is never
taken. -/
theorem not_worker_survives : ¬ ∀ (U : Unicode) (extractors : List String) (loop : Loop) (ls : List Label),
    EachState (step U extractors loop) (Survives loop) {} ls := by
  intro h
  have hrun : run (step Unicode.ascii defaultExtractors .runForever) {}
      [.put notes, .put catalog, .call, .wake, .finish (.ok []) fun _ => ⟨"", 0⟩] = some
        { queue := [catalog], unfinished := 1, phase := .raised (.library "UnsupportedFormatError")
          put := [notes, catalog], beforeStop := [notes, catalog], taken := [notes] } := rfl
  have hlast := (h Unicode.ascii defaultExtractors .runForever _).last hrun
  exact hlast.notRaised _ rfl

end Wapsell.Ingestion
