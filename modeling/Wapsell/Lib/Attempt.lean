import Mathlib.Data.List.Basic

/-!
# Calls that may raise

Straight-line code over services that may raise: each call is recorded when
it is attempted, whether it answers or not. What a service does is an
argument of the call, so a theorem over all outcomes is one over every
pattern of failures.

`Runs` is the postcondition of a piece of code, of its outcome and of the
calls it attempts; `Answers` is the one of code that does not raise. The
rules compose both along `>>=` and out of a `try`.

The calls are recorded at the attempt, not at the answer, because the
questions asked of such code are what was called although something
before it failed. The postconditions are over the calls of the code
alone and hold behind any calls before it, so that rules compose without
carrying what came earlier.

**What this does not establish.** The order in time of calls that run
beside one another: the code is a straight line, and code that awaits in
between is a matter of `Lib.Run`. Nor does a service here see what
another was told; where that matters the outcomes are tied together by
the user's own hypotheses.
-/

namespace Lib

universe u

/-- Code that may raise an `ε`, with the calls it has attempted so far. -/
abbrev Attempting (κ ε : Type u) := ExceptT ε (StateM (List κ))

section Rules

variable {κ ε α β : Type u}

/-- One call, with what comes of it. The outcome is an argument and not computed, so nothing is
assumed of the service: a theorem for every outcome is one for every service. -/
def attempt (call : κ) (outcome : Except ε α) : Attempting κ ε α :=
  fun before => (outcome, before ++ [call])

/-- A computation that calls no service, and may raise. -/
def computed (outcome : Except ε α) : Attempting κ ε α := fun before => (outcome, before)

/-- `try: body except Exception as e: handler`. -/
def tryExcept (body : Attempting κ ε α) (handler : ε → Attempting κ ε α) : Attempting κ ε α :=
  tryCatch body handler

/-- What code does behind the calls before it. -/
def exec (m : Attempting κ ε α) (before : List κ) : Except ε α × List κ := m before

theorem exec_bind (m : Attempting κ ε α) (f : α → Attempting κ ε β) (before : List κ) :
    exec (m >>= f) before = match exec m before with
      | (.ok a, calls) => exec (f a) calls
      | (.error e, calls) => (.error e, calls) := by
  show ExceptT.bindCont f (exec m before).1 (exec m before).2 = _
  rcases exec m before with ⟨_ | _, calls⟩
  · rfl
  · rfl

theorem exec_tryExcept (m : Attempting κ ε α) (handler : ε → Attempting κ ε α)
    (before : List κ) :
    exec (tryExcept m handler) before = match exec m before with
      | (.ok a, calls) => (.ok a, calls)
      | (.error e, calls) => exec (handler e) calls := by
  show (match (exec m before).1 with
    | .ok a => (pure (.ok a) : StateM (List κ) (Except ε α))
    | .error e => handler e) (exec m before).2 = _
  rcases exec m before with ⟨_ | _, calls⟩
  · rfl
  · rfl

/-- Whatever was called before it, the code comes out as `R` says of its outcome and of the calls
it attempts. -/
def Runs (m : Attempting κ ε α) (R : Except ε α → List κ → Prop) : Prop :=
  ∀ before, ∃ outcome calls, exec m before = (outcome, before ++ calls) ∧ R outcome calls

/-- The code does not raise, and `Q` holds of its answer and of the calls it attempts. This is what
is asked of a handler that has to come to its end whatever fails in it. -/
def Answers (m : Attempting κ ε α) (Q : α → List κ → Prop) : Prop :=
  Runs m fun outcome calls => ∃ a, outcome = .ok a ∧ Q a calls

/-- The code attempts calls of `P` only, and `Q` holds of its answer if it has one. -/
def Within (m : Attempting κ ε α) (P : κ → Prop) (Q : α → Prop) : Prop :=
  Runs m fun outcome calls => (∀ c ∈ calls, P c) ∧ ∀ a, outcome = .ok a → Q a

theorem Runs.mono {m : Attempting κ ε α} {R S : Except ε α → List κ → Prop} (h : Runs m R)
    (hRS : ∀ outcome calls, R outcome calls → S outcome calls) : Runs m S := by
  intro before
  obtain ⟨outcome, calls, hrun, hR⟩ := h before
  exact ⟨outcome, calls, hrun, hRS outcome calls hR⟩

theorem Answers.mono {m : Attempting κ ε α} {Q S : α → List κ → Prop} (h : Answers m Q)
    (hQS : ∀ a calls, Q a calls → S a calls) : Answers m S := by
  apply Runs.mono h
  rintro outcome calls ⟨a, ha, hQ⟩
  exact ⟨a, ha, hQS a calls hQ⟩

theorem runs_attempt (call : κ) (outcome : Except ε α) :
    Runs (attempt call outcome) fun r calls => r = outcome ∧ calls = [call] := by
  intro before
  exact ⟨outcome, [call], rfl, rfl, rfl⟩

theorem runs_computed (outcome : Except ε α) :
    Runs (computed outcome : Attempting κ ε α) fun r calls => r = outcome ∧ calls = [] := by
  intro before
  refine ⟨outcome, [], ?_, rfl, rfl⟩
  rw [List.append_nil]
  rfl

theorem answers_pure {Q : α → List κ → Prop} {a : α} (h : Q a []) :
    Answers (pure a : Attempting κ ε α) Q := by
  intro before
  refine ⟨.ok a, [], ?_, a, rfl, h⟩
  rw [List.append_nil]
  rfl

/-- Code after an answer goes on from it; code after an exception does not run. -/
theorem Runs.bind {m : Attempting κ ε α} {f : α → Attempting κ ε β}
    {R : Except ε α → List κ → Prop} {S : Except ε β → List κ → Prop} (h : Runs m R)
    (hok : ∀ a calls, R (.ok a) calls → Runs (f a) fun outcome calls' => S outcome (calls ++ calls'))
    (herror : ∀ e calls, R (.error e) calls → S (.error e) calls) : Runs (m >>= f) S := by
  intro before
  obtain ⟨outcome, calls, hrun, hR⟩ := h before
  rw [exec_bind, hrun]
  cases outcome with
  | ok a =>
    obtain ⟨outcome', calls', hrun', hS⟩ := hok a calls hR (before ++ calls)
    refine ⟨outcome', calls ++ calls', ?_, hS⟩
    rw [← List.append_assoc]
    exact hrun'
  | error e => exact ⟨.error e, calls, rfl, herror e calls hR⟩

theorem Answers.bind {m : Attempting κ ε α} {f : α → Attempting κ ε β} {Q : α → List κ → Prop}
    {S : β → List κ → Prop} (h : Answers m Q)
    (hok : ∀ a calls, Q a calls → Answers (f a) fun b calls' => S b (calls ++ calls')) :
    Answers (m >>= f) S := by
  refine Runs.bind h ?_ ?_
  · rintro a calls ⟨a', ha, hQ⟩
    cases ha
    exact hok a calls hQ
  · rintro e calls ⟨a', ha, -⟩
    cases ha

/-- A body under a `try` whose handler does not raise. The calls of the body stay attempted when the
handler takes over, which is why `S` is of both lists together. -/
theorem Runs.tryExcept {m : Attempting κ ε α} {handler : ε → Attempting κ ε α}
    {R : Except ε α → List κ → Prop} {S : α → List κ → Prop} (h : Runs m R)
    (hok : ∀ a calls, R (.ok a) calls → S a calls)
    (herror : ∀ e calls, R (.error e) calls →
      Answers (handler e) fun a calls' => S a (calls ++ calls')) :
    Answers (Lib.tryExcept m handler) S := by
  intro before
  obtain ⟨outcome, calls, hrun, hR⟩ := h before
  rw [exec_tryExcept, hrun]
  cases outcome with
  | ok a => exact ⟨.ok a, calls, rfl, a, rfl, hok a calls hR⟩
  | error e =>
    obtain ⟨outcome', calls', hrun', hS⟩ := herror e calls hR (before ++ calls)
    refine ⟨outcome', calls ++ calls', ?_, hS⟩
    rw [← List.append_assoc]
    exact hrun'

/-- A body that answers does not come to the handler. -/
theorem Answers.tryExcept {m : Attempting κ ε α} {handler : ε → Attempting κ ε α}
    {Q : α → List κ → Prop} (h : Answers m Q) : Answers (Lib.tryExcept m handler) Q := by
  refine Runs.tryExcept h ?_ ?_
  · rintro a calls ⟨a', ha, hQ⟩
    cases ha
    exact hQ
  · rintro e calls ⟨a', ha, -⟩
    cases ha

/-- The handler of a call that raises. -/
theorem answers_try_error {call : κ} {e : ε} {f : α → Attempting κ ε β}
    {handler : ε → Attempting κ ε β} {Q : β → List κ → Prop}
    (h : Answers (handler e) fun b calls => Q b (call :: calls)) :
    Answers (Lib.tryExcept (attempt call (.error e) >>= f) handler) Q := by
  refine Runs.tryExcept (R := fun outcome calls => outcome = .error e ∧ calls = [call]) ?_ ?_ ?_
  · refine (runs_attempt call (.error e)).bind ?_ ?_
    · rintro a calls ⟨ha, -⟩
      cases ha
    · rintro e' calls ⟨he, hcalls⟩
      cases he
      exact ⟨rfl, hcalls⟩
  · rintro b calls ⟨hb, -⟩
    cases hb
  · rintro e' calls ⟨he, rfl⟩
    cases he
    exact h

/-- A call that answers. -/
theorem answers_attempt (call : κ) (a : α) :
    Answers (attempt call (.ok a) : Attempting κ ε α) fun b calls => b = a ∧ calls = [call] := by
  intro before
  exact ⟨.ok a, [call], rfl, a, rfl, rfl, rfl⟩

theorem answers_computed (a : α) :
    Answers (computed (.ok a) : Attempting κ ε α) fun b calls => b = a ∧ calls = [] := by
  intro before
  refine ⟨.ok a, [], ?_, a, rfl, rfl, rfl⟩
  rw [List.append_nil]
  rfl

/-- One call under a `try` that answers a default. -/
theorem answers_try_attempt (call : κ) (outcome : Except ε α) (default : α) :
    Answers (Lib.tryExcept (attempt call outcome) fun _ => pure default) fun a calls =>
      calls = [call] ∧ (outcome = .ok a ∨ (∃ e, outcome = .error e) ∧ a = default) := by
  refine (runs_attempt call outcome).tryExcept ?_ ?_
  · rintro a calls ⟨ha, hcalls⟩
    exact ⟨hcalls, .inl ha.symm⟩
  · rintro e calls ⟨he, rfl⟩
    exact answers_pure ⟨rfl, .inr ⟨⟨e, he.symm⟩, rfl⟩⟩

/-! ## Code that keeps to some calls -/

variable {P : κ → Prop} {Q : α → Prop} {S : β → Prop}

theorem within_attempt {call : κ} (h : P call) (outcome : Except ε α) :
    Within (attempt call outcome) P fun a => outcome = .ok a := by
  apply (runs_attempt call outcome).mono
  rintro r calls ⟨rfl, rfl⟩
  exact ⟨List.forall_mem_singleton.mpr h, fun _ ha => ha⟩

theorem within_computed (outcome : Except ε α) :
    Within (computed outcome : Attempting κ ε α) P fun a => outcome = .ok a := by
  apply (runs_computed outcome).mono
  rintro r calls ⟨rfl, rfl⟩
  exact ⟨List.forall_mem_nil P, fun _ ha => ha⟩

/-- Code that answers within `P` is within `P`. -/
theorem Answers.within {m : Attempting κ ε α}
    (h : Answers m fun a calls => (∀ c ∈ calls, P c) ∧ Q a) : Within m P Q := by
  apply Runs.mono h
  rintro outcome calls ⟨a, rfl, hcalls, ha⟩
  refine ⟨hcalls, ?_⟩
  intro a' heq
  cases heq
  exact ha

theorem within_pure {a : α} (h : Q a) : Within (pure a : Attempting κ ε α) P Q :=
  (answers_pure (Q := fun a calls => (∀ c ∈ calls, P c) ∧ Q a) ⟨List.forall_mem_nil P, h⟩).within

theorem Within.bind {m : Attempting κ ε α} {f : α → Attempting κ ε β} (h : Within m P Q)
    (hf : ∀ a, Q a → Within (f a) P S) : Within (m >>= f) P S := by
  refine Runs.bind h ?_ ?_
  · rintro a calls ⟨hcalls, ha⟩
    apply Runs.mono (hf a (ha a rfl))
    rintro outcome calls' ⟨hcalls', hS⟩
    exact ⟨List.forall_mem_append.mpr ⟨hcalls, hcalls'⟩, hS⟩
  · rintro e calls ⟨hcalls, -⟩
    refine ⟨hcalls, ?_⟩
    intro b heq
    cases heq

/-- Under a `try` that answers a default, it answers. -/
theorem Within.tryExcept {m : Attempting κ ε α} {handler : ε → α} (h : Within m P Q)
    (hhandler : ∀ e, Q (handler e)) :
    Answers (Lib.tryExcept m fun e => pure (handler e)) fun a calls =>
      (∀ c ∈ calls, P c) ∧ Q a := by
  refine Runs.tryExcept h ?_ ?_
  · rintro a calls ⟨hcalls, ha⟩
    exact ⟨hcalls, ha a rfl⟩
  · rintro e calls ⟨hcalls, -⟩
    apply answers_pure
    rw [List.append_nil]
    exact ⟨hcalls, hhandler e⟩

end Rules

end Lib
