import Mathlib.Data.List.Basic
import Mathlib.Data.Option.Basic

/-!
# Runs of a labelled step function

A system is a partial step function: `step s l = some s'` when the label
`l` may be taken in `s`, and then it leads to `s'`. All nondeterminism sits
in the choice of labels, so an interleaving is a list of labels and a result
over every interleaving is one over every list.

Two ways to speak about a run are defined, both by recursion on the
labels: `EachState`, what holds of every state the run passes, and
`EachStep`, what holds of every label where it is taken. The rules below
are the ones a safety proof needs: an invariant from one preservation
lemma, an invariant under a guard on the steps, and the exact form, where
the guard of a step is equivalent to the invariant of the state it leads
to.

A label that may not be taken ends the run with no state, and so a result
over all lists of labels says nothing about it: guards of the code, a
lock or a status for instance, are modelled by labels that are refused,
not by hypotheses.

**What this does not establish.** A run is finite, so nothing here is
about liveness; where a loop must come to something, the model has to
say so by a measure or by a run that leads there.
-/

namespace Lib

variable {σ ℓ : Type*} (step : σ → ℓ → Option σ)

/-- The state a list of labels leads to, `none` when one of them may not be taken. -/
def run : σ → List ℓ → Option σ
  | s, [] => some s
  | s, l :: ls => (step s l).bind fun s' => run s' ls

/-- `s'` is reachable from `s`. -/
def Leads (s s' : σ) : Prop := ∃ ls, run step s ls = some s'

/-- The state a list of labels leads to, where they may all be taken. -/
def reached (s : σ) (ls : List ℓ) : σ := (run step s ls).getD s

/-- Every state the run passes, the first and the last included, has `P`. It is the form for a
safety property whose failure may be repaired by a later step: the last state alone would not show
it. -/
def EachState (P : σ → Prop) : σ → List ℓ → Prop
  | s, [] => P s
  | s, l :: ls => P s ∧ ∀ s', step s l = some s' → EachState P s' ls

/-- Every label the run takes is taken in a state where `C` allows it. The condition is on the state
before the step, so it can be checked before acting and does not mention what the step brings
about. -/
def EachStep (C : σ → ℓ → Prop) : σ → List ℓ → Prop
  | _, [] => True
  | s, l :: ls => ∀ s', step s l = some s' → C s l ∧ EachStep C s' ls

/-- What the labels of a run add up to, each weighed in the state it is taken in. It ties a counter
in the state to the number of times something happened. -/
def tally (w : σ → ℓ → Nat) : σ → List ℓ → Nat
  | _, [] => 0
  | s, l :: ls => w s l + ((step s l).elim 0 fun s' => tally w s' ls)

variable {step}

@[simp] theorem run_nil (s : σ) : run step s [] = some s := rfl

theorem run_cons (s : σ) (l : ℓ) (ls : List ℓ) :
    run step s (l :: ls) = (step s l).bind fun s' => run step s' ls := rfl

/-- A run that succeeds took its first label and ran the rest. -/
theorem run_cons_eq_some {s s' : σ} {l : ℓ} {ls : List ℓ} :
    run step s (l :: ls) = some s' ↔ ∃ t, step s l = some t ∧ run step t ls = some s' := by
  rw [run_cons, Option.bind_eq_some_iff]

theorem run_append (s : σ) (ls ms : List ℓ) :
    run step s (ls ++ ms) = (run step s ls).bind fun s' => run step s' ms := by
  induction ls generalizing s with
  | nil => rfl
  | cons l ls ih =>
    rw [List.cons_append, run_cons, run_cons]
    cases step s l with
    | none => rfl
    | some t => exact ih t

theorem Leads.of_step {s s' : σ} {l : ℓ} (h : step s l = some s') : Leads step s s' :=
  ⟨[l], by rw [run_cons, h]; rfl⟩

theorem Leads.trans {s t u : σ} (h : Leads step s t) (h' : Leads step t u) : Leads step s u := by
  obtain ⟨ls, hls⟩ := h
  obtain ⟨ms, hms⟩ := h'
  refine ⟨ls ++ ms, ?_⟩
  rw [run_append, hls]
  exact hms

theorem run_eq_some_reached {s : σ} {ls : List ℓ} (h : (run step s ls).isSome) :
    run step s ls = some (reached step s ls) := by
  obtain ⟨t, ht⟩ := Option.isSome_iff_exists.mp h
  rw [reached, ht]
  rfl

theorem leads_reached {s : σ} {ls : List ℓ} (h : (run step s ls).isSome) :
    Leads step s (reached step s ls) :=
  ⟨ls, run_eq_some_reached h⟩

/-- The last label of a run is a step between two reached states. -/
theorem step_reached {s : σ} {ls : List ℓ} {l : ℓ} (h : (run step s (ls ++ [l])).isSome) :
    step (reached step s ls) l = some (reached step s (ls ++ [l])) := by
  obtain ⟨t, ht⟩ := Option.isSome_iff_exists.mp h
  rw [reached, reached, ht]
  rw [run_append] at ht
  obtain ⟨u, hu, hl⟩ := Option.bind_eq_some_iff.mp ht
  obtain ⟨v, hv, hnil⟩ := run_cons_eq_some.mp hl
  cases hnil
  rw [hu]
  exact hv

/-- What holds at the end of a run and not at its start became true in one of its steps. -/
theorem exists_step_into {P : σ → Prop} : ∀ {ls : List ℓ} {s s' : σ}, run step s ls = some s' →
    ¬ P s → P s' → ∃ before l after t t', ls = before ++ l :: after ∧ run step s before = some t ∧
      step t l = some t' ∧ ¬ P t ∧ P t'
  | [], s, s', hrun, hs, hs' => by
    cases hrun
    exact absurd hs' hs
  | l :: ls, s, s', hrun, hs, hs' => by
    obtain ⟨t, hstep, hrest⟩ := run_cons_eq_some.mp hrun
    by_cases ht : P t
    · exact ⟨[], l, ls, s, t, rfl, rfl, hstep, hs, ht⟩
    · obtain ⟨before, l', after, u, u', rfl, hbefore, hu⟩ := exists_step_into hrest ht hs'
      exact ⟨l :: before, l', after, u, u', rfl, run_cons_eq_some.mpr ⟨t, hstep, hbefore⟩, hu⟩

/-- Two guards along one run. -/
theorem EachStep.and {C D : σ → ℓ → Prop} :
    ∀ {s : σ} {ls : List ℓ}, EachStep step C s ls → EachStep step D s ls →
      EachStep step (fun s l => C s l ∧ D s l) s ls
  | _, [], _, _ => trivial
  | _, _ :: _, hC, hD => fun s' hs' =>
    ⟨⟨(hC s' hs').1, (hD s' hs').1⟩, EachStep.and (hC s' hs').2 (hD s' hs').2⟩

/-- A guard that can be evaluated can be evaluated along a run. -/
instance EachStep.decidable {C : σ → ℓ → Prop} [∀ s l, Decidable (C s l)] :
    ∀ s ls, Decidable (EachStep step C s ls)
  | _, [] => .isTrue trivial
  | s, l :: ls =>
    match h : step s l with
    | none => .isTrue fun s' hs' => by rw [h] at hs'; cases hs'
    | some s' =>
      have : Decidable (EachStep step C s' ls) := EachStep.decidable s' ls
      decidable_of_iff (C s l ∧ EachStep step C s' ls) (by
        simp only [EachStep, h, Option.some.injEq, forall_eq'])

/-- What every step preserves holds wherever a run leads. -/
theorem Leads.invariant {P : σ → Prop}
    (hstep : ∀ s l s', P s → step s l = some s' → P s') {s s' : σ}
    (h : Leads step s s') (hs : P s) : P s' := by
  obtain ⟨ls, hls⟩ := h
  induction ls generalizing s with
  | nil =>
    cases hls
    exact hs
  | cons l ls ih =>
    obtain ⟨t, ht, hrest⟩ := run_cons_eq_some.mp hls
    exact ih (hstep s l t hs ht) hrest

/-- A counter that every step raises by its weight is raised by a run by what its labels add up
to. -/
theorem run_tally {V : σ → Int → Prop} {w : σ → ℓ → Nat}
    (hstep : ∀ s l s' n, V s n → step s l = some s' → V s' (n + w s l)) {s s' : σ} {ls : List ℓ}
    {n : Int} (hs : V s n) (h : run step s ls = some s') : V s' (n + tally step w s ls) := by
  induction ls generalizing s n with
  | nil =>
    cases h
    rw [tally, Int.natCast_zero, Int.add_zero]
    exact hs
  | cons l ls ih =>
    obtain ⟨t, ht, hrest⟩ := run_cons_eq_some.mp h
    rw [tally, ht, Option.elim_some, Int.natCast_add, ← Int.add_assoc]
    exact ih (hstep s l t n hs ht) hrest

/-- The first and the last state of a run are among its states. -/
theorem EachState.head {P : σ → Prop} {s : σ} {ls : List ℓ} (h : EachState step P s ls) : P s := by
  cases ls with
  | nil => exact h
  | cons l ls => exact h.1

/-- A property of every state holds in particular of the state the run ends in. -/
theorem EachState.last {P : σ → Prop} {s s' : σ} {ls : List ℓ} (h : EachState step P s ls)
    (hrun : run step s ls = some s') : P s' := by
  induction ls generalizing s with
  | nil =>
    cases hrun
    exact h
  | cons l ls ih =>
    obtain ⟨t, ht, hrest⟩ := run_cons_eq_some.mp hrun
    exact ih (h.2 t ht) hrest

/-- Past a step that is taken, every state is a state of the rest. -/
theorem eachState_cons {P : σ → Prop} {s s' : σ} {l : ℓ} {ls : List ℓ} (hP : P s)
    (hs' : step s l = some s') : EachState step P s (l :: ls) ↔ EachState step P s' ls := by
  refine ⟨fun h => h.2 s' hs', fun h => ⟨hP, fun t ht => ?_⟩⟩
  cases hs'.symm.trans ht
  exact h

theorem EachState.mono {P Q : σ → Prop} (hPQ : ∀ s, P s → Q s) :
    ∀ {s : σ} {ls : List ℓ}, EachState step P s ls → EachState step Q s ls
  | s, [], h => hPQ s h
  | s, _ :: _, h => ⟨hPQ s h.1, fun s' hs' => EachState.mono hPQ (h.2 s' hs')⟩

theorem EachStep.mono {C Q : σ → ℓ → Prop} (hCQ : ∀ s l, C s l → Q s l) :
    ∀ {s : σ} {ls : List ℓ}, EachStep step C s ls → EachStep step Q s ls
  | _, [], _ => trivial
  | s, l :: _, h => fun s' hs' => ⟨hCQ s l (h s' hs').1, EachStep.mono hCQ (h s' hs').2⟩

/-- What a guard means in the states of a run holds of the steps that meet it. -/
theorem EachStep.of_eachState {P : σ → Prop} {C Q : σ → ℓ → Prop}
    (hCQ : ∀ s l, P s → C s l → Q s l) :
    ∀ {s : σ} {ls : List ℓ}, EachState step P s ls → EachStep step C s ls → EachStep step Q s ls
  | _, [], _, _ => trivial
  | s, l :: _, hP, hC => fun s' hs' =>
    ⟨hCQ s l hP.1 (hC s' hs').1, EachStep.of_eachState hCQ (hP.2 s' hs') (hC s' hs').2⟩

/-- Two guards that say the same of every step that is taken say the same of a run. `I` is what may
be assumed of the states. -/
theorem eachStep_congr {I : σ → Prop} {C D : σ → ℓ → Prop}
    (hI : ∀ s l s', I s → step s l = some s' → I s')
    (h : ∀ s l s', I s → step s l = some s' → (C s l ↔ D s l)) :
    ∀ {s : σ} {ls : List ℓ}, I s → (EachStep step C s ls ↔ EachStep step D s ls)
  | _, [], _ => Iff.rfl
  | s, l :: _, hs => by
    refine forall_congr' fun s' => forall_congr' fun hs' => ?_
    exact and_congr (h s l s' hs hs') (eachStep_congr hI h (hI s l s' hs hs'))

/-- An invariant of the steps that meet a guard holds in every state of a run whose steps all
meet it. -/
theorem eachState_of_guarded {P : σ → Prop} {C : σ → ℓ → Prop}
    (hstep : ∀ s l s', P s → C s l → step s l = some s' → P s') :
    ∀ {s : σ} {ls : List ℓ}, P s → EachStep step C s ls → EachState step P s ls
  | _, [], hs, _ => hs
  | s, l :: _, hs, hC =>
    ⟨hs, fun s' hs' =>
      eachState_of_guarded hstep (hstep s l s' hs (hC s' hs').1 hs') (hC s' hs').2⟩

/-- **The exact guard.** When a step keeps `P` exactly if `C` allows it, every state of a run has
`P` exactly if every label it takes was allowed where it was taken. `I` is what both directions may
assume of the states. -/
theorem eachState_iff_eachStep {I P : σ → Prop} {C : σ → ℓ → Prop}
    (hI : ∀ s l s', I s → P s → step s l = some s' → I s')
    (hexact : ∀ s l s', I s → P s → step s l = some s' → (P s' ↔ C s l)) :
    ∀ {s : σ} {ls : List ℓ}, I s → P s → (EachState step P s ls ↔ EachStep step C s ls)
  | s, [], _, hP => iff_of_true hP trivial
  | s, l :: ls, hs, hP => by
    constructor
    · rintro ⟨_, hrest⟩ s' hs'
      have hP' := (hrest s' hs').head
      refine ⟨(hexact s l s' hs hP hs').mp hP', ?_⟩
      exact (eachState_iff_eachStep hI hexact (hI s l s' hs hP hs') hP').mp (hrest s' hs')
    · intro hC
      refine ⟨hP, fun s' hs' => ?_⟩
      obtain ⟨hCl, hrest⟩ := hC s' hs'
      have hP' := (hexact s l s' hs hP hs').mpr hCl
      exact (eachState_iff_eachStep hI hexact (hI s l s' hs hP hs') hP').mpr hrest

end Lib
