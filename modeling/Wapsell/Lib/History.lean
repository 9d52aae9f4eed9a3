import Mathlib.Data.List.Basic

/-!
# Histories

The steps a deterministic system takes on a list of labels, and what must
have come before a step: if only a cause leads out of a set of states, then
no state outside of it is met without an earlier cause.

A history keeps the states a label was taken between, so that a
condition on a step can speak of the state before it. The lemma about
causes is the contrapositive of an invariant and spares its user the
search for the step that broke it: to show that something must have
happened before, it is enough that nothing else leads out of the states
in which it has not.
-/

namespace Lib

variable {σ ℓ τ : Type*}

/-- One step of a history: the label with the states on both sides, which is more than a run of
labels gives and less than a trace of the whole system. -/
structure Taken (σ ℓ : Type*) where
  before : σ
  label : ℓ
  after : σ

/-- The same step, its states seen through `f`. -/
def Taken.map (f : σ → τ) (t : Taken σ ℓ) : Taken τ ℓ := ⟨f t.before, t.label, f t.after⟩

variable (next : σ → ℓ → σ)

/-- The steps from `s` on. -/
def history : σ → List ℓ → List (Taken σ ℓ)
  | _, [] => []
  | s, l :: ls => ⟨s, l, next s l⟩ :: history (next s l) ls

variable {next}

theorem label_history (s : σ) (ls : List ℓ) : (history next s ls).map Taken.label = ls := by
  induction ls generalizing s with
  | nil => rfl
  | cons l ls ih => rw [history, List.map_cons, ih]

/-- Every step of a history is one of the system. -/
theorem after_of_mem_history {s : σ} {ls : List ℓ} {t : Taken σ ℓ}
    (h : t ∈ history next s ls) : t.after = next t.before t.label := by
  induction ls generalizing s with
  | nil => cases h
  | cons l ls ih =>
    rcases List.mem_cons.mp h with rfl | h
    · rfl
    · exact ih h

section Causes

variable {early : σ → Prop} (cause : σ → ℓ → Prop)

/-- Before a state that only a cause can lead to, there was a cause. The step lemma is all that is
to be shown of the system; the position of the cause comes out of the induction. -/
theorem exists_earlier (hstep : ∀ s l, early s → ¬ cause s l → early (next s l)) {s : σ}
    {ls : List ℓ} (hs : early s) {i : Nat} {t : Taken σ ℓ}
    (ht : (history next s ls)[i]? = some t) (hlate : ¬ early t.before) :
    ∃ j < i, ∃ u, (history next s ls)[j]? = some u ∧ cause u.before u.label := by
  induction ls generalizing s i with
  | nil => cases ht
  | cons l ls ih =>
    cases i with
    | zero =>
      cases ht
      exact absurd hs hlate
    | succ i =>
      by_cases hcause : cause s l
      · exact ⟨0, Nat.zero_lt_succ i, ⟨s, l, next s l⟩, rfl, hcause⟩
      · obtain ⟨j, hj, u, hu, hcause⟩ := ih (hstep s l hs hcause) ht
        exact ⟨j + 1, Nat.succ_lt_succ hj, u, hu, hcause⟩

/-- A step into such a state is a cause, or comes behind one. -/
theorem exists_cause (hstep : ∀ s l, early s → ¬ cause s l → early (next s l)) {s : σ}
    {ls : List ℓ} (hs : early s) {i : Nat} {t : Taken σ ℓ}
    (ht : (history next s ls)[i]? = some t) (hlate : ¬ early t.after) :
    ∃ j ≤ i, ∃ u, (history next s ls)[j]? = some u ∧ cause u.before u.label := by
  by_cases hearly : early t.before
  · refine ⟨i, Nat.le_refl i, t, ht, ?_⟩
    by_contra hcause
    have hafter := after_of_mem_history (List.mem_of_getElem? ht)
    exact hlate (hafter ▸ hstep t.before t.label hearly hcause)
  · obtain ⟨j, hj, hu⟩ := exists_earlier cause hstep hs ht hearly
    exact ⟨j, Nat.le_of_lt hj, hu⟩

end Causes

end Lib
