import Wapsell.Lib.Run

/-!
# Mirrored systems

A system whose steps are a relation, because something it rests on may
answer in more than one way, beside one whose steps are a function. They
mirror each other when related states allow the same labels and lead to
related states. Then a list of labels is a run of both or of neither.

Both directions are asked for. A simulation one way would let the second
system refuse what the first can do, so that an invariant of its runs
would say nothing of the other's; with both, a property of all runs
carries over in either direction, and so does that a run exists.
-/

namespace Lib

variable {σ τ ℓ : Type*}

/-- A run of a system whose steps are a relation. -/
def Path (rel : σ → ℓ → σ → Prop) : σ → List ℓ → σ → Prop
  | s, [], s' => s' = s
  | s, l :: ls, s' => ∃ t, rel s l t ∧ Path rel t ls s'

/-- The two systems take the same labels from related states, to related states. The labels are the
same on both sides on purpose: what is told apart is the states only. -/
structure Mirrors (rel : σ → ℓ → σ → Prop) (step : τ → ℓ → Option τ) (B : σ → τ → Prop) :
    Prop where
  forth : ∀ {s s' t l}, B s t → rel s l s' → ∃ t', step t l = some t' ∧ B s' t'
  back : ∀ {s t t' l}, B s t → step t l = some t' → ∃ s', rel s l s' ∧ B s' t'

namespace Mirrors

variable {rel : σ → ℓ → σ → Prop} {step : τ → ℓ → Option τ} {B : σ → τ → Prop}

theorem forth_run (h : Mirrors rel step B) : ∀ {ls : List ℓ} {s s' : σ} {t : τ}, B s t →
    Path rel s ls s' → ∃ t', run step t ls = some t' ∧ B s' t'
  | [], s, s', t, hB, hpath => by
    cases hpath
    exact ⟨t, rfl, hB⟩
  | l :: ls, s, s', t, hB, hpath => by
    obtain ⟨u, hrel, hrest⟩ := hpath
    obtain ⟨v, hstep, hB'⟩ := h.forth hB hrel
    obtain ⟨t', hrun, hB''⟩ := h.forth_run hB' hrest
    exact ⟨t', run_cons_eq_some.mpr ⟨v, hstep, hrun⟩, hB''⟩

theorem back_run (h : Mirrors rel step B) : ∀ {ls : List ℓ} {s : σ} {t t' : τ}, B s t →
    run step t ls = some t' → ∃ s', Path rel s ls s' ∧ B s' t'
  | [], s, t, t', hB, hrun => by
    cases hrun
    exact ⟨s, rfl, hB⟩
  | l :: ls, s, t, t', hB, hrun => by
    obtain ⟨v, hstep, hrest⟩ := run_cons_eq_some.mp hrun
    obtain ⟨u, hrel, hB'⟩ := h.back hB hstep
    obtain ⟨s', hpath, hB''⟩ := h.back_run hB' hrest
    exact ⟨s', ⟨u, hrel, hpath⟩, hB''⟩

end Mirrors

end Lib
