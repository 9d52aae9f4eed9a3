import Wapsell.Tenant.Invariant

/-!
# Lifecycle operations change only the status

A lifecycle operation writes back the whole row it read before the await.
Against the table in which it sets the status and nothing else, the code
agrees as long as the row it holds is still, but for the status, the row
that is there. A `PATCH` or a `PUT` that lands meanwhile is undone.

What is undone is whatever the row had been given between the read and
the write: a number, a prompt, a model. The comparison leaves out the
status, since two lifecycle operations side by side are allowed to
overwrite each other's.

What this does not establish: which of the two writes should win. It
says when no write is lost.
-/

namespace Wapsell.Tenants

open Lib Py Api Onboarding

/-- The table is what it would be if lifecycle operations only set the status. -/
def StatusOnly (s : System) : Prop := s.world.repo = s.expected

/-- The row a returning lifecycle operation holds differs from the current one in the status at
most. -/
def RowUnchanged (s : System) : Label → Prop
  | .spawned i fails => fails ≠ some .spawn → fails ≠ some .setStatus → ∀ flight op held row,
      s.flights.get? i = some flight → flight.pending = some (op, held) →
      s.world.repo.get? held.id = some row → withStatus held row.status = row
  | _ => True

/-- Two rows with one status are the same when they are the same with any other. -/
theorem withStatus_inj_iff {t row : Tenant} (status : TenantStatus) :
    withStatus t status = withStatus row status ↔ withStatus t row.status = row := by
  constructor
  · intro h
    have hrow : withStatus (withStatus row status) row.status = row := rfl
    rw [← hrow, ← h]
    rfl
  · intro h
    rw [← h]
    rfl

variable {U : Unicode} {s s' : System}

/-- One return of a spawner. -/
theorem resume_statusOnly_iff (h : Inv s) (hP : StatusOnly s) {i : Nat} {fails : Option Stage}
    {flight : Flight} (hi : s.flights.get? i = some flight)
    (hs : resume s i fails flight = some s') :
    StatusOnly s' ↔ RowUnchanged s (.spawned i fails) := by
  obtain ⟨op, held, hpending, hrepo, hexpected, -⟩ := resume_cases hs
  obtain ⟨row, hrow, -⟩ := h.held i flight op held hi hpending
  rw [StatusOnly, hrepo, hexpected, System.expectedAfter]
  rcases finish_write op hrow fails with
    ⟨hspawn, hstatus, hreturned, hfinish⟩ | ⟨hfails, hreturned, hfinish⟩
  · have hguard : RowUnchanged s (.spawned i fails) ↔ withStatus held row.status = row := by
      constructor
      · intro hrow'
        exact hrow' hspawn hstatus flight op held row hi hpending hrow
      · intro hsame _ _ flight' op' held' row' hi' hpending' hrow'
        cases hi.symm.trans hi'
        cases hpending.symm.trans hpending'
        cases hrow.symm.trans hrow'
        exact hsame
    have hset : setStatus s.expected held.id op.status =
        s.world.repo.set held.id (withStatus row op.status) := by
      rw [← show s.world.repo = s.expected from hP, setStatus, hrow]
    rw [hreturned, hfinish, hguard, ← withStatus_inj_iff op.status]
    show s.world.repo.set held.id _ = setStatus s.expected held.id op.status ↔ _
    rw [hset]
    constructor
    · intro heq
      have hget := congrArg (fun repo => Dict.get? repo held.id) heq
      simp only [Dict.get?_set_self] at hget
      exact Option.some.inj hget
    · intro heq
      rw [heq]
  · rw [hreturned, hfinish]
    refine iff_of_true hP fun hspawn hstatus => ?_
    rcases hfails with hf | hf
    · exact absurd hf hspawn
    · exact absurd hf hstatus

/-- One step. -/
theorem step_statusOnly_iff (h : Inv s) (hP : StatusOnly s) {l : Label}
    (hs : step U s l = some s') : StatusOnly s' ↔ RowUnchanged s l := by
  have hworld : ({ s.world with repo := s.expected } : World) = s.world := by
    rw [← show s.world.repo = s.expected from hP]
  cases l with
  | request r =>
    simp only [step] at hs
    split at hs
    next =>
      cases hs
      refine iff_of_true ?_ trivial
      show (serve U s.world r).repo = (serve U { s.world with repo := s.expected } r).repo
      rw [hworld]
    next => cases hs
  | lifecycle i op tenantId =>
    refine iff_of_true ?_ trivial
    simp only [step] at hs
    split at hs
    next => cases hs
    next =>
      split at hs
      next => cases hs; exact hP
      next => cases hs; exact hP
  | onboard i payload draw fails =>
    refine iff_of_true ?_ trivial
    simp only [step, hworld] at hs
    split at hs
    next => cases hs
    next =>
      split at hs
      next hbegin => cases hs; rw [StatusOnly, hbegin]
      next hbegin => cases hs; rw [StatusOnly, hbegin]
      next hbegin => cases hs; rw [StatusOnly, hbegin]
  | spawned i fails =>
    simp only [step] at hs
    split at hs
    next => cases hs
    next flight hi => exact resume_statusOnly_iff h hP hi hs
  | handled i =>
    refine iff_of_true ?_ trivial
    simp only [step] at hs
    split at hs
    next => cases hs; exact hP
    next => cases hs

/-- **Lifecycle operations change only the status** in every state of a run exactly when each of
them that writes finds the row as it read it, but for the status.

The expected table is compared in every state, so a write that is lost counts even where a later one
makes it good. -/
theorem lifecycle_status_only_iff (U : Unicode) (ls : List Label) :
    EachState (step U) StatusOnly System.init ls ↔
      EachStep (step U) RowUnchanged System.init ls :=
  eachState_iff_eachStep (I := Inv) (fun _ _ _ h _ hs => h.step hs)
    (fun _ _ _ h hP hs => step_statusOnly_iff h hP hs) Inv.init rfl

/-- A tenant is brought up, and its model is changed while the spawner works. -/
def patchedMeanwhile : List Label :=
  [.request (.create ⟨"t1", 0⟩ ⟨"Acme", "acme", none, none⟩), .lifecycle 0 .bringUp "t1",
    .request (.patch "t1" ⟨some "openai/gpt-4o", none⟩), .spawned 0 none]

/-- The model is the old one again. -/
theorem not_lifecycle_status_only : ¬ ∀ (U : Unicode) (ls : List Label),
    EachState (step U) StatusOnly System.init ls := by
  intro h
  have hrun : ((run (step Unicode.ascii) System.init patchedMeanwhile).map fun s =>
      ((s.world.repo.get? "t1").map Tenant.model, (s.expected.get? "t1").map Tenant.model)) =
      some (some "openai/gpt-4o-mini", some "openai/gpt-4o") := by decide
  obtain ⟨s, hs, hmodels⟩ := Option.map_eq_some_iff.mp hrun
  have hlast : s.world.repo = s.expected := (h Unicode.ascii patchedMeanwhile).last hs
  rw [hlast] at hmodels
  obtain ⟨hold, hnew⟩ := Prod.mk.inj hmodels
  exact absurd (hold.symm.trans hnew) (by decide)

end Wapsell.Tenants
