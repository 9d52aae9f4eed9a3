import Wapsell.Billing.Invariant

/-!
# One active subscription per tenant

The check that a tenant has no active subscription sits in `subscribe`,
before its await; the row becomes AUTHORIZED in `reconcile_from_webhook`,
which checks nothing. Of all the steps of the interleaving only that one
can add a second AUTHORIZED row, and it does exactly when another row of
the tenant is AUTHORIZED at that moment.

This is weaker than what the comments beside the model and the table
say, that the service keeps at most one active subscription per tenant:
two checkouts opened before either is paid are both accepted, and both
rows become AUTHORIZED when Mercado Pago reports them. The condition is
on the state before a reconcile writes, so it names the step at which a
check would have to stand.

What this does not establish: that Mercado Pago refuses a second
payment, or that the tenant is charged twice. Both lie on Mercado Pago's
side, which the interleaving leaves free.
-/

namespace Wapsell.Billing

open Lib Py

/-- The AUTHORIZED subscriptions of a tenant. PENDING and PAUSED rows are no active ones, as
`active_for_tenant` has it. -/
def Repository.authorizedOf (repo : Repository) (tenantId : String) : List Subscription :=
  repo.values.filter fun sub => decide (sub.tenantId = tenantId ∧ sub.status = .authorized)

/-- One active sub per tenant: the operator policy that `subscribe` checks and the models promise.
It is a statement about the rows only, not about the calls in flight. -/
def AtMostOneActive (tenantId : String) (s : System) : Prop :=
  (s.repo.authorizedOf tenantId).length ≤ 1

/-- A step that does not copy `authorized` onto a row of the tenant while another row of the tenant
is AUTHORIZED. Only the resumption of an answered reconcile can do so; a `subscribe` writes PENDING
and a `cancel` CANCELLED, so every other label is allowed. -/
def AddsNoSecondActive (E : Setting) (tenantId : String) (s : System) : Label → Prop
  | .resume call _ => ∀ held p data, s.calls.get? call = some (.reconcile held p (.ok data)) →
      held.tenantId = tenantId → data.mpStatus E.U = some .authorized →
      ∀ row ∈ s.repo.authorizedOf tenantId, row.id = held.id
  | _ => True

/-- A row counts for the tenant. -/
def Active (tenantId : String) (row : Subscription) : Prop :=
  row.tenantId = tenantId ∧ row.status = .authorized

/-- The filter read as a lookup, which is the form in which the invariant speaks of rows. -/
theorem mem_authorizedOf {repo : Repository} {tenantId : String} {row : Subscription} :
    row ∈ repo.authorizedOf tenantId ↔ (∃ k, repo.get? k = some row) ∧ Active tenantId row := by
  rw [Repository.authorizedOf, List.mem_filter, Dict.mem_values_iff, decide_eq_true_eq]
  rfl

/-- The count read on the keys. -/
theorem atMostOneActive_iff {tenantId : String} {s : System} :
    AtMostOneActive tenantId s ↔ ∀ k k' a b, s.repo.get? k = some a → s.repo.get? k' = some b →
      Active tenantId a → Active tenantId b → k = k' := by
  rw [AtMostOneActive, Repository.authorizedOf, Dict.length_filter_values_le_one]
  simp only [decide_eq_true_eq, Active]

/-- A step after which no other row counts keeps the bound. -/
theorem AtMostOneActive.of_no_new {tenantId : String} {s s' : System}
    (h : AtMostOneActive tenantId s)
    (hno : ∀ k row', s'.repo.get? k = some row' → Active tenantId row' →
      ∃ row, s.repo.get? k = some row ∧ Active tenantId row) : AtMostOneActive tenantId s' := by
  rw [atMostOneActive_iff] at h ⊢
  intro k k' a b ha hb hactive hactive'
  obtain ⟨a', ha', hactive⟩ := hno k a ha hactive
  obtain ⟨b', hb', hactive'⟩ := hno k' b hb hactive'
  exact h k k' a' b' ha' hb' hactive hactive'

/-- A written row that counts only if the row it replaces did adds nothing. -/
theorem AtMostOneActive.set {tenantId : String} {s : System} (h : AtMostOneActive tenantId s)
    (id : String) (row' : Subscription)
    (hrow' : Active tenantId row' → ∃ row, s.repo.get? id = some row ∧ Active tenantId row) :
    AtMostOneActive tenantId { s with repo := s.repo.set id row' } := by
  refine h.of_no_new fun k new hk hactive => ?_
  rcases Dict.get?_set_eq_some hk with ⟨rfl, rfl⟩ | ⟨-, hold⟩
  · exact hrow' hactive
  · exact ⟨new, hold, hactive⟩

/-- A row that becomes active is the only one exactly when no other row was. -/
theorem atMostOneActive_activate_iff {tenantId : String} {s : System} (hI : Inv s) {id : String}
    {row' : Subscription} (hactive : Active tenantId row') :
    AtMostOneActive tenantId { s with repo := s.repo.set id row' } ↔
      ∀ row ∈ s.repo.authorizedOf tenantId, row.id = id := by
  rw [atMostOneActive_iff]
  constructor
  · intro h row hmem
    obtain ⟨⟨k, hk⟩, hrow⟩ := mem_authorizedOf.mp hmem
    by_cases hkid : id = k
    · exact (hI.rowId k row hk).trans hkid.symm
    · have hk' : (s.repo.set id row').get? k = some row := by rw [Dict.get?_set_ne _ _ hkid, hk]
      exact absurd (h id k row' row (Dict.get?_set_self _ _ _) hk' hactive hrow) hkid
  · intro h
    have honly : ∀ k a, (s.repo.set id row').get? k = some a → Active tenantId a → k = id := by
      intro k a hk ha
      by_cases hkid : id = k
      · exact hkid.symm
      · rw [Dict.get?_set_ne _ _ hkid] at hk
        exact (hI.rowId k a hk).symm.trans (h a (mem_authorizedOf.mpr ⟨⟨k, hk⟩, ha⟩))
    intro k k' a b ha hb hactive' hactive''
    exact (honly k a ha hactive').trans (honly k' b hb hactive'').symm

/-- **The step lemma.** Of two states that a step joins, the second has the bound exactly when the
step was allowed. Every step but the reconcile keeps the bound for a reason of its own; the
reconcile keeps it for the reason that is asked of it. -/
theorem step_atMostOneActive_iff {E : Setting} {tenantId : String} {s s' : System} {l : Label}
    (hI : Inv s) (h : AtMostOneActive tenantId s) (hstep : step E s l = some s') :
    AtMostOneActive tenantId s' ↔ AddsNoSecondActive E tenantId s l := by
  cases step_cases hstep with
  | returned =>
    refine iff_of_true h ?_
    cases l with
    | resume call now =>
      -- a resumption always removes the call, so it cannot be the step that changes nothing
      intro held p data hcall
      obtain ⟨c, hc, hrest⟩ := Option.bind_eq_some_iff.mp hstep
      obtain ⟨outcome, hout, hrest⟩ := Option.bind_eq_some_iff.mp hrest
      have hgone := congrArg (fun t : System => t.calls.get? call) (Option.some.inj hrest)
      simp only [System.done_calls, Dict.get?_erase, if_true, hcall] at hgone
      cases hgone
    | _ => trivial
  | @subscribe call _ planCode payerEmail id now sub hcall hid hsub ht hst hp hactive =>
    refine iff_of_true (h.set id sub fun ha => ?_) trivial
    rw [ha.2] at hst
    cases hst
  | @cancelNow call _ subscriptionId now sub hbegin hpre =>
    obtain ⟨hrow, -, -⟩ := cancelBegin_row hI hbegin
    obtain ⟨row', hwrite, -, -, -, hst⟩ := cancelFinish_spec E.storage hI hrow rfl rfl now
    rw [hwrite]
    refine iff_of_true (h.set _ _ fun ha => ?_) trivial
    rw [ha.2] at hst
    cases hst
  | cancel => exact iff_of_true h trivial
  | reconcile => exact iff_of_true h trivial
  | created => exact iff_of_true h trivial
  | servedCancel => exact iff_of_true h trivial
  | servedReconcile => exact iff_of_true h trivial
  | fail => exact iff_of_true h trivial
  | move => exact iff_of_true h trivial
  | @resume call now c outcome hcall hfinish =>
    obtain ⟨repo, rfl, hres⟩ := finish_cases hI hcall hfinish
    -- only an answered reconcile is constrained
    have hother : (∀ held p data, c ≠ .reconcile held p (.ok data)) →
        AddsNoSecondActive E tenantId s (.resume call now) := by
      intro hne held p data hcall'
      rw [hcall] at hcall'
      exact absurd (Option.some.inj hcall') (hne held p data)
    cases hres with
    | subscribeFailed => exact iff_of_true h (hother fun _ _ _ e => by cases e)
    | reconcileFailed => exact iff_of_true h (hother fun _ _ _ e => by cases e)
    | subscribed hrow hid ht hp hst =>
      refine iff_of_true (h.set _ _ fun ha => ⟨_, hrow, ht ▸ ha.1, ?_⟩)
        (hother fun _ _ _ e => by cases e)
      rcases hst with hst | hst
      · rw [← hst, ha.2]
      · rw [ha.2] at hst
        cases hst
    | cancelled hrow hid ht hp hst =>
      refine iff_of_true (h.set _ _ fun ha => ?_) (hother fun _ _ _ e => by cases e)
      rw [ha.2] at hst
      cases hst
    | unknownStatus hst =>
      refine iff_of_true h fun held p data hcall' _ hauth => ?_
      rw [hcall] at hcall'
      cases hcall'
      rw [hst] at hauth
      cases hauth
    | @reconciled held row row' p data hrow hid ht hp hst =>
      obtain ⟨row₀, hrow₀, ht₀⟩ := (hI.calls call _ hcall).row
      have hrow_eq : row₀ = row := Option.some.inj (hrow₀.symm.trans hrow)
      subst hrow_eq
      by_cases hactive : Active tenantId row'
      · refine (atMostOneActive_activate_iff hI hactive).trans ?_
        constructor
        · intro honly held' p' data' hcall' _ _
          rw [hcall] at hcall'
          cases hcall'
          exact honly
        · intro hC
          refine hC held p data hcall ?_ (hst.trans (congrArg some hactive.2))
          exact ht₀.symm.trans (ht.symm.trans hactive.1)
      · refine iff_of_true (h.set _ _ fun ha => absurd ha hactive) ?_
        intro held' p' data' hcall' htenant hauth
        rw [hcall] at hcall'
        cases hcall'
        refine absurd ⟨ht.trans (ht₀.trans htenant), ?_⟩ hactive
        exact Option.some.inj (hst.symm.trans hauth)

/-- **At most one paid subscription.** Along any interleaving of `subscribe`, `cancel` and
`reconcile_from_webhook`, whatever Mercado Pago does, the tenant has at most one AUTHORIZED
subscription in every state exactly when no reconcile writes `authorized` onto a row of the tenant
while another of its rows is AUTHORIZED.

The condition is on the state before each step. A run that meets it up to some point keeps the bound
up to that point. -/
theorem each_state_one_active_iff (E : Setting) (tenantId : String) (ls : List Label) :
    EachState (step E) (AtMostOneActive tenantId) System.init ls ↔
      EachStep (step E) (AddsNoSecondActive E tenantId) System.init ls :=
  eachState_iff_eachStep (fun _ _ _ hs _ hstep => step_inv hs hstep)
    (fun _ _ _ hI h hstep => step_atMostOneActive_iff hI h hstep) Inv.init (Nat.zero_le 1)

/-- In-memory rows, no Unicode above ASCII, unreadable dates, and a Mercado Pago that moves what it
likes: the setting of the run below. -/
def sandbox : Setting where
  U := Unicode.ascii
  fromisoformat _ := none
  storage := .inMemory
  mayMove _ _ := true

/-- Two checkouts are opened before either is paid; both are paid, and both webhooks arrive. -/
def twoCheckouts : List Label :=
  [.subscribe 0 "acme" "STARTER" "ana@acme.test" "s1" 0, .created 0 "p1" "https://mp/1",
    .resume 0 1, .subscribe 1 "acme" "PRO" "ana@acme.test" "s2" 2, .created 1 "p2" "https://mp/2",
    .resume 1 3, .move "p1" { status := "authorized" }, .move "p2" { status := "authorized" },
    .reconcile 2 "p1", .served 2, .resume 2 4, .reconcile 3 "p2", .served 3, .resume 3 5]

/-- Both are then AUTHORIZED. -/
theorem not_each_state_one_active : ¬ ∀ (E : Setting) (tenantId : String) (ls : List Label),
    EachState (step E) (AtMostOneActive tenantId) System.init ls := by
  intro h
  have hrun : ((run (step sandbox) System.init twoCheckouts).map fun s =>
      (s.repo.authorizedOf "acme").length) = some 2 := by decide
  obtain ⟨s, hs, hlen⟩ := Option.map_eq_some_iff.mp hrun
  have hlast : AtMostOneActive "acme" s := (h sandbox "acme" twoCheckouts).last hs
  rw [AtMostOneActive, hlen] at hlast
  exact absurd hlast (by decide)

end Wapsell.Billing
