import Mathlib.Data.Fintype.EquivFin
import Wapsell.Billing.Invariant

/-!
# When a cancellation is final

`cancel` is irreversible on Mercado Pago's side. On the local side it is
one write among others: a `subscribe` or a `reconcile_from_webhook` of the
same subscription that was already under way keeps what it read or was
told before, and writes it back later. `Revives` names the calls that can
undo a cancellation, `Settled` what the rows, Mercado Pago and the calls
look like once none of them is in flight, and that this is never lost.

`Revives` reads the calls in flight at the moment `cancel` returns and
nothing that happens afterwards, so the condition can be decided then.
In one direction a settled subscription stays settled, step by step. In
the other direction each call that `Revives` names can be run to its
end, which gives a continuation in which the row is AUTHORIZED again.

What this does not establish: anything about a `cancel` whose Mercado
Pago call failed. The service marks the row CANCELLED all the same and
counts on a later webhook, and nothing was cancelled on the other side.
-/

namespace Wapsell.Billing

open Lib Py

/-- Mercado Pago moves a preapproval freely until it is cancelled, and never after. This is what the
service relies on when it calls a cancellation irreversible. -/
def Setting.CancelledIsTerminal (E : Setting) : Prop :=
  ∀ old data, E.mayMove old data = true ↔ old.status ≠ "cancelled"

/-- Mercado Pago's record of the preapproval is `cancelled`. -/
def System.Cancelled (s : System) (preapprovalId : String) : Prop :=
  ∃ data, s.preapprovals.get? preapprovalId = some data ∧ data.status = "cancelled"

/-- The label makes `cancel` return for the subscription, without its Mercado Pago call having
failed: at once, when the row has no preapproval, or after the answer. The row read before the await
decides which of the two it is. -/
def ReturnsCancelled (s : System) (subscriptionId : String) : Label → Prop
  | .cancel _ tenantId id _ => id = subscriptionId ∧
      ∃ sub, cancelBegin s.repo tenantId id = .ok sub ∧ truthy sub.mpPreapprovalId = false
  | .resume call _ => ∃ held, s.calls.get? call = some (.cancel held (.ok ())) ∧
      held.id = subscriptionId
  | _ => False

/-- A call in flight that can still make the subscription AUTHORIZED: a `subscribe` whose
preapproval is not created yet or is not cancelled, or a reconcile that was told `authorized`. -/
def Revives (E : Setting) (s : System) (subscriptionId : String) : Call → Prop
  | .subscribe held .waiting => held.id = subscriptionId
  | .subscribe held (.ok r) => held.id = subscriptionId ∧ ¬ s.Cancelled r.preapprovalId
  | .reconcile held _ (.ok data) =>
      held.id = subscriptionId ∧ data.mpStatus E.U = some .authorized
  | _ => False

/-- The subscription is AUTHORIZED. A row that is gone or has another status is not; the service
never deletes one. -/
def System.IsAuthorized (s : System) (subscriptionId : String) : Prop :=
  ∃ row, s.repo.get? subscriptionId = some row ∧ row.status = .authorized

/-- Cancelled for good: the row is there and not AUTHORIZED, its preapproval is cancelled, and no
call in flight revives it. Nothing is said of the row's status beyond that: a late reconcile may
still write another status that Mercado Pago once had. -/
structure Settled (E : Setting) (id : String) (s : System) : Prop where
  row : ∃ row, s.repo.get? id = some row ∧ row.status ≠ .authorized ∧
    ∀ p, row.mpPreapprovalId = some p → s.Cancelled p
  calls : ∀ i c, s.calls.get? i = some c → ¬ Revives E s id c

/-! ## Mercado Pago's side -/

/-- What is cancelled stays cancelled while Mercado Pago's records change by a cancellation, by a
new preapproval, or by a move it may make. -/
theorem System.Cancelled.setPreapproval {s : System} {p q : String} {data : PreapprovalData}
    (h : s.Cancelled p) (hother : q = p → data.status = "cancelled") :
    (s.setPreapproval q data).Cancelled p := by
  obtain ⟨old, hold, hst⟩ := h
  by_cases hq : q = p
  · exact ⟨data, by rw [System.setPreapproval_preapprovals, hq, Dict.get?_set_self], hother hq⟩
  · exact ⟨old, by rw [System.setPreapproval_preapprovals, Dict.get?_set_ne _ _ hq, hold], hst⟩

/-- A cancelled preapproval reads as CANCELLED, so a reconcile that is served after the cancellation
cannot be told `authorized`. -/
theorem mpStatus_of_cancelled {U : Unicode} {data : PreapprovalData}
    (h : data.status = "cancelled") : data.mpStatus U = some .cancelled := by
  rw [PreapprovalData.mpStatus, h]
  rfl

/-- More cancelled preapprovals revive no more calls. A step that only cancels leaves a settled
subscription settled. -/
theorem Revives.anti {E : Setting} {s s' : System} {id : String}
    (hmono : ∀ p, s.Cancelled p → s'.Cancelled p) {c : Call} (h : Revives E s' id c) :
    Revives E s id c := by
  cases c with
  | subscribe held answer =>
    cases answer with
    | waiting => exact h
    | failed => exact h
    | ok r => exact ⟨h.1, fun hc => h.2 (hmono _ hc)⟩
  | cancel held answer => exact h
  | reconcile held p answer => cases answer <;> exact h

/-! ## A settled subscription stays settled -/

section Settled

variable {E : Setting} {s : System} {id : String}

/-- Mercado Pago's records change and cancel nothing less. -/
theorem Settled.setPreapproval (h : Settled E id s) {p : String} {data : PreapprovalData}
    (hkeep : s.Cancelled p → data.status = "cancelled") :
    Settled E id (s.setPreapproval p data) := by
  have hmono : ∀ q, s.Cancelled q → (s.setPreapproval p data).Cancelled q := by
    intro q hq
    exact hq.setPreapproval fun e => hkeep (e ▸ hq)
  obtain ⟨row, hrow, hst, hp⟩ := h.row
  refine ⟨⟨row, hrow, hst, fun q hq => hmono q (hp q hq)⟩, fun i c hc hr => ?_⟩
  exact h.calls i c hc (hr.anti hmono)

/-- A call that does not revive the subscription is suspended. -/
theorem Settled.suspend (h : Settled E id s) {i : Nat} {c : Call} (hc : ¬ Revives E s id c) :
    Settled E id (s.suspend i c) := by
  refine ⟨h.row, fun j d hd hr => ?_⟩
  rcases Dict.get?_set_eq_some hd with ⟨-, rfl⟩ | ⟨-, hold⟩
  · exact hc (hr.anti fun _ hp => hp)
  · exact h.calls j d hold (hr.anti fun _ hp => hp)

/-- A call returns. -/
theorem Settled.done (h : Settled E id s) (i : Nat) : Settled E id (s.done i) := by
  refine ⟨h.row, fun j d hd hr => ?_⟩
  obtain ⟨-, hold⟩ := Dict.get?_erase_eq_some hd
  exact h.calls j d hold (hr.anti fun _ hp => hp)

/-- A row is written that is not AUTHORIZED and whose preapproval is cancelled, or another row. -/
theorem Settled.write (h : Settled E id s) {k : String} {row' : Subscription}
    (hrow' : k = id → row'.status ≠ .authorized ∧
      ∀ p, row'.mpPreapprovalId = some p → s.Cancelled p) :
    Settled E id { s with repo := s.repo.set k row' } := by
  refine ⟨?_, fun i c hc hr => h.calls i c hc (hr.anti fun _ hp => hp)⟩
  by_cases hk : k = id
  · subst hk
    obtain ⟨hst, hp⟩ := hrow' rfl
    exact ⟨row', Dict.get?_set_self _ _ _, hst, hp⟩
  · obtain ⟨row, hrow, hst, hp⟩ := h.row
    exact ⟨row, by rw [Dict.get?_set_ne _ _ hk, hrow], hst, hp⟩

/-- A resumed call writes nothing that revives the subscription. -/
theorem Settled.resumed (h : Settled E id s) {i : Nat} {c : Call}
    (hcall : s.calls.get? i = some c) {repo : Repository} (hres : Resumed E s c repo) :
    Settled E id ({ s with repo }.done i) := by
  have hno := h.calls i c hcall
  obtain ⟨row₀, hrow₀, hst₀, hp₀⟩ := h.row
  cases hres with
  | subscribeFailed => exact h.done i
  | reconcileFailed => exact h.done i
  | unknownStatus _ => exact h.done i
  | @subscribed held row row' r hrow hid ht hp hst =>
    refine (h.write fun hk => ⟨?_, fun p hp' => ?_⟩).done i
    · subst hk
      rw [hrow₀] at hrow
      cases hrow
      rcases hst with hst | hst
      · rwa [hst]
      · rw [hst]
        exact fun e => by cases e
    · rw [hp] at hp'
      cases hp'
      by_contra hlive
      exact hno ⟨hk, hlive⟩
  | @cancelled held row row' answer hrow hid ht hp hst =>
    refine (h.write fun hk => ⟨?_, fun p hp' => ?_⟩).done i
    · rw [hst]
      exact fun e => by cases e
    · subst hk
      rw [hrow₀] at hrow
      cases hrow
      exact hp₀ p (hp ▸ hp')
  | @reconciled held row row' q data hrow hid ht hp hst =>
    refine (h.write fun hk => ⟨fun e => ?_, fun p hp' => ?_⟩).done i
    · exact hno ⟨hk, e ▸ hst⟩
    · subst hk
      rw [hrow₀] at hrow
      cases hrow
      exact hp₀ p (hp ▸ hp')

/-- **The step lemma.** No step undoes a settled cancellation. A call that begins later reads the
row and the preapproval as they are, so it cannot hold what would revive them. -/
theorem Settled.step (hE : E.CancelledIsTerminal) (hI : Inv s) (h : Settled E id s)
    {s' : System} {l : Label} (hstep : step E s l = some s') : Settled E id s' := by
  obtain ⟨row, hrow, hst, hp⟩ := h.row
  cases step_cases hstep with
  | returned => exact h
  | @subscribe call tenantId planCode payerEmail id' now sub hcall hid hsub ht hstat hpre hactive =>
    -- the uuid is fresh, so it is another subscription
    have hne : id' ≠ id := by
      rintro rfl
      rw [hid] at hrow
      cases hrow
    refine (h.write fun hk => absurd hk hne).suspend fun hr => hne ?_
    exact hsub.symm.trans hr
  | @cancelNow call tenantId subscriptionId now sub hbegin hpre =>
    obtain ⟨hsub, hid, -⟩ := cancelBegin_row hI hbegin
    obtain ⟨row', hwrite, hid', -, hpre', hst'⟩ := cancelFinish_spec E.storage hI hsub rfl rfl now
    rw [hwrite]
    refine h.write fun hk => ⟨?_, fun p hp' => ?_⟩
    · rw [hst']
      exact fun e => by cases e
    · rw [hk, hrow] at hsub
      cases hsub
      exact hp p (hpre' ▸ hp')
  | cancel => exact h.suspend fun hr => hr
  | reconcile => exact h.suspend fun hr => hr
  | @created call p initPoint held hcall hne hfresh =>
    refine (h.setPreapproval fun hc => ?_).suspend fun hr => h.calls call _ hcall hr.1
    obtain ⟨data, hdata, -⟩ := hc
    rw [hfresh] at hdata
    cases hdata
  | servedCancel => exact (h.setPreapproval fun _ => rfl).suspend fun hr => hr
  | @servedReconcile call p held data hcall hdata =>
    refine h.suspend fun hr => ?_
    -- the row it read has this preapproval, and that is cancelled
    obtain ⟨-, row', hrow', -, hp'⟩ := hI.calls call _ hcall
    rw [hr.1, hrow] at hrow'
    cases hrow'
    obtain ⟨data', hdata', hcancelled⟩ := hp p hp'
    rw [hdata] at hdata'
    cases hdata'
    have hauth := hr.2
    rw [mpStatus_of_cancelled hcancelled] at hauth
    cases hauth
  | @fail call c c' hcall hfailed =>
    refine h.suspend fun hr => ?_
    cases c with
    | subscribe held answer =>
      cases answer <;> cases hfailed
      exact hr
    | cancel held answer =>
      cases answer <;> cases hfailed
      exact hr
    | reconcile held p answer =>
      cases answer <;> cases hfailed
      exact hr
  | @resume call now c outcome hcall hfinish =>
    obtain ⟨repo, rfl, hres⟩ := finish_cases hI hcall hfinish
    exact h.resumed hcall hres
  | @move p old data hold hmay =>
    refine h.setPreapproval fun hc => ?_
    obtain ⟨data', hdata', hcancelled⟩ := hc
    rw [hold] at hdata'
    cases hdata'
    exact absurd hcancelled ((hE old data).mp hmay)

end Settled

/-! ## When the return of `cancel` settles the subscription -/

/-- The preapproval of an answered `cancel` is cancelled on Mercado Pago's side. It holds from the
moment the request is served and is what the return of `cancel` is built on. -/
def CancelServed (s : System) : Prop :=
  ∀ i held, s.calls.get? i = some (.cancel held (.ok ())) →
    ∃ p, held.mpPreapprovalId = some p ∧ s.Cancelled p

theorem CancelServed.mono {s s' : System} (h : CancelServed s)
    (hmono : ∀ p, s.Cancelled p → s'.Cancelled p)
    (hcalls : ∀ i held, s'.calls.get? i = some (.cancel held (.ok ())) →
      s.calls.get? i = some (.cancel held (.ok ())) ∨
        ∃ p, held.mpPreapprovalId = some p ∧ s'.Cancelled p) : CancelServed s' := by
  intro i held hc
  rcases hcalls i held hc with hold | hnew
  · obtain ⟨p, hp, hcancelled⟩ := h i held hold
    exact ⟨p, hp, hmono p hcancelled⟩
  · exact hnew

/-- Suspending a call that is not an answered `cancel` adds no obligation. -/
theorem CancelServed.suspend {s : System} (h : CancelServed s) {i : Nat} {c : Call}
    (hc : ∀ held, c ≠ .cancel held (.ok ())) : CancelServed (s.suspend i c) := by
  refine h.mono (fun _ hp => hp) fun j held hj => .inl ?_
  rcases Dict.get?_set_eq_some hj with ⟨-, hnew⟩ | ⟨-, hold⟩
  · exact absurd hnew (hc held)
  · exact hold

theorem CancelServed.setPreapproval {s : System} (h : CancelServed s) {p : String}
    {data : PreapprovalData} (hkeep : s.Cancelled p → data.status = "cancelled") :
    CancelServed (s.setPreapproval p data) :=
  h.mono (fun _ hq => hq.setPreapproval fun e => hkeep (e ▸ hq)) fun _ _ hj => .inl hj

theorem CancelServed.step {E : Setting} (hE : E.CancelledIsTerminal) {s s' : System} {l : Label}
    (h : CancelServed s) (hstep : step E s l = some s') : CancelServed s' := by
  cases step_cases hstep with
  | returned => exact h
  | subscribe =>
    exact CancelServed.suspend (h.mono (fun _ hp => hp) fun _ _ hj => .inl hj) fun _ e => by cases e
  | cancelNow =>
    cases cancelFinish E.storage s.repo _ _ <;> exact h
  | cancel => exact h.suspend fun _ e => by cases e
  | reconcile => exact h.suspend fun _ e => by cases e
  | created hcall hne hfresh =>
    refine (h.setPreapproval fun hc => ?_).suspend fun _ e => by cases e
    obtain ⟨data, hdata, -⟩ := hc
    rw [hfresh] at hdata
    cases hdata
  | @servedCancel call p held data hcall hpre hdata =>
    have hset : CancelServed (s.setPreapproval p { data with status := "cancelled" }) :=
      h.setPreapproval fun _ => rfl
    refine hset.mono (fun _ hp => hp) fun j held' hj => ?_
    rcases Dict.get?_set_eq_some hj with ⟨-, hnew⟩ | ⟨-, hold⟩
    · cases hnew
      exact .inr ⟨p, hpre, _, Dict.get?_set_self _ _ _, rfl⟩
    · exact .inl hold
  | servedReconcile => exact h.suspend fun _ e => by cases e
  | @fail call c c' hcall hfailed =>
    refine h.suspend fun held e => ?_
    subst e
    cases c with
    | subscribe held answer => cases answer <;> cases hfailed
    | cancel held answer => cases answer <;> cases hfailed
    | reconcile held p answer => cases answer <;> cases hfailed
  | @resume call now c outcome hcall hfinish =>
    have hdone : CancelServed (s.done call) :=
      h.mono (fun _ hp => hp) fun _ _ hj => .inl (Dict.get?_erase_eq_some hj).2
    cases outcome <;> exact hdone
  | @move p old data hold hmay =>
    refine h.setPreapproval fun hc => ?_
    obtain ⟨data', hdata', hcancelled⟩ := hc
    rw [hold] at hdata'
    cases hdata'
    exact absurd hcancelled ((hE old data).mp hmay)

theorem CancelServed.of_reachable {E : Setting} (hE : E.CancelledIsTerminal) {s : System}
    (h : Leads (Billing.step E) System.init s) : CancelServed s :=
  h.invariant (P := CancelServed) (fun _ _ _ hs hstep => hs.step hE hstep)
    (fun _ _ hc => by cases hc)

/-- What the return of `cancel` leaves: the row, CANCELLED; the calls but the one that returned. -/
theorem returnsCancelled_cases {E : Setting} {s s' : System} {id : String} {l : Label} (hI : Inv s)
    (hserved : CancelServed s) (hret : ReturnsCancelled s id l) (hstep : step E s l = some s') :
    (∃ row, s'.repo.get? id = some row ∧ row.status = .cancelled ∧
      ∀ p, row.mpPreapprovalId = some p → s.Cancelled p) ∧
    s'.preapprovals = s.preapprovals ∧
    (∀ i c, s'.calls.get? i = some c → s.calls.get? i = some c) ∧
    ∀ i c, s.calls.get? i = some c → s'.calls.get? i = some c ∨ ¬ Revives E s id c := by
  cases l with
  | cancel call tenantId subscriptionId now =>
    obtain ⟨rfl, sub, hbegin, hpre⟩ := hret
    obtain ⟨hsub, hid, -⟩ := cancelBegin_row hI hbegin
    obtain ⟨row', hwrite, -, -, hpre', hst⟩ := cancelFinish_spec E.storage hI hsub rfl rfl now
    simp only [Billing.step] at hstep
    split at hstep
    · cases hstep
    rw [hbegin] at hstep
    simp only [hpre, Bool.false_eq_true, if_false, hwrite, System.store_ok, Option.some.injEq]
      at hstep
    subst hstep
    refine ⟨⟨row', ?_, hst, fun p hp => ?_⟩, rfl, fun _ _ hc => hc, fun _ _ hc => .inl hc⟩
    · rw [← hid]
      exact Dict.get?_set_self _ _ _
    · rw [hpre'] at hp
      have hne := (hI.known _ _ p hsub hp).1
      rw [hp] at hpre
      simp only [truthy, decide_eq_false_iff_not] at hpre
      exact absurd hne hpre
  | resume call now =>
    obtain ⟨held, hcall, rfl⟩ := hret
    obtain ⟨c, hc, hrest⟩ := Option.bind_eq_some_iff.mp hstep
    rw [hcall] at hc
    cases hc
    obtain ⟨outcome, hfinish, hrest⟩ := Option.bind_eq_some_iff.mp hrest
    obtain ⟨p, -, hcancelled⟩ := hserved call held hcall
    obtain ⟨q, row, -, hheld, hrow, ht, hp⟩ := hI.calls call _ hcall
    obtain ⟨row', hwrite, -, -, hpre', hst⟩ :=
      cancelFinish_spec E.storage hI hrow ht (hheld.trans hp.symm) now
    obtain ⟨p', hp', hcancelled⟩ := hserved call held hcall
    have hout : outcome = .ok (s.repo.set held.id row') := (Option.some.inj hfinish).symm.trans hwrite
    subst hout
    cases hrest
    refine ⟨⟨row', Dict.get?_set_self _ _ _, hst, fun p hp'' => ?_⟩, rfl, fun i c hc => ?_,
      fun i c hc => ?_⟩
    · rw [hpre', hp, ← hheld, hp'] at hp''
      cases hp''
      exact hcancelled
    · exact (Dict.get?_erase_eq_some hc).2
    · rw [System.done_calls, Dict.get?_erase]
      split
      · next he =>
        subst he
        rw [hcall] at hc
        cases hc
        exact .inr fun hr => hr
      · exact .inl hc
  | _ => exact hret.elim

/-- Two states with the same preapprovals revive through the same calls. -/
theorem revives_congr {E : Setting} {s s' : System} {id : String} {c : Call}
    (h : s'.preapprovals = s.preapprovals) : Revives E s' id c ↔ Revives E s id c := by
  have hc : ∀ p, s'.Cancelled p ↔ s.Cancelled p := by
    intro p
    rw [System.Cancelled, System.Cancelled, h]
  exact ⟨fun hr => hr.anti fun p hp => (hc p).mpr hp, fun hr => hr.anti fun p hp => (hc p).mp hp⟩

/-! ## A call that revives the subscription can do so -/

section Revival

variable {E : Setting} {s : System} {id : String}

/-- A call whose answer is there may resume, and its write succeeds. -/
theorem step_resume (now : Datetime) (hI : Inv s) {i : Nat} {c : Call}
    (hcall : s.calls.get? i = some c) (hanswered : (c.finish E s.repo now).isSome) :
    ∃ repo, step E s (.resume i now) = some ({ s with repo }.done i) ∧ Resumed E s c repo := by
  obtain ⟨outcome, hfinish⟩ := Option.isSome_iff_exists.mp hanswered
  obtain ⟨repo, rfl, hres⟩ := finish_cases hI hcall hfinish
  refine ⟨repo, ?_, hres⟩
  simp only [step, hcall, hfinish, Option.bind_eq_bind, Option.bind_some, System.store_ok]

/-- A reconcile that was told `authorized` writes it. -/
theorem authorize_of_told (hI : Inv s) {i : Nat} {held : Subscription} {p : String}
    {data : PreapprovalData} (hcall : s.calls.get? i = some (.reconcile held p (.ok data)))
    (hid : held.id = id) (hauth : data.mpStatus E.U = some .authorized) :
    ∃ s', Leads (step E) s s' ∧ s'.IsAuthorized id := by
  obtain ⟨repo, hstep, hres⟩ := step_resume 0 hI hcall (E := E) rfl
  refine ⟨_, Leads.of_step hstep, ?_⟩
  cases hres with
  | unknownStatus hnone =>
    rw [hauth] at hnone
    cases hnone
  | @reconciled _ row row' _ _ hrow _ ht hp hst =>
    refine ⟨row', ?_, Option.some.inj (hst.symm.trans hauth)⟩
    rw [← hid]
    exact Dict.get?_set_self _ _ _

/-- Mercado Pago authorizes a live preapproval, and a webhook copies it onto the row. -/
theorem authorize_of_live (hE : E.CancelledIsTerminal) (hI : Inv s) {row : Subscription}
    {p : String} (hrow : s.repo.get? id = some row) (hp : row.mpPreapprovalId = some p)
    (hlive : ¬ s.Cancelled p) {i : Nat} (hfree : s.calls.get? i = none) :
    ∃ s', Leads (step E) s s' ∧ s'.IsAuthorized id := by
  obtain ⟨old, hold⟩ := Option.isSome_iff_exists.mp (hI.known _ _ _ hrow hp).2
  have hmay : E.mayMove old { status := "authorized" } = true :=
    (hE _ _).mpr fun he => hlive ⟨old, hold, he⟩
  have hmove : step E s (.move p { status := "authorized" }) =
      some (s.setPreapproval p { status := "authorized" }) := by
    simp only [step, hold, Option.bind_eq_bind, Option.bind_some, hmay, if_true]
  -- the webhook finds this row and no other
  obtain ⟨found, hfound⟩ := Repository.getByPreapprovalId_isSome hrow hp
  obtain ⟨hkey, hpre⟩ := reconcileBegin_row hI hfound
  have hid : found.id = id := hI.unique _ _ _ _ p hkey hrow hpre hp
  have hbegin : step E (s.setPreapproval p { status := "authorized" }) (.reconcile i p) =
      some ((s.setPreapproval p { status := "authorized" }).suspend i
        (.reconcile found p .waiting)) := by
    simp only [step, System.setPreapproval_calls, hfree, Option.isSome_none, Bool.false_eq_true,
      if_false, System.setPreapproval_repo, reconcileBegin, hfound]
  have hserved : step E ((s.setPreapproval p { status := "authorized" }).suspend i
      (.reconcile found p .waiting)) (.served i) =
      some (((s.setPreapproval p { status := "authorized" }).suspend i
        (.reconcile found p .waiting)).suspend i
          (.reconcile found p (.ok { status := "authorized" }))) := by
    simp only [step, System.suspend_calls, Dict.get?_set_self, System.suspend_preapprovals,
      System.setPreapproval_preapprovals, Option.bind_eq_bind, Option.bind_some]
  have hleads := ((Leads.of_step hmove).trans (Leads.of_step hbegin)).trans (Leads.of_step hserved)
  have hI' := hleads.invariant (P := Inv) (fun _ _ _ hs hstep => step_inv hs hstep) hI
  obtain ⟨s', hs', hauth⟩ := authorize_of_told hI' (Dict.get?_set_self _ _ _) hid rfl
  exact ⟨s', hleads.trans hs', hauth⟩

/-- A `subscribe` that was given a live preapproval writes its id onto the row. -/
theorem authorize_of_created (hE : E.CancelledIsTerminal) (hI : Inv s) {i : Nat}
    {held : Subscription} {r : PreapprovalResult}
    (hcall : s.calls.get? i = some (.subscribe held (.ok r))) (hid : held.id = id)
    (hlive : ¬ s.Cancelled r.preapprovalId) :
    ∃ s', Leads (step E) s s' ∧ s'.IsAuthorized id := by
  obtain ⟨repo, hstep, hres⟩ := step_resume 0 hI hcall (E := E) rfl
  have hI' := step_inv hI hstep
  cases hres with
  | @subscribed _ row row' _ hrow _ _ hpre _ =>
    have hstored : (s.repo.set held.id row').get? id = some row' := by
      rw [hid, Dict.get?_set_self]
    have hfree : (s.calls.erase i).get? i = none := by
      rw [Dict.get?_erase, if_pos rfl]
    obtain ⟨s', hs', hauth⟩ := authorize_of_live hE hI' hstored hpre hlive hfree
    exact ⟨s', (Leads.of_step hstep).trans hs', hauth⟩

/-- There is always a preapproval id Mercado Pago has not used. -/
theorem exists_fresh_preapproval (s : System) : ∃ p, p ≠ "" ∧ s.preapprovals.get? p = none := by
  have : Infinite String := Infinite.of_injective String.ofList fun _ _ h => String.ofList_injective h
  obtain ⟨p, hp⟩ := Infinite.exists_notMem_finset ("" :: s.preapprovals.keys).toFinset
  rw [List.mem_toFinset, List.mem_cons, not_or] at hp
  exact ⟨p, hp.1, Dict.get?_eq_none_iff.mpr hp.2⟩

/-- Every call `Revives` names has a continuation in which the subscription is AUTHORIZED. -/
theorem Revives.authorize (hE : E.CancelledIsTerminal) (hI : Inv s) {i : Nat} {c : Call}
    (hcall : s.calls.get? i = some c) (h : Revives E s id c) :
    ∃ s', Leads (step E) s s' ∧ s'.IsAuthorized id := by
  cases c with
  | cancel held answer => exact h.elim
  | subscribe held answer =>
    cases answer with
    | failed => exact h.elim
    | ok r => exact authorize_of_created hE hI hcall h.1 h.2
    | waiting =>
      obtain ⟨p, hne, hfresh⟩ := exists_fresh_preapproval s
      have hstep : step E s (.created i p "") =
          some ((s.setPreapproval p { status := "pending" }).suspend i
            (.subscribe held (.ok ⟨p, ""⟩))) := by
        simp only [step, hcall, hfresh, hne, Option.isSome_none, Bool.false_eq_true, or_self,
          if_false]
      have hlive : ¬ ((s.setPreapproval p { status := "pending" }).suspend i
          (.subscribe held (.ok ⟨p, ""⟩))).Cancelled p := by
        rintro ⟨data, hdata, hst⟩
        rw [System.suspend_preapprovals, System.setPreapproval_preapprovals,
          Dict.get?_set_self] at hdata
        cases hdata
        exact absurd hst (by decide)
      obtain ⟨s', hs', hauth⟩ :=
        authorize_of_created hE (step_inv hI hstep) (Dict.get?_set_self _ _ _) h hlive
      exact ⟨s', (Leads.of_step hstep).trans hs', hauth⟩
  | reconcile held p answer =>
    cases answer with
    | waiting => exact h.elim
    | failed => exact h.elim
    | ok data => exact authorize_of_told hI hcall h.1 h.2

end Revival

/-- **Cancellation is final, exactly when nothing in flight revives it.** Where `cancel` returns
without its Mercado Pago call having failed, the subscription is AUTHORIZED in no later state
exactly when at that moment no `subscribe` of it waits for its preapproval or holds one that is not
cancelled, and no reconcile of it was told `authorized`.

From right to left a settled subscription stays settled. From left to right each call that revives
is run to its end: the continuation exists whatever else is in flight. -/
theorem cancel_final_iff {E : Setting} (hE : E.CancelledIsTerminal) {s s' : System} {l : Label}
    {id : String} (hs : Leads (step E) System.init s) (hret : ReturnsCancelled s id l)
    (hstep : step E s l = some s') :
    (∀ t, Leads (step E) s' t → ¬ t.IsAuthorized id) ↔
      ∀ c ∈ s.calls.values, ¬ Revives E s id c := by
  have hI := Inv.of_reachable hs
  have hI' := step_inv hI hstep
  obtain ⟨⟨row, hrow, hst, hpre⟩, hmp, hback, hforth⟩ :=
    returnsCancelled_cases hI (CancelServed.of_reachable hE hs) hret hstep
  constructor
  · intro hfinal c hc hr
    obtain ⟨i, hi⟩ := Dict.mem_values_iff.mp hc
    rcases hforth i c hi with hi' | hno
    · obtain ⟨t, ht, hauth⟩ := Revives.authorize hE hI' hi' ((revives_congr hmp).mpr hr)
      exact hfinal t ht hauth
    · exact hno hr
  · intro hno t ht
    have hsettled : Settled E id s' := by
      refine ⟨⟨row, hrow, ?_, fun p hp => ?_⟩, fun i c hc hr => ?_⟩
      · rw [hst]
        exact fun e => by cases e
      · obtain ⟨data, hdata, hcancelled⟩ := hpre p hp
        exact ⟨data, by rw [hmp, hdata], hcancelled⟩
      · exact hno c (Dict.mem_values_iff.mpr ⟨i, hback i c hc⟩) ((revives_congr hmp).mp hr)
    have hkept := ht.invariant (P := fun t => Inv t ∧ Settled E id t)
      (fun _ _ _ hP hstep => ⟨step_inv hP.1 hstep, hP.2.step hE hP.1 hstep⟩) ⟨hI', hsettled⟩
    rintro ⟨row', hrow', hauth⟩
    obtain ⟨row'', hrow'', hst'', -⟩ := hkept.2.row
    rw [hrow'] at hrow''
    cases hrow''
    exact hst'' hauth

/-- Postgres rows, and a Mercado Pago whose cancellations are terminal. -/
def production : Setting where
  U := Unicode.ascii
  fromisoformat _ := none
  storage := .postgres
  mayMove old _ := decide (old.status ≠ "cancelled")

theorem production_cancelledIsTerminal : production.CancelledIsTerminal :=
  fun _ _ => decide_eq_true_iff

/-- One paid subscription, and a cancellation of it that Mercado Pago has carried out. -/
def cancelServed : List Label :=
  [.subscribe 0 "acme" "PRO" "ana@acme.test" "s1" 0, .created 0 "p1" "https://mp/1", .resume 0 1,
    .move "p1" { status := "authorized" }, .reconcile 1 "p1", .served 1, .resume 1 2,
    .cancel 2 "acme" "s1" 3, .served 2]

/-- The row as the cancellation holds it. -/
def heldByCancel : Subscription where
  id := "s1"
  tenantId := "acme"
  planCode := "PRO"
  status := .authorized
  mpPreapprovalId := some "p1"
  mpInitPoint := some "https://mp/1"
  payerEmail := some "ana@acme.test"
  startedAt := some 2
  createdAt := 0
  updatedAt := 2

/-- With nothing else in flight the cancellation is final. -/
theorem cancel_final_iff_served :
    (reached (step production) System.init cancelServed).calls.values =
        [.cancel heldByCancel (.ok ())] ∧
      ∀ t, Leads (step production) (reached (step production) System.init
        (cancelServed ++ [.resume 2 4])) t → ¬ t.IsAuthorized "s1" := by
  have hcalls : (reached (step production) System.init cancelServed).calls.values =
      [.cancel heldByCancel (.ok ())] := by rfl
  refine ⟨hcalls, (cancel_final_iff production_cancelledIsTerminal
    (leads_reached (by decide)) (l := .resume 2 4) ⟨heldByCancel, by rfl, rfl⟩
    (step_reached (by decide))).mpr ?_⟩
  intro c hc
  rw [hcalls] at hc
  cases List.mem_singleton.mp hc
  exact id

/-- A webhook is told `authorized` and then a cancellation begins. -/
def staleWebhook : List Label :=
  [.subscribe 0 "acme" "PRO" "ana@acme.test" "s1" 0, .created 0 "p1" "https://mp/1", .resume 0 1,
    .move "p1" { status := "authorized" }, .reconcile 1 "p1", .served 1, .resume 1 2,
    .reconcile 1 "p1", .served 1, .cancel 2 "acme" "s1" 3, .served 2]

/-- The cancellation returns, the webhook writes what it was told, and the subscription is
AUTHORIZED again. -/
theorem not_cancel_final : ¬ ∀ (E : Setting), E.CancelledIsTerminal →
    ∀ (s s' t : System) (l : Label) (id : String), Leads (step E) System.init s →
      ReturnsCancelled s id l → step E s l = some s' → Leads (step E) s' t →
      ¬ t.IsAuthorized id := by
  intro h
  have hback : step production (reached (step production) System.init
      (staleWebhook ++ [.resume 2 4])) (.resume 1 5) = some (reached (step production) System.init
        (staleWebhook ++ [.resume 2 4] ++ [.resume 1 5])) := step_reached (by decide)
  exact h production production_cancelledIsTerminal (reached (step production) System.init
    staleWebhook) _ _ (.resume 2 4) "s1" (leads_reached (by decide))
    ⟨heldByCancel, by rfl, rfl⟩ (step_reached (by decide)) (Leads.of_step hback)
    ⟨{ heldByCancel with updatedAt := 5 }, by decide, rfl⟩

end Wapsell.Billing
