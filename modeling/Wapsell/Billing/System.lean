import Wapsell.Lib.Run
import Wapsell.Billing.Service

/-!
# Billing as an interleaving

`subscribe`, `cancel` and `reconcile_from_webhook` run on one event loop:
between two awaits nothing else runs, and at an await anything may. A state
holds the rows, Mercado Pago's own preapprovals, and the calls that are
waiting for an answer. A label is one thing that can happen next: a call
begins, Mercado Pago serves a waiting request or fails it, a call whose
answer is there resumes, or Mercado Pago moves a preapproval by itself.

A request that is served reads or changes Mercado Pago's state at that very
step, which lies between the request and the resumption: so an answer is
the state the preapproval had at some moment of the round trip, and may be
stale when the call resumes. Which moves Mercado Pago makes by itself is
the setting's `mayMove`.

Nothing here decides which interleavings are likely. A theorem about
runs of `step` holds for every order of the labels, so also for a
Mercado Pago that answers late, sends its webhooks twice or not at all.
-/

namespace Wapsell.Billing

open Lib Py

/-- What a waiting request has got so far.

An answer is given once: no label changes it after that. -/
inductive Answer (α : Type)
  | waiting
  | ok (result : α)
  /-- The request raises `MercadoPagoError`. -/
  | failed
  deriving DecidableEq, Repr

/-- A call suspended at its await, with the subscription object it holds. Two calls may hold copies
of one row, and what they do with them is the adapter's `Storage`.

A subscribe holds the row it has just stored, the other two the row they have read. -/
inductive Call
  | subscribe (held : Subscription) (answer : Answer PreapprovalResult)
  | cancel (held : Subscription) (answer : Answer Unit)
  | reconcile (held : Subscription) (preapprovalId : String) (answer : Answer PreapprovalData)

/-- The subscription object a suspended call holds. -/
def Call.held : Call → Subscription
  | .subscribe held _ => held
  | .cancel held _ => held
  | .reconcile held _ _ => held

/-- The rows, Mercado Pago's preapprovals, and the suspended calls.

Mercado Pago's record is the truth here, and the rows are what the service has learned of it. -/
structure System where
  repo : Repository := Dict.empty
  preapprovals : Dict String PreapprovalData := Dict.empty
  calls : Dict Nat Call := Dict.empty

/-- Nothing stored, nothing in flight. -/
def System.init : System := {}

/-- What the service and the world around it are given. `mayMove` is all that is assumed of Mercado
Pago; the theorems that need more of it say so. -/
structure Setting where
  U : Unicode
  fromisoformat : String → Option Datetime
  storage : Storage
  mayMove : PreapprovalData → PreapprovalData → Bool

/-- One thing that can happen next. `call` names a call, `id` is a fresh uuid. -/
inductive Label
  | subscribe (call : Nat) (tenantId planCode payerEmail id : String) (now : Datetime)
  | cancel (call : Nat) (tenantId subscriptionId : String) (now : Datetime)
  | reconcile (call : Nat) (preapprovalId : String)
  /-- Mercado Pago creates the preapproval a `subscribe` asked for. -/
  | created (call : Nat) (preapprovalId initPoint : String)
  /-- Mercado Pago carries out a cancellation, or reads a preapproval. -/
  | served (call : Nat)
  | fail (call : Nat)
  | resume (call : Nat) (now : Datetime)
  | move (preapprovalId : String) (data : PreapprovalData)

namespace System

/-- The outcome of a repository write; an exception leaves the rows alone.

What a call that raises would have written is not written. -/
def store (s : System) : Except BillingError Repository → System
  | .ok repo => { s with repo }
  | .error _ => s

/-- A call is suspended, or its answer has come. -/
def suspend (s : System) (call : Nat) (c : Call) : System := { s with calls := s.calls.set call c }

/-- A call has returned. -/
def done (s : System) (call : Nat) : System := { s with calls := s.calls.erase call }

/-- Mercado Pago's record of one preapproval changes.

The rows do not follow by themselves. A reconcile has to read it. -/
def setPreapproval (s : System) (preapprovalId : String) (data : PreapprovalData) : System :=
  { s with preapprovals := s.preapprovals.set preapprovalId data }

@[simp] theorem suspend_repo (s : System) (call : Nat) (c : Call) :
    (s.suspend call c).repo = s.repo := rfl
@[simp] theorem suspend_preapprovals (s : System) (call : Nat) (c : Call) :
    (s.suspend call c).preapprovals = s.preapprovals := rfl
@[simp] theorem suspend_calls (s : System) (call : Nat) (c : Call) :
    (s.suspend call c).calls = s.calls.set call c := rfl
@[simp] theorem done_repo (s : System) (call : Nat) : (s.done call).repo = s.repo := rfl
@[simp] theorem done_preapprovals (s : System) (call : Nat) :
    (s.done call).preapprovals = s.preapprovals := rfl
@[simp] theorem done_calls (s : System) (call : Nat) :
    (s.done call).calls = s.calls.erase call := rfl
@[simp] theorem setPreapproval_repo (s : System) (p : String) (data : PreapprovalData) :
    (s.setPreapproval p data).repo = s.repo := rfl
@[simp] theorem setPreapproval_preapprovals (s : System) (p : String) (data : PreapprovalData) :
    (s.setPreapproval p data).preapprovals = s.preapprovals.set p data := rfl
@[simp] theorem setPreapproval_calls (s : System) (p : String) (data : PreapprovalData) :
    (s.setPreapproval p data).calls = s.calls := rfl
@[simp] theorem store_ok (s : System) (repo : Repository) :
    s.store (.ok repo) = { s with repo } := rfl

end System

/-- The stretch after the await, once the answer is there; `none` while the call still waits. -/
def Call.finish (E : Setting) (repo : Repository) (now : Datetime) :
    Call → Option (Except BillingError Repository)
  | .subscribe held (.ok result) => some (subscribeFinish E.storage repo held result now)
  | .subscribe _ .failed => some (.ok repo)
  | .cancel held (.ok _) => some (cancelFinish E.storage repo held now)
  | .cancel held .failed => some (cancelFinish E.storage repo held now)
  | .reconcile held _ (.ok data) =>
    some (reconcileFinish E.U E.fromisoformat E.storage repo held data now)
  | .reconcile _ _ .failed => some (.ok repo)
  | .subscribe _ .waiting => none
  | .cancel _ .waiting => none
  | .reconcile _ _ .waiting => none

/-- A waiting request fails. -/
def Call.failed : Call → Option Call
  | .subscribe held .waiting => some (.subscribe held .failed)
  | .cancel held .waiting => some (.cancel held .failed)
  | .reconcile held preapprovalId .waiting => some (.reconcile held preapprovalId .failed)
  | _ => none

/-- The step function: `none` where the label cannot happen, such as a call number in use, an id
that is not fresh, or an answer to a call that does not wait. A call that raises leaves the state as
it was. -/
def step (E : Setting) (s : System) : Label → Option System
  | .subscribe call tenantId planCode payerEmail id now =>
    if (s.calls.get? call).isSome ∨ (s.repo.get? id).isSome then none
    else match subscribeBegin E.U s.repo tenantId planCode payerEmail id now with
      | .error _ => some s
      | .ok (_, sub, repo) => some ({ s with repo }.suspend call (.subscribe sub .waiting))
  | .cancel call tenantId subscriptionId now =>
    if (s.calls.get? call).isSome then none
    else match cancelBegin s.repo tenantId subscriptionId with
      | .error _ => some s
      | .ok sub =>
        if truthy sub.mpPreapprovalId then some (s.suspend call (.cancel sub .waiting))
        else some (s.store (cancelFinish E.storage s.repo sub now))
  | .reconcile call preapprovalId =>
    if (s.calls.get? call).isSome then none
    else match reconcileBegin s.repo preapprovalId with
      | none => some s
      | some sub => some (s.suspend call (.reconcile sub preapprovalId .waiting))
  | .created call preapprovalId initPoint =>
    match s.calls.get? call with
    | some (.subscribe held .waiting) =>
      if preapprovalId = "" ∨ (s.preapprovals.get? preapprovalId).isSome then none
      else some ((s.setPreapproval preapprovalId { status := "pending" }).suspend call
        (.subscribe held (.ok { preapprovalId, initPoint })))
    | _ => none
  | .served call =>
    match s.calls.get? call with
    | some (.cancel held .waiting) => do
      let preapprovalId ← held.mpPreapprovalId
      let data ← s.preapprovals.get? preapprovalId
      some ((s.setPreapproval preapprovalId { data with status := "cancelled" }).suspend call
        (.cancel held (.ok ())))
    | some (.reconcile held preapprovalId .waiting) => do
      let data ← s.preapprovals.get? preapprovalId
      some (s.suspend call (.reconcile held preapprovalId (.ok data)))
    | _ => none
  | .fail call => do
    let c ← s.calls.get? call
    let c' ← c.failed
    some (s.suspend call c')
  | .resume call now => do
    let c ← s.calls.get? call
    let outcome ← c.finish E s.repo now
    some ((s.store outcome).done call)
  | .move preapprovalId data => do
    let old ← s.preapprovals.get? preapprovalId
    if E.mayMove old data then some (s.setPreapproval preapprovalId data) else none

/-- What one step can do, case by case. -/
inductive Step (E : Setting) (s : System) : Label → System → Prop
  /-- The call raised or found nothing to do. -/
  | returned (l : Label) : Step E s l s
  | subscribe {call : Nat} {tenantId planCode payerEmail id : String} {now : Datetime}
      {sub : Subscription} (hcall : s.calls.get? call = none) (hid : s.repo.get? id = none)
      (hsub : sub.id = id) (htenant : sub.tenantId = tenantId) (hstatus : sub.status = .pending)
      (hpre : sub.mpPreapprovalId = none) (hactive : s.repo.activeForTenant tenantId = none) :
      Step E s (.subscribe call tenantId planCode payerEmail id now)
        ({ s with repo := s.repo.set id sub }.suspend call (.subscribe sub .waiting))
  | cancelNow {call : Nat} {tenantId subscriptionId : String} {now : Datetime} {sub : Subscription}
      (hbegin : cancelBegin s.repo tenantId subscriptionId = .ok sub)
      (hpre : truthy sub.mpPreapprovalId = false) :
      Step E s (.cancel call tenantId subscriptionId now)
        (s.store (cancelFinish E.storage s.repo sub now))
  | cancel {call : Nat} {tenantId subscriptionId : String} {now : Datetime} {sub : Subscription}
      (hcall : s.calls.get? call = none)
      (hbegin : cancelBegin s.repo tenantId subscriptionId = .ok sub)
      (hpre : truthy sub.mpPreapprovalId = true) :
      Step E s (.cancel call tenantId subscriptionId now) (s.suspend call (.cancel sub .waiting))
  | reconcile {call : Nat} {preapprovalId : String} {sub : Subscription}
      (hcall : s.calls.get? call = none)
      (hbegin : s.repo.getByPreapprovalId preapprovalId = some sub) :
      Step E s (.reconcile call preapprovalId)
        (s.suspend call (.reconcile sub preapprovalId .waiting))
  | created {call : Nat} {preapprovalId initPoint : String} {held : Subscription}
      (hcall : s.calls.get? call = some (.subscribe held .waiting)) (hne : preapprovalId ≠ "")
      (hfresh : s.preapprovals.get? preapprovalId = none) :
      Step E s (.created call preapprovalId initPoint)
        ((s.setPreapproval preapprovalId { status := "pending" }).suspend call
          (.subscribe held (.ok { preapprovalId, initPoint })))
  | servedCancel {call : Nat} {preapprovalId : String} {held : Subscription}
      {data : PreapprovalData} (hcall : s.calls.get? call = some (.cancel held .waiting))
      (hpre : held.mpPreapprovalId = some preapprovalId)
      (hdata : s.preapprovals.get? preapprovalId = some data) :
      Step E s (.served call)
        ((s.setPreapproval preapprovalId { data with status := "cancelled" }).suspend call
          (.cancel held (.ok ())))
  | servedReconcile {call : Nat} {preapprovalId : String} {held : Subscription}
      {data : PreapprovalData}
      (hcall : s.calls.get? call = some (.reconcile held preapprovalId .waiting))
      (hdata : s.preapprovals.get? preapprovalId = some data) :
      Step E s (.served call) (s.suspend call (.reconcile held preapprovalId (.ok data)))
  | fail {call : Nat} {c c' : Call} (hcall : s.calls.get? call = some c)
      (hfailed : c.failed = some c') : Step E s (.fail call) (s.suspend call c')
  | resume {call : Nat} {now : Datetime} {c : Call} {outcome : Except BillingError Repository}
      (hcall : s.calls.get? call = some c) (hfinish : c.finish E s.repo now = some outcome) :
      Step E s (.resume call now) ((s.store outcome).done call)
  | move {preapprovalId : String} {old data : PreapprovalData}
      (hold : s.preapprovals.get? preapprovalId = some old) (hmay : E.mayMove old data = true) :
      Step E s (.move preapprovalId data) (s.setPreapproval preapprovalId data)

/-- The step function does only what `Step` lists. -/
theorem step_cases {E : Setting} {s s' : System} {l : Label} (h : step E s l = some s') :
    Step E s l s' := by
  cases l with
  | subscribe call tenantId planCode payerEmail id now =>
    simp only [step] at h
    split at h
    · cases h
    · next hfree =>
      simp only [not_or, Option.not_isSome_iff_eq_none] at hfree
      split at h
      · cases h
        exact .returned _
      · next hbegin =>
        cases h
        obtain ⟨hid, ht, hst, hp, rfl, ha⟩ := subscribeBegin_eq_ok hbegin
        exact .subscribe hfree.1 hfree.2 hid ht hst hp ha
  | cancel call tenantId subscriptionId now =>
    simp only [step] at h
    split at h
    · cases h
    · next hfree =>
      split at h
      · cases h
        exact .returned _
      · next hbegin =>
        split at h
        · next hpre =>
          cases h
          exact .cancel (Option.not_isSome_iff_eq_none.mp hfree) hbegin hpre
        · next hpre =>
          cases h
          exact .cancelNow hbegin (Bool.eq_false_iff.mpr hpre)
  | reconcile call preapprovalId =>
    simp only [step] at h
    split at h
    · cases h
    · next hfree =>
      split at h
      · cases h
        exact .returned _
      · next hbegin =>
        cases h
        exact .reconcile (Option.not_isSome_iff_eq_none.mp hfree) hbegin
  | created call preapprovalId initPoint =>
    simp only [step] at h
    split at h
    · next hcall =>
      split at h
      · cases h
      · next hnew =>
        simp only [not_or, Option.not_isSome_iff_eq_none] at hnew
        cases h
        exact .created hcall hnew.1 hnew.2
    · cases h
  | served call =>
    simp only [step] at h
    split at h
    · next hcall =>
      obtain ⟨p, hp, h⟩ := Option.bind_eq_some_iff.mp h
      obtain ⟨data, hdata, h⟩ := Option.bind_eq_some_iff.mp h
      cases h
      exact .servedCancel hcall hp hdata
    · next hcall =>
      obtain ⟨data, hdata, h⟩ := Option.bind_eq_some_iff.mp h
      cases h
      exact .servedReconcile hcall hdata
    · cases h
  | fail call =>
    obtain ⟨c, hcall, h⟩ := Option.bind_eq_some_iff.mp h
    obtain ⟨c', hfailed, h⟩ := Option.bind_eq_some_iff.mp h
    cases h
    exact .fail hcall hfailed
  | resume call now =>
    obtain ⟨c, hcall, h⟩ := Option.bind_eq_some_iff.mp h
    obtain ⟨outcome, hfinish, h⟩ := Option.bind_eq_some_iff.mp h
    cases h
    exact .resume hcall hfinish
  | move preapprovalId data =>
    obtain ⟨old, hold, h⟩ := Option.bind_eq_some_iff.mp h
    split at h
    · next hmay =>
      cases h
      exact .move hold hmay
    · cases h

end Wapsell.Billing
