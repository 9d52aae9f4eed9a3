import Wapsell.Billing.Repository

/-!
# The billing service, between its awaits

Each of the three coroutines of `BillingService` makes one request to
Mercado Pago, so each is two stretches of code that nothing interrupts: the
one before the await and the one after it. `…Begin` is the first and
`…Finish` the second. The first decides whether there is a request to make
and what the coroutine holds while it waits; the second is run against the
repository as it is by then.

The requests carry what the source passes, but nothing is computed from
them; Mercado Pago is the environment of the interleaving. Log lines are
left out. The order of the statements is kept, because it decides what
an exception leaves behind: a `subscribe` whose request fails has
already added its PENDING row.
-/

namespace Wapsell.Billing

open Py

/-- The request `create_preapproval` sends, as `subscribe` fills it in. -/
structure PreapprovalRequest where
  planName : String
  amountArsCents : Nat
  payerEmail : String
  externalReference : String
  deriving DecidableEq, Repr

/-- `subscribe` up to its await: the plan must exist and no subscription of the tenant may be
active. The row is added before the request is sent, so it stays when the request fails. -/
def subscribeBegin (U : Unicode) (repo : Repository) (tenantId planCode payerEmail id : String)
    (now : Datetime) : Except BillingError (PreapprovalRequest × Subscription × Repository) := do
  let plan ← getPlan U planCode
  match repo.activeForTenant tenantId with
  | some existing =>
    throw (.conflict
      s!"tenant {tenantId} already has an active subscription ({existing.planCode})")
  | none =>
    let subscription : Subscription :=
      { id, tenantId, planCode := plan.code, payerEmail := some payerEmail, status := .pending,
        createdAt := now, updatedAt := now }
    let request : PreapprovalRequest :=
      { planName := s!"Wapsell {plan.name}", amountArsCents := plan.priceArsCents, payerEmail,
        externalReference := subscription.id }
    pure (request, subscription, repo.add subscription)

/-- `subscribe` after Mercado Pago answered. A `MercadoPagoError` is raised again and leaves the
PENDING row as it is, so it has no second stretch. -/
def subscribeFinish (storage : Storage) (repo : Repository) (held : Subscription)
    (result : PreapprovalResult) (now : Datetime) : Except BillingError Repository :=
  let subscription := storage.current repo held
  repo.update { subscription with
    mpPreapprovalId := some result.preapprovalId
    mpInitPoint := some result.initPoint
    updatedAt := now }

/-- `cancel` up to its await: the row must exist and belong to the tenant. Nothing is written yet,
and whether there is a request to make depends on the row's preapproval id. -/
def cancelBegin (repo : Repository) (tenantId subscriptionId : String) :
    Except BillingError Subscription :=
  match repo.get subscriptionId with
  | none => .error (.keyError s!"subscription not found: {subscriptionId}")
  | some subscription =>
    if subscription.tenantId ≠ tenantId then
      .error (.keyError s!"subscription not found: {subscriptionId}")
    else .ok subscription

/-- `cancel` after Mercado Pago answered, or at once when there is no preapproval to cancel. A
`MercadoPagoError` is logged and comes here too. -/
def cancelFinish (storage : Storage) (repo : Repository) (held : Subscription) (now : Datetime) :
    Except BillingError Repository :=
  let subscription := storage.current repo held
  repo.update { subscription with status := .cancelled, updatedAt := now }

/-- `reconcile_from_webhook` up to its await. An unknown preapproval id is dropped. -/
def reconcileBegin (repo : Repository) (preapprovalId : String) : Option Subscription :=
  repo.getByPreapprovalId preapprovalId

/-- `data.get("next_payment_date") or data.get("date_of_expiration")`, when it is a string. A first
date that is truthy and no string is taken, and is no string. -/
def PreapprovalData.nextPayment (data : PreapprovalData) : Option String :=
  match if data.nextPaymentDate.truthy then data.nextPaymentDate else data.dateOfExpiration with
  | .str raw => some raw
  | _ => none

/-- `SubscriptionStatus(str(data.get("status", "")).lower())`. -/
def PreapprovalData.mpStatus (U : Unicode) (data : PreapprovalData) : Option SubscriptionStatus :=
  SubscriptionStatus.ofValue (lower U data.status)

/-- The row `reconcile_from_webhook` writes for a known status. -/
def reconciled (fromisoformat : String → Option Datetime) (subscription : Subscription)
    (data : PreapprovalData) (status : SubscriptionStatus) (now : Datetime) : Subscription :=
  { subscription with
    startedAt :=
      if status = .authorized ∧ subscription.startedAt = none then some now
      else subscription.startedAt
    -- an unreadable date is suppressed and keeps what the row had
    currentPeriodEnd :=
      match data.nextPayment.bind fun raw => fromisoformat (replaceChar 'Z' "+00:00" raw) with
      | some t => some t
      | none => subscription.currentPeriodEnd
    status := status
    updatedAt := now }

/-- `reconcile_from_webhook` after Mercado Pago answered: an unknown status keeps the local state,
a known one is copied onto the row. -/
def reconcileFinish (U : Unicode) (fromisoformat : String → Option Datetime) (storage : Storage)
    (repo : Repository) (held : Subscription) (data : PreapprovalData) (now : Datetime) :
    Except BillingError Repository :=
  match data.mpStatus U with
  | none => .ok repo
  | some status =>
    repo.update (reconciled fromisoformat (storage.current repo held) data status now)

/-! ## What each stretch does to the rows -/

/-- The object a caller holds is the stored row or the row it read: same subscription, same tenant,
whenever the read row was. -/
theorem Storage.current_id (storage : Storage) {repo : Repository} {held row : Subscription}
    (hrow : repo.get? held.id = some row) (hid : row.id = held.id) :
    (storage.current repo held).id = held.id := by
  cases storage with
  | inMemory => simpa only [Storage.current, hrow, Option.getD_some] using hid
  | postgres => rfl

/-- A property of both the stored row and the read row is one of the object the caller holds. -/
theorem Storage.current_of_both (storage : Storage) {repo : Repository} {held row : Subscription}
    {P : Subscription → Prop} (hrow : repo.get? held.id = some row) (hr : P row) (hh : P held) :
    P (storage.current repo held) := by
  cases storage with
  | inMemory => simpa only [Storage.current, hrow, Option.getD_some] using hr
  | postgres => exact hh

/-- A begun subscription is PENDING, has no preapproval, and found no AUTHORIZED row. -/
theorem subscribeBegin_eq_ok {U : Unicode} {repo repo' : Repository}
    {tenantId planCode payerEmail id : String} {now : Datetime} {request : PreapprovalRequest}
    {sub : Subscription}
    (h : subscribeBegin U repo tenantId planCode payerEmail id now = .ok (request, sub, repo')) :
    sub.id = id ∧ sub.tenantId = tenantId ∧ sub.status = .pending ∧ sub.mpPreapprovalId = none ∧
      repo' = repo.set id sub ∧ repo.activeForTenant tenantId = none := by
  unfold subscribeBegin at h
  cases hplan : getPlan U planCode with
  | error e =>
    rw [hplan] at h
    cases h
  | ok plan =>
    rw [hplan] at h
    cases hactive : repo.activeForTenant tenantId with
    | some existing =>
      simp only [hactive] at h
      cases h
    | none =>
      simp only [hactive] at h
      cases h
      exact ⟨rfl, rfl, rfl, rfl, rfl, rfl⟩

/-- `cancel` proceeds only on a stored row of the tenant. -/
theorem cancelBegin_eq_ok {repo : Repository} {tenantId subscriptionId : String}
    {sub : Subscription} (h : cancelBegin repo tenantId subscriptionId = .ok sub) :
    repo.get? subscriptionId = some sub ∧ sub.tenantId = tenantId := by
  unfold cancelBegin Repository.get at h
  cases hget : repo.get? subscriptionId with
  | none =>
    rw [hget] at h
    cases h
  | some found =>
    simp only [hget] at h
    split at h
    · cases h
    · next hne =>
      cases h
      exact ⟨rfl, not_not.mp hne⟩

end Wapsell.Billing
