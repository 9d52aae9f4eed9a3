import Wapsell.Py.Datetime
import Wapsell.Py.Json

/-!
# Billing data

The subscription row, Mercado Pago's side of it, and the plan catalog, as
`sdk/wapsell/billing/models.py`, `plans.py` and `adapter.py` declare them.

The enumeration, the records and the plans keep their Python names and
their order. Only what a modelled function reads is here: the columns of
a subscription are complete, while of a preapproval the model keeps the
keys that the reconcile looks up.

The dates of a preapproval are the JSON values they came as, since what
the reconcile does with a date depends on what kind of value it is. A
status that is none of the four is told from them by `ofValue`.
-/

namespace Wapsell.Billing

open Py

/-- Mirrors Mercado Pago's preapproval status lifecycle. -/
inductive SubscriptionStatus
  | pending
  | authorized
  | paused
  | cancelled
  deriving DecidableEq, Repr

/-- The string value of the enumeration member. -/
def SubscriptionStatus.value : SubscriptionStatus → String
  | .pending => "pending"
  | .authorized => "authorized"
  | .paused => "paused"
  | .cancelled => "cancelled"

/-- `SubscriptionStatus(raw)`, `none` for the `ValueError`. -/
def SubscriptionStatus.ofValue (raw : String) : Option SubscriptionStatus :=
  if raw = "pending" then some .pending
  else if raw = "authorized" then some .authorized
  else if raw = "paused" then some .paused
  else if raw = "cancelled" then some .cancelled
  else none

theorem SubscriptionStatus.ofValue_value (s : SubscriptionStatus) :
    SubscriptionStatus.ofValue s.value = some s := by
  cases s <;> rfl

/-- One tenant's subscription. -/
structure Subscription where
  id : String
  tenantId : String
  planCode : String
  status : SubscriptionStatus := .pending
  mpPreapprovalId : Option String := none
  mpInitPoint : Option String := none
  payerEmail : Option String := none
  startedAt : Option Datetime := none
  currentPeriodEnd : Option Datetime := none
  createdAt : Datetime
  updatedAt : Datetime
  deriving DecidableEq, Repr

/-- What `create_preapproval` answers: the part of it the service stores. -/
structure PreapprovalResult where
  preapprovalId : String
  initPoint : String
  deriving DecidableEq, Repr

/-- What `get_preapproval` answers: the keys of the JSON object the service reads. The status is
`str(data.get("status", ""))`, since nothing else is done with it; the dates are the values
`data.get` answers, `None` for an absent key. -/
structure PreapprovalData where
  status : String
  nextPaymentDate : Json := .null
  dateOfExpiration : Json := .null

/-- One tier of the catalog: what a subscription request reads of it. -/
structure Plan where
  code : String
  name : String
  priceArsCents : Nat
  deriving DecidableEq, Repr

/-- The plan catalog, in the order of the source's dictionary. Prices are in centavos; no modelled
function computes with them. -/
def PLANS : List Plan :=
  [⟨"STARTER", "Starter", 2900000⟩, ⟨"PRO", "Pro", 9900000⟩, ⟨"ENTERPRISE", "Enterprise", 49900000⟩]

/-- The exceptions the service raises. `KeyError` and `BillingConflictError` carry their message;
`MercadoPagoError` wraps any failure of the API. -/
inductive BillingError
  | keyError (message : String)
  | conflict (message : String)
  | mercadoPago
  deriving DecidableEq, Repr

/-- Lookup with the friendlier message. -/
def getPlan (U : Unicode) (code : String) : Except BillingError Plan :=
  match PLANS.find? (fun p => p.code == code) with
  | some plan => .ok plan
  | none =>
    let codes := join ", " (PLANS.map fun p => reprStr U p.code)
    .error (.keyError ("unknown plan code: " ++ reprStr U code ++ " (valid: (" ++ codes ++ "))"))

/-- `if subscription.mp_preapproval_id:` — neither `None` nor the empty string. The adapters keep
the two apart, and `cancel` does not. -/
def truthy : Option String → Bool
  | none => false
  | some s => s ≠ ""

end Wapsell.Billing
