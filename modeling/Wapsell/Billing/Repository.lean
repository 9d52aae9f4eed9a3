import Mathlib.Data.List.Sort
import Wapsell.Lib.Dict
import Wapsell.Billing.Models

/-!
# Subscription persistence

`InMemorySubscriptionRepository`: a dictionary from the subscription's id.
The Postgres adapter keeps the same rows under the same keys; what differs
is what a caller holds between a read and a write, and that is `Storage`.
In memory, `get` hands out the stored object, so whatever another call
assigned to it meanwhile is already in the caller's hands. Postgres decodes
a fresh object on every read, so a caller writes back the row it read.

Only the order of equal rows is the adapter's own business: `list_for`
sorts by creation time, newest first, and rows that are equally new
stand in the order of the dictionary here and in any order in the table.
`active_for_tenant` takes the first AUTHORIZED row of that listing.
-/

namespace Wapsell.Billing

open Lib

/-- `_by_id`. -/
abbrev Repository := Dict String Subscription

namespace Repository

/-- `add`. -/
def add (repo : Repository) (subscription : Subscription) : Repository :=
  repo.set subscription.id subscription

/-- `get`. -/
def get (repo : Repository) (subscriptionId : String) : Option Subscription :=
  repo.get? subscriptionId

/-- `get_by_preapproval_id`. -/
def getByPreapprovalId (repo : Repository) (preapprovalId : String) : Option Subscription :=
  repo.values.find? fun s => s.mpPreapprovalId = some preapprovalId

/-- `list_for`: newest first. -/
def listFor (repo : Repository) (tenantId : String) : List Subscription :=
  (repo.values.filter fun s => s.tenantId = tenantId).insertionSort
    fun a b => b.createdAt ≤ a.createdAt

/-- `active_for_tenant`: AUTHORIZED is active; PAUSED and PENDING do not count. -/
def activeForTenant (repo : Repository) (tenantId : String) : Option Subscription :=
  (listFor repo tenantId).find? fun s => s.status = .authorized

/-- `update`. -/
def update (repo : Repository) (subscription : Subscription) : Except BillingError Repository :=
  if (repo.get? subscription.id).isSome then .ok (repo.set subscription.id subscription)
  else .error (.keyError s!"unknown subscription: {subscription.id}")

theorem update_of_get {repo : Repository} {subscription row : Subscription} {id : String}
    (hid : subscription.id = id) (h : repo.get? id = some row) :
    update repo subscription = .ok (repo.set id subscription) := by
  subst hid
  rw [update, h]
  rfl

/-- What the lookup by preapproval id finds is a stored row with that id. -/
theorem getByPreapprovalId_eq_some {repo : Repository} {preapprovalId : String} {sub : Subscription}
    (h : repo.getByPreapprovalId preapprovalId = some sub) :
    sub.mpPreapprovalId = some preapprovalId ∧ ∃ k, repo.get? k = some sub := by
  refine ⟨?_, Dict.mem_values_iff.mp (List.mem_of_find?_eq_some h)⟩
  simpa only [decide_eq_true_eq] using List.find?_some h

/-- A stored row with the preapproval id makes the lookup succeed. -/
theorem getByPreapprovalId_isSome {repo : Repository} {preapprovalId k : String} {sub : Subscription}
    (hk : repo.get? k = some sub) (hp : sub.mpPreapprovalId = some preapprovalId) :
    ∃ found, repo.getByPreapprovalId preapprovalId = some found := by
  rw [← Option.isSome_iff_exists]
  apply List.find?_isSome.mpr
  exact ⟨sub, Dict.mem_values_iff.mpr ⟨k, hk⟩, by simpa only [decide_eq_true_eq] using hp⟩

end Repository

/-- Which adapter backs the repository. It is a parameter of the interleaving, since the two differ
in what a resumed call writes over. -/
inductive Storage
  | inMemory
  | postgres
  deriving DecidableEq, Repr

/-- The object a caller holds after an await, when it held `held` before it. -/
def Storage.current (storage : Storage) (repo : Repository) (held : Subscription) : Subscription :=
  match storage with
  | .inMemory => (repo.get? held.id).getD held
  | .postgres => held

end Wapsell.Billing
