import Wapsell.Tenant.Repository

/-!
# Creating tenants and moving them through their life

`TenantManager` and `TenantSupervisor` of `sdk/wapsell/tenant/`. A lifecycle
operation reads the row, awaits the spawner and writes the whole row it had
read, with another status; what lies before the await and what lies after it
are two functions.

The spawner in memory is a set of ids. Whether a spawner fails is an
argument of the step.

Because the row is written as it was read, anything that was written to
it in between is lost. That is the reason for the cut, and the results
about interleavings are built on these two halves.
-/

namespace Wapsell.Tenants

open Lib Py

/-- What a new row takes from outside: `_uuid()` and the clock. -/
structure Draw where
  id : String
  createdAt : Datetime
  deriving DecidableEq, Repr

/-- The default of `Tenant.model`. -/
def DEFAULT_MODEL : String := "openai/gpt-4o-mini"

/-- `model or default_model`.

An empty text counts as none given. -/
def modelOr (model : Option String) : String :=
  match model with
  | some m => if m ≠ "" then m else DEFAULT_MODEL
  | none => DEFAULT_MODEL

/-- `Tenant(name=…, slug=…, model=…)`. -/
def newTenant (draw : Draw) (name slug : String) (model : Option String) : Tenant where
  id := draw.id
  name := name
  slug := slug
  model := modelOr model
  createdAt := draw.createdAt

/-- `TenantManager.create`, with the text of its `ValueError`: the slug is looked up, and the row
added under a drawn id. -/
def create (U : Unicode) (repo : Repository) (draw : Draw) (name slug : String)
    (model : Option String) : Except String (Tenant × Repository) :=
  if (repo.bySlug slug).isSome then .error ("tenant slug already exists: " ++ reprStr U slug)
  else
    let tenant := newTenant draw name slug model
    .ok (tenant, repo.add tenant)

/-- The operations that await the spawner. -/
inductive LifecycleOp
  | bringUp
  | bringDown
  | activate
  deriving DecidableEq, Repr

/-- The status an operation leaves. -/
def LifecycleOp.status : LifecycleOp → TenantStatus
  | .bringUp => .active
  | .bringDown => .suspended
  | .activate => .active

/-- `InMemoryTenantSpawner._running` after `spawn` or `stop`.

Spawning one that runs and stopping one that does not change nothing. -/
def LifecycleOp.spawner (op : LifecycleOp) (running : List String) (tenantId : String) :
    List String :=
  match op with
  | .bringUp => running.insert tenantId
  | .bringDown => running.filter fun id => id ≠ tenantId
  | .activate => running.insert tenantId

/-- `model_copy(update={"status": …})`. -/
def withStatus (tenant : Tenant) (status : TenantStatus) : Tenant := { tenant with status }

/-- `by_slug` finds nothing exactly when no row has the slug. -/
theorem bySlug_eq_none_iff {repo : Repository} {slug : String} :
    repo.bySlug slug = none ↔ ∀ k t, repo.get? k = some t → t.slug ≠ slug := by
  unfold Repository.bySlug
  rw [List.find?_eq_none]
  constructor
  · intro h k t ht
    simpa using h t (Dict.mem_values_iff.mpr ⟨k, ht⟩)
  · intro h t ht
    obtain ⟨k, hk⟩ := Dict.mem_values_iff.mp ht
    simpa using h k t hk

/-- `by_phone_number_id` finds nothing exactly when no row has the number. -/
theorem byPhoneNumberId_eq_none_iff {repo : Repository} {n : String} :
    repo.byPhoneNumberId n = none ↔
      ∀ k t, repo.get? k = some t → t.whatsappPhoneNumberId ≠ some n := by
  unfold Repository.byPhoneNumberId
  rw [List.find?_eq_none]
  constructor
  · intro h k t ht
    simpa using h t (Dict.mem_values_iff.mpr ⟨k, ht⟩)
  · intro h t ht
    obtain ⟨k, hk⟩ := Dict.mem_values_iff.mp ht
    simpa using h k t hk

theorem create_of_free {repo : Repository} {slug : String} (h : repo.bySlug slug = none)
    (U : Unicode) (draw : Draw) (name : String) (model : Option String) :
    create U repo draw name slug model = .ok (newTenant draw name slug model,
      repo.set draw.id (newTenant draw name slug model)) := by
  rw [create, h]
  rfl

theorem update_of_some {repo : Repository} {t old : Tenant} (h : repo.get? t.id = some old) :
    repo.update t = .ok (repo.set t.id t) := by
  rw [Repository.update, h]
  rfl

end Wapsell.Tenants
