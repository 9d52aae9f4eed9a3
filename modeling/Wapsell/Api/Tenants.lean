import Wapsell.Agent.Soul
import Wapsell.Api.Access
import Wapsell.Onboarding.Flow

/-!
# The tenant endpoints

`create_tenant`, `update_tenant` and the two configuration endpoints of
`services/api/main.py`, behind their access checks. Each reads and writes
without an await in between, so each is one step of the process.

The routes are here with their bodies, because a run over tenants is a
run of these and of the onboarding flow. An empty number is no number
when a tenant is made and one when it is updated, as in the source.

**What this does not establish.** That a slug or a number is taken once;
the routes do not look, and the module on uniqueness says what follows.
-/

namespace Wapsell.Api

open Lib Py Tenants Onboarding

/-- `TenantCreate`. -/
structure TenantCreate where
  name : String
  slug : String
  model : Option String := none
  whatsappPhoneNumberId : Option String := none
  deriving DecidableEq, Repr

/-- The number a new tenant gets: an empty one counts as none. -/
def TenantCreate.number (req : TenantCreate) : Option String :=
  req.whatsappPhoneNumberId.filter fun n => n ≠ ""

/-- `TenantUpdate`. -/
structure TenantUpdate where
  model : Option String := none
  whatsappPhoneNumberId : Option String := none
  deriving DecidableEq, Repr

/-- An exception no route expects.

FastAPI answers so where a route lets an exception through. -/
def internalError : HTTPException := ⟨500, "Internal Server Error"⟩

/-- `repository.update` inside a route. -/
def updateRow (w : World) (tenant : Tenant) : Except HTTPException (World × Tenant) :=
  match w.repo.update tenant with
  | .ok repo => .ok ({ w with repo }, tenant)
  | .error _ => .error internalError

/-- `create_tenant`.

The row is added before the number is written to it, so the two are two writes, with nothing in
between. -/
def createTenant (U : Unicode) (w : World) (draw : Draw) (req : TenantCreate) :
    Except HTTPException (World × Tenant) :=
  match create U w.repo draw req.name req.slug req.model with
  | .error detail => .error ⟨409, detail⟩
  | .ok (tenant, repo) =>
    match req.number with
    | none => .ok ({ w with repo }, tenant)
    | some number => updateRow { w with repo } (withNumber tenant number)

/-- `model_copy(update=updates)` of `update_tenant`. -/
def patched (tenant : Tenant) (req : TenantUpdate) : Tenant :=
  { tenant with
    model := req.model.getD tenant.model
    whatsappPhoneNumberId := req.whatsappPhoneNumberId.or tenant.whatsappPhoneNumberId }

/-- `update_tenant`: an empty number is a number, unlike in `create_tenant`. Only the fields of the
request are written over the row that was read. -/
def updateTenant (w : World) (tenantId : String) (req : TenantUpdate) :
    Except HTTPException (World × Tenant) := do
  let tenant ← tenantOr404 w.repo tenantId
  if req.model = none ∧ req.whatsappPhoneNumberId = none then pure (w, tenant)
  else updateRow w (patched tenant req)

/-- `model_copy(update={"soul_config": req})`. -/
def withSoul (tenant : Tenant) (req : SoulConfig) : Tenant := { tenant with soulConfig := some req }

/-- `model_copy(update={"handoff_config": req})`. -/
def withHandoff (tenant : Tenant) (req : HandoffConfig) : Tenant :=
  { tenant with handoffConfig := some req }

/-- `update_tenant_soul`: the rendered prompt and the configuration.

The prompt in the answer is built without hints, unlike the one the agent is given. -/
def updateTenantSoul (w : World) (tenantId : String) (req : SoulConfig) :
    Except HTTPException (World × String × SoulConfig) := do
  let tenant ← tenantOr404 w.repo tenantId
  let (w, tenant) ← updateRow w (withSoul tenant req)
  pure (w, Agent.build tenant none "", req)

/-- `update_tenant_handoff`. -/
def updateTenantHandoff (w : World) (tenantId : String) (req : HandoffConfig) :
    Except HTTPException (World × HandoffConfig) := do
  let tenant ← tenantOr404 w.repo tenantId
  let (w, _) ← updateRow w (withHandoff tenant req)
  pure (w, req)

end Wapsell.Api
