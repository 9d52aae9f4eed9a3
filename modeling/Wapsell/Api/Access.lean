import Wapsell.Tenant.Repository

/-!
# Access control

The helpers of `services/api/main.py` that stand at the head of a route.
`caller` is what `_optional_current_user` resolves the session cookie to, and
`required` is `_auth_required()`.

The three are kept as small as they are in the source, since a route
composes them with its own body and the order matters: an unknown tenant
is a 404 only for who may ask, and anybody else is told nothing of it.

**What this does not establish.** That a route calls them at all; each
route has its own model, and one that checks nothing shows there.
-/

namespace Wapsell.Api

open Lib Py

/-- An `HTTPException`. -/
structure HTTPException where
  statusCode : Nat
  detail : String
  deriving DecidableEq, Repr

/-- `_assert_authenticated`.

With access control off the caller may be nobody, and the route goes on with that. -/
def assertAuthenticated (required : Bool) (caller : Option User) :
    Except HTTPException (Option User) :=
  if required = false then .ok caller
  else match caller with
    | none => .error ⟨401, "authentication required"⟩
    | some user => .ok (some user)

/-- `_assert_tenant_access`. Where access control is off everybody passes, with or without a
session. -/
def assertTenantAccess (required : Bool) (caller : Option User) (tenantId : String) :
    Except HTTPException (Option User) :=
  if required = false then .ok caller
  else match assertAuthenticated required caller with
    | .error e => .error e
    | .ok none => .error ⟨401, "authentication required"⟩
    | .ok (some user) =>
      if user.role = .admin then .ok (some user)
      else if user.tenantId ≠ some tenantId then .error ⟨403, "tenant access denied"⟩
      else .ok (some user)

/-- `TenantManager.get`, with the answer a route gives to its `KeyError`.

The text is the same in every route, so an answer tells nothing else. -/
def tenantOr404 (tenants : Tenants.Repository) (tenantId : String) : Except HTTPException Tenant :=
  match tenants.get tenantId with
  | none => .error ⟨404, "tenant not found"⟩
  | some tenant => .ok tenant

end Wapsell.Api
