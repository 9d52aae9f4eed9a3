import Wapsell.Lib.Run
import Wapsell.Api.Tenants

/-!
# The tenant table as an interleaving

The endpoints and the lifecycle operations on one event loop. An operation
that awaits the spawner is a flight; it holds the row it has read. A label
is one thing that can happen next: a request is served, an operation starts,
the spawner of a flight is back, or the handlers of an event are.

`expected` is not in the program. It is the table as it would be if a
lifecycle operation set the status of the row and nothing else.

A request is a step by itself, since the endpoints of the table do not
await anything between reading and writing. An operation that awaits is
two labels or three, with anything in between.
-/

namespace Wapsell.Tenants

open Lib Py Api Onboarding

/-- A call suspended at an await.

It keeps the row as it was read. What happens to the table afterwards does not change it. -/
inductive Flight
  | lifecycle (op : LifecycleOp) (held : Tenant)
  | onboarding (held : Tenant) (payload : MetaSignupPayload)
  | publishing (payload : MetaSignupPayload)

/-- The row a flight will write, and the operation it will write it for. -/
def Flight.pending : Flight → Option (LifecycleOp × Tenant)
  | .lifecycle op held => some (op, held)
  | .onboarding held _ => some (.bringUp, held)
  | .publishing _ => none

/-- What an endpoint is asked, behind its access check. -/
inductive Request
  | create (draw : Draw) (req : TenantCreate)
  | patch (tenantId : String) (req : TenantUpdate)
  | putSoul (tenantId : String) (req : SoulConfig)
  | putHandoff (tenantId : String) (req : HandoffConfig)
  /-- `TenantManager.activate` of a manager without a spawner. -/
  | activateNow (tenantId : String)

/-- The world after a request; an error leaves it alone.

Each request is answered without an await, so it is applied to the table as it stands. -/
def serve (U : Unicode) (w : World) : Request → World
  | .create draw req => match createTenant U w draw req with
    | .ok (w, _) => w
    | .error _ => w
  | .patch tenantId req => match updateTenant w tenantId req with
    | .ok (w, _) => w
    | .error _ => w
  | .putSoul tenantId req => match updateTenantSoul w tenantId req with
    | .ok (w, _) => w
    | .error _ => w
  | .putHandoff tenantId req => match updateTenantHandoff w tenantId req with
    | .ok (w, _) => w
    | .error _ => w
  | .activateNow tenantId => match w.repo.get tenantId with
    | none => w
    | some tenant => match updateRow w (withStatus tenant .active) with
      | .ok (w, _) => w
      | .error _ => w

/-- `_uuid()` draws an id that is not there. -/
def Request.isFresh (repo : Repository) : Request → Bool
  | .create draw _ => (repo.get? draw.id).isNone
  | _ => true

/-- The state of the process: the table and the spawner, the flights, and the expected table, which
is a ghost.

`expected` starts empty like the table and is changed by the same labels; the results compare the
two. -/
structure System where
  world : World := {}
  flights : Dict Nat Flight := Dict.empty
  expected : Repository := Dict.empty

/-- No tenant, nothing in flight. -/
def System.init : System := {}

/-- One thing that can happen next. -/
inductive Label
  | request (r : Request)
  | lifecycle (i : Nat) (op : LifecycleOp) (tenantId : String)
  | onboard (i : Nat) (payload : MetaSignupPayload) (draw : Draw) (fails : Option Stage)
  /-- The spawner returns or raises, and so does the update after it. -/
  | spawned (i : Nat) (fails : Option Stage)
  | handled (i : Nat)

/-- The status of one row.

A row that is not there stays away. -/
def setStatus (repo : Repository) (tenantId : String) (status : TenantStatus) : Repository :=
  match repo.get? tenantId with
  | none => repo
  | some row => repo.set tenantId (withStatus row status)

/-- The expected table after a lifecycle operation. -/
def System.expectedAfter (s : System) (op : LifecycleOp) (held : Tenant) (fails : Option Stage) :
    Repository :=
  match (finish s.world op held fails).2 with
  | none => s.expected
  | some _ => setStatus s.expected held.id op.status

/-- The spawner of a flight is back.

An operation whose spawner or update raises ends without a status, and the expected table is left as
well. -/
def resume (s : System) (i : Nat) (fails : Option Stage) : Flight → Option System
  | .lifecycle op held => some
    { world := (finish s.world op held fails).1, flights := s.flights.erase i
      expected := s.expectedAfter op held fails }
  | .onboarding held payload =>
    let expected := s.expectedAfter .bringUp held fails
    match finish s.world .bringUp held fails with
    | (world, none) => some { world, flights := s.flights.erase i, expected }
    | (world, some tenant) => some
      { world := world.publish (onboardedEvent tenant payload)
        flights := s.flights.set i (.publishing payload), expected }
  | .publishing _ => none

/-- One step: `none` where the label cannot happen, such as a drawn id that is there or a flight
that is not. -/
def step (U : Unicode) (s : System) : Label → Option System
  | .request r =>
    if r.isFresh s.world.repo then some
      { s with
        world := serve U s.world r
        expected := (serve U { s.world with repo := s.expected } r).repo }
    else none
  | .lifecycle i op tenantId =>
    if (s.flights.get? i).isSome then none
    else match s.world.repo.get tenantId with
      | none => some s
      | some held => some { s with flights := s.flights.set i (.lifecycle op held) }
  | .onboard i payload draw fails =>
    if (s.flights.get? i).isSome ∨ (s.world.repo.get? draw.id).isSome then none
    else
      let expected := (begin_ U { s.world with repo := s.expected } payload draw fails).1.repo
      match begin_ U s.world payload draw fails with
      | (world, .spawning held) => some
        { world, flights := s.flights.set i (.onboarding held payload), expected }
      | (world, .raised) => some { s with world, expected }
      | (world, .replay _) => some { s with world, expected }
  | .spawned i fails =>
    match s.flights.get? i with
    | none => none
    | some flight => resume s i fails flight
  | .handled i =>
    match s.flights.get? i with
    | some (.publishing _) => some { s with flights := s.flights.erase i }
    | _ => none

end Wapsell.Tenants
