import Wapsell.Api.Inbound
import Wapsell.Crm.Reapply

/-!
# Background extractor runs

`_run_crm_extractor` of `services/api/main.py`, beside the inbound turns on
the same event loop. A run looks the contact up, awaits the memory and then
the model, and applies what the model answered. It is scheduled behind a
turn, and any number of them may be in flight: which turns warrant one is
left open here.

A run holds an id and not a row while it waits, because that is what the
source keeps: what it writes back it has read again, in the stretch in
which it writes. So a turn that comes between the lookup and the write
is never overwritten from a stale copy, and whether that is enough is
what the module on these runs settles.

**What this does not establish.** Which turns schedule a run; a label
starts one at any time here, which is more than the process can do.
Another model ties the runs to the turns.
-/

namespace Wapsell.Api

open Lib Py Memory Crm

/-- Where a run of the extractor is. -/
inductive ExtractorPhase
  /-- `create_task` has scheduled it. -/
  | scheduled
  /-- `memory.recall`. -/
  | recalling (contactId : String)
  /-- `extractor.extract`. -/
  | extracting (contactId : String)
  deriving DecidableEq, Repr

/-- A run in flight.

The number and the buyer's id are kept from the turn that scheduled it, and so is the tenant. -/
structure ExtractorRun where
  tenantId : String
  buyerId : String
  fromNumber : String
  phase : ExtractorPhase
  deriving DecidableEq, Repr

/-- The process with its background tasks: the system of the inbound turns, and beside it the runs
in flight under the number of their task. -/
structure Background where
  sys : System
  runs : Dict Nat ExtractorRun := Dict.empty

/-- One thing that can happen next. -/
inductive BackgroundLabel
  | inbound (label : Label)
  | dispatched (j : Nat) (tenantId buyerId fromNumber : String)
  | started (j : Nat)
  | recalled (j : Nat) (outcome : Except String Unit)
  | extracted (j : Nat) (outcome : Except String ExtractionResult) (draw : ApplyDraw)

/-- A run goes on to its next await. -/
def Background.suspend (b : Background) (j : Nat) (r : ExtractorRun) : Background :=
  { b with runs := b.runs.set j r }

/-- A run returns. -/
def Background.done (b : Background) (j : Nat) : Background := { b with runs := b.runs.erase j }

/-- From the start of a run to the memory: it is over where there is no contact.

The contact is looked up by the number, and only its id is kept. -/
def afterStart (b : Background) (j : Nat) (r : ExtractorRun) : Background :=
  match b.sys.resources.findByExternalId r.tenantId CONTACT_KIND (contactExternalId r.fromNumber) with
  | none => b.done j
  | some contact => b.suspend j { r with phase := .recalling contact.id }

/-- From the memory to the model: it is over where the memory raises or has no text.

The model is asked about forty turns at most. The memory is read when it answers, so turns that came
while it was awaited are in. -/
def afterRecall (b : Background) (j : Nat) (r : ExtractorRun) (contactId : String)
    (outcome : Except String Unit) : Background :=
  match outcome with
  | .error _ => b.done j
  | .ok () =>
    if (b.sys.memory.recall_ r.buyerId (some 40)).any (fun i => i.text ≠ "") then
      b.suspend j { r with phase := .extracting contactId }
    else b.done j

/-- From the model to the end: what it answered is applied, an empty answer being none.

The contact is read again here, in the stretch that writes it. -/
def afterExtract (U : Unicode) (b : Background) (j : Nat) (r : ExtractorRun) (contactId : String)
    (outcome : Except String ExtractionResult) (draw : ApplyDraw) : Background :=
  match outcome with
  | .error _ => b.done j
  | .ok result =>
    if result.isEmpty then b.done j
    else
      { b with sys := { b.sys with
          resources := applied U b.sys.resources r.tenantId contactId result draw } }.done j

/-- The uuids that a stretch of a turn draws are not in use.

A uuid that is in use has a probability nobody counts on. The condition is on what is drawn and says
nothing of the program. -/
def drawsFresh (s : System) : Label → Bool
  | .remembered _ _ _ contactDraw activityDraw =>
    decide (s.resources.get? contactDraw.id = none ∧ s.resources.get? activityDraw.id = none ∧
      contactDraw.id ≠ activityDraw.id)
  | .persisted _ _ draw => decide (s.resources.get? draw.id = none)
  | _ => true

/-- The step function. A label resumes the run it names from the await it is suspended at, and may
not be taken where no such run waits. -/
def backgroundStep (E : Setting) (b : Background) : BackgroundLabel → Option Background
  | .inbound label =>
    if drawsFresh b.sys label then (step E b.sys label).map fun sys => { b with sys } else none
  | .dispatched j tenantId buyerId fromNumber =>
    if (b.runs.get? j).isSome then none
    else some (b.suspend j { tenantId, buyerId, fromNumber, phase := .scheduled })
  | .started j => do
    let r ← b.runs.get? j
    match r.phase with
    | .scheduled => some (afterStart b j r)
    | _ => none
  | .recalled j outcome => do
    let r ← b.runs.get? j
    match r.phase with
    | .recalling contactId => some (afterRecall b j r contactId outcome)
    | _ => none
  | .extracted j outcome draw => do
    let r ← b.runs.get? j
    match r.phase, outcome with
    | .extracting contactId, .ok result =>
      if draw.Fresh b.sys.resources result then
        some (afterExtract E.U b j r contactId (.ok result) draw)
      else none
    | .extracting contactId, .error message =>
      some (afterExtract E.U b j r contactId (.error message) draw)
    | _, _ => none

end Wapsell.Api
