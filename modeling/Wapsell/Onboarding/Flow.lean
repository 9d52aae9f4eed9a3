import Wapsell.Onboarding.Slug

/-!
# The onboarding flow

`OnboardingFlow.run` of `sdk/wapsell/onboarding/flow.py`, cut at its two
awaits: everything up to the spawner (`begin_`), what the supervisor does
when the spawner is back (`finish`), and the event (`publish`). `World` is
what these read and write.

A stage that fails raises out of `run`, and what was written before it
stays. Which stage fails is an argument of the model, since the spawner,
the repository and the handlers may each raise for reasons of their own.

The pieces are put together twice: as a run by itself, where nothing
comes between them, and as labels of the tenant system, where anything
may. Both use these definitions, so they cannot disagree on what a stage
does.
-/

namespace Wapsell.Onboarding

open Lib Py Tenants

/-- Normalized Meta Embedded Signup callback.

The number is what a replay is recognized by. The two ids of Meta are only passed on in the
event. -/
structure MetaSignupPayload where
  phoneNumberId : String
  businessName : String
  wabaId : Option String := none
  businessId : Option String := none
  deriving DecidableEq, Repr

/-- An immutable domain event. -/
structure Event where
  type : String
  payload : Dict String (Option String)

/-- The repository, the spawner's running set, and `InMemoryEventBus.events`. -/
structure World where
  repo : Repository := Dict.empty
  running : List String := []
  events : List Event := []

/-! ## The stages of a run -/

/-- Where a run can fail, in the order in which it comes to these places. -/
inductive Stage
  | setNumber
  | renderSoul
  | spawn
  | setStatus
  | handler
  deriving DecidableEq, Repr

/-- How a run stands at its first await, if it gets there.

A failed run and a replay are over here. Only the third goes on, with the row that `bring_up` has
read. -/
inductive Begun
  /-- The number is owned already: `is_new=False`. -/
  | replay (tenant : Tenant)
  | raised
  /-- `bring_up` has read the row and awaits the spawner. -/
  | spawning (tenant : Tenant)

/-- `model_copy(update={"whatsapp_phone_number_id": …})`. -/
def withNumber (tenant : Tenant) (phoneNumberId : String) : Tenant :=
  { tenant with whatsappPhoneNumberId := some phoneNumberId }

/-- `run`, up to the spawner: the lookup of the number, the slug, the new row, the number on it, and
its prompt. For a number that is owned it returns the owner at once. -/
def begin_ (U : Unicode) (w : World) (payload : MetaSignupPayload) (draw : Draw)
    (fails : Option Stage) : World × Begun :=
  match w.repo.byPhoneNumberId payload.phoneNumberId with
  | some existing => (w, .replay existing)
  | none =>
    match uniqueSlug w.repo (slugify U payload.businessName) with
    | none => (w, .raised)
    | some slug =>
      match create U w.repo draw payload.businessName slug none with
      | .error _ => (w, .raised)
      | .ok (tenant, repo) =>
        if fails = some .setNumber then ({ w with repo }, .raised)
        else match repo.update (withNumber tenant payload.phoneNumberId) with
          | .error _ => ({ w with repo }, .raised)
          | .ok repo =>
            if fails = some .renderSoul then ({ w with repo }, .raised)
            else match repo.get tenant.id with
              | none => ({ w with repo }, .raised)
              | some tenant => ({ w with repo }, .spawning tenant)

/-- A lifecycle operation from the spawner on: the row it wrote, unless it raises.

The row it writes is the one it held while the spawner was awaited, with another status; what was
written to the row in between is lost. -/
def finish (w : World) (op : LifecycleOp) (held : Tenant) (fails : Option Stage) :
    World × Option Tenant :=
  if fails = some .spawn then (w, none)
  else
    let w := { w with running := op.spawner w.running held.id }
    if fails = some .setStatus then (w, none)
    else match w.repo.update (withStatus held op.status) with
      | .error _ => (w, none)
      | .ok repo => ({ w with repo }, some (withStatus held op.status))

/-- `tenant.onboarded`.

Its fields are the arguments the run was given and the row it made, in the order of the source. -/
def onboardedEvent (tenant : Tenant) (payload : MetaSignupPayload) : Event where
  type := "tenant.onboarded"
  payload := ((((((Dict.empty.set "tenant_id" (some tenant.id)).set "slug" (some tenant.slug)).set
    "phone_number_id" (some payload.phoneNumberId)).set
    "business_name" (some payload.businessName)).set "waba_id" payload.wabaId).set
    "business_id" payload.businessId)

/-- `InMemoryEventBus.publish`, up to the first handler. -/
def World.publish (w : World) (event : Event) : World := { w with events := w.events ++ [event] }

/-- The `tenant.onboarded` events of a number. -/
def onboardedFor (number : String) (w : World) : List Event :=
  w.events.filter fun e =>
    e.type = "tenant.onboarded" ∧ e.payload.get? "phone_number_id" = some (some number)

/-! ## What a stage does -/

/-- The row of a signup. -/
def signedUp (draw : Draw) (payload : MetaSignupPayload) (slug : String) : Tenant :=
  withNumber (newTenant draw payload.businessName slug none) payload.phoneNumberId

/-- A world with another row. -/
def World.setRow (w : World) (tenant : Tenant) : World :=
  { w with repo := w.repo.set tenant.id tenant }

/-- A number somebody owns is a replay, whatever else could have failed. -/
theorem begin_of_owned {U : Unicode} {w : World} {payload : MetaSignupPayload} {existing : Tenant}
    (h : w.repo.byPhoneNumberId payload.phoneNumberId = some existing) (draw : Draw)
    (fails : Option Stage) : begin_ U w payload draw fails = (w, .replay existing) := by
  rw [begin_, h]

/-- A number nobody owns is a new row, under a slug nobody has. -/
theorem begin_of_fresh {w : World} (payload : MetaSignupPayload) (draw : Draw)
    (hnumber : w.repo.byPhoneNumberId payload.phoneNumberId = none) (U : Unicode) :
    ∃ slug, w.repo.bySlug slug = none ∧
      begin_ U w payload draw (some .setNumber) =
        (w.setRow (newTenant draw payload.businessName slug none), .raised) ∧
      begin_ U w payload draw (some .renderSoul) =
        (w.setRow (signedUp draw payload slug), .raised) ∧
      ∀ fails, fails ≠ some .setNumber → fails ≠ some .renderSoul →
        begin_ U w payload draw fails =
          (w.setRow (signedUp draw payload slug), .spawning (signedUp draw payload slug)) := by
  obtain ⟨slug, hslug, hfree⟩ := uniqueSlug_spec w.repo (slugify U payload.businessName)
  have hupdate : Repository.update
      (w.repo.set draw.id (newTenant draw payload.businessName slug none))
      (withNumber (newTenant draw payload.businessName slug none) payload.phoneNumberId) =
        .ok (w.setRow (signedUp draw payload slug)).repo := by
    refine (update_of_some (t := signedUp draw payload slug) (Dict.get?_set_self _ _ _)).trans ?_
    exact congrArg Except.ok (Dict.set_set _ _ _ _)
  have hget : (w.setRow (signedUp draw payload slug)).repo.get (newTenant draw payload.businessName
      slug none).id = some (signedUp draw payload slug) := Dict.get?_set_self _ _ _
  refine ⟨slug, hfree, ?_, ?_, fun fails hnot hnot' => ?_⟩
  · simp only [begin_, hnumber, hslug, create_of_free hfree, if_true]
    rfl
  · simp only [begin_, hnumber, hslug, create_of_free hfree]
    rw [if_neg (by decide), hupdate]
    rfl
  · simp only [begin_, hnumber, hslug, create_of_free hfree, if_neg hnot]
    rw [hupdate]
    simp only [if_neg hnot', hget]
    rfl

/-- What a lifecycle operation does when its row is still there. -/
theorem finish_of_some {w : World} {held old : Tenant} (h : w.repo.get? held.id = some old)
    (op : LifecycleOp) {fails : Option Stage} (hspawn : fails ≠ some .spawn)
    (hstatus : fails ≠ some .setStatus) :
    finish w op held fails =
      ({ w.setRow (withStatus held op.status) with running := op.spawner w.running held.id },
        some (withStatus held op.status)) := by
  have hupdate : w.repo.update (withStatus held op.status) =
      .ok (w.setRow (withStatus held op.status)).repo := update_of_some h
  simp only [finish, if_neg hspawn, if_neg hstatus, hupdate]
  rfl

/-- One more event of the number, and no other number's. -/
theorem onboardedFor_publish (w : World) (tenant : Tenant) (payload : MetaSignupPayload)
    (number : String) :
    onboardedFor number (w.publish (onboardedEvent tenant payload)) =
      onboardedFor number w ++
        if payload.phoneNumberId = number then [onboardedEvent tenant payload] else [] := by
  rw [onboardedFor, World.publish, List.filter_append, List.filter_singleton]
  by_cases h : payload.phoneNumberId = number <;> simp [onboardedEvent, onboardedFor, h]

end Wapsell.Onboarding
