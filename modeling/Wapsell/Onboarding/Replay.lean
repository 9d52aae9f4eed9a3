import Wapsell.Lib.Run
import Wapsell.Onboarding.Flow

/-!
# Retrying a signup

Meta sends the callback again when a run fails, and a run begins by looking
for the tenant that owns the number. A run that failed before it wrote the
number left a tenant behind that this does not find; one that failed after
left a tenant that it finds and takes for finished. Only a run that got as
far as the event left nothing to do.

The docstring of the result type says that `is_new` false means already
onboarded, and the comment over the class that a replay provisions
idempotently. Both hold where the first run got as far as the event. The
condition of the theorem is on the list of the places where the runs
fail, so it can be read off a log.

What this does not establish: what an operator should do about a tenant
that is left behind.
-/

namespace Wapsell.Onboarding

open Lib Py Tenants

/-- How a run ended. -/
inductive Outcome
  | returned (tenant : Tenant) (isNew : Bool)
  | raised

/-- `run`, with nothing else going on. -/
def attempt (U : Unicode) (w : World) (payload : MetaSignupPayload) (draw : Draw)
    (fails : Option Stage) : World × Outcome :=
  match begin_ U w payload draw fails with
  | (w, .replay tenant) => (w, .returned tenant false)
  | (w, .raised) => (w, .raised)
  | (w, .spawning held) =>
    match finish w .bringUp held fails with
    | (w, none) => (w, .raised)
    | (w, some tenant) =>
      let w := w.publish (onboardedEvent tenant payload)
      if fails = some .handler then (w, .raised) else (w, .returned tenant true)

/-- One delivery of the callback for a number. -/
structure Delivery where
  businessName : String
  wabaId : Option String := none
  businessId : Option String := none
  draw : Draw
  fails : Option Stage := none

/-- The payload of a delivery. -/
def Delivery.payload (d : Delivery) (number : String) : MetaSignupPayload :=
  ⟨number, d.businessName, d.wabaId, d.businessId⟩

/-- The world after a number of runs, and how the last of them ended. -/
structure Trial where
  world : World
  last : Option Outcome := none

/-- The next run; `_uuid()` draws an id that is not there. -/
def step (U : Unicode) (number : String) (s : Trial) (d : Delivery) : Option Trial :=
  if (s.world.repo.get? d.draw.id).isSome then none
  else
    let (world, outcome) := attempt U s.world (d.payload number) d.draw d.fails
    some ⟨world, some outcome⟩

/-- The rows that were not there before. -/
def newRows (before w : World) : List Tenant :=
  (w.repo.entries.filter fun e => (before.repo.get? e.1).isNone).map Prod.snd

/-- Nobody owns the number, and no event says so. -/
structure Unclaimed (number : String) (w : World) : Prop where
  unowned : w.repo.byPhoneNumberId number = none
  silent : onboardedFor number w = []

/-- The owner of the number is up and announced once, and is the only row there was not before. -/
def Onboarded (before : World) (number : String) (w : World) : Prop :=
  ∃ t, w.repo.byPhoneNumberId number = some t ∧ t.status = .active ∧ t.id ∈ w.running ∧
    newRows before w = [t] ∧ (onboardedFor number w).length = 1

/-- Where the last run returned, the signup is done. -/
def ReturnsOnboarded (before : World) (number : String) (s : Trial) : Prop :=
  ∀ tenant isNew, s.last = some (.returned tenant isNew) → Onboarded before number s.world

/-- The run gets as far as the event. -/
def reachesEvent (fails : Option Stage) : Prop := fails = none ∨ fails = some .handler

/-- All runs but the last fail at the number, and the last one fails too. -/
def noneReturns : List (Option Stage) → Prop
  | [] => True
  | [f] => f ≠ none
  | f :: fs => f = some .setNumber ∧ noneReturns fs

/-- The first run gets as far as the event, or no run ever returns: all but the last fail at the
number, and the last one fails anywhere. It is a condition on where the runs fail and on nothing
else. -/
def Recovers (fails : List (Option Stage)) : Prop :=
  (∀ f ∈ fails.head?, reachesEvent f) ∨ noneReturns fails

/-! ## A new row -/

variable {before w : World} {number : String}

/-- The owner of a number after a row is added. -/
theorem byPhoneNumberId_setRow {t : Tenant} (hfresh : w.repo.get? t.id = none) :
    (w.setRow t).repo.byPhoneNumberId number =
      (w.repo.byPhoneNumberId number).or
        (if t.whatsappPhoneNumberId = some number then some t else none) := by
  rw [World.setRow, Repository.byPhoneNumberId, Repository.byPhoneNumberId,
    Dict.values_set_of_none t hfresh, List.find?_append, List.find?_singleton]
  by_cases h : t.whatsappPhoneNumberId = some number <;> simp [h]

theorem newRows_setRow {t : Tenant} (hfresh : w.repo.get? t.id = none)
    (hbefore : before.repo.get? t.id = none) :
    newRows before (w.setRow t) = newRows before w ++ [t] := by
  rw [newRows, World.setRow, Dict.entries_set_of_none t hfresh, List.filter_append, List.map_append,
    List.filter_singleton]
  simp [newRows, hbefore]

/-- Every row there was is there. -/
def Grown (before w : World) : Prop :=
  ∀ k, (before.repo.get? k).isSome → (w.repo.get? k).isSome

theorem Grown.fresh (h : Grown before w) {k : String} (hk : w.repo.get? k = none) :
    before.repo.get? k = none := by
  rw [← Option.not_isSome_iff_eq_none] at hk ⊢
  exact fun hold => hk (h k hold)

theorem Grown.setRow (h : Grown before w) (t : Tenant) : Grown before (w.setRow t) :=
  fun k hk => Dict.get?_set_isSome t.id t (h k hk)

/-! ## One run -/

variable {U : Unicode}

/-- A run that finds an owner returns it. -/
theorem attempt_of_owned {t : Tenant} (h : w.repo.byPhoneNumberId number = some t) (d : Delivery) :
    attempt U w (d.payload number) d.draw d.fails = (w, .returned t false) := by
  rw [attempt, begin_of_owned h]

/-- A run that fails at the number leaves a tenant without one. -/
theorem attempt_setNumber (hclaim : Unclaimed number w) (hgrown : Grown before w) {d : Delivery}
    (hfresh : w.repo.get? d.draw.id = none) (hfails : d.fails = some .setNumber) :
    ∃ w', attempt U w (d.payload number) d.draw d.fails = (w', .raised) ∧ Unclaimed number w' ∧
      Grown before w' ∧ newRows before w' ≠ [] := by
  obtain ⟨slug, -, hbegin, -⟩ := begin_of_fresh (d.payload number) d.draw hclaim.unowned U
  let t := newTenant d.draw d.businessName slug none
  refine ⟨w.setRow t, by simp only [hfails, attempt, hbegin]; rfl, ⟨?_, hclaim.silent⟩,
    hgrown.setRow t, ?_⟩
  · rw [byPhoneNumberId_setRow hfresh, hclaim.unowned]
    rfl
  · rw [newRows_setRow hfresh (hgrown.fresh hfresh)]
    exact List.append_ne_nil_of_right_ne_nil _ (List.cons_ne_nil _ _)

/-- A new row that owns the number is the owner. -/
theorem Unclaimed.byPhoneNumberId_setRow (hclaim : Unclaimed number w) {t : Tenant}
    (hfresh : w.repo.get? t.id = none) (ht : t.whatsappPhoneNumberId = some number) :
    (w.setRow t).repo.byPhoneNumberId number = some t := by
  rw [Onboarding.byPhoneNumberId_setRow hfresh, hclaim.unowned, if_pos ht]
  rfl

/-- A run that fails between the number and the event leaves an owner that is not up. -/
theorem attempt_halfway (hclaim : Unclaimed number w) {d : Delivery}
    (hfresh : w.repo.get? d.draw.id = none) (hnumber : d.fails ≠ some .setNumber)
    (hevent : ¬ reachesEvent d.fails) :
    ∃ w' t, attempt U w (d.payload number) d.draw d.fails = (w', .raised) ∧
      w'.repo.byPhoneNumberId number = some t ∧ t.status = .provisioning := by
  obtain ⟨slug, -, -, hrender, hspawning⟩ := begin_of_fresh (d.payload number) d.draw
    hclaim.unowned U
  let t := signedUp d.draw (d.payload number) slug
  have howner := hclaim.byPhoneNumberId_setRow (t := t) hfresh rfl
  cases hfails : d.fails with
  | none => exact absurd (.inl hfails) hevent
  | some stage =>
    cases stage with
    | setNumber => exact absurd hfails hnumber
    | renderSoul => exact ⟨w.setRow t, t, by simp only [attempt, hrender]; rfl, howner, rfl⟩
    | spawn =>
      refine ⟨w.setRow t, t, ?_, howner, rfl⟩
      simp only [attempt, hspawning (some .spawn) (by decide) (by decide), finish]
      rfl
    | setStatus =>
      refine ⟨{ w.setRow t with running := w.running.insert t.id }, t, ?_, howner, rfl⟩
      simp only [attempt, hspawning (some .setStatus) (by decide) (by decide), finish]
      rfl
    | handler => exact absurd (.inr hfails) hevent

/-- The world a run leaves that gets as far as the event. -/
def World.onboarded (w : World) (t : Tenant) (payload : MetaSignupPayload) : World :=
  ({ w.setRow t with running := w.running.insert t.id } : World).publish (onboardedEvent t payload)

/-- A run that gets as far as the event leaves an owner that is up and announced. -/
theorem attempt_reachesEvent (hclaim : Unclaimed number w) {d : Delivery}
    (hevent : reachesEvent d.fails) :
    ∃ t : Tenant, t.id = d.draw.id ∧ t.status = .active ∧ t.whatsappPhoneNumberId = some number ∧
      attempt U w (d.payload number) d.draw d.fails = (w.onboarded t (d.payload number),
        if d.fails = some .handler then .raised else .returned t true) := by
  obtain ⟨slug, -, -, -, hspawning⟩ := begin_of_fresh (d.payload number) d.draw
    hclaim.unowned U
  let held := signedUp d.draw (d.payload number) slug
  let t := withStatus held .active
  have hfinish : ∀ fails, fails ≠ some .spawn → fails ≠ some .setStatus →
      finish (w.setRow held) .bringUp held fails =
        ({ w.setRow t with running := w.running.insert t.id }, some t) := by
    intro fails hspawn hstatus
    rw [finish_of_some (Dict.get?_set_self _ _ _) .bringUp hspawn hstatus]
    simp only [World.setRow, withStatus, Dict.set_set, t]
    rfl
  refine ⟨t, rfl, rfl, rfl, ?_⟩
  rcases hevent with h | h
  · simp only [h, attempt, hspawning none (by decide) (by decide)]
    rw [show finish _ _ _ _ = _ from hfinish none (by decide) (by decide)]
    rfl
  · simp only [h, attempt, hspawning (some .handler) (by decide) (by decide)]
    rw [show finish _ _ _ _ = _ from hfinish (some .handler) (by decide) (by decide)]
    rfl

/-- What that run leaves, seen from before the first one. -/
theorem newRows_onboarded (hgrown : Grown before w) {t : Tenant} (hfresh : w.repo.get? t.id = none)
    (payload : MetaSignupPayload) :
    newRows before (w.onboarded t payload) = newRows before w ++ [t] :=
  newRows_setRow hfresh (hgrown.fresh hfresh)

theorem onboarded_done (hclaim : Unclaimed number w) (hgrown : Grown before w) {t : Tenant}
    (hfresh : w.repo.get? t.id = none) (hnumber : t.whatsappPhoneNumberId = some number)
    (hactive : t.status = .active) (hnew : newRows before w = []) {payload : MetaSignupPayload}
    (hpayload : payload.phoneNumberId = number) :
    Onboarded before number (w.onboarded t payload) := by
  refine ⟨t, hclaim.byPhoneNumberId_setRow hfresh hnumber, hactive, List.mem_insert_self, ?_, ?_⟩
  · rw [newRows_onboarded hgrown hfresh, hnew, List.nil_append]
  · subst hpayload
    rw [World.onboarded, onboardedFor_publish, if_pos rfl, List.length_append]
    exact congrArg (· + 1) (congrArg List.length hclaim.silent)

/-! ## The sequence of runs -/

theorem step_eq_some {s s' : Trial} {d : Delivery} (h : step U number s d = some s') :
    s.world.repo.get? d.draw.id = none ∧
      s' = ⟨(attempt U s.world (d.payload number) d.draw d.fails).1,
        some (attempt U s.world (d.payload number) d.draw d.fails).2⟩ := by
  unfold step at h
  split at h
  next => cases h
  next hfresh =>
    rw [Option.not_isSome_iff_eq_none] at hfresh
    exact ⟨hfresh, (Option.some.inj h).symm⟩

/-- Once the number is owned nothing changes any more, and every run returns. -/
theorem step_of_owned {s s' : Trial} {d : Delivery} {t : Tenant}
    (hown : s.world.repo.byPhoneNumberId number = some t) (h : step U number s d = some s') :
    s' = ⟨s.world, some (.returned t false)⟩ := by
  rw [(step_eq_some h).2, attempt_of_owned hown]

/-- A signup that is done stays done. -/
theorem eachState_of_onboarded : ∀ {ds : List Delivery} {s : Trial},
    Onboarded before number s.world →
      EachState (step U number) (ReturnsOnboarded before number) s ds
  | [], _, h => fun _ _ _ => h
  | _ :: _, _, h => ⟨fun _ _ _ => h, fun s' hs' => by
    have hdone := h
    obtain ⟨t, hown, -⟩ := h
    rw [step_of_owned hown hs']
    exact eachState_of_onboarded hdone⟩

/-- A signup that is owned and not done is taken for done by the next run. -/
theorem eachState_of_stuck {ds : List Delivery} {s : Trial} {t : Tenant}
    (hown : s.world.repo.byPhoneNumberId number = some t)
    (hnot : ¬ Onboarded before number s.world) (hlast : s.last = some .raised)
    (hrun : (run (step U number) s ds).isSome) :
    EachState (step U number) (ReturnsOnboarded before number) s ds ↔ ds = [] := by
  have hhere : ReturnsOnboarded before number s := by
    intro tenant isNew h
    rw [hlast] at h
    cases h
  cases ds with
  | nil => exact iff_of_true hhere rfl
  | cons d ds =>
    refine iff_of_false (fun h => ?_) (List.cons_ne_nil _ _)
    obtain ⟨last, hrun⟩ := Option.isSome_iff_exists.mp hrun
    obtain ⟨s', hs', -⟩ := run_cons_eq_some.mp hrun
    have hnext := (h.2 s' hs').head
    rw [step_of_owned hown hs'] at hnext
    exact hnot (hnext t false rfl)

/-- A state in which nothing has returned says nothing. -/
theorem returnsOnboarded_of_not_returned {s : Trial}
    (h : s.last = none ∨ s.last = some .raised) : ReturnsOnboarded before number s := by
  rintro tenant isNew hreturned
  rcases h with h | h <;> rw [h] at hreturned <;> cases hreturned

theorem noneReturns_setNumber {fs : List (Option Stage)} :
    noneReturns (some .setNumber :: fs) ↔ noneReturns fs := by
  cases fs with
  | nil => exact iff_of_true nofun trivial
  | cons f fs => exact and_iff_right rfl

/-- After any other failure there must be no further run. -/
theorem noneReturns_of_ne {f : Option Stage} {fs : List (Option Stage)}
    (hf : f ≠ some .setNumber) : noneReturns (f :: fs) ↔ f ≠ none ∧ fs = [] := by
  cases fs with
  | nil => exact (and_iff_left rfl).symm
  | cons g fs => exact iff_of_false (fun h => hf h.1) fun h => List.cons_ne_nil _ _ h.2

/-- A run that is neither stopped at the number nor gets to the event leaves one that is stuck. -/
theorem eachState_of_halfway {s s' : Trial} {d : Delivery} {ds : List Delivery}
    (hclaim : Unclaimed number s.world) (hnumber : d.fails ≠ some .setNumber)
    (hevent : ¬ reachesEvent d.fails) (hs' : step U number s d = some s')
    (hrun : (run (step U number) s' ds).isSome) :
    EachState (step U number) (ReturnsOnboarded before number) s' ds ↔ ds = [] := by
  obtain ⟨hfresh, rfl⟩ := step_eq_some hs'
  obtain ⟨w', t, hattempt, hown, hstatus⟩ := attempt_halfway (U := U) hclaim hfresh hnumber hevent
  rw [hattempt] at hrun ⊢
  refine eachState_of_stuck hown ?_ rfl hrun
  rintro ⟨t', hown', hactive, -⟩
  cases hown.symm.trans hown'
  rw [hstatus] at hactive
  cases hactive

/-- With a tenant left behind by an earlier run, no run may return any more. -/
theorem eachState_of_orphaned : ∀ {ds : List Delivery} {s : Trial}, Unclaimed number s.world →
    Grown before s.world → newRows before s.world ≠ [] → s.last = some .raised →
    (run (step U number) s ds).isSome →
    (EachState (step U number) (ReturnsOnboarded before number) s ds ↔
      noneReturns (ds.map Delivery.fails))
  | [], _, _, _, _, hlast, _ => iff_of_true (returnsOnboarded_of_not_returned (.inr hlast)) trivial
  | d :: ds, s, hclaim, hgrown, horphan, hlast, hrun => by
    obtain ⟨last, hlastrun⟩ := Option.isSome_iff_exists.mp hrun
    obtain ⟨s', hs', hrest⟩ := run_cons_eq_some.mp hlastrun
    have hrest : (run (step U number) s' ds).isSome := by rw [hrest]; rfl
    rw [eachState_cons (returnsOnboarded_of_not_returned (.inr hlast)) hs', List.map_cons]
    by_cases hnumber : d.fails = some .setNumber
    · rw [hnumber, noneReturns_setNumber]
      obtain ⟨hfresh, rfl⟩ := step_eq_some hs'
      obtain ⟨w', hattempt, hclaim', hgrown', horphan'⟩ :=
        attempt_setNumber (U := U) hclaim hgrown hfresh hnumber
      rw [hattempt] at hrest ⊢
      exact eachState_of_orphaned hclaim' hgrown' horphan' rfl hrest
    · rw [noneReturns_of_ne hnumber, List.map_eq_nil_iff]
      by_cases hevent : reachesEvent d.fails
      · obtain ⟨hfresh, rfl⟩ := step_eq_some hs'
        obtain ⟨t, hid, -, ht, hattempt⟩ := attempt_reachesEvent (U := U) hclaim hevent
        rw [← hid] at hfresh
        have hown : (s.world.onboarded t (d.payload number)).repo.byPhoneNumberId number = some t :=
          hclaim.byPhoneNumberId_setRow hfresh ht
        have hnot : ¬ Onboarded before number (s.world.onboarded t (d.payload number)) := by
          rintro ⟨t', -, -, -, hrows, -⟩
          rw [newRows_onboarded hgrown hfresh] at hrows
          have hlen := congrArg List.length hrows
          rw [List.length_append, List.length_singleton, List.length_singleton] at hlen
          exact horphan (List.length_eq_zero_iff.mp (by omega))
        rw [hattempt] at hrest ⊢
        rcases hevent with hnone | hhandler
        · rw [hnone] at hrest ⊢
          exact iff_of_false (fun h => hnot (h.head t true rfl)) fun h => h.1 rfl
        · rw [hhandler] at hrest ⊢
          rw [eachState_of_stuck hown hnot rfl hrest]
          exact (and_iff_right nofun).symm
      · rw [eachState_of_halfway hclaim hnumber hevent hs' hrest]
        exact (and_iff_right fun h => hevent (.inl h)).symm

/-- **Recovery by replay.** In a sequence of runs for a number nobody owns, every run that returns
finds the signup done, exactly when the first run gets as far as the event, or no run returns: all
but the last fail at the number and the last one fails anywhere.

Each delivery draws an id of its own and may fail at a place of its own. A run that returns because
it found the number's owner is where the condition fails: the owner may be a tenant that never came
up. -/
theorem onboarding_recovers_iff (U : Unicode) {number : String} {before : World}
    (hclaim : Unclaimed number before) {ds : List Delivery}
    (hrun : (run (step U number) ⟨before, none⟩ ds).isSome) :
    EachState (step U number) (ReturnsOnboarded before number) ⟨before, none⟩ ds ↔
      Recovers (ds.map Delivery.fails) := by
  have hnew : newRows before before = [] := by
    rw [newRows, List.map_eq_nil_iff, List.filter_eq_nil_iff]
    intro e he
    rw [Dict.get?_eq_some_iff.mpr he]
    exact Bool.false_ne_true
  cases ds with
  | nil => exact iff_of_true (returnsOnboarded_of_not_returned (.inl rfl)) (.inr trivial)
  | cons d ds =>
    obtain ⟨last, hlastrun⟩ := Option.isSome_iff_exists.mp hrun
    obtain ⟨s', hs', hrest⟩ := run_cons_eq_some.mp hlastrun
    have hrest : (run (step U number) s' ds).isSome := by rw [hrest]; rfl
    have hgrown : Grown before before := fun _ h => h
    rw [eachState_cons (returnsOnboarded_of_not_returned (.inl rfl)) hs', List.map_cons, Recovers]
    simp only [List.head?_cons, Option.mem_some_iff, forall_eq']
    by_cases hevent : reachesEvent d.fails
    · refine iff_of_true ?_ (.inl hevent)
      obtain ⟨hfresh, rfl⟩ := step_eq_some hs'
      obtain ⟨t, hid, hactive, ht, hattempt⟩ := attempt_reachesEvent (U := U) hclaim hevent
      rw [← hid] at hfresh
      rw [hattempt]
      exact eachState_of_onboarded (onboarded_done hclaim hgrown hfresh ht hactive hnew rfl)
    · rw [or_iff_right hevent]
      by_cases hnumber : d.fails = some .setNumber
      · rw [hnumber, noneReturns_setNumber]
        obtain ⟨hfresh, rfl⟩ := step_eq_some hs'
        obtain ⟨w', hattempt, hclaim', hgrown', horphan'⟩ :=
          attempt_setNumber (U := U) hclaim hgrown hfresh hnumber
        rw [hattempt] at hrest ⊢
        exact eachState_of_orphaned hclaim' hgrown' horphan' rfl hrest
      · rw [noneReturns_of_ne hnumber, List.map_eq_nil_iff,
          eachState_of_halfway hclaim hnumber hevent hs' hrest]
        exact (and_iff_right fun h => hevent (.inl h)).symm

/-- The signup of one business, delivered with a fresh id and failing somewhere or nowhere. -/
def acmeSignup (id : String) (fails : Option Stage) : Delivery where
  businessName := "Acme"
  draw := ⟨id, 0⟩
  fails := fails

/-- A handler of the event raises, and the retry returns the tenant, which is onboarded. -/
theorem onboarding_recovers_handler :
    EachState (step Unicode.ascii "111") (ReturnsOnboarded {} "111") ⟨{}, none⟩
      [acmeSignup "t1" (some .handler), acmeSignup "t2" none] :=
  (onboarding_recovers_iff Unicode.ascii ⟨rfl, rfl⟩ (by decide)).mpr
    (.inl fun f hf => .inr (Option.some.inj hf).symm)

/-- The spawner raises once; the retry returns the tenant that never came up. -/
theorem not_onboarding_recovers : ¬ ∀ (U : Unicode) (number : String) (before : World)
    (ds : List Delivery), Unclaimed number before →
      (run (step U number) ⟨before, none⟩ ds).isSome →
        EachState (step U number) (ReturnsOnboarded before number) ⟨before, none⟩ ds := by
  intro h
  have hrun : (run (step Unicode.ascii "111") ⟨{}, none⟩
      [acmeSignup "t1" (some .spawn), acmeSignup "t2" none]).isSome := by decide
  have hall := h Unicode.ascii "111" {} _ ⟨rfl, rfl⟩ hrun
  obtain ⟨last, hlast⟩ := Option.isSome_iff_exists.mp hrun
  obtain ⟨s', hs', hrest⟩ := run_cons_eq_some.mp hlast
  have hclaim : Unclaimed "111" ({} : World) := ⟨rfl, rfl⟩
  have hstuck := (eachState_of_halfway hclaim (by decide) (by rintro (h | h) <;> cases h) hs'
    (by rw [hrest]; rfl)).mp (hall.2 s' hs')
  cases hstuck

end Wapsell.Onboarding
