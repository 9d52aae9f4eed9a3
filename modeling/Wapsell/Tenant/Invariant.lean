import Wapsell.Tenant.System

/-!
# What a step does to the tenant table

Every step writes one row or none. A row is new, under an id and a slug
nobody has, or it replaces one with the same id and slug. So ids and slugs
stay distinct, no row ever goes, and the row a flight holds is always there,
under the slug the flight knows.

A label names at most one tenant to write, and `step_written` says which
row that is and where its number comes from. The theorems about runs use
this and never the definition of a step.

The invariant is of the table and the flights together, since a flight
writes a row it read earlier: without the row still being there its
update would raise.
-/

namespace Wapsell.Tenants

open Lib Py Api Onboarding

/-- The row a step writes, if any, and the table after it: none, a new row under a free id and slug,
or a row in the place of one with the same id and slug. -/
inductive Write (repo : Repository) : Option Tenant → Repository → Prop
  | nothing : Write repo none repo
  | insert {t : Tenant} (hnew : repo.get? t.id = none) (hslug : repo.bySlug t.slug = none) :
      Write repo (some t) (repo.set t.id t)
  | rewrite {t old : Tenant} (hold : repo.get? t.id = some old) (hslug : t.slug = old.slug) :
      Write repo (some t) (repo.set t.id t)

namespace Write

variable {repo repo' : Repository} {written : Option Tenant}

/-- No row goes, and none changes its slug. -/
theorem keeps (h : Write repo written repo') {k : String} {row : Tenant}
    (hrow : repo.get? k = some row) :
    ∃ row', repo'.get? k = some row' ∧ row'.slug = row.slug := by
  cases h with
  | nothing => exact ⟨row, hrow, rfl⟩
  | @insert t hnew hslug =>
    have hne : t.id ≠ k := fun he => by rw [← he, hnew] at hrow; cases hrow
    exact ⟨row, by rw [Dict.get?_set_ne _ _ hne, hrow], rfl⟩
  | @rewrite t old hold hslug =>
    by_cases he : t.id = k
    · subst he
      cases hold.symm.trans hrow
      exact ⟨t, Dict.get?_set_self _ _ _, hslug⟩
    · exact ⟨row, by rw [Dict.get?_set_ne _ _ he, hrow], rfl⟩

theorem keyed (h : Write repo written repo') (hkeyed : repo.Forall fun k t => t.id = k) :
    repo'.Forall fun k t => t.id = k := by
  cases h with
  | nothing => exact hkeyed
  | insert => exact hkeyed.set rfl
  | rewrite => exact hkeyed.set rfl

theorem slugs (h : Write repo written repo') (hslugs : repo.Unique fun t => some t.slug) :
    repo'.Unique fun t => some t.slug := by
  cases h with
  | nothing => exact hslugs
  | @insert t hnew hslug =>
    refine hslugs.set fun x w a hx hw ha => ?_
    cases hw
    exact absurd (Option.some.inj ha).symm (bySlug_eq_none_iff.mp hslug x w hx)
  | @rewrite t old hold hslug =>
    refine hslugs.set fun x w a hx hw ha => ?_
    cases hw
    exact hslugs t.id x old w w.slug hold hx ((congrArg some hslug.symm).trans ha) rfl

end Write

/-- What every reachable state keeps. -/
structure Inv (s : System) : Prop where
  keyed : s.world.repo.Forall fun k t => t.id = k
  slugs : s.world.repo.Unique fun t => some t.slug
  held : ∀ i flight op held, s.flights.get? i = some flight → flight.pending = some (op, held) →
    ∃ row, s.world.repo.get? held.id = some row ∧ row.slug = held.slug

theorem Inv.init : Inv System.init where
  keyed _ _ h := by cases h
  slugs _ _ _ _ _ h := by cases h
  held _ _ _ _ h := by cases h

/-- A write keeps the invariant, if the flights that hold a row are old ones or hold the current
one. -/
theorem Inv.write {s s' : System} {written : Option Tenant} (h : Inv s)
    (hwrite : Write s.world.repo written s'.world.repo)
    (hflights : ∀ i flight op held, s'.flights.get? i = some flight →
      flight.pending = some (op, held) →
      s.flights.get? i = some flight ∨ s'.world.repo.get? held.id = some held) : Inv s' where
  keyed := hwrite.keyed h.keyed
  slugs := hwrite.slugs h.slugs
  held i flight op held hi hpending := by
    rcases hflights i flight op held hi hpending with hold | hnew
    · obtain ⟨row, hrow, hslug⟩ := h.held i flight op held hold hpending
      obtain ⟨row', hrow', hslug'⟩ := hwrite.keeps hrow
      exact ⟨row', hrow', hslug'.trans hslug⟩
    · exact ⟨held, hnew, rfl⟩

/-! ## What each label writes -/

section Writes

variable {w : World} {U : Unicode}

theorem updateRow_of_some {t old : Tenant} (h : w.repo.get? t.id = some old) :
    updateRow w t = .ok (w.setRow t, t) := by
  rw [updateRow, update_of_some h]
  rfl

/-- `create_tenant` writes the new row, or finds the slug taken. -/
theorem serve_create (draw : Draw) (req : TenantCreate) :
    (w.repo.bySlug req.slug = none ∧ ∃ t : Tenant, t.id = draw.id ∧ t.slug = req.slug ∧
      t.whatsappPhoneNumberId = req.number ∧ serve U w (.create draw req) = w.setRow t) ∨
    (w.repo.bySlug req.slug ≠ none ∧ serve U w (.create draw req) = w) := by
  by_cases hslug : w.repo.bySlug req.slug = none
  · refine .inl ⟨hslug, ?_⟩
    let t := newTenant draw req.name req.slug req.model
    simp only [serve, createTenant, create_of_free hslug]
    cases hnumber : req.number with
    | none => exact ⟨t, rfl, rfl, rfl, rfl⟩
    | some n =>
      have hupdate : updateRow { w with repo := w.repo.set draw.id t } (withNumber t n) =
          .ok (w.setRow (withNumber t n), withNumber t n) := by
        refine (updateRow_of_some (Dict.get?_set_self _ _ _)).trans ?_
        exact congrArg (fun repo => Except.ok (({ w with repo } : World), withNumber t n))
          (Dict.set_set _ _ _ _)
      refine ⟨withNumber t n, rfl, rfl, rfl, ?_⟩
      dsimp only
      rw [hupdate]
  · refine .inr ⟨hslug, ?_⟩
    have htaken : (w.repo.bySlug req.slug).isSome := Option.isSome_iff_ne_none.mpr hslug
    simp only [serve, createTenant, create, if_pos htaken]

/-- The endpoints that change a row write it as they read it, but for what they set. -/
def Request.change : Request → Option (String × (Tenant → Tenant))
  | .create _ _ => none
  | .patch tenantId req =>
    if req.model = none ∧ req.whatsappPhoneNumberId = none then none
    else some (tenantId, fun t => patched t req)
  | .putSoul tenantId req => some (tenantId, fun t => withSoul t req)
  | .putHandoff tenantId req => some (tenantId, fun t => withHandoff t req)
  | .activateNow tenantId => some (tenantId, fun t => withStatus t .active)

/-- A change keeps the id and the slug. -/
theorem Request.change_keeps {r : Request} {tenantId : String} {f : Tenant → Tenant}
    (h : r.change = some (tenantId, f)) (t : Tenant) : (f t).id = t.id ∧ (f t).slug = t.slug := by
  cases r with
  | create draw req => cases h
  | patch id req =>
    simp only [Request.change] at h
    split at h
    next => cases h
    next => cases h; exact ⟨rfl, rfl⟩
  | putSoul id req => cases h; exact ⟨rfl, rfl⟩
  | putHandoff id req => cases h; exact ⟨rfl, rfl⟩
  | activateNow id => cases h; exact ⟨rfl, rfl⟩

/-- A change of a row that is there. -/
theorem serve_of_change {r : Request} {tenantId : String} {f : Tenant → Tenant} {row : Tenant}
    (h : r.change = some (tenantId, f)) (hrow : w.repo.get? tenantId = some row)
    (hid : row.id = tenantId) : serve U w r = w.setRow (f row) := by
  have hget : w.repo.get tenantId = some row := hrow
  have hupdate : ∀ t : Tenant, t.id = tenantId → updateRow w t = .ok (w.setRow t, t) :=
    fun t ht => updateRow_of_some (ht ▸ hrow)
  cases r with
  | create draw req => cases h
  | patch id req =>
    simp only [Request.change] at h
    split at h
    next => cases h
    next hreq =>
      cases h
      simp only [serve, updateTenant, tenantOr404, hget, bind, Except.bind, if_neg hreq]
      rw [hupdate (patched row req) hid]
  | putSoul id req =>
    cases h
    simp only [serve, updateTenantSoul, tenantOr404, hget, bind, Except.bind]
    rw [hupdate (withSoul row req) hid]
    rfl
  | putHandoff id req =>
    cases h
    simp only [serve, updateTenantHandoff, tenantOr404, hget, bind, Except.bind]
    rw [hupdate (withHandoff row req) hid]
    rfl
  | activateNow id =>
    cases h
    simp only [serve, hget]
    rw [hupdate (withStatus row .active) hid]

/-- No change, or no row to change. -/
theorem serve_of_no_change {r : Request} (hcreate : ∀ draw req, r ≠ .create draw req)
    (h : ∀ tenantId f, r.change = some (tenantId, f) → w.repo.get? tenantId = none) :
    serve U w r = w := by
  cases r with
  | create draw req => exact absurd rfl (hcreate draw req)
  | patch id req =>
    cases hget : w.repo.get id with
    | none => simp only [serve, updateTenant, tenantOr404, hget, bind, Except.bind]
    | some row =>
      have hreq : req.model = none ∧ req.whatsappPhoneNumberId = none := by
        by_contra hreq
        have hnone := h id _ (if_neg hreq)
        rw [show w.repo.get? id = some row from hget] at hnone
        cases hnone
      simp only [serve, updateTenant, tenantOr404, hget, bind, Except.bind, if_pos hreq]
      rfl
  | putSoul id req =>
    have hget : w.repo.get id = none := h id _ rfl
    simp only [serve, updateTenantSoul, tenantOr404, hget, bind, Except.bind]
  | putHandoff id req =>
    have hget : w.repo.get id = none := h id _ rfl
    simp only [serve, updateTenantHandoff, tenantOr404, hget, bind, Except.bind]
  | activateNow id =>
    have hget : w.repo.get id = none := h id _ rfl
    simp only [serve, hget]

/-- `finish` writes the row that is held, with the status of the operation, or nothing. -/
theorem finish_write (op : LifecycleOp) {held row : Tenant}
    (hrow : w.repo.get? held.id = some row) (fails : Option Stage) :
    (fails ≠ some .spawn ∧ fails ≠ some .setStatus ∧
      (finish w op held fails).2 = some (withStatus held op.status) ∧
      (finish w op held fails).1.repo = (w.setRow (withStatus held op.status)).repo) ∨
    ((fails = some .spawn ∨ fails = some .setStatus) ∧ (finish w op held fails).2 = none ∧
      (finish w op held fails).1.repo = w.repo) := by
  by_cases hspawn : fails = some .spawn
  · exact .inr ⟨.inl hspawn, by rw [finish, if_pos hspawn], by rw [finish, if_pos hspawn]⟩
  · by_cases hstatus : fails = some .setStatus
    · refine .inr ⟨.inr hstatus, ?_, ?_⟩ <;>
        simp only [finish, if_neg hspawn, if_pos hstatus]
    · refine .inl ⟨hspawn, hstatus, ?_, ?_⟩ <;> rw [finish_of_some hrow op hspawn hstatus]

end Writes

/-! ## Every step writes one row or none -/

/-- The tenant and the number a label sets, if it sets one: `POST`, `PATCH`, and a lifecycle
operation that writes back the row it holds. -/
def writtenNumber (s : System) : Label → Option (String × String)
  | .request (.create draw req) =>
    if s.world.repo.bySlug req.slug = none then req.number.map (draw.id, ·) else none
  | .request (.patch tenantId req) =>
    if (s.world.repo.get tenantId).isSome then req.whatsappPhoneNumberId.map (tenantId, ·) else none
  | .spawned i fails =>
    if fails = some .spawn ∨ fails = some .setStatus then none
    else ((s.flights.get? i).bind Flight.pending).bind fun (_, held) =>
      held.whatsappPhoneNumberId.map (held.id, ·)
  | _ => none

/-- The number of a row is one the label sets, or one the row had when it was read: there, or in the
hands of the flight that writes it. -/
def NumberOrigin (s : System) (l : Label) : Option Tenant → Prop
  | none => writtenNumber s l = none
  | some t => writtenNumber s l = t.whatsappPhoneNumberId.map (t.id, ·) ∨
      writtenNumber s l = none ∧
        ((∃ old, s.world.repo.get? t.id = some old ∧
            t.whatsappPhoneNumberId = old.whatsappPhoneNumberId) ∨
          ∀ n, t.whatsappPhoneNumberId = some n → s.world.repo.byPhoneNumberId n = none)

/-- The row a step writes. -/
structure Written (s : System) (l : Label) (s' : System) (written : Option Tenant) : Prop where
  write : Write s.world.repo written s'.world.repo
  number : NumberOrigin s l written
  flights : ∀ i flight op held, s'.flights.get? i = some flight →
    flight.pending = some (op, held) →
    s.flights.get? i = some flight ∨ s'.world.repo.get? held.id = some held

variable {U : Unicode} {s s' : System}

/-- Where a request gets the number from that it writes into a row that is there. -/
theorem numberOrigin_change {r : Request} {tenantId : String} {f : Tenant → Tenant} {row : Tenant}
    (hr : r.change = some (tenantId, f)) (hrow : s.world.repo.get? tenantId = some row)
    (hid : row.id = tenantId) : NumberOrigin s (.request r) (some (f row)) := by
  have hkept : (f row).whatsappPhoneNumberId = row.whatsappPhoneNumberId →
      ∃ old, s.world.repo.get? (f row).id = some old ∧
        (f row).whatsappPhoneNumberId = old.whatsappPhoneNumberId :=
    fun hnumber => ⟨row, by rw [(Request.change_keeps hr row).1, hid, hrow], hnumber⟩
  cases r with
  | create draw req => cases hr
  | patch id req =>
    simp only [Request.change] at hr
    split at hr
    next => cases hr
    next =>
      cases hr
      have hisSome : (s.world.repo.get tenantId).isSome := by
        rw [Repository.get, hrow]
        rfl
      cases hnumber : req.whatsappPhoneNumberId with
      | some n =>
        left
        simp only [writtenNumber, if_pos hisSome, patched, hnumber, hid]
        rfl
      | none =>
        right
        simp only [writtenNumber, if_pos hisSome, hnumber]
        exact ⟨rfl, .inl (hkept (by simp only [patched, hnumber, Option.none_or]))⟩
  | putSoul id req => cases hr; exact .inr ⟨rfl, .inl (hkept rfl)⟩
  | putHandoff id req => cases hr; exact .inr ⟨rfl, .inl (hkept rfl)⟩
  | activateNow id => cases hr; exact .inr ⟨rfl, .inl (hkept rfl)⟩

/-- A request that changes nothing sets no number. -/
theorem writtenNumber_of_no_change {r : Request} (hcreate : ∀ draw req, r ≠ .create draw req)
    (h : ∀ tenantId f, r.change = some (tenantId, f) → s.world.repo.get? tenantId = none) :
    writtenNumber s (.request r) = none := by
  cases r with
  | create draw req => exact absurd rfl (hcreate draw req)
  | patch id req =>
    by_cases hreq : req.model = none ∧ req.whatsappPhoneNumberId = none
    · simp only [writtenNumber, hreq.2, Option.map_none, ite_self]
    · have hnone : s.world.repo.get id = none := h id _ (if_neg hreq)
      simp [writtenNumber, hnone]
  | putSoul id req => rfl
  | putHandoff id req => rfl
  | activateNow id => rfl

theorem written_request (h : Inv s) {r : Request} (hs : step U s (.request r) = some s') :
    ∃ written, Written s (.request r) s' written := by
  simp only [step] at hs
  split at hs
  next hfresh =>
    cases hs
    have hflights : ∀ i flight op held, s.flights.get? i = some flight →
        flight.pending = some (op, held) → s.flights.get? i = some flight ∨
          (serve U s.world r).repo.get? held.id = some held := fun _ _ _ _ hi _ => .inl hi
    by_cases hcreate : ∃ draw req, r = .create draw req
    · obtain ⟨draw, req, rfl⟩ := hcreate
      rw [Request.isFresh, Option.isNone_iff_eq_none] at hfresh
      rcases serve_create (U := U) (w := s.world) draw req with
        ⟨hslug, t, hid, htslug, hnumber, hserve⟩ | ⟨hslug, hserve⟩
      · refine ⟨some t, ?_, .inl ?_, hflights⟩
        · dsimp only
          rw [hserve]
          exact .insert (hid ▸ hfresh) (htslug ▸ hslug)
        · rw [writtenNumber, if_pos hslug, hnumber, hid]
      · refine ⟨none, ?_, ?_, hflights⟩
        · dsimp only
          rw [hserve]
          exact .nothing
        · rw [NumberOrigin, writtenNumber, if_neg hslug]
    · have hcreate : ∀ draw req, r ≠ .create draw req := fun draw req he => hcreate ⟨draw, req, he⟩
      by_cases hchange : ∃ tenantId f row, r.change = some (tenantId, f) ∧
          s.world.repo.get? tenantId = some row
      · obtain ⟨tenantId, f, row, hr, hrow⟩ := hchange
        have hid := h.keyed tenantId row hrow
        obtain ⟨hfid, hfslug⟩ := Request.change_keeps hr row
        refine ⟨some (f row), ?_, numberOrigin_change hr hrow hid, hflights⟩
        dsimp only
        rw [serve_of_change hr hrow hid]
        exact .rewrite (by rw [hfid, hid, hrow]) hfslug
      · have hnone : ∀ tenantId f, r.change = some (tenantId, f) →
            s.world.repo.get? tenantId = none := by
          intro tenantId f hr
          by_contra hsome
          obtain ⟨row, hrow⟩ := Option.ne_none_iff_exists'.mp hsome
          exact hchange ⟨tenantId, f, row, hr, hrow⟩
        refine ⟨none, ?_, writtenNumber_of_no_change hcreate hnone, hflights⟩
        dsimp only
        rw [serve_of_no_change hcreate hnone]
        exact .nothing
  next => cases hs

theorem written_lifecycle (h : Inv s) {i : Nat} {op : LifecycleOp} {tenantId : String}
    (hs : step U s (.lifecycle i op tenantId) = some s') :
    ∃ written, Written s (.lifecycle i op tenantId) s' written := by
  simp only [step] at hs
  split at hs
  next => cases hs
  next =>
    cases hget : s.world.repo.get tenantId with
    | none =>
      rw [hget] at hs
      cases hs
      exact ⟨none, .nothing, rfl, fun _ _ _ _ hi _ => .inl hi⟩
    | some row =>
      rw [hget] at hs
      cases hs
      refine ⟨none, .nothing, rfl, fun j flight op' held hj hpending => ?_⟩
      rcases Dict.get?_set_eq_some hj with ⟨-, rfl⟩ | ⟨-, hold⟩
      · cases hpending
        exact .inr (by rw [h.keyed tenantId row hget]; exact hget)
      · exact .inl hold

theorem written_onboard {i : Nat} {payload : MetaSignupPayload} {draw : Draw}
    {fails : Option Stage} (hs : step U s (.onboard i payload draw fails) = some s') :
    ∃ written, Written s (.onboard i payload draw fails) s' written := by
  simp only [step] at hs
  split at hs
  next => cases hs
  next hfree =>
    rw [not_or, Option.not_isSome_iff_eq_none, Option.not_isSome_iff_eq_none] at hfree
    have hold : ∀ j flight op held, s.flights.get? j = some flight →
        flight.pending = some (op, held) → s.flights.get? j = some flight ∨
          s'.world.repo.get? held.id = some held := fun _ _ _ _ hj _ => .inl hj
    cases howner : s.world.repo.byPhoneNumberId payload.phoneNumberId with
    | some owner =>
      rw [begin_of_owned howner] at hs
      cases hs
      exact ⟨none, .nothing, rfl, hold⟩
    | none =>
      obtain ⟨slug, hslug, hnumber, hrender, hspawning⟩ :=
        begin_of_fresh payload draw howner U
      by_cases hfails : fails = some .setNumber
      · subst hfails
        rw [hnumber] at hs
        cases hs
        exact ⟨some _, .insert hfree.2 hslug, .inr ⟨rfl, .inr fun _ h => by cases h⟩, hold⟩
      · have horigin : NumberOrigin s (.onboard i payload draw fails)
            (some (signedUp draw payload slug)) :=
          .inr ⟨rfl, .inr fun n hn => by cases hn; exact howner⟩
        by_cases hfails' : fails = some .renderSoul
        · subst hfails'
          rw [hrender] at hs
          cases hs
          exact ⟨some _, .insert hfree.2 hslug, horigin, hold⟩
        · rw [hspawning fails hfails hfails'] at hs
          cases hs
          refine ⟨some _, .insert hfree.2 hslug, horigin, fun j flight op held hj hpending => ?_⟩
          rcases Dict.get?_set_eq_some hj with ⟨-, rfl⟩ | ⟨-, hj⟩
          · cases hpending
            exact .inr (Dict.get?_set_self _ _ _)
          · exact .inl hj

/-- What the return of the spawner leaves of the flights. -/
theorem resume_cases {i : Nat} {fails : Option Stage} {flight : Flight}
    (hs : resume s i fails flight = some s') :
    ∃ op held, flight.pending = some (op, held) ∧
      s'.world.repo = (finish s.world op held fails).1.repo ∧
      s'.expected = s.expectedAfter op held fails ∧
      ∀ j f, s'.flights.get? j = some f → f.pending ≠ none → s.flights.get? j = some f := by
  cases flight with
  | lifecycle op held =>
    cases hs
    exact ⟨op, held, rfl, rfl, rfl, fun j f hj _ => (Dict.get?_erase_eq_some hj).2⟩
  | onboarding held payload =>
    simp only [resume] at hs
    split at hs
    next world hfinish =>
      cases hs
      exact ⟨.bringUp, held, rfl, by rw [hfinish], rfl,
        fun j f hj _ => (Dict.get?_erase_eq_some hj).2⟩
    next world tenant hfinish =>
      cases hs
      refine ⟨.bringUp, held, rfl, by rw [hfinish]; rfl, rfl, fun j f hj hpending => ?_⟩
      rcases Dict.get?_set_eq_some hj with ⟨-, rfl⟩ | ⟨-, hold⟩
      · exact absurd rfl hpending
      · exact hold
  | publishing payload => cases hs

theorem written_spawned (h : Inv s) {i : Nat} {fails : Option Stage}
    (hs : step U s (.spawned i fails) = some s') :
    ∃ written, Written s (.spawned i fails) s' written := by
  simp only [step] at hs
  cases hi : s.flights.get? i with
  | none =>
    rw [hi] at hs
    cases hs
  | some flight =>
    rw [hi] at hs
    obtain ⟨op, held, hpending, hrepo, -, hflights⟩ := resume_cases hs
    have hold : ∀ j f op held, s'.flights.get? j = some f → f.pending = some (op, held) →
        s.flights.get? j = some f ∨ s'.world.repo.get? held.id = some held :=
      fun j f op held hj hf => .inl (hflights j f hj (by rw [hf]; exact Option.some_ne_none _))
    obtain ⟨row, hrow, hslug⟩ := h.held i flight op held hi hpending
    rcases finish_write op hrow fails with
      ⟨hspawn, hstatus, -, hfinish⟩ | ⟨hfails, -, hfinish⟩
    · refine ⟨some (withStatus held op.status), ?_, .inl ?_, hold⟩
      · rw [hrepo, hfinish]
        exact .rewrite hrow hslug.symm
      · rw [writtenNumber, if_neg (not_or.mpr ⟨hspawn, hstatus⟩), hi, Option.bind_some, hpending]
        rfl
    · refine ⟨none, ?_, ?_, hold⟩
      · rw [hrepo, hfinish]
        exact .nothing
      · rw [NumberOrigin, writtenNumber, if_pos hfails]

theorem written_handled {i : Nat} (hs : step U s (.handled i) = some s') :
    ∃ written, Written s (.handled i) s' written := by
  simp only [step] at hs
  split at hs
  next =>
    cases hs
    exact ⟨none, .nothing, rfl, fun j f op held hj _ => .inl (Dict.get?_erase_eq_some hj).2⟩
  next => cases hs

/-- **Every step writes one row or none.** One case for each label; the endpoints that change a row
go through `Request.change`, the flights through `finish_write`. -/
theorem step_written (h : Inv s) {l : Label} (hs : step U s l = some s') :
    ∃ written, Written s l s' written := by
  cases l with
  | request r => exact written_request h hs
  | lifecycle i op tenantId => exact written_lifecycle h hs
  | onboard i payload draw fails => exact written_onboard hs
  | spawned i fails => exact written_spawned h hs
  | handled i => exact written_handled hs

/-- Every step keeps the invariant.

Ids and slugs stay distinct because a new row has a free one of each, and a row that is replaced
keeps both. -/
theorem Inv.step (h : Inv s) {l : Label} (hs : step U s l = some s') : Inv s' := by
  obtain ⟨written, hwritten⟩ := step_written h hs
  exact h.write hwritten.write hwritten.flights

end Wapsell.Tenants
