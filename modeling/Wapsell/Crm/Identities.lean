import Wapsell.Crm.Patch
import Wapsell.Crm.TurnCount

/-!
# The identities of the CRM rows

Contacts, activities and tasks are looked up by tenant, kind and external
id, and none of them has a source, so the store itself keeps no two of them
apart. The recorder looks before it adds. The extractor looks at the titles
of the open tasks, which is another question than the external id, and does
not look at all before it leaves a breadcrumb.

So the recorder keeps identities apart by its own lookups, from any
store in which they are apart. The extractor does so where every task
that is stored under the external id of a new one is still open and
among the tasks it looks at, and where it leaves no breadcrumb. The
theorem about runs has this as its condition on each application.
-/

namespace Wapsell.Crm

open Lib Py Resources

/-- The kinds of the CRM. -/
def CRM_KINDS : List String := [CONTACT_KIND, ACTIVITY_KIND, TASK_KIND]

/-- `(tenant_id, kind, external_id)` of a contact, an activity or a task. -/
def identity (r : Resource) : Option (String × String × String) :=
  if r.kind ∈ CRM_KINDS then r.externalId.map fun e => (r.tenantId, r.kind, e) else none

/-- At most one row for each identity. -/
def IdentitiesUnique (repo : Repository) : Prop := Dict.Unique identity repo

/-- The rows of a store that only the CRM writes to. Each sits under its own id, and no two share an
identity. -/
structure Rows (repo : Repository) : Prop where
  rowId : RowIds repo
  noSource : ∀ k r, repo.get? k = some r → r.sourceId = none
  unique : IdentitiesUnique repo

theorem Rows.empty : Rows (Dict.empty : Repository) where
  rowId k r h := by cases h
  noSource k r h := by cases h
  unique k k' r r' i h := by cases h

theorem identity_eq_some {r : Resource} {t k e : String} (h : identity r = some (t, k, e)) :
    r.tenantId = t ∧ r.kind = k ∧ r.externalId = some e := by
  unfold identity at h
  split at h
  · obtain ⟨external, he, hr⟩ := Option.map_eq_some_iff.mp h
    cases hr
    exact ⟨rfl, rfl, he⟩
  · cases h

/-- Nobody has an identity that is not found. -/
theorem identity_ne_of_find {repo : Repository} {t k e : String}
    (h : repo.findByExternalId t k e = none) {x : String} {row : Resource}
    (hrow : repo.get? x = some row) : identity row ≠ some (t, k, e) := by
  intro hid
  have hnot := List.find?_eq_none.mp h row (Dict.mem_values_iff.mpr ⟨x, hrow⟩)
  rw [decide_eq_true_eq] at hnot
  exact hnot (identity_eq_some hid)

/-- A row that was looked for in vain is added. -/
theorem Rows.add {repo : Repository} (h : Rows repo) {r : Resource} (hsource : r.sourceId = none)
    {e : String} (he : r.externalId = some e)
    (hfind : repo.findByExternalId r.tenantId r.kind e = none) : Rows (repo.set r.id r) where
  rowId := Dict.Forall.set h.rowId rfl
  noSource := Dict.Forall.set h.noSource hsource
  unique := by
    refine Dict.Unique.set h.unique fun x row a hx ha hr => ?_
    have hsome : identity r = some (r.tenantId, r.kind, e) := by
      unfold identity at hr ⊢
      split at hr
      · next hkind => rw [if_pos hkind, he, Option.map_some]
      · cases hr
    rw [hsome] at hr
    cases hr
    exact absurd ha (identity_ne_of_find hfind hx)

/-- A row is written back under its identity. -/
theorem Rows.rewrite {repo : Repository} (h : Rows repo) {r old : Resource}
    (hold : repo.get? r.id = some old) (hsource : r.sourceId = old.sourceId)
    (hid : identity r = identity old) : Rows (repo.set r.id r) where
  rowId := Dict.Forall.set h.rowId rfl
  noSource := Dict.Forall.set h.noSource (hsource.trans (h.noSource _ _ hold))
  unique := Dict.Unique.set h.unique fun x row a hx ha hr =>
    h.unique r.id x old row a hold hx (hid ▸ hr) ha

theorem Rows.erase {repo : Repository} (h : Rows repo) (k : String) : Rows (repo.erase k) where
  rowId := Dict.Forall.erase h.rowId k
  noSource := Dict.Forall.erase h.noSource k
  unique := Dict.Unique.erase h.unique k

/-! ## The recorder -/

/-- The contact of an inbound is found or added. -/
theorem Rows.upsertContactForInbound {U : Unicode} {repo repo' : Repository} (h : Rows repo)
    {tenantId fromNumber : String} {profileName : Option String} {at_ : Option Datetime}
    {draw : Draw} {c : Resource}
    (hok : upsertContactForInbound U repo tenantId fromNumber profileName at_ draw =
      .ok (c, repo')) :
    Rows repo' ∧ ∀ k, repo.get? k = none → k ≠ draw.id → repo'.get? k = none := by
  rcases upsertContactForInbound_eq_ok hok with ⟨hfind, rfl, rfl⟩ | ⟨existing, n, hfind, -, rfl, rfl⟩
  · refine ⟨h.add rfl rfl hfind, fun k hk hne => ?_⟩
    exact (Dict.get?_set_ne _ _ (Ne.symm hne)).trans hk
  · obtain ⟨hrow, -, -, -⟩ := contactOf_eq_some h.rowId hfind
    have hsource := h.noSource _ _ hrow
    rw [upsert_of_noSource repo (r := bumpedContact existing fromNumber profileName _ n) hsource]
    refine ⟨h.rewrite hrow rfl rfl, fun k hnone _ => ?_⟩
    refine (Dict.get?_set_ne _ _ ?_).trans hnone
    rintro rfl
    rw [show repo.get? (bumpedContact existing fromNumber profileName _ n).id = some existing
      from hrow] at hnone
    cases hnone

/-- An activity is found or added. -/
theorem Rows.recordActivity {repo : Repository} (h : Rows repo)
    (tenantId contactId direction text messageId activityType : String) (at_ : Option Datetime)
    (extra : Dict String Json) (draw : Draw) :
    Rows (recordActivity repo tenantId contactId direction text messageId activityType at_ extra
      draw).2 := by
  rcases recordActivity_cases repo tenantId contactId direction text messageId activityType at_ extra
    draw with hrepo | ⟨hfind, hrepo⟩
  · rw [hrepo]
    exact h
  · rw [hrepo]
    exact h.add rfl rfl hfind

theorem Rows.step {U : Unicode} {repo repo' : Repository} {call : Call} (h : Rows repo)
    (hstep : step U repo call = some repo') : Rows repo' := by
  cases call with
  | inbound tenantId fromNumber text messageId profileName at_ contactDraw activityDraw =>
    simp only [Crm.step] at hstep
    split at hstep
    · cases hstep
    unfold recordInbound at hstep
    cases hcontact : Crm.upsertContactForInbound U repo tenantId fromNumber profileName at_
        contactDraw with
    | error e =>
      simp only [hcontact, bind, Except.bind] at hstep
      cases hstep
      exact h
    | ok written =>
      simp only [hcontact, bind, Except.bind, pure, Except.pure] at hstep
      cases hstep
      exact (h.upsertContactForInbound hcontact).1.recordActivity _ _ _ _ _ _ _ _ _
  | outbound tenantId fromNumber text replyToMessageId at_ extra draw =>
    simp only [Crm.step] at hstep
    split at hstep
    · cases hstep
    cases hstep
    unfold recordOutbound
    cases repo.findByExternalId tenantId CONTACT_KIND (contactExternalId fromNumber) with
    | none => exact h
    | some contact => exact h.recordActivity _ _ _ _ _ _ _ _ _

/-! ## The patch -/

/-- What `_patch_contact` leaves of the row. -/
structure Patched (U : Unicode) (result : ExtractionResult) (contact patched : Resource) : Prop where
  id : patched.id = contact.id
  tenantId : patched.tenantId = contact.tenantId
  sourceId : patched.sourceId = contact.sourceId
  kind : patched.kind = contact.kind
  externalId : patched.externalId = contact.externalId
  summary : patched.summary = contact.summary
  status : patched.status = contact.status
  createdAt : patched.createdAt = contact.createdAt
  data : ∃ data changed, patchedContact U contact.data result = .ok (data, changed) ∧
    patched.data = if changed then data else contact.data

theorem Patched.identity {U : Unicode} {result : ExtractionResult} {contact patched : Resource}
    (h : Patched U result contact patched) : identity patched = identity contact := by
  rw [Crm.identity, Crm.identity, h.kind, h.externalId, h.tenantId]

/-- A patch whose columns can be computed is made. -/
theorem exists_patchContact {U : Unicode} {contact : Resource} {result : ExtractionResult}
    {columns : Dict String Json × Bool} (h : patchedContact U contact.data result = .ok columns)
    (repo : Repository) (now : Datetime) :
    ∃ repo', patchContact U repo contact result now = .ok repo' := by
  unfold patchContact
  rw [h]
  exact ⟨_, rfl⟩

/-- `_patch_contact` writes the contact back, patched, and nothing else. -/
theorem patchContact_ok {U : Unicode} {repo repo' : Repository} {contact : Resource}
    {result : ExtractionResult} {now : Datetime} (hsource : contact.sourceId = none)
    (hrow : repo.get? contact.id = some contact)
    (hok : patchContact U repo contact result now = .ok repo') :
    ∃ patched, Patched U result contact patched ∧ repo'.get? contact.id = some patched ∧
      (repo' = repo ∨ repo' = repo.set patched.id patched) := by
  unfold patchContact at hok
  cases hdata : patchedContact U contact.data result with
  | error e =>
    rw [hdata] at hok
    cases hok
  | ok pair =>
    rw [hdata] at hok
    cases hok
    obtain ⟨data, changed⟩ := pair
    cases changed with
    | false =>
      exact ⟨contact, ⟨rfl, rfl, rfl, rfl, rfl, rfl, rfl, rfl, data, false, hdata, rfl⟩, hrow,
        .inl rfl⟩
    | true =>
      refine ⟨{ contact with data, updatedAt := now },
        ⟨rfl, rfl, rfl, rfl, rfl, rfl, rfl, rfl, data, true, hdata, rfl⟩, ?_, .inr ?_⟩
      · exact Dict.get?_set_self _ _ _
      · exact upsert_of_noSource repo (r := { contact with data, updatedAt := now }) hsource

/-- A patched contact keeps its identity, and the other rows theirs. -/
theorem Rows.patchContact {U : Unicode} {repo repo' : Repository} (h : Rows repo)
    {contact : Resource} {result : ExtractionResult} {now : Datetime}
    (hrow : repo.get? contact.id = some contact)
    (hok : patchContact U repo contact result now = .ok repo') : Rows repo' := by
  obtain ⟨patched, hp, -, rfl | rfl⟩ := patchContact_ok (h.noSource _ _ hrow) hrow hok
  · exact h
  · exact h.rewrite (hp.id ▸ hrow) hp.sourceId hp.identity

end Wapsell.Crm
