import Wapsell.Billing.Models
import Wapsell.Postgres.Adapter

/-!
# Subscription rows

`PostgresSubscriptionRepository` and `_row_to_sub` of
`sdk/wapsell/billing/repository.py`, over the table of
`infra/postgres/migrations/011_subscriptions.sql`.

The cells of a row are the parameters of the INSERT, in the order of the
columns, so that swapping two of them or leaving one out changes what is
read back. An UPDATE sends a part of them, and the rest keeps what it
was: `tenant_id` and `created_at` are never written again.

A status that is not in the enumeration is refused by the decoder.
Timestamps come back to the microsecond, whichever way the driver
answers them.
-/

namespace Wapsell.Billing

open Lib Py Postgres

/-- `_row_to_sub`: a fetched row, cell by cell. The status goes through the enumeration and is the
one cell that can be refused. -/
def rowToSub (row : List Cell) : Except Exc Subscription := do
  let created ← (cellAt row 9).asTime
  let updated ← (cellAt row 10).asTime
  let started ← (cellAt row 7).asOptTime
  let periodEnd ← (cellAt row 8).asOptTime
  let id ← (cellAt row 0).asText
  let tenantId ← (cellAt row 1).asText
  let planCode ← (cellAt row 2).asText
  let status ← (cellAt row 3).asMember SubscriptionStatus.ofValue
  let mpPreapprovalId ← (cellAt row 4).asOptText
  let mpInitPoint ← (cellAt row 5).asOptText
  let payerEmail ← (cellAt row 6).asOptText
  .ok
    { id, tenantId, planCode, status, mpPreapprovalId, mpInitPoint, payerEmail
      startedAt := started
      currentPeriodEnd := periodEnd
      createdAt := created
      updatedAt := updated }

/-- What `PostgresSubscriptionRepository` sends on `add` and reads on `get`. -/
def subscriptionAdapter : Adapter Subscription where
  columns :=
    [("id", .text), ("tenant_id", .text), ("plan_code", .text), ("status", .text),
      ("mp_preapproval_id", .text), ("mp_init_point", .text), ("payer_email", .text),
      ("started_at", .timestamptz), ("current_period_end", .timestamptz),
      ("created_at", .timestamptz), ("updated_at", .timestamptz)]
  slots := List.replicate 11 .plain
  row s :=
    [.text s.id, .text s.tenantId, .text s.planCode, .text s.status.value,
      .ofText s.mpPreapprovalId, .ofText s.mpInitPoint, .ofText s.payerEmail, .ofTime s.startedAt,
      .ofTime s.currentPeriodEnd, .timestamp s.createdAt, .timestamp s.updatedAt]
  id s := s.id
  ofRow := rowToSub

/-- What `update` sends: `_SUB_UPDATE_SQL`. -/
def subscriptionChange : Change Subscription where
  sets :=
    [("plan_code", .plain), ("status", .plain), ("mp_preapproval_id", .plain),
      ("mp_init_point", .plain), ("payer_email", .plain), ("started_at", .plain),
      ("current_period_end", .plain), ("updated_at", .plain)]
  params s :=
    [.text s.planCode, .text s.status.value, .ofText s.mpPreapprovalId, .ofText s.mpInitPoint,
      .ofText s.payerEmail, .ofTime s.startedAt, .ofTime s.currentPeriodEnd,
      .timestamp s.updatedAt]

theorem rowToSub_of_answers {s : Subscription} {row : List Cell}
    (h : List.Forall₂ Fetched (subscriptionAdapter.row s) row) : rowToSub row = .ok s := by
  have hat := answers_at h
  have hstatus := Fetched.asMember (hat 3) (SubscriptionStatus.ofValue_value s.status)
  rw [rowToSub, Fetched.asTime (hat 9), ok_bind, Fetched.asTime (hat 10), ok_bind,
    Fetched.asOptTime (hat 7), ok_bind, Fetched.asOptTime (hat 8), ok_bind,
    Fetched.asText (hat 0), ok_bind, Fetched.asText (hat 1), ok_bind, Fetched.asText (hat 2),
    ok_bind, hstatus, ok_bind, Fetched.asOptText (hat 4), ok_bind, Fetched.asOptText (hat 5),
    ok_bind, Fetched.asOptText (hat 6), ok_bind]

/-- What a decoded row says about the columns no UPDATE writes. -/
theorem rowToSub_kept {row : List Cell} {s : Subscription} (h : rowToSub row = .ok s) :
    (cellAt row 1).asText = .ok s.tenantId ∧ (cellAt row 9).asTime = .ok s.createdAt := by
  simp only [rowToSub, bind_eq_ok] at h
  obtain ⟨_, hcreated, _, _, _, _, _, _, _, _, _, htenant, _, _, _, _, _, _, _, _, _, _, h⟩ := h
  cases h
  exact ⟨htenant, hcreated⟩

/-- The cells of a subscription are the parameters of its INSERT. -/
def subscriptionCodec : Codec subscriptionAdapter (fun _ => True) (fun _ => True) Eq where
  cells := subscriptionAdapter.row
  nodup := by decide
  length _ := rfl
  typed s := by simp [subscriptionAdapter]
  insert _ _ _ h := (Option.some.inj h).symm
  sent _ _ _ := rfl
  decode s _ _ h := ⟨s, rowToSub_of_answers h, rfl⟩
  id _ := rfl
  id_mem := by decide

theorem subscriptionCodec_covers : subscriptionCodec.Covers subscriptionChange
    fun stored s => s.tenantId = stored.tenantId ∧ s.createdAt = stored.createdAt where
  change _ _ _ h := (Option.some.inj h).symm
  sent _ _ _ := rfl
  kept driver row stored s htyped hdecoded hkeeps c hc hnot hid := by
    have hcolumn : ∀ c ∈ subscriptionAdapter.columns.names, c ∉ subscriptionChange.names →
        c ≠ "id" → c = "tenant_id" ∨ c = "created_at" := by decide
    obtain ⟨htenant, hcreated⟩ := rowToSub_kept hdecoded
    rcases hcolumn c hc hnot hid with rfl | rfl
    · rw [text_kept htyped (by decide) rfl htenant, ← hkeeps.1]
      rfl
    · rw [time_kept htyped (by decide) rfl hcreated, ← hkeeps.2]
      rfl

end Wapsell.Billing
