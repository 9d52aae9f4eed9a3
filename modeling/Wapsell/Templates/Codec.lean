import Wapsell.Models
import Wapsell.Postgres.Adapter

/-!
# Template rows

`PostgresTemplateRepository` and `_row_to_template` of
`sdk/wapsell/templates/repository.py`, over the table of
`infra/postgres/migrations/006_message_templates.sql`. `_parse_dt` reads a
cell as every other decoder does.

A template has two timestamps that may be missing besides the one that
is always there. All three are read by the same function, and a missing
one is NULL in its column.

The two enumerations are stored by their values, and a text that is none
of them is refused by the decoder.
-/

namespace Wapsell

/-- The string value of the enumeration member. -/
def TemplateStatus.value : TemplateStatus → String
  | .draft => "DRAFT"
  | .submitted => "SUBMITTED"
  | .approved => "APPROVED"
  | .rejected => "REJECTED"

/-- `TemplateStatus(raw)`, `none` for the `ValueError`. -/
def TemplateStatus.ofValue (raw : String) : Option TemplateStatus :=
  [.draft, .submitted, .approved, .rejected].find? fun s => s.value = raw

theorem TemplateStatus.ofValue_value (s : TemplateStatus) :
    TemplateStatus.ofValue s.value = some s := by
  cases s <;> rfl

/-- The string value of the enumeration member. -/
def TemplateCategory.value : TemplateCategory → String
  | .utility => "UTILITY"
  | .marketing => "MARKETING"
  | .authentication => "AUTHENTICATION"

/-- `TemplateCategory(raw)`, `none` for the `ValueError`. -/
def TemplateCategory.ofValue (raw : String) : Option TemplateCategory :=
  [.utility, .marketing, .authentication].find? fun c => c.value = raw

theorem TemplateCategory.ofValue_value (c : TemplateCategory) :
    TemplateCategory.ofValue c.value = some c := by
  cases c <;> rfl

namespace Templates

open Lib Py Postgres

/-- `_row_to_template`. -/
def rowToTemplate (row : List Cell) : Except Exc MessageTemplate := do
  let id ← (cellAt row 0).asText
  let tenantId ← (cellAt row 1).asText
  let name ← (cellAt row 2).asText
  let language ← (cellAt row 3).asText
  let category ← (cellAt row 4).asMember TemplateCategory.ofValue
  let body ← (cellAt row 5).asText
  let status ← (cellAt row 6).asMember TemplateStatus.ofValue
  let vendorTemplateId ← (cellAt row 7).asOptText
  let rejectionReason ← (cellAt row 8).asOptText
  let createdAt ← (cellAt row 9).asTime
  let submittedAt ← (cellAt row 10).asOptTime
  let approvedAt ← (cellAt row 11).asOptTime
  .ok
    { id, tenantId, name, language, category, body, status, vendorTemplateId, rejectionReason
      createdAt, submittedAt, approvedAt }

/-- What `PostgresTemplateRepository` sends on `add` and reads on `get`. -/
def templateAdapter : Adapter MessageTemplate where
  columns :=
    [("id", .text), ("tenant_id", .text), ("name", .text), ("language", .text),
      ("category", .text), ("body", .text), ("status", .text), ("vendor_template_id", .text),
      ("rejection_reason", .text), ("created_at", .timestamptz), ("submitted_at", .timestamptz),
      ("approved_at", .timestamptz)]
  slots := List.replicate 12 .plain
  row t :=
    [.text t.id, .text t.tenantId, .text t.name, .text t.language, .text t.category.value,
      .text t.body, .text t.status.value, .ofText t.vendorTemplateId, .ofText t.rejectionReason,
      .timestamp t.createdAt, .ofTime t.submittedAt, .ofTime t.approvedAt]
  id t := t.id
  ofRow := rowToTemplate

/-- What `update` sends: `_UPDATE_SQL`. -/
def templateChange : Change MessageTemplate where
  sets :=
    [("name", .plain), ("language", .plain), ("category", .plain), ("body", .plain),
      ("status", .plain), ("vendor_template_id", .plain), ("rejection_reason", .plain),
      ("submitted_at", .plain), ("approved_at", .plain)]
  params t :=
    [.text t.name, .text t.language, .text t.category.value, .text t.body, .text t.status.value,
      .ofText t.vendorTemplateId, .ofText t.rejectionReason, .ofTime t.submittedAt,
      .ofTime t.approvedAt]
  missing := some fun t => s!"unknown template: {t.id}"

theorem rowToTemplate_of_answers {t : MessageTemplate} {row : List Cell}
    (h : List.Forall₂ Fetched (templateAdapter.row t) row) : rowToTemplate row = .ok t := by
  have hat := answers_at h
  have hcategory := Fetched.asMember (hat 4) (TemplateCategory.ofValue_value t.category)
  have hstatus := Fetched.asMember (hat 6) (TemplateStatus.ofValue_value t.status)
  rw [rowToTemplate, Fetched.asText (hat 0), ok_bind, Fetched.asText (hat 1), ok_bind,
    Fetched.asText (hat 2), ok_bind, Fetched.asText (hat 3), ok_bind, hcategory, ok_bind,
    Fetched.asText (hat 5), ok_bind, hstatus, ok_bind, Fetched.asOptText (hat 7), ok_bind,
    Fetched.asOptText (hat 8), ok_bind, Fetched.asTime (hat 9), ok_bind,
    Fetched.asOptTime (hat 10), ok_bind, Fetched.asOptTime (hat 11), ok_bind]

/-- What a decoded row says about the columns no UPDATE writes. -/
theorem rowToTemplate_kept {row : List Cell} {t : MessageTemplate} (h : rowToTemplate row = .ok t) :
    (cellAt row 1).asText = .ok t.tenantId ∧ (cellAt row 9).asTime = .ok t.createdAt := by
  simp only [rowToTemplate, bind_eq_ok] at h
  obtain ⟨_, _, _, htenant, _, _, _, _, _, _, _, _, _, _, _, _, _, _, _, hcreated, _, _, _, _, h⟩ :=
    h
  cases h
  exact ⟨htenant, hcreated⟩

/-- The cells of a template are the parameters of its INSERT. -/
def templateCodec : Codec templateAdapter (fun _ => True) (fun _ => True) Eq where
  cells := templateAdapter.row
  nodup := by decide
  length _ := rfl
  typed t := by simp [templateAdapter]
  insert _ _ _ h := (Option.some.inj h).symm
  sent _ _ _ := rfl
  decode t _ _ h := ⟨t, rowToTemplate_of_answers h, rfl⟩
  id _ := rfl
  id_mem := by decide

theorem templateCodec_covers : templateCodec.Covers templateChange
    fun stored t => t.tenantId = stored.tenantId ∧ t.createdAt = stored.createdAt where
  change _ _ _ h := (Option.some.inj h).symm
  sent _ _ _ := rfl
  kept driver row stored t htyped hdecoded hkeeps c hc hnot hid := by
    have hcolumn : ∀ c ∈ templateAdapter.columns.names, c ∉ templateChange.names →
        c ≠ "id" → c = "tenant_id" ∨ c = "created_at" := by decide
    obtain ⟨htenant, hcreated⟩ := rowToTemplate_kept hdecoded
    rcases hcolumn c hc hnot hid with rfl | rfl
    · rw [text_kept htyped (by decide) rfl htenant, ← hkeeps.1]
      rfl
    · rw [time_kept htyped (by decide) rfl hcreated, ← hkeeps.2]
      rfl

end Templates

end Wapsell
