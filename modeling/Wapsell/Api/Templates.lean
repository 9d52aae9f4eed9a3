import Wapsell.Api.Access
import Wapsell.Templates.Repository

/-!
# The template endpoints

`list_templates`, `create_template`, `update_template` and
`delete_template` of `services/api/main.py` over the in-memory repository.
None awaits, so each is one step of the process. Only `create_template`
catches the `ValueError` of a key that is taken.

An update replaces the record by a copy with the fields of the request,
so what a request leaves out is kept, and a stamp is set only where it
is not there yet. The key of a template is checked by the repository on
an add and not on an update, and an update that takes another's key is
the matter of the module on keys.
-/

namespace Wapsell.Api

open Lib Py Templates

/-- `TemplateCreate`. -/
structure TemplateCreate where
  name : String
  body : String
  language : String := "es_AR"
  category : TemplateCategory := .utility
  deriving DecidableEq, Repr

/-- `TemplateUpdate`. -/
structure TemplateUpdate where
  name : Option String := none
  body : Option String := none
  language : Option String := none
  category : Option TemplateCategory := none
  status : Option TemplateStatus := none
  vendorTemplateId : Option String := none
  rejectionReason : Option String := none
  deriving DecidableEq, Repr

/-- The defaults of a fresh `MessageTemplate`. -/
structure TemplateDraw where
  id : String
  createdAt : Datetime
  deriving DecidableEq, Repr

/-- The template of a request. -/
def newTemplate (draw : TemplateDraw) (tenantId : String) (req : TemplateCreate) :
    MessageTemplate :=
  { id := draw.id, tenantId, name := req.name, body := req.body, language := req.language
    category := req.category, createdAt := draw.createdAt }

/-- A template with what the request sets; a status that is submitted or approved for the first time
is stamped. No transition is checked: any status may follow any other. -/
def patchedTemplate (template : MessageTemplate) (req : TemplateUpdate) (now : Datetime) :
    MessageTemplate :=
  { template with
    name := req.name.getD template.name
    body := req.body.getD template.body
    language := req.language.getD template.language
    category := req.category.getD template.category
    status := req.status.getD template.status
    submittedAt :=
      if req.status = some .submitted ∧ template.submittedAt = none then some now
      else template.submittedAt
    approvedAt :=
      if req.status = some .approved ∧ template.approvedAt = none then some now
      else template.approvedAt
    vendorTemplateId := req.vendorTemplateId.or template.vendorTemplateId
    rejectionReason := req.rejectionReason.or template.rejectionReason }

/-- The template behind an id, when it is the tenant's. -/
def templateOr404 (repo : Templates.Repository) (tenantId templateId : String) :
    Except HTTPException MessageTemplate :=
  match repo.get templateId with
  | none => .error ⟨404, "template not found"⟩
  | some template =>
    if template.tenantId ≠ tenantId then .error ⟨404, "template not found"⟩ else .ok template

section Routes

variable (required : Bool) (caller : Option User)

/-- `list_templates`. -/
def listTemplates (tenants : Tenants.Repository) (repo : Templates.Repository) (tenantId : String) :
    Except HTTPException (List MessageTemplate) := do
  let _ ← assertTenantAccess required caller tenantId
  let _ ← tenantOr404 tenants tenantId
  .ok (repo.listFor tenantId)

/-- `create_template`. -/
def createTemplate (tenants : Tenants.Repository) (repo : Templates.Repository)
    (draw : TemplateDraw) (tenantId : String) (req : TemplateCreate) :
    Except HTTPException (Templates.Repository × MessageTemplate) := do
  let _ ← assertTenantAccess required caller tenantId
  let _ ← tenantOr404 tenants tenantId
  let template := newTemplate draw tenantId req
  match repo.add template with
  | .error detail => .error ⟨409, detail⟩
  | .ok repo' => .ok (repo', template)

/-- `update_template`. It edits a template in every status, although the models say that only a
draft is edited. -/
def updateTemplate (repo : Templates.Repository) (tenantId templateId : String)
    (req : TemplateUpdate) (now : Datetime) :
    Except HTTPException (Templates.Repository × MessageTemplate) := do
  let _ ← assertTenantAccess required caller tenantId
  let template ← templateOr404 repo tenantId templateId
  let updated := patchedTemplate template req now
  match repo.update updated with
  | .error _ => .error ⟨500, "Internal Server Error"⟩
  | .ok repo' => .ok (repo', updated)

/-- `delete_template`. -/
def deleteTemplate (repo : Templates.Repository) (tenantId templateId : String) :
    Except HTTPException Templates.Repository := do
  let _ ← assertTenantAccess required caller tenantId
  let _ ← templateOr404 repo tenantId templateId
  .ok (repo.delete templateId).2

end Routes

/-- A key that is taken is answered with 409, and with nothing else. -/
theorem createTemplate_conflict_iff {required : Bool} {caller : Option User}
    {tenants : Tenants.Repository} {repo : Templates.Repository} {draw : TemplateDraw}
    {tenantId : String} {req : TemplateCreate} :
    (∃ detail, createTemplate required caller tenants repo draw tenantId req =
        .error ⟨409, detail⟩) ↔
      (∃ user, assertTenantAccess required caller tenantId = .ok user) ∧
        (∃ tenant, tenants.get tenantId = some tenant) ∧
          ∃ k row, repo.get? k = some row ∧ key row = (tenantId, req.name, req.language) := by
  unfold createTemplate
  cases haccess : assertTenantAccess required caller tenantId with
  | error e =>
    refine iff_of_false ?_ fun ⟨⟨_, h⟩, _⟩ => by cases h
    rintro ⟨detail, h⟩
    cases h
    unfold assertTenantAccess assertAuthenticated at haccess
    grind
  | ok user =>
    rw [tenantOr404]
    cases htenant : tenants.get tenantId with
    | none =>
      refine iff_of_false ?_ fun ⟨_, ⟨_, h⟩, _⟩ => by cases h
      rintro ⟨detail, h⟩
      cases h
    | some tenant =>
      show (∃ detail, (match repo.add (newTemplate draw tenantId req) with
        | .error detail => Except.error (HTTPException.mk 409 detail)
        | .ok repo' => .ok (repo', newTemplate draw tenantId req)) = .error ⟨409, detail⟩) ↔ _
      cases hadd : repo.add (newTemplate draw tenantId req) with
      | error detail =>
        have htaken := (add_eq_error.mp hadd).1
        exact iff_of_true ⟨detail, rfl⟩ ⟨⟨user, rfl⟩, ⟨tenant, rfl⟩, htaken⟩
      | ok repo' =>
        have hfree := (add_eq_ok.mp hadd).1
        refine iff_of_false (fun ⟨_, h⟩ => by cases h) ?_
        rintro ⟨-, -, k, row, hk, hrow⟩
        exact hfree k row hk hrow

end Wapsell.Api
