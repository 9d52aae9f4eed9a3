import Wapsell.Lib.Run
import Wapsell.Api.Templates

/-!
# The lifecycle of a template

Runs of `PATCH` requests on a template that was just created, under a clock
that does not go back. The status is the caller's choice at every request.
A status is stamped when it is first set, so the stamps that the status asks
for are there in every run; that a template is approved only behind a
submission, and with the content that was submitted, is up to the caller.

What was submitted last is remembered beside the repository, in the
state of the run only, since the code keeps no copy of it: that is what
makes the content of an approved template a question at all. The two
forms of the content differ in what they ask of a template that went to
review without a submission; the second one says nothing of it.

**What this does not establish.** That Meta saw the content. The code
sends nothing on a PATCH, and the status is what the caller says it is.
-/

namespace Wapsell.Api

open Lib Py Templates

/-- A `PATCH` request, with the instant it is served at. -/
structure PatchCall where
  caller : Option User
  tenantId : String
  templateId : String
  req : TemplateUpdate
  now : Datetime

/-- What Meta reviews: the parts of a template that an edit can change and a review is about. -/
structure Content where
  name : String
  language : String
  category : TemplateCategory
  body : String
  deriving DecidableEq, Repr

def content (t : MessageTemplate) : Content :=
  { name := t.name, language := t.language, category := t.category, body := t.body }

/-- The content with what a request sets. -/
def Content.edit (c : Content) (req : TemplateUpdate) : Content where
  name := req.name.getD c.name
  language := req.language.getD c.language
  category := req.category.getD c.category
  body := req.body.getD c.body

/-- The repository and the clock, and what a template was when it was last moved to `SUBMITTED`. -/
structure Lifecycle where
  repo : Templates.Repository
  clock : Datetime
  lastSubmitted : Option Content := none

/-- Every template is under its id. -/
def TemplateIds (repo : Templates.Repository) : Prop := ∀ k t, repo.get? k = some t → t.id = k

variable (required : Bool) (templateId : String)

/-- A request is served; one that fails changes nothing. -/
def patchStep (s : Lifecycle) (call : PatchCall) : Option Lifecycle :=
  if s.clock ≤ call.now then
    match updateTemplate required call.caller s.repo call.tenantId call.templateId call.req call.now with
    | .error _ => some { s with clock := call.now }
    | .ok (repo, updated) => some
        { repo, clock := call.now
          lastSubmitted :=
            if call.templateId = templateId ∧ call.req.status = some .submitted then
              some (content updated)
            else s.lastSubmitted }
  else none

/-- The request is on the template, and takes effect. -/
def Applies (s : Lifecycle) (call : PatchCall) : Prop :=
  call.templateId = templateId ∧ ∃ out,
    updateTemplate required call.caller s.repo call.tenantId call.templateId call.req call.now = .ok out

/-- The template is stored, and the clock is past its stamps. -/
def Stored (s : Lifecycle) : Prop :=
  TemplateIds s.repo ∧ ∃ t, s.repo.get templateId = some t ∧
    (∀ at_, t.submittedAt = some at_ → at_ ≤ s.clock) ∧ ∀ at_, t.approvedAt = some at_ → at_ ≤ s.clock

/-! ## What is asked of a state -/

/-- A status that was reached is stamped. It is kept by every request, because the stamp is set with
the status and no request clears one. -/
def Stamped (t : MessageTemplate) : Prop :=
  (t.status = .submitted → t.submittedAt ≠ none) ∧ (t.status = .approved → t.approvedAt ≠ none)

/-- The stamps that are set stay. -/
def StampsKept (t t' : MessageTemplate) : Prop :=
  (∀ at_, t.submittedAt = some at_ → t'.submittedAt = some at_) ∧
    ∀ at_, t.approvedAt = some at_ → t'.approvedAt = some at_

/-- An approval is stamped behind a submission. -/
def StampsOrdered (t : MessageTemplate) : Prop :=
  ∀ approved, t.approvedAt = some approved →
    ∃ submitted, t.submittedAt = some submitted ∧ submitted ≤ approved

/-- `SUBMITTED` or `APPROVED`. -/
def InReview (status : TemplateStatus) : Prop := status = .submitted ∨ status = .approved

/-- What is submitted or approved is what was submitted last. -/
def AsSubmitted (s : Lifecycle) : Prop :=
  ∀ t, s.repo.get templateId = some t → InReview t.status → s.lastSubmitted = some (content t)

/-- The same, of a template that was submitted. -/
def NotEdited (s : Lifecycle) : Prop :=
  ∀ t, s.repo.get templateId = some t → InReview t.status →
    ∀ submitted, s.lastSubmitted = some submitted → content t = submitted

/-! ## What the requests must keep to -/

/-- A request that takes effect does not approve the template before it was submitted. The stamp of
the submission is what tells, also behind a rejection. -/
def SubmitsFirst (s : Lifecycle) (call : PatchCall) : Prop :=
  Applies required templateId s call → call.req.status = some .approved →
    ∀ t, s.repo.get templateId = some t → t.submittedAt ≠ none

/-- A request that takes effect, and leaves the template submitted or approved without submitting
it, leaves it as it was submitted last. An edit in the very request that submits is part of what is
submitted. -/
def KeepsSubmitted (s : Lifecycle) (call : PatchCall) : Prop :=
  Applies required templateId s call → call.req.status ≠ some .submitted →
    ∀ t, s.repo.get templateId = some t → InReview (call.req.status.getD t.status) →
      s.lastSubmitted = some ((content t).edit call.req)

/-- The same, of a template that was submitted. -/
def KeepsContent (s : Lifecycle) (call : PatchCall) : Prop :=
  Applies required templateId s call → call.req.status ≠ some .submitted →
    ∀ t, s.repo.get templateId = some t → InReview (call.req.status.getD t.status) →
      ∀ submitted, s.lastSubmitted = some submitted → (content t).edit call.req = submitted

variable {required templateId}

/-! ## One request -/

theorem templateOr404_eq_ok {repo : Templates.Repository} {tenantId id : String} {t : MessageTemplate}
    (h : templateOr404 repo tenantId id = .ok t) : repo.get id = some t := by
  unfold templateOr404 at h
  split at h
  · cases h
  · next template hget =>
    split at h
    · cases h
    · cases h
      exact hget

/-- A request that takes effect writes the template back, patched. -/
theorem updateTemplate_eq_ok {caller : Option User} {repo : Templates.Repository}
    {tenantId id : String} {req : TemplateUpdate} {now : Datetime}
    {out : Templates.Repository × MessageTemplate}
    (h : updateTemplate required caller repo tenantId id req now = .ok out) :
    ∃ t, repo.get id = some t ∧ out.2 = patchedTemplate t req now ∧ out.1 = repo.set t.id out.2 := by
  unfold updateTemplate at h
  cases haccess : assertTenantAccess required caller tenantId with
  | error e =>
    rw [haccess] at h
    cases h
  | ok user =>
    cases htemplate : templateOr404 repo tenantId id with
    | error e =>
      rw [haccess, htemplate] at h
      cases h
    | ok t =>
      rw [haccess, htemplate] at h
      simp only [bind, Except.bind] at h
      refine ⟨t, templateOr404_eq_ok htemplate, ?_⟩
      cases hupdate : repo.update (patchedTemplate t req now) with
      | error e =>
        rw [hupdate] at h
        cases h
      | ok repo' =>
        rw [hupdate] at h
        cases h
        rw [Templates.Repository.update] at hupdate
        split at hupdate
        · cases hupdate
          exact ⟨rfl, rfl⟩
        · cases hupdate

/-- What a request does to the template: nothing, or it patches it. -/
theorem patchStep_cases {s s' : Lifecycle} {call : PatchCall} {t : MessageTemplate}
    (hids : TemplateIds s.repo) (ht : s.repo.get templateId = some t)
    (hstep : patchStep required templateId s call = some s') :
    s.clock ≤ call.now ∧ s'.clock = call.now ∧ TemplateIds s'.repo ∧
      (¬ Applies required templateId s call ∧ s'.repo.get templateId = some t ∧
          s'.lastSubmitted = s.lastSubmitted ∨
        Applies required templateId s call ∧
          s'.repo.get templateId = some (patchedTemplate t call.req call.now) ∧
          s'.lastSubmitted = if call.req.status = some .submitted then
            some ((content t).edit call.req) else s.lastSubmitted) := by
  unfold patchStep at hstep
  split at hstep
  · next hclock =>
    refine ⟨hclock, ?_⟩
    split at hstep
    · next e hfailed =>
      cases hstep
      refine ⟨rfl, hids, .inl ⟨?_, ht, rfl⟩⟩
      rintro ⟨-, out, hout⟩
      rw [hfailed] at hout
      cases hout
    · next repo updated hserved =>
      cases hstep
      obtain ⟨t', ht', hupdated, hrepo⟩ := updateTemplate_eq_ok hserved
      have hid : t'.id = call.templateId := hids _ _ ht'
      dsimp only at hupdated hrepo
      refine ⟨rfl, ?_, ?_⟩
      · rw [hrepo]
        refine Dict.Forall.set hids ?_
        rw [hupdated]
        rfl
      · rw [hid] at hrepo
        by_cases hsame : call.templateId = templateId
        · subst hsame
          rw [ht] at ht'
          cases ht'
          refine .inr ⟨⟨rfl, _, hserved⟩, ?_, ?_⟩
          · show repo.get? _ = _
            rw [hrepo, Dict.get?_set_self, hupdated]
          · simp only [true_and, hupdated]
            rfl
        · refine .inl ⟨fun happlies => hsame happlies.1, ?_, if_neg fun h => hsame h.1⟩
          show repo.get? _ = _
          rw [hrepo, Dict.get?_set_ne _ _ hsame]
          exact ht
  · cases hstep

/-! ## The stamps of a patched template -/

section Patched

variable {t : MessageTemplate} {req : TemplateUpdate} {now : Datetime}

/-- A stamp is there once its status was set, or it was. -/
theorem stamp_ne_none_iff {p : Prop} [Decidable p] {stamp : Option Datetime} :
    (if p ∧ stamp = none then some now else stamp) ≠ none ↔ p ∨ stamp ≠ none := by
  by_cases hp : p
  · cases stamp <;> simp [hp]
  · simp [hp]

/-- It is the one that was there, or of now. -/
theorem stamp_eq_some {p : Prop} [Decidable p] {stamp : Option Datetime} {at_ : Datetime}
    (h : (if p ∧ stamp = none then some now else stamp) = some at_) : at_ = now ∨ stamp = some at_ := by
  split at h
  · exact .inl (Option.some.inj h).symm
  · exact .inr h

theorem stamped_patched (h : Stamped t) : Stamped (patchedTemplate t req now) := by
  constructor
  · intro hstatus
    rw [patchedTemplate, stamp_ne_none_iff]
    cases hreq : req.status with
    | some status =>
      rw [patchedTemplate, hreq] at hstatus
      exact .inl (congrArg some hstatus)
    | none =>
      rw [patchedTemplate, hreq] at hstatus
      exact .inr (h.1 hstatus)
  · intro hstatus
    rw [patchedTemplate, stamp_ne_none_iff]
    cases hreq : req.status with
    | some status =>
      rw [patchedTemplate, hreq] at hstatus
      exact .inl (congrArg some hstatus)
    | none =>
      rw [patchedTemplate, hreq] at hstatus
      exact .inr (h.2 hstatus)

theorem stampsKept_patched : StampsKept t (patchedTemplate t req now) := by
  constructor
  · intro at_ h
    simp [patchedTemplate, h]
  · intro at_ h
    simp [patchedTemplate, h]

theorem stamps_patched_le {clock : Datetime} (hclock : clock ≤ now)
    (h : (∀ at_, t.submittedAt = some at_ → at_ ≤ clock) ∧ ∀ at_, t.approvedAt = some at_ → at_ ≤ clock) :
    (∀ at_, (patchedTemplate t req now).submittedAt = some at_ → at_ ≤ now) ∧
      ∀ at_, (patchedTemplate t req now).approvedAt = some at_ → at_ ≤ now := by
  constructor
  · intro at_ hat
    rcases stamp_eq_some hat with rfl | hold
    · exact Int.le_refl _
    · exact Int.le_trans (h.1 at_ hold) hclock
  · intro at_ hat
    rcases stamp_eq_some hat with rfl | hold
    · exact Int.le_refl _
    · exact Int.le_trans (h.2 at_ hold) hclock

theorem stampsOrdered_patched_iff (h : StampsOrdered t)
    (hclock : ∀ at_, t.submittedAt = some at_ → at_ ≤ now) :
    StampsOrdered (patchedTemplate t req now) ↔
      (req.status = some .approved → t.submittedAt ≠ none) := by
  constructor
  · intro hordered happroves
    obtain ⟨approved, hstamp⟩ := Option.ne_none_iff_exists'.mp
      (show (patchedTemplate t req now).approvedAt ≠ none from stamp_ne_none_iff.mpr (.inl happroves))
    obtain ⟨submitted, hsubmitted, -⟩ := hordered approved hstamp
    -- the request sets one status, and it is not `SUBMITTED`
    rw [patchedTemplate, happroves, if_neg (by simp)] at hsubmitted
    rw [hsubmitted]
    exact Option.some_ne_none submitted
  · intro hfirst approved hstamp
    have hkept : ∀ submitted, t.submittedAt = some submitted → submitted ≤ approved →
        ∃ submitted, (patchedTemplate t req now).submittedAt = some submitted ∧ submitted ≤ approved :=
      fun submitted hsubmitted hle => ⟨submitted, stampsKept_patched.1 submitted hsubmitted, hle⟩
    by_cases happroves : req.status = some .approved
    · obtain ⟨submitted, hsubmitted⟩ := Option.ne_none_iff_exists'.mp (hfirst happroves)
      rcases stamp_eq_some hstamp with rfl | hold
      · exact hkept submitted hsubmitted (hclock submitted hsubmitted)
      · obtain ⟨submitted', hsubmitted', hle⟩ := h approved hold
        exact hkept submitted' hsubmitted' hle
    · have hold : t.approvedAt = some approved := by simpa [patchedTemplate, happroves] using hstamp
      obtain ⟨submitted, hsubmitted, hle⟩ := h approved hold
      exact hkept submitted hsubmitted hle

end Patched

theorem stored_patchStep {s s' : Lifecycle} {call : PatchCall} (h : Stored templateId s)
    (hstep : patchStep required templateId s call = some s') : Stored templateId s' := by
  obtain ⟨hids, t, ht, hpast⟩ := h
  obtain ⟨hclock, hnow, hids', hcases⟩ := patchStep_cases hids ht hstep
  refine ⟨hids', ?_⟩
  rw [hnow]
  rcases hcases with ⟨-, ht', -⟩ | ⟨-, ht', -⟩
  · refine ⟨t, ht', fun at_ hat => ?_, fun at_ hat => ?_⟩
    · exact Int.le_trans (hpast.1 at_ hat) hclock
    · exact Int.le_trans (hpast.2 at_ hat) hclock
  · exact ⟨_, ht', stamps_patched_le hclock hpast⟩

/-! ## Stamps -/

/-- The template has `P`. -/
def Has (templateId : String) (P : MessageTemplate → Prop) (s : Lifecycle) : Prop :=
  ∃ t, s.repo.get templateId = some t ∧ P t

/-- The stamps of a template in one state are those it has after any requests. -/
theorem stampsKept_run {s s' : Lifecycle} {calls : List PatchCall} {t : MessageTemplate}
    (hids : TemplateIds s.repo) (ht : s.repo.get templateId = some t)
    (hrun : run (patchStep required templateId) s calls = some s') :
    ∃ t', s'.repo.get templateId = some t' ∧ StampsKept t t' := by
  induction calls generalizing s t with
  | nil =>
    cases hrun
    exact ⟨t, ht, fun _ h => h, fun _ h => h⟩
  | cons call calls ih =>
    obtain ⟨u, hstep, hrest⟩ := run_cons_eq_some.mp hrun
    obtain ⟨-, -, hids', hcases⟩ := patchStep_cases hids ht hstep
    rcases hcases with ⟨-, hu, -⟩ | ⟨-, hu, -⟩
    · exact ih hids' hu hrest
    · obtain ⟨t', ht', hkept⟩ := ih hids' hu hrest
      refine ⟨t', ht', fun at_ h => ?_, fun at_ h => ?_⟩
      · exact hkept.1 at_ (stampsKept_patched.1 at_ h)
      · exact hkept.2 at_ (stampsKept_patched.2 at_ h)

theorem stampsOrdered_patchStep_iff {s s' : Lifecycle} {call : PatchCall} (h : Stored templateId s)
    (hordered : Has templateId StampsOrdered s)
    (hstep : patchStep required templateId s call = some s') :
    Has templateId StampsOrdered s' ↔ SubmitsFirst required templateId s call := by
  obtain ⟨hids, t, ht, hpast⟩ := h
  obtain ⟨_, ht₀, hordered⟩ := hordered
  cases ht.symm.trans ht₀
  obtain ⟨hclock, -, -, hcases⟩ := patchStep_cases hids ht hstep
  simp only [Has, SubmitsFirst, ht, Option.some.injEq, forall_eq']
  rcases hcases with ⟨happlies, ht', -⟩ | ⟨happlies, ht', -⟩
  · simp [ht', hordered, happlies]
  · have hle : ∀ at_, t.submittedAt = some at_ → at_ ≤ call.now := fun at_ hat =>
      Int.le_trans (hpast.1 at_ hat) hclock
    simp [ht', happlies, stampsOrdered_patched_iff hordered hle]

theorem stamped_patchStep {s s' : Lifecycle} {call : PatchCall} (hids : TemplateIds s.repo)
    (h : Has templateId Stamped s) (hstep : patchStep required templateId s call = some s') :
    Has templateId Stamped s' := by
  obtain ⟨t, ht, hstamped⟩ := h
  obtain ⟨-, -, -, hcases⟩ := patchStep_cases hids ht hstep
  rcases hcases with ⟨-, ht', -⟩ | ⟨-, ht', -⟩
  · exact ⟨t, ht', hstamped⟩
  · exact ⟨_, ht', stamped_patched hstamped⟩

/-- The template was just created. -/
theorem stored_of_new {s : Lifecycle} {draw : TemplateDraw} {tenantId : String} {body : TemplateCreate}
    (hids : TemplateIds s.repo) (hnew : s.repo.get draw.id = some (newTemplate draw tenantId body)) :
    Stored draw.id s :=
  ⟨hids, _, hnew, (fun _ h => by cases h), fun _ h => by cases h⟩

/-- **Lifecycle stamps.** Whatever is requested, a template that is submitted or approved has the
stamp of that, and its stamps stay. An approval is stamped behind a submission exactly in the runs
in which no request that takes effect approves the template before it was submitted. The clock does
not go back in a run, without which no order of stamps could be promised. -/
theorem template_stamps (required : Bool) {repo : Templates.Repository} (clock : Datetime)
    {draw : TemplateDraw} {tenantId : String} {body : TemplateCreate} (hids : TemplateIds repo)
    (hnew : repo.get draw.id = some (newTemplate draw tenantId body)) :
    (∀ calls s', run (patchStep required draw.id) { repo, clock } calls = some s' → ∃ t,
      s'.repo.get draw.id = some t ∧ Stamped t ∧
        ∀ more s'', run (patchStep required draw.id) s' more = some s'' →
          ∃ t', s''.repo.get draw.id = some t' ∧ StampsKept t t') ∧
    ∀ calls, EachState (patchStep required draw.id) (Has draw.id StampsOrdered) { repo, clock } calls ↔
      EachStep (patchStep required draw.id) (SubmitsFirst required draw.id) { repo, clock } calls := by
  have hstored : Stored draw.id { repo, clock } := stored_of_new hids hnew
  constructor
  · intro calls s' hrun
    have hinv : Stored draw.id s' ∧ Has draw.id Stamped s' := Leads.invariant
      (P := fun s => Stored draw.id s ∧ Has draw.id Stamped s)
      (fun s l s' hs hstep => ⟨stored_patchStep hs.1 hstep, stamped_patchStep hs.1.1 hs.2 hstep⟩)
      ⟨calls, hrun⟩ ⟨hstored, _, hnew, (fun h => by cases h), fun h => by cases h⟩
    obtain ⟨⟨hids', -⟩, t, ht, hstamped⟩ := hinv
    exact ⟨t, ht, hstamped, fun more s'' hmore => stampsKept_run hids' ht hmore⟩
  · intro calls
    exact eachState_iff_eachStep (fun s l s' hs _ hstep => stored_patchStep hs hstep)
      (fun s l s' hs hP hstep => stampsOrdered_patchStep_iff hs hP hstep) hstored
      ⟨_, hnew, fun _ h => by cases h⟩

/-! ## Content -/

theorem asSubmitted_patchStep_iff {s s' : Lifecycle} {call : PatchCall} (h : Stored templateId s)
    (hsubmitted : AsSubmitted templateId s)
    (hstep : patchStep required templateId s call = some s') :
    AsSubmitted templateId s' ↔ KeepsSubmitted required templateId s call := by
  obtain ⟨hids, t, ht, -⟩ := h
  obtain ⟨-, -, -, hcases⟩ := patchStep_cases hids ht hstep
  simp only [AsSubmitted, KeepsSubmitted, ht, Option.some.injEq, forall_eq'] at hsubmitted ⊢
  rcases hcases with ⟨happlies, ht', hlast⟩ | ⟨happlies, ht', hlast⟩
  · simp only [ht', Option.some.injEq, forall_eq', hlast, happlies, false_implies, iff_true]
    exact hsubmitted
  · simp only [ht', Option.some.injEq, forall_eq', hlast, happlies, true_implies]
    by_cases hsubmits : call.req.status = some .submitted
    · exact iff_of_true (fun _ => if_pos hsubmits) fun h => absurd hsubmits h
    · rw [if_neg hsubmits]
      exact ⟨fun h _ => h, fun h => h hsubmits⟩

theorem notEdited_patchStep_iff {s s' : Lifecycle} {call : PatchCall} (h : Stored templateId s)
    (hkept : NotEdited templateId s) (hstep : patchStep required templateId s call = some s') :
    NotEdited templateId s' ↔ KeepsContent required templateId s call := by
  obtain ⟨hids, t, ht, -⟩ := h
  obtain ⟨-, -, -, hcases⟩ := patchStep_cases hids ht hstep
  simp only [NotEdited, KeepsContent, ht, Option.some.injEq, forall_eq'] at hkept ⊢
  rcases hcases with ⟨happlies, ht', hlast⟩ | ⟨happlies, ht', hlast⟩
  · simp only [ht', Option.some.injEq, forall_eq', hlast, happlies, false_implies, iff_true]
    exact hkept
  · simp only [ht', Option.some.injEq, forall_eq', hlast, happlies, true_implies]
    by_cases hsubmits : call.req.status = some .submitted
    · simp only [hsubmits, if_true, Option.some.injEq, ne_eq, not_true_eq_false, false_implies, iff_true]
      exact fun _ submitted h => h
    · rw [if_neg hsubmits]
      exact ⟨fun h _ => h, fun h => h hsubmits⟩

/-- **Approved content.** A template that is submitted or approved is what was submitted last exactly
in the runs in which each request that takes effect, and leaves it submitted or approved without
submitting it, leaves it so. Of a template that was submitted at all, that is a request that does
not edit what was submitted. -/
theorem template_content_iff (required : Bool) {repo : Templates.Repository} (clock : Datetime)
    {draw : TemplateDraw} {tenantId : String} {body : TemplateCreate} (hids : TemplateIds repo)
    (hnew : repo.get draw.id = some (newTemplate draw tenantId body)) (calls : List PatchCall) :
    (EachState (patchStep required draw.id) (AsSubmitted draw.id) { repo, clock } calls ↔
      EachStep (patchStep required draw.id) (KeepsSubmitted required draw.id) { repo, clock } calls) ∧
    (EachState (patchStep required draw.id) (NotEdited draw.id) { repo, clock } calls ↔
      EachStep (patchStep required draw.id) (KeepsContent required draw.id) { repo, clock } calls) := by
  have hstored : Stored draw.id { repo, clock } := stored_of_new hids hnew
  have hdraft : ∀ t, repo.get draw.id = some t → ¬ InReview t.status := by
    intro t ht
    rw [hnew] at ht
    cases ht
    rintro (h | h) <;> cases h
  constructor
  · exact eachState_iff_eachStep (fun s l s' hs _ hstep => stored_patchStep hs hstep)
      (fun s l s' hs hP hstep => asSubmitted_patchStep_iff hs hP hstep) hstored
      fun t ht h => absurd h (hdraft t ht)
  · exact eachState_iff_eachStep (fun s l s' hs _ hstep => stored_patchStep hs hstep)
      (fun s l s' hs hP hstep => notEdited_patchStep_iff hs hP hstep) hstored
      fun t ht h => absurd h (hdraft t ht)

/-! ## A template of acme -/

def welcomeDraw : TemplateDraw := ⟨"m1", 0⟩

def welcomeBody : TemplateCreate := { name := "welcome", body := "hola" }

/-- A repository with one template, just created. -/
def welcomeRepo : Templates.Repository :=
  Dict.empty.set "m1" (newTemplate welcomeDraw "acme" welcomeBody)

/-- A request on it, where no login is required. -/
def welcomeCall (req : TemplateUpdate) (now : Datetime) : PatchCall where
  caller := none
  tenantId := "acme"
  templateId := "m1"
  req
  now

theorem welcomeIds : TemplateIds welcomeRepo := Dict.Forall.set (fun k t h => by cases h) rfl

theorem welcome_new :
    welcomeRepo.get welcomeDraw.id = some (newTemplate welcomeDraw "acme" welcomeBody) :=
  rfl

/-- Submitted and then approved, it keeps the order of its stamps. -/
theorem welcome_stamps : EachState (patchStep false "m1") (Has "m1" StampsOrdered)
    { repo := welcomeRepo, clock := 0 }
    [welcomeCall { status := some .submitted } 1, welcomeCall { status := some .approved } 2] := by
  refine ((template_stamps false 0 welcomeIds welcome_new).2 _).mpr ?_
  intro s hs
  refine ⟨fun _ h => (by cases h), fun s' _ => ⟨fun _ _ t ht => ?_, trivial⟩⟩
  have hsubmitted : s.repo.get welcomeDraw.id = some (patchedTemplate
      (newTemplate welcomeDraw "acme" welcomeBody) { status := some .submitted } 1) := by
    cases hs
    rfl
  rw [hsubmitted] at ht
  cases ht
  exact Option.some_ne_none 1

/-- Submitted and then approved, it is what was submitted. -/
theorem welcome_content : EachState (patchStep false "m1") (AsSubmitted "m1")
    { repo := welcomeRepo, clock := 0 }
    [welcomeCall { status := some .submitted } 1, welcomeCall { status := some .approved } 2] := by
  refine (template_content_iff false 0 welcomeIds welcome_new _).1.mpr ?_
  intro s hs
  refine ⟨fun _ h => absurd rfl h, fun s' _ => ⟨fun _ _ t ht _ => ?_, trivial⟩⟩
  cases hs
  cases ht
  rfl

/-- Approved as a draft, it is never submitted. -/
theorem not_template_stamps : ¬ ∀ (required : Bool) (repo : Templates.Repository) (clock : Datetime)
    (draw : TemplateDraw) (tenantId : String) (body : TemplateCreate) (calls : List PatchCall),
    TemplateIds repo → repo.get draw.id = some (newTemplate draw tenantId body) →
      EachState (patchStep required draw.id) (Has draw.id StampsOrdered) { repo, clock } calls := by
  intro h
  have hrun : run (patchStep false "m1") { repo := welcomeRepo, clock := 0 }
      [welcomeCall { status := some .approved } 1] = some
        { repo := welcomeRepo.set "m1" (patchedTemplate (newTemplate welcomeDraw "acme" welcomeBody)
            { status := some .approved } 1)
          clock := 1 } := rfl
  obtain ⟨t, ht, hordered⟩ := (h false welcomeRepo 0 welcomeDraw "acme" welcomeBody _ welcomeIds
    welcome_new).last hrun
  cases ht
  obtain ⟨submitted, hsubmitted, -⟩ := hordered 1 rfl
  cases hsubmitted

/-- Submitted and then edited, it is submitted with a body that never was. -/
theorem not_template_content : ¬ ∀ (required : Bool) (repo : Templates.Repository) (clock : Datetime)
    (draw : TemplateDraw) (tenantId : String) (body : TemplateCreate) (calls : List PatchCall),
    TemplateIds repo → repo.get draw.id = some (newTemplate draw tenantId body) →
      EachState (patchStep required draw.id) (NotEdited draw.id) { repo, clock } calls := by
  intro h
  have hrun : run (patchStep false "m1") { repo := welcomeRepo, clock := 0 }
      [welcomeCall { status := some .submitted } 1, welcomeCall { body := some "chau" } 2] = some
        { repo := (welcomeRepo.set "m1" (patchedTemplate (newTemplate welcomeDraw "acme" welcomeBody)
            { status := some .submitted } 1)).set "m1" (patchedTemplate (patchedTemplate
              (newTemplate welcomeDraw "acme" welcomeBody) { status := some .submitted } 1)
                { body := some "chau" } 2)
          clock := 2
          lastSubmitted := some ⟨"welcome", "es_AR", .utility, "hola"⟩ } := rfl
  have hedited := (h false welcomeRepo 0 welcomeDraw "acme" welcomeBody _ welcomeIds
    welcome_new).last hrun
  have hbody := congrArg Content.body (hedited _ rfl (.inl rfl) _ rfl)
  exact absurd hbody (by decide)

end Wapsell.Api
