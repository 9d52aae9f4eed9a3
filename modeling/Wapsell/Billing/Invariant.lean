import Wapsell.Billing.System

/-!
# What every reachable billing state keeps

The rows, Mercado Pago's preapprovals and the suspended calls stay in step
with each other: a row sits under its own id, a preapproval id belongs to
one row and is known to Mercado Pago, and a suspended call holds an object
whose row is still there, of the same tenant.

Most steps only add to what a state knows, which is `Extends`; the one step
that gives a row its preapproval id is treated by itself.

None of the theorems about a whole run is proved on the step function.
They use `step_cases`, which says once what a step can do, and the
clauses here, which say what the rows and calls have in common in every
reachable state. The clause that two `subscribe` calls are apart is the
one that makes the UNIQUE column of the table hold: Mercado Pago gives
each of them its own preapproval id, and each writes it to its own row.
-/

namespace Wapsell.Billing

open Lib Py

/-- What a suspended call may rely on. A `subscribe` still owns the row it added, which has no
preapproval id yet; a `cancel` and a reconcile hold the id that their row has and keeps. -/
def CallInv (s : System) : Call → Prop
  | .subscribe held answer =>
    (∃ row, s.repo.get? held.id = some row ∧ row.tenantId = held.tenantId ∧
      row.mpPreapprovalId = none) ∧
    held.status = .pending ∧ held.mpPreapprovalId = none ∧
    ∀ r, answer = .ok r → r.preapprovalId ≠ "" ∧ (s.preapprovals.get? r.preapprovalId).isSome ∧
      ∀ k row, s.repo.get? k = some row → row.mpPreapprovalId ≠ some r.preapprovalId
  | .cancel held _ =>
    ∃ p row, p ≠ "" ∧ held.mpPreapprovalId = some p ∧ s.repo.get? held.id = some row ∧
      row.tenantId = held.tenantId ∧ row.mpPreapprovalId = some p
  | .reconcile held p _ =>
    held.mpPreapprovalId = some p ∧ ∃ row, s.repo.get? held.id = some row ∧
      row.tenantId = held.tenantId ∧ row.mpPreapprovalId = some p

/-- Two `subscribe` calls work on different rows and were given different preapprovals. -/
def Apart : Call → Call → Prop
  | .subscribe held answer, .subscribe held' answer' =>
    held.id ≠ held'.id ∧ ∀ r r', answer = .ok r → answer' = .ok r' →
      r.preapprovalId ≠ r'.preapprovalId
  | _, _ => True

/-- The invariant of the interleaving. `known` and `unique` are about ids that rows have; the ids
that are still in the hands of a `subscribe` are covered by `calls` and `apart`. -/
structure Inv (s : System) : Prop where
  rowId : ∀ k row, s.repo.get? k = some row → row.id = k
  known : ∀ k row p, s.repo.get? k = some row → row.mpPreapprovalId = some p →
    p ≠ "" ∧ (s.preapprovals.get? p).isSome
  unique : ∀ k k' row row' p, s.repo.get? k = some row → s.repo.get? k' = some row' →
    row.mpPreapprovalId = some p → row'.mpPreapprovalId = some p → k = k'
  calls : ∀ i c, s.calls.get? i = some c → CallInv s c
  apart : ∀ i j c c', i ≠ j → s.calls.get? i = some c → s.calls.get? j = some c' → Apart c c'

theorem Inv.init : Inv System.init where
  rowId k row h := by cases h
  known k row p h := by cases h
  unique k k' row row' p h := by cases h
  calls i c h := by cases h
  apart i j c c' _ h := by cases h

theorem Apart.symm {c c' : Call} (h : Apart c c') : Apart c' c := by
  cases c <;> cases c' <;> try trivial
  exact ⟨Ne.symm h.1, fun r r' hr hr' => Ne.symm (h.2 r' r hr' hr)⟩

/-- The row of a suspended call is there, of the tenant the call read. -/
theorem CallInv.row {s : System} {c : Call} (h : CallInv s c) :
    ∃ row, s.repo.get? c.held.id = some row ∧ row.tenantId = c.held.tenantId := by
  cases c with
  | subscribe held answer =>
    obtain ⟨⟨row, hrow, ht, -⟩, -⟩ := h
    exact ⟨row, hrow, ht⟩
  | cancel held answer =>
    obtain ⟨p, row, -, -, hrow, ht, -⟩ := h
    exact ⟨row, hrow, ht⟩
  | reconcile held p answer =>
    obtain ⟨-, row, hrow, ht, -⟩ := h
    exact ⟨row, hrow, ht⟩

/-- `s'` knows every row and every preapproval of `s`, with its tenant and its preapproval id, and
no preapproval id that `s` does not have. -/
structure Extends (s s' : System) : Prop where
  forward : ∀ k row, s.repo.get? k = some row → ∃ row', s'.repo.get? k = some row' ∧
    row'.tenantId = row.tenantId ∧ row'.mpPreapprovalId = row.mpPreapprovalId
  back : ∀ k row' p, s'.repo.get? k = some row' → row'.mpPreapprovalId = some p →
    ∃ row, s.repo.get? k = some row ∧ row.mpPreapprovalId = some p
  known : ∀ p, (s.preapprovals.get? p).isSome → (s'.preapprovals.get? p).isSome

theorem Extends.of_repo_eq {s s' : System} (hrepo : s'.repo = s.repo)
    (hknown : ∀ p, (s.preapprovals.get? p).isSome → (s'.preapprovals.get? p).isSome) :
    Extends s s' where
  forward k row h := ⟨row, by rw [hrepo, h], rfl, rfl⟩
  back k row' p h hp := ⟨row', by rw [← hrepo, h], hp⟩
  known := hknown

/-- Rewriting a row with the tenant and preapproval id it had. -/
theorem Extends.rewrite {s : System} {id : String} {row row' : Subscription}
    (hrow : s.repo.get? id = some row) (ht : row'.tenantId = row.tenantId)
    (hp : row'.mpPreapprovalId = row.mpPreapprovalId) :
    Extends s { s with repo := s.repo.set id row' } where
  forward k old h := by
    by_cases hk : id = k
    · subst hk
      rw [hrow] at h
      cases h
      exact ⟨row', Dict.get?_set_self _ _ _, ht, hp⟩
    · exact ⟨old, by rw [Dict.get?_set_ne _ _ hk, h], rfl, rfl⟩
  back k new p h hnew := by
    by_cases hk : id = k
    · subst hk
      rw [Dict.get?_set_self] at h
      cases h
      exact ⟨row, hrow, hp ▸ hnew⟩
    · rw [Dict.get?_set_ne _ _ hk] at h
      exact ⟨new, h, hnew⟩
  known p h := h

/-- Storing a row under a new id, with no preapproval yet. -/
theorem Extends.insert {s : System} {id : String} {row : Subscription}
    (hid : s.repo.get? id = none) (hp : row.mpPreapprovalId = none) :
    Extends s { s with repo := s.repo.set id row } where
  forward k old h := by
    have hk : id ≠ k := by
      rintro rfl
      rw [hid] at h
      cases h
    exact ⟨old, by rw [Dict.get?_set_ne _ _ hk, h], rfl, rfl⟩
  back k new p h hnew := by
    by_cases hk : id = k
    · subst hk
      rw [Dict.get?_set_self] at h
      cases h
      rw [hp] at hnew
      cases hnew
    · rw [Dict.get?_set_ne _ _ hk] at h
      exact ⟨new, h, hnew⟩
  known p h := h

theorem CallInv.extend {s s' : System} (hext : Extends s s') {c : Call} (h : CallInv s c) :
    CallInv s' c := by
  cases c with
  | subscribe held answer =>
    obtain ⟨⟨row, hrow, ht, hp⟩, hst, hheld, hans⟩ := h
    obtain ⟨row', hrow', ht', hp'⟩ := hext.forward _ _ hrow
    refine ⟨⟨row', hrow', ht'.trans ht, hp'.trans hp⟩, hst, hheld, fun r hr => ?_⟩
    obtain ⟨hne, hknown, hfresh⟩ := hans r hr
    refine ⟨hne, hext.known _ hknown, fun k new hnew hpnew => ?_⟩
    obtain ⟨old, hold, hpold⟩ := hext.back k new _ hnew hpnew
    exact hfresh k old hold hpold
  | cancel held answer =>
    obtain ⟨p, row, hne, hheld, hrow, ht, hp⟩ := h
    obtain ⟨row', hrow', ht', hp'⟩ := hext.forward _ _ hrow
    exact ⟨p, row', hne, hheld, hrow', ht'.trans ht, hp'.trans hp⟩
  | reconcile held p answer =>
    obtain ⟨hheld, row, hrow, ht, hp⟩ := h
    obtain ⟨row', hrow', ht', hp'⟩ := hext.forward _ _ hrow
    exact ⟨hheld, row', hrow', ht'.trans ht, hp'.trans hp⟩

/-- A state that extends another, with the same calls, keeps the invariant. -/
theorem Inv.extend {s s' : System} (h : Inv s) (hext : Extends s s')
    (hrow : ∀ k row, s'.repo.get? k = some row → row.id = k) (hcalls : s'.calls = s.calls) :
    Inv s' where
  rowId := hrow
  known k row p hk hp := by
    obtain ⟨old, hold, hpold⟩ := hext.back k row p hk hp
    obtain ⟨hne, hknown⟩ := h.known k old p hold hpold
    exact ⟨hne, hext.known p hknown⟩
  unique k k' row row' p hk hk' hp hp' := by
    obtain ⟨old, hold, hpold⟩ := hext.back k row p hk hp
    obtain ⟨old', hold', hpold'⟩ := hext.back k' row' p hk' hp'
    exact h.unique k k' old old' p hold hold' hpold hpold'
  calls i c hc := (h.calls i c (hcalls ▸ hc)).extend hext
  apart i j c c' hij hc hc' := h.apart i j c c' hij (hcalls ▸ hc) (hcalls ▸ hc')

/-- A call is suspended, or gets its answer, on what it may rely on. -/
theorem Inv.suspend {s : System} (h : Inv s) {i : Nat} {c : Call} (hc : CallInv s c)
    (hapart : ∀ j c', i ≠ j → s.calls.get? j = some c' → Apart c c') : Inv (s.suspend i c) where
  rowId := h.rowId
  known := h.known
  unique := h.unique
  calls := Dict.Forall.set h.calls hc
  apart := Dict.Pairwise.set Apart.symm h.apart hapart

/-- A call that returns leaves the invariant to the others. -/
theorem Inv.done {s : System} (h : Inv s) (i : Nat) : Inv (s.done i) where
  rowId := h.rowId
  known := h.known
  unique := h.unique
  calls := Dict.Forall.erase h.calls i
  apart := Dict.Pairwise.erase h.apart i

/-- A row is rewritten with the tenant and preapproval id it had. -/
theorem Inv.rewrite {s : System} (h : Inv s) {id : String} {row row' : Subscription}
    (hrow : s.repo.get? id = some row) (hid : row'.id = id) (ht : row'.tenantId = row.tenantId)
    (hp : row'.mpPreapprovalId = row.mpPreapprovalId) :
    Inv { s with repo := s.repo.set id row' } := by
  exact h.extend (Extends.rewrite hrow ht hp) (Dict.Forall.set h.rowId hid) rfl

/-- The row of a `subscribe` call gets the preapproval Mercado Pago created for it, and the call
returns. -/
theorem Inv.subscribed {s : System} (h : Inv s) {i : Nat} {held row' : Subscription}
    {r : PreapprovalResult} (hcall : s.calls.get? i = some (.subscribe held (.ok r)))
    (hid : row'.id = held.id) (hp : row'.mpPreapprovalId = some r.preapprovalId) :
    Inv ({ s with repo := s.repo.set held.id row' }.done i) := by
  obtain ⟨⟨row, hrow, _, hpnone⟩, _, _, hans⟩ := h.calls i _ hcall
  obtain ⟨hne, hknown, hfresh⟩ := hans r rfl
  -- a row that a cancel or a reconcile read had a preapproval id, which this one did not
  have hother : ∀ {k p old}, s.repo.get? k = some old → old.mpPreapprovalId = some p →
      (s.repo.set held.id row').get? k = some old := by
    intro k p old hold hpold
    have hk : held.id ≠ k := by
      rintro rfl
      rw [hrow] at hold
      cases hold
      rw [hpnone] at hpold
      cases hpold
    rw [Dict.get?_set_ne _ _ hk, hold]
  constructor
  · exact Dict.Forall.set h.rowId hid
  · intro k new p hk hpnew
    rcases Dict.get?_set_eq_some hk with ⟨-, rfl⟩ | ⟨-, hold⟩
    · rw [hp] at hpnew
      cases hpnew
      exact ⟨hne, hknown⟩
    · exact h.known k new p hold hpnew
  · refine Dict.Unique.set h.unique fun k old p hold hpold hpnew => ?_
    -- every other row with the id would have had it before
    rw [hp] at hpnew
    cases hpnew
    exact absurd hpold (hfresh k old hold)
  · intro j c hj
    obtain ⟨hij, hj⟩ := Dict.get?_erase_eq_some hj
    have hc := h.calls j c hj
    cases c with
    | subscribe held' answer =>
      obtain ⟨⟨old, hold, ht, hpold⟩, hst, hheld, hans'⟩ := hc
      have hap := h.apart i j _ _ hij hcall hj
      refine ⟨⟨old, ?_, ht, hpold⟩, hst, hheld, fun r' hr' => ?_⟩
      · rw [System.done_repo, Dict.get?_set_ne _ _ hap.1, hold]
      · obtain ⟨hne', hknown', hfresh'⟩ := hans' r' hr'
        refine ⟨hne', hknown', fun k new hk => ?_⟩
        rcases Dict.get?_set_eq_some hk with ⟨-, rfl⟩ | ⟨-, hold'⟩
        · rw [hp]
          exact fun e => hap.2 r r' rfl hr' (Option.some.inj e)
        · exact hfresh' k new hold'
    | cancel held' answer =>
      obtain ⟨p, old, hnep, hheld, hold, ht, hpold⟩ := hc
      exact ⟨p, old, hnep, hheld, hother hold hpold, ht, hpold⟩
    | reconcile held' p answer =>
      obtain ⟨hheld, old, hold, ht, hpold⟩ := hc
      exact ⟨hheld, old, hother hold hpold, ht, hpold⟩
  · exact Dict.Pairwise.erase h.apart i

/-- What the stretch after the await leaves in the repository. -/
inductive Resumed (E : Setting) (s : System) : Call → Repository → Prop
  | subscribeFailed {held : Subscription} : Resumed E s (.subscribe held .failed) s.repo
  | reconcileFailed {held : Subscription} {p : String} :
      Resumed E s (.reconcile held p .failed) s.repo
  | unknownStatus {held : Subscription} {p : String} {data : PreapprovalData}
      (hstatus : data.mpStatus E.U = none) : Resumed E s (.reconcile held p (.ok data)) s.repo
  | subscribed {held row row' : Subscription} {r : PreapprovalResult}
      (hrow : s.repo.get? held.id = some row) (hid : row'.id = held.id)
      (htenant : row'.tenantId = row.tenantId)
      (hpre : row'.mpPreapprovalId = some r.preapprovalId)
      (hstatus : row'.status = row.status ∨ row'.status = .pending) :
      Resumed E s (.subscribe held (.ok r)) (s.repo.set held.id row')
  | cancelled {held row row' : Subscription} {answer : Answer Unit}
      (hrow : s.repo.get? held.id = some row) (hid : row'.id = held.id)
      (htenant : row'.tenantId = row.tenantId) (hpre : row'.mpPreapprovalId = row.mpPreapprovalId)
      (hstatus : row'.status = .cancelled) :
      Resumed E s (.cancel held answer) (s.repo.set held.id row')
  | reconciled {held row row' : Subscription} {p : String} {data : PreapprovalData}
      (hrow : s.repo.get? held.id = some row) (hid : row'.id = held.id)
      (htenant : row'.tenantId = row.tenantId) (hpre : row'.mpPreapprovalId = row.mpPreapprovalId)
      (hstatus : data.mpStatus E.U = some row'.status) :
      Resumed E s (.reconcile held p (.ok data)) (s.repo.set held.id row')

/-- The object a call holds when it resumes: the row's id, tenant and preapproval id, and the
status of the row or of the object it read. -/
theorem current_spec (storage : Storage) {s : System} (h : Inv s) {held row : Subscription}
    (hrow : s.repo.get? held.id = some row) (ht : row.tenantId = held.tenantId)
    (hp : held.mpPreapprovalId = row.mpPreapprovalId) :
    (storage.current s.repo held).id = held.id ∧
      (storage.current s.repo held).tenantId = row.tenantId ∧
      (storage.current s.repo held).mpPreapprovalId = row.mpPreapprovalId ∧
      ((storage.current s.repo held).status = row.status ∨
        (storage.current s.repo held).status = held.status) := by
  refine ⟨storage.current_id hrow (h.rowId _ _ hrow), ?_, ?_, ?_⟩
  · exact storage.current_of_both (P := fun sub => sub.tenantId = row.tenantId) hrow rfl ht.symm
  · exact storage.current_of_both (P := fun sub => sub.mpPreapprovalId = row.mpPreapprovalId) hrow
      rfl hp
  · exact storage.current_of_both
      (P := fun sub => sub.status = row.status ∨ sub.status = held.status) hrow (.inl rfl)
      (.inr rfl)

/-- The write of `cancel` marks the row it read. -/
theorem cancelFinish_spec (storage : Storage) {s : System} (h : Inv s) {held row : Subscription}
    (hrow : s.repo.get? held.id = some row) (ht : row.tenantId = held.tenantId)
    (hp : held.mpPreapprovalId = row.mpPreapprovalId) (now : Datetime) :
    ∃ row', cancelFinish storage s.repo held now = .ok (s.repo.set held.id row') ∧
      row'.id = held.id ∧ row'.tenantId = row.tenantId ∧
      row'.mpPreapprovalId = row.mpPreapprovalId ∧ row'.status = .cancelled := by
  obtain ⟨hid, htn, hpa, -⟩ := current_spec storage h hrow ht hp
  exact ⟨_, Repository.update_of_get hid hrow, hid, htn, hpa, rfl⟩

/-- A resumed call always finds its row, so its write succeeds. -/
theorem finish_cases {E : Setting} {s : System} (h : Inv s) {i : Nat} {c : Call}
    (hcall : s.calls.get? i = some c) {now : Datetime} {outcome : Except BillingError Repository}
    (hfinish : c.finish E s.repo now = some outcome) :
    ∃ repo, outcome = .ok repo ∧ Resumed E s c repo := by
  have hc := h.calls i c hcall
  cases c with
  | subscribe held answer =>
    cases answer with
    | waiting => cases hfinish
    | failed =>
      cases hfinish
      exact ⟨s.repo, rfl, .subscribeFailed⟩
    | ok r =>
      obtain ⟨⟨row, hrow, ht, hp⟩, hst, hheld, -⟩ := hc
      obtain ⟨hid, htn, -, hstat⟩ := current_spec E.storage h hrow ht (hheld.trans hp.symm)
      cases hfinish
      exact ⟨_, Repository.update_of_get hid hrow,
        .subscribed hrow hid htn rfl (hstat.imp_right (·.trans hst))⟩
  | cancel held answer =>
    obtain ⟨p, row, -, hheld, hrow, ht, hp⟩ := hc
    obtain ⟨row', hwrite, hid, htn, hpa, hst⟩ :=
      cancelFinish_spec E.storage h hrow ht (hheld.trans hp.symm) now
    cases answer with
    | waiting => cases hfinish
    | failed =>
      cases hfinish
      exact ⟨_, hwrite, .cancelled hrow hid htn hpa hst⟩
    | ok u =>
      cases hfinish
      exact ⟨_, hwrite, .cancelled hrow hid htn hpa hst⟩
  | reconcile held p answer =>
    obtain ⟨hheld, row, hrow, ht, hp⟩ := hc
    cases answer with
    | waiting => cases hfinish
    | failed =>
      cases hfinish
      exact ⟨s.repo, rfl, .reconcileFailed⟩
    | ok data =>
      cases hfinish
      unfold reconcileFinish
      cases hstatus : data.mpStatus E.U with
      | none => exact ⟨s.repo, rfl, .unknownStatus hstatus⟩
      | some status =>
        obtain ⟨hid, htn, hpa, -⟩ := current_spec E.storage h hrow ht (hheld.trans hp.symm)
        exact ⟨_, Repository.update_of_get hid hrow, .reconciled hrow hid htn hpa hstatus⟩

/-- The invariant survives every resumption. -/
theorem Inv.resumed {E : Setting} {s : System} (h : Inv s) {i : Nat} {c : Call}
    (hcall : s.calls.get? i = some c) {repo : Repository} (hres : Resumed E s c repo) :
    Inv ({ s with repo }.done i) := by
  cases hres with
  | subscribeFailed => exact h.done i
  | reconcileFailed => exact h.done i
  | unknownStatus _ => exact h.done i
  | subscribed hrow hid ht hp _ => exact h.subscribed hcall hid hp
  | cancelled hrow hid ht hp _ => exact (h.rewrite hrow hid ht hp).done i
  | reconciled hrow hid ht hp _ => exact (h.rewrite hrow hid ht hp).done i

/-- A call read its row when it began. -/
theorem cancelBegin_row {s : System} (h : Inv s) {tenantId subscriptionId : String}
    {sub : Subscription} (hbegin : cancelBegin s.repo tenantId subscriptionId = .ok sub) :
    s.repo.get? sub.id = some sub ∧ sub.id = subscriptionId ∧ sub.tenantId = tenantId := by
  obtain ⟨hget, ht⟩ := cancelBegin_eq_ok hbegin
  have hid := h.rowId _ _ hget
  exact ⟨hid ▸ hget, hid, ht⟩

theorem reconcileBegin_row {s : System} (h : Inv s) {p : String} {sub : Subscription}
    (hbegin : s.repo.getByPreapprovalId p = some sub) :
    s.repo.get? sub.id = some sub ∧ sub.mpPreapprovalId = some p := by
  obtain ⟨hp, k, hk⟩ := Repository.getByPreapprovalId_eq_some hbegin
  have hid := h.rowId _ _ hk
  exact ⟨hid ▸ hk, hp⟩

theorem exists_of_truthy {o : Option String} (h : truthy o = true) : ∃ p, p ≠ "" ∧ o = some p := by
  cases o with
  | none => cases h
  | some p => exact ⟨p, by simpa only [truthy, decide_eq_true_eq] using h, rfl⟩

/-- The answer of a call comes in: the call relies on what it relied on, and on what the answer
says. -/
theorem Inv.answer {s : System} (h : Inv s) {i : Nat} {c c' : Call}
    (hcall : s.calls.get? i = some c) (hc : CallInv s c')
    (hapart : ∀ d, Apart c d → Apart c' d) : Inv (s.suspend i c') :=
  h.suspend hc fun _ _ hij hj => hapart _ (h.apart _ _ _ _ hij hcall hj)

/-- Mercado Pago's side changes and forgets no preapproval. -/
theorem Inv.setPreapproval {s : System} (h : Inv s) (p : String) (data : PreapprovalData) :
    Inv (s.setPreapproval p data) :=
  h.extend (Extends.of_repo_eq rfl fun _ hq => Dict.get?_set_isSome p data hq) h.rowId rfl

/-- **The step lemma.** Most labels extend the state or rewrite one row in place; a `subscribe` that
resumes gives its row the id that `CallInv` says no other row has. -/
theorem step_inv {E : Setting} {s s' : System} {l : Label} (h : Inv s)
    (hstep : step E s l = some s') : Inv s' := by
  cases step_cases hstep with
  | returned => exact h
  | @subscribe call tenantId planCode payerEmail id now sub hcall hid hsub ht hst hp hactive =>
    have hstored : Inv { s with repo := s.repo.set id sub } :=
      h.extend (Extends.insert hid hp) (Dict.Forall.set h.rowId hsub) rfl
    refine hstored.suspend ⟨⟨sub, ?_, rfl, hp⟩, hst, hp, fun r hr => by cases hr⟩ ?_
    · rw [hsub, Dict.get?_set_self]
    · intro j c _ hj
      cases c with
      | cancel held answer => trivial
      | reconcile held p answer => trivial
      | subscribe held answer =>
        refine ⟨fun e => ?_, fun r _ hr => by cases hr⟩
        obtain ⟨row, hrow, -⟩ := (h.calls j _ hj).row
        rw [show (Call.subscribe held answer).held.id = id from e.symm.trans hsub, hid] at hrow
        cases hrow
  | @cancelNow call tenantId subscriptionId now sub hbegin hpre =>
    obtain ⟨hrow, -, -⟩ := cancelBegin_row h hbegin
    obtain ⟨row', hwrite, hid, ht, hp, -⟩ := cancelFinish_spec E.storage h hrow rfl rfl now
    rw [hwrite]
    exact h.rewrite hrow hid ht hp
  | @cancel call tenantId subscriptionId now sub hcall hbegin hpre =>
    obtain ⟨hrow, -, -⟩ := cancelBegin_row h hbegin
    obtain ⟨p, hne, hp⟩ := exists_of_truthy hpre
    refine h.suspend ⟨p, sub, hne, hp, hrow, rfl, hp⟩ fun j c _ _ => ?_
    cases c <;> trivial
  | @reconcile call p sub hcall hbegin =>
    obtain ⟨hrow, hp⟩ := reconcileBegin_row h hbegin
    refine h.suspend ⟨hp, sub, hrow, rfl, hp⟩ fun j c _ _ => ?_
    cases c <;> trivial
  | @created call p initPoint held hcall hne hfresh =>
    have hset := h.setPreapproval p { status := "pending" }
    have hnew : ((s.setPreapproval p { status := "pending" }).preapprovals.get? p).isSome := by
      rw [System.setPreapproval_preapprovals, Dict.get?_set_self]
      rfl
    obtain ⟨hrow, hst, hheld, -⟩ := hset.calls call _ hcall
    refine hset.suspend ⟨hrow, hst, hheld, fun r hr => ?_⟩ fun j c hij hj => ?_
    · cases hr
      refine ⟨hne, hnew, fun k row hk hp => ?_⟩
      have := (h.known k row p hk hp).2
      rw [hfresh] at this
      cases this
    · cases c with
      | cancel held' answer => trivial
      | reconcile held' q answer => trivial
      | subscribe held' answer =>
        refine ⟨(h.apart _ _ _ _ hij hcall hj).1, fun r r' hr hr' e => ?_⟩
        cases hr
        obtain ⟨-, -, -, hans⟩ := h.calls j _ hj
        obtain ⟨-, hknown, -⟩ := hans r' hr'
        rw [← e, hfresh] at hknown
        cases hknown
  | @servedCancel call p held data hcall hpre hdata =>
    have hset := h.setPreapproval p { data with status := "cancelled" }
    have hc := hset.calls call _ hcall
    exact hset.answer hcall hc fun d _ => by cases d <;> trivial
  | @servedReconcile call p held data hcall hdata =>
    have hc := h.calls call _ hcall
    exact h.answer hcall hc fun d _ => by cases d <;> trivial
  | @fail call c c' hcall hfailed =>
    have hc := h.calls call c hcall
    cases c with
    | subscribe held answer =>
      cases answer <;> cases hfailed
      obtain ⟨hrow, hst, hheld, -⟩ := hc
      refine h.answer hcall ⟨hrow, hst, hheld, fun r hr => by cases hr⟩ fun d hd => ?_
      cases d <;> try trivial
      exact ⟨hd.1, fun r _ hr => by cases hr⟩
    | cancel held answer =>
      cases answer <;> cases hfailed
      exact h.answer hcall hc fun d _ => by cases d <;> trivial
    | reconcile held p answer =>
      cases answer <;> cases hfailed
      exact h.answer hcall hc fun d _ => by cases d <;> trivial
  | @resume call now c outcome hcall hfinish =>
    obtain ⟨repo, rfl, hres⟩ := finish_cases h hcall hfinish
    exact h.resumed hcall hres
  | @move p old data hold hmay => exact h.setPreapproval p data

/-- Every reachable state has the invariant. -/
theorem Inv.of_reachable {E : Setting} {s : System} (h : Leads (step E) System.init s) : Inv s :=
  h.invariant (P := Inv) (fun _ _ _ hs hstep => step_inv hs hstep) Inv.init

end Wapsell.Billing
