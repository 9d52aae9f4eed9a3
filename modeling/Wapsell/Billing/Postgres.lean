import Wapsell.Billing.Codec
import Wapsell.Billing.Invariant
import Wapsell.Lib.Simulation
import Wapsell.Lib.Table
import Mathlib.Data.List.Sort

/-!
# Billing over Postgres

The calls of the billing service interleaved over the table of
`infra/postgres/migrations/011_subscriptions.sql`, statement by statement:
`PostgresSubscriptionRepository` of `sdk/wapsell/billing/repository.py`
under the stretches of `sdk/wapsell/billing/service.py`. A query may answer
rows that its `ORDER BY` leaves equal in any order, an UPDATE writes the
columns of its SET clause and no others, and a preapproval id may stand in
one row only.

It mirrors the interleaving over a dictionary that gives its calls the row
they have read. So the UNIQUE column never refuses a statement, and what
holds of every run of the one holds of every run of the other.

A statement is one step and a method of the service several, with the
await of the request to Mercado Pago between them; the connection
commits by itself, so no two statements of a method are one. What the
model of the interleaving leaves to `Storage.postgres`, that a call
writes back the row it has read, is here the consequence of decoding a
row on each read.

What this does not establish: anything about two processes on one table.
The calls interleave at their awaits, as they do on one event loop.
-/

namespace Wapsell.Billing

open Lib Py Postgres

/-- `subscriptions`, its rows as the parameters of `_SUB_INSERT_SQL` say them. -/
abbrev SubTable := Table Subscription.id

/-- A row fetched and decoded. -/
def readSub (driver : Driver) (row : Subscription) : Except Exc Subscription :=
  rowToSub (driver.fetch (subscriptionAdapter.row row))

/-- What `_SUB_UPDATE_SQL` makes of a row: `tenant_id` and `created_at` stay. -/
def writeOver (new row : Subscription) : Subscription :=
  { new with id := row.id, tenantId := row.tenantId, createdAt := row.createdAt }

theorem writeOver_id (new row : Subscription) : (writeOver new row).id = row.id := rfl

namespace SubTable

/-- Another row has the preapproval id of this one, which the UNIQUE column refuses. -/
def taken (table : SubTable) (row : Subscription) : Bool :=
  table.rows.any fun r => r.id ≠ row.id ∧ r.mpPreapprovalId = row.mpPreapprovalId ∧
    row.mpPreapprovalId ≠ none

/-- `add`, `none` where the statement is refused. -/
def add (table : SubTable) (row : Subscription) : Option SubTable :=
  if table.taken row then none else table.insert row

/-- `update`, `none` where the statement is refused. -/
def write (table : SubTable) (row : Subscription) : Option SubTable :=
  if (table.get? row.id).isSome ∧ table.taken row then none
  else some (table.update row.id (writeOver row) (writeOver_id row))

variable (driver : Driver) (table : SubTable)

/-- What `get` may answer. -/
def Got (subscriptionId : String) (answer : Option Subscription) : Prop :=
  firstRow (readSub driver) (table.get? subscriptionId).toList = .ok answer

/-- What `get_by_preapproval_id` may answer. -/
def GotByPreapprovalId (preapprovalId : String) (answer : Option Subscription) : Prop :=
  ∃ rows, table.Selects (fun r => r.mpPreapprovalId = some preapprovalId) (fun _ _ => True) rows ∧
    firstRow (readSub driver) rows = .ok answer

/-- What `active_for_tenant` may answer. -/
def Active (tenantId : String) (answer : Option Subscription) : Prop :=
  ∃ rows, table.Selects (fun r => r.tenantId = tenantId ∧ r.status.value = "authorized")
      (fun a b => b.createdAt ≤ a.createdAt) rows ∧
    firstRow (readSub driver) rows = .ok answer

end SubTable

/-! ## The interleaving -/

/-- The table, Mercado Pago's preapprovals, and the suspended calls. -/
structure Stored where
  table : SubTable := Table.empty
  preapprovals : Dict String PreapprovalData := Dict.empty
  calls : Dict Nat Call := Dict.empty

namespace Stored

def suspend (t : Stored) (call : Nat) (c : Call) : Stored := { t with calls := t.calls.set call c }

def done (t : Stored) (call : Nat) : Stored := { t with calls := t.calls.erase call }

/-- Mercado Pago and the calls that wait for it; the table is not theirs. -/
def outside (t : Stored) : System := { preapprovals := t.preapprovals, calls := t.calls }

end Stored

/-- The row `subscribe` stores. -/
def pendingRow (plan : Plan) (tenantId payerEmail id : String) (now : Datetime) : Subscription :=
  { id, tenantId, planCode := plan.code, payerEmail := some payerEmail, status := .pending,
    createdAt := now, updatedAt := now }

/-- The row a call writes when it resumes, if it writes one; `none` while it waits. -/
def Call.written (E : Setting) (now : Datetime) : Call → Option (Option Subscription)
  | .subscribe held (.ok result) => some (some { held with
      mpPreapprovalId := some result.preapprovalId
      mpInitPoint := some result.initPoint
      updatedAt := now })
  | .cancel held (.ok _) | .cancel held .failed =>
    some (some { held with status := .cancelled, updatedAt := now })
  | .reconcile held _ (.ok data) => some ((data.mpStatus E.U).map fun status =>
      reconciled E.fromisoformat held data status now)
  | .subscribe _ .failed | .reconcile _ _ .failed => some none
  | .subscribe _ .waiting | .cancel _ .waiting | .reconcile _ _ .waiting => none

/-- What can happen next, over the table. A statement that is refused leads nowhere: `mirrors` shows
that a reachable table refuses none, so the definition hides no failure. -/
def storedStep (E : Setting) (driver : Driver) (t : Stored) : Label → Stored → Prop
  | .subscribe call tenantId planCode payerEmail id now, t' =>
    t.calls.get? call = none ∧ t.table.get? id = none ∧ match getPlan E.U planCode with
      | .error _ => t' = t
      | .ok plan => ∃ existing, t.table.Active driver tenantId existing ∧ match existing with
        | some _ => t' = t
        | none => ∃ table, t.table.add (pendingRow plan tenantId payerEmail id now) = some table ∧
          t' = { t with table }.suspend call
            (.subscribe (pendingRow plan tenantId payerEmail id now) .waiting)
  | .cancel call tenantId subscriptionId now, t' =>
    t.calls.get? call = none ∧ ∃ found, t.table.Got driver subscriptionId found ∧ match found with
      | none => t' = t
      | some subscription =>
        if subscription.tenantId ≠ tenantId then t' = t
        else if truthy subscription.mpPreapprovalId then
          t' = t.suspend call (.cancel subscription .waiting)
        else ∃ table,
          t.table.write { subscription with status := .cancelled, updatedAt := now } = some table ∧
            t' = { t with table }
  | .reconcile call preapprovalId, t' =>
    t.calls.get? call = none ∧ ∃ found, t.table.GotByPreapprovalId driver preapprovalId found ∧
      match found with
      | none => t' = t
      | some subscription => t' = t.suspend call (.reconcile subscription preapprovalId .waiting)
  | .resume call now, t' =>
    ∃ c written, t.calls.get? call = some c ∧ c.written E now = some written ∧ match written with
      | none => t' = t.done call
      | some row => ∃ table, t.table.write row = some table ∧ t' = { t with table }.done call
  | label, t' => ∃ s, step E t.outside label = some s ∧
      t' = { t with preapprovals := s.preapprovals, calls := s.calls }

/-! ## The table holds the rows -/

theorem readSub_eq (driver : Driver) (row : Subscription) : readSub driver row = .ok row :=
  rowToSub_of_answers (driver.answers _)

theorem firstRow_readSub (driver : Driver) (rows : List Subscription) :
    firstRow (readSub driver) rows = .ok rows.head? := by
  cases rows with
  | nil => rfl
  | cons row rows =>
    rw [firstRow, readSub_eq]
    rfl

/-- The same rows under the same keys, and the same world around them. In which order the rows lie
in the table is not compared. -/
structure Stored.Backs (t : Stored) (s : System) : Prop where
  rows : ∀ id, t.table.get? id = s.repo.get? id
  preapprovals : t.preapprovals = s.preapprovals
  calls : t.calls = s.calls

/-- The row of a suspended call was created when the row it has read was. -/
def Kept (s : System) : Prop :=
  ∀ i c row, s.calls.get? i = some c → s.repo.get? c.held.id = some row →
    row.createdAt = c.held.createdAt

namespace Stored.Backs

variable {t : Stored} {s : System} {driver : Driver}

theorem suspend (h : t.Backs s) (call : Nat) (c : Call) : (t.suspend call c).Backs (s.suspend call c) :=
  ⟨h.rows, h.preapprovals, congrArg (·.set call c) h.calls⟩

theorem done (h : t.Backs s) (call : Nat) : (t.done call).Backs (s.done call) :=
  ⟨h.rows, h.preapprovals, congrArg (·.erase call) h.calls⟩

theorem withRows (h : t.Backs s) {table : SubTable} {repo : Repository}
    (hrows : ∀ id, table.get? id = repo.get? id) :
    Stored.Backs { t with table } { s with repo } :=
  ⟨hrows, h.preapprovals, h.calls⟩

theorem mem_rows (h : t.Backs s) {row : Subscription} :
    row ∈ t.table.rows ↔ s.repo.get? row.id = some row := by
  rw [← h.rows, Table.get?_eq_some_iff, and_iff_left rfl]

theorem got (h : t.Backs s) {subscriptionId : String} {answer : Option Subscription} :
    t.table.Got driver subscriptionId answer ↔ answer = s.repo.get? subscriptionId := by
  rw [SubTable.Got, firstRow_readSub, h.rows, Except.ok.injEq, Option.head?_toList, eq_comm]

/-- The rows of the table are the values of the repository. -/
theorem mem_values (h : t.Backs s) (hs : Inv s) {row : Subscription} :
    row ∈ t.table.rows ↔ row ∈ s.repo.values := by
  rw [h.mem_rows, Dict.mem_values_iff]
  constructor
  · intro hrow
    exact ⟨row.id, hrow⟩
  · rintro ⟨k, hk⟩
    rw [hs.rowId k row hk]
    exact hk

/-- A subscription of the tenant is active for the table when one is for the repository. -/
theorem active_eq_none_iff (h : t.Backs s) (hs : Inv s) {tenantId : String}
    {answer : Option Subscription} (hactive : t.table.Active driver tenantId answer) :
    answer = none ↔ s.repo.activeForTenant tenantId = none := by
  obtain ⟨rows, hrows, hfirst⟩ := hactive
  rw [firstRow_readSub, Except.ok.injEq] at hfirst
  have hmem : ∀ row, row ∈ rows ↔ row ∈ s.repo.values ∧ row.tenantId = tenantId ∧
      row.status = .authorized := by
    intro row
    rw [hrows.1.mem_iff, List.mem_filter, h.mem_values hs, decide_eq_true_eq]
    cases row.status <;> simp [SubscriptionStatus.value]
  rw [← hfirst, List.head?_eq_none_iff, Repository.activeForTenant, List.find?_eq_none,
    List.eq_nil_iff_forall_not_mem]
  refine forall_congr' fun row => ?_
  rw [hmem, Repository.listFor, List.mem_insertionSort, List.mem_filter, decide_eq_true_eq,
    decide_eq_true_eq]
  tauto

/-- Whatever it answers, `subscribe` goes on as it does with the repository. -/
theorem active_iff (h : t.Backs s) (hs : Inv s) (tenantId : String) {P Q : Prop} :
    (∃ answer, t.table.Active driver tenantId answer ∧ match answer with
      | some _ => P
      | none => Q) ↔ match s.repo.activeForTenant tenantId with
        | some _ => P
        | none => Q := by
  have htotal : Std.Total fun a b : Subscription => b.createdAt ≤ a.createdAt :=
    ⟨fun a b => le_total b.createdAt a.createdAt⟩
  have htrans : IsTrans Subscription fun a b => b.createdAt ≤ a.createdAt :=
    ⟨fun _ _ _ hab hbc => hbc.trans hab⟩
  have hexists : ∃ answer, t.table.Active driver tenantId answer :=
    ⟨_, _, ⟨List.perm_insertionSort (fun a b => b.createdAt ≤ a.createdAt) _,
      List.pairwise_insertionSort _ _⟩, firstRow_readSub driver _⟩
  have hmatch : ∀ answer, t.table.Active driver tenantId answer → ((match answer with
      | some _ => P
      | none => Q) ↔ match s.repo.activeForTenant tenantId with
        | some _ => P
        | none => Q) := by
    intro answer hanswer
    have hnone := h.active_eq_none_iff hs hanswer
    cases hactive : s.repo.activeForTenant tenantId with
    | none => rw [hnone.mpr hactive]
    | some row =>
      cases answer with
      | none =>
        rw [hnone.mp rfl] at hactive
        cases hactive
      | some _ => exact Iff.rfl
  constructor
  · rintro ⟨answer, hanswer, hthen⟩
    exact (hmatch answer hanswer).mp hthen
  · intro hthen
    obtain ⟨answer, hanswer⟩ := hexists
    exact ⟨answer, hanswer, (hmatch answer hanswer).mpr hthen⟩

/-- The one row with a preapproval id is found in both. -/
theorem gotByPreapprovalId (h : t.Backs s) (hs : Inv s) {preapprovalId : String}
    {answer : Option Subscription} (hgot : t.table.GotByPreapprovalId driver preapprovalId answer) :
    answer = s.repo.getByPreapprovalId preapprovalId := by
  obtain ⟨rows, hrows, hfirst⟩ := hgot
  rw [firstRow_readSub, Except.ok.injEq] at hfirst
  have hmem : ∀ row, row ∈ rows ↔ s.repo.get? row.id = some row ∧
      row.mpPreapprovalId = some preapprovalId := by
    intro row
    rw [hrows.1.mem_iff, List.mem_filter, h.mem_rows, decide_eq_true_eq]
  cases hfound : s.repo.getByPreapprovalId preapprovalId with
  | none =>
    rw [← hfirst, List.head?_eq_none_iff, List.eq_nil_iff_forall_not_mem]
    intro row hrow
    obtain ⟨hget, hpre⟩ := (hmem row).mp hrow
    obtain ⟨found, hsome⟩ := Repository.getByPreapprovalId_isSome hget hpre
    rw [hfound] at hsome
    cases hsome
  | some found =>
    obtain ⟨hpre, k, hk⟩ := Repository.getByPreapprovalId_eq_some hfound
    have hkey : found.id = k := hs.rowId k found hk
    have hin : found ∈ rows := (hmem found).mpr ⟨by rw [hkey]; exact hk, hpre⟩
    cases hrows' : rows with
    | nil =>
      rw [hrows'] at hin
      exact absurd hin List.not_mem_nil
    | cons row rest =>
      obtain ⟨hget, hpre'⟩ := (hmem row).mp (by rw [hrows']; exact List.mem_cons_self)
      have hsame : row.id = k := hs.unique _ _ _ _ preapprovalId hget hk hpre' hpre
      rw [hsame, hk] at hget
      cases hget
      rw [← hfirst, hrows']
      rfl

theorem gotByPreapprovalId_iff (h : t.Backs s) (hs : Inv s) {preapprovalId : String}
    {answer : Option Subscription} : t.table.GotByPreapprovalId driver preapprovalId answer ↔
      answer = s.repo.getByPreapprovalId preapprovalId := by
  refine ⟨h.gotByPreapprovalId hs, ?_⟩
  rintro rfl
  obtain ⟨answer, hanswer⟩ : ∃ answer, t.table.GotByPreapprovalId driver preapprovalId answer :=
    ⟨_, _, ⟨List.Perm.refl _, List.pairwise_of_forall fun _ _ => trivial⟩,
      firstRow_readSub driver _⟩
  rw [← h.gotByPreapprovalId hs hanswer]
  exact hanswer

/-- No statement is refused for a preapproval id when the rows it leaves are distinct in it. -/
theorem not_taken (h : t.Backs s) {row : Subscription} {s' : System} (hs' : Inv s')
    (hrepo : s'.repo = s.repo.set row.id row) : t.table.taken row = false := by
  rw [SubTable.taken, List.any_eq_false]
  intro r hr hsame
  obtain ⟨hne, hpre, hsome⟩ := of_decide_eq_true hsame
  obtain ⟨p, hp⟩ := Option.ne_none_iff_exists'.mp hsome
  have hget := h.mem_rows.mp hr
  have hother : s'.repo.get? r.id = some r := by
    rw [hrepo, Dict.get?_set_ne _ _ (Ne.symm hne)]
    exact hget
  have hthis : s'.repo.get? row.id = some row := by rw [hrepo, Dict.get?_set_self]
  exact hne (hs'.unique _ _ _ _ p hother hthis (hpre.trans hp) hp)

/-- `add` stores a row under a new id. -/
theorem add (h : t.Backs s) {row : Subscription} (hid : s.repo.get? row.id = none)
    (htaken : t.table.taken row = false) : ∃ table, t.table.add row = some table ∧
      ∀ id, table.get? id = (s.repo.set row.id row).get? id := by
  cases hinsert : t.table.insert row with
  | none =>
    obtain ⟨r, hr⟩ := Table.insert_eq_none_iff.mp hinsert
    rw [h.rows, hid] at hr
    cases hr
  | some table =>
    refine ⟨table, by rw [SubTable.add, htaken, hinsert]; rfl, fun id => ?_⟩
    rw [Table.get?_insert rfl hinsert, Dict.get?_set, h.rows]
    by_cases heq : id = row.id
    · rw [if_pos heq, if_pos heq.symm]
    · rw [if_neg heq, if_neg (Ne.symm heq)]

/-- `update` rewrites a row with the tenant and the creation time it had. -/
theorem write (h : t.Backs s) (hs : Inv s) {row old : Subscription}
    (hold : s.repo.get? row.id = some old) (htenant : old.tenantId = row.tenantId)
    (hcreated : old.createdAt = row.createdAt) (htaken : t.table.taken row = false) :
    ∃ table, t.table.write row = some table ∧
      ∀ id, table.get? id = (s.repo.set row.id row).get? id := by
  refine ⟨_, by rw [SubTable.write, if_neg fun hc => Bool.false_ne_true (htaken.symm.trans hc.2)],
    fun id => ?_⟩
  rw [Table.get?_update, Dict.get?_set, h.rows, h.rows]
  by_cases heq : id = row.id
  · have hwritten : writeOver row old = row := by
      rw [writeOver, hs.rowId _ _ hold, htenant, hcreated]
    rw [if_pos heq, if_pos heq.symm, hold, Option.map_some, hwritten]
  · rw [if_neg heq, if_neg (Ne.symm heq)]

end Stored.Backs

/-! ## What the steps of the model are -/

/-- The setting in which a call writes back the row it has read. -/
def Setting.onPostgres (E : Setting) : Setting := { E with storage := .postgres }

variable {E : Setting} {s : System}

theorem step_subscribe {call : Nat} {tenantId planCode payerEmail id : String} {now : Datetime}
    (hcall : s.calls.get? call = none) (hid : s.repo.get? id = none) :
    step E s (.subscribe call tenantId planCode payerEmail id now) = match getPlan E.U planCode with
      | .error _ => some s
      | .ok plan => match s.repo.activeForTenant tenantId with
        | some _ => some s
        | none => some (({ s with
            repo := s.repo.set id (pendingRow plan tenantId payerEmail id now) } : System).suspend
              call (.subscribe (pendingRow plan tenantId payerEmail id now) .waiting)) := by
  have hfree : ¬ ((s.calls.get? call).isSome = true ∨ (s.repo.get? id).isSome = true) := by
    rw [hcall, hid]
    rintro (h | h) <;> cases h
  rw [step, if_neg hfree, subscribeBegin]
  cases getPlan E.U planCode with
  | error e => rfl
  | ok plan =>
    simp only [bind, Except.bind]
    cases s.repo.activeForTenant tenantId <;> rfl

theorem step_cancel {call : Nat} {tenantId subscriptionId : String} {now : Datetime}
    (hcall : s.calls.get? call = none) (hs : Inv s) :
    step E.onPostgres s (.cancel call tenantId subscriptionId now) =
      match s.repo.get? subscriptionId with
      | none => some s
      | some sub =>
        if sub.tenantId ≠ tenantId then some s
        else if truthy sub.mpPreapprovalId then some (s.suspend call (.cancel sub .waiting))
        else some { s with
          repo := s.repo.set sub.id { sub with status := .cancelled, updatedAt := now } } := by
  have hfree : ¬ (s.calls.get? call).isSome = true := by rw [hcall]; exact Bool.false_ne_true
  rw [step, if_neg hfree, cancelBegin, Repository.get]
  cases hget : s.repo.get? subscriptionId with
  | none => rfl
  | some sub =>
    have hrow : s.repo.get? sub.id = some sub := by rw [hs.rowId _ _ hget]; exact hget
    dsimp only
    split_ifs with htenant hpre
    · rfl
    · dsimp only
      rw [if_pos hpre]
    · dsimp only
      have hfinish : cancelFinish E.onPostgres.storage s.repo sub now =
          .ok (s.repo.set sub.id { sub with status := .cancelled, updatedAt := now }) :=
        Repository.update_of_get rfl hrow
      rw [if_neg hpre, hfinish]
      rfl

theorem step_reconcile {call : Nat} {preapprovalId : String} (hcall : s.calls.get? call = none) :
    step E s (.reconcile call preapprovalId) =
      match s.repo.getByPreapprovalId preapprovalId with
      | none => some s
      | some sub => some (s.suspend call (.reconcile sub preapprovalId .waiting)) := by
  have hfree : ¬ (s.calls.get? call).isSome = true := by rw [hcall]; exact Bool.false_ne_true
  cases hrow : s.repo.getByPreapprovalId preapprovalId with
  | none => simp only [step, if_neg hfree, reconcileBegin, hrow]
  | some sub => simp only [step, if_neg hfree, reconcileBegin, hrow]

/-- The repository after a call has written its row, if it writes one. -/
def Repository.writeBack (repo : Repository) : Option Subscription → Except BillingError Repository
  | none => .ok repo
  | some row => repo.update row

/-- A resumed call writes the row it has read, brought up to date. -/
theorem finish_eq (E : Setting) (repo : Repository) (now : Datetime) (c : Call) :
    c.finish E.onPostgres repo now = (c.written E now).map repo.writeBack := by
  cases c with
  | subscribe held answer => cases answer <;> rfl
  | cancel held answer => cases answer <;> rfl
  | reconcile held preapprovalId answer =>
    cases answer with
    | waiting => rfl
    | failed => rfl
    | ok data =>
      have hU : data.mpStatus E.onPostgres.U = data.mpStatus E.U := rfl
      rw [Call.finish, Call.written, reconcileFinish, Option.map_some, hU]
      cases data.mpStatus E.U <;> rfl

theorem step_resumed {call : Nat} {now : Datetime} {c : Call} {written : Option Subscription}
    (hcall : s.calls.get? call = some c) (hwritten : c.written E now = some written) :
    step E.onPostgres s (.resume call now) =
      some ((s.store (s.repo.writeBack written)).done call) := by
  simp only [step, hcall, Option.bind_eq_bind, Option.bind_some, finish_eq, hwritten,
    Option.map_some]

/-- The row it writes is its own, with the tenant and the creation time it has read. -/
theorem written_keeps {c : Call} {now : Datetime} {row : Subscription}
    (h : c.written E now = some (some row)) :
    row.id = c.held.id ∧ row.tenantId = c.held.tenantId ∧ row.createdAt = c.held.createdAt := by
  cases c with
  | subscribe held answer =>
    cases answer <;> cases h
    exact ⟨rfl, rfl, rfl⟩
  | cancel held answer => cases answer <;> cases h <;> exact ⟨rfl, rfl, rfl⟩
  | reconcile held preapprovalId answer =>
    cases answer with
    | ok data =>
      obtain ⟨status, -, rfl⟩ := Option.map_eq_some_iff.mp (Option.some.inj h)
      exact ⟨rfl, rfl, rfl⟩
    | waiting => cases h
    | failed => cases h

/-- The label is a step of Mercado Pago, or of the connection to it. -/
def Label.Outside : Label → Prop
  | .created .. | .served .. | .fail .. | .move .. => True
  | _ => False

/-- A step of Mercado Pago looks at no row and touches none. -/
theorem step_outside {u : System} (hpreapprovals : u.preapprovals = s.preapprovals)
    (hcalls : u.calls = s.calls) {label : Label} (hlabel : label.Outside) :
    step E s label = (step E u label).map fun v => { v with repo := s.repo } := by
  obtain ⟨repo, preapprovals, calls⟩ := s
  obtain ⟨repo', preapprovals', calls'⟩ := u
  cases hpreapprovals
  cases hcalls
  cases label with
  | created call preapprovalId initPoint =>
    simp only [step]
    rcases calls.get? call with - | ⟨held, - | result | -⟩ | ⟨held, answer⟩ | ⟨held, p, answer⟩
    case some.subscribe.waiting =>
      dsimp only
      split_ifs <;> rfl
    all_goals rfl
  | served call =>
    simp only [step]
    rcases calls.get? call with - | ⟨held, answer⟩ | ⟨held, - | result | -⟩ |
      ⟨held, p, - | result | -⟩
    case some.cancel.waiting =>
      dsimp only
      cases held.mpPreapprovalId with
      | none => rfl
      | some p =>
        cases hdata : preapprovals.get? p with
        | none => simp [hdata]
        | some data =>
          simp [hdata]
          rfl
    case some.reconcile.waiting =>
      dsimp only
      cases preapprovals.get? p <;> rfl
    all_goals rfl
  | fail call =>
    simp only [step]
    cases calls.get? call with
    | none => rfl
    | some c =>
      cases hfailed : c.failed with
      | none => simp [hfailed]
      | some c' =>
        simp [hfailed]
        rfl
  | move preapprovalId data =>
    simp only [step]
    cases preapprovals.get? preapprovalId with
    | none => rfl
    | some old =>
      simp only [Option.bind_eq_bind, Option.bind_some]
      split_ifs <;> rfl
  | subscribe | cancel | reconcile | resume => exact hlabel.elim

/-! ## Creation times -/

theorem Kept.suspend (h : Kept s) {i : Nat} {c : Call}
    (hc : ∀ row, s.repo.get? c.held.id = some row → row.createdAt = c.held.createdAt) :
    Kept (s.suspend i c) := by
  intro j d row hd hrow
  rcases Dict.get?_set_eq_some hd with ⟨-, rfl⟩ | ⟨-, hd⟩
  · exact hc row hrow
  · exact h j d row hd hrow

theorem Kept.done (h : Kept s) (i : Nat) : Kept (s.done i) :=
  fun j d row hd hrow => h j d row (Dict.get?_erase_eq_some hd).2 hrow

/-- A row is rewritten with the creation time it had. -/
theorem Kept.rewrite (h : Kept s) {id : String} {old row : Subscription}
    (hold : s.repo.get? id = some old) (hcreated : row.createdAt = old.createdAt) :
    Kept { s with repo := s.repo.set id row } := by
  intro j d row' hd hrow'
  rcases Dict.get?_set_eq_some hrow' with ⟨heq, rfl⟩ | ⟨-, hrow'⟩
  · rw [hcreated]
    exact h j d old hd (heq ▸ hold)
  · exact h j d row' hd hrow'

/-- What a call writes when it resumes is a row in place of its own. -/
theorem written_row (hs : Inv s) (hk : Kept s) {i : Nat} {c : Call} (hcall : s.calls.get? i = some c)
    {now : Datetime} {row : Subscription} (h : c.written E now = some (some row)) :
    ∃ old, s.repo.get? row.id = some old ∧ old.tenantId = row.tenantId ∧
      old.createdAt = row.createdAt ∧ s.repo.update row = .ok (s.repo.set row.id row) := by
  obtain ⟨hid, htenant, hcreated⟩ := written_keeps h
  obtain ⟨old, hold, holdTenant⟩ := (hs.calls i c hcall).row
  rw [hid, htenant, hcreated]
  exact ⟨old, hold, holdTenant, hk i c old hcall hold, Repository.update_of_get hid hold⟩

/-- Every step keeps the creation times. -/
theorem Kept.step {s' : System} {label : Label} (hk : Kept s) (hs : Inv s)
    (h : step E.onPostgres s label = some s') : Kept s' := by
  cases step_cases h with
  | returned => exact hk
  | @subscribe call tenantId planCode payerEmail id now sub hcall hid hsub =>
    have hstored : Kept { s with repo := s.repo.set id sub } := by
      intro j d row hd hrow
      rcases Dict.get?_set_eq_some hrow with ⟨heq, -⟩ | ⟨-, hrow⟩
      · obtain ⟨old, hold, -⟩ := (hs.calls j d hd).row
        rw [← heq, hid] at hold
        cases hold
      · exact hk j d row hd hrow
    refine hstored.suspend fun row hrow => ?_
    rw [show (Call.subscribe sub .waiting).held.id = id from hsub, Dict.get?_set_self] at hrow
    cases hrow
    rfl
  | @cancelNow call tenantId subscriptionId now sub hbegin hpre =>
    obtain ⟨hrow, -, -⟩ := cancelBegin_row hs hbegin
    have hfinish : cancelFinish E.onPostgres.storage s.repo sub now =
        .ok (s.repo.set sub.id { sub with status := .cancelled, updatedAt := now }) :=
      Repository.update_of_get rfl hrow
    rw [hfinish]
    exact hk.rewrite hrow rfl
  | @cancel call tenantId subscriptionId now sub hcall hbegin hpre =>
    obtain ⟨hget, -, -⟩ := cancelBegin_row hs hbegin
    refine hk.suspend fun row hrow => ?_
    cases hget.symm.trans hrow
    rfl
  | @reconcile call preapprovalId sub hcall hbegin =>
    obtain ⟨hget, -⟩ := reconcileBegin_row hs hbegin
    refine hk.suspend fun row hrow => ?_
    cases hget.symm.trans hrow
    rfl
  | @created call preapprovalId initPoint held hcall =>
    exact Kept.suspend (s := s.setPreapproval _ _) hk fun row hrow =>
      hk call (.subscribe held .waiting) row hcall hrow
  | @servedCancel call preapprovalId held data hcall =>
    exact Kept.suspend (s := s.setPreapproval _ _) hk fun row hrow =>
      hk call (.cancel held .waiting) row hcall hrow
  | @servedReconcile call preapprovalId held data hcall =>
    exact hk.suspend fun row hrow => hk call (.reconcile held preapprovalId .waiting) row hcall hrow
  | @fail call c c' hcall hfailed =>
    have hheld : c'.held = c.held := by
      cases c with
      | subscribe held answer => cases answer <;> cases hfailed; rfl
      | cancel held answer => cases answer <;> cases hfailed; rfl
      | reconcile held p answer => cases answer <;> cases hfailed; rfl
    refine hk.suspend fun row hrow => ?_
    rw [hheld] at hrow ⊢
    exact hk call c row hcall hrow
  | @resume call now c outcome hcall hfinish =>
    rw [finish_eq] at hfinish
    obtain ⟨written, hwritten, rfl⟩ := Option.map_eq_some_iff.mp hfinish
    cases written with
    | none => exact hk.done call
    | some row =>
      obtain ⟨old, hold, -, hcreated, hupdate⟩ := written_row hs hk hcall hwritten
      rw [Repository.writeBack, hupdate]
      exact (hk.rewrite hold hcreated.symm).done call
  | move => exact hk

/-! ## The two mirror each other -/

/-- The table backs a reachable state. -/
structure Stored.Mirrored (t : Stored) (s : System) : Prop where
  backs : t.Backs s
  inv : Inv s
  kept : Kept s

/-- What a label leads to: over the table to one state, which backs that of the model. -/
def Stored.LeadsTo (E : Setting) (driver : Driver) (t : Stored) (label : Label)
    (s' : System) : Prop :=
  ∃ t₁ : Stored, t₁.Backs s' ∧ ∀ t', storedStep E driver t label t' ↔ t' = t₁

/-- Both take the label, and where the table is then backs where the model is. -/
def Stored.Follows (E : Setting) (driver : Driver) (t : Stored) (s : System) (label : Label) :
    Prop :=
  ∃ s', step E.onPostgres s label = some s' ∧ t.LeadsTo E driver label s'

namespace Stored.Mirrored

variable {t : Stored} {driver : Driver}

theorem subscribe (h : t.Mirrored s) {call : Nat} {tenantId planCode payerEmail id : String}
    {now : Datetime} (hcall : s.calls.get? call = none) (hid : s.repo.get? id = none) :
    t.Follows E driver s (.subscribe call tenantId planCode payerEmail id now) := by
  have hstep := @step_subscribe E.onPostgres s call tenantId planCode payerEmail id now hcall hid
  have hcall' : t.calls.get? call = none := by rw [h.backs.calls]; exact hcall
  have hid' : t.table.get? id = none := by rw [h.backs.rows]; exact hid
  dsimp only [Setting.onPostgres] at hstep
  dsimp only [Stored.Follows, Stored.LeadsTo, storedStep]
  simp only [hcall', hid', true_and]
  cases hplan : getPlan E.U planCode with
  | error e =>
    rw [hplan] at hstep
    exact ⟨s, hstep, t, h.backs, fun t' => Iff.rfl⟩
  | ok plan =>
    rw [hplan] at hstep
    dsimp only at hstep ⊢
    simp only [h.backs.active_iff h.inv]
    cases hactive : s.repo.activeForTenant tenantId with
    | some existing =>
      rw [hactive] at hstep
      exact ⟨s, hstep, t, h.backs, fun t' => Iff.rfl⟩
    | none =>
      rw [hactive] at hstep
      have hinv := step_inv h.inv hstep
      have htaken : t.table.taken (pendingRow plan tenantId payerEmail id now) = false :=
        h.backs.not_taken hinv rfl
      obtain ⟨table, hadd, hrows⟩ := h.backs.add hid htaken
      refine ⟨_, hstep, _, (h.backs.withRows hrows).suspend call _, fun t' => ?_⟩
      dsimp only
      rw [hadd]
      simp only [Option.some.injEq, exists_eq_left']

theorem cancel (h : t.Mirrored s) {call : Nat} {tenantId subscriptionId : String} {now : Datetime}
    (hcall : s.calls.get? call = none) :
    t.Follows E driver s (.cancel call tenantId subscriptionId now) := by
  have hstep := @step_cancel E s call tenantId subscriptionId now hcall h.inv
  have hcall' : t.calls.get? call = none := by rw [h.backs.calls]; exact hcall
  dsimp only [Stored.Follows, Stored.LeadsTo, storedStep]
  simp only [hcall', true_and, h.backs.got, exists_eq_left]
  cases hget : s.repo.get? subscriptionId with
  | none =>
    rw [hget] at hstep
    exact ⟨s, hstep, t, h.backs, fun t' => Iff.rfl⟩
  | some sub =>
    rw [hget] at hstep
    dsimp only at hstep ⊢
    split_ifs at hstep ⊢ with htenant hpre
    · exact ⟨s, hstep, t, h.backs, fun t' => Iff.rfl⟩
    · exact ⟨_, hstep, _, h.backs.suspend call _, fun t' => Iff.rfl⟩
    · have hinv := step_inv h.inv hstep
      have hid : sub.id = subscriptionId := h.inv.rowId _ _ hget
      have hold : s.repo.get? sub.id = some sub := by rw [hid]; exact hget
      let row : Subscription := { sub with status := .cancelled, updatedAt := now }
      have htaken : t.table.taken row = false := h.backs.not_taken hinv rfl
      have hrow : s.repo.get? row.id = some sub := hold
      obtain ⟨table, hwrite, hrows⟩ := h.backs.write h.inv hrow rfl rfl htaken
      refine ⟨_, hstep, _, h.backs.withRows hrows, fun t' => ?_⟩
      rw [hwrite]
      simp only [Option.some.injEq, exists_eq_left']

theorem reconcile (h : t.Mirrored s) {call : Nat} {preapprovalId : String}
    (hcall : s.calls.get? call = none) :
    t.Follows E driver s (.reconcile call preapprovalId) := by
  have hstep := @step_reconcile E.onPostgres s call preapprovalId hcall
  have hcall' : t.calls.get? call = none := by rw [h.backs.calls]; exact hcall
  dsimp only [Stored.Follows, Stored.LeadsTo, storedStep]
  simp only [hcall', true_and, h.backs.gotByPreapprovalId_iff h.inv, exists_eq_left]
  cases hget : s.repo.getByPreapprovalId preapprovalId with
  | none =>
    rw [hget] at hstep
    exact ⟨s, hstep, t, h.backs, fun t' => Iff.rfl⟩
  | some sub =>
    rw [hget] at hstep
    exact ⟨_, hstep, _, h.backs.suspend call _, fun t' => Iff.rfl⟩

/-- A call that resumes with an answer. -/
theorem resume (h : t.Mirrored s) {call : Nat} {now : Datetime} {c : Call}
    {written : Option Subscription} (hcall : s.calls.get? call = some c)
    (hwritten : c.written E now = some written) : t.Follows E driver s (.resume call now) := by
  have hcall' : t.calls.get? call = some c := by rw [h.backs.calls]; exact hcall
  have hstep := step_resumed hcall hwritten
  dsimp only [Stored.Follows, Stored.LeadsTo, storedStep]
  simp only [hcall', hwritten, Option.some.injEq, exists_and_left, exists_eq_left']
  cases written with
  | none =>
    exact ⟨_, hstep, _, h.backs.done call, fun t' => Iff.rfl⟩
  | some row =>
    obtain ⟨old, hold, htenant, hcreated, hupdate⟩ := written_row h.inv h.kept hcall hwritten
    rw [Repository.writeBack, hupdate] at hstep
    have htaken : t.table.taken row = false := h.backs.not_taken (step_inv h.inv hstep) rfl
    obtain ⟨table, hwrite, hrows⟩ := h.backs.write h.inv hold htenant hcreated htaken
    refine ⟨_, hstep, _, (h.backs.withRows hrows).done call, fun t' => ?_⟩
    dsimp only
    rw [hwrite]
    simp only [Option.some.injEq, exists_eq_left']

/-- A step of Mercado Pago leaves the table as it is. -/
theorem outside (h : t.Mirrored s) {label : Label} (hlabel : label.Outside) :
    t.Follows E driver s label ∨
      step E.onPostgres s label = none ∧ ∀ t', ¬ storedStep E driver t label t' := by
  have hsame : step E.onPostgres t.outside label = step E t.outside label := by
    cases label <;> first | rfl | exact hlabel.elim
  have hunfold : ∀ t', storedStep E driver t label t' ↔ ∃ u, step E t.outside label = some u ∧
      t' = { t with preapprovals := u.preapprovals, calls := u.calls } := by
    cases label <;> first | exact fun _ => Iff.rfl | exact hlabel.elim
  rw [Stored.Follows, step_outside (u := t.outside) h.backs.preapprovals h.backs.calls hlabel, hsame]
  cases hstep : step E t.outside label with
  | none =>
    refine .inr ⟨rfl, fun t' ht' => ?_⟩
    obtain ⟨u, hu, -⟩ := (hunfold t').mp ht'
    rw [hstep] at hu
    cases hu
  | some u =>
    refine .inl ⟨_, rfl, { t with preapprovals := u.preapprovals, calls := u.calls },
      ⟨h.backs.rows, rfl, rfl⟩, fun t' => ?_⟩
    rw [hunfold, hstep]
    simp only [Option.some.injEq, exists_eq_left']

/-- Both take a label, or neither. -/
theorem follows_or (h : t.Mirrored s) (label : Label) : t.Follows E driver s label ∨
    step E.onPostgres s label = none ∧ ∀ t', ¬ storedStep E driver t label t' := by
  cases label with
  | subscribe call tenantId planCode payerEmail id now =>
    by_cases hfree : (s.calls.get? call).isSome ∨ (s.repo.get? id).isSome
    · refine .inr ⟨if_pos hfree, ?_⟩
      rintro t' ⟨hcall, hid, -⟩
      rw [← h.backs.calls, ← h.backs.rows, hcall, hid] at hfree
      rcases hfree with h | h <;> cases h
    · simp only [not_or, Option.not_isSome_iff_eq_none] at hfree
      exact .inl (h.subscribe hfree.1 hfree.2)
  | cancel call tenantId subscriptionId now =>
    by_cases hfree : (s.calls.get? call).isSome
    · refine .inr ⟨if_pos hfree, ?_⟩
      rintro t' ⟨hcall, -⟩
      rw [← h.backs.calls, hcall] at hfree
      cases hfree
    · exact .inl (h.cancel (Option.not_isSome_iff_eq_none.mp hfree))
  | reconcile call preapprovalId =>
    by_cases hfree : (s.calls.get? call).isSome
    · refine .inr ⟨if_pos hfree, ?_⟩
      rintro t' ⟨hcall, -⟩
      rw [← h.backs.calls, hcall] at hfree
      cases hfree
    · exact .inl (h.reconcile (Option.not_isSome_iff_eq_none.mp hfree))
  | resume call now =>
    cases hcall : s.calls.get? call with
    | none =>
      refine .inr ⟨by rw [step, hcall]; rfl, ?_⟩
      rintro t' ⟨c, written, hc, -⟩
      rw [h.backs.calls, hcall] at hc
      cases hc
    | some c =>
      cases hwritten : c.written E now with
      | none =>
        refine .inr ⟨?_, ?_⟩
        · simp only [step, hcall, Option.bind_eq_bind, Option.bind_some, finish_eq, hwritten,
            Option.map_none, Option.bind_none]
        · rintro t' ⟨c', written, hc, hw, -⟩
          rw [h.backs.calls, hcall] at hc
          cases hc
          rw [hwritten] at hw
          cases hw
      | some written => exact .inl (h.resume hcall hwritten)
  | created | served | fail | move => exact h.outside trivial

end Stored.Mirrored

/-- Related states allow the same labels and lead to related states. -/
theorem mirrors (E : Setting) (driver : Driver) :
    Lib.Mirrors (storedStep E driver) (step E.onPostgres) Stored.Mirrored := by
  have hafter : ∀ {t t' : Stored} {s s' : System} {label : Label}, t.Mirrored s →
      step E.onPostgres s label = some s' → t'.Backs s' → t'.Mirrored s' :=
    fun h hstep hbacks => ⟨hbacks, step_inv h.inv hstep, h.kept.step h.inv hstep⟩
  constructor
  · intro t t' s label h hrel
    rcases h.follows_or label with ⟨s', hstep, t₁, hbacks, hiff⟩ | ⟨-, hnot⟩
    · cases (hiff t').mp hrel
      exact ⟨s', hstep, hafter h hstep hbacks⟩
    · exact absurd hrel (hnot t')
  · intro t s s' label h hstep
    rcases h.follows_or label with ⟨s₁, hstep₁, t₁, hbacks, hiff⟩ | ⟨hnone, -⟩
    · cases hstep₁.symm.trans hstep
      exact ⟨t₁, (hiff t₁).mpr rfl, hafter h hstep hbacks⟩
    · rw [hnone] at hstep
      cases hstep

theorem mirrored_init : Stored.Mirrored {} System.init where
  backs := ⟨fun _ => rfl, rfl, rfl⟩
  inv := Inv.init
  kept _ _ _ h := by cases h

/-- **Billing over Postgres.** Any labels are a run over the table, whatever the queries answer that
they leave open, exactly when they are a run of the model in which a call writes back the row it has
read; the two end with the same rows, the same calls and the same preapprovals.

It is a simulation in both directions. Each statement of the adapter is shown to do to the table
what the dictionary's method does, and no statement of a reachable table is refused. -/
theorem billing_over_postgres (E : Setting) (driver : Driver) (labels : List Label) :
    (∀ t, Path (storedStep E driver) {} labels t →
      ∃ s, run (step E.onPostgres) System.init labels = some s ∧ t.Backs s) ∧
    ∀ s, run (step E.onPostgres) System.init labels = some s →
      ∃ t, Path (storedStep E driver) {} labels t ∧ t.Backs s := by
  constructor
  · intro t hpath
    obtain ⟨s, hrun, h⟩ := (mirrors E driver).forth_run mirrored_init hpath
    exact ⟨s, hrun, h.backs⟩
  · intro s hrun
    obtain ⟨t, hpath, h⟩ := (mirrors E driver).back_run mirrored_init hrun
    exact ⟨t, hpath, h.backs⟩

end Wapsell.Billing
