import Wapsell.Lib.Run
import Wapsell.Billing.Service

/-!
# Billing, one operation after the other

`subscribe`, `cancel` and `reconcile_from_webhook` over the in-memory
repository, each run from its first line to its last before the next begins.
Mercado Pago answers whatever it likes, except that it never gives two
preapprovals one id.

`Books` keeps two things beside the rows: the preapproval ids given out so
far, and the subscriptions a reconcile has seen authorized. The second is
what `started_at` remembers of the history.

What changes when operations overlap is the subject of the interleaving:
there a reconcile may write an answer that is stale, and a row may be
rewritten under a call that waits.

`started_at` is compared with the history rather than with the row
before, so that it cannot be satisfied by a row that lost its start.
-/

namespace Wapsell.Billing

open Lib Py

/-- One operation, with what Mercado Pago answers it; `none` is a `MercadoPagoError`. -/
inductive Operation
  | subscribe (tenantId planCode payerEmail id : String) (began : Datetime)
      (answer : Option PreapprovalResult) (now : Datetime)
  /-- What Mercado Pago answers a cancellation makes no difference. -/
  | cancel (tenantId subscriptionId : String) (now : Datetime)
  | reconcile (preapprovalId : String) (answer : Option PreapprovalData) (now : Datetime)

/-- The rows, and what the history leaves beside them. `created` and `authorized` are ghosts: no
operation reads them. -/
structure Books where
  repo : Repository := Dict.empty
  created : List String := []
  authorized : List String := []

namespace Books

/-- Nothing has happened. -/
def init : Books := {}

/-- The outcome of a repository write; an exception leaves the rows alone. -/
def write (b : Books) : Except BillingError Repository → Books
  | .ok repo => { b with repo }
  | .error _ => b

/-- A row is written. -/
def put (b : Books) (id : String) (row : Subscription) : Books :=
  { b with repo := b.repo.set id row }

/-- A reconcile has seen the status of a subscription. -/
def saw (b : Books) (subscriptionId : String) (status : Option SubscriptionStatus) : Books :=
  if status = some .authorized then { b with authorized := subscriptionId :: b.authorized } else b

@[simp] theorem saw_repo (b : Books) (subscriptionId : String)
    (status : Option SubscriptionStatus) : (b.saw subscriptionId status).repo = b.repo := by
  unfold saw
  split <;> rfl

@[simp] theorem saw_created (b : Books) (subscriptionId : String)
    (status : Option SubscriptionStatus) : (b.saw subscriptionId status).created = b.created := by
  unfold saw
  split <;> rfl

@[simp] theorem write_ok (b : Books) (repo : Repository) : b.write (.ok repo) = { b with repo } :=
  rfl

end Books

/-- One operation from start to end. `id` is a fresh uuid, and a preapproval is given a new id. -/
def operate (U : Unicode) (fromisoformat : String → Option Datetime) (b : Books) :
    Operation → Option Books
  | .subscribe tenantId planCode payerEmail id began answer now =>
    if (b.repo.get? id).isSome then none
    else match subscribeBegin U b.repo tenantId planCode payerEmail id began with
      | .error _ => some b
      | .ok (_, subscription, repo) =>
        match answer with
        | none => some { b with repo }
        | some result =>
          if result.preapprovalId ∈ b.created then none
          else some ({ b with repo, created := result.preapprovalId :: b.created }.write
            (subscribeFinish .inMemory repo subscription result now))
  | .cancel tenantId subscriptionId now =>
    match cancelBegin b.repo tenantId subscriptionId with
    | .error _ => some b
    | .ok subscription => some (b.write (cancelFinish .inMemory b.repo subscription now))
  | .reconcile preapprovalId answer now =>
    match reconcileBegin b.repo preapprovalId, answer with
    | some subscription, some data =>
      some ((b.write (reconcileFinish U fromisoformat .inMemory b.repo subscription data now)).saw
        subscription.id (data.mpStatus U))
    | _, _ => some b

/-- Rows under their ids, and one row for each preapproval given out. -/
structure Books.Keyed (b : Books) : Prop where
  rowId : ∀ k row, b.repo.get? k = some row → row.id = k
  given : ∀ k row p, b.repo.get? k = some row → row.mpPreapprovalId = some p → p ∈ b.created
  unique : ∀ k k' row row' p, b.repo.get? k = some row → b.repo.get? k' = some row' →
    row.mpPreapprovalId = some p → row'.mpPreapprovalId = some p → k = k'

/-- What the books keep: the rows that have started are those a reconcile saw authorized. `stored`
says that such a row is still there, since the service deletes none. -/
structure Books.Inv (b : Books) : Prop extends Books.Keyed b where
  started : ∀ k row, b.repo.get? k = some row → (row.startedAt.isSome ↔ k ∈ b.authorized)
  stored : ∀ k ∈ b.authorized, (b.repo.get? k).isSome

theorem Books.Inv.init : Books.init.Inv where
  rowId k row h := by cases h
  given k row p h := by cases h
  unique k k' row row' p h := by cases h
  started k row h := by cases h
  stored k h := by cases h

/-- What an operation does, case by case. -/
inductive Operated (U : Unicode) (fromisoformat : String → Option Datetime) (b : Books) :
    Operation → Books → Prop
  /-- It raised, or was dropped. -/
  | returned (op : Operation)
      (hdrop : ∀ p data now status, op = .reconcile p (some data) now → data.mpStatus U = some status →
        b.repo.getByPreapprovalId p = none) : Operated U fromisoformat b op b
  | subscribed {tenantId planCode payerEmail id : String} {began now : Datetime}
      {answer : Option PreapprovalResult} {row : Subscription} (hid : b.repo.get? id = none)
      (hrow : row.id = id) (hstarted : row.startedAt = none)
      (hpre : row.mpPreapprovalId = answer.map PreapprovalResult.preapprovalId)
      (hnew : ∀ result, answer = some result → result.preapprovalId ∉ b.created) :
      Operated U fromisoformat b (.subscribe tenantId planCode payerEmail id began answer now)
        { b.put id row with
          created := (answer.map PreapprovalResult.preapprovalId).toList ++ b.created }
  | cancelled {tenantId subscriptionId : String} {now : Datetime} {row : Subscription}
      (hrow : b.repo.get? subscriptionId = some row) :
      Operated U fromisoformat b (.cancel tenantId subscriptionId now)
        (b.put subscriptionId { row with status := .cancelled, updatedAt := now })
  | reconciled {preapprovalId id : String} {data : PreapprovalData} {now : Datetime}
      {status : SubscriptionStatus} {row : Subscription} (hrow : b.repo.get? id = some row)
      (hpre : row.mpPreapprovalId = some preapprovalId) (hstatus : data.mpStatus U = some status) :
      Operated U fromisoformat b (.reconcile preapprovalId (some data) now)
        ((b.put id (reconciled fromisoformat row data status now)).saw id (some status))

/-- The object a caller holds in memory is the stored row. -/
theorem current_of_row {repo : Repository} {held row : Subscription}
    (h : repo.get? held.id = some row) : Storage.inMemory.current repo held = row := by
  rw [Storage.current, h, Option.getD_some]

/-- A row that is there is written over. -/
theorem Books.write_update (b : Books) (row' : Subscription) {id : String} {row : Subscription}
    (hid : row'.id = id) (h : b.repo.get? id = some row) :
    b.write (b.repo.update row') = b.put id row' := by
  rw [Repository.update_of_get hid h]
  rfl

/-- A begun subscription has not started. -/
theorem subscribeBegin_startedAt {U : Unicode} {repo repo' : Repository}
    {tenantId planCode payerEmail id : String} {now : Datetime} {request : PreapprovalRequest}
    {subscription : Subscription}
    (h : subscribeBegin U repo tenantId planCode payerEmail id now =
      .ok (request, subscription, repo')) : subscription.startedAt = none := by
  unfold subscribeBegin at h
  cases hplan : getPlan U planCode with
  | error e =>
    rw [hplan] at h
    cases h
  | ok plan =>
    rw [hplan] at h
    cases hactive : repo.activeForTenant tenantId with
    | some existing =>
      simp only [hactive] at h
      cases h
    | none =>
      simp only [hactive] at h
      cases h
      rfl

/-- An operation does only what `Operated` lists. -/
theorem operate_cases {U : Unicode} {fromisoformat : String → Option Datetime} {b b' : Books}
    {op : Operation} (hI : b.Inv) (h : operate U fromisoformat b op = some b') :
    Operated U fromisoformat b op b' := by
  cases op with
  | subscribe tenantId planCode payerEmail id began answer now =>
    simp only [operate] at h
    split at h
    · cases h
    · next hfree =>
      have hid := Option.not_isSome_iff_eq_none.mp hfree
      split at h
      · cases h
        exact .returned _ fun p data now status hop => by cases hop
      · next subscription repo hbegin =>
        obtain ⟨hsub, -, -, hpre, rfl, -⟩ := subscribeBegin_eq_ok hbegin
        have hstarted := subscribeBegin_startedAt hbegin
        cases answer with
        | none =>
          cases h
          exact .subscribed hid hsub hstarted hpre fun result hresult => by cases hresult
        | some result =>
          dsimp only at h
          split at h
          · cases h
          · next hnew =>
            have hrow : (b.repo.set id subscription).get? subscription.id = some subscription := by
              rw [hsub, Dict.get?_set_self]
            rw [subscribeFinish, current_of_row hrow] at h
            have hput := Books.write_update
              { b with
                repo := b.repo.set id subscription
                created := result.preapprovalId :: b.created }
              { subscription with
                mpPreapprovalId := some result.preapprovalId
                mpInitPoint := some result.initPoint
                updatedAt := now } hsub (Dict.get?_set_self _ _ _)
            rw [hput, Books.put, Dict.set_set] at h
            cases h
            have hfresh : ∀ other, some result = some other →
                other.preapprovalId ∉ b.created := by
              intro other hother
              cases hother
              exact hnew
            exact .subscribed hid hsub hstarted rfl hfresh
  | cancel tenantId subscriptionId now =>
    simp only [operate] at h
    split at h
    · cases h
      exact .returned _ fun p data now status hop => by cases hop
    · next subscription hbegin =>
      obtain ⟨hrow, -⟩ := cancelBegin_eq_ok hbegin
      have hid := hI.rowId _ _ hrow
      rw [cancelFinish, current_of_row (hid ▸ hrow),
        b.write_update { subscription with status := .cancelled, updatedAt := now } hid hrow] at h
      cases h
      exact .cancelled hrow
  | reconcile preapprovalId answer now =>
    simp only [operate, reconcileBegin] at h
    cases hfind : b.repo.getByPreapprovalId preapprovalId with
    | none =>
      rw [hfind] at h
      cases h
      refine .returned _ fun p data now status hop _ => ?_
      cases hop
      exact hfind
    | some subscription =>
      obtain ⟨hpre, k, hrow⟩ := Repository.getByPreapprovalId_eq_some hfind
      have hid := hI.rowId _ _ hrow
      rw [hfind] at h
      cases answer with
      | none =>
        cases h
        exact .returned _ fun p data now status hop => by cases hop
      | some data =>
        dsimp only at h
        rw [reconcileFinish, current_of_row (hid ▸ hrow)] at h
        cases hstatus : data.mpStatus U with
        | none =>
          rw [hstatus] at h
          cases h
          refine .returned _ fun p data' now' status hop hsome => ?_
          cases hop
          rw [hstatus] at hsome
          cases hsome
        | some status =>
          rw [hstatus] at h
          dsimp only at h
          rw [b.write_update (reconciled fromisoformat subscription data status now) hid hrow,
            hid] at h
          cases h
          exact .reconciled hrow hpre hstatus

/-! ## What every operation keeps -/

variable {U : Unicode} {fromisoformat : String → Option Datetime} {b b' : Books}

theorem Books.mem_saw {id k : String} {status : SubscriptionStatus} :
    k ∈ (b.saw id (some status)).authorized ↔
      (k = id ∧ status = .authorized) ∨ k ∈ b.authorized := by
  unfold saw
  by_cases h : status = .authorized
  · simp [h]
  · simp [h]

/-- A reconcile starts a subscription when it sees it authorized, and stops none. -/
theorem startedAt_reconciled (row : Subscription) (data : PreapprovalData)
    (status : SubscriptionStatus) (now : Datetime) :
    (reconciled fromisoformat row data status now).startedAt.isSome ↔
      status = .authorized ∨ row.startedAt.isSome := by
  unfold reconciled
  cases hstarted : row.startedAt with
  | some t => simp
  | none => by_cases h : status = .authorized <;> simp [h]

/-- A row is written over with its id and its preapproval. -/
theorem Books.Keyed.rewrite (h : b.Keyed) {id : String} {row row' : Subscription}
    (hrow : b.repo.get? id = some row) (hid : row'.id = row.id)
    (hpre : row'.mpPreapprovalId = row.mpPreapprovalId) : (b.put id row').Keyed := by
  -- every row after the write stands for one before it
  have hback : ∀ k other, (b.put id row').repo.get? k = some other →
      ∃ before, b.repo.get? k = some before ∧ other.id = before.id ∧
        other.mpPreapprovalId = before.mpPreapprovalId := by
    intro k other hk
    rcases Dict.get?_set_eq_some hk with ⟨rfl, rfl⟩ | ⟨-, hold⟩
    · exact ⟨row, hrow, hid, hpre⟩
    · exact ⟨other, hold, rfl, rfl⟩
  constructor
  · intro k other hk
    obtain ⟨before, hbefore, hsame, -⟩ := hback k other hk
    exact hsame.trans (h.rowId k before hbefore)
  · intro k other p hk hp
    obtain ⟨before, hbefore, -, hsame⟩ := hback k other hk
    exact h.given k before p hbefore (hsame ▸ hp)
  · intro k k' other other' p hk hk' hp hp'
    obtain ⟨before, hbefore, -, hsame⟩ := hback k other hk
    obtain ⟨before', hbefore', -, hsame'⟩ := hback k' other' hk'
    exact h.unique k k' before before' p hbefore hbefore' (hsame ▸ hp) (hsame' ▸ hp')

/-- A new row, with a preapproval that was not given out before if it has one. -/
theorem Books.Keyed.subscribed (h : b.Keyed) {id : String} {row : Subscription}
    (hrow : row.id = id) (hpre : ∀ p, row.mpPreapprovalId = some p → p ∉ b.created) :
    ({ b.put id row with created := row.mpPreapprovalId.toList ++ b.created } : Books).Keyed := by
  constructor
  · intro k other hk
    rcases Dict.get?_set_eq_some hk with ⟨rfl, rfl⟩ | ⟨-, hold⟩
    · exact hrow
    · exact h.rowId k other hold
  · intro k other p hk hp
    rcases Dict.get?_set_eq_some hk with ⟨rfl, rfl⟩ | ⟨-, hold⟩
    · exact List.mem_append_left _ (by rw [hp]; exact List.mem_singleton_self p)
    · exact List.mem_append_right _ (h.given k other p hold hp)
  · intro k k' other other' p hk hk' hp hp'
    rcases Dict.get?_set_eq_some hk with ⟨rfl, rfl⟩ | ⟨-, hold⟩ <;>
      rcases Dict.get?_set_eq_some hk' with ⟨rfl, rfl⟩ | ⟨-, hold'⟩
    · rfl
    · exact absurd (h.given k' other' p hold' hp') (hpre p hp)
    · exact absurd (h.given k other p hold hp) (hpre p hp')
    · exact h.unique k k' other other' p hold hold' hp hp'

/-- Writing over a row keeps the started ones in step with what was seen, if it does so for that
row. -/
theorem Books.Inv.rewrite (h : b.Inv) (row' : Subscription) {id : String} {row : Subscription}
    (hrow : b.repo.get? id = some row) (hid : row'.id = row.id)
    (hpre : row'.mpPreapprovalId = row.mpPreapprovalId) {seen : List String}
    (hseen : ∀ k, k ≠ id → (k ∈ seen ↔ k ∈ b.authorized))
    (hstarted : row'.startedAt.isSome ↔ id ∈ seen) :
    ({ b.put id row' with authorized := seen } : Books).Inv := by
  have hkeyed := h.toKeyed.rewrite hrow hid hpre
  refine ⟨⟨hkeyed.rowId, hkeyed.given, hkeyed.unique⟩, ?_, ?_⟩
  · intro k other hk
    rcases Dict.get?_set_eq_some hk with ⟨rfl, rfl⟩ | ⟨hne, hold⟩
    · exact hstarted
    · exact (h.started k other hold).trans (hseen k (Ne.symm hne)).symm
  · intro k hk
    apply Dict.get?_set_isSome
    by_cases heq : k = id
    · rw [heq, hrow]
      rfl
    · exact h.stored k ((hseen k heq).mp hk)

theorem Books.Inv.operate (h : b.Inv) {op : Operation}
    (hop : operate U fromisoformat b op = some b') : b'.Inv := by
  cases operate_cases h hop with
  | returned => exact h
  | @subscribed _ _ _ id _ _ answer row hid hrow hstarted hpre hnew =>
    have hkeyed := h.toKeyed.subscribed hrow ?_
    · rw [← hpre]
      refine ⟨hkeyed, ?_, ?_⟩
      · intro k other hk
        rcases Dict.get?_set_eq_some hk with ⟨rfl, rfl⟩ | ⟨-, hold⟩
        · rw [hstarted]
          refine iff_of_false (fun hsome => by cases hsome) fun hin => ?_
          have := h.stored _ hin
          rw [hid] at this
          cases this
        · exact h.started k other hold
      · intro k hk
        exact Dict.get?_set_isSome _ _ (h.stored k hk)
    · intro p hp
      rw [hpre] at hp
      obtain ⟨result, hresult, rfl⟩ := Option.map_eq_some_iff.mp hp
      exact hnew result hresult
  | @cancelled _ subscriptionId now row hrow =>
    exact h.rewrite { row with status := .cancelled, updatedAt := now } hrow rfl rfl
      (fun _ _ => Iff.rfl) (h.started _ row hrow)
  | @reconciled _ id data now status row hrow hpre hstatus =>
    have hseen : ∀ k, k ≠ id →
        (k ∈ ((b.put id (reconciled fromisoformat row data status now)).saw id
          (some status)).authorized ↔ k ∈ b.authorized) := by
      intro k hne
      rw [Books.mem_saw]
      exact ⟨fun hk => hk.resolve_left fun heq => hne heq.1, .inr⟩
    have hstarted : (reconciled fromisoformat row data status now).startedAt.isSome ↔
        id ∈ ((b.put id (reconciled fromisoformat row data status now)).saw id
          (some status)).authorized := by
      rw [startedAt_reconciled, Books.mem_saw, h.started id row hrow]
      exact or_congr_left ⟨fun heq => ⟨rfl, heq⟩, fun heq => heq.2⟩
    have hrewrite := h.rewrite (reconciled fromisoformat row data status now) hrow rfl rfl hseen
      hstarted
    have hsame : ((b.put id (reconciled fromisoformat row data status now)).saw id
        (some status)) = { b.put id (reconciled fromisoformat row data status now) with
          authorized := ((b.put id (reconciled fromisoformat row data status now)).saw id
            (some status)).authorized } := by
      unfold Books.saw
      split <;> rfl
    rw [hsame]
    exact hrewrite

theorem Books.Inv.of_run {ops : List Operation}
    (h : run (Billing.operate U fromisoformat) Books.init ops = some b) : b.Inv :=
  Leads.invariant (fun _ _ _ hI hop => Books.Inv.operate hI hop) ⟨ops, h⟩ Books.Inv.init

/-! ## The mirror -/

/-- The row an operation is about. -/
def Operation.concerns (b : Books) : Operation → String → Prop
  | .subscribe _ _ _ id _ _ _, k => k = id
  | .cancel _ subscriptionId _, k => k = subscriptionId
  | .reconcile preapprovalId _ _, k =>
    ∃ row, b.repo.get? k = some row ∧ row.mpPreapprovalId = some preapprovalId

/-- One operation, from the books of a history to those after it: what it copies, what it must not
touch, and what the start of a subscription remembers. -/
structure Mirrors (U : Unicode) (b : Books) (op : Operation) (b' : Books) : Prop where
  /-- A subscription has started if and only if some reconcile saw it authorized. -/
  started : ∀ id row, b'.repo.get? id = some row → (row.startedAt.isSome ↔ id ∈ b'.authorized)
  /-- Once set, the start never changes. -/
  settled : ∀ id row t, b.repo.get? id = some row → row.startedAt = some t →
    ∃ row', b'.repo.get? id = some row' ∧ row'.startedAt = some t
  /-- A known status is copied. -/
  copied : ∀ p data now status, op = .reconcile p (some data) now → data.mpStatus U = some status →
    ∀ id row, b.repo.get? id = some row → row.mpPreapprovalId = some p →
      ∃ row', b'.repo.get? id = some row' ∧ row'.status = status
  /-- An error, an unknown status or an unknown preapproval leaves every row as it is. -/
  dropped : ∀ p answer now, op = .reconcile p answer now →
    (answer = none ∨ (∃ data, answer = some data ∧ data.mpStatus U = none) ∨
      ∀ id row, b.repo.get? id = some row → row.mpPreapprovalId ≠ some p) →
    b'.repo = b.repo
  /-- No other row changes. -/
  others : ∀ id, ¬ op.concerns b id → b'.repo.get? id = b.repo.get? id

/-- A row is written over, and the others stay. -/
theorem Books.get?_put (b : Books) {id k : String} (row : Subscription) (h : k ≠ id) :
    (b.put id row).repo.get? k = b.repo.get? k := Dict.get?_set_ne _ _ (Ne.symm h)

theorem settled_put {id : String} {row : Subscription} (row' : Subscription)
    (hrow : b.repo.get? id = some row) (hkeep : ∀ t, row.startedAt = some t → row'.startedAt = some t)
    {k : String} {other : Subscription} {t : Datetime} (hother : b.repo.get? k = some other)
    (ht : other.startedAt = some t) :
    ∃ after, (b.put id row').repo.get? k = some after ∧ after.startedAt = some t := by
  by_cases h : k = id
  · subst h
    cases hrow.symm.trans hother
    exact ⟨row', Dict.get?_set_self _ _ _, hkeep t ht⟩
  · exact ⟨other, (b.get?_put row' h).trans hother, ht⟩

theorem startedAt_reconciled_of_some {row : Subscription} {data : PreapprovalData}
    {status : SubscriptionStatus} {now t : Datetime} (h : row.startedAt = some t) :
    (reconciled fromisoformat row data status now).startedAt = some t := by
  unfold reconciled
  simp [h]

/-- A reconcile that finds its row and knows the status. -/
theorem mirrors_reconciled (hI : b.Inv) {preapprovalId id : String} {data : PreapprovalData}
    {now : Datetime} {status : SubscriptionStatus} {row : Subscription}
    (hrow : b.repo.get? id = some row) (hpre : row.mpPreapprovalId = some preapprovalId)
    (hstatus : data.mpStatus U = some status)
    (hI' : ((b.put id (reconciled fromisoformat row data status now)).saw id (some status)).Inv) :
    Mirrors U b (.reconcile preapprovalId (some data) now)
      ((b.put id (reconciled fromisoformat row data status now)).saw id (some status)) := by
  have hrepo : ((b.put id (reconciled fromisoformat row data status now)).saw id
      (some status)).repo = (b.put id (reconciled fromisoformat row data status now)).repo :=
    Books.saw_repo _ _ _
  refine ⟨hI'.started, ?_, ?_, ?_, ?_⟩
  · intro k other t hother ht
    rw [hrepo]
    exact settled_put _ hrow (fun _ h => startedAt_reconciled_of_some h) hother ht
  · intro p data' now' status' hop' hstatus' k other hother hp
    cases hop'
    cases hstatus.symm.trans hstatus'
    cases hI.unique k id other row _ hother hrow hp hpre
    rw [hrepo]
    exact ⟨_, Dict.get?_set_self _ _ _, rfl⟩
  · intro p answer now' hop' hwhy
    cases hop'
    rcases hwhy with h | ⟨data', h, hnone⟩ | h
    · cases h
    · cases h
      rw [hstatus] at hnone
      cases hnone
    · exact absurd hpre (h id row hrow)
  · intro k hk
    rw [hrepo]
    exact b.get?_put _ fun heq => hk (heq ▸ ⟨row, hrow, hpre⟩)

/-- **Reconcile mirrors Mercado Pago and keeps history**, over every history of operations that do
not overlap.

The induction over the history carries `Books.Inv`, and each of the clauses is then read off one
operation. -/
theorem reconcile_mirrors (U : Unicode) (fromisoformat : String → Option Datetime)
    {ops : List Operation} {b b' : Books} {op : Operation}
    (hrun : run (operate U fromisoformat) Books.init ops = some b)
    (hop : operate U fromisoformat b op = some b') : Mirrors U b op b' := by
  have hI := Books.Inv.of_run hrun
  have hstarted := (hI.operate hop).started
  cases operate_cases hI hop with
  | returned _ hdrop =>
    refine ⟨hstarted, fun id row t hrow ht => ⟨row, hrow, ht⟩, ?_, fun _ _ _ _ _ => rfl,
      fun _ _ => rfl⟩
    intro p data now status hop' hstatus id row hrow hpre
    obtain ⟨found, hfound⟩ := Repository.getByPreapprovalId_isSome hrow hpre
    rw [hdrop p data now status hop' hstatus] at hfound
    cases hfound
  | @subscribed _ _ _ id _ _ answer row hid hrow =>
    refine ⟨hstarted, ?_, fun _ _ _ _ h => (by cases h), fun _ _ _ h => (by cases h), ?_⟩
    · intro k other t hother ht
      have hne : k ≠ id := fun heq => by
        rw [heq, hid] at hother
        cases hother
      exact ⟨other, (b.get?_put row hne).trans hother, ht⟩
    · intro k hk
      exact b.get?_put row hk
  | @cancelled _ subscriptionId now row hrow =>
    refine ⟨hstarted, ?_, fun _ _ _ _ h => (by cases h), fun _ _ _ h => (by cases h), ?_⟩
    · intro k other t hother ht
      exact settled_put { row with status := .cancelled, updatedAt := now } hrow (fun _ h => h)
        hother ht
    · intro k hk
      exact b.get?_put _ hk
  | reconciled hrow hpre hstatus => exact mirrors_reconciled hI hrow hpre hstatus (hI.operate hop)

/-- A subscription that Mercado Pago authorizes. -/
def toAuthorized : List Operation :=
  [.subscribe "acme" "PRO" "ana@acme.test" "sub-1" 1 (some ⟨"pre-1", "https://mp.test/1"⟩) 2]

/-- Where that history leads. -/
def subscribedBooks : Books :=
  reached (operate Unicode.ascii fun _ => none) Books.init toAuthorized

/-- The reconcile that sees it authorized. -/
def authorizing : Operation := .reconcile "pre-1" (some { status := "Authorized" }) 3

theorem reconcile_mirrors_authorized :
    Mirrors Unicode.ascii subscribedBooks authorizing
      (reached (operate Unicode.ascii fun _ => none) Books.init (toAuthorized ++ [authorizing])) :=
  reconcile_mirrors Unicode.ascii (fun _ => none)
    (show run (operate Unicode.ascii fun _ => none) Books.init toAuthorized = some subscribedBooks
      from run_eq_some_reached (by decide)) (step_reached (by decide))

end Wapsell.Billing
