import Mathlib.Data.List.Basic

/-!
# Scripts on one transactional connection

An operation on a database is a script of statements, each chosen by what
the ones before it answered, with a commit, if any, as its last act. A
connection without autocommit opens a transaction with the first statement;
a statement the database refuses aborts the transaction, and every further
statement on the connection is refused until the transaction is ended. What
a statement does is a parameter.

`Isolated` says that a refused operation leaves no trace in the ones that
come after it. On one connection that nobody rolls back it holds exactly
where no later operation sends a statement (`isolated_iff`).

The script is given as a tree of statements and answers, and not as a
list, because an operation may look something up and send the next
statement by what it was told, or none at all. That a commit comes last
is a shape of the tree; it is how the operations of an adapter look, and
a savepoint or a second transaction in one operation is outside of it.

**What this does not establish.** One connection only: nothing is said
of what another session sees, nor of a lock that is waited for. A
statement is refused or has its effect, and a connection that is lost is
neither.
-/

namespace Lib

/-- What one operation does: it returns, raises, commits and returns, or sends a statement and goes
on with the answer. A rollback is not among them: what happens when nobody rolls back is what the
module is about. -/
inductive Script (σ ρ ε α : Type*)
  | ret (a : α)
  | commit (a : α)
  | raise (e : ε)
  | execute (s : σ) (k : ρ → Script σ ρ ε α)

/-- The operation starts with a statement. -/
def Script.executes {σ ρ ε α : Type*} : Script σ ρ ε α → Bool
  | .execute .. => true
  | _ => false

/-- The operation commits without having sent a statement. -/
def Script.bareCommit {σ ρ ε α : Type*} : Script σ ρ ε α → Bool
  | .commit _ => true
  | _ => false

/-- A connection: what is committed, what the open transaction sees, and whether it is aborted. No
transaction being open is the case in which the first two are the same. -/
structure Connection (δ : Type*) where
  committed : δ
  working : δ
  aborted : Bool := false

/-- Why an operation raised: by itself, because the database refused a statement, or because the
transaction was aborted before. -/
inductive Failure (ε η : Type*)
  | own (e : ε)
  | refused (e : η)
  | aborted
  deriving DecidableEq, Repr

namespace Connection

variable {δ : Type*}

/-- A connection just opened. -/
def opened (db : δ) : Connection δ := ⟨db, db, false⟩

/-- `COMMIT`: of an aborted transaction, it is a rollback. -/
def commit (c : Connection δ) : Connection δ :=
  if c.aborted then opened c.committed else opened c.working

end Connection

section Run

variable {δ σ ρ ε η α : Type*} (exec : δ → σ → Except η (ρ × δ))

/-- One operation on a connection. -/
def perform : Script σ ρ ε α → Connection δ → Except (Failure ε η) α × Connection δ
  | .ret a, c => (.ok a, c)
  | .commit a, c => (.ok a, c.commit)
  | .raise e, c => (.error (.own e), c)
  | .execute s k, c =>
    if c.aborted then (.error .aborted, c)
    else match exec c.working s with
      | .ok (rows, working) => perform (k rows) { c with working }
      | .error e => (.error (.refused e), { c with aborted := true })

/-- The connection after a list of operations. -/
def after : List (Script σ ρ ε α) → Connection δ → Connection δ
  | [], c => c
  | op :: ops, c => after ops (perform exec op c).2

/-- What the operations of a list answer. -/
def outcomes : List (Script σ ρ ε α) → Connection δ → List (Except (Failure ε η) α)
  | [], _ => []
  | op :: ops, c => (perform exec op c).1 :: outcomes ops (perform exec op c).2

/-- The database refuses a statement of the operation. -/
def Refused (op : Script σ ρ ε α) (c : Connection δ) : Prop :=
  ∃ e, (perform exec op c).1 = .error (.refused e)

/-- **Failure isolation.** Wherever an operation raises because a statement failed, the operations
after it answer and commit what they would have if it had never run.

What is compared is the outcome of each operation behind the refused one, and what is committed at
the end. -/
def Isolated (c : Connection δ) (ops : List (Script σ ρ ε α)) : Prop :=
  ∀ pre op post, ops = pre ++ op :: post → Refused exec op (after exec pre c) →
    outcomes exec post (after exec (pre ++ [op]) c) = outcomes exec post (after exec pre c) ∧
      (after exec (pre ++ op :: post) c).committed = (after exec (pre ++ post) c).committed

variable {exec}

theorem after_append (pre post : List (Script σ ρ ε α)) (c : Connection δ) :
    after exec (pre ++ post) c = after exec post (after exec pre c) := by
  induction pre generalizing c with
  | nil => rfl
  | cons op pre ih => exact ih _

/-- Only an aborted transaction refuses a statement unseen. -/
theorem perform_ne_aborted {op : Script σ ρ ε α} {c : Connection δ} (h : c.aborted = false) :
    (perform exec op c).1 ≠ .error .aborted := by
  induction op generalizing c with
  | ret a => nofun
  | commit a => nofun
  | raise e => nofun
  | execute s k ih =>
    rw [perform, h, if_neg Bool.false_ne_true]
    cases exec c.working s with
    | error e => nofun
    | ok answer => exact ih answer.1 rfl

/-- A refused statement aborts the transaction and leaves what is committed. -/
theorem perform_of_refused {op : Script σ ρ ε α} {c : Connection δ} (h : Refused exec op c) :
    c.aborted = false ∧ (perform exec op c).2.aborted = true ∧
      (perform exec op c).2.committed = c.committed := by
  induction op generalizing c with
  | ret a => obtain ⟨e, he⟩ := h; cases he
  | commit a => obtain ⟨e, he⟩ := h; cases he
  | raise e => obtain ⟨e, he⟩ := h; cases he
  | execute s k ih =>
    obtain ⟨e, he⟩ := h
    cases hc : c.aborted with
    | true =>
      rw [perform, hc, if_pos rfl] at he
      cases he
    | false =>
      rw [perform, hc, if_neg Bool.false_ne_true] at he ⊢
      cases hexec : exec c.working s with
      | error e' => exact ⟨rfl, rfl, rfl⟩
      | ok answer =>
        rw [hexec] at he
        obtain ⟨-, haborted, hcommitted⟩ := ih answer.1 (c := ⟨c.committed, answer.2, false⟩) ⟨e, he⟩
        exact ⟨rfl, haborted, hcommitted⟩

/-- In an aborted transaction an operation that sends a statement raises. -/
theorem perform_of_aborted {op : Script σ ρ ε α} {c : Connection δ} (hop : op.executes = true)
    (hc : c.aborted = true) : perform exec op c = (.error .aborted, c) := by
  cases op with
  | execute s k => rw [perform, hc, if_pos rfl]
  | ret a => cases hop
  | commit a => cases hop
  | raise e => cases hop

variable (exec) in
/-- An operation that sends nothing answers the same on every connection and leaves it alone. -/
theorem perform_of_silent {op : Script σ ρ ε α} (hop : op.executes = false)
    (hbare : op.bareCommit = false) :
    ∃ answer, ∀ c : Connection δ, perform exec op c = (answer, c) := by
  cases op with
  | execute s k => cases hop
  | commit a => cases hbare
  | ret a => exact ⟨_, fun _ => rfl⟩
  | raise e => exact ⟨_, fun _ => rfl⟩

/-- Operations that send nothing answer the same on every connection and leave it alone. -/
theorem run_of_silent {ops : List (Script σ ρ ε α)} (hsilent : ∀ q ∈ ops, q.executes = false)
    (hbare : ∀ q ∈ ops, q.bareCommit = false) (c c' : Connection δ) :
    outcomes exec ops c = outcomes exec ops c' ∧ after exec ops c = c := by
  induction ops with
  | nil => exact ⟨rfl, rfl⟩
  | cons q ops ih =>
    obtain ⟨hq, hrest⟩ := List.forall_mem_cons.mp hsilent
    obtain ⟨hbq, hbrest⟩ := List.forall_mem_cons.mp hbare
    obtain ⟨answer, hanswer⟩ := perform_of_silent exec hq hbq
    obtain ⟨hsame, hafter⟩ := ih hrest hbrest
    simp only [outcomes, after, hanswer]
    exact ⟨congrArg _ hsame, hafter⟩

/-- No operation ends an aborted transaction, save a commit without a statement. -/
theorem after_of_aborted {ops : List (Script σ ρ ε α)} (hbare : ∀ q ∈ ops, q.bareCommit = false)
    {c : Connection δ} (hc : c.aborted = true) : after exec ops c = c := by
  induction ops with
  | nil => rfl
  | cons q ops ih =>
    obtain ⟨hbq, hbrest⟩ := List.forall_mem_cons.mp hbare
    have hq : (perform exec q c).2 = c := by
      cases hexec : q.executes with
      | true => rw [perform_of_aborted hexec hc]
      | false =>
        obtain ⟨answer, hanswer⟩ := perform_of_silent exec hexec hbq
        rw [hanswer]
    rw [after, hq]
    exact ih hbrest

/-- Operations that answer the same in an aborted transaction as in one that is not send nothing. -/
theorem silent_of_outcomes_eq {ops : List (Script σ ρ ε α)}
    (hbare : ∀ q ∈ ops, q.bareCommit = false) {c c' : Connection δ} (hc : c.aborted = true)
    (hc' : c'.aborted = false) (hsame : outcomes exec ops c = outcomes exec ops c') :
    ∀ q ∈ ops, q.executes = false := by
  induction ops with
  | nil => nofun
  | cons q ops ih =>
    obtain ⟨hbq, hbrest⟩ := List.forall_mem_cons.mp hbare
    obtain ⟨hhead, htail⟩ := List.cons_eq_cons.mp hsame
    have hq : q.executes = false := by
      by_contra hexec
      rw [perform_of_aborted (by simpa using hexec) hc] at hhead
      exact perform_ne_aborted hc' hhead.symm
    obtain ⟨answer, hanswer⟩ := perform_of_silent exec hq hbq
    rw [hanswer, hanswer] at htail
    exact List.forall_mem_cons.mpr ⟨hq, ih hbrest htail⟩

/-- **The exact condition.** A list of operations that do not commit without a statement is isolated
from its failures exactly when nothing is sent after one. Isolation fails at the first statement
after a failure already, since an aborted transaction refuses it whatever it is; so no assumption on
the statements is needed. -/
theorem isolated_iff {c : Connection δ} {ops : List (Script σ ρ ε α)}
    (hbare : ∀ q ∈ ops, q.bareCommit = false) :
    Isolated exec c ops ↔ ∀ pre op post, ops = pre ++ op :: post →
      Refused exec op (after exec pre c) → ∀ q ∈ post, q.executes = false := by
  have hpost : ∀ {pre : List (Script σ ρ ε α)} {op post}, ops = pre ++ op :: post →
      ∀ q ∈ post, q.bareCommit = false := by
    rintro pre op post rfl q hq
    exact hbare q (List.mem_append_right _ (List.mem_cons_of_mem _ hq))
  constructor
  · intro hiso pre op post hops hrefused
    obtain ⟨hopen, haborted, -⟩ := perform_of_refused hrefused
    have hsame := (hiso pre op post hops hrefused).1
    rw [after_append] at hsame
    exact silent_of_outcomes_eq (hpost hops) haborted hopen hsame
  · intro hsilent pre op post hops hrefused
    obtain ⟨-, -, hcommitted⟩ := perform_of_refused hrefused
    have hq := hsilent pre op post hops hrefused
    rw [after_append, after_append, after_append]
    refine ⟨(run_of_silent hq (hpost hops) _ _).1, ?_⟩
    rw [(run_of_silent hq (hpost hops) _ (after exec pre c)).2, after,
      (run_of_silent hq (hpost hops) _ (after exec pre c)).2]
    exact hcommitted

end Run

end Lib
