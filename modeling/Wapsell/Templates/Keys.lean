import Wapsell.Lib.Run
import Wapsell.Api.Templates
import Wapsell.Templates.Table

/-!
# One template for each key

Meta allows one template for each tenant, name and language. `add` of the
in-memory repository looks for the key and raises `ValueError`; `update`
does not look, so a rename may take a key that is held. In Postgres the
constraint holds whatever happens, but the write that would break it raises
an error of the database and leaves the transaction aborted. So each
adapter keeps its word exactly in the runs in which no such write is tried.

The conditions are on the call and the rows before it. `RenamesFree` is
the weaker of the two: in memory an `add` of a held key raises
`ValueError`, and in Postgres an error of the database, although the
comment beside that `add` promises a check before the INSERT.

What this does not establish: that Meta accepts a template. Its own
check of the key is not a part of the repository.
-/

namespace Wapsell.Templates

open Lib Py Postgres Resources Api

/-! ## What is asked of a write -/

/-- The row a call writes, when it writes one; `merge` is what an update makes of the stored row. -/
def writtenRow (merge : MessageTemplate → MessageTemplate → MessageTemplate) (rows : Repository) :
    TemplateCall → Option MessageTemplate
  | .add template => some template
  | .update template => (rows.get? template.id).map fun stored => merge stored template
  | _ => none

/-- The write would leave two templates with one key.

An add under an id that is stored counts as a replacement of the stored row here, because that is
what the dictionary makes of it. The table refuses it by the primary key whatever its key is, so
there the question does not arise; and no route asks it, since every new template draws a fresh
id. -/
def WouldBreak (merge : MessageTemplate → MessageTemplate → MessageTemplate) (rows : Repository)
    (call : TemplateCall) : Prop :=
  ∃ row, writtenRow merge rows call = some row ∧ ¬ KeysUnique (rows.set row.id row)

/-- No other template holds the key the call writes. -/
def KeyFree (merge : MessageTemplate → MessageTemplate → MessageTemplate) (rows : Repository)
    (call : TemplateCall) : Prop :=
  ∀ row, writtenRow merge rows call = some row →
    ∀ k other, rows.get? k = some other → key other = key row → k = row.id

theorem wouldBreak_iff {merge : MessageTemplate → MessageTemplate → MessageTemplate}
    {rows : Repository} (h : KeysUnique rows) {call : TemplateCall} :
    WouldBreak merge rows call ↔ ¬ KeyFree merge rows call := by
  simp only [WouldBreak, KeyFree, keysUnique_set_iff h]
  push Not
  rfl

/-! ## The in-memory adapter -/

/-- What the in-memory update makes of the stored row: the new one. -/
def replaced (_stored template : MessageTemplate) : MessageTemplate := template

/-- A call on the in-memory repository: what it answers or raises, and the store after it. -/
def inMemory (repo : Repository) : TemplateCall → Except Raised Value × Repository
  | .add template =>
    match repo.add template with
    | .error message => (.error ⟨.valueError, message⟩, repo)
    | .ok repo' => (.ok (.row (some (.template template))), repo')
  | .get templateId => (.ok (.row ((repo.get templateId).map .template)), repo)
  | .listFor tenantId => (.ok (.rows ((repo.listFor tenantId).map .template)), repo)
  | .update template =>
    match repo.update template with
    | .error e => (.error ⟨e, s!"unknown template: {template.id}"⟩, repo)
    | .ok repo' => (.ok (.row (some (.template template))), repo')
  | .delete templateId =>
    let (found, repo') := repo.delete templateId
    (.ok (.flag found), repo')

/-- The next call. -/
def memoryStep (repo : Repository) (call : TemplateCall) : Option Repository :=
  some (inMemory repo call).2

/-- A call that would break the key raises `ValueError` and changes nothing. -/
def Guards (repo : Repository) (call : TemplateCall) : Prop :=
  WouldBreak replaced repo call →
    (∃ message, (inMemory repo call).1 = .error ⟨.valueError, message⟩) ∧
      (inMemory repo call).2 = repo

/-- An update takes no key that another template holds. An `add` may try, since it looks. -/
def RenamesFree (repo : Repository) (call : TemplateCall) : Prop :=
  match call with
  | .update _ => KeyFree replaced repo call
  | _ => True

theorem keysUnique_memoryStep_iff {repo repo' : Repository} {call : TemplateCall}
    (h : KeysUnique repo) (hstep : memoryStep repo call = some repo') :
    KeysUnique repo' ↔ RenamesFree repo call := by
  cases hstep
  cases call with
  | add template =>
    refine iff_of_true ?_ trivial
    rw [inMemory]
    cases hadd : repo.add template with
    | error message => exact h
    | ok repo' =>
      obtain ⟨hfree, rfl⟩ := add_eq_ok.mp hadd
      exact (keysUnique_set_iff h).mpr fun k row hk hrow => absurd hrow (hfree k row hk)
  | get templateId => exact iff_of_true h trivial
  | listFor tenantId => exact iff_of_true h trivial
  | delete templateId => exact iff_of_true (h.erase templateId) trivial
  | update template =>
    show KeysUnique _ ↔ KeyFree replaced repo (.update template)
    rw [inMemory, Repository.update, KeyFree, writtenRow]
    cases hstored : repo.get? template.id with
    | none => exact iff_of_true h fun row hrow => by cases hrow
    | some stored =>
      rw [Option.isSome_some, if_pos rfl, Option.map_some]
      refine (keysUnique_set_iff h).trans ⟨fun hfree row hrow => ?_, fun hfree => hfree _ rfl⟩
      cases hrow
      exact hfree

/-- With unique keys, only an update can fail to guard. -/
theorem guards_of_renamesFree {repo : Repository} {call : TemplateCall} (h : KeysUnique repo)
    (hfree : RenamesFree repo call) : Guards repo call := by
  intro hbreaks
  have hnot := (wouldBreak_iff h).mp hbreaks
  cases call with
  | add template =>
    cases hadd : repo.add template with
    | error message =>
      rw [show inMemory repo (.add template) = (.error ⟨.valueError, message⟩, repo) by
        rw [inMemory, hadd]]
      exact ⟨⟨message, rfl⟩, rfl⟩
    | ok repo' =>
      obtain ⟨huntaken, -⟩ := add_eq_ok.mp hadd
      refine absurd (fun row hrow k other hk hkey => ?_) hnot
      cases hrow
      exact absurd hkey (huntaken k other hk)
  | update template => exact absurd hfree hnot
  | get | listFor | delete => exact absurd (fun row hrow => by cases hrow) hnot

/-- **In memory**: the keys stay unique and every write that would break them raises exactly when no
update takes a key that is held.

The two parts of the left side fail at the same step: an update that takes a held key raises
nothing, and leaves two templates with it. -/
theorem memory_keys_iff (calls : List TemplateCall) :
    (EachState memoryStep KeysUnique Dict.empty calls ∧ EachStep memoryStep Guards Dict.empty calls) ↔
      EachStep memoryStep RenamesFree Dict.empty calls := by
  have hempty : KeysUnique Dict.empty := fun _ _ _ _ _ h => by cases h
  have hstates : EachState memoryStep KeysUnique Dict.empty calls ↔
      EachStep memoryStep RenamesFree Dict.empty calls :=
    eachState_iff_eachStep (I := fun _ => True) (fun _ _ _ _ _ _ => trivial)
      (fun _ _ _ _ h hstep => keysUnique_memoryStep_iff h hstep) trivial hempty
  constructor
  · exact fun h => hstates.mp h.1
  · intro h
    exact ⟨hstates.mpr h,
      EachStep.of_eachState (fun _ _ => guards_of_renamesFree) (hstates.mpr h) h⟩

/-! ## The Postgres adapter -/

/-- A call on the connection. -/
def onConnection (c : Connection Table) (call : TemplateCall) :
    Except (Failure Raised Violation) Value × Connection Table :=
  perform Table.exec call.script c

/-- The next call. -/
def connectionStep (c : Connection Table) (call : TemplateCall) : Option (Connection Table) :=
  some (onConnection c call).2

/-- A call that would break the key raises `ValueError` and leaves the connection as it was. An
error of the database is no `ValueError`, and aborts the transaction besides. -/
def GuardsConnection (c : Connection Table) (call : TemplateCall) : Prop :=
  WouldBreak Table.merged c.working.rows call →
    (∃ message, (onConnection c call).1 = .error (.own ⟨.valueError, message⟩)) ∧
      (onConnection c call).2 = c

/-- No method of the adapter raises `ValueError`. -/
theorem onConnection_ne_valueError (c : Connection Table) (call : TemplateCall) (message : String) :
    (onConnection c call).1 ≠ .error (.own ⟨.valueError, message⟩) := by
  have hwrite : ∀ (s : Statement) (v : Value) (c : Connection Table),
      (perform Table.exec (write s v) c).1 ≠ .error (.own ⟨.valueError, message⟩) := by
    intro s v c
    rw [write, perform]
    intro h
    split at h
    · cases h
    · split at h <;> cases h
  cases call with
  | add template => exact hwrite _ _ c
  | get | listFor =>
    simp only [onConnection, TemplateCall.script, fetchOne, fetchAll, perform]
    intro h
    split at h
    · cases h
    · split at h <;> cases h
  | update template =>
    simp only [onConnection, TemplateCall.script, guarded, perform]
    intro h
    split at h
    · cases h
    · split at h
      · split at h
        · cases h
        · exact hwrite _ _ _ h
      · cases h
  | delete templateId =>
    simp only [onConnection, TemplateCall.script, guarded, perform]
    intro h
    split at h
    · cases h
    · split at h
      · split at h
        · cases h
        · exact hwrite _ _ _ h
      · cases h

/-- A write that would break the key is never met by a `ValueError`. -/
theorem guardsConnection_iff (c : Connection Table) (call : TemplateCall) :
    GuardsConnection c call ↔ KeyFree Table.merged c.working.rows call := by
  constructor
  · intro h
    by_contra hnot
    obtain ⟨⟨message, hraised⟩, -⟩ := h ((wouldBreak_iff c.working.unique).mpr hnot)
    exact onConnection_ne_valueError c call message hraised
  · exact fun hfree hbreaks => absurd hfree ((wouldBreak_iff c.working.unique).mp hbreaks)

/-- **In Postgres**: the keys stay unique in every state, and every write that would break them
raises `ValueError` exactly when no write takes a key that is held.

The first part holds in every run, since the constraints are fields of the table; it is the second
that needs the condition. -/
theorem connection_keys_iff (calls : List TemplateCall) :
    (EachState connectionStep (fun c => KeysUnique c.working.rows ∧ KeysUnique c.committed.rows)
        (.opened .empty) calls ∧
      EachStep connectionStep GuardsConnection (.opened .empty) calls) ↔
      EachStep connectionStep (fun c => KeyFree Table.merged c.working.rows) (.opened .empty)
        calls := by
  have hstates : ∀ (calls : List TemplateCall) (c : Connection Table), EachState connectionStep
      (fun c => KeysUnique c.working.rows ∧ KeysUnique c.committed.rows) c calls := by
    intro calls
    induction calls with
    | nil => exact fun c => ⟨c.working.unique, c.committed.unique⟩
    | cons call rest ih => exact fun c => ⟨⟨c.working.unique, c.committed.unique⟩, fun s _ => ih s⟩
  constructor
  · exact fun h => EachStep.mono (fun c call => (guardsConnection_iff c call).mp) h.2
  · exact fun h => ⟨hstates _ _, EachStep.mono (fun c call => (guardsConnection_iff c call).mpr) h⟩

/-! ## Both adapters -/

/-- **Template keys.** Each adapter keeps the keys unique and meets every write that would break
them with a `ValueError`, nothing changed, exactly in the runs without such a write, but that an
`add` in memory may be one. There the `ValueError` is what `create_template` answers with 409.

The third part needs no run: it says of any repository when `create_template` answers 409. -/
theorem template_keys_iff (calls : List TemplateCall) :
    (EachState memoryStep KeysUnique Dict.empty calls ∧
        EachStep memoryStep Guards Dict.empty calls ↔
      EachStep memoryStep RenamesFree Dict.empty calls) ∧
    (EachState connectionStep
          (fun c => KeysUnique c.working.rows ∧ KeysUnique c.committed.rows) (.opened .empty) calls ∧
        EachStep connectionStep GuardsConnection (.opened .empty) calls ↔
      EachStep connectionStep (fun c => KeyFree Table.merged c.working.rows) (.opened .empty) calls) ∧
    ∀ required caller (tenants : Tenants.Repository) repo draw tenantId req,
      (∃ detail, createTemplate required caller tenants repo draw tenantId req =
          .error ⟨409, detail⟩) ↔
        (∃ user, assertTenantAccess required caller tenantId = .ok user) ∧
          (∃ tenant, tenants.get tenantId = some tenant) ∧
            ∃ k row, repo.get? k = some row ∧ key row = (tenantId, req.name, req.language) :=
  ⟨memory_keys_iff calls, connection_keys_iff calls,
    fun _ _ _ _ _ _ _ => createTemplate_conflict_iff⟩

/-- A greeting of the shop. -/
private def greeting (id name : String) : MessageTemplate where
  id
  tenantId := "acme"
  name
  body := "Hola"
  createdAt := 0

/-- The second is renamed to the name of the first. -/
private def renamed : List TemplateCall :=
  [.add (greeting "t1" "hola"), .add (greeting "t2" "chau"), .update (greeting "t2" "hola")]

/-- The name is used again. -/
private def addedTwice : List TemplateCall :=
  [.add (greeting "t1" "hola"), .add (greeting "t2" "hola")]

/-- In memory a rename takes the key; in Postgres the second `add` is refused by the database. -/
theorem not_template_keys :
    (¬ ∀ calls, EachState memoryStep KeysUnique Dict.empty calls ∧
      EachStep memoryStep Guards Dict.empty calls) ∧
    ¬ ∀ calls, EachState connectionStep
        (fun c => KeysUnique c.working.rows ∧ KeysUnique c.committed.rows) (.opened .empty) calls ∧
      EachStep connectionStep GuardsConnection (.opened .empty) calls := by
  constructor
  · intro h
    have hrun : run memoryStep Dict.empty renamed = some _ := run_eq_some_reached (by decide)
    have hlast := (h renamed).1.last hrun
    have hsame := hlast "t1" "t2" _ _ _ rfl rfl rfl rfl
    exact absurd hsame (by decide)
  · intro h
    have hstep := ((h addedTwice).2 _ rfl).2 _ rfl
    obtain ⟨⟨message, hraised⟩, -⟩ := hstep.1 ((wouldBreak_iff (Table.unique _)).mpr fun hfree =>
      absurd (hfree _ rfl "t1" _ rfl rfl) (by decide))
    exact onConnection_ne_valueError _ _ message hraised

end Wapsell.Templates
