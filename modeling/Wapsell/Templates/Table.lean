import Wapsell.Postgres.Operations
import Wapsell.Resources.Postgres
import Wapsell.Templates.Repository

/-!
# The table `message_templates`

What Postgres does with the statements of `PostgresTemplateRepository`,
under the constraints of
`infra/postgres/migrations/006_message_templates.sql`. The constraints are
fields of the table, and a statement that would break one is refused with
an error of the database.

An UPDATE writes the columns of its SET clause, so the tenant and the
time of creation of a stored row stay whatever the template says that is
handed in.

The pre-check that the docstring of `add` promises is not in its code,
so the constraint is all that keeps a key unique here, and what the
caller sees is the database's error.
-/

namespace Wapsell.Templates

open Lib Py Postgres Resources

/-- The rows, under their constraints. -/
structure Table where
  rows : Repository := Dict.empty
  /-- `id TEXT PRIMARY KEY`. -/
  rowId : ∀ k row, rows.get? k = some row → row.id = k
  /-- `UNIQUE (tenant_id, name, language)`. -/
  unique : KeysUnique rows

namespace Table

/-- No rows. -/
def empty : Table where
  rowId _ _ h := by cases h
  unique _ _ _ _ _ h := by cases h

/-- The key is held by no row but the one under the id. -/
def KeyFree (table : Table) (id : String) (row : MessageTemplate) : Prop :=
  ∀ existing ∈ table.rows.values, key existing = key row → existing.id = id

instance (table : Table) (id : String) (row : MessageTemplate) : Decidable (table.KeyFree id row) :=
  inferInstanceAs (Decidable (∀ existing ∈ table.rows.values, _))

theorem keyFree_iff {table : Table} {id : String} {row : MessageTemplate} :
    table.KeyFree id row ↔ KeysUnique (table.rows.set id row) := by
  rw [keysUnique_set_iff table.unique]
  constructor
  · intro h k existing hk hkey
    have hid := h existing (Dict.mem_values_iff.mpr ⟨k, hk⟩) hkey
    exact (table.rowId k existing hk).symm.trans hid
  · intro h existing hmem hkey
    obtain ⟨k, hk⟩ := Dict.mem_values_iff.mp hmem
    exact (table.rowId k existing hk).trans (h k existing hk hkey)

/-- A row written under its id. -/
def write (table : Table) (row : MessageTemplate) (hfree : table.KeyFree row.id row) : Table where
  rows := table.rows.set row.id row
  rowId := Dict.Forall.set table.rowId rfl
  unique := keyFree_iff.mp hfree

/-- `_INSERT_SQL`. -/
def insert (table : Table) (template : MessageTemplate) : Except Violation Table :=
  if (table.rows.get? template.id).isSome then .error .primaryKey
  else if hfree : table.KeyFree template.id template then .ok (table.write template hfree)
  else .error .uniqueKey

/-- The row `_UPDATE_SQL` makes of the stored one: its tenant and its creation time stay. -/
def merged (stored template : MessageTemplate) : MessageTemplate :=
  { template with id := stored.id, tenantId := stored.tenantId, createdAt := stored.createdAt }

/-- `_UPDATE_SQL`. -/
def update (table : Table) (template : MessageTemplate) : Except Violation Table :=
  match table.rows.get? template.id with
  | none => .ok table
  | some stored =>
    if hfree : table.KeyFree stored.id (merged stored template) then
      .ok (table.write (merged stored template) hfree)
    else .error .uniqueKey

/-- `_DELETE_SQL`. -/
def delete (table : Table) (templateId : String) : Table where
  rows := table.rows.erase templateId
  rowId := Dict.Forall.erase table.rowId templateId
  unique := table.unique.erase templateId

/-- The statements on the table. -/
def exec (table : Table) : Statement → Except Violation (List Row × Table)
  | .templates (.insert template) => do
    let table' ← table.insert template
    pure ([], table')
  | .templates (.selectById templateId) =>
    pure ((table.rows.get? templateId).toList.map .template, table)
  | .templates (.listByTenant tenantId) =>
    pure ((table.rows.listFor tenantId).map .template, table)
  | .templates (.selectExists templateId) =>
    pure ((table.rows.get? templateId).toList.map fun _ => .one, table)
  | .templates (.update template) => do
    let table' ← table.update template
    pure ([], table')
  | .templates (.delete templateId) => pure ([], table.delete templateId)
  | _ => pure ([], table)

end Table

end Wapsell.Templates
