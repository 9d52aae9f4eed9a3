import Mathlib.Data.List.Sort
import Wapsell.Models
import Wapsell.Py.Number

/-!
# Message templates in memory

`InMemoryTemplateRepository` of `sdk/wapsell/templates/repository.py`.

`add` checks the key and nothing else, so a second template under one id
takes the place of the first. `update` checks the id and nothing else,
so it can bring one template to the key of another. What follows from
the two for whole runs is said with the lifecycle.
-/

namespace Wapsell.Templates

open Lib Py

/-- Meta's key: `(tenant_id, name, language)`.

The id is no part of it, so nothing in the type keeps a key from standing under two ids. -/
def key (template : MessageTemplate) : String × String × String :=
  (template.tenantId, template.name, template.language)

/-- `_by_id`. -/
abbrev Repository := Dict String MessageTemplate

/-- The text of the `ValueError` of `add`. -/
def alreadyExists (template : MessageTemplate) : String :=
  s!"template '{template.name}' for language '{template.language}' " ++
    "already exists in this tenant"

namespace Repository

/-- `add`, or the text of its `ValueError`. -/
def add (repo : Repository) (template : MessageTemplate) : Except String Repository :=
  if repo.values.any fun existing => key existing = key template then
    .error (alreadyExists template)
  else .ok (repo.set template.id template)

/-- `get`. -/
def get (repo : Repository) (templateId : String) : Option MessageTemplate := repo.get? templateId

/-- `list_for`. -/
def listFor (repo : Repository) (tenantId : String) : List MessageTemplate :=
  (repo.values.filter fun t => t.tenantId = tenantId).insertionSort fun a b =>
    b.createdAt ≤ a.createdAt

/-- `update`. -/
def update (repo : Repository) (template : MessageTemplate) : Except Exc Repository :=
  if (repo.get? template.id).isSome then .ok (repo.set template.id template) else .error .keyError

/-- `delete`: whether the template was there. -/
def delete (repo : Repository) (templateId : String) : Bool × Repository :=
  ((repo.get? templateId).isSome, repo.erase templateId)

end Repository

/-- No two templates share a key. It is what the unique index of the table says, as a statement
about the dictionary. -/
def KeysUnique (rows : Repository) : Prop := rows.Unique fun template => some (key template)

theorem add_eq_ok {repo repo' : Repository} {template : MessageTemplate} :
    repo.add template = .ok repo' ↔
      (∀ k row, repo.get? k = some row → key row ≠ key template) ∧
        repo' = repo.set template.id template := by
  have hany : (repo.values.any fun existing => decide (key existing = key template)) = true ↔
      ∃ k row, repo.get? k = some row ∧ key row = key template := by
    rw [List.any_eq_true]
    constructor
    · rintro ⟨row, hmem, hrow⟩
      obtain ⟨k, hk⟩ := Dict.mem_values_iff.mp hmem
      exact ⟨k, row, hk, of_decide_eq_true hrow⟩
    · rintro ⟨k, row, hk, hrow⟩
      exact ⟨row, Dict.mem_values_iff.mpr ⟨k, hk⟩, decide_eq_true hrow⟩
  unfold Repository.add
  split
  · next htaken =>
    obtain ⟨k, row, hk, hrow⟩ := hany.mp htaken
    exact iff_of_false (fun h => by cases h) fun h => h.1 k row hk hrow
  · next hfree =>
    constructor
    · intro h
      cases h
      exact ⟨fun k row hk hrow => hfree (hany.mpr ⟨k, row, hk, hrow⟩), rfl⟩
    · rintro ⟨-, rfl⟩
      rfl

/-- An `add` that raises says which key is taken. -/
theorem add_eq_error {repo : Repository} {template : MessageTemplate} {message : String} :
    repo.add template = .error message ↔
      (∃ k row, repo.get? k = some row ∧ key row = key template) ∧
        message = alreadyExists template := by
  cases hadd : repo.add template with
  | ok repo' =>
    obtain ⟨hfree, -⟩ := add_eq_ok.mp hadd
    exact iff_of_false (fun h => by cases h) fun ⟨⟨k, row, hk, hrow⟩, _⟩ => hfree k row hk hrow
  | error e =>
    have he : e = alreadyExists template := by
      unfold Repository.add at hadd
      split at hadd
      · cases hadd
        rfl
      · cases hadd
    have htaken : ∃ k row, repo.get? k = some row ∧ key row = key template := by
      by_contra hfree
      have hok : repo.add template = .ok (repo.set template.id template) := add_eq_ok.mpr
        ⟨fun k row hk hrow => hfree ⟨k, row, hk, hrow⟩, rfl⟩
      rw [hok] at hadd
      cases hadd
    rw [Except.error.injEq, he]
    exact ⟨fun h => ⟨htaken, h.symm⟩, fun h => h.2.symm⟩

/-- Writing a template keeps the keys apart when no other template has its key. -/
theorem keysUnique_set_iff {rows : Repository} (h : KeysUnique rows) {id : String}
    {template : MessageTemplate} : KeysUnique (rows.set id template) ↔
      ∀ k row, rows.get? k = some row → key row = key template → k = id := by
  rw [KeysUnique, h.set_iff]
  constructor
  · intro hset k row hk hrow
    by_contra hne
    exact hset k row (Ne.symm hne) hk _ rfl (congrArg some hrow)
  · intro hset k row hne hk key' hkey hrow
    exact hne (hset k row hk (Option.some.inj (hrow.trans hkey.symm))).symm

end Wapsell.Templates
