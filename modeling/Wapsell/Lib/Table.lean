import Mathlib.Data.List.Nodup
import Mathlib.Data.List.Perm.Basic

/-!
# Tables with a primary key

A table is a list of rows, no two with one key. `INSERT ... ON CONFLICT DO
UPDATE`, `DELETE` and the lookup by the key are on it what assignment,
removal and lookup are on a function of the keys; `ORDER BY` leaves the
order of equal rows open, so what a query answers is a relation.

A table differs from a dictionary in two ways that matter for what is
stated of an adapter. Its INSERT refuses where a dictionary replaces,
and its rows come in no order of their own; a listing without an ORDER
BY, or with ties in it, may come in any. So the laws are stated over the
lookup by the key, and a listing is only ever related to the rows it
selects.
-/

namespace Lib

variable {α κ : Type*} [DecidableEq κ]

/-- The rows of a table under their keys. That no two rows have one key is a field, since the
database keeps it whatever is sent. -/
structure Table (key : α → κ) where
  rows : List α
  keyed : (rows.map key).Nodup

namespace Table

variable {key : α → κ}

/-- No rows. -/
def empty : Table key := ⟨[], List.nodup_nil⟩

/-- `SELECT ... WHERE key = %s`. -/
def get? (table : Table key) (k : κ) : Option α := table.rows.find? fun r => key r = k

/-- `DELETE ... WHERE key = %s`. -/
def delete (table : Table key) (k : κ) : Table key where
  rows := table.rows.filter fun r => key r ≠ k
  keyed := (List.filter_sublist.map key).nodup table.keyed

/-- `INSERT`, which the database refuses where the key is taken. The refusal leaves the table as it
is; what becomes of the transaction is not said here. -/
def insert (table : Table key) (row : α) : Option (Table key) :=
  if h : key row ∈ table.rows.map key then none
  else some
    { rows := table.rows ++ [row]
      keyed := by
        rw [List.map_append]
        refine List.nodup_append.mpr ⟨table.keyed, List.nodup_singleton _, ?_⟩
        intro k hk k' hk' heq
        cases List.mem_singleton.mp hk'
        exact h (heq ▸ hk) }

/-- `UPDATE ... WHERE key = %s`, of columns outside the key. -/
def update (table : Table key) (k : κ) (f : α → α) (hf : ∀ r, key (f r) = key r) : Table key where
  rows := table.rows.map fun r => if key r = k then f r else r
  keyed := by
    have hkeys : (table.rows.map fun r => if key r = k then f r else r).map key =
        table.rows.map key := by
      rw [List.map_map]
      refine List.map_congr_left fun r _ => ?_
      dsimp only [Function.comp_apply]
      split
      · exact hf r
      · rfl
    rw [hkeys]
    exact table.keyed

/-- `INSERT ... ON CONFLICT (key) DO UPDATE`, of columns outside the key. -/
def upsert (table : Table key) (row : α) (f : α → α) (hf : ∀ r, key (f r) = key r) : Table key :=
  (table.insert row).getD (table.update (key row) f hf)

/-- The rows a `WHERE` selects, in an order that `ORDER BY` allows. Where the order leaves ties, any
arrangement of them is an answer. -/
def Selects (table : Table key) (p : α → Bool) (before : α → α → Prop) (rows : List α) : Prop :=
  rows.Perm (table.rows.filter p) ∧ rows.Pairwise before

variable {table : Table key}

@[simp] theorem get?_empty (k : κ) : (empty : Table key).get? k = none := rfl

theorem get?_eq_some_iff {k : κ} {r : α} : table.get? k = some r ↔ r ∈ table.rows ∧ key r = k := by
  rw [get?]
  constructor
  · intro h
    have hkey := List.find?_some h
    exact ⟨List.mem_of_find?_eq_some h, of_decide_eq_true hkey⟩
  · rintro ⟨hmem, rfl⟩
    cases hfind : table.rows.find? fun r' => key r' = key r with
    | none =>
      have hno := List.find?_eq_none.mp hfind r hmem
      exact absurd (decide_eq_true rfl) hno
    | some r' =>
      have hmem' := List.mem_of_find?_eq_some hfind
      have hkey := List.find?_some hfind
      rw [List.inj_on_of_nodup_map table.keyed hmem' hmem (of_decide_eq_true hkey)]

theorem get?_eq_none_iff {k : κ} : table.get? k = none ↔ k ∉ table.rows.map key := by
  rw [get?, List.find?_eq_none, List.mem_map]
  constructor
  · rintro h ⟨r, hr, hkey⟩
    exact h r hr (decide_eq_true hkey)
  · intro h r hr hkey
    exact h ⟨r, hr, of_decide_eq_true hkey⟩

theorem ext_get? {o : Option α} {k : κ} (h : ∀ r, table.get? k = some r ↔ o = some r) :
    table.get? k = o := Option.ext h

theorem get?_delete (k k' : κ) :
    (table.delete k).get? k' = if k' = k then none else table.get? k' := by
  refine ext_get? fun r => ?_
  rw [get?_eq_some_iff, delete, List.mem_filter, decide_eq_true_eq]
  split
  next heq =>
    refine iff_of_false ?_ (fun h => by cases h)
    rintro ⟨⟨-, hne⟩, hkey⟩
    exact hne (hkey.trans heq)
  next hne =>
    rw [get?_eq_some_iff]
    constructor
    · rintro ⟨⟨hmem, -⟩, hkey⟩
      exact ⟨hmem, hkey⟩
    · rintro ⟨hmem, rfl⟩
      exact ⟨⟨hmem, hne⟩, rfl⟩

theorem insert_eq_none_iff {row : α} : table.insert row = none ↔ ∃ r, table.get? (key row) = some r := by
  rw [← Option.isSome_iff_exists, ← Option.not_isNone, Bool.not_eq_true', Bool.eq_false_iff, ne_eq,
    Option.isNone_iff_eq_none, get?_eq_none_iff, not_not, insert]
  split
  next h => exact iff_of_true rfl h
  next h => exact iff_of_false (fun hc => by cases hc) h

theorem get?_insert {row : α} {k₀ : κ} (hrow : key row = k₀) {table' : Table key}
    (h : table.insert row = some table') (k : κ) :
    table'.get? k = if k = k₀ then some row else table.get? k := by
  subst hrow
  rw [insert] at h
  split at h
  · cases h
  next hfree =>
    cases h
    refine ext_get? fun r => ?_
    rw [get?_eq_some_iff, List.mem_append, List.mem_singleton]
    split
    next heq =>
      cases heq
      rw [Option.some.injEq]
      constructor
      · rintro ⟨hmem | rfl, hkey⟩
        · exact absurd (List.mem_map.mpr ⟨r, hmem, hkey⟩) hfree
        · rfl
      · rintro rfl
        exact ⟨.inr rfl, rfl⟩
    next hne =>
      rw [get?_eq_some_iff]
      constructor
      · rintro ⟨hmem | rfl, hkey⟩
        · exact ⟨hmem, hkey⟩
        · exact absurd hkey.symm hne
      · rintro ⟨hmem, hkey⟩
        exact ⟨.inl hmem, hkey⟩

theorem get?_update (k : κ) {f : α → α} (hf : ∀ r, key (f r) = key r) (k' : κ) :
    (table.update k f hf).get? k' =
      if k' = k then (table.get? k).map f else table.get? k' := by
  refine ext_get? fun r => ?_
  rw [get?_eq_some_iff, update, List.mem_map]
  split
  next heq =>
    subst heq
    rw [Option.map_eq_some_iff]
    constructor
    · rintro ⟨⟨r', hmem, rfl⟩, hkey⟩
      by_cases hr' : key r' = k'
      · rw [if_pos hr']
        exact ⟨r', get?_eq_some_iff.mpr ⟨hmem, hr'⟩, rfl⟩
      · rw [if_neg hr'] at hkey
        exact absurd hkey hr'
    · rintro ⟨r', hget, rfl⟩
      obtain ⟨hmem, hkey⟩ := get?_eq_some_iff.mp hget
      exact ⟨⟨r', hmem, if_pos hkey⟩, (hf r').trans hkey⟩
  next hne =>
    rw [get?_eq_some_iff]
    constructor
    · rintro ⟨⟨r', hmem, rfl⟩, hkey⟩
      by_cases hr' : key r' = k
      · rw [if_pos hr', hf r', hr'] at hkey
        exact absurd hkey.symm hne
      · rw [if_neg hr'] at hkey ⊢
        exact ⟨hmem, hkey⟩
    · rintro ⟨hmem, rfl⟩
      exact ⟨⟨r, hmem, if_neg hne⟩, rfl⟩

/-- The row under the key after an upsert is the inserted one or the old one brought up to date. -/
theorem get?_upsert {row : α} {k₀ : κ} (hrow : key row = k₀) {f : α → α}
    (hf : ∀ r, key (f r) = key r) (k : κ) :
    (table.upsert row f hf).get? k =
      if k = k₀ then some ((table.get? k₀).elim row f) else table.get? k := by
  subst hrow
  rw [upsert]
  cases hinsert : table.insert row with
  | none =>
    obtain ⟨r, hr⟩ := insert_eq_none_iff.mp hinsert
    rw [Option.getD_none, get?_update, hr]
    rfl
  | some table' =>
    have hnone : table.get? (key row) = none := by
      rw [Option.eq_none_iff_forall_ne_some]
      intro r hr
      rw [insert_eq_none_iff.mpr ⟨r, hr⟩] at hinsert
      cases hinsert
    rw [Option.getD_some, get?_insert rfl hinsert, hnone]
    rfl

/-- A selected row is a row of the table that the test passes. -/
theorem Selects.mem {p : α → Bool} {before : α → α → Prop} {rows : List α}
    (h : table.Selects p before rows) {r : α} : r ∈ rows ↔ table.get? (key r) = some r ∧ p r = true := by
  rw [h.1.mem_iff, List.mem_filter, get?_eq_some_iff]
  exact and_congr_left' (and_iff_left rfl).symm

omit [DecidableEq κ] in
/-- No row is selected twice. -/
theorem Selects.nodup {p : α → Bool} {before : α → α → Prop} {rows : List α}
    (h : table.Selects p before rows) : (rows.map key).Nodup :=
  (h.1.map key).nodup_iff.mpr ((List.filter_sublist.map key).nodup table.keyed)

end Table

end Lib
