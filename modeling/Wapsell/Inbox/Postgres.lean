import Mathlib.Data.List.Sort
import Wapsell.Inbox.Registry
import Wapsell.Lib.Table
import Wapsell.Postgres.Cells

/-!
# Bot pauses in Postgres

`PostgresBotPauseRepository` of `sdk/wapsell/inbox/repository.py` over the
table of `infra/postgres/migrations/009_bot_pauses.sql`. It refines the
registry as the in-memory adapter does, so a program that asks for pauses
cannot tell which of the two it has, the order of a listing apart.

The SELECT lists the pauses by their moment, the latest first, and the
dictionary in the order of its keys. So `Alike` compares the rows of two
listings in whatever order, and everything else for equality.

What this does not establish: that both agree on a clock they read
themselves. The clock is an argument of each call.
-/

namespace Wapsell.Inbox

open Lib Py Postgres

/-- A row of `bot_pauses`; its three columns are NOT NULL. -/
structure PauseRow where
  tenantId : String
  buyerId : String
  pausedUntil : Datetime
  deriving DecidableEq, Repr

namespace PauseRow

/-- The primary key. -/
def key (r : PauseRow) : String × String := (r.tenantId, r.buyerId)

/-- `SET paused_until = EXCLUDED.paused_until`. -/
def setUntil (until_ : Datetime) (r : PauseRow) : PauseRow := { r with pausedUntil := until_ }

theorem key_setUntil (until_ : Datetime) (r : PauseRow) : (r.setUntil until_).key = r.key := rfl

/-- The columns of `_COLS`. -/
def cells (r : PauseRow) : List Cell := [.text r.tenantId, .text r.buyerId, .timestamp r.pausedUntil]

/-- The row as the port hands it out. -/
def toPause (r : PauseRow) : BotPause where
  tenantId := r.tenantId
  buyerId := r.buyerId
  pausedUntil := r.pausedUntil

end PauseRow

/-- `bot_pauses`. -/
abbrev PauseTable := Table PauseRow.key

/-- `_row_to_pause`. -/
def rowToPause (row : List Cell) : Except Exc BotPause := do
  let pausedUntil ← (cellAt row 2).asTime
  let tenantId ← (cellAt row 0).asText
  let buyerId ← (cellAt row 1).asText
  .ok { tenantId, buyerId, pausedUntil }

/-- Rows fetched and decoded. -/
def fetched (driver : Driver) (rows : List PauseRow) : Except Exc (List BotPause) :=
  rows.mapM fun r => rowToPause (driver.fetch r.cells)

/-- `_UPSERT_SQL`: a row under a new key, or the moment of the row there is. The primary key decides
which. -/
def PauseTable.pause (table : PauseTable) (tenantId buyerId : String) (until_ : Datetime) :
    PauseTable :=
  table.upsert { tenantId, buyerId, pausedUntil := until_ } (PauseRow.setUntil until_)
    (PauseRow.key_setUntil until_)

/-- `PostgresBotPauseRepository`. -/
def postgres (driver : Driver) : Object PauseCall.Answer PauseTable where
  Answers
    | .isPaused tenantId buyerId now, table, answer, table' =>
      answer = (table.rows.any fun r =>
        r.tenantId = tenantId ∧ r.buyerId = buyerId ∧ now < r.pausedUntil) ∧ table' = table
    | .pause tenantId buyerId until_, table, answer, table' =>
      answer = { tenantId, buyerId, pausedUntil := until_ } ∧
        table' = table.pause tenantId buyerId until_
    | .resume tenantId buyerId, table, _, table' => table' = table.delete (tenantId, buyerId)
    | .get tenantId buyerId, table, answer, table' =>
      fetched driver (table.get? (tenantId, buyerId)).toList = .ok answer.toList ∧ table' = table
    | .listActive tenantId now, table, answer, table' =>
      (∃ rows, table.Selects (fun r => r.tenantId = tenantId ∧ now < r.pausedUntil)
          (fun a b => b.pausedUntil ≤ a.pausedUntil) rows ∧
        fetched driver rows = .ok answer) ∧ table' = table

/-! ## What the driver answers -/

theorem rowToPause_fetch (driver : Driver) (r : PauseRow) :
    rowToPause (driver.fetch r.cells) = .ok r.toPause := by
  have hat := answers_at (driver.answers r.cells)
  rw [rowToPause, Fetched.asTime (hat 2), ok_bind, Fetched.asText (hat 0), ok_bind,
    Fetched.asText (hat 1), ok_bind]
  rfl

theorem fetched_eq (driver : Driver) (rows : List PauseRow) :
    fetched driver rows = .ok (rows.map PauseRow.toPause) := by
  induction rows with
  | nil => rfl
  | cons r rows ih =>
    rw [fetched, List.mapM_cons, rowToPause_fetch, ok_bind]
    rw [fetched] at ih
    rw [ih, ok_bind]
    rfl

/-! ## The refinement -/

/-- The table holds the registry. -/
def PauseTable.Holds (table : PauseTable) (r : Registry) : Prop :=
  ∀ tenantId buyerId,
    (table.get? (tenantId, buyerId)).map PauseRow.toPause = r.pauseOf tenantId buyerId

namespace PauseTable

variable {table : PauseTable} {r : Registry}

theorem Holds.get? (h : table.Holds r) (row : PauseRow) :
    table.get? row.key = some row ↔
      r.pauseOf row.tenantId row.buyerId = some row.toPause := by
  rw [← h row.tenantId row.buyerId, Option.map_eq_some_iff]
  constructor
  · intro hrow
    exact ⟨row, hrow, rfl⟩
  · rintro ⟨row', hrow', heq⟩
    cases row
    cases row'
    cases heq
    exact hrow'

theorem Holds.isPaused (h : table.Holds r) (tenantId buyerId : String) (now : Datetime) :
    (table.rows.any fun row =>
      row.tenantId = tenantId ∧ row.buyerId = buyerId ∧ now < row.pausedUntil) = true ↔
        r.Active tenantId buyerId now := by
  rw [Registry.active_iff, List.any_eq_true]
  constructor
  · rintro ⟨row, hrow, htest⟩
    obtain ⟨rfl, rfl, hnow⟩ := of_decide_eq_true htest
    exact ⟨row.toPause, (h.get? row).mp (Table.get?_eq_some_iff.mpr ⟨hrow, rfl⟩), hnow⟩
  · rintro ⟨p, hp, hnow⟩
    rw [← h tenantId buyerId, Option.map_eq_some_iff] at hp
    obtain ⟨row, hrow, rfl⟩ := hp
    obtain ⟨hmem, hkey⟩ := Table.get?_eq_some_iff.mp hrow
    cases hkey
    exact ⟨row, hmem, decide_eq_true ⟨rfl, rfl, hnow⟩⟩

theorem Holds.pause (h : table.Holds r) (tenantId buyerId : String) (until_ : Datetime) :
    (table.pause tenantId buyerId until_).Holds
      (Function.update r (tenantId, buyerId) (some until_)) := by
  intro t b
  have hkey : PauseRow.key ⟨tenantId, buyerId, until_⟩ = (tenantId, buyerId) := rfl
  rw [Registry.pauseOf_update, PauseTable.pause, Table.get?_upsert hkey]
  by_cases heq : (t, b) = (tenantId, buyerId)
  · cases heq
    rw [if_pos rfl, if_pos rfl]
    cases hrow : table.get? (tenantId, buyerId) with
    | none => rfl
    | some row =>
      obtain ⟨-, hkey⟩ := Table.get?_eq_some_iff.mp hrow
      cases hkey
      rfl
  · rw [if_neg heq, if_neg heq]
    exact h t b

theorem Holds.resume (h : table.Holds r) (tenantId buyerId : String) :
    PauseTable.Holds (table.delete (tenantId, buyerId))
      (Function.update r (tenantId, buyerId) none) := by
  intro t b
  rw [Registry.pauseOf_update, Table.get?_delete]
  split
  · rfl
  · exact h t b

theorem Holds.lists (h : table.Holds r) {tenantId : String} {now : Datetime}
    {rows : List PauseRow}
    (hrows : table.Selects (fun row => row.tenantId = tenantId ∧ now < row.pausedUntil)
      (fun a b => b.pausedUntil ≤ a.pausedUntil) rows) :
    r.Lists tenantId now (rows.map PauseRow.toPause) where
  nodup := by
    have hnodup : rows.Nodup := List.Nodup.of_map PauseRow.key hrows.nodup
    refine hnodup.map ?_
    intro a b hab
    cases a
    cases b
    cases hab
    rfl
  mem p := by
    rw [List.mem_map]
    constructor
    · rintro ⟨row, hrow, rfl⟩
      obtain ⟨hget, htest⟩ := hrows.mem.mp hrow
      obtain ⟨rfl, hnow⟩ := of_decide_eq_true htest
      exact ⟨(h.get? row).mp hget, hnow⟩
    · rintro ⟨hp, hnow⟩
      obtain ⟨rfl, -, -⟩ := Registry.pauseOf_eq_some.mp hp
      refine ⟨⟨p.tenantId, p.buyerId, p.pausedUntil⟩, hrows.mem.mpr ⟨?_, ?_⟩, rfl⟩
      · exact (h.get? _).mpr hp
      · exact decide_eq_true ⟨rfl, hnow⟩

end PauseTable

/-- The Postgres adapter keeps the contract. -/
theorem postgres_refines (driver : Driver) :
    (postgres driver).Refines registry PauseTable.Holds where
  answer := by
    intro c table a table' r hholds hanswer
    cases c with
    | isPaused tenantId buyerId now =>
      obtain ⟨rfl, rfl⟩ := hanswer
      exact ⟨r, ⟨hholds.isPaused tenantId buyerId now, rfl⟩, hholds⟩
    | pause tenantId buyerId until_ =>
      obtain ⟨rfl, rfl⟩ := hanswer
      exact ⟨_, ⟨rfl, rfl⟩, hholds.pause tenantId buyerId until_⟩
    | resume tenantId buyerId =>
      cases hanswer
      exact ⟨_, rfl, hholds.resume tenantId buyerId⟩
    | get tenantId buyerId =>
      obtain ⟨hfetched, rfl⟩ := hanswer
      refine ⟨r, ⟨?_, rfl⟩, hholds⟩
      rw [fetched_eq, Except.ok.injEq] at hfetched
      rw [← hholds tenantId buyerId]
      cases hget : table'.get? (tenantId, buyerId) with
      | none =>
        rw [hget] at hfetched
        cases a with
        | none => rfl
        | some p => cases hfetched
      | some row =>
        rw [hget] at hfetched
        cases a with
        | none => cases hfetched
        | some p =>
          cases hfetched
          rfl
    | listActive tenantId now =>
      obtain ⟨⟨rows, hrows, hfetched⟩, rfl⟩ := hanswer
      rw [fetched_eq] at hfetched
      cases hfetched
      exact ⟨r, ⟨hholds.lists hrows, rfl⟩, hholds⟩

/-- No statement of the adapter is refused. -/
theorem postgres_total (driver : Driver) : (postgres driver).Total := by
  intro c table
  cases c with
  | isPaused tenantId buyerId now => exact ⟨_, _, rfl, rfl⟩
  | pause tenantId buyerId until_ => exact ⟨_, _, rfl, rfl⟩
  | resume tenantId buyerId => exact ⟨(), _, rfl⟩
  | get tenantId buyerId =>
    refine ⟨(table.get? (tenantId, buyerId)).map PauseRow.toPause, table, ?_, rfl⟩
    rw [fetched_eq, Option.toList_map]
  | listActive tenantId now =>
    have htotal : Std.Total fun a b : PauseRow => b.pausedUntil ≤ a.pausedUntil :=
      ⟨fun a b => le_total b.pausedUntil a.pausedUntil⟩
    have htrans : IsTrans PauseRow fun a b => b.pausedUntil ≤ a.pausedUntil :=
      ⟨fun _ _ _ hab hbc => hbc.trans hab⟩
    let rows := (table.rows.filter fun r : PauseRow =>
      r.tenantId = tenantId ∧ now < r.pausedUntil).insertionSort fun a b =>
        b.pausedUntil ≤ a.pausedUntil
    refine ⟨rows.map PauseRow.toPause, table, ⟨rows, ⟨?_, ?_⟩, fetched_eq driver rows⟩, rfl⟩
    · exact List.perm_insertionSort _ _
    · exact List.pairwise_insertionSort _ _

/-- **The two adapters are interchangeable**: any calls, from an empty store on, get the same
answers from both, a listing the same rows.

Both refine the registry and the registry determines the answers, so nothing about the one adapter
has to be compared with the other. -/
theorem adapters_alike (driver : Driver) (cs : List PauseCall) :
    (∃ answers table, (Client.calls cs).Ends (postgres driver) Table.empty answers table) ∧
    (∃ answers pauses, (Client.calls cs).Ends inMemory Dict.empty answers pauses) ∧
    ∀ answers answers' table pauses,
      (Client.calls cs).Ends (postgres driver) Table.empty answers table →
      (Client.calls cs).Ends inMemory Dict.empty answers' pauses →
      List.Forall₂ (Object.AnswersAlike PauseCall.Alike) answers answers' := by
  refine ⟨?_, ?_, fun answers answers' table pauses hpostgres hmemory => ?_⟩
  · exact ((postgres_total driver).answered _ _).exists_ends
  · exact ((Object.ofFun_total _).answered _ _).exists_ends
  · have hempty : PauseTable.Holds Table.empty fun _ => none := fun _ _ => rfl
    have hempty' : Pauses.Holds Dict.empty fun _ => none := fun _ _ => rfl
    exact (postgres_refines driver).calls_alike inMemory_refines registry_determinate hempty hempty'
      hpostgres hmemory

end Wapsell.Inbox
