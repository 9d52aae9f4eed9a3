import Mathlib.Logic.Function.Basic
import Wapsell.Inbox.Repository
import Wapsell.Lib.Refinement

/-!
# The registry of pauses

What `BotPausePort` promises, apart from how an adapter keeps it: of every
(tenant, buyer) pair, until when it is paused. A pause of a pair replaces
the one it has, a pause is active until its moment, and the active pauses
of a tenant are listed once each, in whatever order. An adapter is an
implementation when it refines this registry.

The registry is a function from pairs to moments, so two pauses of one
pair cannot both be kept: that is what `ON CONFLICT` does in the table
and what assignment does in the dictionary.

A listing is any order of the active pauses, so an adapter may sort as
it likes; what a caller may rely on is that each is there once.
-/

namespace Wapsell.Inbox

open Lib Py

/-- The calls of `BotPausePort`, with the clock where a call reads it. -/
inductive PauseCall
  | isPaused (tenantId buyerId : String) (now : Datetime)
  | pause (tenantId buyerId : String) (until_ : Datetime)
  | resume (tenantId buyerId : String)
  | get (tenantId buyerId : String)
  | listActive (tenantId : String) (now : Datetime)

/-- What each answers. -/
abbrev PauseCall.Answer : PauseCall → Type
  | isPaused .. => Bool
  | pause .. => BotPause
  | resume .. => Unit
  | get .. => Option BotPause
  | listActive .. => List BotPause

/-- Until when each pair is paused. -/
abbrev Registry := String × String → Option Datetime

namespace Registry

/-- The pause of a pair. -/
def pauseOf (registry : Registry) (tenantId buyerId : String) : Option BotPause :=
  (registry (tenantId, buyerId)).map fun pausedUntil => { tenantId, buyerId, pausedUntil }

/-- The pair is paused: its moment lies after the clock. -/
def Active (registry : Registry) (tenantId buyerId : String) (now : Datetime) : Prop :=
  ∃ pausedUntil, registry (tenantId, buyerId) = some pausedUntil ∧ now < pausedUntil

/-- The rows are the active pauses of the tenant. -/
structure Lists (registry : Registry) (tenantId : String) (now : Datetime)
    (rows : List BotPause) : Prop where
  nodup : rows.Nodup
  mem : ∀ p, p ∈ rows ↔ registry.pauseOf tenantId p.buyerId = some p ∧ now < p.pausedUntil

theorem pauseOf_eq_some {registry : Registry} {tenantId buyerId : String} {p : BotPause} :
    registry.pauseOf tenantId buyerId = some p ↔
      p.tenantId = tenantId ∧ p.buyerId = buyerId ∧
        registry (tenantId, buyerId) = some p.pausedUntil := by
  rw [pauseOf, Option.map_eq_some_iff]
  constructor
  · rintro ⟨pausedUntil, hreg, rfl⟩
    exact ⟨rfl, rfl, hreg⟩
  · rintro ⟨rfl, rfl, hreg⟩
    exact ⟨p.pausedUntil, hreg, rfl⟩

theorem active_iff {registry : Registry} {tenantId buyerId : String} {now : Datetime} :
    registry.Active tenantId buyerId now ↔
      ∃ p, registry.pauseOf tenantId buyerId = some p ∧ now < p.pausedUntil := by
  constructor
  · rintro ⟨pausedUntil, hreg, hnow⟩
    exact ⟨⟨tenantId, buyerId, pausedUntil⟩, pauseOf_eq_some.mpr ⟨rfl, rfl, hreg⟩, hnow⟩
  · rintro ⟨p, hp, hnow⟩
    exact ⟨p.pausedUntil, (pauseOf_eq_some.mp hp).2.2, hnow⟩

theorem pauseOf_update (registry : Registry) (t b : String) (until_ : Option Datetime)
    (tenantId buyerId : String) :
    pauseOf (Function.update registry (t, b) until_) tenantId buyerId =
      if (tenantId, buyerId) = (t, b) then
        until_.map fun pausedUntil => { tenantId, buyerId, pausedUntil }
      else registry.pauseOf tenantId buyerId := by
  rw [pauseOf, Function.update_apply]
  split <;> rfl

end Registry

/-- The port as a contract. -/
def registry : Object PauseCall.Answer Registry where
  Answers
    | .isPaused tenantId buyerId now, r, answer, r' =>
      (answer = true ↔ r.Active tenantId buyerId now) ∧ r' = r
    | .pause tenantId buyerId until_, r, answer, r' =>
      answer = { tenantId, buyerId, pausedUntil := until_ } ∧
        r' = Function.update r (tenantId, buyerId) (some until_)
    | .resume tenantId buyerId, r, _, r' => r' = Function.update r (tenantId, buyerId) none
    | .get tenantId buyerId, r, answer, r' => answer = r.pauseOf tenantId buyerId ∧ r' = r
    | .listActive tenantId now, r, answer, r' => r.Lists tenantId now answer ∧ r' = r

/-- Two listings have the same rows; every other answer is the same. -/
def PauseCall.Alike : (c : PauseCall) → c.Answer → c.Answer → Prop
  | .isPaused .., a, b => a = b
  | .pause .., a, b => a = b
  | .resume .., _, _ => True
  | .get .., a, b => a = b
  | .listActive .., a, b => a.Perm b

/-- Every answer but a listing is determined by the registry, and of a listing the rows are. That is
what makes two adapters alike that both refine it. -/
theorem registry_determinate : registry.Determinate PauseCall.Alike where
  answer := by
    intro c r a b r' r'' ha hb
    cases c with
    | isPaused tenantId buyerId now =>
      obtain ⟨ha, rfl⟩ := ha
      obtain ⟨hb, rfl⟩ := hb
      exact ⟨Bool.eq_iff_iff.mpr (ha.trans hb.symm), rfl⟩
    | pause tenantId buyerId until_ =>
      obtain ⟨rfl, rfl⟩ := ha
      obtain ⟨rfl, rfl⟩ := hb
      exact ⟨rfl, rfl⟩
    | resume tenantId buyerId =>
      exact ⟨trivial, ha.trans hb.symm⟩
    | get tenantId buyerId =>
      obtain ⟨rfl, rfl⟩ := ha
      obtain ⟨rfl, rfl⟩ := hb
      exact ⟨rfl, rfl⟩
    | listActive tenantId now =>
      obtain ⟨ha, rfl⟩ := ha
      obtain ⟨hb, rfl⟩ := hb
      refine ⟨(List.perm_ext_iff_of_nodup ha.nodup hb.nodup).mpr fun p => ?_, rfl⟩
      rw [ha.mem, hb.mem]

/-! ## In memory -/

/-- `InMemoryBotPauseRepository`. -/
def inMemory : Object PauseCall.Answer Pauses :=
  .ofFun fun
    | .isPaused tenantId buyerId now, pauses => (pauses.isPaused tenantId buyerId now, pauses)
    | .pause tenantId buyerId until_, pauses =>
      ({ tenantId, buyerId, pausedUntil := until_ }, pauses.pause tenantId buyerId until_)
    | .resume tenantId buyerId, pauses => ((), pauses.resume tenantId buyerId)
    | .get tenantId buyerId, pauses => (pauses.get tenantId buyerId, pauses)
    | .listActive tenantId now, pauses => (pauses.listActive tenantId now, pauses)

/-- The dictionary holds the registry. -/
def Pauses.Holds (pauses : Pauses) (r : Registry) : Prop :=
  ∀ tenantId buyerId, pauses.get? (tenantId, buyerId) = r.pauseOf tenantId buyerId

theorem Pauses.Holds.isPaused {pauses : Pauses} {r : Registry} (h : pauses.Holds r)
    (tenantId buyerId : String) (now : Datetime) :
    pauses.isPaused tenantId buyerId now = true ↔ r.Active tenantId buyerId now := by
  rw [Registry.active_iff, ← h tenantId buyerId, Pauses.isPaused]
  cases pauses.get? (tenantId, buyerId) with
  | none => simp
  | some p => simp

theorem Pauses.Holds.pause {pauses : Pauses} {r : Registry} (h : pauses.Holds r)
    (tenantId buyerId : String) (until_ : Datetime) :
    (pauses.pause tenantId buyerId until_).Holds
      (Function.update r (tenantId, buyerId) (some until_)) := by
  intro t b
  rw [Registry.pauseOf_update, Pauses.pause, Dict.get?_set, h t b]
  by_cases heq : (tenantId, buyerId) = (t, b)
  · cases heq
    rw [if_pos rfl, if_pos rfl, Option.map_some]
  · rw [if_neg heq, if_neg fun hne => heq hne.symm]

theorem Pauses.Holds.resume {pauses : Pauses} {r : Registry} (h : pauses.Holds r)
    (tenantId buyerId : String) :
    (pauses.resume tenantId buyerId).Holds (Function.update r (tenantId, buyerId) none) := by
  intro t b
  rw [Registry.pauseOf_update, Pauses.resume, Dict.get?_erase, h t b]
  by_cases heq : (tenantId, buyerId) = (t, b)
  · cases heq
    rw [if_pos rfl, if_pos rfl, Option.map_none]
  · rw [if_neg heq, if_neg fun hne => heq hne.symm]

/-- A listed row is listed under its own pair. -/
theorem Pauses.Holds.mem_entries {pauses : Pauses} {r : Registry} (h : pauses.Holds r)
    {e : (String × String) × BotPause} (he : e ∈ pauses.entries) :
    e.1 = (e.2.tenantId, e.2.buyerId) ∧ r.pauseOf e.2.tenantId e.2.buyerId = some e.2 := by
  obtain ⟨⟨t, b⟩, p⟩ := e
  have hget : r.pauseOf t b = some p := by
    rw [← h t b]
    exact Dict.get?_eq_some_iff.mpr he
  obtain ⟨ht, hb, -⟩ := Registry.pauseOf_eq_some.mp hget
  cases ht
  cases hb
  exact ⟨rfl, hget⟩

theorem Pauses.Holds.listActive {pauses : Pauses} {r : Registry} (h : pauses.Holds r)
    (tenantId : String) (now : Datetime) :
    r.Lists tenantId now (pauses.listActive tenantId now) where
  nodup := by
    -- two rows that are equal are listed under the same pair
    have hentries : pauses.entries.Nodup := List.Nodup.of_map Prod.fst pauses.nodup
    refine List.Nodup.map_on ?_ (hentries.filter _)
    intro e he e' he' hrow
    have hkey := (h.mem_entries (List.mem_of_mem_filter he)).1
    have hkey' := (h.mem_entries (List.mem_of_mem_filter he')).1
    refine Prod.ext ?_ hrow
    rw [hkey, hkey', hrow]
  mem p := by
    rw [Pauses.listActive, List.mem_map]
    constructor
    · rintro ⟨e, he, rfl⟩
      obtain ⟨he, hactive⟩ := List.mem_filter.mp he
      obtain ⟨htenant, hnow⟩ := of_decide_eq_true hactive
      obtain ⟨hkey, hrow⟩ := h.mem_entries he
      rw [hkey] at htenant
      cases htenant
      exact ⟨hrow, hnow⟩
    · rintro ⟨hrow, hnow⟩
      have hget := hrow
      rw [← h tenantId p.buyerId] at hget
      exact ⟨_, List.mem_filter.mpr ⟨Dict.get?_eq_some_iff.mp hget, decide_eq_true ⟨rfl, hnow⟩⟩, rfl⟩

/-- The in-memory adapter keeps the contract. -/
theorem inMemory_refines : inMemory.Refines registry Pauses.Holds where
  answer := by
    intro c pauses a pauses' r hholds hanswer
    cases c with
    | isPaused tenantId buyerId now =>
      cases hanswer
      exact ⟨r, ⟨hholds.isPaused tenantId buyerId now, rfl⟩, hholds⟩
    | pause tenantId buyerId until_ =>
      cases hanswer
      exact ⟨_, ⟨rfl, rfl⟩, hholds.pause tenantId buyerId until_⟩
    | resume tenantId buyerId =>
      cases hanswer
      exact ⟨_, rfl, hholds.resume tenantId buyerId⟩
    | get tenantId buyerId =>
      cases hanswer
      exact ⟨r, ⟨hholds tenantId buyerId, rfl⟩, hholds⟩
    | listActive tenantId now =>
      cases hanswer
      exact ⟨r, ⟨hholds.listActive tenantId now, rfl⟩, hholds⟩

end Wapsell.Inbox
