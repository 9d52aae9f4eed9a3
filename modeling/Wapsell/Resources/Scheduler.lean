import Wapsell.Lib.Attempt
import Wapsell.Resources.Filters
import Wapsell.Resources.Sync

/-!
# The sync scheduler

One pass of `sdk/wapsell/resources/scheduler.py`. Each listed source is
checked and, when it is due, synced: what a sync raises is caught, what the
check raises is not. The interval of a source comes from a config that is
any JSON, and a float holds no integer past 2 ^ 1024.

What can stop a pass is not a failing sync but the question whether a
source is due, which is asked outside the handler. An interval that is
no number is the default; one that is too large for a float raises, and
so does a `last_synced_at` without a time zone.

What this does not establish: that a pass is short. The syncs of a pass
are awaited one after the other.
-/

namespace Wapsell.Resources

open Lib Py

/-- 24 hours, in seconds. -/
def DEFAULT_SYNC_INTERVAL_SECONDS : Int := 86400

/-- What the scheduler is built with. -/
structure SyncScheduler where
  defaultSyncInterval : Int := DEFAULT_SYNC_INTERVAL_SECONDS

/-- What a pass runs into: the clock; which of the listed sources have a `last_synced_at` without a
time zone, which no `Datetime` is; and what comes of a sync of each. -/
structure Pass where
  now : Datetime
  zoneless : Nat → Bool
  outcomes : Nat → Except Exc SyncReport

namespace SyncScheduler

variable (self : SyncScheduler) (U : Unicode)

/-- `source.config.get("sync_interval_seconds", self._default_sync_interval)`. -/
def interval (source : DataSource) : Json :=
  source.config.getD "sync_interval_seconds" (.int self.defaultSyncInterval)

/-- `float(interval)`, or the default for what it raises a `TypeError` or a `ValueError` on. -/
def intervalSeconds (source : DataSource) : Except Exc Double :=
  match (self.interval source).toFloat U with
  | .error .typeError => floatOfInt self.defaultSyncInterval
  | .error .valueError => floatOfInt self.defaultSyncInterval
  | outcome => outcome

/-- `_is_due`. An instant minus one without a time zone is a `TypeError`. -/
def isDue (source : DataSource) (zoneless : Bool) (now : Datetime) : Except Exc Bool :=
  match source.lastSyncedAt with
  | none => .ok true
  | some lastSyncedAt => do
    let seconds ← self.intervalSeconds U source
    if zoneless then .error .typeError
    else .ok (seconds.le (totalSeconds (now - lastSyncedAt)))

/-- The sync of one source, with the count behind it. -/
def syncOne (sourceId : String) (outcome : Except Exc SyncReport) (synced : Int) :
    Attempting String Exc Int :=
  tryExcept (do let _ ← attempt sourceId outcome; pure (synced + 1)) fun _ => pure synced

/-- The loop of `tick_once`, from the `i`th source on. -/
def passFrom (pass : Pass) : Nat → Int → List DataSource → Attempting String Exc Int
  | _, synced, [] => pure synced
  | i, synced, source :: rest => do
    let due ← computed (self.isDue U source (pass.zoneless i) pass.now)
    if due then
      let synced ← syncOne source.id (pass.outcomes i) synced
      passFrom pass (i + 1) synced rest
    else passFrom pass (i + 1) synced rest

/-- `tick_once`, over what `list_all_active` answers: its count, and the syncs it attempts. -/
def tickOnce (pass : Pass) (listing : List DataSource) : Except Exc Int × List String :=
  exec (self.passFrom U pass 0 0 listing) []

/-- The listed sources that are due, each with its position. -/
def dueFrom (pass : Pass) (i : Nat) (listing : List DataSource) : List (DataSource × Nat) :=
  (listing.zipIdx i).filter fun p => decide (self.isDue U p.1 (pass.zoneless p.2) pass.now = .ok true)

/-- The pass answers how many syncs did not raise, and attempts the due sources, in order. -/
def Completes (pass : Pass) (listing : List DataSource) : Prop :=
  self.tickOnce U pass listing =
    (.ok ((self.dueFrom U pass 0 listing).countP fun p => (pass.outcomes p.2).isOk),
      (self.dueFrom U pass 0 listing).map fun p => p.1.id)

/-- It can be told whether the source is due: it was never synced, or its last sync has a time zone
and its interval, or the default one in place of an interval that is no number, fits a float. -/
def Comparable (source : DataSource) (zoneless : Bool) : Prop :=
  source.lastSyncedAt = none ∨ zoneless = false ∧ ¬ TooLarge (self.interval source) ∧
    (readDouble U (self.interval source) = none → ¬ TooLarge (.int self.defaultSyncInterval))

variable {self U}

theorem floatOfInt_eq_ok_iff {n : Int} : (∃ d, floatOfInt n = .ok d) ↔ ¬ TooLarge (.int n) := by
  rcases floatOfInt_eq n with ⟨hlarge, he⟩ | ⟨hnot, hok⟩
  · rw [he]
    exact iff_of_false (fun ⟨_, h⟩ => by cases h) fun h => h hlarge
  · rw [hok]
    exact iff_of_true ⟨_, rfl⟩ hnot

theorem intervalSeconds_eq_ok_iff {source : DataSource} :
    (∃ seconds, self.intervalSeconds U source = .ok seconds) ↔ ¬ TooLarge (self.interval source) ∧
      (readDouble U (self.interval source) = none → ¬ TooLarge (.int self.defaultSyncInterval)) := by
  rw [intervalSeconds]
  rcases toFloat_cases U (self.interval source) with ⟨hlarge, he⟩ | ⟨hnot, d, hread, hok⟩ |
    ⟨hnot, hread, he | he⟩
  · rw [he]
    exact iff_of_false (fun ⟨_, h⟩ => by cases h) fun h => h.1 hlarge
  · rw [hok, hread]
    exact iff_of_true ⟨d, rfl⟩ ⟨hnot, fun h => by cases h⟩
  · rw [he, hread, floatOfInt_eq_ok_iff]
    simp [hnot]
  · rw [he, hread, floatOfInt_eq_ok_iff]
    simp [hnot]

theorem isDue_eq_ok_iff {source : DataSource} {zoneless : Bool} (now : Datetime) :
    (∃ due, self.isDue U source zoneless now = .ok due) ↔ self.Comparable U source zoneless := by
  rw [isDue, Comparable]
  cases source.lastSyncedAt with
  | none => exact iff_of_true ⟨true, rfl⟩ (.inl rfl)
  | some lastSyncedAt =>
    rw [← intervalSeconds_eq_ok_iff]
    simp only [reduceCtorEq, false_or, bind_eq_ok]
    cases zoneless with
    | true => exact iff_of_false (fun ⟨_, _, _, h⟩ => by cases h) fun ⟨h, _⟩ => by cases h
    | false =>
      constructor
      · rintro ⟨_, seconds, hseconds, -⟩
        exact ⟨rfl, seconds, hseconds⟩
      · rintro ⟨-, seconds, hseconds⟩
        exact ⟨_, seconds, hseconds, rfl⟩

/-! ## One round -/

theorem exec_computed_bind {κ ε α β : Type} (outcome : Except ε α) (f : α → Attempting κ ε β)
    (before : List κ) : exec (computed outcome >>= f) before = match outcome with
      | .ok a => exec (f a) before
      | .error e => (.error e, before) := by
  rw [exec_bind]
  cases outcome <;> rfl

/-- A sync is attempted once, whatever comes of it, and counts unless it raises. -/
theorem exec_syncOne (sourceId : String) (outcome : Except Exc SyncReport) (synced : Int)
    (before : List String) : exec (syncOne sourceId outcome synced) before =
      (.ok (synced + if outcome.isOk then 1 else 0), before ++ [sourceId]) := by
  cases outcome with
  | ok report => rfl
  | error e =>
    simp only [Except.isOk, Except.toBool, Bool.false_eq_true, if_false, Int.add_zero]
    rfl

/-- A source that is due is synced, and the pass goes on whatever comes of it. -/
theorem exec_passFrom_due {pass : Pass} {i : Nat} {synced : Int} {source : DataSource}
    {rest : List DataSource} {before : List String}
    (h : self.isDue U source (pass.zoneless i) pass.now = .ok true) :
    exec (self.passFrom U pass i synced (source :: rest)) before =
      exec (self.passFrom U pass (i + 1) (synced + if (pass.outcomes i).isOk then 1 else 0) rest)
        (before ++ [source.id]) := by
  rw [passFrom, exec_computed_bind, h]
  dsimp only
  rw [if_pos rfl, exec_bind, exec_syncOne]

/-- A source that is not due is passed over. -/
theorem exec_passFrom_notDue {pass : Pass} {i : Nat} {synced : Int} {source : DataSource}
    {rest : List DataSource} {before : List String}
    (h : self.isDue U source (pass.zoneless i) pass.now = .ok false) :
    exec (self.passFrom U pass i synced (source :: rest)) before =
      exec (self.passFrom U pass (i + 1) synced rest) before := by
  rw [passFrom, exec_computed_bind, h]
  dsimp only
  rw [if_neg Bool.false_ne_true]

/-- A source whose check raises ends the pass. -/
theorem exec_passFrom_error {pass : Pass} {i : Nat} {synced : Int} {source : DataSource}
    {rest : List DataSource} {before : List String} {e : Exc}
    (h : self.isDue U source (pass.zoneless i) pass.now = .error e) :
    exec (self.passFrom U pass i synced (source :: rest)) before = (.error e, before) := by
  rw [passFrom, exec_computed_bind, h]

/-! ## The pass -/

theorem dueFrom_cons {pass : Pass} {i : Nat} {source : DataSource} {rest : List DataSource}
    {due : Bool} (h : self.isDue U source (pass.zoneless i) pass.now = .ok due) :
    self.dueFrom U pass i (source :: rest) =
      (if due then [(source, i)] else []) ++ self.dueFrom U pass (i + 1) rest := by
  rw [dueFrom, List.zipIdx_cons, List.filter_cons, h]
  cases due <;> rfl

/-- From a list whose sources can all be told, the pass goes on to its end. -/
theorem exec_passFrom {pass : Pass} : ∀ {listing : List DataSource} {i : Nat} {synced : Int}
    {before : List String},
    (∀ p ∈ listing.zipIdx i, self.Comparable U p.1 (pass.zoneless p.2)) →
      exec (self.passFrom U pass i synced listing) before =
        (.ok (synced + (self.dueFrom U pass i listing).countP fun p => (pass.outcomes p.2).isOk),
          before ++ (self.dueFrom U pass i listing).map fun p => p.1.id)
  | [], i, synced, before, _ => by
    rw [show self.dueFrom U pass i [] = [] from rfl, List.countP_nil, List.map_nil, List.append_nil,
      Nat.cast_zero, Int.add_zero]
    rfl
  | source :: rest, i, synced, before, h => by
    rw [List.zipIdx_cons, List.forall_mem_cons] at h
    obtain ⟨hsource, hrest⟩ := h
    obtain ⟨due, hdue⟩ := (isDue_eq_ok_iff pass.now).mpr hsource
    rw [dueFrom_cons hdue]
    cases due with
    | true =>
      rw [exec_passFrom_due hdue, exec_passFrom hrest]
      simp only [if_true, List.cons_append, List.nil_append, List.countP_cons, List.map_cons,
        List.append_assoc, Prod.mk.injEq, Except.ok.injEq, and_true]
      split <;> omega
    | false => exact (exec_passFrom_notDue hdue).trans (exec_passFrom hrest)

/-- A pass that answers could tell every source. -/
theorem comparable_of_exec_passFrom {pass : Pass} : ∀ {listing : List DataSource} {i : Nat}
    {synced n : Int} {before calls : List String},
    exec (self.passFrom U pass i synced listing) before = (.ok n, calls) →
      ∀ p ∈ listing.zipIdx i, self.Comparable U p.1 (pass.zoneless p.2)
  | [], _, _, _, _, _, _ => by simp
  | source :: rest, i, synced, n, before, calls, h => by
    rw [List.zipIdx_cons, List.forall_mem_cons, ← isDue_eq_ok_iff pass.now]
    cases hdue : self.isDue U source (pass.zoneless i) pass.now with
    | error e =>
      rw [exec_passFrom_error hdue] at h
      cases h
    | ok due =>
      refine ⟨⟨due, rfl⟩, ?_⟩
      cases due with
      | true =>
        rw [exec_passFrom_due hdue] at h
        exact comparable_of_exec_passFrom h
      | false =>
        rw [exec_passFrom_notDue hdue] at h
        exact comparable_of_exec_passFrom h

/-- **When a pass is complete.** Whatever comes of the syncs, `tick_once` attempts each due source
once and no other, in the order of the listing, and answers how many did not raise, exactly when it
can be told of every listed source whether it is due.

The outcomes of the syncs are arbitrary. A source on which the question raises ends the pass there,
and the sources behind it are not reached. -/
theorem tick_once_completes_iff (self : SyncScheduler) (U : Unicode) (pass : Pass)
    (listing : List DataSource) :
    self.Completes U pass listing ↔
      ∀ p ∈ listing.zipIdx, self.Comparable U p.1 (pass.zoneless p.2) := by
  rw [Completes, tickOnce]
  constructor
  · exact fun h => comparable_of_exec_passFrom h
  · intro h
    rw [exec_passFrom h, Int.zero_add, List.nil_append]

/-- Two sources of a tenant: one with an interval no float holds, one never synced. -/
def mixedListing : List DataSource :=
  [{ id := "s1", tenantId := "acme", kind := .manual, name := "Bad", lastSyncedAt := some 0, createdAt := 0
     config := Dict.empty.set "sync_interval_seconds" (.int (10 ^ 400)) },
    { id := "s2", tenantId := "acme", kind := .manual, name := "Good", createdAt := 0 }]

/-- An interval past the largest float stops the pass before the source behind it. -/
theorem not_tick_once_completes : ¬ ∀ (self : SyncScheduler) (U : Unicode) (pass : Pass)
    (listing : List DataSource), self.Completes U pass listing := by
  intro h
  have hpass := h {} Unicode.ascii ⟨9, fun _ => false, fun _ => .error .keyError⟩ mixedListing
  have hraised : ({} : SyncScheduler).tickOnce Unicode.ascii
      ⟨9, fun _ => false, fun _ => .error .keyError⟩ mixedListing = (.error .overflowError, []) := by
    decide +kernel
  rw [Completes, hraised] at hpass
  cases hpass

end SyncScheduler

end Wapsell.Resources
