import Wapsell.Resources.Request
import Wapsell.Resources.Sync

/-!
# Which syncs report

`ResourceSynchronizer.sync` with its request: a client and a parser in place
of the answer of the upstream. `sync` catches the `AdapterError`s of its
fetch and nothing else, so a config no adapter foresees, a body that nests
too deep, a `resource_kind` that is no text and a row whose text has no
encoding all leave it as an exception. Otherwise it reports, and what it
reports is what it records.

The condition is on the source, the client's answer and the decoded
rows, and follows the code from top to bottom: the adapter refuses the
config, which is reported, or the request is made and read, and then
every row must have a kind, an id and a text that can be encoded.

What this does not establish: that a report is a success. An
`AdapterError` is reported too, with no items and its text.
-/

namespace Wapsell.Resources

open Lib Py

/-- What the synchronizer is built with. -/
structure ResourceSynchronizer (Node : Type) where
  http : HttpClient
  soup : Soup Node
  sha256 : String → String

/-- The first of the hints that is an id. -/
def hintedId (row : Dict String Json) : Option String :=
  ["external_id", "id", "code", "sku", "slug"].findSome? fun key => explicitId (row.getD key .null)

/-- The text the digest of a row is taken of. -/
def canonical (row : Dict String Json) : String := (sortKeys (.obj row.entries)).dumps

/-- The text has an encoding. A surrogate without its pair reads as U+FFFD here, since no `String`
holds one; whether a row had one is `unpaired`. -/
def Encodes (unpaired : Bool) (text : String) : Prop :=
  ¬ (unpaired = true ∧ Char.ofNat 0xFFFD ∈ text.toList)

instance (unpaired : Bool) (text : String) : Decidable (Encodes unpaired text) :=
  inferInstanceAs (Decidable (¬ (_ ∧ _)))

/-- `_extract_external_id` on a row as it was decoded. -/
def decodedId (sha256 : String → String) (unpaired : Bool) (row : Dict String Json) :
    Except Exc String :=
  match hintedId row with
  | some externalId => .ok externalId
  | none =>
    if Encodes unpaired (canonical row) then .ok (take 32 (sha256 (canonical row)))
    else .error .valueError

/-- The loop over the fetched rows, from the `i`th on; what it raises, and the store it leaves. -/
def upsertDecoded (sha256 : String → String) (source : DataSource) (unpaired : Nat → Bool)
    (draws : Nat → RowDraw) : Nat → Repository → List (Dict String Json) →
      Except Exc Unit × Repository
  | _, repo, [] => (.ok (), repo)
  | i, repo, row :: rest =>
    match decodedId sha256 (unpaired i) row with
    | .error e => (.error e, repo)
    | .ok externalId =>
      match resourceKind source with
      | .error e => (.error e, repo)
      | .ok kind =>
        upsertDecoded sha256 source unpaired draws (i + 1)
          (repo.upsert
            { id := (draws i).id, tenantId := source.tenantId, sourceId := some source.id, kind
              externalId := some externalId, data := row, summary := deriveSummary row
              createdAt := (draws i).createdAt, updatedAt := (draws i).updatedAt })
          rest

/-- `ResourceSynchronizer.sync`: `unpaired` tells which of the fetched rows hold half a surrogate
pair, `draws` what the `Resource` of each draws. -/
def ResourceSynchronizer.sync {Node : Type} (self : ResourceSynchronizer Node) (U : Unicode)
    (store : Store) (sourceId : String) (unpaired : Nat → Bool) (draws : Nat → RowDraw)
    (now : Datetime) : Except Exc SyncReport × Store :=
  match store.sources.get sourceId with
  | none => (.error .keyError, store)
  | some source =>
    match fetch U source (upstreamOf self.soup U self.http source) with
    | .error (.other e) => (.error e, store)
    | .error (.adapter message) =>
      recordSync store source
        { sourceId := source.id, ok := false, itemCount := 0, error := some (take 500 message) } now
    | .ok rows =>
      match upsertDecoded self.sha256 source unpaired draws 0 store.resources rows with
      | (.error e, resources) => (.error e, { store with resources })
      | (.ok (), resources) =>
        recordSync { store with resources } source
          { sourceId := source.id, ok := true, itemCount := rows.length, error := none } now

/-! ## What a sync that reports leaves -/

/-- The call answers a report, and leaves the sources as they were but for the source's last sync,
which says what the report says. -/
def Reports (store : Store) (source : DataSource) (now : Datetime)
    (outcome : Except Exc SyncReport × Store) : Prop :=
  ∃ report, outcome.1 = .ok report ∧ report.sourceId = source.id ∧
    (report.ok = true ↔ report.error = none) ∧ (report.ok = false → report.itemCount = 0) ∧
    outcome.2.sources = store.sources.set source.id (source.synced report now)

/-- The rows of a fetch can be upserted: there are none, or the kind is a text and each row has an id
or an encoding. -/
def Upsertable (source : DataSource) (unpaired : Nat → Bool) (rows : List (Dict String Json)) : Prop :=
  rows = [] ∨ (∃ kind, source.config.getD "resource_kind" (.str "item") = .str kind) ∧
    ∀ (i : Nat) (h : i < rows.length),
      hintedId rows[i] ≠ none ∨ Encodes (unpaired i) (canonical rows[i])

/-- The source can be synced: its adapter refuses the config, or the request can be made and its
response read, and the rows can be upserted. -/
def Reportable {Node : Type} (self : ResourceSynchronizer Node) (U : Unicode)
    (unpaired : Nat → Bool) (source : DataSource) : Prop :=
  (Asks source → Served self.soup U self.http source) ∧
    ∀ rows, fetch U source (upstreamOf self.soup U self.http source) = .ok rows →
      Upsertable source unpaired rows

section Reports

variable {Node : Type} {self : ResourceSynchronizer Node} {U : Unicode} {store : Store}
variable {source : DataSource} {unpaired : Nat → Bool} {draws : Nat → RowDraw} {now : Datetime}
variable {sha256 : String → String}

theorem decodedId_eq_ok_iff (sha256 : String → String) {b : Bool} {row : Dict String Json} :
    (∃ externalId, decodedId sha256 b row = .ok externalId) ↔
      hintedId row ≠ none ∨ Encodes b (canonical row) := by
  rw [decodedId]
  cases hintedId row with
  | some externalId => simp
  | none =>
    dsimp only
    split
    · next hencodes => exact iff_of_true ⟨_, rfl⟩ (.inr hencodes)
    · next hbroken =>
      refine iff_of_false (error_not_ok _) ?_
      rintro (h | h)
      · exact h rfl
      · exact hbroken h

/-- The id of a row that has one is the one `upsertRows` gives it. -/
theorem extractExternalId_of_decodedId {b : Bool} {row : Dict String Json} {externalId : String}
    (h : decodedId sha256 b row = .ok externalId) : extractExternalId sha256 row = externalId := by
  rw [decodedId] at h
  cases hid : hintedId row with
  | some hinted =>
    rw [hid] at h
    cases h
    rw [hintedId] at hid
    rw [extractExternalId, hid]
  | none =>
    rw [hid] at h
    dsimp only at h
    rw [hintedId] at hid
    rw [extractExternalId, hid]
    split at h
    · cases h
      rfl
    · cases h

theorem resourceKind_eq_ok_iff :
    (∃ kind, resourceKind source = .ok kind) ↔
      ∃ kind, source.config.getD "resource_kind" (.str "item") = .str kind := by
  rw [resourceKind]
  cases source.config.getD "resource_kind" (.str "item") with
  | str kind => exact iff_of_true ⟨kind, rfl⟩ ⟨kind, rfl⟩
  | _ =>
    refine iff_of_false (error_not_ok _) ?_
    rintro ⟨_, h⟩
    cases h

theorem upsertable_cons {row : Dict String Json} {rest : List (Dict String Json)} :
    Upsertable source unpaired (row :: rest) ↔
      (hintedId row ≠ none ∨ Encodes (unpaired 0) (canonical row)) ∧
      (∃ kind, source.config.getD "resource_kind" (.str "item") = .str kind) ∧
      Upsertable source (fun i => unpaired (i + 1)) rest := by
  constructor
  · rintro (hnil | ⟨hkind, hrows⟩)
    · cases hnil
    · exact ⟨hrows 0 (Nat.zero_lt_succ _), hkind,
        .inr ⟨hkind, fun i h => hrows (i + 1) (Nat.succ_lt_succ h)⟩⟩
  · rintro ⟨hrow, hkind, hrest⟩
    refine .inr ⟨hkind, fun i h => ?_⟩
    cases i with
    | zero => exact hrow
    | succ i =>
      rcases hrest with rfl | ⟨-, hrest⟩
      · exact absurd h (Nat.not_lt.mpr (Nat.succ_le_succ (Nat.zero_le i)))
      · exact hrest i (Nat.lt_of_succ_lt_succ h)

/-- The loop goes through exactly when every row does. -/
theorem upsertDecoded_eq_ok_iff : ∀ {rows : List (Dict String Json)} {i : Nat} {repo : Repository},
    (upsertDecoded sha256 source unpaired draws i repo rows).1 = .ok () ↔
      Upsertable source (fun j => unpaired (i + j)) rows
  | [], i, repo => iff_of_true rfl (.inl rfl)
  | row :: rest, i, repo => by
    have hshift : (fun j => unpaired (i + (j + 1))) = fun j => unpaired (i + 1 + j) := by
      funext j
      rw [Nat.add_right_comm, Nat.add_assoc]
    rw [upsertable_cons, hshift, Nat.add_zero, ← decodedId_eq_ok_iff sha256,
      ← resourceKind_eq_ok_iff, upsertDecoded]
    cases decodedId sha256 (unpaired i) row with
    | error e => exact iff_of_false (fun h => by cases h) fun h => error_not_ok _ h.1
    | ok externalId =>
      cases resourceKind source with
      | error e => exact iff_of_false (fun h => by cases h) fun h => error_not_ok _ h.2.1
      | ok kind =>
        dsimp only
        rw [upsertDecoded_eq_ok_iff]
        simp

theorem reports_recordSync {resources : Repository} {report : SyncReport}
    (hsource : store.sources.get source.id = some source) (hid : report.sourceId = source.id)
    (herror : report.ok = true ↔ report.error = none)
    (hcount : report.ok = false → report.itemCount = 0) :
    Reports store source now (recordSync { store with resources } source report now) := by
  have hupdate : store.sources.update (source.synced report now) =
      .ok (store.sources.set source.id (source.synced report now)) := by
    rw [Sources.update, if_pos]
    · rfl
    · show (store.sources.get source.id).isSome = true
      rw [hsource]
      rfl
  rw [recordSync, hupdate]
  exact ⟨report, rfl, hid, herror, hcount, rfl⟩

/-- Where every row encodes, the rows are upserted as from the answer of the upstream. -/
theorem upsertDecoded_eq : ∀ {rows : List (Dict String Json)} {i : Nat} {repo : Repository},
    (∀ (j : Nat) (h : j < rows.length), Encodes (unpaired (i + j)) (canonical rows[j])) →
      upsertDecoded sha256 source unpaired draws i repo rows =
        upsertRows sha256 source repo (rows.zip ((List.range' i rows.length).map draws))
  | [], i, repo, _ => rfl
  | row :: rest, i, repo, h => by
    have hrow : Encodes (unpaired i) (canonical row) := h 0 (Nat.zero_lt_succ _)
    obtain ⟨externalId, hid⟩ := (decodedId_eq_ok_iff sha256).mpr (.inr hrow)
    rw [upsertDecoded, List.length_cons, List.range'_succ, List.map_cons, List.zip_cons_cons, upsertRows,
      syncedResource, hid, extractExternalId_of_decodedId hid]
    cases resourceKind source with
    | error e => rfl
    | ok kind =>
      refine upsertDecoded_eq fun j hj => ?_
      rw [Nat.add_right_comm, Nat.add_assoc]
      exact h (j + 1) (Nat.succ_lt_succ hj)

/-- A sync of a source whose rows all encode is the sync behind what comes of its request. -/
theorem ResourceSynchronizer.sync_eq (hsource : store.sources.get source.id = some source)
    (hrows : ∀ rows, fetch U source (upstreamOf self.soup U self.http source) = .ok rows →
      ∀ (i : Nat) (h : i < rows.length), Encodes (unpaired i) (canonical rows[i]))
    {n : Nat} (hn : ∀ rows, fetch U source (upstreamOf self.soup U self.http source) = .ok rows →
      rows.length = n) :
    self.sync U store source.id unpaired draws now =
      Resources.sync U self.sha256 store source.id (upstreamOf self.soup U self.http source)
        ((List.range n).map draws) now := by
  rw [ResourceSynchronizer.sync, Resources.sync, hsource]
  dsimp only
  cases hfetch : fetch U source (upstreamOf self.soup U self.http source) with
  | error failure => cases failure <;> rfl
  | ok rows =>
    have hencodes : ∀ (i : Nat) (h : i < rows.length),
        Encodes (unpaired (0 + i)) (canonical rows[i]) := by
      intro i h
      rw [Nat.zero_add]
      exact hrows rows hfetch i h
    dsimp only
    rw [upsertDecoded_eq hencodes, ← hn rows hfetch, ← List.range_eq_range']
    cases hupsert : upsertRows self.sha256 source store.resources
        (rows.zip ((List.range rows.length).map draws)) with
    | mk outcome resources => cases outcome <;> simp only [finishSync, hupsert]

theorem reports_iff (hclient : self.http.Disciplined)
    (hsource : store.sources.get source.id = some source) :
    Reports store source now (self.sync U store source.id unpaired draws now) ↔
      Reportable self U unpaired source := by
  have hasks : (Asks source → Served self.soup U self.http source) ↔
      ∀ e, fetch U source (upstreamOf self.soup U self.http source) ≠ .error (.other e) := by
    rw [← upstreamOf_ne_raised_iff hclient]
    simp only [ne_eq, fetch_eq_other_iff, not_and]
    exact ⟨fun h e ha => h ha e, fun h ha e => h e ha⟩
  rw [Reportable, hasks, ResourceSynchronizer.sync, hsource]
  dsimp only
  cases hfetch : fetch U source (upstreamOf self.soup U self.http source) with
  | error failure =>
    cases failure with
    | other e =>
      refine iff_of_false ?_ fun h => h.1 e rfl
      rintro ⟨_, h, -⟩
      cases h
    | adapter message =>
      refine iff_of_true (reports_recordSync hsource rfl (by simp) (by simp)) ⟨?_, ?_⟩
      · exact fun e h => by cases h
      · exact fun rows h => by cases h
  | ok rows =>
    have hloop : (upsertDecoded self.sha256 source unpaired draws 0 store.resources rows).1 = .ok () ↔
        Upsertable source unpaired rows := by
      rw [upsertDecoded_eq_ok_iff]
      simp only [Nat.zero_add]
    simp only [ne_eq, reduceCtorEq, not_false_eq_true, implies_true, true_and, Except.ok.injEq,
      forall_eq', ← hloop]
    rcases upsertDecoded self.sha256 source unpaired draws 0 store.resources rows with
      ⟨_ | _, resources⟩
    · refine iff_of_false ?_ fun h => by cases h
      rintro ⟨_, h, -⟩
      cases h
    · exact iff_of_true (reports_recordSync hsource rfl (by simp) (by simp)) rfl

end Reports

/-- **Which syncs report.** Only an unknown source is a `KeyError`. A known one is reported, and the
report recorded, exactly when it can be synced: `sync` catches what its adapter refuses, and lets
through what the config, the body or a row makes anything else raise.

That the stored source has the id it is stored under is the repository's own invariant; the report
names the source by it. -/
theorem sync_reports_iff {Node : Type} {self : ResourceSynchronizer Node}
    (hclient : self.http.Disciplined) (U : Unicode) (store : Store) (sourceId : String)
    (unpaired : Nat → Bool) (draws : Nat → RowDraw) (now : Datetime) :
    (store.sources.get sourceId = none →
      self.sync U store sourceId unpaired draws now = (.error .keyError, store)) ∧
    ∀ source, store.sources.get sourceId = some source → source.id = sourceId →
      (Reports store source now (self.sync U store sourceId unpaired draws now) ↔
        Reportable self U unpaired source) := by
  constructor
  · intro hnone
    rw [ResourceSynchronizer.sync, hnone]
  · rintro source hsource rfl
    exact reports_iff hclient hsource

/-- A feed whose timeout is this. -/
def timedFeed (timeout : Json) : DataSource where
  id := "s1"
  tenantId := "acme"
  kind := .jsonApi
  name := "Feed"
  config := (Dict.empty.set "url" (.str "u")).set "timeout" timeout
  createdAt := 0

/-- A client that always has one item, and a page without nodes. -/
def oneItem : ResourceSynchronizer Unit where
  http := fun _ _ _ =>
    .response { status := 200, json := .payload (.arr [.obj [("id", .int 7)]]), text := "" }
  soup :=
    { select := fun _ _ => .ok []
      selectOne := fun _ _ => .ok none
      getText := fun _ => ""
      getAttr := fun _ _ => none }
  sha256 := id

/-- A timeout of thirty seconds is reported with its item. -/
theorem timed_feed_reports :
    Reports { sources := Dict.empty.set "s1" (timedFeed (.float "30.0")) } (timedFeed (.float "30.0")) 9
      (oneItem.sync Unicode.ascii { sources := Dict.empty.set "s1" (timedFeed (.float "30.0")) } "s1"
        (fun _ => false) (fun _ => ⟨"r1", 1, 1⟩) 9) := by
  refine ((sync_reports_iff (fun _ _ _ _ _ h => by cases h) _ _ _ _ _ _).2 _ rfl rfl).mpr ⟨fun _ => ?_, ?_⟩
  · refine ⟨.inl rfl, ⟨_, rfl⟩, ?_⟩
    intro headers seconds _ _
    refine ⟨.inr (fun e h => by cases h), fun response h _ e hraised => ?_⟩
    cases h
    cases hraised
  · intro rows hrows
    have hitem : fetch Unicode.ascii (timedFeed (.float "30.0")) (upstreamOf oneItem.soup Unicode.ascii
        oneItem.http (timedFeed (.float "30.0"))) = .ok [Dict.empty.set "id" (.int 7)] := rfl
    rw [hitem] at hrows
    cases hrows
    refine .inr ⟨⟨"item", rfl⟩, fun i hi => .inr fun h => ?_⟩
    cases h.1

/-- A timeout that is no number leaves `sync` as a `ValueError`. -/
theorem not_sync_reports : ¬ ∀ (self : ResourceSynchronizer Unit), self.http.Disciplined →
    ∀ (U : Unicode) (store : Store) (source : DataSource) (unpaired : Nat → Bool)
      (draws : Nat → RowDraw) (now : Datetime), store.sources.get source.id = some source →
        Reports store source now (self.sync U store source.id unpaired draws now) := by
  intro h
  obtain ⟨report, hok, -⟩ := h oneItem (fun _ _ _ _ _ h => by cases h) Unicode.ascii
    { sources := Dict.empty.set "s1" (timedFeed (.str "soon")) } (timedFeed (.str "soon"))
    (fun _ => false) (fun _ => ⟨"r1", 1, 1⟩) 9 rfl
  have hraised : (oneItem.sync Unicode.ascii
      { sources := Dict.empty.set "s1" (timedFeed (.str "soon")) } "s1" (fun _ => false)
      (fun _ => ⟨"r1", 1, 1⟩) 9).1 = .error .valueError := by decide
  exact absurd (hraised.symm.trans hok) (by simp)

end Wapsell.Resources
