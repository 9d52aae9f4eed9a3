import Wapsell.Api.Routes
import Wapsell.Inbox.Postgres

/-!
# Who sees a pause

Three readers ask for the pauses of a buyer: the inbox listing, which takes
them from `list_active` through a dictionary by buyer id, the thread page,
which takes the row of the pair and compares it with the clock itself, and
the bot, which asks `is_paused`. What the dashboard shows is what the bot
does, over both adapters and after whatever calls came before.

Each reader is a program over the calls of the registry, and what is
proved is proved of the registry's contract: the two adapters refine it,
so the theorem holds of both without looking at either again. The
contract leaves the order of a listing open, and the dictionary by buyer
id makes up for that, since a pair has at most one row.

**What this does not establish.** The three readers look at one moment.
A pause that is set between two page loads shows in the second one only.
-/

namespace Wapsell.Api

open Lib Py Inbox

/-- `paused_by_bid` of `list_conversations`. -/
def pausedByBid (active : List BotPause) : Dict String BotPause :=
  active.foldl (fun d p => d.set p.buyerId p) Dict.empty

/-- `active_pause` of `get_conversation_thread`. -/
def activePause (pause : Option BotPause) (now : Datetime) : Option BotPause :=
  pause.filter fun p => now < p.pausedUntil

/-- What the readers have of one buyer. -/
structure Seen where
  /-- `bot_paused_until` of the listing, `None` where `bot_paused` is false. -/
  listed : Option BotPause
  /-- `bot_paused_until` of the thread. -/
  thread : Option BotPause
  /-- `is_paused` of the bot. -/
  silent : Bool

/-- The thread page and the bot, of each buyer. -/
def lookEach (tenantId : String) (now : Datetime) (listed : Dict String BotPause) :
    List String → Client PauseCall.Answer (List Seen)
  | [] => .done []
  | buyerId :: buyerIds =>
    .call (.get tenantId buyerId) fun pause =>
      .call (.isPaused tenantId buyerId now) fun silent =>
        (lookEach tenantId now listed buyerIds).bind fun seen =>
          .done (⟨listed.get? buyerId, activePause pause now, silent⟩ :: seen)

/-- The three readers at one moment. -/
def look (tenantId : String) (now : Datetime) (buyerIds : List String) :
    Client PauseCall.Answer (List Seen) :=
  .call (.listActive tenantId now) fun active => lookEach tenantId now (pausedByBid active) buyerIds

/-- The readers see one pause, or none. -/
structure Seen.Consistent (seen : Seen) : Prop where
  listed : seen.listed = seen.thread
  silent : seen.silent = seen.thread.isSome

/-! ## The dictionary of the listing -/

theorem get?_pausedByBid {registry : Registry} {tenantId : String} {now : Datetime}
    {active : List BotPause} (h : registry.Lists tenantId now active) (buyerId : String) :
    (pausedByBid active).get? buyerId = activePause (registry.pauseOf tenantId buyerId) now := by
  let pairs := active.map fun p => (p.buyerId, p)
  have hfold : pausedByBid active = pairs.foldl (fun d e => d.set e.1 e.2) Dict.empty := by
    rw [pausedByBid, List.foldl_map]
  -- a buyer has one row, so no later row replaces it
  have hnodup : (pairs.map Prod.fst).Nodup := by
    rw [List.map_map]
    refine List.Nodup.map_on ?_ h.nodup
    intro p hp p' hp' hbuyer
    have hrow := ((h.mem p).mp hp).1
    have hrow' := ((h.mem p').mp hp').1
    have hbuyer' : p.buyerId = p'.buyerId := hbuyer
    rw [hbuyer', hrow'] at hrow
    exact (Option.some.inj hrow).symm
  rw [hfold, Dict.get?_foldl_set _ hnodup, Dict.get?_empty, Option.or_none]
  refine Option.ext fun p => ?_
  rw [Dict.find_eq_some_iff hnodup, activePause, Option.filter_eq_some_iff, decide_eq_true_eq,
    List.mem_map]
  constructor
  · rintro ⟨p', hp', heq⟩
    cases heq
    exact (h.mem p).mp hp'
  · rintro ⟨hrow, hnow⟩
    obtain ⟨-, rfl, -⟩ := Registry.pauseOf_eq_some.mp hrow
    exact ⟨p, (h.mem p).mpr ⟨hrow, hnow⟩, rfl⟩

/-! ## The contract fixes what is seen -/

theorem consistent_of_answers {reg : Registry} {tenantId buyerId : String} {now : Datetime}
    {listed : Option BotPause} {silent : Bool}
    (hlisted : listed = activePause (reg.pauseOf tenantId buyerId) now)
    (hsilent : silent = true ↔ reg.Active tenantId buyerId now) :
    (⟨listed, activePause (reg.pauseOf tenantId buyerId) now, silent⟩ : Seen).Consistent where
  listed := hlisted
  silent := by
    rw [Bool.eq_iff_iff, hsilent, Registry.active_iff, Option.isSome_iff_exists]
    refine exists_congr fun p => ?_
    rw [activePause, Option.filter_eq_some_iff, decide_eq_true_eq]

theorem lookEach_consistent {tenantId : String} {now : Datetime} {listed : Dict String BotPause} :
    ∀ {buyerIds : List String} {reg reg' : Registry} {seen : List Seen},
      (∀ buyerId, listed.get? buyerId = activePause (reg.pauseOf tenantId buyerId) now) →
      (lookEach tenantId now listed buyerIds).Ends registry reg seen reg' →
      seen.length = buyerIds.length ∧ ∀ v ∈ seen, v.Consistent
  | [], _, _, _, _, hends => by
    obtain ⟨rfl, -⟩ := hends
    refine ⟨rfl, fun v hv => ?_⟩
    cases hv
  | buyerId :: _, reg, _, _, hlisted, hends => by
    obtain ⟨_, _, ⟨rfl, rfl⟩, silent, _, ⟨hsilent, rfl⟩, hrest⟩ := hends
    obtain ⟨seen, _, hseen, rfl, rfl⟩ := Client.ends_bind.mp hrest
    obtain ⟨hlength, hconsistent⟩ := lookEach_consistent hlisted hseen
    refine ⟨by rw [List.length_cons, List.length_cons, hlength], fun v hv => ?_⟩
    rcases List.mem_cons.mp hv with rfl | hv
    · exact consistent_of_answers (hlisted buyerId) hsilent
    · exact hconsistent v hv

/-- After the calls the readers come to an end, and each buyer is seen in one way. That they end is
part of it, so an adapter that refused a call would not pass. -/
def Shows {σ : Type} (O : Object PauseCall.Answer σ) (s : σ) (cs : List PauseCall)
    (tenantId : String) (now : Datetime) (buyerIds : List String) : Prop :=
  let readers := (Client.calls cs).bind fun _ => look tenantId now buyerIds
  (∃ seen s', readers.Ends O s seen s') ∧
    ∀ seen s', readers.Ends O s seen s' → seen.length = buyerIds.length ∧ ∀ v ∈ seen, v.Consistent

theorem shows_of_refines {σ : Type} {O : Object PauseCall.Answer σ} {R : σ → Registry → Prop}
    (hO : O.Refines registry R) (htotal : O.Total) {s : σ} (hs : R s fun _ => none)
    (cs : List PauseCall) (tenantId : String) (now : Datetime) (buyerIds : List String) :
    Shows O s cs tenantId now buyerIds := by
  refine ⟨(htotal.answered _ _).exists_ends, fun seen s' hends => ?_⟩
  obtain ⟨reg', hreg, -⟩ := hO.ends hs hends
  obtain ⟨_, _, -, _, _, ⟨hactive, rfl⟩, hrest⟩ := Client.ends_bind.mp hreg
  exact lookEach_consistent (get?_pausedByBid hactive) hrest

/-- **What the dashboard shows is what the bot does**, whichever adapter keeps the pauses: after any
calls, the listing and the thread show one deadline for each buyer, and the bot is silent where they
show one.

Nothing else is asked of the adapter than that it refines the registry, so a third adapter would be
shown in the same way. -/
theorem pauses_shown (driver : Postgres.Driver) (cs : List PauseCall) (tenantId : String)
    (now : Datetime) (buyerIds : List String) :
    Shows (postgres driver) Table.empty cs tenantId now buyerIds ∧
      Shows inMemory Dict.empty cs tenantId now buyerIds := by
  have hempty : PauseTable.Holds Table.empty fun _ => none := fun _ _ => rfl
  have hempty' : Pauses.Holds Dict.empty fun _ => none := fun _ _ => rfl
  constructor
  · exact shows_of_refines (postgres_refines driver) (postgres_total driver) hempty cs _ _ _
  · exact shows_of_refines inMemory_refines (Object.ofFun_total _) hempty' cs _ _ _

/-! ## The routes -/

variable {ρ : Type} {E : Routes.Deployment ρ}

/-- `list_conversations` looks as `look` does. -/
theorem routes_pausedByBid (tenantId : String) :
    Routes.pausedByBid E tenantId = pausedByBid (E.pauses.listActive tenantId E.now) := by
  rw [Routes.pausedByBid, pausedByBid, Pauses.listActive, List.foldl_map]

/-- The inbox row of a buyer shows what the thread page takes for active. -/
theorem routes_listed {registry : Registry} (h : E.pauses.Holds registry)
    (tenantId buyerId : String) :
    (Routes.pausedByBid E tenantId).get? buyerId =
      activePause (E.pauses.get? (tenantId, buyerId)) E.now := by
  rw [routes_pausedByBid, get?_pausedByBid (h.listActive tenantId E.now), h tenantId buyerId]

end Wapsell.Api
