import Wapsell.Memory.Buyer

/-!
# Analytics

`get_analytics` of `services/api/main.py`, behind its access check: one pass
over the turns of a tenant's threads, and the figures made of its counters.
A date is the number of its day since the epoch, which `strftime` writes out.

The pass is kept as the loop it is, one fold over the turns with the
counters and the last unanswered turn of the buyer, and not as the
counts it is meant to compute; that it computes them is a theorem of the
module on the totals. Floats come in at the end only, for the shares and
the median.

**What this does not establish.** That the window is the right one, or
that the memory still holds every turn of it: the buffer is bounded, and
what it has dropped is not counted.
-/

namespace Wapsell.Api

open Lib Py Memory

/-- The UTC day of an instant.

Days are counted from the epoch in UTC, so a turn near midnight falls on the day it has there. -/
def dayOf (t : Datetime) : Int := t / Datetime.day

/-- `(a + b) / 2`, of floats that are finite.

Each of the two operations rounds by itself. A sum past the largest double stays infinite. -/
def midpoint : Double → Double → Double
  | .finite a, .finite b =>
    match Double.ofRat (a + b) with
    | .finite sum => Double.ofRat (sum / 2)
    | other => other
  | _, _ => .nan

/-- `_median`. -/
def median (values : List Double) : Option Double :=
  let sorted := values.insertionSort fun a b => a.le b = true
  let mid := sorted.length / 2
  if sorted.length % 2 = 1 then sorted[mid]?
  else match sorted[mid - 1]?, sorted[mid]? with
    | some a, some b => some (midpoint a b)
    | _, _ => none

/-- `counts[key] = counts.get(key, 0) + 1`.

A key that is new comes behind the others. -/
def tick {κ : Type} [DecidableEq κ] (counts : Dict κ Nat) (key : κ) : Dict κ Nat :=
  counts.set key (counts.getD key 0 + 1)

/-- The counters of the pass.

The daily counters have no entry for a day without a turn; the series puts the zeros in. -/
structure Counters where
  dailyBuyer : Dict Int Nat := Dict.empty
  dailyAgent : Dict Int Nat := Dict.empty
  messagesBuyer : Nat := 0
  messagesAgent : Nat := 0
  handoffCount : Nat := 0
  humanTakeoverCount : Nat := 0
  handoffKeywords : Dict String Nat := Dict.empty
  responseSeconds : List Double := []
  uniqueBuyersInWindow : List String := []

/-- A turn of the agent, but for the response it may be. -/
def Counters.agentTurn (c : Counters) (turn : BuyerInteraction) : Counters :=
  let c := { c with
    messagesAgent := c.messagesAgent + 1
    dailyAgent := tick c.dailyAgent (dayOf turn.at_) }
  let c :=
    if turn.metadata.get? "handoff" = some "true" then
      { c with
        handoffCount := c.handoffCount + 1
        handoffKeywords := match turn.metadata.get? "handoff_keyword" with
          | some keyword => if keyword ≠ "" then tick c.handoffKeywords keyword else c.handoffKeywords
          | none => c.handoffKeywords }
    else c
  if turn.metadata.get? "human" = some "true" then
    { c with humanTakeoverCount := c.humanTakeoverCount + 1 }
  else c

/-- One turn of a thread; with the counters goes the last turn of the buyer that has no response
yet. A turn before the window is passed over, and so it neither waits for a response nor gives
one. -/
def countTurn (since : Datetime) (buyerId : String) (state : Counters × Option Datetime)
    (turn : BuyerInteraction) : Counters × Option Datetime :=
  if turn.at_ < since then state
  else
    let c := { state.1 with uniqueBuyersInWindow := state.1.uniqueBuyersInWindow.insert buyerId }
    match turn.role with
    | .buyer =>
      ({ c with
        messagesBuyer := c.messagesBuyer + 1
        dailyBuyer := tick c.dailyBuyer (dayOf turn.at_) }, some turn.at_)
    | .agent =>
      let c := c.agentTurn turn
      match state.2 with
      | some lastBuyerAt =>
        ({ c with responseSeconds := c.responseSeconds ++ [totalSeconds (turn.at_ - lastBuyerAt)] },
          none)
      | none => (c, none)

/-- One thread.

The last unanswered turn is forgotten at the end of a thread, so a response belongs to its own
thread. -/
def countThread (since : Datetime) (c : Counters) (thread : String × List BuyerInteraction) :
    Counters :=
  (thread.2.foldl (countTurn since thread.1) (c, none)).1

/-- The messages of one day. -/
structure DailyBucket where
  date : Int
  buyer : Nat
  agent : Nat
  deriving DecidableEq, Repr

/-- Headline KPIs of one tenant over a window. -/
structure AnalyticsOut where
  windowDays : Int
  windowStart : Datetime
  windowEnd : Datetime
  messagesTotal : Nat
  messagesBuyer : Nat
  messagesAgent : Nat
  uniqueBuyers : Nat
  handoffCount : Nat
  handoffRate : Double
  humanTakeoverCount : Nat
  medianResponseSeconds : Option Double
  daily : List DailyBucket
  topHandoffKeywords : List (String × Nat)

/-- `_ANALYTICS_MAX_DAYS`. -/
def ANALYTICS_MAX_DAYS : Int := 365

/-- The figures for the threads of a tenant. The days of the series are those from the opening of
the window on, as many as were asked for. -/
def analyticsOf (since now : Datetime) (days : Int)
    (threads : List (String × List BuyerInteraction)) : AnalyticsOut :=
  let c := threads.foldl (countThread since) {}
  { windowDays := days, windowStart := since, windowEnd := now
    messagesTotal := c.messagesBuyer + c.messagesAgent
    messagesBuyer := c.messagesBuyer, messagesAgent := c.messagesAgent
    uniqueBuyers := c.uniqueBuyersInWindow.length
    handoffCount := c.handoffCount
    handoffRate := if 0 < c.messagesAgent then divide c.handoffCount c.messagesAgent else .finite 0
    humanTakeoverCount := c.humanTakeoverCount
    medianResponseSeconds := median c.responseSeconds
    daily := (List.range days.toNat).map fun i =>
      let date := dayOf (since + i * Datetime.day)
      { date, buyer := c.dailyBuyer.getD date 0, agent := c.dailyAgent.getD date 0 }
    topHandoffKeywords :=
      (c.handoffKeywords.entries.insertionSort fun a b => b.2 ≤ a.2).take 5 }

/-- What is counted of a tenant whose slug makes this prefix: the threads that the listing has
within its own default limit, each recalled whole. -/
def threadsOf (memory : BuyerMemory) (prefix_ : String) : List (String × List BuyerInteraction) :=
  (memory.listThreads (some prefix_) 100).map fun thread =>
    (thread.buyerId, memory.recall_ thread.buyerId none)

end Wapsell.Api
