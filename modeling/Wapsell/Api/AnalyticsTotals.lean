import Wapsell.Api.Analytics
import Wapsell.Lib.Histogram

/-!
# What the analytics add up to

The pass over the threads as counts over their turns: every counter is the
number of the turns since the start of the window that it is about. The
threads it goes through are the hundred most recently active, and the series
of days it draws ends the day before the one it is drawn on.

A counter is shown to be a count by one invariant of the fold, in which
the turn to come moves each counter by what it is worth; then nothing
further is said about the loop. The buyers are counted by a set of ids
and need an argument of their own.

Two things come out otherwise than the dashboard says, and both are
exact results and not examples: the series stops a day early for every
input, and the figures miss a thread exactly when it is past the
hundredth and has a turn in the window.

**What this does not establish.** That a turn's time is not in the
future is a hypothesis where it is needed, since the code takes the time
that a message carries. The response times have a module of their own.
-/

namespace Wapsell.Api

open Lib Py Memory

/-! ## The turns a counter counts -/

/-- Turns of a buyer. -/
def isBuyerTurn (turn : BuyerInteraction) : Bool := decide (turn.role = .buyer)

/-- Turns of the agent. -/
def isAgentTurn (turn : BuyerInteraction) : Bool := decide (turn.role = .agent)

/-- Turns that hand a conversation off. -/
def isHandoffTurn (turn : BuyerInteraction) : Bool :=
  isAgentTurn turn && decide (turn.metadata.get? "handoff" = some "true")

/-- Turns of one day. -/
def isOn (day : Int) (turn : BuyerInteraction) : Bool := decide (dayOf turn.at_ = day)

/-- The turns a test picks of the threads. -/
def turnsIn (picks : BuyerInteraction → Bool) (threads : List (String × List BuyerInteraction)) :
    List BuyerInteraction :=
  threads.flatMap fun thread => thread.2.filter picks

/-- Turns the pass does not leave out. -/
def isSince (since : Datetime) (turn : BuyerInteraction) : Bool := decide (since ≤ turn.at_)

/-- What the turns add to the counters. -/
structure Counters.Adds (c c' : Counters) (turns : List BuyerInteraction) : Prop where
  messagesBuyer : c'.messagesBuyer = c.messagesBuyer + turns.countP isBuyerTurn
  messagesAgent : c'.messagesAgent = c.messagesAgent + turns.countP isAgentTurn
  handoffCount : c'.handoffCount = c.handoffCount + turns.countP isHandoffTurn
  dailyBuyer : ∀ day, c'.dailyBuyer.getD day 0 =
    c.dailyBuyer.getD day 0 + turns.countP fun turn => isBuyerTurn turn && isOn day turn
  dailyAgent : ∀ day, c'.dailyAgent.getD day 0 =
    c.dailyAgent.getD day 0 + turns.countP fun turn => isAgentTurn turn && isOn day turn

namespace Counters.Adds

variable {c c' c'' : Counters} {turns turns' : List BuyerInteraction}

theorem refl (c : Counters) : c.Adds c [] := by
  constructor <;> intros <;> simp

theorem trans (h : c.Adds c' turns) (h' : c'.Adds c'' turns') : c.Adds c'' (turns ++ turns') := by
  constructor
  · rw [h'.messagesBuyer, h.messagesBuyer, List.countP_append, Nat.add_assoc]
  · rw [h'.messagesAgent, h.messagesAgent, List.countP_append, Nat.add_assoc]
  · rw [h'.handoffCount, h.handoffCount, List.countP_append, Nat.add_assoc]
  · intro day
    rw [h'.dailyBuyer, h.dailyBuyer, List.countP_append, Nat.add_assoc]
  · intro day
    rw [h'.dailyAgent, h.dailyAgent, List.countP_append, Nat.add_assoc]

end Counters.Adds

variable {since : Datetime} {turn : BuyerInteraction}

/-- A tick of a day, as a count of the one turn ticked for. -/
theorem getD_tick_turn (counts : Dict Int Nat) (day : Int) :
    (tick counts (dayOf turn.at_)).getD day 0 =
      counts.getD day 0 + if isOn day turn = true then 1 else 0 := by
  unfold tick isOn
  rw [Dict.getD_tick]
  simp only [decide_eq_true_eq]

theorem countTurn_of_before (buyerId : String) (state : Counters × Option Datetime)
    (h : isSince since turn = false) : countTurn since buyerId state turn = state := by
  have hbefore : turn.at_ < since := by simpa [isSince] using h
  unfold countTurn
  exact if_pos hbefore

theorem agentTurn_adds (c : Counters) (h : turn.role = .agent) : c.Adds (c.agentTurn turn) [turn] := by
  have hagent : isAgentTurn turn = true := decide_eq_true h
  have hbuyer : isBuyerTurn turn = false := by simp [isBuyerTurn, h]
  by_cases hhandoff : turn.metadata.get? "handoff" = some "true"
  all_goals by_cases hhuman : turn.metadata.get? "human" = some "true"
  all_goals
    constructor <;> intros <;>
      simp [Counters.agentTurn, isHandoffTurn, hagent, hbuyer, hhandoff, hhuman, getD_tick_turn]

/-- A turn within the window adds itself. -/
theorem countTurn_adds (buyerId : String) (state : Counters × Option Datetime)
    (h : isSince since turn = true) :
    state.1.Adds (countTurn since buyerId state turn).1 [turn] := by
  have hnot : ¬ turn.at_ < since := by simpa [isSince] using h
  obtain ⟨c, last⟩ := state
  cases hrole : turn.role with
  | buyer =>
    have hbuyer : isBuyerTurn turn = true := decide_eq_true hrole
    have hagent : isAgentTurn turn = false := by simp [isAgentTurn, hrole]
    constructor <;> intros <;>
      simp [countTurn, hnot, hrole, isHandoffTurn, hbuyer, hagent, getD_tick_turn]
  | agent =>
    have hadds := agentTurn_adds
      { c with uniqueBuyersInWindow := c.uniqueBuyersInWindow.insert buyerId } hrole
    unfold countTurn
    rw [if_neg hnot, hrole]
    cases last with
    | none => exact ⟨hadds.1, hadds.2, hadds.3, hadds.4, hadds.5⟩
    | some _ => exact ⟨hadds.1, hadds.2, hadds.3, hadds.4, hadds.5⟩

theorem countTurns_adds (buyerId : String) (turns : List BuyerInteraction)
    (state : Counters × Option Datetime) :
    state.1.Adds (turns.foldl (countTurn since buyerId) state).1 (turns.filter (isSince since)) := by
  induction turns generalizing state with
  | nil => exact .refl _
  | cons turn turns ih =>
    rw [List.foldl_cons]
    cases h : isSince since turn with
    | true =>
      rw [List.filter_cons_of_pos h]
      exact (countTurn_adds buyerId state h).trans (ih _)
    | false =>
      rw [List.filter_cons_of_neg (by rw [h]; exact Bool.false_ne_true),
        countTurn_of_before buyerId state h]
      exact ih state

/-- **The pass adds up**: each of its counters is the number of the turns it is about. The window's
end is no part of this, since the pass does not look at it. -/
theorem countThreads_adds (threads : List (String × List BuyerInteraction)) (c : Counters) :
    c.Adds (threads.foldl (countThread since) c) (turnsIn (isSince since) threads) := by
  induction threads generalizing c with
  | nil => exact .refl _
  | cons thread threads ih =>
    exact (countTurns_adds thread.1 thread.2 (c, none)).trans (ih _)

/-! ## The buyers -/

@[simp] theorem agentTurn_buyers (c : Counters) (turn : BuyerInteraction) :
    (c.agentTurn turn).uniqueBuyersInWindow = c.uniqueBuyersInWindow := by
  unfold Counters.agentTurn
  dsimp only
  split <;> split <;> rfl

/-- A turn within the window enters the thread among the buyers. -/
theorem countTurn_buyers (buyerId : String) (state : Counters × Option Datetime)
    (h : isSince since turn = true) :
    (countTurn since buyerId state turn).1.uniqueBuyersInWindow =
      state.1.uniqueBuyersInWindow.insert buyerId := by
  have hnot : ¬ turn.at_ < since := by simpa [isSince] using h
  obtain ⟨c, last⟩ := state
  unfold countTurn
  rw [if_neg hnot]
  cases turn.role with
  | buyer => rfl
  | agent => cases last <;> simp

theorem countTurns_buyers (buyerId : String) (turns : List BuyerInteraction)
    (state : Counters × Option Datetime) :
    (turns.foldl (countTurn since buyerId) state).1.uniqueBuyersInWindow =
      if turns.any (isSince since) then state.1.uniqueBuyersInWindow.insert buyerId
      else state.1.uniqueBuyersInWindow := by
  induction turns generalizing state with
  | nil => rfl
  | cons turn turns ih =>
    rw [List.foldl_cons, ih, List.any_cons]
    cases h : isSince since turn with
    | true =>
      rw [countTurn_buyers buyerId state h, Bool.true_or, if_pos rfl]
      have hagain : buyerId ∈ state.1.uniqueBuyersInWindow.insert buyerId :=
        List.mem_insert_self
      rw [List.insert_of_mem hagain, ite_self]
    | false => rw [countTurn_of_before buyerId state h, Bool.false_or]

/-- Threads of distinct buyers are counted once each, when they have a turn within the window. -/
theorem countThreads_buyers (threads : List (String × List BuyerInteraction))
    (hnodup : (threads.map Prod.fst).Nodup) (c : Counters)
    (hfresh : ∀ thread ∈ threads, thread.1 ∉ c.uniqueBuyersInWindow) :
    (threads.foldl (countThread since) c).uniqueBuyersInWindow.length =
      c.uniqueBuyersInWindow.length + threads.countP fun thread => thread.2.any (isSince since) := by
  induction threads generalizing c with
  | nil => rfl
  | cons thread threads ih =>
    rw [List.map_cons, List.nodup_cons] at hnodup
    have hnew := hfresh thread List.mem_cons_self
    have hbuyers : (countThread since c thread).uniqueBuyersInWindow =
        if thread.2.any (isSince since) then c.uniqueBuyersInWindow.insert thread.1
        else c.uniqueBuyersInWindow := countTurns_buyers thread.1 thread.2 (c, none)
    rw [List.foldl_cons, ih hnodup.2, List.countP_cons, hbuyers]
    · cases thread.2.any (isSince since) with
      | true =>
        rw [if_pos rfl, if_pos rfl, List.insert_of_not_mem hnew, List.length_cons]
        omega
      | false => simp
    · intro other hother hmem
      rw [hbuyers] at hmem
      have hother' := hfresh other (List.mem_cons_of_mem _ hother)
      split at hmem
      · rcases List.mem_insert_iff.mp hmem with heq | hmem
        · exact hnodup.1 (heq ▸ List.mem_map_of_mem hother)
        · exact hother' hmem
      · exact hother' hmem

/-! ## The series of days -/

/-- The series a chart is promised: up to the day it is drawn on, a bar for each day, and nothing of
the totals left out. -/
structure AddsUp (now : Datetime) (out : AnalyticsOut) : Prop where
  endsToday : out.daily.getLast?.map DailyBucket.date = some (dayOf now)
  consecutive : (out.daily.map DailyBucket.date).IsChain fun a b => b = a + 1
  buyer : (out.daily.map DailyBucket.buyer).sum = out.messagesBuyer
  agent : (out.daily.map DailyBucket.agent).sum = out.messagesAgent

theorem dayOf_mono {s t : Datetime} (h : s ≤ t) : dayOf s ≤ dayOf t :=
  Int.ediv_le_ediv (by decide) h

theorem dayOf_add (t : Datetime) (n : Int) : dayOf (t + n * Datetime.day) = dayOf t + n :=
  Int.add_mul_ediv_right _ _ (by decide)

/-- The window opens that many days before the day it is asked for. -/
theorem dayOf_subDays {now since : Datetime} {days : Int} (h : now.subDays days = some since) :
    dayOf now = dayOf since + days := by
  unfold Datetime.subDays Datetime.shift at h
  split at h
  · cases h
    rw [← dayOf_add, Int.neg_add_cancel_right]
  · cases h

theorem daily_eq (since now : Datetime) (days : Int)
    (threads : List (String × List BuyerInteraction)) :
    (analyticsOf since now days threads).daily = (List.range days.toNat).map fun i : Nat =>
      let c := threads.foldl (countThread since) {}
      ⟨dayOf since + i, c.dailyBuyer.getD (dayOf since + i) 0,
        c.dailyAgent.getD (dayOf since + i) 0⟩ := by
  rw [analyticsOf]
  simp only [bind_pure_comp, List.map_eq_map, List.map_map]
  apply List.map_congr_left
  intro i _
  simp only [Function.comp_apply, dayOf_add]

/-- Consecutive numbers. -/
theorem isChain_range (first : Int) (n : Nat) :
    ((List.range n).map fun i : Nat => first + i).IsChain fun a b => b = a + 1 := by
  rw [List.isChain_iff_getElem]
  intro i hi
  simp only [List.getElem_map, List.getElem_range]
  omega

/-- Bars for the days up to yesterday, and today's turns, make up the turns of the window. -/
theorem sum_bars_of_past {since now : Datetime} {days : Int} {turns : List BuyerInteraction}
    (p : BuyerInteraction → Bool) (hsince : now.subDays days = some since) (hdays : 1 ≤ days)
    (hturns : ∀ turn ∈ turns, since ≤ turn.at_ ∧ turn.at_ ≤ now) :
    ((List.range days.toNat).map fun i : Nat =>
        turns.countP fun turn => p turn && isOn (dayOf since + i) turn).sum +
      turns.countP (fun turn => p turn && isOn (dayOf now) turn) = turns.countP p := by
  have hbars := sum_bars turns p (fun turn => dayOf turn.at_) (dayOf since) days.toNat
  unfold isOn
  rw [hbars]
  symm
  apply countP_eq_add
  intro turn hturn
  have hlow := dayOf_mono (hturns turn hturn).1
  have hhigh := dayOf_mono (hturns turn hturn).2
  have htoday := dayOf_subDays hsince
  cases p turn with
  | false => rfl
  | true =>
    simp only [Bool.true_and]
    by_cases heq : dayOf turn.at_ = dayOf now
    · rw [decide_eq_true heq, decide_eq_false (by omega)]
      rfl
    · rw [decide_eq_false heq, decide_eq_true (by omega)]
      rfl

theorem mem_turnsIn {picks : BuyerInteraction → Bool} {turn : BuyerInteraction}
    {threads : List (String × List BuyerInteraction)} :
    turn ∈ turnsIn picks threads ↔ ∃ thread ∈ threads, turn ∈ thread.2 ∧ picks turn = true := by
  unfold turnsIn
  rw [List.mem_flatMap]
  simp only [List.mem_filter]

theorem countP_turnsIn (picks p : BuyerInteraction → Bool)
    (threads : List (String × List BuyerInteraction)) :
    (turnsIn picks threads).countP p =
      (threads.flatMap Prod.snd).countP fun turn => p turn && picks turn := by
  unfold turnsIn
  rw [List.countP_flatMap, List.countP_flatMap]
  congr 2
  funext thread
  exact List.countP_filter

/-- Today's turns are turns of the window. -/
theorem countP_today {since now : Datetime} {days : Int} (p : BuyerInteraction → Bool)
    (threads : List (String × List BuyerInteraction)) (hsince : now.subDays days = some since)
    (hdays : 1 ≤ days) :
    (turnsIn (isOn (dayOf now)) threads).countP p =
      (turnsIn (isSince since) threads).countP fun turn => p turn && isOn (dayOf now) turn := by
  rw [countP_turnsIn, countP_turnsIn]
  congr 1
  funext turn
  have htoday := dayOf_subDays hsince
  cases hon : isOn (dayOf now) turn with
  | false => simp
  | true =>
    have hday : dayOf turn.at_ = dayOf now := of_decide_eq_true hon
    have hin : isSince since turn = true := by
      apply decide_eq_true
      by_contra hbefore
      have := dayOf_mono (Int.le_of_lt (Int.not_le.mp hbefore))
      omega
    simp [hin]

/-- **The series of days never reaches today.** It goes day by day from the day the window opens to
yesterday, and its columns miss today's turns of the totals. The series is stated in full beside the
negation, so that what is there instead can be read off.

The loop runs over `range(days)` from the day the window begins, so the last day it shows is
yesterday, and the messages of today are in the totals and on no day. -/
theorem daily_series_never {since now : Datetime} {days : Int}
    (threads : List (String × List BuyerInteraction)) (hsince : now.subDays days = some since)
    (hdays : 1 ≤ days ∧ days ≤ ANALYTICS_MAX_DAYS)
    (hpast : ∀ thread ∈ threads, ∀ turn ∈ thread.2, turn.at_ ≤ now) :
    ¬ AddsUp now (analyticsOf since now days threads) ∧
    (analyticsOf since now days threads).daily.getLast?.map DailyBucket.date =
      some (dayOf now - 1) ∧
    ((analyticsOf since now days threads).daily.map DailyBucket.date).IsChain
      (fun a b => b = a + 1) ∧
    ((analyticsOf since now days threads).daily.map DailyBucket.buyer).sum +
        (turnsIn (isOn (dayOf now)) threads).countP isBuyerTurn =
      (analyticsOf since now days threads).messagesBuyer ∧
    ((analyticsOf since now days threads).daily.map DailyBucket.agent).sum +
        (turnsIn (isOn (dayOf now)) threads).countP isAgentTurn =
      (analyticsOf since now days threads).messagesAgent := by
  have hadds := @countThreads_adds since threads {}
  have hturns : ∀ turn ∈ turnsIn (isSince since) threads, since ≤ turn.at_ ∧ turn.at_ ≤ now := by
    intro turn hturn
    obtain ⟨thread, hthread, hmem, hpicks⟩ := mem_turnsIn.mp hturn
    exact ⟨of_decide_eq_true hpicks, hpast thread hthread turn hmem⟩
  have hlast : (analyticsOf since now days threads).daily.getLast?.map DailyBucket.date =
      some (dayOf now - 1) := by
    obtain ⟨n, hn⟩ : ∃ n : Nat, days.toNat = n + 1 := ⟨days.toNat - 1, by omega⟩
    have htoday := dayOf_subDays hsince
    rw [daily_eq, hn, List.range_succ, List.map_append, List.map_singleton,
      List.getLast?_concat, Option.map_some, Option.some_inj]
    show dayOf since + (n : Int) = dayOf now - 1
    omega
  have hbuyer := sum_bars_of_past isBuyerTurn hsince hdays.1 hturns
  have hagent := sum_bars_of_past isAgentTurn hsince hdays.1 hturns
  refine ⟨?_, hlast, ?_, ?_, ?_⟩
  · intro h
    have hends := h.endsToday
    rw [hlast, Option.some_inj] at hends
    omega
  · rw [daily_eq, List.map_map]
    exact isChain_range _ _
  · rw [daily_eq, List.map_map, countP_today isBuyerTurn threads hsince hdays.1]
    show _ = (threads.foldl (countThread since) {}).messagesBuyer
    rw [hadds.messagesBuyer, ← hbuyer]
    simp only [Function.comp_def, hadds.dailyBuyer]
    simp [Dict.getD]
  · rw [daily_eq, List.map_map, countP_today isAgentTurn threads hsince hdays.1]
    show _ = (threads.foldl (countThread since) {}).messagesAgent
    rw [hadds.messagesAgent, ← hagent]
    simp only [Function.comp_def, hadds.dailyAgent]
    simp [Dict.getD]

/-- One message, written this very instant. -/
def justWritten (now : Datetime) : List (String × List BuyerInteraction) :=
  [("acme:549", [{ text := "hola", at_ := now }])]

theorem daily_series_never_justWritten :
    ¬ AddsUp (2 * Datetime.day) (analyticsOf Datetime.day (2 * Datetime.day) 1
      (justWritten (2 * Datetime.day))) :=
  (daily_series_never (justWritten (2 * Datetime.day))
    (show Datetime.subDays (2 * Datetime.day) 1 = some Datetime.day by decide) (by decide)
      (by decide)).1

/-- On the third day of the epoch, the chart of a message written that day ends with the second. -/
theorem not_daily_series : ¬ ∀ (since now : Datetime) (days : Int)
    (threads : List (String × List BuyerInteraction)), now.subDays days = some since →
      1 ≤ days ∧ days ≤ ANALYTICS_MAX_DAYS →
      (∀ thread ∈ threads, ∀ turn ∈ thread.2, turn.at_ ≤ now) →
      AddsUp now (analyticsOf since now days threads) := by
  intro h
  have hends := (h Datetime.day (2 * Datetime.day) 1 (justWritten (2 * Datetime.day))
    (by decide) (by decide) (by decide)).endsToday
  revert hends
  decide

/-! ## The threads that are counted -/

/-- The threads kept under a prefix. -/
def threadsUnder (memory : BuyerMemory) (prefix_ : String) : List (String × List BuyerInteraction) :=
  memory.entries.filter fun entry => startsWith prefix_ entry.1

/-- The threads in the order `list_threads` has them before its cut. -/
def rankedThreads (memory : BuyerMemory) (prefix_ : String) :
    List (String × List BuyerInteraction) :=
  ((memory.entries.filterMap (summaryOfBucket (some prefix_))).insertionSort fun a b =>
    b.lastAt ≤ a.lastAt).map fun thread => (thread.buyerId, memory.recall_ thread.buyerId none)

/-- What the cut leaves off. -/
def unlistedThreads (memory : BuyerMemory) (prefix_ : String) :
    List (String × List BuyerInteraction) :=
  (rankedThreads memory prefix_).drop 100

theorem threadsOf_eq (memory : BuyerMemory) (prefix_ : String) :
    threadsOf memory prefix_ = (rankedThreads memory prefix_).take 100 := by
  unfold threadsOf BuyerMemory.listThreads
  rw [map_upTo]
  rfl

/-- A listed thread is that of its bucket. -/
theorem recalled_summary {memory : BuyerMemory} {prefix_ : String}
    {entry : String × List BuyerInteraction} (hentry : entry ∈ memory.entries) :
    ((summaryOfBucket (some prefix_) entry).map fun thread =>
        (thread.buyerId, memory.recall_ thread.buyerId none)) =
      if startsWith prefix_ entry.1 && !entry.2.isEmpty then some entry else none := by
  obtain ⟨buyerId, bucket⟩ := entry
  have hget : memory.get? buyerId = some bucket := Dict.get?_eq_some_iff.mpr hentry
  unfold summaryOfBucket hasPrefix
  cases hstarts : startsWith prefix_ buyerId with
  | false => simp [hstarts]
  | true =>
    cases bucket using List.reverseRecOn with
    | nil => simp
    | append_singleton turns last => simp [BuyerMemory.recall_, Dict.getD, hget, hstarts]

theorem rankedThreads_perm (memory : BuyerMemory) (prefix_ : String) :
    (rankedThreads memory prefix_).Perm
      ((threadsUnder memory prefix_).filter fun thread => !thread.2.isEmpty) := by
  have hmap : (memory.entries.filterMap (summaryOfBucket (some prefix_))).map (fun thread =>
        (thread.buyerId, memory.recall_ thread.buyerId none)) =
      (threadsUnder memory prefix_).filter fun thread => !thread.2.isEmpty := by
    rw [List.map_filterMap, threadsUnder, List.filter_filter, ← List.filterMap_eq_filter]
    apply List.filterMap_congr
    intro entry hentry
    rw [recalled_summary hentry, Bool.and_comm]
    rfl
  rw [← hmap]
  exact (List.perm_insertionSort _ _).map _

/-! ## Counts over the window -/

/-- Turns of the window. -/
def isWithin (since now : Datetime) (turn : BuyerInteraction) : Bool :=
  decide (since ≤ turn.at_ ∧ turn.at_ ≤ now)

/-- Turns past its end. -/
def isAhead (now : Datetime) (turn : BuyerInteraction) : Bool := decide (now < turn.at_)

/-- The four figures count the turns of the window. -/
structure CountsWindow (since now : Datetime) (threads : List (String × List BuyerInteraction))
    (out : AnalyticsOut) : Prop where
  messagesBuyer : out.messagesBuyer = (turnsIn (isWithin since now) threads).countP isBuyerTurn
  messagesAgent : out.messagesAgent = (turnsIn (isWithin since now) threads).countP isAgentTurn
  handoffCount : out.handoffCount = (turnsIn (isWithin since now) threads).countP isHandoffTurn
  uniqueBuyers : out.uniqueBuyers = threads.countP fun thread => thread.2.any (isWithin since now)

/-- For each figure, what is counted of the turns past the window makes up for what the unlisted
threads have in it. Only by such an accident can a figure be right that counts the wrong turns. -/
structure Balanced (since now : Datetime) (listed unlisted : List (String × List BuyerInteraction)) :
    Prop where
  messagesBuyer : (turnsIn (isAhead now) listed).countP isBuyerTurn =
    (turnsIn (isWithin since now) unlisted).countP isBuyerTurn
  messagesAgent : (turnsIn (isAhead now) listed).countP isAgentTurn =
    (turnsIn (isWithin since now) unlisted).countP isAgentTurn
  handoffCount : (turnsIn (isAhead now) listed).countP isHandoffTurn =
    (turnsIn (isWithin since now) unlisted).countP isHandoffTurn
  uniqueBuyers : (listed.countP fun thread =>
      thread.2.any (isAhead now) && !thread.2.any (isWithin since now)) =
    unlisted.countP fun thread => thread.2.any (isWithin since now)

theorem analyticsOf_counts (since now : Datetime) (days : Int)
    {threads : List (String × List BuyerInteraction)} (hnodup : (threads.map Prod.fst).Nodup) :
    (analyticsOf since now days threads).messagesBuyer =
        (turnsIn (isSince since) threads).countP isBuyerTurn ∧
    (analyticsOf since now days threads).messagesAgent =
        (turnsIn (isSince since) threads).countP isAgentTurn ∧
    (analyticsOf since now days threads).handoffCount =
        (turnsIn (isSince since) threads).countP isHandoffTurn ∧
    (analyticsOf since now days threads).uniqueBuyers =
        threads.countP fun thread => thread.2.any (isSince since) := by
  have hadds := @countThreads_adds since threads {}
  have hbuyers := @countThreads_buyers since threads hnodup {} (by simp)
  refine ⟨?_, ?_, ?_, ?_⟩
  · exact hadds.messagesBuyer.trans (Nat.zero_add _)
  · exact hadds.messagesAgent.trans (Nat.zero_add _)
  · exact hadds.handoffCount.trans (Nat.zero_add _)
  · exact hbuyers.trans (Nat.zero_add _)

/-- What is not left out is within the window or past it. -/
theorem isSince_eq {since now : Datetime} (h : since ≤ now) (turn : BuyerInteraction) :
    isSince since turn = (isWithin since now turn || isAhead now turn) ∧
      (isWithin since now turn && isAhead now turn) = false := by
  unfold isSince isWithin isAhead
  rw [← Bool.decide_or, ← Bool.decide_and, decide_eq_decide, decide_eq_false_iff_not]
  constructor
  · constructor
    · intro hin
      rcases Int.lt_or_le now turn.at_ with hlt | hle
      · exact .inr hlt
      · exact .inl ⟨hin, hle⟩
    · rintro (⟨hin, -⟩ | hlt)
      · exact hin
      · exact Int.le_of_lt (Int.lt_of_le_of_lt h hlt)
  · rintro ⟨⟨-, hle⟩, hlt⟩
    exact Int.not_le.mpr hlt hle

theorem countP_since {since now : Datetime} (h : since ≤ now) (p : BuyerInteraction → Bool)
    (threads : List (String × List BuyerInteraction)) :
    (turnsIn (isSince since) threads).countP p =
      (turnsIn (isWithin since now) threads).countP p +
        (turnsIn (isAhead now) threads).countP p := by
  rw [countP_turnsIn, countP_turnsIn, countP_turnsIn]
  apply countP_eq_add
  intro turn _
  obtain ⟨hor, hand⟩ := isSince_eq h turn
  rw [hor]
  revert hand
  cases p turn <;> cases isWithin since now turn <;> cases isAhead now turn <;> decide

theorem any_since {since now : Datetime} (h : since ≤ now) (turns : List BuyerInteraction) :
    turns.any (isSince since) = (turns.any (isWithin since now) || turns.any (isAhead now)) := by
  induction turns with
  | nil => rfl
  | cons turn turns ih =>
    rw [List.any_cons, List.any_cons, List.any_cons, ih, (isSince_eq h turn).1]
    simp only [Bool.or_assoc, Bool.or_left_comm]

theorem countP_any_since {since now : Datetime} (h : since ≤ now)
    (threads : List (String × List BuyerInteraction)) :
    (threads.countP fun thread => thread.2.any (isSince since)) =
      (threads.countP fun thread => thread.2.any (isWithin since now)) +
        threads.countP fun thread =>
          thread.2.any (isAhead now) && !thread.2.any (isWithin since now) := by
  apply countP_eq_add
  intro thread _
  rw [any_since h]
  cases thread.2.any (isWithin since now) <;> cases thread.2.any (isAhead now) <;> rfl

theorem turnsIn_append (picks : BuyerInteraction → Bool)
    (l l' : List (String × List BuyerInteraction)) :
    turnsIn picks (l ++ l') = turnsIn picks l ++ turnsIn picks l' := List.flatMap_append

/-- Threads without turns count for nothing. -/
theorem turnsIn_filter_nonempty (picks : BuyerInteraction → Bool)
    (threads : List (String × List BuyerInteraction)) :
    turnsIn picks (threads.filter fun thread => !thread.2.isEmpty) = turnsIn picks threads := by
  induction threads with
  | nil => rfl
  | cons thread threads ih =>
    obtain ⟨buyerId, turns⟩ := thread
    cases turns with
    | nil => exact ih
    | cons turn turns => exact congrArg (((turn :: turns).filter picks) ++ ·) ih

/-- The turns of the threads kept are those of the listed and of the unlisted ones. -/
theorem countP_under (memory : BuyerMemory) (prefix_ : String) (picks p : BuyerInteraction → Bool) :
    (turnsIn picks (threadsUnder memory prefix_)).countP p =
      (turnsIn picks (threadsOf memory prefix_)).countP p +
        (turnsIn picks (unlistedThreads memory prefix_)).countP p := by
  rw [← turnsIn_filter_nonempty, threadsOf_eq, unlistedThreads, ← List.countP_append,
    ← turnsIn_append, List.take_append_drop]
  exact ((rankedThreads_perm memory prefix_).flatMap_right _).symm.countP_eq p

theorem countP_any_under (memory : BuyerMemory) (prefix_ : String)
    (picks : BuyerInteraction → Bool) :
    ((threadsUnder memory prefix_).countP fun thread => thread.2.any picks) =
      ((threadsOf memory prefix_).countP fun thread => thread.2.any picks) +
        (unlistedThreads memory prefix_).countP fun thread => thread.2.any picks := by
  rw [threadsOf_eq, unlistedThreads, ← List.countP_append, List.take_append_drop,
    (rankedThreads_perm memory prefix_).countP_eq, List.countP_filter]
  congr 1
  funext thread
  cases thread.2 <;> simp

theorem nodup_threadsOf (memory : BuyerMemory) (prefix_ : String) :
    ((threadsOf memory prefix_).map Prod.fst).Nodup := by
  have hunder : ((threadsUnder memory prefix_).filter fun thread => !thread.2.isEmpty).map Prod.fst
      |>.Nodup :=
    memory.nodup.sublist ((List.filter_sublist.trans List.filter_sublist).map _)
  have hranked := ((rankedThreads_perm memory prefix_).map Prod.fst).nodup_iff.mpr hunder
  rw [threadsOf_eq]
  exact hranked.sublist ((List.take_sublist _ _).map _)

/-- A window opens before it ends. -/
theorem since_le {since now : Datetime} {days : Int} (hsince : now.subDays days = some since)
    (hdays : 1 ≤ days) : since ≤ now := by
  unfold Datetime.subDays Datetime.shift at hsince
  split at hsince
  · cases hsince
    have hback : (0 : Int) ≤ days * Datetime.day := Int.mul_nonneg (by omega) (by decide)
    exact Int.add_le_of_le_sub_left (by omega)
  · cases hsince

/-- With no turn past the window, nothing makes up for a turn that is missed. -/
theorem balanced_iff_of_past {memory : BuyerMemory} {prefix_ : String} {since now : Datetime}
    (hpast : ∀ thread ∈ threadsUnder memory prefix_, ∀ turn ∈ thread.2, turn.at_ ≤ now) :
    Balanced since now (threadsOf memory prefix_) (unlistedThreads memory prefix_) ↔
      ∀ thread ∈ unlistedThreads memory prefix_, ∀ turn ∈ thread.2, turn.at_ < since := by
  have hkept : ∀ thread ∈ rankedThreads memory prefix_, ∀ turn ∈ thread.2, turn.at_ ≤ now := by
    intro thread hthread
    exact hpast thread
      (List.mem_of_mem_filter ((rankedThreads_perm memory prefix_).mem_iff.mp hthread))
  have hlisted : ∀ thread ∈ threadsOf memory prefix_, ∀ turn ∈ thread.2,
      isAhead now turn = false := by
    intro thread hthread turn hturn
    rw [threadsOf_eq] at hthread
    exact decide_eq_false (Int.not_lt.mpr (hkept thread (List.mem_of_mem_take hthread) turn hturn))
  have hahead : turnsIn (isAhead now) (threadsOf memory prefix_) = [] := by
    apply List.eq_nil_iff_forall_not_mem.mpr
    intro turn hmem
    obtain ⟨thread, hthread, hturn, hpicks⟩ := mem_turnsIn.mp hmem
    exact Bool.false_ne_true ((hlisted thread hthread turn hturn).symm.trans hpicks)
  have hnone : ∀ thread ∈ threadsOf memory prefix_,
      ¬ (thread.2.any (isAhead now) && !thread.2.any (isWithin since now)) = true := by
    intro thread hthread h
    obtain ⟨turn, hturn, hpicks⟩ := List.any_eq_true.mp (Bool.and_eq_true_iff.mp h).1
    exact Bool.false_ne_true ((hlisted thread hthread turn hturn).symm.trans hpicks)
  constructor
  · intro h thread hthread turn hturn
    have hzero := h.uniqueBuyers
    rw [List.countP_eq_zero.mpr hnone] at hzero
    have hout := List.countP_eq_zero.mp hzero.symm thread hthread
    have hle := hkept thread (List.mem_of_mem_drop hthread) turn hturn
    by_contra hin
    exact hout (List.any_eq_true.mpr
      ⟨turn, hturn, decide_eq_true ⟨Int.not_lt.mp hin, hle⟩⟩)
  · intro h
    have hout : ∀ thread ∈ unlistedThreads memory prefix_, ∀ turn ∈ thread.2,
        isWithin since now turn = false := by
      intro thread hthread turn hturn
      exact decide_eq_false fun hin => Int.not_le.mpr (h thread hthread turn hturn) hin.1
    have hwithin : turnsIn (isWithin since now) (unlistedThreads memory prefix_) = [] := by
      apply List.eq_nil_iff_forall_not_mem.mpr
      intro turn hmem
      obtain ⟨thread, hthread, hturn, hpicks⟩ := mem_turnsIn.mp hmem
      exact Bool.false_ne_true ((hout thread hthread turn hturn).symm.trans hpicks)
    refine ⟨by rw [hahead, hwithin], by rw [hahead, hwithin], by rw [hahead, hwithin], ?_⟩
    rw [List.countP_eq_zero.mpr hnone]
    symm
    apply List.countP_eq_zero.mpr
    intro thread hthread hany
    obtain ⟨turn, hturn, hpicks⟩ := List.any_eq_true.mp hany
    exact Bool.false_ne_true ((hout thread hthread turn hturn).symm.trans hpicks)

/-- **The analytics count every turn of the window** exactly when the listing balances; with no turn
past the window, exactly when no thread beyond the hundred most recently active has a turn in it.
The first form is the one without an assumption on the clock.

The totals are taken from the page of threads that `list_threads` answers by default. So the limit
is the condition, and nothing about what the messages say is. -/
theorem analytics_counts_iff (memory : BuyerMemory) (prefix_ : String) {since now : Datetime}
    {days : Int} (hsince : now.subDays days = some since)
    (hdays : 1 ≤ days ∧ days ≤ ANALYTICS_MAX_DAYS) :
    (CountsWindow since now (threadsUnder memory prefix_)
        (analyticsOf since now days (threadsOf memory prefix_)) ↔
      Balanced since now (threadsOf memory prefix_) (unlistedThreads memory prefix_)) ∧
    ((∀ thread ∈ threadsUnder memory prefix_, ∀ turn ∈ thread.2, turn.at_ ≤ now) →
      (CountsWindow since now (threadsUnder memory prefix_)
          (analyticsOf since now days (threadsOf memory prefix_)) ↔
        ∀ thread ∈ unlistedThreads memory prefix_, ∀ turn ∈ thread.2, turn.at_ < since)) := by
  have hle := since_le hsince hdays.1
  obtain ⟨hbuyer, hagent, hhandoff, hunique⟩ :=
    analyticsOf_counts since now days (nodup_threadsOf memory prefix_)
  have hfigure : ∀ p : BuyerInteraction → Bool,
      (turnsIn (isSince since) (threadsOf memory prefix_)).countP p =
          (turnsIn (isWithin since now) (threadsUnder memory prefix_)).countP p ↔
        (turnsIn (isAhead now) (threadsOf memory prefix_)).countP p =
          (turnsIn (isWithin since now) (unlistedThreads memory prefix_)).countP p := by
    intro p
    rw [countP_since hle, countP_under, Nat.add_left_cancel_iff]
  have hbuyers : ((threadsOf memory prefix_).countP fun thread => thread.2.any (isSince since)) =
          ((threadsUnder memory prefix_).countP fun thread => thread.2.any (isWithin since now)) ↔
        ((threadsOf memory prefix_).countP fun thread =>
            thread.2.any (isAhead now) && !thread.2.any (isWithin since now)) =
          (unlistedThreads memory prefix_).countP fun thread =>
            thread.2.any (isWithin since now) := by
    rw [countP_any_since hle, countP_any_under, Nat.add_left_cancel_iff]
  have hiff : CountsWindow since now (threadsUnder memory prefix_)
        (analyticsOf since now days (threadsOf memory prefix_)) ↔
      Balanced since now (threadsOf memory prefix_) (unlistedThreads memory prefix_) := by
    constructor
    · intro h
      exact ⟨(hfigure _).mp (hbuyer ▸ h.messagesBuyer), (hfigure _).mp (hagent ▸ h.messagesAgent),
        (hfigure _).mp (hhandoff ▸ h.handoffCount), hbuyers.mp (hunique ▸ h.uniqueBuyers)⟩
    · intro h
      exact ⟨hbuyer.trans ((hfigure _).mpr h.messagesBuyer),
        hagent.trans ((hfigure _).mpr h.messagesAgent),
        hhandoff.trans ((hfigure _).mpr h.handoffCount),
        hunique.trans (hbuyers.mpr h.uniqueBuyers)⟩
  refine ⟨hiff, fun hpast => hiff.trans ?_⟩
  exact balanced_iff_of_past hpast

/-- Two buyers of the shop, one of them back after a day, and a buyer of another shop. -/
def weekend : BuyerMemory where
  entries := [
    ("acme:549111", [{ text := "hola", at_ := 0 }, { text := "¿hay zapatos?", at_ := Datetime.day },
      { text := "Sí, del 38 al 42.", role := .agent, at_ := Datetime.day + 1 }]),
    ("shop:549222", [{ text := "hola", at_ := Datetime.day }]),
    ("acme:549333", [{ text := "quiero hablar con una persona", at_ := 2 * Datetime.day }])]
  nodup := by decide

/-- No thread is left out, so the figures of a day are those of its messages. -/
theorem analytics_counts_weekend :
    CountsWindow Datetime.day (2 * Datetime.day) (threadsUnder weekend "acme:")
      (analyticsOf Datetime.day (2 * Datetime.day) 1 (threadsOf weekend "acme:")) :=
  ((analytics_counts_iff weekend "acme:"
    (show Datetime.subDays (2 * Datetime.day) 1 = some Datetime.day by decide) (by decide)).2
      (by decide)).mpr (by decide)

/-- The history of a hundred and one buyers, with one message each. -/
def crowd (now : Datetime) : BuyerMemory :=
  ⟨(List.range 101).map fun i =>
      ("acme:" ++ String.ofList (List.replicate i '1'), [{ text := "hola", at_ := now }]),
    by
      rw [List.map_map]
      exact List.nodup_range.map fun i j h => by
        have hlen := congrArg String.length h
        simpa using hlen⟩

/-- All of them wrote within the window. -/
theorem countP_crowd {since now : Datetime} (h : since ≤ now) :
    ((threadsUnder (crowd now) "acme:").countP fun thread =>
      thread.2.any (isWithin since now)) = 101 := by
  rw [threadsUnder, List.countP_filter, crowd, List.countP_map]
  refine (List.countP_eq_length.mpr ?_).trans List.length_range
  intro i _
  have hstarts : startsWith "acme:" ("acme:" ++ String.ofList (List.replicate i '1')) = true := by
    rw [startsWith, List.isPrefixOf_iff_prefix, String.toList_append]
    exact List.prefix_append _ _
  dsimp only [Function.comp_apply]
  rw [hstarts, Bool.and_true, List.any_cons, Bool.or_eq_true]
  exact .inl (decide_eq_true ⟨h, Int.le_refl now⟩)

/-- No more buyers are counted than threads are listed. -/
theorem uniqueBuyers_le (memory : BuyerMemory) (prefix_ : String) (since now : Datetime)
    (days : Int) : (analyticsOf since now days (threadsOf memory prefix_)).uniqueBuyers ≤ 100 := by
  rw [(analyticsOf_counts since now days (nodup_threadsOf memory prefix_)).2.2.2]
  apply List.countP_le_length.trans
  rw [threadsOf_eq]
  exact List.length_take_le _ _

/-- Of a hundred and one messages written this instant, a hundred are counted. -/
theorem not_analytics_counts : ¬ ∀ (memory : BuyerMemory) (prefix_ : String)
    (since now : Datetime) (days : Int), now.subDays days = some since →
      1 ≤ days ∧ days ≤ ANALYTICS_MAX_DAYS →
      CountsWindow since now (threadsUnder memory prefix_)
        (analyticsOf since now days (threadsOf memory prefix_)) := by
  intro h
  have hunique := (h (crowd (2 * Datetime.day)) "acme:" Datetime.day (2 * Datetime.day) 1
    (by decide) (by decide)).uniqueBuyers
  rw [countP_crowd (by decide)] at hunique
  have hlisted := uniqueBuyers_le (crowd (2 * Datetime.day)) "acme:" Datetime.day
    (2 * Datetime.day) 1
  omega

end Wapsell.Api
