import Mathlib.Data.List.Sort
import Wapsell.Api.AnalyticsTotals
import Wapsell.Lib.Sort
import Wapsell.Py.Rounding

/-!
# Response times

The response samples of the analytics: one for each turn of a buyer that the
agent's turn follows directly, within the window. And what the figures made
of them promise, through the rounding of the floats they are.

The samples are floats made of differences of microseconds, and the
median of an even number of them is a sum and a quotient; so each
promise has to be shown through two roundings. What makes it go through
is that a rounding is monotone and that the values stay far from the
largest double.

**What this does not establish.** The conversations are taken to be in
order, as the memory returns them. Turns out of order give differences
that are negative, and then the promises fail.
-/

namespace Wapsell.Api

open Lib Py Memory

/-! ## The pairs -/

/-- The turns of a buyer with the agent's turns directly behind them. -/
def answeredTurns (turns : List BuyerInteraction) : List (BuyerInteraction × BuyerInteraction) :=
  (turns.zip turns.tail).filter fun p => isBuyerTurn p.1 && isAgentTurn p.2

/-- How long a turn waited for the one behind it. -/
def waited (p : BuyerInteraction × BuyerInteraction) : Int := p.2.at_ - p.1.at_

/-- The waits of the turns within the window, thread by thread. -/
def waits (since : Datetime) (threads : List (String × List BuyerInteraction)) : List Int :=
  threads.flatMap fun thread => (answeredTurns (thread.2.filter (isSince since))).map waited

/-- The samples the pass collects. -/
def responseSamples (since : Datetime) (threads : List (String × List BuyerInteraction)) :
    List Double :=
  (threads.foldl (countThread since) {}).responseSeconds

theorem answeredTurns_cons (a b : BuyerInteraction) (turns : List BuyerInteraction) :
    answeredTurns (a :: b :: turns) =
      (if isBuyerTurn a && isAgentTurn b then [(a, b)] else []) ++ answeredTurns (b :: turns) := by
  unfold answeredTurns
  rw [List.tail_cons, List.zip_cons_cons, List.filter_cons, List.tail_cons]
  cases isBuyerTurn a && isAgentTurn b <;> rfl

/-- An agent's turn waits for nothing. -/
theorem answeredTurns_agent {a : BuyerInteraction} (h : isBuyerTurn a = false)
    (turns : List BuyerInteraction) : answeredTurns (a :: turns) = answeredTurns turns := by
  cases turns with
  | nil => rfl
  | cons b turns =>
    rw [answeredTurns_cons, h]
    rfl

@[simp] theorem agentTurn_responseSeconds (c : Counters) (turn : BuyerInteraction) :
    (c.agentTurn turn).responseSeconds = c.responseSeconds := by
  unfold Counters.agentTurn
  dsimp only
  split <;> split <;> rfl

section Pass

variable {since : Datetime} {turn : BuyerInteraction} (buyerId : String)
  (state : Counters × Option Datetime)

/-- A turn of the buyer waits, in the place of the one before. -/
theorem countTurn_of_buyer (hsince : isSince since turn = true) (h : turn.role = .buyer) :
    (countTurn since buyerId state turn).1.responseSeconds = state.1.responseSeconds ∧
      (countTurn since buyerId state turn).2 = some turn.at_ := by
  have hnot : ¬ turn.at_ < since := by simpa [isSince] using hsince
  unfold countTurn
  rw [if_neg hnot, h]
  exact ⟨rfl, rfl⟩

/-- A turn of the agent answers the turn that waits, if there is one. -/
theorem countTurn_of_agent (hsince : isSince since turn = true) (h : turn.role = .agent) :
    (countTurn since buyerId state turn).1.responseSeconds = state.1.responseSeconds ++
        (state.2.map fun lastBuyerAt => totalSeconds (turn.at_ - lastBuyerAt)).toList ∧
      (countTurn since buyerId state turn).2 = none := by
  have hnot : ¬ turn.at_ < since := by simpa [isSince] using hsince
  unfold countTurn
  rw [if_neg hnot, h]
  cases hlast : state.2 with
  | none => simp
  | some lastBuyerAt => simp

end Pass

/-- **The pass pairs.** What is kept of a thread is the last turn of the buyer that still waits: a
second message of the buyer replaces the first, and a second answer finds nobody waiting. -/
theorem countTurns_responseSeconds {since : Datetime} (buyerId : String)
    (turns : List BuyerInteraction) (state : Counters × Option Datetime)
    (last : Option BuyerInteraction) (hlast : ∀ turn ∈ last, isBuyerTurn turn = true)
    (hstate : state.2 = last.map BuyerInteraction.at_) :
    (turns.foldl (countTurn since buyerId) state).1.responseSeconds =
      state.1.responseSeconds ++ ((answeredTurns (last.toList ++ turns.filter (isSince since))).map
        waited).map totalSeconds := by
  induction turns generalizing state last with
  | nil => cases last <;> simp [answeredTurns]
  | cons turn turns ih =>
    rw [List.foldl_cons]
    cases hsince : isSince since turn with
    | false =>
      rw [countTurn_of_before buyerId state hsince, ih state last hlast hstate,
        List.filter_cons_of_neg (by rw [hsince]; exact Bool.false_ne_true)]
    | true =>
      rw [List.filter_cons_of_pos hsince]
      cases hrole : turn.role with
      | buyer =>
        have hbuyer : isBuyerTurn turn = true := decide_eq_true hrole
        have hagent : isAgentTurn turn = false := by simp [isAgentTurn, hrole]
        obtain ⟨hsamples, hnext⟩ := countTurn_of_buyer buyerId state hsince hrole
        rw [ih _ (some turn) (by simpa using hbuyer) hnext, hsamples]
        cases last with
        | none => rfl
        | some before =>
          rw [Option.toList_some, Option.toList_some, List.singleton_append, List.singleton_append,
            answeredTurns_cons, hagent, Bool.and_false]
          rfl
      | agent =>
        have hagent : isAgentTurn turn = true := decide_eq_true hrole
        have hbuyer : isBuyerTurn turn = false := by simp [isBuyerTurn, hrole]
        obtain ⟨hsamples, hnext⟩ := countTurn_of_agent buyerId state hsince hrole
        rw [ih _ none (by simp) hnext, hsamples, hstate]
        cases last with
        | none =>
          rw [Option.toList_none, List.nil_append, List.nil_append, answeredTurns_agent hbuyer]
          simp
        | some before =>
          rw [Option.toList_some, List.singleton_append, answeredTurns_cons, hlast before rfl,
            hagent, answeredTurns_agent hbuyer]
          simp [waited]

theorem responseSamples_eq (since : Datetime) (threads : List (String × List BuyerInteraction)) :
    responseSamples since threads = (waits since threads).map totalSeconds := by
  have hall : ∀ (threads : List (String × List BuyerInteraction)) (c : Counters),
      (threads.foldl (countThread since) c).responseSeconds =
        c.responseSeconds ++ (waits since threads).map totalSeconds := by
    intro threads
    induction threads with
    | nil =>
      intro c
      exact (List.append_nil _).symm
    | cons thread threads ih =>
      intro c
      have hthread : (countThread since c thread).responseSeconds = c.responseSeconds ++
          ((answeredTurns (thread.2.filter (isSince since))).map waited).map totalSeconds :=
        countTurns_responseSeconds thread.1 thread.2 (c, none) none (by simp) rfl
      rw [List.foldl_cons, ih, hthread, waits, waits, List.flatMap_cons, List.map_append,
        List.append_assoc]
  exact hall threads {}

/-! ## The floats -/

/-- A float that is not negative, and far from the largest. -/
structure Plain (q : ℚ) : Prop where
  nonneg : 0 ≤ q
  exact : Double.Exact q
  bounded : q ≤ 2 ^ 100

theorem plain_rounded {q : ℚ} (h : 0 ≤ q) (hbound : q ≤ 2 ^ 100) : Plain (Double.rounded q) where
  nonneg := Double.rounded_nonneg h
  exact := Double.exact_rounded h
  bounded := Double.rounded_le h hbound (Double.exact_pow 100)

/-- The mean of two floats, rounded twice, is still between them. -/
theorem midpoint_between {a b : ℚ} (ha : Plain a) (hb : Plain b) (hab : a ≤ b) :
    ∃ m, midpoint (.finite a) (.finite b) = .finite m ∧ a ≤ m ∧ m ≤ b := by
  have hnonneg : 0 ≤ a + b := add_nonneg ha.nonneg hb.nonneg
  have hsum : Double.ofRat (a + b) = .finite (Double.rounded (a + b)) :=
    Double.ofRat_eq_of_le hnonneg (by linarith [ha.bounded, hb.bounded])
  have hlow : a + a ≤ Double.rounded (a + b) :=
    Double.le_rounded (add_nonneg ha.nonneg ha.nonneg) (by linarith) (ha.exact.double ha.nonneg)
  have hhigh : Double.rounded (a + b) ≤ b + b :=
    Double.rounded_le hnonneg (by linarith) (hb.exact.double hb.nonneg)
  have hhalf : 0 ≤ Double.rounded (a + b) / 2 := by linarith [ha.nonneg]
  refine ⟨Double.rounded (Double.rounded (a + b) / 2), ?_, ?_, ?_⟩
  · unfold midpoint
    simp only [hsum]
    exact Double.ofRat_eq_of_le hhalf (by linarith [hb.bounded])
  · exact Double.le_rounded ha.nonneg (by linarith) ha.exact
  · exact Double.rounded_le hhalf (by linarith) hb.exact

theorem insertionSort_finite (qs : List ℚ) :
    ((qs.map Double.finite).insertionSort fun a b => a.le b = true) =
      (qs.insertionSort (· ≤ ·)).map Double.finite := by
  symm
  apply List.map_insertionSort
  intro a _ b _
  exact decide_eq_true_iff.symm

/-- At least half of the values are at most `m`, and at least half of them at least `m`. It is what
a median is for, and it does not say which of several such values it is. -/
structure Halves (values : List Double) (m : Double) : Prop where
  below : values.length ≤ 2 * values.countP fun v => v.le m
  above : values.length ≤ 2 * values.countP fun v => m.le v

theorem halves_finite {qs : List ℚ} {m : ℚ}
    (hbelow : qs.length ≤ 2 * (qs.insertionSort (· ≤ ·)).countP fun q => decide (q ≤ m))
    (habove : qs.length ≤ 2 * (qs.insertionSort (· ≤ ·)).countP fun q => decide (m ≤ q)) :
    Halves (qs.map Double.finite) (.finite m) := by
  rw [(List.perm_insertionSort (· ≤ ·) qs).countP_eq] at hbelow habove
  constructor
  · rw [List.length_map, List.countP_map]
    exact hbelow
  · rw [List.length_map, List.countP_map]
    exact habove

/-- **The median halves the values**, where there are any. -/
theorem median_halves {qs : List ℚ} (hplain : ∀ q ∈ qs, Plain q) (hne : qs ≠ []) :
    ∃ m, median (qs.map Double.finite) = some m ∧ Halves (qs.map Double.finite) m := by
  have hlen : (qs.insertionSort (· ≤ ·)).length = qs.length := List.length_insertionSort _ _
  have hpos : 0 < qs.length := List.length_pos_iff.mpr hne
  have hsorted : (qs.insertionSort (· ≤ ·)).Pairwise (· ≤ ·) := List.pairwise_insertionSort _ _
  have hmem : ∀ q ∈ qs.insertionSort (· ≤ ·), Plain q :=
    fun q hq => hplain q ((List.mem_insertionSort _).mp hq)
  unfold median
  simp only [insertionSort_finite, List.length_map, List.getElem?_map]
  rw [hlen]
  split
  · next hodd =>
    have hmid : qs.length / 2 < (qs.insertionSort (· ≤ ·)).length := by omega
    have hbelow := le_countP_le_getElem hsorted hmid
    have habove := le_countP_getElem_le hsorted hmid
    rw [List.getElem?_eq_getElem hmid]
    exact ⟨_, rfl, halves_finite (by omega) (by omega)⟩
  · next heven =>
    have hlow : qs.length / 2 - 1 < (qs.insertionSort (· ≤ ·)).length := by omega
    have hhigh : qs.length / 2 < (qs.insertionSort (· ≤ ·)).length := by omega
    rw [List.getElem?_eq_getElem hlow, List.getElem?_eq_getElem hhigh]
    have hle := List.pairwise_iff_getElem.mp hsorted _ _ hlow hhigh (by omega)
    obtain ⟨m, hm, ham, hmb⟩ := midpoint_between (hmem _ (List.getElem_mem hlow))
      (hmem _ (List.getElem_mem hhigh)) hle
    refine ⟨_, congrArg some hm, halves_finite ?_ ?_⟩
    · have hbelow := le_countP_le_getElem hsorted hlow
      have hmono := List.countP_mono_left (l := qs.insertionSort (· ≤ ·))
        (p := fun q => decide (q ≤ (qs.insertionSort (· ≤ ·))[qs.length / 2 - 1]))
        (q := fun q => decide (q ≤ m)) fun q _ hq =>
          decide_eq_true ((of_decide_eq_true hq).trans ham)
      omega
    · have habove := le_countP_getElem_le hsorted hhigh
      have hmono := List.countP_mono_left (l := qs.insertionSort (· ≤ ·))
        (p := fun q => decide ((qs.insertionSort (· ≤ ·))[qs.length / 2] ≤ q))
        (q := fun q => decide (m ≤ q)) fun q _ hq =>
          decide_eq_true (hmb.trans (of_decide_eq_true hq))
      omega

/-! ## The figures -/

/-- A conversation: its turns in the order they were written, at instants a `datetime` holds. -/
structure Chronological (turns : List BuyerInteraction) : Prop where
  ordered : turns.Pairwise fun a b => a.at_ ≤ b.at_
  instants : ∀ turn ∈ turns, Datetime.min ≤ turn.at_ ∧ turn.at_ ≤ Datetime.max

/-- What the figures over the response times promise. -/
structure ResponseTimes (since : Datetime) (threads : List (String × List BuyerInteraction))
    (out : AnalyticsOut) : Prop where
  pairs : responseSamples since threads = (waits since threads).map totalSeconds
  forward : ∀ wait ∈ waits since threads, 0 ≤ wait
  nonneg : ∀ sample ∈ responseSamples since threads, (Double.finite 0).le sample = true
  noMedian : out.medianResponseSeconds = none ↔ responseSamples since threads = []
  median : ∀ m, out.medianResponseSeconds = some m → Halves (responseSamples since threads) m
  rate : (Double.finite 0).le out.handoffRate = true ∧ out.handoffRate.le (.finite 1) = true

/-- In an ordered list, each element is in relation to the one behind it. -/
theorem rel_of_mem_zip_tail {α : Type} {r : α → α → Prop} {l : List α} (h : l.Pairwise r) {p : α × α}
    (hp : p ∈ l.zip l.tail) : r p.1 p.2 := by
  induction l with
  | nil => cases hp
  | cons a l ih =>
    obtain ⟨ha, hl⟩ := List.pairwise_cons.mp h
    cases l with
    | nil => cases hp
    | cons b l =>
      rw [List.tail_cons, List.zip_cons_cons] at hp
      rcases List.mem_cons.mp hp with rfl | hp
      · exact ha b List.mem_cons_self
      · exact ih hl hp

theorem waits_bounds {since : Datetime} {threads : List (String × List BuyerInteraction)}
    (h : ∀ thread ∈ threads, Chronological thread.2) {wait : Int} (hwait : wait ∈ waits since threads) :
    0 ≤ wait ∧ wait ≤ Datetime.max - Datetime.min := by
  obtain ⟨thread, hthread, hin⟩ := List.mem_flatMap.mp hwait
  obtain ⟨p, hp, rfl⟩ := List.mem_map.mp hin
  have hpair := (List.mem_filter.mp hp).1
  have hle : p.1.at_ ≤ p.2.at_ := rel_of_mem_zip_tail ((h thread hthread).ordered.filter _) hpair
  obtain ⟨hfirst, hsecond⟩ := List.of_mem_zip hpair
  have hlow := ((h thread hthread).instants p.1 (List.mem_filter.mp hfirst).1).1
  have hhigh := ((h thread hthread).instants p.2
    (List.mem_filter.mp (List.mem_of_mem_tail hsecond)).1).2
  exact ⟨Int.sub_nonneg_of_le hle, Int.sub_le_sub hhigh hlow⟩

/-- A wait is a float that is not negative. -/
theorem totalSeconds_plain {wait : Int}
    (h : 0 ≤ wait ∧ wait ≤ Datetime.max - Datetime.min) :
    totalSeconds wait = .finite (Double.rounded (mkRat wait 1000000)) ∧
      Plain (Double.rounded (mkRat wait 1000000)) := by
  have heq : mkRat wait 1000000 = (wait : ℚ) / 1000000 := by
    rw [Rat.mkRat_eq_div]
    norm_num
  have hnonneg : (0 : ℚ) ≤ wait := by exact_mod_cast h.1
  have hmax : (wait : ℚ) ≤ ((Datetime.max - Datetime.min : Int) : ℚ) := by exact_mod_cast h.2
  have hbound : (wait : ℚ) / 1000000 ≤ 2 ^ 100 := by
    rw [div_le_iff₀ (by norm_num)]
    refine hmax.trans ?_
    norm_num [Datetime.max, Datetime.min]
  have hquot : (0 : ℚ) ≤ (wait : ℚ) / 1000000 := div_nonneg hnonneg (by norm_num)
  rw [heq]
  refine ⟨?_, plain_rounded hquot hbound⟩
  rw [totalSeconds, heq]
  exact Double.ofRat_eq_of_le hquot (hbound.trans (by norm_num))

/-- A share of a whole is a float between 0 and 1. -/
theorem divide_bounds {a b : Nat} (hb : 0 < b) (h : a ≤ b) :
    (Double.finite 0).le (divide a b) = true ∧ (divide a b).le (.finite 1) = true := by
  have hpos : (0 : ℚ) < b := by exact_mod_cast hb
  have heq : mkRat a b = (a : ℚ) / b := by rw [Rat.mkRat_eq_div]; rfl
  have hnonneg : (0 : ℚ) ≤ (a : ℚ) / b := div_nonneg (Nat.cast_nonneg a) hpos.le
  have hone : (a : ℚ) / b ≤ 1 := (div_le_one hpos).mpr (by exact_mod_cast h)
  rw [divide, heq, Double.ofRat_eq_of_le hnonneg (hone.trans (by norm_num))]
  refine ⟨decide_eq_true (Double.rounded_nonneg hnonneg), decide_eq_true ?_⟩
  exact Double.rounded_le hnonneg hone (by simpa using Double.exact_pow 0)

/-- **The response times.** In conversations in order, the samples are the waits of the buyer's
turns that the agent answers next, the median halves them, and the share of handoffs is one: it lies
between zero and one.

Chronological threads are what both memories answer. In another order a reply could stand before its
question, and the difference of the two would be negative. -/
theorem response_times (since now : Datetime) (days : Int)
    (threads : List (String × List BuyerInteraction))
    (hthreads : ∀ thread ∈ threads, Chronological thread.2) :
    ResponseTimes since threads (analyticsOf since now days threads) := by
  have hpairs := responseSamples_eq since threads
  have hplain : ∀ wait ∈ waits since threads, _ := fun wait hwait =>
    totalSeconds_plain (waits_bounds hthreads hwait)
  have hfinite : responseSamples since threads =
      ((waits since threads).map fun wait => Double.rounded (mkRat wait 1000000)).map
        Double.finite := by
    rw [hpairs, List.map_map]
    exact List.map_congr_left fun wait hwait => (hplain wait hwait).1
  have hmem : ∀ q ∈ (waits since threads).map fun wait => Double.rounded (mkRat wait 1000000),
      Plain q := by
    intro q hq
    obtain ⟨wait, hwait, rfl⟩ := List.mem_map.mp hq
    exact (hplain wait hwait).2
  have hmedian : (analyticsOf since now days threads).medianResponseSeconds =
      Api.median (responseSamples since threads) := rfl
  have hhalves : responseSamples since threads ≠ [] →
      ∃ m, Api.median (responseSamples since threads) = some m ∧
        Halves (responseSamples since threads) m := by
    intro hne
    rw [hfinite] at hne ⊢
    exact median_halves hmem fun hnil => hne (by rw [hnil]; rfl)
  have hadds := @countThreads_adds since threads {}
  constructor
  · exact hpairs
  · exact fun wait hwait => (waits_bounds hthreads hwait).1
  · intro sample hsample
    rw [hfinite] at hsample
    obtain ⟨q, hq, rfl⟩ := List.mem_map.mp hsample
    exact decide_eq_true (hmem q hq).nonneg
  · rw [hmedian]
    constructor
    · intro hnone
      by_contra hne
      obtain ⟨m, hm, -⟩ := hhalves hne
      rw [hnone] at hm
      cases hm
    · intro hnil
      rw [hnil]
      rfl
  · intro m hm
    rw [hmedian] at hm
    by_cases hnil : responseSamples since threads = []
    · rw [hnil] at hm
      cases hm
    · obtain ⟨m', hm', hhalf⟩ := hhalves hnil
      rw [hm'] at hm
      cases hm
      exact hhalf
  · have hrate : (analyticsOf since now days threads).handoffRate =
        if 0 < (threads.foldl (countThread since) {}).messagesAgent then
          divide (threads.foldl (countThread since) {}).handoffCount
            (threads.foldl (countThread since) {}).messagesAgent
        else .finite 0 := rfl
    rw [hrate]
    split
    · next hagent =>
      refine divide_bounds hagent ?_
      rw [hadds.handoffCount, hadds.messagesAgent]
      refine Nat.add_le_add_left (List.countP_mono_left fun turn _ hturn => ?_) _
      exact (Bool.and_eq_true_iff.mp hturn).1
    · exact ⟨rfl, rfl⟩

/-- Two messages of a buyer, the second answered 1.5 s later, and two answers to nothing. -/
def oneAnswer : List BuyerInteraction :=
  [{ text := "bienvenido", role := .agent, at_ := 0 }, { text := "hola", at_ := 1000000 },
    { text := "precio?", at_ := 2000000 }, { text := "100", role := .agent, at_ := 3500000 },
    { text := "algo mas?", role := .agent, at_ := 4000000 }]

theorem response_times_oneAnswer :
    ResponseTimes 0 [("acme:1", oneAnswer)] (analyticsOf 0 5000000 1 [("acme:1", oneAnswer)]) ∧
      waits 0 [("acme:1", oneAnswer)] = [1500000] :=
  ⟨response_times 0 5000000 1 [("acme:1", oneAnswer)] (by
    intro thread hthread
    cases List.mem_singleton.mp hthread
    exact ⟨by decide, by decide⟩), by decide⟩

end Wapsell.Api
