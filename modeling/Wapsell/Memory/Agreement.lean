import Wapsell.Memory.Postgres

/-!
# The two buyer memories agree

What a memory is for: of everything remembered of a buyer, the last
`max_items` turns are there, and a recall answers the last `limit` of
them. Both adapters refine this: the ring buffer by what it keeps, the
table by what it keeps and by how its numbers and timestamps order it.

The timestamps must not go back, since the table orders by them and the
ring buffer by the order of the calls. Turns of one instant are allowed:
there the sequence number decides, which is the order of the calls
again.

What this does not establish: that two processes which remember turns of
one buyer at once agree on their order. The calls are one after the
other.
-/

namespace Wapsell.Memory

open Lib Py

/-- What was remembered, and of whom, in order. It is the abstract state: neither adapter keeps it,
and each keeps what the last `max_items` turns of every buyer need. -/
abbrev History := List (String × BuyerInteraction)

/-- The turns of one buyer. -/
def History.of (history : History) (buyerId : String) : List BuyerInteraction :=
  (history.filter fun call => call.1 = buyerId).map Prod.snd

/-- The turns a recall of at most `limit` answers: of the last `max_items` turns the last `limit`,
oldest first. Without a limit it is all of them. -/
def recalled (maxItems : Nat) (turns : List BuyerInteraction) (limit : Option Int) :
    List BuyerInteraction :=
  lastN (match limit with
    | none => maxItems
    | some n => min n.toNat maxItems) turns

/-- `a == b`: the metadata are dictionaries. -/
structure BuyerInteraction.Same (a b : BuyerInteraction) : Prop where
  text : a.text = b.text
  role : a.role = b.role
  at_ : a.at_ = b.at_
  metadata : a.metadata.Same b.metadata

/-- The ring buffer after a sequence of calls. -/
def BuyerMemory.rememberAll (maxItems : Nat) (history : History) : BuyerMemory :=
  history.foldl (fun memory call => memory.remember maxItems call.1 call.2) Dict.empty

/-- The table after a sequence of calls. -/
def BuyerTable.rememberAll (maxItems : Nat) (history : History) : BuyerTable :=
  history.foldl (fun table call => table.remember maxItems call.1 call.2) BuyerTable.empty

theorem History.of_append (history : History) (buyerId : String) (x : BuyerInteraction)
    (buyerId' : String) : History.of (history ++ [(buyerId, x)]) buyerId' =
      history.of buyerId' ++ if buyerId = buyerId' then [x] else [] := by
  rw [History.of, List.filter_append, List.map_append]
  by_cases h : buyerId = buyerId'
  · simp [h, History.of]
  · simp [h, History.of]

/-- The timestamps of each buyer do not decrease. Different buyers' turns may come in any order. -/
def History.Monotone (history : History) : Prop :=
  ∀ buyerId, (history.of buyerId).Pairwise fun x y => x.at_ ≤ y.at_

theorem History.monotone_append {history : History} {buyerId : String} {x : BuyerInteraction} :
    History.Monotone (history ++ [(buyerId, x)]) ↔
      history.Monotone ∧ ∀ y ∈ history.of buyerId, y.at_ ≤ x.at_ := by
  have hpair : ∀ buyerId', (History.of (history ++ [(buyerId, x)]) buyerId').Pairwise
      (fun x y => x.at_ ≤ y.at_) ↔ (history.of buyerId').Pairwise (fun x y => x.at_ ≤ y.at_) ∧
        (buyerId = buyerId' → ∀ y ∈ history.of buyerId', y.at_ ≤ x.at_) := by
    intro buyerId'
    rw [History.of_append]
    by_cases hb : buyerId = buyerId'
    · simp [hb, List.pairwise_append]
    · simp [hb]
  constructor
  · intro h
    exact ⟨fun buyerId' => ((hpair buyerId').mp (h buyerId')).1,
      ((hpair buyerId).mp (h buyerId)).2 rfl⟩
  · rintro ⟨hinit, hlate⟩ buyerId'
    refine (hpair buyerId').mpr ⟨hinit buyerId', fun hb => ?_⟩
    subst hb
    exact hlate

/-! ## The ring buffer -/

/-- Each bucket is the last turns of its buyer, in the order of the calls. -/
def BuyerMemory.Holds (maxItems : Nat) (history : History) (memory : BuyerMemory) : Prop :=
  ∀ buyerId, memory.getD buyerId [] = lastN maxItems (history.of buyerId)

theorem BuyerMemory.Holds.remember {maxItems : Nat} {history : History} {memory : BuyerMemory}
    (h : memory.Holds maxItems history) (buyerId : String) (x : BuyerInteraction) :
    (memory.remember maxItems buyerId x).Holds maxItems (history ++ [(buyerId, x)]) := by
  intro buyerId'
  rw [History.of_append, BuyerMemory.remember, Dict.getD, Dict.get?_set]
  by_cases hb : buyerId = buyerId'
  · subst hb
    rw [if_pos rfl, if_pos rfl, Option.getD_some, h buyerId]
    exact lastN_append maxItems _ _
  · rw [if_neg hb, if_neg hb, List.append_nil]
    exact h buyerId'

theorem BuyerMemory.holds_rememberAll (maxItems : Nat) (history : History) :
    (BuyerMemory.rememberAll maxItems history).Holds maxItems history := by
  induction history using List.reverseRecOn with
  | nil => exact fun buyerId => List.drop_nil.symm
  | append_singleton history call ih =>
    rw [BuyerMemory.rememberAll, List.foldl_append]
    exact ih.remember call.1 call.2

/-- A recall of the ring buffer. -/
theorem BuyerMemory.Holds.recall_ {maxItems : Nat} {history : History} {memory : BuyerMemory}
    (h : memory.Holds maxItems history) (buyerId : String) (limit : Option Int) :
    memory.recall_ buyerId limit = recalled maxItems (history.of buyerId) limit := by
  unfold BuyerMemory.recall_ recalled
  rw [h buyerId]
  cases limit with
  | none => rfl
  | some n =>
    dsimp only
    split
    next hn =>
      rw [Int.toNat_of_nonpos hn, Nat.zero_min]
      simp [lastN]
    next => exact lastN_lastN _ _ _

/-! ## The table -/

/-- The rows of a buyer are in the order of their timestamps and of their numbers at once, so that
both reads come to the same order. -/
def InOrder (rows : List BuyerRow) : Prop :=
  rows.Pairwise fun a b => a.at_ ≤ b.at_ ∧ a.id < b.id

/-- Of two rows in order, the later one is newer. -/
theorem newestFirst_iff_of_lt {a b : BuyerRow} (h : a.at_ ≤ b.at_ ∧ a.id < b.id) :
    newestFirst b a ∧ ¬ newestFirst a b := by
  obtain ⟨hat, hid⟩ := h
  constructor
  · rcases Int.lt_or_eq_of_le hat with hlt | heq
    · exact .inl hlt
    · exact .inr ⟨heq, hid.le⟩
  · rintro (hlt | ⟨-, hle⟩)
    · exact Int.not_le.mpr hlt hat
    · exact Nat.not_le.mpr hid hle

/-- Newest first is backwards. -/
theorem InOrder.insertionSort_newestFirst {rows : List BuyerRow} (h : InOrder rows) :
    rows.insertionSort newestFirst = rows.reverse :=
  insertionSort_eq_reverse (h.imp fun hab => (newestFirst_iff_of_lt hab).2)

/-- Oldest first is as they stand. -/
theorem InOrder.insertionSort_oldestFirst {rows : List BuyerRow} (h : InOrder rows) :
    rows.insertionSort oldestFirst = rows :=
  List.Pairwise.insertionSort_eq (h.imp fun hab => (newestFirst_iff_of_lt hab).1)

/-- The newest `n`, oldest first, are the last `n`. -/
theorem InOrder.last {rows : List BuyerRow} (h : InOrder rows) (n : Nat) :
    ((rows.insertionSort newestFirst).take n).insertionSort oldestFirst = lastN n rows := by
  have hlast : InOrder (lastN n rows) := h.sublist (List.drop_sublist _ _)
  rw [h.insertionSort_newestFirst, List.take_reverse]
  show (lastN n rows).reverse.insertionSort oldestFirst = lastN n rows
  rw [insertionSort_eq_reverse, List.reverse_reverse]
  exact List.pairwise_reverse.mpr (hlast.imp fun hab => (newestFirst_iff_of_lt hab).2)

/-- Deleting all but the newest `n` of numbered rows leaves the last `n`. -/
theorem filter_not_mem_take {rows : List BuyerRow} (h : rows.Pairwise fun a b => a.id < b.id)
    (k : Nat) : rows.filter (fun r => r.id ∉ (rows.take k).map BuyerRow.id) = rows.drop k := by
  have hsplit := List.take_append_drop k rows
  have hpair := h
  rw [← hsplit, List.pairwise_append] at hpair
  have htake : (rows.take k).filter (fun r => r.id ∉ (rows.take k).map BuyerRow.id) = [] := by
    refine List.filter_eq_nil_iff.mpr fun r hr => ?_
    rw [decide_eq_true_eq, not_not]
    exact List.mem_map_of_mem hr
  have hdrop : (rows.drop k).filter (fun r => r.id ∉ (rows.take k).map BuyerRow.id) = rows.drop k := by
    refine List.filter_eq_self.mpr fun r hr => ?_
    rw [decide_eq_true_eq, List.mem_map]
    rintro ⟨r', hr', hid⟩
    have := hpair.2.2 r' hr' r hr
    omega
  conv_lhs => rw [← hsplit]
  rw [List.filter_append, hsplit, htake, hdrop, List.nil_append]

namespace BuyerTable

theorem ofBuyer_keep (table : BuyerTable) (p : BuyerRow → Bool) (buyerId : String) :
    (table.keep p).ofBuyer buyerId = (table.ofBuyer buyerId).filter p :=
  List.filter_comm _ _ _

/-- The buyer's own rows after the trim. -/
theorem ofBuyer_trim {table : BuyerTable} {buyerId : String} (h : InOrder (table.ofBuyer buyerId))
    (maxItems : Nat) :
    (table.trim buyerId maxItems).ofBuyer buyerId = lastN maxItems (table.ofBuyer buyerId) := by
  rw [trim, ofBuyer_keep, h.insertionSort_newestFirst, List.drop_reverse, List.map_reverse]
  simp only [List.mem_reverse]
  exact filter_not_mem_take (h.imp fun hab => hab.2) _

/-- A number is the number of one row. -/
theorem eq_of_id_eq {table : BuyerTable} {r r' : BuyerRow} (hr : r ∈ table.rows)
    (hr' : r' ∈ table.rows) (h : r.id = r'.id) : r = r' := by
  have hnodup : (table.rows.map BuyerRow.id).Nodup :=
    List.pairwise_map.mpr (table.numbered.imp Nat.ne_of_lt)
  exact List.inj_on_of_nodup_map hnodup hr hr' h

/-- The trim of one buyer leaves the rows of the others. -/
theorem ofBuyer_trim_ne {table : BuyerTable} {buyerId buyerId' : String} (hne : buyerId ≠ buyerId')
    (maxItems : Nat) : (table.trim buyerId maxItems).ofBuyer buyerId' = table.ofBuyer buyerId' := by
  rw [trim, ofBuyer_keep, List.filter_eq_self]
  intro r hr
  obtain ⟨hrow, hbuyer⟩ := List.mem_filter.mp hr
  rw [decide_eq_true_eq, List.mem_map]
  rintro ⟨r', hr', hid⟩
  have hof := (List.mem_insertionSort _).mp (List.mem_of_mem_drop hr')
  obtain ⟨hrow', hbuyer'⟩ := List.mem_filter.mp hof
  rw [eq_of_id_eq hrow' hrow hid] at hbuyer'
  simp only [decide_eq_true_eq] at hbuyer hbuyer'
  exact hne (hbuyer'.symm.trans hbuyer)

/-- A turn as the table gives it back: the keys of its metadata are in the order of JSONB. -/
def stored (x : BuyerInteraction) : BuyerInteraction :=
  { x with metadata := x.metadata.sortKeys jsonbBefore }

/-- The rows of each buyer are in order, and they are the last turns. -/
structure Holds (maxItems : Nat) (history : History) (table : BuyerTable) : Prop where
  inOrder : ∀ buyerId, InOrder (table.ofBuyer buyerId)
  turns : ∀ buyerId, (table.ofBuyer buyerId).map BuyerRow.toInteraction =
    lastN maxItems ((history.of buyerId).map stored)

theorem ofBuyer_insert (table : BuyerTable) (buyerId : String) (x : BuyerInteraction)
    (buyerId' : String) : (table.insert buyerId x).ofBuyer buyerId' =
      table.ofBuyer buyerId' ++ if buyerId = buyerId' then [table.newRow buyerId x] else [] := by
  rw [ofBuyer, insert, List.filter_append]
  by_cases h : buyerId = buyerId'
  · simp [h, ofBuyer, newRow]
  · simp [h, ofBuyer, newRow]

/-- The rows stay in order under a turn no earlier than those that are there. -/
theorem Holds.inOrder_insert {maxItems : Nat} {history : History} {table : BuyerTable}
    (h : table.Holds maxItems history) {buyerId : String} {x : BuyerInteraction}
    (hlate : ∀ y ∈ history.of buyerId, y.at_ ≤ x.at_) (buyerId' : String) :
    InOrder ((table.insert buyerId x).ofBuyer buyerId') := by
  rw [ofBuyer_insert]
  by_cases hb : buyerId = buyerId'
  · subst hb
    rw [if_pos rfl]
    refine List.pairwise_append.mpr ⟨h.inOrder buyerId, List.pairwise_singleton _ _, ?_⟩
    intro a ha b hb
    cases List.mem_singleton.mp hb
    constructor
    · have hmem : a.toInteraction ∈ lastN maxItems ((history.of buyerId).map stored) :=
        h.turns buyerId ▸ List.mem_map_of_mem ha
      obtain ⟨y, hy, heq⟩ := List.mem_map.mp (List.mem_of_mem_drop hmem)
      have hold : a.at_ = y.at_ := (congrArg BuyerInteraction.at_ heq).symm
      rw [hold]
      exact hlate y hy
    · exact table.below a (List.mem_filter.mp ha).1
  · rw [if_neg hb, List.append_nil]
    exact h.inOrder buyerId'

theorem Holds.remember {maxItems : Nat} {history : History} {table : BuyerTable}
    (h : table.Holds maxItems history) {buyerId : String} {x : BuyerInteraction}
    (hlate : ∀ y ∈ history.of buyerId, y.at_ ≤ x.at_) :
    (table.remember maxItems buyerId x).Holds maxItems (history ++ [(buyerId, x)]) := by
  have horder := h.inOrder_insert hlate
  refine ⟨fun buyerId' => ?_, fun buyerId' => ?_⟩
  · exact (horder buyerId').sublist (by
      rw [BuyerTable.remember, trim, ofBuyer_keep]
      exact List.filter_sublist)
  · have hrows := ofBuyer_insert table buyerId x buyerId'
    rw [History.of_append]
    by_cases hb : buyerId = buyerId'
    · subst hb
      rw [if_pos rfl] at hrows ⊢
      rw [BuyerTable.remember, ofBuyer_trim (horder buyerId), hrows, map_lastN, List.map_append,
        h.turns buyerId, List.map_append, lastN_append]
      rfl
    · rw [if_neg hb, List.append_nil] at hrows ⊢
      rw [BuyerTable.remember, ofBuyer_trim_ne hb, hrows]
      exact h.turns buyerId'

theorem holds_rememberAll (maxItems : Nat) {history : History} (h : history.Monotone) :
    (BuyerTable.rememberAll maxItems history).Holds maxItems history := by
  induction history using List.reverseRecOn with
  | nil => exact ⟨fun _ => List.Pairwise.nil, fun _ => List.drop_nil.symm⟩
  | append_singleton history call ih =>
    obtain ⟨buyerId, x⟩ := call
    obtain ⟨hinit, hlate⟩ := History.monotone_append.mp h
    rw [BuyerTable.rememberAll, List.foldl_append]
    exact (ih hinit).remember hlate

/-- A recall of the table. -/
theorem Holds.recall_ {maxItems : Nat} {history : History} {table : BuyerTable}
    (h : table.Holds maxItems history) (buyerId : String) (limit : Option Int) :
    table.recall_ buyerId limit = (recalled maxItems (history.of buyerId) limit).map stored := by
  unfold BuyerTable.recall_ recalled
  rw [map_lastN]
  cases limit with
  | none =>
    dsimp only
    rw [recallAll, (h.inOrder buyerId).insertionSort_oldestFirst, h.turns buyerId]
  | some n =>
    dsimp only
    split
    next hn =>
      rw [Int.toNat_of_nonpos hn, Nat.zero_min]
      simp [lastN]
    next =>
      rw [recallLimited, (h.inOrder buyerId).last, map_lastN, h.turns buyerId, lastN_lastN]

theorem stored_same (x : BuyerInteraction) : (stored x).Same x :=
  ⟨rfl, rfl, rfl, Dict.sortKeys_same _ _⟩

end BuyerTable

/-- **The buyer memories agree.** After any calls of `remember`, in each buyer's timestamps not
decreasing, both adapters recall the same list, and it is the last `min(limit, max_items)` turns of
the buyer in the order they were remembered.

The two lists are the same but for the order of the keys of a metadata object, which JSONB does not
keep and `==` does not see. -/
theorem recall_agrees (maxItems : Nat) {history : History} (h : history.Monotone)
    (buyerId : String) (limit : Option Int) :
    List.Forall₂ BuyerInteraction.Same
        ((BuyerTable.rememberAll maxItems history).recall_ buyerId limit)
        ((BuyerMemory.rememberAll maxItems history).recall_ buyerId limit) ∧
      (BuyerMemory.rememberAll maxItems history).recall_ buyerId limit =
        recalled maxItems (history.of buyerId) limit := by
  have hmemory := (BuyerMemory.holds_rememberAll maxItems history).recall_ buyerId limit
  refine ⟨?_, hmemory⟩
  rw [hmemory, (BuyerTable.holds_rememberAll maxItems h).recall_, List.forall₂_map_left_iff,
    List.forall₂_same]
  exact fun x _ => BuyerTable.stored_same x

/-- Two turns of one instant. -/
def twoTurns : History :=
  [("acme:549", { text := "hola", at_ := 0, metadata := Dict.empty.set "role" "b" }),
    ("acme:549", { text := "chau", at_ := 0 })]

theorem recall_agrees_twoTurns :
    List.Forall₂ BuyerInteraction.Same
        ((BuyerTable.rememberAll 1 twoTurns).recall_ "acme:549" (some 5))
        ((BuyerMemory.rememberAll 1 twoTurns).recall_ "acme:549" (some 5)) ∧
      (BuyerMemory.rememberAll 1 twoTurns).recall_ "acme:549" (some 5) =
        recalled 1 (twoTurns.of "acme:549") (some 5) := by
  refine recall_agrees 1 (fun buyerId => ?_) "acme:549" (some 5)
  by_cases hb : "acme:549" = buyerId
  · simp [History.of, twoTurns, hb]
  · simp [History.of, twoTurns, hb]

end Wapsell.Memory
