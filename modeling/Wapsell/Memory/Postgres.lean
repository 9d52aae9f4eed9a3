import Mathlib.Data.Char
import Mathlib.Data.List.Lex
import Wapsell.Lib.Like
import Wapsell.Lib.Sort
import Wapsell.Memory.Buyer

/-!
# Buyer memory in Postgres

`PostgresBuyerMemory` of `sdk/wapsell/memory/buyer.py` over the table
`buyer_interactions`. The rows are listed in the order they were inserted
and numbered by a sequence, which is what the fields of the table keep. An
insert is followed by a delete of the buyer's rows beyond the newest
`max_items`, and the reads order by the timestamp, then by the number.

A refused statement is the matter of the transaction model; here every
value is one the columns can hold, and every limit and every `max_items`
one that LIMIT and OFFSET take: these are of type `int8`, so the database
refuses a number outside of 64 bits where the ring buffer goes on with it.
A negative limit of `list_threads` is refused as well, and answered with
`none`; `recall` sends none that is not positive.
-/

namespace Wapsell.Memory

open Lib Py

/-- A row of `buyer_interactions`. -/
structure BuyerRow where
  id : Nat
  buyerId : String
  role : Role
  text : String
  metadata : Dict String String
  at_ : Datetime

/-- The table, with the next value of its sequence.

The rows stand in the order of their ids, so an order by the timestamp that keeps ties in place is
an order by both. -/
structure BuyerTable where
  rows : List BuyerRow
  nextId : Nat
  numbered : rows.Pairwise fun a b => a.id < b.id
  below : ∀ r ∈ rows, r.id < nextId

/-- The order of the keys of a JSONB object: by length, then by bytes.

A JSONB object is stored with its keys in this order, and what is read back has them so. -/
def jsonbBefore (a b : String) : Prop :=
  a.utf8ByteSize < b.utf8ByteSize ∨ a.utf8ByteSize = b.utf8ByteSize ∧ a.toList ≤ b.toList

instance : DecidableRel jsonbBefore := fun _ _ => inferInstanceAs (Decidable (_ ∨ _))

/-- `ORDER BY at DESC, id DESC`. -/
def newestFirst (a b : BuyerRow) : Prop := b.at_ < a.at_ ∨ b.at_ = a.at_ ∧ b.id ≤ a.id

instance : DecidableRel newestFirst := fun _ _ => inferInstanceAs (Decidable (_ ∨ _))

/-- `ORDER BY at, id`. -/
def oldestFirst (a b : BuyerRow) : Prop := newestFirst b a

instance : DecidableRel oldestFirst := fun _ _ => inferInstanceAs (Decidable (_ ∨ _))

/-- `_row_to_interaction`. -/
def BuyerRow.toInteraction (row : BuyerRow) : BuyerInteraction where
  text := row.text
  role := row.role
  at_ := row.at_
  metadata := row.metadata

namespace BuyerTable

/-- The table as created. -/
def empty : BuyerTable := ⟨[], 1, List.Pairwise.nil, nofun⟩

/-- The row of an interaction, numbered by the sequence. -/
def newRow (table : BuyerTable) (buyerId : String) (interaction : BuyerInteraction) : BuyerRow where
  id := table.nextId
  buyerId := buyerId
  role := interaction.role
  text := interaction.text
  metadata := interaction.metadata.sortKeys jsonbBefore
  at_ := interaction.at_

/-- `_BUYER_INSERT_SQL`.

The number comes from the sequence and is never given out again. -/
def insert (table : BuyerTable) (buyerId : String) (interaction : BuyerInteraction) :
    BuyerTable where
  rows := table.rows ++ [table.newRow buyerId interaction]
  nextId := table.nextId + 1
  numbered := by
    refine List.pairwise_append.mpr ⟨table.numbered, List.pairwise_singleton _ _, fun a ha b hb => ?_⟩
    cases List.mem_singleton.mp hb
    exact table.below a ha
  below := by
    intro r hr
    rcases List.mem_append.mp hr with hold | hnew
    · exact (table.below r hold).trans (Nat.lt_succ_self _)
    · cases List.mem_singleton.mp hnew
      exact Nat.lt_succ_self _

/-- The rows that `p` keeps. -/
def keep (table : BuyerTable) (p : BuyerRow → Bool) : BuyerTable where
  rows := table.rows.filter p
  nextId := table.nextId
  numbered := table.numbered.sublist List.filter_sublist
  below r hr := table.below r (List.mem_filter.mp hr).1

/-- `WHERE buyer_id = %s`. -/
def ofBuyer (table : BuyerTable) (buyerId : String) : List BuyerRow :=
  table.rows.filter fun r => r.buyerId = buyerId

/-- `_BUYER_TRIM_SQL`.

It counts by the timestamp and not by the insertion, so a turn that is dated back can be the one
that goes. -/
def trim (table : BuyerTable) (buyerId : String) (maxItems : Nat) : BuyerTable :=
  let beyond := ((table.ofBuyer buyerId).insertionSort newestFirst).drop maxItems
  table.keep fun r => r.id ∉ beyond.map BuyerRow.id

/-- `_remember_sync`. -/
def remember (table : BuyerTable) (maxItems : Nat) (buyerId : String)
    (interaction : BuyerInteraction) : BuyerTable :=
  (table.insert buyerId interaction).trim buyerId maxItems

/-- `_BUYER_RECALL_ALL_SQL`. -/
def recallAll (table : BuyerTable) (buyerId : String) : List BuyerRow :=
  (table.ofBuyer buyerId).insertionSort oldestFirst

/-- `_BUYER_RECALL_LIMITED_SQL`.

The newest are taken first and then turned round. -/
def recallLimited (table : BuyerTable) (buyerId : String) (limit : Nat) : List BuyerRow :=
  (((table.ofBuyer buyerId).insertionSort newestFirst).take limit).insertionSort oldestFirst

/-- `recall`. -/
def recall_ (table : BuyerTable) (buyerId : String) (limit : Option Int) : List BuyerInteraction :=
  match limit with
  | none => (table.recallAll buyerId).map BuyerRow.toInteraction
  | some n =>
    if n ≤ 0 then [] else (table.recallLimited buyerId n.toNat).map BuyerRow.toInteraction

/-- The newest row of a buyer among the selected ones, with the number of them: `DISTINCT ON
(buyer_id)` under `ORDER BY buyer_id, at DESC, id DESC`.

The text is cut by the query, where `preview` folds its lines and puts an ellipsis. -/
def threadOf (selected : List BuyerRow) (buyerId : String) : Option BuyerThreadSummary :=
  let mine := selected.filter fun r => r.buyerId = buyerId
  (mine.insertionSort newestFirst).head?.map fun row =>
    { buyerId, messageCount := mine.length, lastAt := row.at_, lastText := take PREVIEW_MAX row.text }

/-- `WHERE (%s::text IS NULL OR buyer_id LIKE %s)`, with the pattern `f"{prefix}%"`.

The prefix is not escaped, so a percent sign, an underscore or a backslash in it is read as a
pattern. -/
def selects (prefix_ : Option String) (row : BuyerRow) : Bool :=
  match prefix_ with
  | none => true
  | some p => like row.buyerId.toList (p ++ "%").toList = some true

/-- `_list_threads_sync`: `none` is the error of a negative `LIMIT`. Threads of one instant, which
Postgres leaves in any order, stay in the order of their buyer ids. -/
def listThreads (table : BuyerTable) (prefix_ : Option String) (limit : Int) :
    Option (List BuyerThreadSummary) :=
  let selected := table.rows.filter (selects prefix_)
  let buyers := (selected.map BuyerRow.buyerId).dedup.insertionSort fun a b => a.toList ≤ b.toList
  let threads := (buyers.filterMap (threadOf selected)).insertionSort fun a b => b.lastAt ≤ a.lastAt
  if limit < 0 then none else some (threads.take limit.toNat)

end BuyerTable

end Wapsell.Memory
