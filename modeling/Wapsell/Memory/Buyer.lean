import Mathlib.Data.List.Sort
import Wapsell.Models
import Wapsell.Py.Number

/-!
# Buyer memory

`InMemoryBuyerMemory` of `sdk/wapsell/memory/buyer.py`: a bounded buffer of
turns for each buyer id.

A buyer id is the tenant's slug, a colon and the number, so one store
serves all tenants and the prefix is what keeps them apart in a listing.

The buffer forgets the oldest turns, so what is recalled is a tail of
what was remembered, and counts and summaries are of that tail. A bucket
that is empty stays in the dictionary and is listed nowhere. The
metadata of a turn is kept, although nothing in the memory reads it.
-/

namespace Wapsell.Memory

open Lib Py

/-- Either side of the chat. -/
inductive Role
  | buyer
  | agent
  deriving DecidableEq, Repr

/-- One conversational turn. -/
structure BuyerInteraction where
  text : String
  role : Role := .buyer
  at_ : Datetime
  metadata : Dict String String := Dict.empty

/-- One row of the dashboard's conversations list. -/
structure BuyerThreadSummary where
  buyerId : String
  messageCount : Nat
  lastAt : Datetime
  lastText : String
  deriving DecidableEq, Repr

/-- `f"[{turn.role}] {turn.text}"`. -/
def BuyerInteraction.line (turn : BuyerInteraction) : String :=
  let role := match turn.role with
    | .buyer => "buyer"
    | .agent => "agent"
  s!"[{role}] {turn.text}"

/-- `summary`, from the turns recalled. -/
def summaryOf (recent : List BuyerInteraction) : String :=
  if recent = [] then "no prior interactions" else join " | " (recent.map BuyerInteraction.line)

/-- `_store`. -/
abbrev BuyerMemory := Dict String (List BuyerInteraction)

namespace BuyerMemory

/-- The bucket after an append: the oldest turns beyond `maxItems` go. A bound of zero keeps
none. -/
def trimmed (maxItems : Nat) (bucket : List BuyerInteraction) : List BuyerInteraction :=
  bucket.drop (bucket.length - maxItems)

/-- `remember`. -/
def remember (memory : BuyerMemory) (maxItems : Nat) (buyerId : String)
    (interaction : BuyerInteraction) : BuyerMemory :=
  memory.set buyerId (trimmed maxItems (memory.getD buyerId [] ++ [interaction]))

/-- `recall`: the last `limit` turns, oldest first.

Zero and a negative limit recall nothing. -/
def recall_ (memory : BuyerMemory) (buyerId : String) (limit : Option Int) : List BuyerInteraction :=
  let bucket := memory.getD buyerId []
  match limit with
  | none => bucket
  | some n => if n ≤ 0 then [] else bucket.drop (bucket.length - n.toNat)

end BuyerMemory

/-- `_PREVIEW_MAX`. -/
def PREVIEW_MAX : Nat := 120

/-- `_preview`. -/
def preview (text : String) : String :=
  let oneLine := strip (replaceChar '\n' " " text)
  if oneLine.length ≤ PREVIEW_MAX then oneLine
  else rstrip (take (PREVIEW_MAX - 1) oneLine) ++ "…"

/-- `prefix is None or buyer_id.startswith(prefix)`. -/
def hasPrefix (prefix_ : Option String) (buyerId : String) : Bool :=
  match prefix_ with
  | none => true
  | some p => startsWith p buyerId

/-- The summary of a bucket that is not empty, if its buyer id begins with the prefix.

The count is of the turns that are kept, so it stops at the size of the buffer. -/
def summaryOfBucket (prefix_ : Option String) (entry : String × List BuyerInteraction) :
    Option BuyerThreadSummary :=
  if hasPrefix prefix_ entry.1 then
    entry.2.getLast?.map fun last =>
      { buyerId := entry.1, messageCount := entry.2.length, lastAt := last.at_
        lastText := preview last.text }
  else none

/-- `list_threads`: most recently active first. -/
def BuyerMemory.listThreads (memory : BuyerMemory) (prefix_ : Option String) (limit : Int) :
    List BuyerThreadSummary :=
  upTo limit ((memory.entries.filterMap (summaryOfBucket prefix_)).insertionSort fun a b =>
    b.lastAt ≤ a.lastAt)

end Wapsell.Memory
