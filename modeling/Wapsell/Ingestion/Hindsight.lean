import Wapsell.Models
import Wapsell.Py.Number

/-!
# Hindsight

`sdk/wapsell/ingestion/hindsight.py`: `InMemoryHindsight`, a substring
search over the tenant's facts in the order they were added, and the text
search query that `PostgresHindsight` sends.

The two adapters do not search alike: in memory the whole text must
occur in a fact, in the table any word of it may. Only the text that is
sent is modelled of the second; what `to_tsvector` does with it is
Postgres's business.

`query` answers the oldest matches first and stops at `top_k`. Whether
that is what a caller wants is asked where the two orders are compared.
-/

namespace Wapsell.Ingestion

open Py

/-- `_facts`. -/
abbrev Hindsight := List Fact

namespace Hindsight

/-- `add_fact`. -/
def addFact (facts : Hindsight) (fact : Fact) : Hindsight := facts ++ [fact]

theorem foldl_addFact (facts : Hindsight) (added : List Fact) :
    added.foldl addFact facts = facts ++ added := by
  induction added generalizing facts with
  | nil => exact (List.append_nil facts).symm
  | cons f added ih =>
    rw [List.foldl_cons, ih, addFact, List.append_assoc]
    rfl

/-- `query`: the tenant's facts that contain the lowered text, the first `top_k` of them. A tenant
that is not given matches every fact.

A blank text finds nothing, also where no tenant is given. -/
def query (U : Unicode) (facts : Hindsight) (text : String) (tenantId : Option String)
    (topK : Int) : List Fact :=
  let needle := strip (lower U text)
  let scope :=
    if needle ≠ "" then facts.filter fun f => tenantId = none ∨ tenantId = some f.tenantId else []
  upTo topK (scope.filter fun f => isSubstring needle (lower U f.content))

/-- `all_for`. -/
def allFor (facts : Hindsight) (tenantId : String) : List Fact :=
  facts.filter fun f => f.tenantId = tenantId

end Hindsight

/-- The maximal runs of word characters, after the run read so far: what `\w+` finds, from left to
right. -/
def wordRuns (U : Unicode) : List Char → List Char → List String
  | [], run => if run = [] then [] else [String.ofList run.reverse]
  | c :: cs, run =>
    if isWord U c then wordRuns U cs (c :: run)
    else (if run = [] then [] else [String.ofList run.reverse]) ++ wordRuns U cs []

/-- `_MIN_TOKEN_LEN`. -/
def MIN_TOKEN_LEN : Nat := 3

/-- `_to_or_tsquery`.

A word is kept once, at its first place. No word that is long enough gives the empty text, and then
nothing is sent. -/
def toOrTsquery (U : Unicode) (text : String) : String :=
  let tokens := (wordRuns U text.toList []).map (lower U)
  let significant := tokens.filter fun t => MIN_TOKEN_LEN ≤ t.length
  let distinct := significant.foldl (fun (d : Lib.Dict String Unit) t => d.set t ()) Lib.Dict.empty
  join " | " distinct.keys

end Wapsell.Ingestion
