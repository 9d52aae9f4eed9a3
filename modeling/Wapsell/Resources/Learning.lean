import Mathlib.Data.Char
import Mathlib.Data.List.Lex
import Wapsell.Resources.Repository

/-!
# The learning loop

`sdk/wapsell/resources/learning.py`: which fields the newest resources of a
tenant have, which fields its searches filter on, and the Markdown hints
the SOUL prompt carries. The two readings of the store are taken as they
come; nothing here looks at what kind of resource a row is.

The order of the fields decides which hints are shown, and is total: by
presence, then by name. The examples of a field are the first values
met, shortened, so they depend on the order of the sample.

**What this does not establish.** That the hints help, or that a field
means what its name says. An integer that no double holds makes the
survey of a tenant raise, and the agent loop then goes on without hints.
-/

namespace Wapsell.Resources

open Lib Py

/-- One field discovered in a resource sample. -/
structure FieldFrequency where
  name : String
  presence : Double
  exampleValues : List String
  isNumeric : Bool

/-- One filter key, range prefixes stripped. -/
structure FilterFrequency where
  key : String
  count : Nat

/-- `_NUMERIC_THRESHOLD`. -/
def NUMERIC_THRESHOLD : Double := divide 7 10
/-- `_MAX_EXAMPLES_PER_FIELD`. -/
def MAX_EXAMPLES_PER_FIELD : Nat := 4
/-- `_EXAMPLE_MAX_CHARS`. -/
def EXAMPLE_MAX_CHARS : Nat := 60
/-- `_DEFAULT_SAMPLE_SIZE`. -/
def DEFAULT_SAMPLE_SIZE : Nat := 50
/-- `_DEFAULT_DAYS_WINDOW`. -/
def DEFAULT_DAYS_WINDOW : Int := 30
/-- `_DEFAULT_TOP_FILTERS`. -/
def DEFAULT_TOP_FILTERS : Nat := 5
/-- `_MIN_PRESENCE_FOR_HINT`. -/
def MIN_PRESENCE_FOR_HINT : Double := divide 1 4

/-- `_is_numeric`: a boolean is no number, and an integer past the largest double raises.

Only a `TypeError` and a `ValueError` are caught in the source, so the `OverflowError` of an integer
comes through. -/
def isNumericValue (U : Unicode) (value : Json) : Except Exc Bool :=
  match value with
  | .bool _ => .ok false
  | value =>
    match value.toFloat U with
    | .ok _ => .ok true
    | .error .typeError => .ok false
    | .error .valueError => .ok false
    | .error e => .error e

/-- `_short_value`.

The ellipsis takes the place of the last character, so a shortened text is never longer than the
limit. -/
def shortValue (U : Unicode) (value : Json) : String :=
  let text := strip (value.toStr U)
  if text.length ≤ EXAMPLE_MAX_CHARS then text
  else rstrip (take (EXAMPLE_MAX_CHARS - 1) text) ++ "…"

/-- The three tables of `discover_schema`. -/
structure Tally where
  counts : Dict String Nat := Dict.empty
  examples : Dict String (List String) := Dict.empty
  numericVotes : Dict String Nat := Dict.empty

/-- One field of one sampled resource.

The value is read as a number last, so where that raises the whole pass ends and no table is
answered. -/
def Tally.add (U : Unicode) (tally : Tally) (name : String) (value : Json) : Except Exc Tally := do
  let bucket := tally.examples.getD name []
  let numeric ← isNumericValue U value
  pure {
    counts := tally.counts.set name (tally.counts.getD name 0 + 1)
    examples := tally.examples.set name
      (if bucket.length < MAX_EXAMPLES_PER_FIELD then bucket ++ [shortValue U value] else bucket)
    numericVotes :=
      if numeric then tally.numericVotes.set name (tally.numericVotes.getD name 0 + 1)
      else tally.numericVotes }

/-- Every field of every sampled resource. -/
def Tally.addAll (U : Unicode) : Tally → List (String × Json) → Except Exc Tally
  | tally, [] => .ok tally
  | tally, (name, value) :: rest => do
    let tally ← tally.add U name value
    Tally.addAll U tally rest

/-- What the tables say of a field.

Every field of the tables was met at least once, so neither share divides by zero. -/
def Tally.field (tally : Tally) (total : Nat) (name : String) (count : Nat) : FieldFrequency where
  name := name
  presence := divide count total
  exampleValues := tally.examples.getD name []
  isNumeric := NUMERIC_THRESHOLD.le (divide (tally.numericVotes.getD name 0) count)

@[simp] theorem Tally.field_name (tally : Tally) (total : Nat) (name : String) (count : Nat) :
    (tally.field total name count).name = name := rfl

@[simp] theorem Tally.field_presence (tally : Tally) (total : Nat) (name : String) (count : Nat) :
    (tally.field total name count).presence = divide count total := rfl

/-- `key=lambda f: (-f.presence, f.name)`. -/
def fieldBefore (a b : FieldFrequency) : Bool :=
  !a.presence.le b.presence || (a.presence.eq b.presence && decide (a.name.toList ≤ b.name.toList))

/-- The fields of a sample, most frequent first. -/
def schemaOf (U : Unicode) (sample : List Resource) : Except Exc (List FieldFrequency) := do
  let tally ← Tally.addAll U {} (sample.flatMap fun r => r.data.entries)
  let fields := tally.counts.entries.map fun e => tally.field sample.length e.1 e.2
  pure (fields.insertionSort fun a b => fieldBefore a b = true)

/-- `discover_schema`.

No sample gives no fields, before anything is divided by the size of the sample. -/
def discoverSchema (U : Unicode) (resources : Repository) (tenantId : String) (sampleSize : Int)
    (kind : Option String) : Except Exc (List FieldFrequency) :=
  match resources.listFor tenantId kind sampleSize with
  | [] => .ok []
  | sample => schemaOf U sample

/-- `InMemoryQueryLogRepository.list_recent`: by `(created_at, id)`, latest first. -/
def listRecent (queryLog : List QueryLogEntry) (tenantId : String) (limit : Int) :
    List QueryLogEntry :=
  upTo limit ((queryLog.filter fun e => e.tenantId = tenantId).insertionSort fun a b =>
    b.createdAt < a.createdAt ∨ b.createdAt = a.createdAt ∧ b.id.getD 0 ≤ a.id.getD 0)

/-- The field a filter key is about.

One prefix goes, so `min_max_price` is about `max_price`. -/
def filterField (rawKey : String) : String :=
  if startsWith "max_" rawKey || startsWith "min_" rawKey then drop 4 rawKey else rawKey

/-- `key=lambda kv: (-kv[1], kv[0])`. -/
def filterBefore (a b : String × Nat) : Bool :=
  decide (b.2 < a.2) || (a.2 == b.2 && decide (a.1.toList ≤ b.1.toList))

/-- `top_filter_keys`; the clock is read once.

The newest 500 entries are read and the window is applied to these, so of a busy tenant the older
part of the window is not counted. -/
def topFilterKeys (queryLog : List QueryLogEntry) (tenantId : String) (now : Datetime)
    (days limit : Int) : Except Exc (List FilterFrequency) :=
  match now.subDays days with
  | none => .error .overflowError
  | some cutoff =>
    let entries := (listRecent queryLog tenantId 500).filter fun e => cutoff ≤ e.createdAt
    let keys := entries.flatMap fun e => e.filters.keys.map filterField
    let counter : Dict String Nat := keys.foldl (fun c k => c.set k (c.getD k 0 + 1)) Dict.empty
    let ordered := counter.entries.insertionSort fun a b => filterBefore a b = true
    .ok ((upTo limit ordered).map fun e => ⟨e.1, e.2⟩)

/-- Snapshot of what the store and the query log tell about a tenant's catalog. -/
structure LearningInsights where
  tenantId : String
  sampleSize : Int
  windowDays : Int
  fields : List FieldFrequency
  topFilters : List FilterFrequency
  generatedAt : Datetime

/-- `LearningService.insights`. -/
def insights (U : Unicode) (resources : Repository) (queryLog : List QueryLogEntry)
    (tenantId : String) (now : Datetime) (kind : Option String) (sampleSize days topN : Int) :
    Except Exc LearningInsights := do
  let fields ← discoverSchema U resources tenantId sampleSize kind
  let topFilters ← topFilterKeys queryLog tenantId now days topN
  pure { tenantId, sampleSize, windowDays := days, fields, topFilters, generatedAt := now }

/-- The line of one field. -/
def fieldLine (field : FieldFrequency) : String :=
  let tag := if field.isNumeric then "numeric" else "text"
  let examples := join ", " (field.exampleValues.take 3)
  let examplePart := if examples ≠ "" then " — e.g. " ++ examples else ""
  "- `" ++ field.name ++ "` (" ++ tag ++ ", " ++ percent field.presence ++ ")" ++ examplePart

/-- The line of a field quotes its name. -/
theorem infix_fieldLine (field : FieldFrequency) :
    field.name.toList <:+: (fieldLine field).toList := by
  unfold fieldLine
  iterate 6 apply infix_append_left
  exact infix_append_right _ List.infix_rfl

/-- The line of one filter. -/
def filterLine (filt : FilterFrequency) : String :=
  "- `" ++ filt.key ++ "` (" ++ toString filt.count ++ " recent queries)"

/-- The lines of the hints block. -/
def hintLines (useful : List FieldFrequency) (topFilters : List FilterFrequency) : List String :=
  ["## Catalog hints", "These are the fields present in the tenant's catalog. Use them " ++
      "when filtering or quoting:"] ++
    (useful.take 10).map fieldLine ++
    (if topFilters.isEmpty then []
      else ["", "Buyers most often filter on these fields — lean into them:"] ++
        topFilters.map filterLine)

/-- The hints of a snapshot; empty when there is nothing useful to say.

The filters are shown only under some useful field. Without one the block is dropped as a whole,
whatever the buyers filtered on. -/
def renderHints (insights : LearningInsights) : String :=
  let useful := insights.fields.filter fun f => MIN_PRESENCE_FOR_HINT.le f.presence
  if useful.isEmpty then "" else join "\n" (hintLines useful insights.topFilters)

/-- The hints quote the name of every useful field among the first ten. -/
theorem infix_renderHints {found : LearningInsights} {field : FieldFrequency}
    (h : field ∈ (found.fields.filter fun f => MIN_PRESENCE_FOR_HINT.le f.presence).take 10) :
    field.name.toList <:+: (renderHints found).toList := by
  have hne : (found.fields.filter fun f => MIN_PRESENCE_FOR_HINT.le f.presence).isEmpty = false := by
    rw [List.isEmpty_eq_false_iff]
    exact List.ne_nil_of_mem (List.mem_of_mem_take h)
  simp only [renderHints, hne, Bool.false_eq_true, if_false]
  refine (infix_fieldLine field).trans (infix_join ?_)
  exact List.mem_append_left _ (List.mem_append_right _ (List.mem_map_of_mem h))

/-- `LearningService.render_soul_hints`. -/
def renderSoulHints (U : Unicode) (resources : Repository) (queryLog : List QueryLogEntry)
    (tenantId : String) (now : Datetime) (kind : Option String) : Except Exc String := do
  let found ← insights U resources queryLog tenantId now kind DEFAULT_SAMPLE_SIZE
    DEFAULT_DAYS_WINDOW DEFAULT_TOP_FILTERS
  pure (renderHints found)

end Wapsell.Resources
