import Wapsell.Py.Interpreter
import Wapsell.Resources.Rows

/-!
# The in-memory search under the interpreter's limits

`InMemoryResourceRepository.search` on rows of arbitrary JSON. An entry that
is no bound compares the row's field with `==`, and a query text is looked
for in the `json.dumps` of the row: on a value that is nested too deep, or
that has an integer with too many digits, either raises. `search` of the
repository module is this search where no limit is met (`searchIn_eq`), so
what is proved about rows of ordinary JSON is about the same code.

Which values are too deep is not decided here: the limits are the
interpreter's.
-/

namespace Wapsell.Resources

open Lib Py

namespace Repository

variable (U : Unicode) (I : Interpreter)

/-- `_matches_filter`. A bound compares two floats; the equality compares two values of any depth,
and raises where the interpreter's limit is met. -/
def matchesFilterIn (data : Dict String Json) (key : String) (value : Json) : Except Exc Bool :=
  if startsWith "max_" key || startsWith "min_" key then matchesFilter U data key value
  else match data.getD key .null, value with
    | .str actual, .str wanted => pure (lower U actual == lower U wanted)
    | actual, wanted => I.eq actual wanted

/-- Every filter, in order, up to the first that fails. -/
def matchesFiltersIn (data : Dict String Json) : List (String × Json) → Except Exc Bool
  | [] => pure true
  | (key, value) :: rest => do
    if ← matchesFilterIn U I data key value then matchesFiltersIn data rest else pure false

/-- The text the free-text query is looked for in. -/
def haystackIn (r : Resource) : Except Exc String := do
  let dumped ← I.dumps (.obj r.data.entries)
  pure (lower U (r.summary ++ " " ++ dumped))

/-- `matches` inside `search`: without a needle the row is not dumped. -/
def isMatchIn (filters : List (String × Json)) (needle : String) (r : Resource) :
    Except Exc Bool := do
  if ← matchesFiltersIn U I r.data filters then
    if needle = "" then pure true
    else
      let hay ← haystackIn U I r
      pure (isSubstring needle hay)
  else pure false

/-- `search`. -/
def searchIn (repo : Repository) (tenantId : String) (filters : Dict String Json)
    (queryText : Option String) (kind : Option String) (limit : Int) :
    Except Exc (List Resource) := do
  let candidates := listFor repo tenantId kind 10000
  let needle := strip (lower U (queryText.getD ""))
  let rows ← selectM (isMatchIn U I filters.entries needle) candidates
  pure (upTo limit rows)

end Repository

variable {U : Unicode} {I : Interpreter}

/-! ## One entry -/

/-- An entry that is no bound compares too deep: `==` of the row's field and the wanted value runs
into the limit. -/
def ComparesDeep (I : Interpreter) (data : Dict String Json) (e : String × Json) : Prop :=
  boundOf e.1 = none ∧ ¬ I.Compares (data.getD e.1 .null) e.2

theorem matchesFilterIn_bound {data : Dict String Json} {key : String} {value : Json}
    {bound : Side × String} (h : boundOf key = some bound) :
    Repository.matchesFilterIn U I data key value = Repository.matchesFilter U data key value := by
  rw [boundOf] at h
  unfold Repository.matchesFilterIn
  split at h
  next hmax => rw [hmax, Bool.true_or, if_pos rfl]
  next =>
    split at h
    next hmin => rw [hmin, Bool.or_true, if_pos rfl]
    next => cases h

/-- The comparison of an entry that is no bound. -/
theorem matchesFilterIn_equality (data : Dict String Json) {key : String} (value : Json)
    (h : boundOf key = none) :
    I.Compares (data.getD key .null) value ∧ Repository.matchesFilterIn U I data key value =
        .ok (equalInMemory U (data.getD key .null) value) ∨
      ¬ I.Compares (data.getD key .null) value ∧
        ∃ e, Repository.matchesFilterIn U I data key value = .error e := by
  rw [boundOf] at h
  unfold Repository.matchesFilterIn
  split at h
  next => cases h
  next hmax =>
    split at h
    next => cases h
    next hmin =>
      rw [Bool.eq_false_iff.mpr hmax, Bool.eq_false_iff.mpr hmin, Bool.or_false,
        if_neg Bool.false_ne_true]
      generalize data.getD key .null = stored
      have heq := Interpreter.eq_cases (I := I) stored value
      cases stored with
      | str actual => cases value <;> exact .inl ⟨trivial, rfl⟩
      | _ => cases value <;> exact heq

/-- Where no comparison is too deep, an entry is what it is in the repository. -/
theorem matchesFilterIn_eq {data : Dict String Json} {e : String × Json}
    (h : ¬ ComparesDeep I data e) :
    Repository.matchesFilterIn U I data e.1 e.2 = Repository.matchesFilter U data e.1 e.2 := by
  cases hbound : boundOf e.1 with
  | some bound => exact matchesFilterIn_bound hbound
  | none =>
    rw [matchesFilter_equality hbound]
    rcases matchesFilterIn_equality (U := U) (I := I) data e.2 hbound with
      ⟨-, heq⟩ | ⟨hdeep, -⟩
    · exact heq
    · exact absurd ⟨hbound, hdeep⟩ h

/-! ## A row, and the search -/

theorem matchesFiltersIn_eq {data : Dict String Json} : ∀ {filters : List (String × Json)},
    (∀ e ∈ filters, ¬ ComparesDeep I data e) →
    Repository.matchesFiltersIn U I data filters = Repository.matchesFilters U data filters
  | [], _ => rfl
  | e :: rest, h => by
    obtain ⟨he, hrest⟩ := List.forall_mem_cons.mp h
    rw [Repository.matchesFiltersIn, Repository.matchesFilters, matchesFilterIn_eq he,
      matchesFiltersIn_eq hrest]

theorem isMatchIn_eq {filters : List (String × Json)} {needle : String} {r : Resource}
    (hfilters : ∀ e ∈ filters, ¬ ComparesDeep I r.data e)
    (hdumps : I.dumpsLimit (.obj r.data.entries) = none) :
    Repository.isMatchIn U I filters needle r = Repository.isMatch U filters needle r := by
  rw [Repository.isMatchIn, Repository.isMatch, matchesFiltersIn_eq hfilters,
    Repository.haystackIn, Interpreter.dumps, hdumps]
  refine bind_congr fun taken => ?_
  by_cases hneedle : needle = ""
  · simp [hneedle]
  · simp only [hneedle, if_false, decide_false, Bool.false_or, Repository.haystack, ok_bind]
    rfl

/-- **The two searches are one** where no row the search scans runs into a limit.

A row outside the newest ten thousand is never scanned, so nothing is asked of it. -/
theorem searchIn_eq {rows : Repository} {tenantId : String} {filters : Dict String Json}
    {queryText kind : Option String} {limit : Int}
    (hfilters : ∀ r ∈ rows.listFor tenantId kind 10000, ∀ e ∈ filters.entries,
      ¬ ComparesDeep I r.data e)
    (hdumps : ∀ r ∈ rows.listFor tenantId kind 10000, I.dumpsLimit (.obj r.data.entries) = none) :
    rows.searchIn U I tenantId filters queryText kind limit =
      rows.search U tenantId filters queryText kind limit := by
  have hselect : ∀ (needle : String) (scanned : List Resource),
      (∀ r ∈ scanned, r ∈ rows.listFor tenantId kind 10000) →
      Repository.selectM (Repository.isMatchIn U I filters.entries needle) scanned =
        Repository.selectM (Repository.isMatch U filters.entries needle) scanned := by
    intro needle scanned hscanned
    induction scanned with
    | nil => rfl
    | cons r scanned ih =>
      obtain ⟨hr, hrest⟩ := List.forall_mem_cons.mp hscanned
      rw [Repository.selectM, Repository.selectM, isMatchIn_eq (hfilters r hr) (hdumps r hr),
        ih hrest]
  rw [Repository.searchIn, Repository.search, hselect _ _ fun _ h => h]

end Wapsell.Resources
