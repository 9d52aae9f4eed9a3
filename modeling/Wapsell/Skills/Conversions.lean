import Wapsell.Skills.Registry
import Wapsell.Resources.Limits

/-!
# What resource-search converts

`ResourceSearchSkill.execute` and the search below it convert what the model
sends: the query to a text without blanks around it, the limit to an integer,
the tenant and the kind to texts, and each bound to a float where a row has a
number to compare it with. Rows are arbitrary JSON, so comparing a field with
a filter and dumping a row for the query may run into a limit of the
interpreter. The skill answers exactly where all of this does.

The query log and the log record at the end raise nothing that gets out: the
first is suppressed, the second is below the level that is formatted.
-/

namespace Wapsell.Skills

open Lib Py Resources

/-- A query that can be stripped: a text, or nothing, or another value that counts as false. -/
def IsText : Json → Prop
  | .str _ => True
  | value => value.truthy = false

/-- A limit `int` converts: a number that is finite, a numeral, or nothing. -/
def IsCount (U : Unicode) : Json → Prop
  | .null | .bool _ | .int _ => True
  | .float text => ∃ q, Json.floatValue text = .finite q
  | .str s => s = "" ∨ (parseInt U s).isSome
  | .arr items => items = []
  | .obj fields => fields = []

/-- A bound `float` raises on: no number and no numeral, or past the largest double. -/
def Unreadable (U : Unicode) (value : Json) : Prop :=
  TooLarge value ∨ readDouble U value = none

/-- An entry raises on a row: of a bound, the row's number is past the largest double, or there is one
and the bound is unreadable; of any other entry, the two values cannot be compared. -/
def EntryTrips (U : Unicode) (I : Interpreter) (data : Dict String Json) (e : String × Json) : Prop :=
  match boundOf e.1 with
  | some (_, field) => TooLarge (data.getD field .null) ∨
      (readDouble U (data.getD field .null)).isSome ∧ Unreadable U e.2
  | none => ¬ I.Compares (data.getD e.1 .null) e.2

/-- The filters raise on a row: an entry does that all entries before it take. -/
def Trips (U : Unicode) (I : Interpreter) (data : Dict String Json) : List (String × Json) → Prop
  | [] => False
  | e :: rest => EntryTrips U I data e ∨ takesInMemory U data e ∧ Trips U I data rest

/-- The search raises on a row: its filters do, or they take it, there is a text to look for and the
row cannot be dumped. -/
def RowTrips (U : Unicode) (I : Interpreter) (filters : List (String × Json)) (needle : String)
    (r : Resource) : Prop :=
  Trips U I r.data filters ∨
    needle ≠ "" ∧ filters.all (takesInMemory U r.data) ∧ I.dumpsLimit (.obj r.data.entries) ≠ none

/-- The query of the parameters, stripped; the empty text where there is none. -/
def queryOf (params : Dict String Json) : String :=
  match params.getD "query" .null with
  | .str s => strip s
  | _ => ""

/-- Everything the skill converts for these parameters can be converted: the query, the limit and
the filters by their form, and the rows the search scans by the limits of the interpreter. -/
def Convertible (U : Unicode) (I : Interpreter) (rows : Repository)
    (context params : Dict String Json) : Prop :=
  let tenantId := context.getD "tenant_id" .null
  let kind := params.getD "kind" .null
  ∀ filters, dictParam params "filters" = some filters →
    IsText (params.getD "query" .null) ∧ IsCount U (params.getD "limit" .null) ∧
      I.Spells tenantId ∧ (kind.truthy = true → I.Spells kind) ∧
      ∀ r ∈ rows.listFor (tenantId.toStr U) (if kind.truthy then some (kind.toStr U) else none) 10000,
        ¬ RowTrips U I filters.entries (strip (lower U (queryOf params))) r

/-! ## The skill -/

section Execute

variable (U : Unicode) (I : Interpreter)

/-- `str(kind) if kind else None`. -/
def wantedKind (kind : Json) : Except Exc (Option String) :=
  if kind.truthy then (I.str U kind).map some else .ok none

/-- `ResourceSearchSkill.execute`, up to the search. -/
def searchCallIn (context params : Dict String Json) : Except Exc (Except String SearchCall) := do
  let tenantId := context.getD "tenant_id" .null
  if tenantId.truthy = false then .ok (.error "context.tenant_id is required for resource search")
  else match dictParam params "filters" with
    | none => .ok (.error "filters must be a dict of \x7bkey: value\x7d")
    | some filters =>
      let query ← strippedParam params "query"
      let kind := params.getD "kind" .null
      let limit ← intParam U params "limit" DEFAULT_LIMIT
      let tenant ← I.str U tenantId
      let wanted ← wantedKind U I kind
      .ok (.ok {
        tenantId := tenant
        filters
        queryText := if query = "" then none else some query
        kind := wanted
        limit := max 1 (min limit MAX_LIMIT) })

/-- `ResourceSearchSkill.execute`, under the interpreter's limits. -/
def resourceSearchIn (resources : Repository) (context params : Dict String Json) :
    Except Exc SkillResult := do
  match ← searchCallIn U I context params with
  | .error error => .ok (.fail error)
  | .ok call =>
    let hits ← resources.searchIn U I call.tenantId call.filters call.queryText call.kind call.limit
    .ok (searchResult context call hits)

end Execute

variable {U : Unicode} {data : Dict String Json} {params : Dict String Json}

theorem strippedParam_eq_ok_iff (key : String) :
    (∃ text, strippedParam params key = .ok text) ↔ IsText (params.getD key .null) := by
  rw [strippedParam]
  cases hvalue : params.getD key .null with
  | str s => exact iff_of_true ⟨_, rfl⟩ trivial
  | _ =>
    simp only [IsText]
    split <;> simp_all

theorem intParam_eq_ok_iff (key : String) (n : Int) :
    (∃ count, intParam U params key n = .ok count) ↔ IsCount U (params.getD key .null) := by
  have htrunc : ∀ d : Double, (∃ n, truncDouble d = .ok n) ↔ ∃ q, d = .finite q := by
    intro d
    cases d with
    | finite q => exact iff_of_true ⟨_, rfl⟩ ⟨q, rfl⟩
    | _ =>
      refine iff_of_false (error_not_ok _) ?_
      rintro ⟨_, h⟩
      cases h
  rw [intParam]
  cases params.getD key .null with
  | null => exact iff_of_true ⟨n, rfl⟩ trivial
  | bool b => cases b <;> exact iff_of_true ⟨_, rfl⟩ trivial
  | int m =>
    simp only [IsCount, iff_true]
    split <;> exact ⟨_, rfl⟩
  | float text =>
    simp only [IsCount, ← htrunc]
    split
    · rfl
    · next hzero =>
      -- a zero is falsy, and an integer
      refine iff_of_true ⟨n, rfl⟩ ((htrunc _).mpr ?_)
      cases hvalue : Json.floatValue text with
      | finite q => exact ⟨q, rfl⟩
      | _ => simp [Json.truthy, hvalue, Double.eq] at hzero
  | str s =>
    by_cases hs : s = ""
    · simp only [IsCount, hs, true_or, iff_true]
      exact ⟨n, rfl⟩
    · have htruthy : (Json.str s).truthy = true := by simpa [Json.truthy] using hs
      rw [htruthy, if_pos rfl, Json.toInt]
      cases hparse : parseInt U s with
      | none =>
        refine iff_of_false (error_not_ok _) ?_
        simp [IsCount, hs, hparse]
      | some m =>
        refine iff_of_true ⟨m, rfl⟩ (.inr ?_)
        rw [hparse]
        rfl
  | arr items =>
    cases items with
    | nil => exact iff_of_true ⟨n, rfl⟩ rfl
    | cons item items => exact iff_of_false (error_not_ok _) fun h => by cases h
  | obj fields =>
    cases fields with
    | nil => exact iff_of_true ⟨n, rfl⟩ rfl
    | cons field fields => exact iff_of_false (error_not_ok _) fun h => by cases h

theorem toFloat_eq_ok {value : Json} (h : ¬ Unreadable U value) :
    ∃ bound, readDouble U value = some bound ∧ value.toFloat U = .ok bound := by
  rw [Unreadable, not_or] at h
  cases value with
  | int n =>
    rcases floatOfInt_eq n with ⟨hlarge, -⟩ | ⟨-, hok⟩
    · exact absurd hlarge h.1
    · exact ⟨_, rfl, hok⟩
  | str s =>
    rw [Json.toFloat_str]
    cases hparse : parseFloat U s with
    | none => exact absurd hparse h.2
    | some d => exact ⟨d, hparse, rfl⟩
  | bool b => exact ⟨_, rfl, rfl⟩
  | float text => exact ⟨_, rfl, rfl⟩
  | _ => exact absurd rfl h.2

theorem toFloat_eq_error {value : Json} (h : Unreadable U value) :
    ∃ e, value.toFloat U = .error e := by
  cases value with
  | int n =>
    rcases floatOfInt_eq n with ⟨-, he⟩ | ⟨hnot, -⟩
    · exact ⟨_, he⟩
    · rcases h with hlarge | hnone
      · exact absurd hlarge hnot
      · cases hnone
  | str s =>
    rw [Json.toFloat_str]
    rcases h with hlarge | hnone
    · cases hlarge
    · have hparse : parseFloat U s = none := hnone
      rw [hparse]
      exact ⟨_, rfl⟩
  | bool b => rcases h with h | h <;> cases h
  | float text => rcases h with h | h <;> cases h
  | _ => exact ⟨_, rfl⟩

/-- One entry: it raises exactly where it says. -/
theorem matchesFilterIn_trips (U : Unicode) (I : Interpreter) (data : Dict String Json)
    (e : String × Json) :
    EntryTrips U I data e ∧ (∃ raised, Repository.matchesFilterIn U I data e.1 e.2 = .error raised) ∨
      ¬ EntryTrips U I data e ∧ Repository.matchesFilterIn U I data e.1 e.2 =
        .ok (takesInMemory U data e) := by
  rw [EntryTrips, takesInMemory]
  cases hbound : boundOf e.1 with
  | none =>
    rcases matchesFilterIn_equality (U := U) (I := I) data e.2 hbound with
      ⟨hcompares, hok⟩ | hdeep
    · exact .inr ⟨not_not.mpr hcompares, hok⟩
    · exact .inl hdeep
  | some bound =>
    obtain ⟨side, field⟩ := bound
    rw [matchesFilterIn_bound hbound, matchesFilter_bound hbound]
    by_cases hlarge : TooLarge (data.getD field .null)
    · rw [asNumber_of_tooLarge hlarge]
      exact .inl ⟨.inl hlarge, _, rfl⟩
    · rw [asNumber_of_not_tooLarge hlarge]
      simp only [ok_bind, boundInMemory]
      cases hread : readDouble U (data.getD field .null) with
      | none => exact .inr ⟨by simpa using hlarge, rfl⟩
      | some x =>
        by_cases hun : Unreadable U e.2
        · obtain ⟨raised, hraised⟩ := toFloat_eq_error hun
          rw [hraised]
          exact .inl ⟨.inr ⟨rfl, hun⟩, _, rfl⟩
        · obtain ⟨y, hy, hok⟩ := toFloat_eq_ok hun
          rw [hok, hy]
          exact .inr ⟨by simp [hlarge, hun], rfl⟩

/-- The filters of a row, up to the first that fails or raises. -/
theorem matchesFiltersIn_trips (U : Unicode) (I : Interpreter) (data : Dict String Json) :
    ∀ filters : List (String × Json),
      Trips U I data filters ∧ (∃ raised, Repository.matchesFiltersIn U I data filters = .error raised) ∨
        ¬ Trips U I data filters ∧ Repository.matchesFiltersIn U I data filters =
          .ok (filters.all (takesInMemory U data))
  | [] => .inr ⟨id, rfl⟩
  | e :: rest => by
    rw [Repository.matchesFiltersIn, Trips, List.all_cons]
    rcases matchesFilterIn_trips U I data e with ⟨htrips, raised, hraised⟩ | ⟨hnot, hok⟩
    · rw [hraised]
      exact .inl ⟨.inl htrips, _, rfl⟩
    · rw [hok, ok_bind]
      cases takesInMemory U data e with
      | false => exact .inr ⟨by simpa using hnot, rfl⟩
      | true =>
        rcases matchesFiltersIn_trips U I data rest with ⟨htrips, hraised⟩ | ⟨hnot', hok'⟩
        · exact .inl ⟨.inr ⟨rfl, htrips⟩, hraised⟩
        · exact .inr ⟨by simp [hnot, hnot'], hok'⟩

/-- A row is decided exactly where it does not trip. -/
theorem isMatchIn_trips (U : Unicode) (I : Interpreter) (filters : List (String × Json))
    (needle : String) (r : Resource) :
    (∃ b, Repository.isMatchIn U I filters needle r = .ok b) ↔ ¬ RowTrips U I filters needle r := by
  rw [Repository.isMatchIn, RowTrips]
  rcases matchesFiltersIn_trips U I r.data filters with ⟨htrips, raised, hraised⟩ | ⟨hnot, hok⟩
  · rw [hraised]
    exact iff_of_false (error_not_ok _) fun h => h (.inl htrips)
  · rw [hok, ok_bind]
    cases filters.all (takesInMemory U r.data) with
    | false => exact iff_of_true ⟨false, rfl⟩ (by simpa using hnot)
    | true =>
      by_cases hneedle : needle = ""
      · exact iff_of_true ⟨true, by rw [if_pos rfl, if_pos hneedle]; rfl⟩ (by simp [hnot, hneedle])
      · rw [if_pos rfl, if_neg hneedle, Repository.haystackIn, Interpreter.dumps]
        cases hlimit : I.dumpsLimit (.obj r.data.entries) with
        | none => exact iff_of_true ⟨_, rfl⟩ (by simp [hnot])
        | some l => exact iff_of_false (error_not_ok _) (by simp [hneedle])

/-- A search raises exactly where a row it scans trips it. -/
theorem searchIn_eq_ok_iff {rows : Repository} {tenantId : String} {filters : Dict String Json}
    (queryText kind : Option String) (limit : Int) :
    (∃ hits, rows.searchIn U I tenantId filters queryText kind limit = .ok hits) ↔
      ∀ r ∈ rows.listFor tenantId kind 10000,
        ¬ RowTrips U I filters.entries (strip (lower U (queryText.getD ""))) r := by
  simp only [Repository.searchIn, selectM_eq_selectE]
  constructor
  · rintro ⟨hits, hhits⟩ r hr
    have hall := (selectE_then_eq_ok_iff.mp hhits).1
    exact (isMatchIn_trips U I filters.entries _ r).mp (hall r hr)
  · intro h
    refine ⟨_, selectE_then_eq_ok_iff.mpr ⟨fun r hr => ?_, rfl⟩⟩
    exact (isMatchIn_trips U I filters.entries _ r).mpr (h r hr)

/-- A query that can be stripped is the query of the parameters. -/
theorem queryOf_eq {text : String} (h : strippedParam params "query" = .ok text) :
    queryOf params = text := by
  rw [strippedParam] at h
  rw [queryOf]
  cases hvalue : params.getD "query" .null with
  | str s =>
    rw [hvalue] at h
    exact Except.ok.inj h
  | _ =>
    rw [hvalue] at h
    dsimp only at h
    split at h
    · cases h
    · exact Except.ok.inj h

/-- The kind of the parameters is spelled where it has to be. -/
theorem wantedKind_cases (U : Unicode) (I : Interpreter) (kind : Json) :
    (kind.truthy = true → I.Spells kind) ∧
        wantedKind U I kind = .ok (if kind.truthy then some (kind.toStr U) else none) ∨
      ¬ (kind.truthy = true → I.Spells kind) ∧ ∃ e, wantedKind U I kind = .error e := by
  rw [wantedKind]
  cases kind.truthy with
  | false => exact .inl ⟨nofun, rfl⟩
  | true =>
    rcases Interpreter.str_cases (I := I) U kind with ⟨hspells, hok⟩ | ⟨hnot, e, he⟩
    · exact .inl ⟨fun _ => hspells, by rw [if_pos rfl, if_pos rfl, hok]; rfl⟩
    · exact .inr ⟨fun h => hnot (h rfl), e, by rw [if_pos rfl, he]; rfl⟩

/-- **The skill answers exactly where it can convert.** For a tenant's context, `execute` returns a
result, and raises nothing, exactly when all it converts can be converted: whatever the parameters,
the rows and the interpreter's limits are.

A context without a tenant is answered with a failure before anything is converted, so the
hypothesis leaves out no exception. -/
theorem resource_search_answers_iff (U : Unicode) (I : Interpreter) (rows : Repository)
    (context params : Dict String Json) (htenant : (context.getD "tenant_id" .null).truthy = true) :
    (∃ result, resourceSearchIn U I rows context params = .ok result) ↔
      Convertible U I rows context params := by
  unfold resourceSearchIn searchCallIn Convertible
  simp only [htenant, Bool.true_eq_false, if_false]
  cases hfilters : dictParam params "filters" with
  | none => exact iff_of_true ⟨_, rfl⟩ fun _ h => by cases h
  | some filters =>
    simp only [Option.some.injEq, forall_eq']
    have hquery : _ ↔ IsText (params.getD "query" .null) := strippedParam_eq_ok_iff "query"
    have hlimit : _ ↔ IsCount U (params.getD "limit" .null) :=
      intParam_eq_ok_iff "limit" DEFAULT_LIMIT
    cases hstripped : strippedParam params "query" with
    | error e =>
      rw [hstripped] at hquery
      refine iff_of_false (error_not_ok _) fun h => ?_
      obtain ⟨_, hok⟩ := hquery.mpr h.1
      cases hok
    | ok query =>
      have htext : IsText (params.getD "query" .null) := hquery.mp ⟨query, hstripped⟩
      cases hcount : intParam U params "limit" DEFAULT_LIMIT with
      | error e =>
        rw [hcount] at hlimit
        refine iff_of_false (error_not_ok _) fun h => ?_
        obtain ⟨_, hok⟩ := hlimit.mpr h.2.1
        cases hok
      | ok limit =>
        have hnumber : IsCount U (params.getD "limit" .null) := hlimit.mp ⟨limit, hcount⟩
        rcases Interpreter.str_cases (I := I) U (context.getD "tenant_id" .null) with
          ⟨hspells, hok⟩ | ⟨hnot, e, he⟩
        · rcases wantedKind_cases U I (params.getD "kind" .null) with
            ⟨hkind, hwanted⟩ | ⟨hnot, e, he⟩
          · have hneedle : strip (lower U (queryOf params)) =
                strip (lower U ((if query = "" then none else some query).getD "")) := by
              rw [queryOf_eq hstripped]
              split
              next h => rw [h]; rfl
              next => rfl
            simp only [ok_bind, hok, hwanted, htext, hnumber, hspells, true_and, hneedle]
            rw [and_iff_right hkind, ← searchIn_eq_ok_iff (if query = "" then none else some query) _
              (max 1 (min limit MAX_LIMIT))]
            constructor
            · rintro ⟨result, hresult⟩
              obtain ⟨hits, hhits, -⟩ := bind_eq_ok.mp hresult
              exact ⟨hits, hhits⟩
            · rintro ⟨hits, hhits⟩
              rw [hhits]
              exact ⟨_, rfl⟩
          · simp only [ok_bind, hok, he]
            exact iff_of_false (error_not_ok _) fun h => hnot h.2.2.2.1
        · simp only [ok_bind, he]
          exact iff_of_false (error_not_ok _) fun h => hnot h.2.2.1

/-- Where the search runs into no limit and the tenant and the kind are spelled, the skill is the
one of the registry. -/
theorem resourceSearchIn_boundless (U : Unicode) (rows : Repository)
    (context params : Dict String Json) :
    resourceSearchIn U .boundless rows context params = resourceSearch U rows context params := by
  have hstr : ∀ v : Json, Interpreter.boundless.str U v = .ok (v.toStr U) := by
    intro v
    cases v <;> rfl
  have hcompares : ∀ a b : Json, Interpreter.boundless.Compares a b := by
    intro a b
    cases a <;> cases b <;> trivial
  have hwanted : ∀ kind : Json, wantedKind U .boundless kind =
      .ok (if kind.truthy then some (kind.toStr U) else none) := by
    intro kind
    rw [wantedKind, hstr]
    split <;> rfl
  have hcall : searchCallIn U .boundless context params = searchCall U context params := by
    unfold searchCallIn searchCall
    by_cases htenant : (context.getD "tenant_id" .null).truthy = false
    · rw [if_pos htenant, if_pos htenant]
    · rw [if_neg htenant, if_neg htenant]
      cases dictParam params "filters" with
      | none => rfl
      | some filters => simp only [hstr, hwanted, ok_bind]
  unfold resourceSearchIn resourceSearch
  rw [hcall]
  refine bind_congr fun answer => ?_
  cases answer with
  | error error => rfl
  | ok call =>
    dsimp only
    rw [searchIn_eq (fun _ _ _ _ h => h.2 (hcompares _ _)) fun _ _ => rfl]

/-! ## What answers and what does not -/

/-- A property of the tenant acme. -/
def property (id : String) (data : Dict String Json) : Resource where
  id := id
  tenantId := "acme"
  kind := "property"
  data := data
  createdAt := 1781265600000000
  updatedAt := 1781265600000000

/-- Three rows: a price, a price in words, and tags in the place of one. -/
def listings : Repository :=
  ((Repository.add Dict.empty (property "p1" ⟨[("price", .int 120000), ("zone", .str "Norte")],
      by decide⟩)).add
    (property "p2" ⟨[("price", .str "consultar"), ("zone", .str "norte")], by decide⟩)).add
    (property "p3" ⟨[("price", .int 90000), ("zone", .arr [.str "Norte", .str "Sur"])], by decide⟩)

/-- An interpreter that compares no lists and dumps no object with a list in it. -/
def shallow : Interpreter :=
  { Interpreter.boundless with
    eqTooDeep := fun _ _ => true
    dumpsLimit := fun v => match v with
      | .obj fields => if fields.any (fun e => e.2.isArr) then some .recursion else none
      | _ => none }

/-- What is in the north for at most 150000, by name. -/
def inTheNorth : Dict String Json :=
  (Dict.empty.set "filters" (.obj [("max_price", .int 150000), ("zone", .str "norte")])).set
    "query" (.str "Norte")

def ofAcme : Dict String Json := Dict.empty.set "tenant_id" (.str "acme")

/-- The filters raise on no row whose price is not too large: a text is compared with anything. -/
theorem not_trips_inTheNorth {data : Dict String Json}
    (hprice : ¬ TooLarge (data.getD "price" .null)) :
    ¬ Trips Unicode.ascii shallow data [("max_price", .int 150000), ("zone", .str "norte")] := by
  rintro ((hlarge | ⟨-, hlarge | hnone⟩) | ⟨-, hdeep | ⟨-, h⟩⟩)
  · exact hprice hlarge
  · exact not_tooLarge_of_le (n := 150000) (by norm_num) hlarge
  · cases hnone
  · refine hdeep ?_
    cases data.getD "zone" .null <;> trivial
  · exact h

/-- Two rows are found: the zone's letters do not matter, and a price in words passes a `max_`. Of the
third the filters drop the list of zones before the row would be dumped, which this interpreter could
not. -/
theorem resource_search_answers_inTheNorth :
    ∃ result, resourceSearchIn Unicode.ascii shallow listings ofAcme inTheNorth = .ok result := by
  refine (resource_search_answers_iff Unicode.ascii shallow listings ofAcme inTheNorth
    (by decide)).mpr ?_
  intro filters hfilters
  obtain rfl := Option.some.inj
    ((show dictParam inTheNorth "filters" = some _ from rfl).symm.trans hfilters)
  refine ⟨trivial, trivial, trivial, nofun, fun r hr => ?_⟩
  have hthree : r ∈ [_, _, _] := hr
  simp only [List.mem_cons, List.not_mem_nil, or_false] at hthree
  rcases hthree with rfl | rfl | rfl
  · rintro (htrips | ⟨-, -, hdump⟩)
    · refine not_trips_inTheNorth ?_ htrips
      exact not_tooLarge_of_le (n := 120000) (by norm_num)
    · exact hdump rfl
  · rintro (htrips | ⟨-, -, hdump⟩)
    · exact not_trips_inTheNorth id htrips
    · exact hdump rfl
  · rintro (htrips | ⟨-, hall, -⟩)
    · refine not_trips_inTheNorth ?_ htrips
      exact not_tooLarge_of_le (n := 90000) (by norm_num)
    · have hzone := List.all_eq_true.mp hall ("zone", .str "norte") (.tail _ (.head _))
      cases hzone

/-- A limit in words raises. -/
theorem not_resource_search_answers : ¬ ∀ (U : Unicode) (I : Interpreter) (rows : Repository)
    (context params : Dict String Json), (context.getD "tenant_id" .null).truthy = true →
      ∃ result, resourceSearchIn U I rows context params = .ok result := by
  intro h
  obtain ⟨result, hresult⟩ := h Unicode.ascii Interpreter.boundless Dict.empty ofAcme
    (Dict.empty.set "limit" (.str "cinco")) (by decide)
  have hraises : resourceSearchIn Unicode.ascii Interpreter.boundless Dict.empty ofAcme
      (Dict.empty.set "limit" (.str "cinco")) = .error .valueError := by
    rfl
  rw [hraises] at hresult
  cases hresult

end Wapsell.Skills
