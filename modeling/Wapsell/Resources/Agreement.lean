import Wapsell.Lib.Sort
import Wapsell.Resources.Rows

/-!
# Structured search agrees across the adapters

Over the same rows the two searches answer the same list exactly when
neither raises and the rows on which they part, if there are any, come after
as many rows as were asked for. The in-memory adapter looks at the newest
ten thousand rows only.

The comparison is made in the order both adapters answer in, newest
first, and times of creation must differ so that there is one such
order. The casts of Postgres are parameters, as is the order in which it
evaluates the clauses of a row; `Comparable` mentions no order, since a
clause that can raise does so under some of them.

What this does not establish: anything about fields that hold objects or
arrays, or about a search with a text.
-/

namespace Wapsell.Resources

open Lib Py Postgres

/-- The searches answer, and answer the same, in whatever order Postgres evaluates the clauses. -/
def SearchesAgree (U : Unicode) (C : Casts) (repo : Repository) (db : Database) (tenantId : String)
    (filters : Dict String Json) (kind : Option String) (limit : Int) : Prop :=
  ∃ rows, repo.search U tenantId filters none kind limit = .ok rows ∧
    ∀ plan, db.search C plan tenantId filters kind limit = .ok rows

/-- The active rows of the tenant and the kind, newest first. -/
def candidates (rows : Repository) (tenantId : String) (kind : Option String) : List Resource :=
  Repository.newestFirst (rows.values.filter (Repository.listed tenantId kind))

/-- A row that one search counts and the other does not. Among the newest ten thousand an entry on
it is decided differently and one of the adapters takes it; of the rows behind them it is one that
Postgres takes. -/
def Parts (U : Unicode) (C : Casts) (filters : List (String × Json)) (position : Nat)
    (r : Resource) : Prop :=
  if position < 10000 then
    (∃ e ∈ filters, Differs U C r.data e) ∧
      (filters.all (takesInMemory U r.data) ∨ filters.all (takesInPostgres C r.data))
  else filters.all (takesInPostgres C r.data)

/-- What the searches need to agree. -/
structure Comparable (U : Unicode) (C : Casts) (db : Database) (tenantId : String)
    (filters : Dict String Json) (kind : Option String) (limit : Int) : Prop where
  /-- `LIMIT` takes no negative number. -/
  nonneg : 0 ≤ limit
  standard : Standard filters.entries
  castable : ∀ r ∈ candidates db.rows tenantId kind, Castable C r.data filters.entries
  inRange : ∀ r ∈ (candidates db.rows tenantId kind).take 10000,
    ¬ Raises U r.data filters.entries
  /-- Before a row on which they part there are as many as were asked for. -/
  covered : ∀ before r after, candidates db.rows tenantId kind = before ++ r :: after →
    Parts U C filters.entries before.length r →
      limit.toNat ≤ (before.filter fun r => filters.entries.all (takesInPostgres C r.data)).length

/-! ## The two searches -/

variable {U : Unicode} {C : Casts} {tenantId : String} {filters : Dict String Json}
  {kind : Option String} {limit : Int}

theorem search_of_no_text (repo : Repository) :
    repo.search U tenantId filters none kind limit =
      (selectE (fun r => Repository.matchesFilters U r.data filters.entries)
        ((candidates repo tenantId kind).take 10000) >>= fun rows => .ok (upTo limit rows)) := by
  have hneedle : strip (lower U "") = "" := by rw [lower_empty, strip_empty]
  have hmatch : Repository.isMatch U filters.entries "" = fun r =>
      Repository.matchesFilters U r.data filters.entries := funext isMatch_of_no_text
  have hlisted : repo.listFor tenantId kind 10000 = (candidates repo tenantId kind).take 10000 := by
    rw [Repository.listFor, upTo, if_pos (by decide)]
    rfl
  rw [Repository.search, Option.getD_none, hneedle, hmatch, hlisted, selectM_eq_selectE]
  rfl

/-- The search in memory answers when no row among the newest ten thousand raises. -/
theorem search_in_memory_iff (hbounds : NumericBounds filters.entries) {repo : Repository}
    {rows : List Resource} :
    repo.search U tenantId filters none kind limit = .ok rows ↔
      (∀ r ∈ (candidates repo tenantId kind).take 10000, ¬ Raises U r.data filters.entries) ∧
        upTo limit (((candidates repo tenantId kind).take 10000).filter fun r =>
          filters.entries.all (takesInMemory U r.data)) = rows := by
  have hrow : ∀ r : Resource, (∃ b, Repository.matchesFilters U r.data filters.entries = .ok b) ↔
      ¬ Raises U r.data filters.entries := by
    intro r
    rcases matchesFilters_cases U r.data hbounds with ⟨hraises, e, he⟩ | ⟨hnot, hok⟩
    · exact iff_of_false (fun ⟨b, hb⟩ => by rw [he] at hb; cases hb) fun hnot => hnot hraises
    · exact iff_of_true ⟨_, hok⟩ hnot
  rw [search_of_no_text, selectE_then_eq_ok_iff]
  simp only [hrow]
  refine and_congr_right fun hall => ?_
  have htaken : ∀ r ∈ (candidates repo tenantId kind).take 10000,
      passes (Repository.matchesFilters U r.data filters.entries) =
        filters.entries.all (takesInMemory U r.data) := by
    intro r hr
    rcases matchesFilters_cases U r.data hbounds with ⟨hraises, -⟩ | ⟨-, hok⟩
    · exact absurd hraises (hall r hr)
    · rw [hok]
      rfl
  rw [List.filter_congr htaken]

/-- The search in Postgres answers under every order of evaluation when no clause raises. -/
theorem search_in_postgres_iff (hbounds : NumericBounds filters.entries) {db : Database}
    (hdata : db.rows.Forall fun _ r => r.data.Forall fun _ v => IsScalar v)
    {rows : List Resource} :
    (∀ plan, db.search C plan tenantId filters kind limit = .ok rows) ↔
      Standard filters.entries ∧ 0 ≤ limit ∧
        (∀ r ∈ candidates db.rows tenantId kind, Castable C r.data filters.entries) ∧
          (Repository.newestFirst ((db.rows.values.filter (Repository.listed tenantId kind)).filter
            fun r => filters.entries.all (takesInPostgres C r.data))).take limit.toNat = rows := by
  rcases clauses_cases (C := C) hbounds with ⟨hnot, hraises⟩ | ⟨hstandard, hclauses⟩
  · refine iff_of_false (fun h => ?_) fun h => hnot h.1
    have := h Plan.asWritten
    rw [Database.search, hraises] at this
    cases this
  simp only [Database.search, hclauses, bind_of_ok, hstandard, true_and]
  by_cases hlimit : limit < 0
  · refine iff_of_false (fun h => ?_) fun h => absurd h.1 (Int.not_le.mpr hlimit)
    have := h Plan.asWritten
    rw [if_pos hlimit] at this
    cases this
  simp only [if_neg hlimit, selectE_then_eq_ok_iff, Int.not_lt.mp hlimit, true_and]
  have hmem : ∀ r, r ∈ candidates db.rows tenantId kind ↔
      r ∈ db.rows.values.filter (Repository.listed tenantId kind) :=
    fun r => List.mem_insertionSort _
  have hraises : ∀ r ∈ db.rows.values.filter (Repository.listed tenantId kind),
      (∀ c ∈ rowClauses C filters.entries, c.raises C r.data = false) ↔
        Castable C r.data filters.entries := by
    intro r hr
    obtain ⟨k, hk⟩ := Dict.mem_values_iff.mp (List.mem_filter.mp hr).1
    exact raises_eq_false_iff (hdata k r hk)
  have htaken : (∀ r ∈ candidates db.rows tenantId kind, Castable C r.data filters.entries) →
      ∀ plan : Plan, ∀ r ∈ db.rows.values.filter (Repository.listed tenantId kind),
        evalWhere C r.data (plan.order (rowClauses C filters.entries)) =
          .ok (filters.entries.all (takesInPostgres C r.data)) := by
    intro hcast plan r hr
    rw [evalWhere_plan ((hraises r hr).mpr (hcast r ((hmem r).mpr hr))), all_takes_eq]
  constructor
  · intro h
    have hcast : ∀ r ∈ candidates db.rows tenantId kind, Castable C r.data filters.entries := by
      intro r hr
      have hr := (hmem r).mp hr
      exact (hraises r hr).mp (evalWhere_plans.mp fun plan => (h plan).1 r hr)
    refine ⟨hcast, ?_⟩
    rw [← (h Plan.asWritten).2]
    refine congrArg (fun l => (Repository.newestFirst l).take limit.toNat) ?_
    refine List.filter_congr fun r hr => ?_
    rw [htaken hcast Plan.asWritten r hr]
    rfl
  · rintro ⟨hcast, hrows⟩ plan
    refine ⟨fun r hr => ⟨_, htaken hcast plan r hr⟩, ?_⟩
    rw [← hrows]
    refine congrArg (fun l => (Repository.newestFirst l).take limit.toNat) ?_
    refine List.filter_congr fun r hr => ?_
    rw [htaken hcast plan r hr]
    rfl

/-! ## Agreement -/

/-- No two rows were created at one time. -/
def TimesDistinct (rows : List Resource) : Prop :=
  ∀ a ∈ rows, ∀ b ∈ rows, a.createdAt = b.createdAt → a = b

instance newest_total : Std.Total fun a b : Resource => b.createdAt ≤ a.createdAt :=
  ⟨fun _ _ => Int.le_total _ _⟩

instance newest_trans : IsTrans Resource fun a b => b.createdAt ≤ a.createdAt :=
  ⟨fun _ _ _ hab hbc => Int.le_trans hbc hab⟩

theorem TimesDistinct.antisymm {rows : List Resource} (h : TimesDistinct rows) :
    ∀ a ∈ rows, ∀ b ∈ rows, b.createdAt ≤ a.createdAt → a.createdAt ≤ b.createdAt → a = b :=
  fun a ha b hb hba hab => h a ha b hb (Int.le_antisymm hab hba)

theorem TimesDistinct.filter {rows : List Resource} (h : TimesDistinct rows)
    (p : Resource → Bool) : TimesDistinct (rows.filter p) :=
  fun a ha b hb => h a (List.mem_filter.mp ha).1 b (List.mem_filter.mp hb).1

theorem timesDistinct_of_unique {rows : Repository}
    (h : rows.Unique fun r => some r.createdAt) : TimesDistinct rows.values := by
  intro a ha b hb hab
  obtain ⟨k, hk⟩ := Dict.mem_values_iff.mp ha
  obtain ⟨k', hk'⟩ := Dict.mem_values_iff.mp hb
  cases h k k' a b a.createdAt hk hk' rfl (congrArg some hab.symm)
  exact Option.some.inj (hk.symm.trans hk')

/-- The order of the table does not show. -/
theorem candidates_of_same {repo rows : Repository} (hsame : repo.Same rows)
    (hdistinct : TimesDistinct rows.values) :
    candidates repo tenantId kind = candidates rows tenantId kind := by
  refine (insertionSort_eq_of_perm (hdistinct.filter _).antisymm ?_).symm
  exact (hsame.values_perm.symm.filter _)

theorem nodup_candidates {rows : Repository} (h : rows.Unique fun r => some r.createdAt) :
    (candidates rows tenantId kind).Nodup := by
  have hvalues : rows.values.Nodup := (Dict.Unique.nodup_values h).of_map
  exact ((List.perm_insertionSort _ _).nodup_iff).mpr (hvalues.filter _)

theorem parts_iff {data : Dict String Json} (hdata : data.Forall fun _ v => IsScalar v)
    (filters : List (String × Json)) :
    filters.all (takesInMemory U data) ≠ filters.all (takesInPostgres C data) ↔
      (∃ e ∈ filters, Differs U C data e) ∧
        (filters.all (takesInMemory U data) ∨ filters.all (takesInPostgres C data)) := by
  simp only [← takes_ne_iff hdata]
  constructor
  · intro hne
    constructor
    · by_contra hall
      push Not at hall
      refine hne (Bool.eq_iff_iff.mpr ?_)
      rw [List.all_eq_true, List.all_eq_true]
      exact forall₂_congr fun e he => by rw [hall e he]
    · by_contra hnone
      rw [not_or, Bool.not_eq_true, Bool.not_eq_true] at hnone
      exact hne (hnone.1.trans hnone.2.symm)
  · rintro ⟨⟨e, he, hdiffers⟩, htakes⟩ heq
    have hboth : filters.all (takesInMemory U data) ∧ filters.all (takesInPostgres C data) := by
      rw [← heq, or_self] at htakes
      exact ⟨htakes, heq ▸ htakes⟩
    have hmem := List.all_eq_true.mp hboth.1 e he
    have hpg := List.all_eq_true.mp hboth.2 e he
    exact hdiffers (hmem.trans hpg.symm)

/-- **The adapters select the same rows** exactly when the searches are comparable: none raises, and
before each row on which they part there are as many rows as were asked for.

The rows are the same in both stores, their fields are scalars, the bounds are numbers, and no two
rows were created at one time. Each adapter's search is first brought to the form of a filter over
the candidates; the two filters are then compared entry by entry. -/
theorem searches_agree_iff (U : Unicode) (C : Casts) {repo : Repository} {db : Database}
    (hsame : repo.Same db.rows)
    (hdata : db.rows.Forall fun _ r => r.data.Forall fun _ v => IsScalar v)
    (hdistinct : db.rows.Unique fun r => some r.createdAt) (tenantId : String)
    {filters : Dict String Json} (hbounds : NumericBounds filters.entries) (kind : Option String)
    (limit : Int) :
    SearchesAgree U C repo db tenantId filters kind limit ↔
      Comparable U C db tenantId filters kind limit := by
  have htimes := timesDistinct_of_unique hdistinct
  have hsorted : ∀ p : Resource → Bool, Repository.newestFirst
      ((db.rows.values.filter (Repository.listed tenantId kind)).filter p) =
        (candidates db.rows tenantId kind).filter p :=
    fun p => insertionSort_filter (htimes.filter _).antisymm p
  -- where the tests part, row by row
  have hparts : ∀ (before : List Resource) (r : Resource) (after : List Resource),
      candidates db.rows tenantId kind = before ++ r :: after →
      ((decide (before.length < 10000) && filters.entries.all (takesInMemory U r.data)) ≠
        filters.entries.all (takesInPostgres C r.data) ↔
          Parts U C filters.entries before.length r) := by
    intro before r after hsplit
    have hr : r ∈ candidates db.rows tenantId kind := by
      rw [hsplit]
      exact List.mem_append_right _ List.mem_cons_self
    obtain ⟨k, hk⟩ := Dict.mem_values_iff.mp
      (List.mem_filter.mp ((List.mem_insertionSort _).mp hr)).1
    rw [Parts]
    by_cases hposition : before.length < 10000
    · rw [decide_eq_true hposition, Bool.true_and, if_pos hposition, parts_iff (hdata k r hk)]
    · rw [decide_eq_false hposition, Bool.false_and, if_neg hposition]
      simp
  have hnodup : (candidates db.rows tenantId kind).Nodup := nodup_candidates hdistinct
  have hrows := take_filter_eq_iff (p := fun r => filters.entries.all (takesInMemory U r.data))
    (q := fun r => filters.entries.all (takesInPostgres C r.data)) hnodup 10000 limit.toNat
  simp only [SearchesAgree, search_in_memory_iff hbounds, search_in_postgres_iff hbounds hdata,
    candidates_of_same hsame htimes, hsorted]
  constructor
  · rintro ⟨rows, ⟨hinRange, hmem⟩, hstandard, hlimit, hcast, hpg⟩
    refine ⟨hlimit, hstandard, hcast, hinRange, fun before r after hsplit hpart => ?_⟩
    rw [upTo, if_pos hlimit] at hmem
    exact hrows.mp (hmem.trans hpg.symm) before r after hsplit
      ((hparts before r after hsplit).mpr hpart)
  · rintro ⟨hlimit, hstandard, hcast, hinRange, hcovered⟩
    refine ⟨_, ⟨hinRange, rfl⟩, hstandard, hlimit, hcast, ?_⟩
    rw [upTo, if_pos hlimit]
    refine (hrows.mpr fun before r after hsplit hne => ?_).symm
    exact hcovered before r after hsplit ((hparts before r after hsplit).mp hne)

/-- Casts of plain decimals. -/
def plainCasts : Casts where
  ofText s := (decimal s).map .finite
  ofFloat text := ((decimal text).map Numeric.finite).getD .nan

/-- A flat with a price and a zone. -/
def pricedFlat (id : String) (price : Nat) (zone : String) (createdAt : Datetime) : Resource where
  id := id
  tenantId := "t1"
  data := (Dict.empty.set "price" (.int price)).set "zone" (.str zone)
  createdAt := createdAt
  updatedAt := createdAt

/-- Two flats of the zone that is looked for, and one of another. -/
def pricedFlats : Database :=
  ((Database.empty.insert (pricedFlat "r1" 120 "norte" 1) rfl nofun).insert
    (pricedFlat "r2" 90 "sur" 2) rfl nofun).insert (pricedFlat "r3" 200 "norte" 3) rfl nofun

/-- `{"max_price": 150, "zone": "norte"}`. -/
def atMost150North : Dict String Json :=
  (Dict.empty.set "max_price" (.int 150)).set "zone" (.str "norte")

theorem atMost150North_numeric : NumericBounds atMost150North.entries := by
  intro e he hbound
  rcases List.mem_cons.mp he with rfl | he
  · trivial
  · rw [List.mem_singleton.mp he] at hbound
    cases hbound

/-- The flats, newest first. -/
def newestFlats : List Resource :=
  [pricedFlat "r3" 200 "norte" 3, pricedFlat "r2" 90 "sur" 2, pricedFlat "r1" 120 "norte" 1]

theorem pricedFlats_scalar : pricedFlats.rows.Forall fun _ r => r.data.Forall fun _ v => IsScalar v := by
  refine Dict.Forall.set (Dict.Forall.set (Dict.Forall.set nofun ?_) ?_) ?_
  all_goals exact Dict.Forall.set (Dict.Forall.set nofun trivial) trivial

theorem pricedFlats_distinct : pricedFlats.rows.Unique fun r => some r.createdAt := by
  have hentries : ∀ p ∈ pricedFlats.rows.entries, ∀ q ∈ pricedFlats.rows.entries,
      some p.2.createdAt = some q.2.createdAt → p.1 = q.1 := by decide
  intro k k' v v' a hk hk' ha ha'
  exact hentries (k, v) (Dict.get?_eq_some_iff.mp hk) (k', v') (Dict.get?_eq_some_iff.mp hk')
    (ha.trans ha'.symm)

theorem newestFlats_price : ∀ r ∈ newestFlats,
    ∃ n : Nat, n ≤ 2 ^ 200 ∧ r.data.get? "price" = some (.int n) := by
  simp only [newestFlats, List.forall_mem_cons, List.not_mem_nil, false_imp_iff, implies_true, and_true]
  exact ⟨⟨200, by norm_num, rfl⟩, ⟨90, by norm_num, rfl⟩, ⟨120, by norm_num, rfl⟩⟩

/-- Every flat has a price that both adapters read, and a zone that is spelled as it is looked for,
or is another one: both find the first flat alone. -/
theorem searches_agree_pricedFlats :
    SearchesAgree Unicode.ascii plainCasts pricedFlats.rows pricedFlats "t1" atMost150North none 10 := by
  have hrows : ∀ {r}, r ∈ candidates pricedFlats.rows "t1" none → r ∈ newestFlats := id
  have halike : ∀ r ∈ newestFlats, ∀ e ∈ atMost150North.entries,
      takesInMemory Unicode.ascii r.data e = takesInPostgres plainCasts r.data e := by
    decide +kernel
  refine (searches_agree_iff Unicode.ascii plainCasts (fun _ => rfl) pricedFlats_scalar
    pricedFlats_distinct "t1" atMost150North_numeric none 10).mpr
    { nonneg := by decide
      standard := by unfold Standard; decide
      castable := ?_
      inRange := ?_
      covered := ?_ }
  · intro r hr e he side field hbound
    rcases List.mem_cons.mp he with rfl | he
    · cases hbound
      obtain ⟨n, -, hn⟩ := newestFlats_price r (hrows hr)
      change ¬ Uncastable plainCasts (r.data.get? "price")
      rw [hn]
      exact id
    · rw [List.mem_singleton.mp he] at hbound
      cases hbound
  · intro r hr
    obtain ⟨n, hn, hvalue⟩ := newestFlats_price r (hrows (List.mem_of_mem_take hr))
    rintro ((hlarge | ⟨-, hlarge⟩) | ⟨-, hzone | ⟨-, hnil⟩⟩)
    · change TooLarge ((r.data.get? "price").getD .null) at hlarge
      rw [hvalue] at hlarge
      exact not_tooLarge_of_le hn hlarge
    · exact not_tooLarge_of_le (n := 150) (by norm_num) hlarge
    · exact hzone
    · exact hnil
  · intro before r after hsplit hparts
    have hr : r ∈ candidates pricedFlats.rows "t1" none := by
      rw [hsplit]
      exact List.mem_append_right before List.mem_cons_self
    have hposition : before.length < 10000 := by
      have hlen := congrArg List.length hsplit
      rw [show (candidates pricedFlats.rows "t1" none).length = 3 from rfl, List.length_append] at hlen
      omega
    rw [Parts, if_pos hposition] at hparts
    obtain ⟨⟨e, he, hdiffers⟩, -⟩ := hparts
    obtain ⟨k, hk⟩ := Dict.mem_values_iff.mp
      (List.mem_filter.mp ((List.mem_insertionSort _).mp hr)).1
    exact absurd (halike r (hrows hr) e he) ((takes_ne_iff (pricedFlats_scalar k r hk) e).mpr hdiffers)

/-- A loft whose price nobody wrote down. -/
def unpriced : Resource where
  id := "r1"
  tenantId := "t1"
  data := Dict.empty.set "title" (.str "Loft")
  createdAt := 0
  updatedAt := 0

/-- A table with that row. -/
def lofts : Database := Database.empty.insert unpriced rfl nofun

/-- `{"max_price": 150}`. -/
def atMost150 : Dict String Json := Dict.empty.set "max_price" (.int 150)

theorem lofts_scalar : lofts.rows.Forall fun _ r => r.data.Forall fun _ v => IsScalar v :=
  Dict.Forall.set nofun (Dict.Forall.set nofun trivial)

theorem lofts_distinct : lofts.rows.Unique fun r => some r.createdAt :=
  Dict.Unique.set (fun _ _ _ _ _ hx => by cases hx) fun _ _ _ hx => by cases hx

theorem atMost150_numeric : NumericBounds atMost150.entries := by
  intro e he _
  rw [List.mem_singleton.mp he]
  trivial

/-- A row without the field passes a `max_` in memory and fails it in Postgres. -/
theorem not_searches_agree : ¬ ∀ (U : Unicode) (C : Casts) (repo : Repository) (db : Database),
    repo.Same db.rows → (db.rows.Forall fun _ r => r.data.Forall fun _ v => IsScalar v) →
      (db.rows.Unique fun r => some r.createdAt) → ∀ (tenantId : String)
        (filters : Dict String Json), NumericBounds filters.entries →
          ∀ (kind : Option String) (limit : Int), 0 ≤ limit →
            SearchesAgree U C repo db tenantId filters kind limit := by
  intro h
  obtain ⟨rows, hmem, hpg⟩ := h Unicode.ascii plainCasts lofts.rows lofts (fun _ => rfl)
    lofts_scalar lofts_distinct "t1" atMost150 atMost150_numeric none 10 (by decide)
  have hfound : ((Repository.search Unicode.ascii lofts.rows "t1" atMost150 none none
      10).toOption.map List.length) = some 1 := by
    rw [search_of_no_text]
    decide
  have hnone : ((lofts.search plainCasts Plan.asWritten "t1" atMost150 none 10).toOption.map
      List.length) = some 0 := by decide
  rw [hmem] at hfound
  rw [hpg] at hnone
  exact absurd (hfound.symm.trans hnone) (by decide)

end Wapsell.Resources
