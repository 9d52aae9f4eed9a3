import Wapsell.Resources.Filters

/-!
# One row, two adapters

A row is taken by the in-memory adapter when every entry takes it, up to the
first that does not, and one on the way may raise. In Postgres its clauses
say what the entries say; under some order of evaluation any one of them may
come first, so a clause that raises is a search that may.

The in-memory loop stops at the first entry that fails, so an entry that
would raise behind it does no harm. Postgres promises no such order, and
a statement is safe only if no clause of it raises on any row it may be
evaluated on.

A row that both adapters take, or neither, without raising is where they
agree; the module on whole searches adds the order and the limit.
-/

namespace Wapsell.Resources

open Lib Py Postgres

/-! ## A row in memory -/

variable {U : Unicode} {C : Casts} {data : Dict String Json} {filters : List (String × Json)}

/-- The bounds are numbers. -/
def NumericBounds (filters : List (String × Json)) : Prop :=
  ∀ e ∈ filters, (boundOf e.1).isSome → IsNumber e.2

/-- The entry that overflows is reached: every entry before it takes the row. -/
def Raises (U : Unicode) (data : Dict String Json) : List (String × Json) → Prop
  | [] => False
  | e :: rest => Overflows U data e ∨ takesInMemory U data e ∧ Raises U data rest

theorem matchesFilters_cases (U : Unicode) (data : Dict String Json) :
    ∀ {filters : List (String × Json)}, NumericBounds filters →
    Raises U data filters ∧ (∃ e, Repository.matchesFilters U data filters = .error e) ∨
      ¬ Raises U data filters ∧ Repository.matchesFilters U data filters =
        .ok (filters.all (takesInMemory U data))
  | [], _ => .inr ⟨id, rfl⟩
  | e :: rest, h => by
    obtain ⟨he, hrest⟩ := List.forall_mem_cons.mp h
    rw [Raises, Repository.matchesFilters, List.all_cons]
    rcases matchesFilter_cases U data he with ⟨hover, hraise⟩ | ⟨hnot, hok⟩
    · rw [hraise]
      exact .inl ⟨.inl hover, _, rfl⟩
    · rw [hok, ok_bind]
      cases takesInMemory U data e with
      | false => exact .inr ⟨by simpa using hnot, rfl⟩
      | true =>
        rcases matchesFilters_cases U data hrest with ⟨hraises, herror⟩ | ⟨hnot', hok'⟩
        · exact .inl ⟨.inr ⟨rfl, hraises⟩, herror⟩
        · exact .inr ⟨by simp [hnot, hnot'], hok'⟩

/-- With no query text only the filters count. -/
theorem isMatch_of_no_text (r : Resource) :
    Repository.isMatch U filters "" r = Repository.matchesFilters U r.data filters := by
  rw [Repository.isMatch]
  cases Repository.matchesFilters U r.data filters with
  | error e => rfl
  | ok b => cases b <;> rfl

theorem selectM_eq_selectE (p : Resource → Except Exc Bool) :
    ∀ rows, Repository.selectM p rows = selectE p rows
  | [] => rfl
  | r :: rest => by
    rw [Repository.selectM, selectE, selectM_eq_selectE p rest]
    rfl

/-! ## A row in Postgres -/

/-- The clause of a bound. -/
def boundClause (C : Casts) (e : String × Json) : Option Clause :=
  (boundOf e.1).map fun bound => .bound bound.1 bound.2 (boundNumeric C e.2)

/-- The containment clause, where there is one. -/
def containmentClause (filters : List (String × Json)) : List Clause :=
  match equalities filters with
  | [] => []
  | wanted => [.containment wanted]

/-- The clauses of a search. -/
def rowClauses (C : Casts) (filters : List (String × Json)) : List Clause :=
  filters.filterMap (boundClause C) ++ containmentClause filters

/-- What the filters wait for is standard JSON. -/
def Standard (filters : List (String × Json)) : Prop :=
  ∀ e ∈ equalities filters, isStandard e.2

theorem boundClauses_eq : ∀ {filters : List (String × Json)}, NumericBounds filters →
    boundClauses C filters = .ok (filters.filterMap (boundClause C))
  | [], _ => rfl
  | (key, value) :: rest, h => by
    obtain ⟨he, hrest⟩ := List.forall_mem_cons.mp h
    rw [boundClauses, List.filterMap_cons, boundClause]
    cases hbound : boundOf key with
    | none => exact boundClauses_eq hrest
    | some bound =>
      have hparameter := (ofParameter_of_isNumber (C := C) (he (by rw [hbound]; rfl))).1
      simp only [hparameter, boundClauses_eq hrest]
      rfl

theorem clauses_cases (h : NumericBounds filters) :
    ¬ Standard filters ∧ clauses C filters = .error .invalidJson ∨
      Standard filters ∧ clauses C filters = .ok (rowClauses C filters) := by
  rw [clauses, boundClauses_eq h, Standard, rowClauses, containmentClause]
  cases hwanted : equalities filters with
  | nil => exact .inr ⟨nofun, by rw [List.append_nil]; rfl⟩
  | cons e rest =>
    by_cases hall : (e :: rest).all fun e => isStandard e.2
    · refine .inr ⟨fun e' he' => List.all_eq_true.mp hall e' he', ?_⟩
      simp only [hall]
      rfl
    · refine .inl ⟨fun hstandard => hall (List.all_eq_true.mpr hstandard), ?_⟩
      simp only [hall]
      rfl

/-- The clause is true of the row. -/
def Clause.takes (C : Casts) (data : Dict String Json) (clause : Clause) : Bool :=
  match clause.eval C data with
  | .ok (some true) => true
  | _ => false

/-- The clause raises. -/
def Clause.raises (C : Casts) (data : Dict String Json) (clause : Clause) : Bool :=
  match clause.eval C data with
  | .ok _ => false
  | .error _ => true

/-- Without a clause that raises, all of them have to be true. -/
theorem evalWhere_of_ok : ∀ {cs : List Clause}, (∀ c ∈ cs, c.raises C data = false) →
    evalWhere C data cs = .ok (cs.all (Clause.takes C data))
  | [], _ => rfl
  | c :: cs, h => by
    obtain ⟨hc, hcs⟩ := List.forall_mem_cons.mp h
    rw [evalWhere, List.all_cons, Clause.takes]
    rw [Clause.raises] at hc
    cases heval : c.eval C data with
    | error e =>
      rw [heval] at hc
      cases hc
    | ok verdict =>
      rw [bind_of_ok]
      cases verdict with
      | none => rfl
      | some b =>
        cases b with
        | false => rfl
        | true => exact evalWhere_of_ok hcs

/-- Whatever raises comes first. -/
def Plan.raisingFirst (C : Casts) (data : Dict String Json) : Plan where
  order cs := cs.filter (Clause.raises C data) ++ cs.filter fun c => !c.raises C data
  perm cs := List.filter_append_perm _ cs

theorem evalWhere_raisingFirst (data : Dict String Json) {cs : List Clause}
    (h : ∃ c ∈ cs, c.raises C data = true) :
    ∃ e, evalWhere C data ((Plan.raisingFirst C data).order cs) = .error e := by
  obtain ⟨c, hc, hraises⟩ := h
  show ∃ e, evalWhere C data (cs.filter (Clause.raises C data) ++ _) = .error e
  cases hfilter : cs.filter (Clause.raises C data) with
  | nil => exact absurd hraises (List.filter_eq_nil_iff.mp hfilter c hc)
  | cons first rest =>
    have hfirst : first.raises C data = true :=
      (List.mem_filter.mp (hfilter ▸ List.mem_cons_self)).2
    rw [Clause.raises] at hfirst
    cases heval : first.eval C data with
    | ok verdict =>
      rw [heval] at hfirst
      cases hfirst
    | error e =>
      refine ⟨e, ?_⟩
      rw [List.cons_append, evalWhere, heval]
      rfl

/-- A row answers under every order of evaluation exactly when no clause raises, and then it always
answers the same. -/
theorem evalWhere_plans {cs : List Clause} :
    (∀ plan : Plan, ∃ b, evalWhere C data (plan.order cs) = .ok b) ↔
      ∀ c ∈ cs, c.raises C data = false := by
  constructor
  · intro h
    by_contra hnot
    push Not at hnot
    obtain ⟨e, he⟩ := evalWhere_raisingFirst data
      (by simpa only [ne_eq, Bool.not_eq_false] using hnot)
    obtain ⟨b, hb⟩ := h (Plan.raisingFirst C data)
    rw [he] at hb
    cases hb
  · intro h plan
    exact ⟨_, evalWhere_of_ok fun c hc => h c ((plan.perm cs).mem_iff.mp hc)⟩

theorem evalWhere_plan {cs : List Clause} (h : ∀ c ∈ cs, c.raises C data = false) (plan : Plan) :
    evalWhere C data (plan.order cs) = .ok (cs.all (Clause.takes C data)) := by
  rw [evalWhere_of_ok fun c hc => h c ((plan.perm cs).mem_iff.mp hc), (plan.perm cs).all_eq]

/-! ## Clauses and entries -/

/-- No bound meets a field that cannot be cast. -/
def Castable (C : Casts) (data : Dict String Json) (filters : List (String × Json)) : Prop :=
  ∀ e ∈ filters, ∀ side field, boundOf e.1 = some (side, field) →
    ¬ Uncastable C (data.get? field)

theorem raises_bound_iff {side : Side} {field : String} {value : Option Numeric}
    (hdata : data.Forall fun _ v => IsScalar v) :
    (Clause.bound side field value).raises C data = false ↔ ¬ Uncastable C (data.get? field) := by
  rw [← ofField_error_iff fun v hv => hdata field v hv, Clause.raises, Clause.eval]
  cases C.ofField (data.get? field) with
  | error e => exact iff_of_false nofun fun h => h ⟨e, rfl⟩
  | ok actual =>
    refine iff_of_true ?_ nofun
    cases (data.get? field).isSome <;> cases actual <;> cases value <;> rfl

theorem takes_bound (side : Side) (field : String) (value : Json) :
    (Clause.bound side field (boundNumeric C value)).takes C data =
      boundInPostgres C side (data.get? field) value := by
  rw [Clause.takes, Clause.eval, boundInPostgres]
  cases hstored : data.get? field with
  | none => rfl
  | some stored =>
    cases C.ofField (some stored) with
    | error e => rfl
    | ok actual =>
      cases actual with
      | none => rfl
      | some x =>
        cases boundNumeric C value with
        | none => rfl
        | some y =>
          show (match (.ok (some (side.holds Numeric.le x y)) : Except SqlError (Option Bool)) with
            | .ok (some true) => true
            | _ => false) = side.holds Numeric.le x y
          cases side.holds Numeric.le x y <;> rfl

theorem field_entries (data : Dict String Json) (key : String) :
    Json.field key data.entries = data.get? key :=
  field_eq_find key data.entries

theorem containsFields_eq (wanted : List (String × Json)) :
    containsFields data.entries wanted =
      wanted.all fun e => equalInPostgres (data.get? e.1) e.2 := by
  induction wanted with
  | nil => rfl
  | cons e rest ih =>
    rw [containsFields, List.all_cons, ih, field_entries]
    rfl

theorem all_takes_containment :
    (containmentClause filters).all (Clause.takes C data) =
      (equalities filters).all fun e => equalInPostgres (data.get? e.1) e.2 := by
  rw [containmentClause]
  cases equalities filters with
  | nil => rfl
  | cons e rest =>
    rw [List.all_cons, List.all_nil, Bool.and_true, ← containsFields_eq, Clause.takes, Clause.eval]
    cases containsFields data.entries (e :: rest) <;> rfl

/-- The clauses of a row say what its entries say. -/
theorem all_takes_eq :
    (rowClauses C filters).all (Clause.takes C data) = filters.all (takesInPostgres C data) := by
  rw [rowClauses, List.all_append, all_takes_containment, List.all_filterMap, equalities,
    List.all_filter, Bool.eq_iff_iff, Bool.and_eq_true, List.all_eq_true, List.all_eq_true,
    List.all_eq_true, ← forall₂_and]
  refine forall₂_congr fun e _ => ?_
  rw [boundClause, takesInPostgres]
  cases boundOf e.1 with
  | none => simp
  | some bound => simp [takes_bound]

theorem raises_eq_false_iff (hdata : data.Forall fun _ v => IsScalar v) :
    (∀ c ∈ rowClauses C filters, c.raises C data = false) ↔ Castable C data filters := by
  constructor
  · intro h e he side field hbound
    have hclause : Clause.bound side field (boundNumeric C e.2) ∈ rowClauses C filters := by
      refine List.mem_append_left _ (List.mem_filterMap.mpr ⟨e, he, ?_⟩)
      rw [boundClause, hbound]
      rfl
    exact (raises_bound_iff hdata).mp (h _ hclause)
  · intro h c hc
    rcases List.mem_append.mp hc with hbound | hcontainment
    · obtain ⟨e, he, hclause⟩ := List.mem_filterMap.mp hbound
      obtain ⟨⟨side, field⟩, hside, rfl⟩ := Option.map_eq_some_iff.mp hclause
      exact (raises_bound_iff hdata).mpr (h e he side field hside)
    · rw [containmentClause] at hcontainment
      split at hcontainment
      next => cases hcontainment
      next =>
        cases List.mem_singleton.mp hcontainment
        rfl

end Wapsell.Resources
