import Wapsell.Py.Rounding
import Wapsell.Resources.Search

/-!
# One filter entry, two adapters

What each adapter makes of a filter entry on a row whose fields are scalars,
and exactly where the two part: a missing field against null, the case of
letters, booleans against numbers, doubles against decimals, and a `max_`
bound on a field without a number, which the in-memory adapter lets pass.

Each way of parting has its own clause in `EqualityDiffers` and
`BoundDiffers`, and `takes_ne_iff` says there is no other. Each can be
seen on one row with one filter.

Where neither adapter raises and no clause applies, the two take the
same rows. What they do when one raises is left to the modules on whole
rows and whole searches.
-/

namespace Wapsell.Resources

open Lib Py Postgres

/-- A JSON scalar, as a JSONB column holds it.

A float has to be one JSON can write: JSONB knows neither NaN nor an infinity. -/
def IsScalar : Json → Prop
  | .float text => (decimal text).isSome
  | .arr _ => False
  | .obj _ => False
  | _ => True

/-- A number. -/
def IsNumber : Json → Prop
  | .int _ => True
  | .float _ => True
  | _ => False

/-! ## Reading a number -/

/-- The double `float` answers, were there no largest one. -/
def readDouble (U : Unicode) : Json → Option Double
  | .bool b => some (.finite (if b then 1 else 0))
  | .int n => some (Double.ofRat n)
  | .float text => some (Json.floatValue text)
  | .str s => parseFloat U s
  | _ => none

/-- An integer past the largest double: `float` raises an `OverflowError`.

A text with as many digits is not too large: `float` reads it as infinity. -/
def TooLarge : Json → Prop
  | .int n => ∃ negative, Double.ofRat n = .inf negative
  | _ => False

/-- An integer of an ordinary size is not too large. -/
theorem not_tooLarge_of_le {n : Nat} (h : n ≤ 2 ^ 200) : ¬ TooLarge (.int n) := by
  rintro ⟨negative, hinf⟩
  have hq : ((n : Int) : ℚ) ≤ 2 ^ 200 := by exact_mod_cast h
  rw [Double.ofRat_eq_of_le (by positivity) hq] at hinf
  cases hinf

/-- A value that cannot be cast to `numeric`.

A missing field and a null are cast to NULL. Arrays and objects do not come up, since the rows in
question hold scalars. -/
def Uncastable (C : Casts) : Option Json → Prop
  | some (.bool _) => True
  | some (.str s) => C.ofText s = none
  | _ => False

/-- The `numeric` a number is bound as. -/
def boundNumeric (C : Casts) : Json → Option Numeric
  | .int n => some (.finite n)
  | .float text => some (C.ofFloat text)
  | _ => none

theorem floatOfInt_eq (n : Int) :
    (∃ negative, Double.ofRat n = .inf negative) ∧ floatOfInt n = .error .overflowError ∨
      (¬ ∃ negative, Double.ofRat n = .inf negative) ∧ floatOfInt n = .ok (Double.ofRat n) := by
  rw [floatOfInt]
  cases h : Double.ofRat n with
  | nan => exact .inr ⟨nofun, rfl⟩
  | inf negative => exact .inl ⟨⟨negative, rfl⟩, rfl⟩
  | finite q => exact .inr ⟨nofun, rfl⟩

theorem asNumber_of_tooLarge {U : Unicode} {value : Json} (h : TooLarge value) :
    Repository.asNumber U value = .error .overflowError := by
  cases value with
  | int n =>
    obtain ⟨-, he⟩ | ⟨hnot, -⟩ := floatOfInt_eq n
    · rw [Repository.asNumber, Json.toFloat_int, he]
    · exact absurd h hnot
  | _ => exact absurd h id

theorem asNumber_of_not_tooLarge {U : Unicode} {value : Json} (h : ¬ TooLarge value) :
    Repository.asNumber U value = .ok (readDouble U value) := by
  cases value with
  | int n =>
    obtain ⟨hlarge, -⟩ | ⟨-, hok⟩ := floatOfInt_eq n
    · exact absurd hlarge h
    · rw [Repository.asNumber, Json.toFloat_int, hok]
      rfl
  | str s =>
    rw [Repository.asNumber, Json.toFloat_str, readDouble]
    cases parseFloat U s <;> rfl
  | _ => rfl

/-- What `float` does: it overflows, it reads the value, or the value is none it reads. -/
theorem toFloat_cases (U : Unicode) (value : Json) :
    TooLarge value ∧ value.toFloat U = .error .overflowError ∨
      ¬ TooLarge value ∧ (∃ d, readDouble U value = some d ∧ value.toFloat U = .ok d) ∨
      ¬ TooLarge value ∧ readDouble U value = none ∧
        (value.toFloat U = .error .typeError ∨ value.toFloat U = .error .valueError) := by
  cases value with
  | int n =>
    rcases floatOfInt_eq n with ⟨hlarge, he⟩ | ⟨hnot, hok⟩
    · exact .inl ⟨hlarge, he⟩
    · exact .inr (.inl ⟨hnot, _, rfl, hok⟩)
  | str s =>
    rw [Json.toFloat_str, readDouble]
    cases parseFloat U s with
    | none => exact .inr (.inr ⟨id, rfl, .inr rfl⟩)
    | some d => exact .inr (.inl ⟨id, d, rfl, rfl⟩)
  | bool b => exact .inr (.inl ⟨id, _, rfl, rfl⟩)
  | float text => exact .inr (.inl ⟨id, _, rfl, rfl⟩)
  | _ => exact .inr (.inr ⟨id, rfl, .inl rfl⟩)

/-- A numeric bound is read as a double, unless it is too large. -/
theorem toFloat_of_isNumber {U : Unicode} {value : Json} (h : IsNumber value) :
    TooLarge value ∧ value.toFloat U = .error .overflowError ∨
      ¬ TooLarge value ∧ ∃ bound, readDouble U value = some bound ∧ value.toFloat U = .ok bound := by
  cases value with
  | int n =>
    rcases floatOfInt_eq n with ⟨hlarge, he⟩ | ⟨hnot, hok⟩
    · exact .inl ⟨hlarge, he⟩
    · exact .inr ⟨hnot, _, rfl, hok⟩
  | float text => exact .inr ⟨id, _, rfl, rfl⟩
  | _ => exact absurd h id

theorem ofParameter_of_isNumber {C : Casts} {value : Json} (h : IsNumber value) :
    C.ofParameter value = .ok (boundNumeric C value) ∧ (boundNumeric C value).isSome := by
  cases value with
  | int n => exact ⟨rfl, rfl⟩
  | float text => exact ⟨rfl, rfl⟩
  | _ => exact absurd h id

/-- The cast of a scalar field raises exactly where it says. -/
theorem ofField_error_iff {C : Casts} {stored : Option Json} (h : ∀ v, stored = some v → IsScalar v) :
    (∃ e, C.ofField stored = .error e) ↔ Uncastable C stored := by
  cases stored with
  | none => exact iff_of_false (fun ⟨_, he⟩ => by cases he) id
  | some value =>
    cases value with
    | null => exact iff_of_false (fun ⟨_, he⟩ => by cases he) id
    | bool b => exact iff_of_true ⟨_, rfl⟩ trivial
    | int n => exact iff_of_false (fun ⟨_, he⟩ => by cases he) id
    | float text =>
      obtain ⟨q, hq⟩ := Option.isSome_iff_exists.mp (h _ rfl)
      have hok : C.ofField (some (.float text)) = .ok (some (.finite q)) := by
        simp only [Casts.ofField, exact, hq]
      refine iff_of_false (fun ⟨_, he⟩ => ?_) id
      rw [hok] at he
      cases he
    | str s =>
      rw [Casts.ofField, Uncastable]
      cases hs : C.ofText s with
      | none => exact iff_of_true ⟨_, rfl⟩ rfl
      | some x => exact iff_of_false (fun ⟨_, he⟩ => by cases he) nofun
    | arr items => exact absurd (h _ rfl) id
    | obj fields => exact absurd (h _ rfl) id

/-! ## The decision on one entry -/

/-- The bound in memory: what is no number passes a `max_` and fails a `min_`. -/
def boundInMemory (U : Unicode) (side : Side) (stored value : Json) : Bool :=
  match readDouble U stored, readDouble U value with
  | some x, some y => side.holds Double.le x y
  | some _, none => false
  | none, _ => side = .max

/-- The bound in Postgres: only a number is within it.

A comparison with NULL is NULL, and a row is selected only by what is true. -/
def boundInPostgres (C : Casts) (side : Side) (stored : Option Json) (value : Json) : Bool :=
  match C.ofField stored, boundNumeric C value with
  | .ok (some x), some y => side.holds Numeric.le x y
  | _, _ => false

/-- The equality in memory: two texts whatever their case. -/
def equalInMemory (U : Unicode) (stored value : Json) : Bool :=
  match stored, value with
  | .str actual, .str wanted => lower U actual == lower U wanted
  | actual, wanted => actual.pyEq wanted

/-- The equality in Postgres: the field is there and contains the value. -/
def equalInPostgres (stored : Option Json) (value : Json) : Bool :=
  match stored with
  | some actual => contains actual value
  | none => false

/-- `_matches_filter`, where it does not raise. -/
def takesInMemory (U : Unicode) (data : Dict String Json) (e : String × Json) : Bool :=
  match boundOf e.1 with
  | some (side, field) => boundInMemory U side (data.getD field .null) e.2
  | none => equalInMemory U (data.getD e.1 .null) e.2

/-- What the clauses say of an entry. -/
def takesInPostgres (C : Casts) (data : Dict String Json) (e : String × Json) : Bool :=
  match boundOf e.1 with
  | some (side, field) => boundInPostgres C side (data.get? field) e.2
  | none => equalInPostgres (data.get? e.1) e.2

/-- `_matches_filter` raises: the field, or the bound it is compared with, is an integer too large
for a double.

The bound is converted only when the field was read as a number, so a bound that is too large does
not raise beside a field that is none. -/
def Overflows (U : Unicode) (data : Dict String Json) (e : String × Json) : Prop :=
  match boundOf e.1 with
  | some (_, field) => TooLarge (data.getD field .null) ∨
      (readDouble U (data.getD field .null)).isSome ∧ TooLarge e.2
  | none => False

theorem matchesFilter_bound {U : Unicode} {data : Dict String Json} {key : String} {value : Json}
    {side : Side} {field : String} (h : boundOf key = some (side, field)) :
    Repository.matchesFilter U data key value = (do
      match ← Repository.asNumber U (data.getD field .null) with
      | none => pure (decide (side = .max))
      | some actual => do
        let bound ← value.toFloat U
        pure (side.holds Double.le actual bound)) := by
  rw [boundOf] at h
  unfold Repository.matchesFilter
  split at h
  next hmax =>
    cases h
    rw [if_pos hmax]
    rfl
  next hmax =>
    rw [if_neg hmax]
    split at h
    next hmin =>
      cases h
      rw [if_pos hmin]
      rfl
    next => cases h

theorem matchesFilter_equality {U : Unicode} {data : Dict String Json} {key : String} {value : Json}
    (h : boundOf key = none) :
    Repository.matchesFilter U data key value =
      .ok (equalInMemory U (data.getD key .null) value) := by
  rw [boundOf] at h
  unfold Repository.matchesFilter
  split at h
  next => cases h
  next hmax =>
    split at h
    next => cases h
    next hmin =>
      rw [if_neg hmax, if_neg hmin]
      generalize data.getD key .null = stored
      cases stored <;> cases value <;> rfl

/-- One entry in memory, when its bound is a number. -/
theorem matchesFilter_cases (U : Unicode) (data : Dict String Json) {e : String × Json}
    (he : (boundOf e.1).isSome → IsNumber e.2) :
    Overflows U data e ∧ Repository.matchesFilter U data e.1 e.2 = .error .overflowError ∨
      ¬ Overflows U data e ∧ Repository.matchesFilter U data e.1 e.2 =
        .ok (takesInMemory U data e) := by
  rw [Overflows, takesInMemory]
  cases hbound : boundOf e.1 with
  | none => exact .inr ⟨id, matchesFilter_equality hbound⟩
  | some bound =>
    obtain ⟨side, field⟩ := bound
    rw [matchesFilter_bound hbound]
    by_cases hlarge : TooLarge (data.getD field .null)
    · rw [asNumber_of_tooLarge hlarge]
      exact .inl ⟨.inl hlarge, rfl⟩
    · rw [asNumber_of_not_tooLarge hlarge]
      simp only [ok_bind, boundInMemory]
      cases hread : readDouble U (data.getD field .null) with
      | none => exact .inr ⟨by simpa using hlarge, rfl⟩
      | some x =>
        rcases toFloat_of_isNumber (U := U) (he (by rw [hbound]; rfl)) with
          ⟨hlarge', hraises⟩ | ⟨hsmall, y, hy, hok⟩
        · rw [hraises]
          exact .inl ⟨.inr ⟨rfl, hlarge'⟩, rfl⟩
        · rw [hok, hy]
          exact .inr ⟨by simp [hlarge, hsmall], rfl⟩

/-! ## Where the decisions part -/

/-- The values are the same number, a boolean counting as 0 or 1. -/
def sameDouble (a b : Json) : Bool :=
  match a.numeric, b.numeric with
  | some x, some y => x.eq y
  | _, _ => false

/-- The values are the same number as they are written. -/
def sameDecimal (a b : Json) : Bool :=
  match exact a, exact b with
  | some x, some y => decide (x = y)
  | _, _ => false

/-- An equality the adapters decide differently: null against a missing field, texts that differ in
case only, a boolean against a number, and numbers that are one double and two decimals. -/
def EqualityDiffers (U : Unicode) : Option Json → Json → Prop
  | none, value => value = .null
  | some (.str actual), .str wanted => actual ≠ wanted ∧ lower U actual = lower U wanted
  | some (.bool _), .bool _ => False
  | some actual, value => sameDouble actual value ≠ sameDecimal actual value

/-- A bound the adapters decide differently: a `max_` on a field that is missing or null, and any
other field that the two find on different sides of the bound. -/
def BoundDiffers (U : Unicode) (C : Casts) (side : Side) : Option Json → Json → Prop
  | none, _ => side = .max
  | some .null, _ => side = .max
  | some actual, value =>
    boundInMemory U side actual value ≠ boundInPostgres C side (some actual) value

/-- An entry the adapters decide differently. -/
def Differs (U : Unicode) (C : Casts) (data : Dict String Json) (e : String × Json) : Prop :=
  match boundOf e.1 with
  | some (side, field) => BoundDiffers U C side (data.get? field) e.2
  | none => EqualityDiffers U (data.get? e.1) e.2

theorem equal_ne_iff {U : Unicode} {stored : Option Json} {value : Json}
    (h : ∀ v, stored = some v → IsScalar v) :
    equalInMemory U (stored.getD .null) value ≠ equalInPostgres stored value ↔
      EqualityDiffers U stored value := by
  cases stored with
  | none =>
    have hfalse : equalInPostgres none value = false := rfl
    rw [hfalse, Option.getD_none, Bool.ne_false_iff]
    cases value with
    | null => exact iff_of_true rfl rfl
    | _ => exact iff_of_false Bool.false_ne_true nofun
  | some actual =>
    have hscalar := h actual rfl
    cases actual with
    | null =>
      cases value with
      | null => exact iff_of_false (fun hne => hne rfl) fun hne => hne rfl
      | _ => exact Iff.rfl
    | bool a =>
      cases value with
      | bool b =>
        have hsame : Json.pyEq (.bool a) (.bool b) = contains (.bool a) (.bool b) := by
          cases a <;> cases b <;> decide
        exact iff_of_false (fun hne => hne hsame) id
      | _ => exact Iff.rfl
    | int n => cases value <;> exact Iff.rfl
    | float text => cases value <;> exact Iff.rfl
    | str actual =>
      cases value with
      | str wanted =>
        show (lower U actual == lower U wanted) ≠ (actual == wanted) ↔
          actual ≠ wanted ∧ lower U actual = lower U wanted
        by_cases hsame : actual = wanted
        · simp [hsame]
        · simp [hsame]
      | _ => exact Iff.rfl
    | arr items => exact absurd hscalar id
    | obj fields => exact absurd hscalar id

theorem bound_ne_iff {U : Unicode} {C : Casts} {side : Side} {stored : Option Json} {value : Json} :
    boundInMemory U side (stored.getD .null) value ≠ boundInPostgres C side stored value ↔
      BoundDiffers U C side stored value := by
  have hmissing : boundInMemory U side .null value ≠ false ↔ side = .max := by
    show decide (side = .max) ≠ false ↔ _
    simp
  cases stored with
  | none => exact hmissing
  | some actual =>
    cases actual with
    | null => exact hmissing
    | _ => exact Iff.rfl

/-- The table is exact. -/
theorem takes_ne_iff {U : Unicode} {C : Casts} {data : Dict String Json}
    (hdata : data.Forall fun _ v => IsScalar v) (e : String × Json) :
    takesInMemory U data e ≠ takesInPostgres C data e ↔ Differs U C data e := by
  rw [takesInMemory, takesInPostgres, Differs]
  cases boundOf e.1 with
  | none => exact equal_ne_iff fun v hv => hdata _ v hv
  | some bound => exact bound_ne_iff

end Wapsell.Resources
