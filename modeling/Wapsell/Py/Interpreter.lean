import Wapsell.Py.JsonText

/-!
# What the interpreter refuses

`json.loads` as the process runs it. A text may run into a limit of the
interpreter before its scanner is through: the depth of the recursion, or the
number of digits an integer is converted with. And a text read from JSON may
hold half of a surrogate pair, which cannot be encoded again. Both are taken
from the interpreter as it is.

The way back has the same limits. `json.dumps` and `str` recurse into a value
and spell its integers, and `==` of two lists or two objects recurses into
both. Where exactly a value is too deep depends on the stack it is met on, so
that is left to the interpreter as well; texts and comparisons of scalars have
no limit. `Json.dumps`, `Json.toStr` and `Json.pyEq` say what comes out where
no limit is met, and most of the development reads them so.

The limits are fields and not numbers on purpose. A theorem that some code
never raises is then one over every stack depth and every digit
limit, and where it fails the exact condition names the limit that was
met. A theorem that needs none is stated at `boundless`, or over the
total operations directly.
-/

namespace Py

/-- A limit a JSON text or value runs into. -/
inductive Limit
  | recursion
  | digits
  deriving DecidableEq, Repr

/-- `RecursionError`, or the `ValueError` of an integer with too many digits. -/
def Limit.exc : Limit → Exc
  | .recursion => .recursionError
  | .digits => .valueError

/-- The interpreter, as far as JSON texts and values depend on it. The fields are independent of one
another: nothing is assumed of which values are too deep, not even that a part of a value is less
deep than the whole. -/
structure Interpreter where
  /-- The limit `json.loads` runs into on a text. -/
  limit : String → Option Limit
  /-- Has the string at this path of a JSON text a surrogate without its partner? -/
  unpaired : String → List String → Bool
  /-- The limit `json.dumps` runs into on a value. -/
  dumpsLimit : Json → Option Limit
  /-- The limit `str` runs into on a value that is no text. -/
  strLimit : Json → Option Limit
  /-- Is the comparison of two lists or two objects too deep? -/
  eqTooDeep : Json → Json → Bool

/-- What `json.loads` raises: `JSONDecodeError`, or `RecursionError` and `ValueError` for the
limits. -/
inductive LoadsError
  | decode
  | limit (limit : Limit)
  deriving DecidableEq, Repr

/-- `json.loads(s)`. A limit is met before the text is judged, so a text that is too deep raises the
limit's exception even where it is no JSON. -/
def Interpreter.loads (I : Interpreter) (s : String) : Except LoadsError Json :=
  match I.limit s with
  | some l => .error (.limit l)
  | none =>
    match Py.loads s with
    | some value => .ok value
    | none => .error .decode

/-- A text runs into a limit, is read, or is no JSON. -/
theorem Interpreter.loads_cases (I : Interpreter) (s : String) :
    (∃ l, I.limit s = some l ∧ I.loads s = .error (.limit l)) ∨
      I.limit s = none ∧ ((∃ value, Py.loads s = some value ∧ I.loads s = .ok value) ∨
        Py.loads s = none ∧ I.loads s = .error .decode) := by
  unfold Interpreter.loads
  cases I.limit s with
  | some l => exact .inl ⟨l, rfl, rfl⟩
  | none =>
    cases Py.loads s with
    | some value => exact .inr ⟨rfl, .inl ⟨value, rfl, rfl⟩⟩
    | none => exact .inr ⟨rfl, .inr ⟨rfl, rfl⟩⟩

namespace Interpreter

variable (I : Interpreter)

/-- `json.dumps(value, ensure_ascii=False)`. -/
def dumps (value : Json) : Except Exc String :=
  match I.dumpsLimit value with
  | some l => .error l.exc
  | none => .ok value.dumps

/-- `str(value)`: only integers, lists and objects can run into a limit. -/
def str (U : Unicode) (value : Json) : Except Exc String :=
  match value, I.strLimit value with
  | .int _, some l | .arr _, some l | .obj _, some l => .error l.exc
  | _, _ => .ok (value.toStr U)

/-- `a == b`: only two lists or two objects are compared by recursion. -/
def eq (a b : Json) : Except Exc Bool :=
  match a, b, I.eqTooDeep a b with
  | .arr _, .arr _, true | .obj _, .obj _, true => .error .recursionError
  | _, _, _ => .ok (a.pyEq b)

/-- No limits, and no half of a pair. -/
def boundless : Interpreter where
  limit _ := none
  unpaired _ _ := false
  dumpsLimit _ := none
  strLimit _ := none
  eqTooDeep _ _ := false

/-- A value `str` can spell. Texts, booleans, floats and `None` always can. -/
def Spells (value : Json) : Prop :=
  match value with
  | .int _ | .arr _ | .obj _ => I.strLimit value = none
  | _ => True

/-- Two values `==` can compare. Scalars always can, and so can two values of different kinds, which
are unequal without a look inside. -/
def Compares (a b : Json) : Prop :=
  match a, b with
  | .arr _, .arr _ | .obj _, .obj _ => I.eqTooDeep a b = false
  | _, _ => True

variable {I}

theorem str_cases (U : Unicode) (value : Json) :
    I.Spells value ∧ I.str U value = .ok (value.toStr U) ∨
      ¬ I.Spells value ∧ ∃ e, I.str U value = .error e := by
  cases value with
  | int _ | arr _ | obj _ =>
    simp only [Spells, str]
    cases I.strLimit _ with
    | none => exact .inl ⟨rfl, rfl⟩
    | some l => exact .inr ⟨nofun, _, rfl⟩
  | _ => exact .inl ⟨trivial, rfl⟩

theorem eq_cases (a b : Json) :
    I.Compares a b ∧ I.eq a b = .ok (a.pyEq b) ∨
      ¬ I.Compares a b ∧ ∃ e, I.eq a b = .error e := by
  unfold Compares eq
  cases hdeep : I.eqTooDeep a b with
  | false => exact .inl ⟨by split <;> trivial, by cases a <;> cases b <;> rfl⟩
  | true =>
    cases a with
    | arr as =>
      cases b with
      | arr bs => exact .inr ⟨nofun, _, rfl⟩
      | _ => exact .inl ⟨trivial, rfl⟩
    | obj as =>
      cases b with
      | obj bs => exact .inr ⟨nofun, _, rfl⟩
      | _ => exact .inl ⟨trivial, rfl⟩
    | _ => exact .inl ⟨by cases b <;> trivial, by cases b <;> rfl⟩

end Interpreter

end Py
