import Wapsell.Py.Number

/-!
# JSON values

What `json.loads` answers and what a JSONB column holds: the values the
code walks without a schema. An object keeps its keys in order; a float is
kept as the text `repr` writes for it, which is what every rendering below
prints, and denotes the double that text denotes.

A float is a text here because two things are done with floats, printing
and comparing, and only the second needs the number. Keeping the text
that `repr` writes makes printing exact without an assumption on how a
double is spelled; `floatValue` gives the number back.

The operations are total: `dumps`, `toStr` and `pyEq` say what comes out
of a value of any depth and of integers of any size. Where the
interpreter gives up is the matter of `Py.Interpreter`, which wraps
them.
-/

namespace Py

/-- A JSON value. The fields of an object are a list and not a dictionary, because a JSON text may
write a key twice; what `json.loads` answers has each key once. -/
inductive Json
  | null
  | bool (b : Bool)
  | int (n : Int)
  | float (text : String)
  | str (s : String)
  | arr (items : List Json)
  | obj (fields : List (String × Json))

namespace Json

/-- The double a `float` denotes.

A text that is no float has no meaning here and is read as NaN, which equals nothing. -/
def floatValue (text : String) : Double :=
  (parseFloat Unicode.ascii text).getD .nan

/-- `True` in a condition: empty texts, lists and objects, zero, `False` and `None` are not.

A NaN is true, since it equals no zero. -/
def truthy : Json → Bool
  | .null => false
  | .bool b => b
  | .int n => n ≠ 0
  | .float text => !(floatValue text).eq (.finite 0)
  | .str s => s ≠ ""
  | .arr items => !items.isEmpty
  | .obj fields => !fields.isEmpty

/-- The value of a key of an object, as a list of fields.

Of a key that stands twice the first is found; a dictionary has none that does. -/
def field (key : String) (fields : List (String × Json)) : Option Json :=
  (fields.find? fun f => f.1 == key).map Prod.snd

/-- `value.get(key, default)`: only a `dict` has a `get`. -/
def get (value : Json) (key : String) (default : Json) : Except Exc Json :=
  match value with
  | .obj fields => .ok ((field key fields).getD default)
  | _ => .error .attributeError

/-- The value of a key, `default` where there is none: what `get` answers on a dictionary.

On a value that is no dictionary it answers the default as well, so the two agree only where `get`
does not raise. -/
def lookup (value : Json) (key : String) (default : Json) : Json :=
  match value with
  | .obj fields => (field key fields).getD default
  | _ => default

/-- The items of a list.

A value that is no list has none. Where the source would raise, the caller has looked at the kind
before. -/
def items : Json → List Json
  | .arr items => items
  | _ => []

def isObj : Json → Bool
  | .obj _ => true
  | _ => false

def isArr : Json → Bool
  | .arr _ => true
  | _ => false

/-- `for x in value`: a list gives its items, a dictionary its keys, a string its characters. Any
other value raises, which is where a loop over a field of a payload can fail. -/
def iter : Json → Except Exc (List Json)
  | .arr items => .ok items
  | .obj fields => .ok (fields.map fun f => .str f.1)
  | .str s => .ok (s.toList.map fun c => .str (String.singleton c))
  | _ => .error .typeError

mutual

/-- `repr(value)`. -/
def repr (U : Unicode) : Json → String
  | .null => "None"
  | .bool true => "True"
  | .bool false => "False"
  | .int n => toString n
  | .float text => text
  | .str s => reprStr U s
  | .arr items => "[" ++ join ", " (reprItems U items) ++ "]"
  | .obj fields => "\x7b" ++ join ", " (reprFields U fields) ++ "\x7d"

/-- The items of a list, each by `repr`. -/
def reprItems (U : Unicode) : List Json → List String
  | [] => []
  | item :: items => repr U item :: reprItems U items

/-- The entries of a dictionary, each as `key: value`. -/
def reprFields (U : Unicode) : List (String × Json) → List String
  | [] => []
  | (key, value) :: fields => (reprStr U key ++ ": " ++ repr U value) :: reprFields U fields

end

/-- `str(value)`. -/
def toStr (U : Unicode) : Json → String
  | .str s => s
  | value => repr U value

/-- One character inside a JSON string, with `ensure_ascii=False`. -/
def dumpChar (c : Char) : List Char :=
  if c = '"' ∨ c = '\\' then ['\\', c]
  else if c = '\n' then ['\\', 'n']
  else if c = '\r' then ['\\', 'r']
  else if c = '\t' then ['\\', 't']
  else if c.toNat = 8 then ['\\', 'b']
  else if c.toNat = 12 then ['\\', 'f']
  else if c.toNat < 32 then '\\' :: 'u' :: hex 4 c.toNat
  else [c]

/-- A string in JSON.

Characters outside ASCII are written as they are, and so is the slash. -/
def dumpStr (s : String) : String :=
  String.ofList ('"' :: s.toList.flatMap dumpChar ++ ['"'])

/-- A float in JSON: `repr`, but for the three values JSON has no number for. -/
def dumpFloat (text : String) : String :=
  if text = "nan" then "NaN"
  else if text = "inf" then "Infinity"
  else if text = "-inf" then "-Infinity"
  else text

mutual

/-- `json.dumps(value, ensure_ascii=False)`. -/
def dumps : Json → String
  | .null => "null"
  | .bool true => "true"
  | .bool false => "false"
  | .int n => toString n
  | .float text => dumpFloat text
  | .str s => dumpStr s
  | .arr items => "[" ++ join ", " (dumpItems items) ++ "]"
  | .obj fields => "\x7b" ++ join ", " (dumpFields fields) ++ "\x7d"

/-- The items of an array. -/
def dumpItems : List Json → List String
  | [] => []
  | item :: items => dumps item :: dumpItems items

/-- The members of an object. -/
def dumpFields : List (String × Json) → List String
  | [] => []
  | (key, value) :: fields => (dumpStr key ++ ": " ++ dumps value) :: dumpFields fields

end

/-- The number a value is compared as: a boolean is 0 or 1.

An integer is taken exactly, however large, because `==` of an integer and a float is exact. -/
def numeric : Json → Option Double
  | .bool b => some (.finite (if b then 1 else 0))
  | .int n => some (.finite n)
  | .float text => some (floatValue text)
  | _ => none

mutual

/-- `a == b`: numbers by value, dictionaries whatever their order. A boolean equals the number it
stands for, so `True == 1` holds of two JSON values of different kinds. -/
def pyEq : Json → Json → Bool
  | .null, .null => true
  | .str a, .str b => a == b
  | .arr as, .arr bs => pyEqItems as bs
  | .obj as, .obj bs => as.length == bs.length && pyEqFields as bs
  | a, b =>
    match a.numeric, b.numeric with
    | some x, some y => x.eq y
    | _, _ => false

/-- Two lists, item by item. -/
def pyEqItems : List Json → List Json → Bool
  | [], [] => true
  | a :: as, b :: bs => pyEq a b && pyEqItems as bs
  | _, _ => false

/-- Every entry of the first is an entry of the second. -/
def pyEqFields : List (String × Json) → List (String × Json) → Bool
  | [], _ => true
  | (key, a) :: as, bs =>
    (match field key bs with
      | some b => pyEq a b
      | none => false) && pyEqFields as bs

end

/-- `float(value)`.

An integer past the largest double raises an `OverflowError`, where a text of the same digits is
read as infinity. -/
def toFloat (U : Unicode) : Json → Except Exc Double
  | .bool b => .ok (.finite (if b then 1 else 0))
  | .int n => floatOfInt n
  | .float text => .ok (floatValue text)
  | .str s =>
    match parseFloat U s with
    | some d => .ok d
    | none => .error .valueError
  | _ => .error .typeError

theorem toFloat_int (U : Unicode) (n : Int) : (Json.int n).toFloat U = floatOfInt n := rfl

theorem toFloat_str (U : Unicode) (s : String) :
    (Json.str s).toFloat U = (parseFloat U s).elim (.error .valueError) .ok := by
  rw [toFloat]
  cases parseFloat U s <;> rfl

/-- `int(value)`. A text is parsed, a float is cut off at the point, and the rest raises. -/
def toInt (U : Unicode) : Json → Except Exc Int
  | .bool b => .ok (if b then 1 else 0)
  | .int n => .ok n
  | .float text => truncDouble (floatValue text)
  | .str s =>
    match parseInt U s with
    | some n => .ok n
    | none => .error .valueError
  | _ => .error .typeError

theorem toInt_int (U : Unicode) (n : Int) : (Json.int n).toInt U = .ok n := rfl

/-- Only a text equals a text. -/
theorem pyEq_str_iff {value : Json} {s : String} : value.pyEq (.str s) = true ↔ value = .str s := by
  cases value <;> simp [pyEq, numeric]

theorem str_pyEq_iff {value : Json} {s : String} :
    (Json.str s).pyEq value = true ↔ value = .str s := by
  cases value with
  | str t => rw [pyEq, beq_iff_eq, Json.str.injEq, eq_comm]
  | _ => simp [pyEq, numeric]

/-- Equal values have equal items. -/
theorem pyEqItems_items {a b : Json} (h : a.pyEq b = true) : pyEqItems a.items b.items = true := by
  cases a <;> cases b <;> simp_all [pyEq, items, pyEqItems, numeric]

theorem get_of_isObj {value : Json} (h : value.isObj = true) (key : String) (default : Json) :
    value.get key default = .ok (value.lookup key default) := by
  cases value with
  | obj fields => rfl
  | _ => cases h

theorem iter_of_isArr {value : Json} (h : value.isArr = true) : value.iter = .ok value.items := by
  cases value with
  | arr items => rfl
  | _ => cases h

end Json

/-! ## Loops that may raise -/

/-- A `for` loop that appends what each item yields. -/
def flatMapM {α β : Type} (f : α → Except Exc (List β)) : List α → Except Exc (List β)
  | [] => .ok []
  | x :: xs => do
    let ys ← f x
    let zs ← flatMapM f xs
    .ok (ys ++ zs)

/-- A `for` loop that returns at the first item with an answer. -/
def firstM {α β : Type} (f : α → Except Exc (Option β)) : List α → Except Exc (Option β)
  | [] => .ok none
  | x :: xs => do
    match ← f x with
    | some y => .ok (some y)
    | none => firstM f xs

/-- A loop none of whose rounds raises is a `flatMap`. -/
theorem flatMapM_ok {α β : Type} {f : α → Except Exc (List β)} {g : α → List β} :
    ∀ {xs : List α}, (∀ x ∈ xs, f x = .ok (g x)) → flatMapM f xs = .ok (xs.flatMap g)
  | [], _ => rfl
  | x :: xs, h => by
    rw [flatMapM, h x List.mem_cons_self,
      flatMapM_ok fun y hy => h y (List.mem_cons_of_mem x hy), List.flatMap_cons]
    rfl

/-- A loop answers exactly when every round does. -/
theorem flatMapM_eq_ok_iff {α β : Type} {f : α → Except Exc (List β)} :
    ∀ {xs : List α}, (∃ ys, flatMapM f xs = .ok ys) ↔ ∀ x ∈ xs, ∃ ys, f x = .ok ys
  | [] => iff_of_true ⟨[], rfl⟩ (by simp)
  | x :: xs => by
    rw [List.forall_mem_cons, ← flatMapM_eq_ok_iff]
    simp only [flatMapM, bind_eq_ok]
    constructor
    · rintro ⟨_, ys, hys, zs, hzs, -⟩
      exact ⟨⟨ys, hys⟩, zs, hzs⟩
    · rintro ⟨⟨ys, hys⟩, zs, hzs⟩
      exact ⟨ys ++ zs, ys, hys, zs, hzs, rfl⟩

/-- Looking through nested lists is looking through each in turn. -/
theorem findSome?_flatMap {α β γ : Type} (f : α → List β) (g : β → Option γ) :
    ∀ xs : List α, (xs.flatMap f).findSome? g = xs.findSome? fun x => (f x).findSome? g
  | [] => rfl
  | x :: xs => by
    rw [List.flatMap_cons, List.findSome?_append, List.findSome?_cons, findSome?_flatMap f g xs]
    cases (f x).findSome? g <;> rfl

theorem firstM_ok {α β : Type} {f : α → Except Exc (Option β)} {g : α → Option β} :
    ∀ {xs : List α}, (∀ x ∈ xs, f x = .ok (g x)) → firstM f xs = .ok (xs.findSome? g)
  | [], _ => rfl
  | x :: xs, h => by
    rw [firstM, h x List.mem_cons_self, List.findSome?_cons]
    cases g x with
    | some y => rfl
    | none => exact firstM_ok fun y hy => h y (List.mem_cons_of_mem x hy)

end Py
