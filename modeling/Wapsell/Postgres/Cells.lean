import Mathlib.Data.List.Perm.Subperm
import Mathlib.Data.List.Forall2
import Wapsell.Postgres.Jsonb
import Wapsell.Py.Isoformat
import Wapsell.Py.JsonRoundTrip

/-!
# Cells

What a column holds, what a placeholder of a statement makes of its
parameter, and what the driver may answer for a cell: psycopg decodes
timestamps and JSONB, another driver hands over their texts. A driver is
any function that answers each cell with the value or a text of it.

Two conversions lose something by design. A JSONB column forgets the
order of an object's keys and may write a number otherwise, which `==`
does not see; and it takes no NaN and no infinity, which `json.dumps`
writes. `comesBack` is the first as a relation, `isStandard` the second
as a condition.
-/

namespace Wapsell.Postgres

open Lib Py

/-- The value of a column; as a parameter or an answer, the Python value it stands for.

The same type serves a stored value, a parameter and an answer, so that a parameter can be compared
with what is read back. -/
inductive Cell
  | null
  | text (s : String)
  | bool (b : Bool)
  | int (n : Int)
  | timestamp (t : Datetime)
  | json (v : Json)

/-- A text, or NULL for `None`. -/
def Cell.ofText : Option String → Cell
  | none => .null
  | some s => .text s

/-- A timestamp, or NULL for `None`. -/
def Cell.ofTime : Option Datetime → Cell
  | none => .null
  | some t => .timestamp t

/-- A boolean, or NULL for `None`. -/
def Cell.ofBool : Option Bool → Cell
  | none => .null
  | some b => .bool b

/-- An integer, or NULL for `None`. -/
def Cell.ofInt : Option Int → Cell
  | none => .null
  | some n => .int n

/-- The types of the columns.

No column is NOT NULL here; what a NOT NULL refuses is among the other constraints. -/
inductive ColumnType
  | text
  | boolean
  | integer
  | timestamptz
  | jsonb
  deriving DecidableEq, Repr

/-- A value of the type, or NULL. -/
def ColumnType.holds : ColumnType → Cell → Bool
  | _, .null => true
  | .text, .text _ => true
  | .boolean, .bool _ => true
  | .integer, .int _ => true
  | .timestamptz, .timestamp _ => true
  | .jsonb, .json _ => true
  | _, _ => false

/-- A value or NULL has the type of its column. -/
@[simp] theorem ColumnType.holds_text (s : String) : ColumnType.text.holds (.text s) = true := rfl

@[simp] theorem ColumnType.holds_timestamp (t : Datetime) :
    ColumnType.timestamptz.holds (.timestamp t) = true := rfl

@[simp] theorem ColumnType.holds_json (v : Json) : ColumnType.jsonb.holds (.json v) = true := rfl

@[simp] theorem ColumnType.holds_ofText (s : Option String) :
    ColumnType.text.holds (.ofText s) = true := by
  cases s <;> rfl

@[simp] theorem ColumnType.holds_ofTime (t : Option Datetime) :
    ColumnType.timestamptz.holds (.ofTime t) = true := by
  cases t <;> rfl

@[simp] theorem ColumnType.holds_ofBool (b : Option Bool) :
    ColumnType.boolean.holds (.ofBool b) = true := by
  cases b <;> rfl

@[simp] theorem ColumnType.holds_ofInt (n : Option Int) :
    ColumnType.integer.holds (.ofInt n) = true := by
  cases n <;> rfl

/-! ## Parameters -/

/-- A placeholder: `%s` or `%s::jsonb`.

A plain placeholder stores the parameter as it is. Whether its type fits the column is asked when
the row is stored. -/
inductive Slot
  | plain
  | jsonb
  deriving DecidableEq, Repr

/-- `s::jsonb`: a JSON text without NaN and infinities, of a key that stands twice the last value;
the order of the keys is not kept. -/
def toJsonb (s : String) : Option Json := (loads s).filter isStandard

/-- What the placeholder makes of its parameter, `none` when the statement raises. -/
def Slot.cast : Slot → Cell → Option Cell
  | .plain, cell => some cell
  | .jsonb, .null => some .null
  | .jsonb, .text s => (toJsonb s).map .json
  | .jsonb, _ => none

/-- The parameters of a statement, as many as it has placeholders.

Too many parameters or too few make the statement fail, so a list that misses one is noticed at
once. -/
def castAll : List Slot → List Cell → Option (List Cell)
  | [], [] => some []
  | slot :: slots, cell :: cells => do
    let value ← slot.cast cell
    let values ← castAll slots cells
    some (value :: values)
  | _, _ => none

theorem castAll_plain (slots : List Slot) (cell : Cell) (cells : List Cell) :
    castAll (.plain :: slots) (cell :: cells) = (castAll slots cells).map (cell :: ·) := by
  rw [castAll, Slot.cast]
  cases castAll slots cells <;> rfl

theorem castAll_jsonb {slots : List Slot} {cell value : Cell} {cells : List Cell}
    (h : Slot.jsonb.cast cell = some value) :
    castAll (.jsonb :: slots) (cell :: cells) = (castAll slots cells).map (value :: ·) := by
  rw [castAll, h]
  cases castAll slots cells <;> rfl

theorem castAll_refused {slots : List Slot} {cell : Cell} {cells : List Cell}
    (h : Slot.jsonb.cast cell = none) : castAll (.jsonb :: slots) (cell :: cells) = none := by
  rw [castAll, h]
  rfl

/-- The cast takes a dump for its value. -/
theorem cast_dump {v : Json} {text : String} (h : loads text = some v) {cell : Cell}
    (hcast : Slot.jsonb.cast (.text text) = some cell) : cell = .json v := by
  rw [Slot.cast, toJsonb, h, Option.filter_some] at hcast
  split at hcast
  next => exact (Option.some.inj hcast).symm
  next => cases hcast

/-! ## JSONB -/

mutual

/-- `b` is what the column answers for `a`: of objects the keys come in any order, a float as any
number of its value. -/
def comesBack : Json → Json → Bool
  | .null, .null => true
  | .bool a, .bool b => a == b
  | .int a, .int b => a == b
  | .float a, .float b => a == b || (Json.floatValue a).eq (Json.floatValue b)
  | .float a, .int n => (Json.floatValue a).eq (.finite n)
  | .str a, .str b => a == b
  | .arr as, .arr bs => comesBackItems as bs
  | .obj as, .obj bs => as.length == bs.length && comesBackFields as bs
  | _, _ => false

def comesBackItems : List Json → List Json → Bool
  | [], [] => true
  | a :: as, b :: bs => comesBack a b && comesBackItems as bs
  | _, _ => false

/-- Every entry of the first is in the second. -/
def comesBackFields : List (String × Json) → List (String × Json) → Bool
  | [], _ => true
  | (key, a) :: as, bs =>
    (match Json.field key bs with
      | some b => comesBack a b
      | none => false) && comesBackFields as bs

end

/-- An array comes back item by item. -/
example (a b : Json) : comesBack (.arr [a]) (.arr [b]) = comesBack a b := by
  simp [comesBack, comesBackItems]

mutual

/-- No NaN among the floats. -/
def nanFree : Json → Bool
  | .float text => decide (text ≠ "nan")
  | .arr items => nanFreeItems items
  | .obj fields => nanFreeFields fields
  | _ => true

def nanFreeItems : List Json → Bool
  | [] => true
  | item :: items => nanFree item && nanFreeItems items

def nanFreeFields : List (String × Json) → Bool
  | [] => true
  | (_, value) :: fields => nanFree value && nanFreeFields fields

end

/-! ## The driver -/

/-- What a driver may answer for a cell: the value itself, or its text.

The text of a timestamp is any that `fromisoformat` reads as it, and the text of a document any that
`json.loads` reads as what comes back. -/
inductive Fetched : Cell → Cell → Prop
  | same (cell : Cell) : Fetched cell cell
  | isoText {t : Datetime} {s : String} (h : Datetime.fromisoformat s = some t) :
    Fetched (.timestamp t) (.text s)
  | decoded {stored answer : Json} (h : comesBack stored answer = true) :
    Fetched (.json stored) (.json answer)
  | jsonText {stored answer : Json} {s : String} (hs : loads s = some answer)
    (h : comesBack stored answer = true) : Fetched (.json stored) (.text s)

/-- How a cursor answers a row. Every cell is answered by its value or by a text of it, one by one,
so a theorem over all drivers covers every mixture of the two. -/
structure Driver where
  fetch : List Cell → List Cell
  answers : ∀ row, List.Forall₂ Fetched row (fetch row)

/-! ## Reading a cell -/

/-- `row[i]`.

An index past the row reads NULL here. The codecs prove that their rows are as long as they read, so
it does not come up. -/
def cellAt (row : List Cell) (i : Nat) : Cell := row.getD i .null

theorem answers_at : ∀ {cells row : List Cell}, List.Forall₂ Fetched cells row → ∀ i,
    Fetched (cellAt cells i) (cellAt row i)
  | _, _, .nil, _ => .same .null
  | _, _, .cons h _, 0 => h
  | _, _, .cons _ h, i + 1 => answers_at h i

/-- What a query for one entity returns: nothing, or its first row decoded. -/
def firstRow {α β : Type} (decode : α → Except Exc β) : List α → Except Exc (Option β)
  | [] => .ok none
  | row :: _ => (decode row).map some

/-- A `str` field. -/
def Cell.asText : Cell → Except Exc String
  | .text s => .ok s
  | _ => .error .valueError

/-- A `str | None` field. -/
def Cell.asOptText : Cell → Except Exc (Option String)
  | .null => .ok none
  | .text s => .ok (some s)
  | _ => .error .valueError

/-- A member of an enumeration, by its value. -/
def Cell.asMember {α : Type} (ofValue : String → Option α) : Cell → Except Exc α
  | .text s =>
    match ofValue s with
    | some a => .ok a
    | none => .error .valueError
  | _ => .error .valueError

/-- A `datetime` field, by `fromisoformat` from a text. -/
def Cell.asTime : Cell → Except Exc Datetime
  | .timestamp t => .ok t
  | .text s =>
    match Datetime.fromisoformat s with
    | some t => .ok t
    | none => .error .valueError
  | _ => .error .valueError

/-- A `datetime | None` field. -/
def Cell.asOptTime : Cell → Except Exc (Option Datetime)
  | .null => .ok none
  | cell => cell.asTime.map some

/-- A `bool | None` field. -/
def Cell.asOptBool : Cell → Except Exc (Option Bool)
  | .null => .ok none
  | .bool b => .ok (some b)
  | _ => .error .valueError

/-- An `int | None` field. -/
def Cell.asOptInt : Cell → Except Exc (Option Int)
  | .null => .ok none
  | .int n => .ok (some n)
  | _ => .error .valueError

/-- The JSON value of a cell, by `json.loads` from a text; `None` of NULL. -/
def Cell.asJson : Cell → Except Exc Json
  | .null => .ok .null
  | .json v => .ok v
  | .text s =>
    match loads s with
    | some v => .ok v
    | none => .error .valueError
  | _ => .error .valueError

theorem nodup_members (fields : List (String × Json)) : ((members fields).map Prod.fst).Nodup := by
  have hfold : ∀ (rest acc : List (String × Json)), (acc.map Prod.fst).Nodup →
      ((rest.foldl (fun fields p => Dict.assign p.1 p.2 fields) acc).map Prod.fst).Nodup := by
    intro rest
    induction rest with
    | nil =>
      intro acc hacc
      exact hacc
    | cons p rest ih =>
      intro acc hacc
      exact ih _ (Dict.nodup_assign hacc)
  exact hfold fields [] List.nodup_nil

/-- `value or {}` in a `dict` field.

NULL, an empty object and whatever else is falsy give the empty dictionary; a list or a text is
refused by pydantic. -/
def dictOr (value : Json) : Except Exc (Dict String Json) :=
  if value.truthy then
    match value with
    | .obj fields => .ok ⟨members fields, nodup_members fields⟩
    | _ => .error .valueError
  else .ok Dict.empty

/-! ## What comes back is what was stored -/

section Scalars

variable {cell : Cell}

theorem Fetched.asText {s : String} (h : Fetched (.text s) cell) : cell.asText = .ok s := by
  cases h
  rfl

theorem Fetched.asOptText {s : Option String} (h : Fetched (.ofText s) cell) :
    cell.asOptText = .ok s := by
  cases s with
  | none =>
    cases h
    rfl
  | some s =>
    cases h
    rfl

theorem Fetched.asMember {α : Type} {ofValue : String → Option α} {s : String} {a : α}
    (h : Fetched (.text s) cell) (ha : ofValue s = some a) : cell.asMember ofValue = .ok a := by
  cases h
  rw [Cell.asMember, ha]

theorem Fetched.asTime {t : Datetime} (h : Fetched (.timestamp t) cell) : cell.asTime = .ok t := by
  cases h with
  | same => rfl
  | isoText h => rw [Cell.asTime, h]

theorem Fetched.asOptTime {t : Option Datetime} (h : Fetched (.ofTime t) cell) :
    cell.asOptTime = .ok t := by
  cases t with
  | none =>
    cases h
    rfl
  | some t =>
    have htime := h.asTime
    cases h with
    | same => rfl
    | isoText h =>
      show (Cell.asTime _).map some = _
      rw [htime]
      rfl

theorem Fetched.asOptBool {b : Option Bool} (h : Fetched (.ofBool b) cell) :
    cell.asOptBool = .ok b := by
  cases b with
  | none =>
    cases h
    rfl
  | some b =>
    cases h
    rfl

theorem Fetched.asOptInt {n : Option Int} (h : Fetched (.ofInt n) cell) :
    cell.asOptInt = .ok n := by
  cases n with
  | none =>
    cases h
    rfl
  | some n =>
    cases h
    rfl

/-- A text column that reads as a text holds it. -/
theorem Fetched.text_of_asText {stored : Cell} {s : String} (h : Fetched stored cell)
    (htype : ColumnType.text.holds stored = true) (hs : cell.asText = .ok s) : stored = .text s := by
  cases stored with
  | text s' =>
    rw [h.asText] at hs
    rw [Except.ok.inj hs]
  | null =>
    cases h
    cases hs
  | _ => cases htype

/-- A text column that reads as a text or `None` holds it. -/
theorem Fetched.ofText_of_asOptText {stored : Cell} {s : Option String} (h : Fetched stored cell)
    (htype : ColumnType.text.holds stored = true) (hs : cell.asOptText = .ok s) :
    stored = .ofText s := by
  cases stored with
  | text s' =>
    rw [Fetched.asOptText (s := some s') h] at hs
    rw [← Except.ok.inj hs]
    rfl
  | null =>
    cases h
    cases hs
    rfl
  | _ => cases htype

/-- A timestamp column that reads as a time holds it. -/
theorem Fetched.timestamp_of_asTime {stored : Cell} {t : Datetime} (h : Fetched stored cell)
    (htype : ColumnType.timestamptz.holds stored = true) (ht : cell.asTime = .ok t) :
    stored = .timestamp t := by
  cases stored with
  | timestamp t' =>
    rw [h.asTime] at ht
    rw [Except.ok.inj ht]
  | null =>
    cases h
    cases ht
  | _ => cases htype

end Scalars

section Documents

theorem comesBack_str {s : String} {v : Json} (h : comesBack (.str s) v = true) : v = .str s := by
  cases v with
  | str s' =>
    rw [comesBack, beq_iff_eq] at h
    rw [h]
  | _ => cases h

theorem comesBack_bool {b : Bool} {v : Json} (h : comesBack (.bool b) v = true) : v = .bool b := by
  cases v with
  | bool b' =>
    rw [comesBack, beq_iff_eq] at h
    rw [h]
  | _ => cases h

theorem comesBack_int {n : Int} {v : Json} (h : comesBack (.int n) v = true) : v = .int n := by
  cases v with
  | int n' =>
    rw [comesBack, beq_iff_eq] at h
    rw [h]
  | _ => cases h

theorem comesBack_null {v : Json} (h : comesBack .null v = true) : v = .null := by
  cases v with
  | null => rfl
  | _ => cases h

/-- A list of texts comes back as it is. -/
theorem comesBack_texts {texts : List String} {v : Json}
    (h : comesBack (.arr (texts.map .str)) v = true) : v = .arr (texts.map .str) := by
  cases v with
  | arr items =>
    rw [comesBack] at h
    have hitems : ∀ (texts : List String) (items : List Json),
        comesBackItems (texts.map .str) items = true → items = texts.map .str := by
      intro texts
      induction texts with
      | nil =>
        intro items h
        cases items with
        | nil => rfl
        | cons item items => cases h
      | cons s texts ih =>
        intro items h
        cases items with
        | nil => cases h
        | cons item items =>
          rw [List.map_cons, comesBackItems, Bool.and_eq_true] at h
          rw [List.map_cons, comesBack_str h.1, ih items h.2]
    rw [hitems texts items h]
  | _ => cases h

theorem comesBackFields_iff {as bs : List (String × Json)} :
    comesBackFields as bs = true ↔
      ∀ p ∈ as, ∃ b, Json.field p.1 bs = some b ∧ comesBack p.2 b = true := by
  induction as with
  | nil => simp [comesBackFields]
  | cons p as ih =>
    rw [comesBackFields, Bool.and_eq_true, ih, List.forall_mem_cons]
    apply and_congr_left'
    cases Json.field p.1 bs with
    | none => simp
    | some b => simp

/-- An object comes back as an object with its keys. -/
theorem comesBack_obj {as : List (String × Json)} {v : Json} (h : comesBack (.obj as) v = true) :
    ∃ bs, v = .obj bs ∧ as.length = bs.length ∧
      ∀ p ∈ as, ∃ b, Json.field p.1 bs = some b ∧ comesBack p.2 b = true := by
  cases v with
  | obj bs =>
    rw [comesBack, Bool.and_eq_true, beq_iff_eq, comesBackFields_iff] at h
    exact ⟨bs, rfl, h⟩
  | _ => cases h

/-- As many keys as before and the same ones: none comes twice. -/
theorem nodup_of_comesBack {as bs : List (String × Json)} (hnodup : (as.map Prod.fst).Nodup)
    (hlen : as.length = bs.length)
    (h : ∀ p ∈ as, ∃ b, Json.field p.1 bs = some b ∧ comesBack p.2 b = true) :
    (bs.map Prod.fst).Nodup := by
  have hsub : as.map Prod.fst ⊆ bs.map Prod.fst := by
    intro key hkey
    obtain ⟨p, hp, rfl⟩ := List.mem_map.mp hkey
    obtain ⟨b, hb, -⟩ := h p hp
    by_contra hnot
    rw [field_eq_find, Dict.find_eq_none_of_not_mem hnot] at hb
    cases hb
  have hperm : (as.map Prod.fst).Perm (bs.map Prod.fst) :=
    (List.subperm_of_subset hnodup hsub).perm_of_length_le (by
      rw [List.length_map, List.length_map, hlen])
  exact hperm.nodup_iff.mp hnodup

mutual

theorem comesBack_refl : ∀ v : Json, v.wellFormed = true → comesBack v v = true
  | .null, _ => rfl
  | .bool _, _ => by rw [comesBack, beq_self_eq_true]
  | .int _, _ => by rw [comesBack, beq_self_eq_true]
  | .float _, _ => by rw [comesBack, beq_self_eq_true, Bool.true_or]
  | .str _, _ => by rw [comesBack, beq_self_eq_true]
  | .arr items, h => by
    rw [Json.wellFormed] at h
    rw [comesBack]
    exact comesBackItems_refl items h
  | .obj fields, h => by
    rw [Json.wellFormed, Bool.and_eq_true, decide_eq_true_eq] at h
    rw [comesBack, Bool.and_eq_true, beq_self_eq_true, comesBackFields_iff]
    refine ⟨rfl, fun p hp => ⟨p.2, ?_, comesBackFields_refl fields h.2 p hp⟩⟩
    rw [field_eq_find]
    exact (Dict.find_eq_some_iff h.1).mpr hp

theorem comesBackItems_refl : ∀ items : List Json, Json.wellFormedItems items = true →
    comesBackItems items items = true
  | [], _ => rfl
  | item :: items, h => by
    rw [Json.wellFormedItems, Bool.and_eq_true] at h
    rw [comesBackItems, comesBack_refl item h.1, comesBackItems_refl items h.2]
    rfl

theorem comesBackFields_refl : ∀ fields : List (String × Json),
    Json.wellFormedFields fields = true → ∀ p ∈ fields, comesBack p.2 p.2 = true
  | [], _, _, hp => by cases hp
  | (_, value) :: fields, h, p, hp => by
    rw [Json.wellFormedFields, Bool.and_eq_true] at h
    rcases List.mem_cons.mp hp with rfl | hp
    · exact comesBack_refl value h.1
    · exact comesBackFields_refl fields h.2 p hp

end

/-- Only a NaN differs from itself, and `repr` has one text for it. -/
theorem floatValue_eq_self {text : String} (h : (Json.float text).wellFormed = true)
    (hnan : text ≠ "nan") :
    (Json.floatValue text).eq (Json.floatValue text) = true := by
  have hnum : Json.floatValue text ≠ .nan := by
    intro hvalue
    rw [Json.wellFormed, Bool.or_eq_true, decide_eq_true_eq] at h
    rcases h with h | h
    · unfold isFloatText at h
      split at h
      next n hscan =>
        obtain ⟨-, hrepr⟩ := of_decide_eq_true h
        rw [hvalue] at hrepr
        rw [← hrepr] at hscan
        cases hn : n.negative with
        | false =>
          rw [hn] at hscan
          cases hscan
        | true =>
          rw [hn] at hscan
          cases hscan
      next => cases h
    · simp only [List.mem_cons, List.not_mem_nil, or_false] at h
      rcases h with rfl | rfl | rfl
      · exact hnan rfl
      · exact absurd hvalue (by decide +kernel)
      · exact absurd hvalue (by decide +kernel)
  cases hvalue : Json.floatValue text with
  | nan => exact absurd hvalue hnum
  | inf negative => rw [Double.eq, beq_self_eq_true]
  | finite q => rw [Double.eq, decide_eq_true rfl]

mutual

/-- What comes back equals what was stored, by `==`. -/
theorem pyEq_of_comesBack : ∀ a : Json, a.wellFormed = true → nanFree a = true →
    ∀ {b : Json}, comesBack a b = true → a.pyEq b = true
  | .null, _, _, b, h => by
    rw [comesBack_null h]
    rfl
  | .bool x, _, _, b, h => by
    rw [comesBack_bool h]
    cases x <;> rfl
  | .int n, _, _, b, h => by
    rw [comesBack_int h]
    exact decide_eq_true rfl
  | .float text, hwf, hnan, b, h => by
    have hself := floatValue_eq_self hwf (of_decide_eq_true hnan)
    cases b with
    | float text' =>
      rw [comesBack, Bool.or_eq_true, beq_iff_eq] at h
      rcases h with rfl | h
      · exact hself
      · exact h
    | int n =>
      rw [comesBack] at h
      exact h
    | _ => cases h
  | .str s, _, _, b, h => by
    rw [comesBack_str h, Json.pyEq, beq_self_eq_true]
  | .arr items, hwf, hnan, b, h => by
    cases b with
    | arr items' =>
      rw [comesBack] at h
      rw [Json.wellFormed] at hwf
      rw [nanFree] at hnan
      rw [Json.pyEq]
      exact pyEqItems_of_comesBack items hwf hnan h
    | _ => cases h
  | .obj fields, hwf, hnan, b, h => by
    cases b with
    | obj fields' =>
      rw [comesBack, Bool.and_eq_true] at h
      rw [Json.wellFormed, Bool.and_eq_true] at hwf
      rw [nanFree] at hnan
      rw [Json.pyEq, h.1, pyEqFields_of_comesBack fields hwf.2 hnan h.2]
      rfl
    | _ => cases h

theorem pyEqItems_of_comesBack : ∀ items : List Json, Json.wellFormedItems items = true →
    nanFreeItems items = true → ∀ {items' : List Json}, comesBackItems items items' = true →
    Json.pyEqItems items items' = true
  | [], _, _, items', h => by
    cases items' with
    | nil => rfl
    | cons => cases h
  | item :: items, hwf, hnan, items', h => by
    cases items' with
    | nil => cases h
    | cons item' items' =>
      rw [Json.wellFormedItems, Bool.and_eq_true] at hwf
      rw [nanFreeItems, Bool.and_eq_true] at hnan
      rw [comesBackItems, Bool.and_eq_true] at h
      rw [Json.pyEqItems, pyEq_of_comesBack item hwf.1 hnan.1 h.1,
        pyEqItems_of_comesBack items hwf.2 hnan.2 h.2]
      rfl

theorem pyEqFields_of_comesBack : ∀ fields : List (String × Json),
    Json.wellFormedFields fields = true → nanFreeFields fields = true →
    ∀ {fields' : List (String × Json)}, comesBackFields fields fields' = true →
    Json.pyEqFields fields fields' = true
  | [], _, _, _, _ => rfl
  | (key, value) :: fields, hwf, hnan, fields', h => by
    rw [Json.wellFormedFields, Bool.and_eq_true] at hwf
    rw [nanFreeFields, Bool.and_eq_true] at hnan
    rw [comesBackFields, Bool.and_eq_true] at h
    rw [Json.pyEqFields, pyEqFields_of_comesBack fields hwf.2 hnan.2 h.2, Bool.and_true]
    cases hfield : Json.field key fields' with
    | none =>
      rw [hfield] at h
      cases h.1
    | some value' =>
      rw [hfield] at h
      exact pyEq_of_comesBack value hwf.1 hnan.1 h.1

end

/-- A stored document, decoded or read from its text. -/
theorem Fetched.asJson {v : Json} {cell : Cell} (hwf : v.wellFormed = true)
    (h : Fetched (.json v) cell) : ∃ v', cell.asJson = .ok v' ∧ comesBack v v' = true := by
  cases h with
  | same => exact ⟨v, rfl, comesBack_refl v hwf⟩
  | decoded h => exact ⟨_, rfl, h⟩
  | jsonText hs h =>
    refine ⟨_, ?_, h⟩
    rw [Cell.asJson, hs]

/-- `value or {}` is the dictionary that came back. -/
theorem dictOr_of_comesBack {d : Dict String Json} {v : Json}
    (h : comesBack (.obj d.entries) v = true) :
    ∃ d', dictOr v = .ok d' ∧ comesBack (.obj d.entries) (.obj d'.entries) = true := by
  obtain ⟨fields, rfl, hlen, hfields⟩ := comesBack_obj h
  have hnodup := nodup_of_comesBack d.nodup hlen hfields
  cases fields with
  | nil => exact ⟨Dict.empty, rfl, h⟩
  | cons p fields =>
    refine ⟨⟨members (p :: fields), nodup_members _⟩, rfl, ?_⟩
    show comesBack _ (.obj (members (p :: fields))) = true
    rw [members_eq hnodup]
    exact h

end Documents

end Wapsell.Postgres
