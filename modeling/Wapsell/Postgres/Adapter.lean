import Wapsell.Lib.Columns
import Wapsell.Postgres.Cells

/-!
# Rows by position

An adapter writes an entity as the parameters of an INSERT, in the order of
its column list, and as those of an UPDATE, in the order of its SET clause;
it reads a row by the positions of the column list. What makes the three
agree is a `Codec`: the cells of an entity, which both statements write and
the decoder reads. A table keeps its rows under their ids and in the types
of its columns; every other constraint is a predicate that may refuse.

`GetAfterAdd` and its siblings say that the write goes through and that
`get` finds an equal entity behind it. The first part matters as much as
the second: a statement that sends a parameter to a column of another
type is refused, and a round trip that assumes the write would hold of
it for nothing. So the write is not assumed. What is assumed is that the
other constraints accept the table with the entity in it (`Admits`),
which is said of the entity and not of the statement.
-/

namespace Wapsell.Postgres

open Lib Py

/-- A column list with the types of its columns. -/
abbrev Columns := List (String × ColumnType)

/-- The names, in order. -/
def Columns.names (columns : Columns) : List String := columns.map Prod.fst

/-- A row of a table. -/
abbrev CellRecord := Record String Cell

/-- Every column has its type. -/
def Columns.typed (columns : Columns) (row : CellRecord) : Bool :=
  columns.all fun c => c.2.holds (row c.1)

theorem Columns.holds_of_typed {columns : Columns} {row : CellRecord}
    (h : columns.typed row = true) {c : String} {type : ColumnType} (hc : (c, type) ∈ columns) :
    type.holds (row c) = true :=
  List.all_eq_true.mp h (c, type) hc

section Kept

variable {columns : Columns} {driver : Driver} {row : CellRecord} {c : String} {i : Nat}

/-- A text column that was read as a text holds it. -/
theorem text_kept (htyped : columns.typed row = true) (hc : (c, .text) ∈ columns)
    (hi : cellAt (row.read columns.names) i = row c) {s : String}
    (h : (cellAt (driver.fetch (row.read columns.names)) i).asText = .ok s) : row c = .text s := by
  have hat := answers_at (driver.answers (row.read columns.names)) i
  rw [hi] at hat
  exact hat.text_of_asText (Columns.holds_of_typed htyped hc) h

/-- A text column that was read as a text or `None` holds it. -/
theorem optText_kept (htyped : columns.typed row = true) (hc : (c, .text) ∈ columns)
    (hi : cellAt (row.read columns.names) i = row c) {s : Option String}
    (h : (cellAt (driver.fetch (row.read columns.names)) i).asOptText = .ok s) :
    row c = .ofText s := by
  have hat := answers_at (driver.answers (row.read columns.names)) i
  rw [hi] at hat
  exact hat.ofText_of_asOptText (Columns.holds_of_typed htyped hc) h

/-- A timestamp column that was read as a time holds it. -/
theorem time_kept (htyped : columns.typed row = true) (hc : (c, .timestamptz) ∈ columns)
    (hi : cellAt (row.read columns.names) i = row c) {t : Datetime}
    (h : (cellAt (driver.fetch (row.read columns.names)) i).asTime = .ok t) :
    row c = .timestamp t := by
  have hat := answers_at (driver.answers (row.read columns.names)) i
  rw [hi] at hat
  exact hat.timestamp_of_asTime (Columns.holds_of_typed htyped hc) h

end Kept

/-- The cell is the text. -/
def Cell.isText (s : String) : Cell → Bool
  | .text s' => s' == s
  | _ => false

theorem Cell.isText_iff {s : String} {cell : Cell} : cell.isText s = true ↔ cell = .text s := by
  cases cell with
  | text s' => rw [Cell.isText, beq_iff_eq, Cell.text.injEq]
  | _ => simp [Cell.isText]

/-- A table: each row under its id, and in the types of the columns. Both are fields, so a table
that breaks them cannot be built. -/
structure Relation (columns : Columns) where
  rows : Dict String CellRecord := Dict.empty
  keyed : rows.Forall fun k row => (row "id").isText k = true
  typed : rows.Forall fun _ row => columns.typed row = true

namespace Relation

variable {columns : Columns}

/-- No rows. -/
def empty : Relation columns where
  keyed _ _ h := by cases h
  typed _ _ h := by cases h

/-- What else may refuse a table: NOT NULL, UNIQUE, CHECK and references, and a NUL in a text, which
no column takes. What is refused is left open, so the round trips hold for every schema. -/
abbrev Constraints := Dict String CellRecord → Bool

variable (accepts : Constraints)

/-- A row written under an id, `none` when the database refuses. -/
def put (relation : Relation columns) (k : String) (row : CellRecord) :
    Option (Relation columns) :=
  if h : (row "id").isText k = true ∧ columns.typed row = true then
    if accepts (relation.rows.set k row) then
      some
        { rows := relation.rows.set k row
          keyed := relation.keyed.set h.1
          typed := relation.typed.set h.2 }
    else none
  else none

/-- `INSERT INTO t (names) VALUES (slots)`. -/
def insert (relation : Relation columns) (names : List String) (slots : List Slot)
    (params : List Cell) : Option (Relation columns) := do
  let values ← castAll slots params
  let row := Record.write (fun _ => .null) names values
  match row "id" with
  | .text k => if (relation.rows.get? k).isSome then none else relation.put accepts k row
  | _ => none

/-- `UPDATE t SET sets WHERE id = %s`. -/
def update (relation : Relation columns) (sets : List (String × Slot)) (params : List Cell)
    (id : String) : Option (Relation columns) := do
  let values ← castAll (sets.map Prod.snd) params
  match relation.rows.get? id with
  | none => some relation
  | some stored => relation.put accepts id (stored.write (sets.map Prod.fst) values)

/-- The rows have the same texts in the columns; NULL is the same as nothing. -/
def sameTexts (key : List String) (row row' : CellRecord) : Bool := key.all fun c =>
  match row c with
  | .text s => (row' c).isText s
  | _ => false

/-- `UNIQUE (key)`. -/
def UniqueOn (relation : Relation columns) (key : List String) : Prop :=
  ∀ k k' row row', relation.rows.get? k = some row → relation.rows.get? k' = some row' →
    sameTexts key row row' = true → k = k'

/-- `INSERT ... ON CONFLICT (key) DO UPDATE SET c = EXCLUDED.c` for each of `sets`. -/
def upsert (relation : Relation columns) (names : List String) (slots : List Slot)
    (key sets : List String) (params : List Cell) : Option (Relation columns) := do
  let values ← castAll slots params
  let row := Record.write (fun _ => .null) names values
  match relation.rows.entries.find? fun e => sameTexts key row e.2 with
  | some (k, stored) => relation.put accepts k (stored.write sets (row.read sets))
  | none => relation.insert accepts names slots params

/-- `SELECT names FROM t WHERE id = %s`, fetched. -/
def select (driver : Driver) (relation : Relation columns) (names : List String) (id : String) :
    List (List Cell) :=
  (relation.rows.get? id).toList.map fun row => driver.fetch (row.read names)

variable {accepts}

theorem sameTexts_iff {key : List String} {row row' : CellRecord} :
    sameTexts key row row' = true ↔ ∀ c ∈ key, ∃ s, row c = .text s ∧ row' c = .text s := by
  rw [sameTexts, List.all_eq_true]
  constructor
  · intro h c hc
    have hcell := h c hc
    split at hcell
    next s heq => exact ⟨s, heq, Cell.isText_iff.mp hcell⟩
    next => cases hcell
  · intro h c hc
    obtain ⟨s, hrow, hrow'⟩ := h c hc
    rw [hrow]
    exact Cell.isText_iff.mpr hrow'

/-- A row with its id and its types is taken where nothing else refuses it. -/
theorem exists_put {relation : Relation columns} {k : String} {row : CellRecord}
    (hid : row "id" = .text k) (htyped : columns.typed row = true)
    (haccepts : accepts (relation.rows.set k row) = true) :
    ∃ relation', relation.put accepts k row = some relation' := by
  rw [put, dif_pos ⟨Cell.isText_iff.mpr hid, htyped⟩, if_pos haccepts]
  exact ⟨_, rfl⟩

theorem put_eq_some {relation relation' : Relation columns} {k : String} {row : CellRecord}
    (h : relation.put accepts k row = some relation') :
    relation'.rows = relation.rows.set k row := by
  unfold put at h
  split at h
  · split at h
    · cases h
      rfl
    · cases h
  · cases h

end Relation

/-! ## Adapters -/

/-- What an adapter sends and reads of an entity. -/
structure Adapter (E : Type) where
  /-- The column list, in the types of the migration. -/
  columns : Columns
  /-- The placeholders of the INSERT. -/
  slots : List Slot
  /-- The parameters of the INSERT. -/
  row : E → List Cell
  id : E → String
  /-- The decoder of a fetched row. -/
  ofRow : List Cell → Except Exc E

/-- What its `update` sends. -/
structure Change (E : Type) where
  /-- The SET clause. -/
  sets : List (String × Slot)
  /-- Its parameters. -/
  params : E → List Cell
  /-- The text of the `KeyError` of a missing row, when `update` looks for the row first. -/
  missing : Option (E → String) := none

/-- The columns the SET clause names. -/
def Change.names {E : Type} (U : Change E) : List String := U.sets.map Prod.fst

/-- Why a write raises. -/
inductive Refusal
  | keyError (message : String)
  | database
  deriving DecidableEq, Repr

namespace Adapter

variable {E : Type} (R : Adapter E) (accepts : Relation.Constraints)

/-- `add`. -/
def add (relation : Relation R.columns) (entity : E) : Except Refusal (Relation R.columns) :=
  match relation.insert accepts R.columns.names R.slots (R.row entity) with
  | some relation' => .ok relation'
  | none => .error .database

/-- `get`. -/
def get (driver : Driver) (relation : Relation R.columns) (id : String) : Except Exc (Option E) :=
  match relation.select driver R.columns.names id with
  | [] => .ok none
  | row :: _ => (R.ofRow row).map some

/-- `update`. -/
def update (U : Change E) (relation : Relation R.columns) (entity : E) :
    Except Refusal (Relation R.columns) :=
  let run : Except Refusal (Relation R.columns) :=
    match relation.update accepts U.sets (U.params entity) (R.id entity) with
    | some relation' => .ok relation'
    | none => .error .database
  match U.missing with
  | some message =>
    if (relation.rows.get? (R.id entity)).isNone then .error (.keyError (message entity)) else run
  | none => run

/-- `upsert`. -/
def upsert (key sets : List String) (relation : Relation R.columns) (entity : E) :
    Except Refusal (Relation R.columns) :=
  match relation.upsert accepts R.columns.names R.slots key sets (R.row entity) with
  | some relation' => .ok relation'
  | none => .error .database

/-- The constraints that are not types and ids have nothing against the entity: they accept the table
with it, whatever row holds it. What the statement sends is not mentioned here. -/
def Admits (same : E → E → Prop) (relation : Relation R.columns) (entity : E) : Prop :=
  ∀ row found, R.ofRow (row.read R.columns.names) = .ok found → same entity found →
    accepts (relation.rows.set (R.id entity) row) = true

/-- `get` after `add` returns an equal entity. An `add` that goes through is followed by such a
`get`, and it does go through for a new id when the entity `fits` and nothing else refuses: a
statement with a parameter too few, or one of another column's type, would not. -/
def GetAfterAdd (ok fits : E → Prop) (same : E → E → Prop) : Prop :=
  ∀ (accepts : Relation.Constraints) (driver : Driver) (relation : Relation R.columns) (entity : E),
    ok entity →
    (fits entity → relation.rows.get? (R.id entity) = none →
      R.Admits accepts same relation entity →
      ∃ relation', R.add accepts relation entity = .ok relation') ∧
    ∀ relation', R.add accepts relation entity = .ok relation' →
      ∃ found, R.get driver relation' (R.id entity) = .ok (some found) ∧ same entity found

/-- `get` after `update` of a stored entity returns an entity equal to the one handed over, when that
keeps what the statement does not write; and the `update` goes through when the entity fits and
nothing else refuses. -/
def GetAfterUpdate (U : Change E) (ok fits : E → Prop) (same keeps : E → E → Prop) : Prop :=
  ∀ (accepts : Relation.Constraints) (driver driver' : Driver) (relation : Relation R.columns)
    (stored entity : E), ok entity →
    R.get driver relation (R.id entity) = .ok (some stored) → keeps stored entity →
    (fits entity → R.Admits accepts same relation entity →
      ∃ relation', R.update accepts U relation entity = .ok relation') ∧
    ∀ relation', R.update accepts U relation entity = .ok relation' →
      ∃ found, R.get driver' relation' (R.id entity) = .ok (some found) ∧ same entity found

/-- The same of an `upsert` over the row that has the entity's key. A key with a NULL conflicts with
nothing, and the row's own id then refuses the INSERT, so fitting includes having a whole key. -/
def GetAfterUpsert (key sets : List String) (ok fits : E → Prop) (same keeps : E → E → Prop) :
    Prop :=
  ∀ (accepts : Relation.Constraints) (driver driver' : Driver) (relation : Relation R.columns)
    (stored entity : E), relation.UniqueOn key → ok entity →
    R.get driver relation (R.id entity) = .ok (some stored) → keeps stored entity →
    (fits entity → R.Admits accepts same relation entity →
      ∃ relation', R.upsert accepts key sets relation entity = .ok relation') ∧
    ∀ relation', R.upsert accepts key sets relation entity = .ok relation' →
      ∃ found, R.get driver' relation' (R.id entity) = .ok (some found) ∧ same entity found

variable {R}

theorem get_of_row {driver : Driver} {relation : Relation R.columns} {id : String}
    {row : CellRecord} (hrow : relation.rows.get? id = some row) :
    R.get driver relation id = (R.ofRow (driver.fetch (row.read R.columns.names))).map some := by
  rw [get, Relation.select, hrow]
  rfl

theorem get_of_none {driver : Driver} {relation : Relation R.columns} {id : String}
    (hrow : relation.rows.get? id = none) : R.get driver relation id = .ok none := by
  rw [get, Relation.select, hrow]
  rfl

/-- What was got is a decoded row. -/
theorem row_of_get {driver : Driver} {relation : Relation R.columns} {id : String} {stored : E}
    (h : R.get driver relation id = .ok (some stored)) :
    ∃ row, relation.rows.get? id = some row ∧
      R.ofRow (driver.fetch (row.read R.columns.names)) = .ok stored := by
  cases hrow : relation.rows.get? id with
  | none =>
    rw [get_of_none hrow] at h
    cases h
  | some row =>
    refine ⟨row, rfl, ?_⟩
    rw [get_of_row hrow] at h
    cases hdecode : R.ofRow (driver.fetch (row.read R.columns.names)) with
    | error exc =>
      rw [hdecode] at h
      cases h
    | ok found =>
      rw [hdecode] at h
      cases h
      rfl

/-- An `add` puts one row. -/
theorem rows_of_add {accepts : Relation.Constraints} {relation relation' : Relation R.columns}
    {e : E} (h : R.add accepts relation e = .ok relation') :
    ∃ k row, relation'.rows = relation.rows.set k row := by
  unfold add at h
  split at h
  next inserted heq =>
    cases h
    unfold Relation.insert at heq
    obtain ⟨values, -, hrest⟩ := Option.bind_eq_some_iff.mp heq
    dsimp only at hrest
    split at hrest
    next k hid =>
      split at hrest
      next => cases hrest
      next => exact ⟨k, _, Relation.put_eq_some hrest⟩
    next => cases hrest
  next => cases h

end Adapter

/-- The cells of an entity, which the INSERT writes and the decoder reads. A codec is what has to be
given for each repository; the round trips follow for all of them at once. -/
structure Codec {E : Type} (R : Adapter E) (ok fits : E → Prop) (same : E → E → Prop) where
  cells : E → List Cell
  nodup : R.columns.names.Nodup
  length : ∀ e, R.columns.names.length = (cells e).length
  typed : ∀ e, List.Forall₂ (fun c cell => c.2.holds cell = true) R.columns (cells e)
  insert : ∀ e values, ok e → castAll R.slots (R.row e) = some values → values = cells e
  sent : ∀ e, ok e → fits e → castAll R.slots (R.row e) = some (cells e)
  decode : ∀ e row, ok e → List.Forall₂ Fetched (cells e) row →
    ∃ found, R.ofRow row = .ok found ∧ same e found
  id : ∀ e, Record.write (fun _ => .null) R.columns.names (cells e) "id" = .text (R.id e)
  id_mem : "id" ∈ R.columns.names

namespace Codec

variable {E : Type} {R : Adapter E} {ok fits : E → Prop} {same : E → E → Prop}
  (C : Codec R ok fits same)

/-- The row of an entity. -/
def record (e : E) : CellRecord := Record.write (fun _ => .null) R.columns.names (C.cells e)

theorem read_record (e : E) : (C.record e).read R.columns.names = C.cells e :=
  Record.read_write _ C.nodup (C.length e)

/-- A row that reads like the entity has the types of the columns, and the entity's id. -/
theorem typed_of_read {row : CellRecord} {e : E} (hread : row.read R.columns.names = C.cells e) :
    R.columns.typed row = true ∧ row "id" = .text (R.id e) := by
  have hcells : R.columns.map (fun c => row c.1) = C.cells e := by
    rw [← hread, Record.read, Columns.names, List.map_map]
    rfl
  have htyped := C.typed e
  rw [← hcells, List.forall₂_map_right_iff, List.forall₂_same] at htyped
  refine ⟨List.all_eq_true.mpr htyped, ?_⟩
  have hsame : row.read R.columns.names = (C.record e).read R.columns.names := by
    rw [hread, C.read_record]
  rw [List.map_inj_left.mp hsame "id" C.id_mem]
  exact C.id e

/-- A row that reads like the entity decodes to it. -/
theorem get_eq {driver : Driver} {relation : Relation R.columns} {e : E} (row : CellRecord)
    (hok : ok e) (hrow : relation.rows.get? (R.id e) = some row)
    (hread : row.read R.columns.names = C.cells e) :
    ∃ found, R.get driver relation (R.id e) = .ok (some found) ∧ same e found := by
  have hanswers := driver.answers (row.read R.columns.names)
  rw [hread] at hanswers
  obtain ⟨found, hfound, hsame⟩ := C.decode e _ hok hanswers
  refine ⟨found, ?_, hsame⟩
  rw [Adapter.get_of_row hrow, hread, hfound]
  rfl

include C in
/-- A row that reads like the entity holds it, so the constraints accept it. -/
theorem accepts_of_read {accepts : Relation.Constraints} {relation : Relation R.columns}
    {row : CellRecord} {e : E} (hok : ok e) (hadmits : R.Admits accepts same relation e)
    (hread : row.read R.columns.names = C.cells e) :
    accepts (relation.rows.set (R.id e) row) = true := by
  obtain ⟨found, hfound, hsame⟩ :=
    C.decode e _ hok (List.forall₂_same.mpr fun cell _ => Fetched.same cell)
  exact hadmits row found (by rw [hread, hfound]) hsame

include C in
theorem add_goes_through {accepts : Relation.Constraints} {relation : Relation R.columns} {e : E}
    (hok : ok e) (hfits : fits e) (hnew : relation.rows.get? (R.id e) = none)
    (hadmits : R.Admits accepts same relation e) :
    ∃ relation', R.add accepts relation e = .ok relation' := by
  obtain ⟨htyped, hid⟩ := C.typed_of_read (C.read_record e)
  obtain ⟨relation', hput⟩ :=
    Relation.exists_put hid htyped (C.accepts_of_read hok hadmits (C.read_record e))
  refine ⟨relation', ?_⟩
  have hinsert : relation.insert accepts R.columns.names R.slots (R.row e) = some relation' := by
    unfold Relation.insert
    rw [C.sent e hok hfits, Option.bind_eq_bind, Option.bind_some]
    dsimp only
    rw [C.id e]
    dsimp only
    rw [hnew]
    exact hput
  rw [Adapter.add, hinsert]

include C in
theorem getAfterAdd : R.GetAfterAdd ok fits same := by
  intro accepts driver relation e hok
  refine ⟨C.add_goes_through hok, fun relation' hadd => ?_⟩
  have hinsert : relation.insert accepts R.columns.names R.slots (R.row e) = some relation' := by
    unfold Adapter.add at hadd
    split at hadd
    next heq => rw [heq, Except.ok.inj hadd]
    next => cases hadd
  unfold Relation.insert at hinsert
  obtain ⟨values, hvalues, hrest⟩ := Option.bind_eq_some_iff.mp hinsert
  rw [C.insert e values hok hvalues] at hrest
  dsimp only at hrest
  rw [C.id e] at hrest
  dsimp only at hrest
  split at hrest
  next => cases hrest
  next =>
    apply C.get_eq (C.record e) hok
    · rw [Relation.put_eq_some hrest, Dict.get?_set_self]
      rfl
    · exact C.read_record e

/-- A stored row has the entity's cells in the columns that are not written. -/
def Kept (written : List String) (keeps : E → E → Prop) : Prop :=
  ∀ (driver : Driver) (row : CellRecord) (stored e : E), R.columns.typed row = true →
    R.ofRow (driver.fetch (row.read R.columns.names)) = .ok stored → keeps stored e →
    ∀ c ∈ R.columns.names, c ∉ written → c ≠ "id" → row c = C.record e c

/-- A stored row brought to the entity's cells in the written columns reads like the entity. -/
theorem read_written {written : List String} {keeps : E → E → Prop} (hkept : C.Kept written keeps)
    {driver : Driver} {relation : Relation R.columns} {row : CellRecord} {stored e : E}
    (hrow : relation.rows.get? (R.id e) = some row)
    (hdecoded : R.ofRow (driver.fetch (row.read R.columns.names)) = .ok stored)
    (hkeeps : keeps stored e) :
    (row.write written ((C.record e).read written)).read R.columns.names = C.cells e := by
  have hid : row "id" = .text (R.id e) := Cell.isText_iff.mp (relation.keyed _ _ hrow)
  rw [Record.read_write_read, C.read_record]
  intro c hc hnot
  by_cases hcid : c = "id"
  · rw [hcid, hid]
    exact (C.id e).symm
  · exact hkept driver row stored e (relation.typed _ _ hrow) hdecoded hkeeps c hc hnot hcid

/-- What the SET clause writes is what the entity's row has there. The columns that are not named
keep what they had. -/
structure Covers (U : Change E) (keeps : E → E → Prop) : Prop where
  change : ∀ e values, ok e → castAll (U.sets.map Prod.snd) (U.params e) = some values →
    values = (C.record e).read U.names
  sent : ∀ e, ok e → fits e →
    castAll (U.sets.map Prod.snd) (U.params e) = some ((C.record e).read U.names)
  kept : C.Kept U.names keeps

/-- The row is there, so an `update` that looks for it first goes on to the statement. -/
theorem update_eq_of_row {U : Change E} {accepts : Relation.Constraints}
    {relation : Relation R.columns} {e : E} {row : CellRecord}
    (hrow : relation.rows.get? (R.id e) = some row) :
    R.update accepts U relation e =
      match relation.update accepts U.sets (U.params e) (R.id e) with
      | some relation' => .ok relation'
      | none => .error .database := by
  have hpresent : ¬(relation.rows.get? (R.id e)).isNone = true := by
    rw [hrow]
    exact Bool.false_ne_true
  unfold Adapter.update
  cases U.missing with
  | some message =>
    dsimp only
    rw [if_neg hpresent]
  | none => rfl

/-- The written row has the types of the columns and the entity's id, so the database takes it. -/
theorem update_goes_through {U : Change E} {keeps : E → E → Prop} (hU : C.Covers U keeps)
    {accepts : Relation.Constraints} {relation : Relation R.columns} {e : E} {row : CellRecord}
    (hok : ok e) (hfits : fits e) (hadmits : R.Admits accepts same relation e)
    (hrow : relation.rows.get? (R.id e) = some row)
    (hread : (row.write U.names ((C.record e).read U.names)).read R.columns.names = C.cells e) :
    ∃ relation', R.update accepts U relation e = .ok relation' := by
  obtain ⟨htyped, hid⟩ := C.typed_of_read hread
  obtain ⟨relation', hput⟩ :=
    Relation.exists_put hid htyped (C.accepts_of_read hok hadmits hread)
  refine ⟨relation', ?_⟩
  have hrun : relation.update accepts U.sets (U.params e) (R.id e) = some relation' := by
    unfold Relation.update
    rw [hU.sent e hok hfits, Option.bind_eq_bind, Option.bind_some, hrow]
    exact hput
  rw [update_eq_of_row hrow, hrun]

theorem getAfterUpdate {U : Change E} {keeps : E → E → Prop} (hU : C.Covers U keeps) :
    R.GetAfterUpdate U ok fits same keeps := by
  intro accepts driver driver' relation stored e hok hget hkeeps
  obtain ⟨row, hrow, hdecoded⟩ := Adapter.row_of_get hget
  have hread := C.read_written hU.kept hrow hdecoded hkeeps
  constructor
  · exact fun hfits hadmits => C.update_goes_through hU hok hfits hadmits hrow hread
  · intro relation' hupdate
    rw [update_eq_of_row hrow] at hupdate
    have hrun : relation.update accepts U.sets (U.params e) (R.id e) = some relation' := by
      split at hupdate
      next heq => rw [heq, Except.ok.inj hupdate]
      next => cases hupdate
    unfold Relation.update at hrun
    obtain ⟨values, hvalues, hrest⟩ := Option.bind_eq_some_iff.mp hrun
    rw [hrow, hU.change e values hok hvalues] at hrest
    apply C.get_eq (row.write U.names ((C.record e).read U.names)) hok
    · rw [Relation.put_eq_some hrest, Dict.get?_set_self]
      rfl
    · exact hread

/-- The row that has the entity's key is the stored one: both have the entity's texts there. -/
theorem holder_of_key {key sets : List String} {keeps : E → E → Prop} (hkept : C.Kept sets keeps)
    (hkey : ∀ c ∈ key, c ∈ R.columns.names ∧ c ∉ sets ∧ c ≠ "id") {driver : Driver}
    {relation : Relation R.columns} {stored e : E} {row : CellRecord} {found : String × CellRecord}
    (hunique : relation.UniqueOn key) (hrow : relation.rows.get? (R.id e) = some row)
    (hdecoded : R.ofRow (driver.fetch (row.read R.columns.names)) = .ok stored)
    (hkeeps : keeps stored e)
    (hfind : relation.rows.entries.find? (fun e' => Relation.sameTexts key (C.record e) e'.2) =
      some found) : found = (R.id e, row) := by
  obtain ⟨k, holder⟩ := found
  have hsome := List.find?_some hfind
  have hsame := Relation.sameTexts_iff.mp hsome
  have hholder : relation.rows.get? k = some holder :=
    Dict.get?_eq_some_iff.mpr (List.mem_of_find?_eq_some hfind)
  have hk : R.id e = k := by
    refine hunique _ _ row holder hrow hholder (Relation.sameTexts_iff.mpr fun c hc => ?_)
    obtain ⟨s, hs, hs'⟩ := hsame c hc
    obtain ⟨hname, hset, hid⟩ := hkey c hc
    refine ⟨s, ?_, hs'⟩
    rw [hkept driver row stored e (relation.typed _ _ hrow) hdecoded hkeeps c hname hset hid]
    exact hs
  subst hk
  rw [hrow] at hholder
  rw [Option.some.inj hholder]

/-- A whole key is found in the stored row, which is then written over. -/
theorem upsert_goes_through {key sets : List String} {keeps : E → E → Prop}
    (hkept : C.Kept sets keeps) (hkey : ∀ c ∈ key, c ∈ R.columns.names ∧ c ∉ sets ∧ c ≠ "id")
    {accepts : Relation.Constraints} {driver : Driver} {relation : Relation R.columns}
    {stored e : E} {row : CellRecord} (hunique : relation.UniqueOn key) (hok : ok e)
    (hfits : fits e) (hwhole : ∀ c ∈ key, ∃ s, C.record e c = .text s)
    (hadmits : R.Admits accepts same relation e) (hrow : relation.rows.get? (R.id e) = some row)
    (hdecoded : R.ofRow (driver.fetch (row.read R.columns.names)) = .ok stored)
    (hkeeps : keeps stored e) :
    ∃ relation', R.upsert accepts key sets relation e = .ok relation' := by
  have hread := C.read_written hkept hrow hdecoded hkeeps
  obtain ⟨htyped, hid⟩ := C.typed_of_read hread
  obtain ⟨relation', hput⟩ :=
    Relation.exists_put hid htyped (C.accepts_of_read hok hadmits hread)
  have hsame : Relation.sameTexts key (C.record e) row = true := by
    refine Relation.sameTexts_iff.mpr fun c hc => ?_
    obtain ⟨s, hs⟩ := hwhole c hc
    obtain ⟨hname, hset, hid'⟩ := hkey c hc
    refine ⟨s, hs, ?_⟩
    rw [hkept driver row stored e (relation.typed _ _ hrow) hdecoded hkeeps c hname hset hid']
    exact hs
  have hsome : (relation.rows.entries.find? fun e' =>
      Relation.sameTexts key (C.record e) e'.2).isSome = true :=
    List.find?_isSome.mpr ⟨(R.id e, row), Dict.get?_eq_some_iff.mp hrow, hsame⟩
  obtain ⟨found, hfound⟩ := Option.isSome_iff_exists.mp hsome
  obtain rfl := C.holder_of_key hkept hkey hunique hrow hdecoded hkeeps hfound
  refine ⟨relation', ?_⟩
  have hrun : relation.upsert accepts R.columns.names R.slots key sets (R.row e) =
      some relation' := by
    unfold Relation.upsert
    rw [C.sent e hok hfits, Option.bind_eq_bind, Option.bind_some]
    rw [record] at hfound
    dsimp only
    rw [hfound]
    exact hput
  rw [Adapter.upsert, hrun]

theorem getAfterUpsert {key sets : List String} {keeps : E → E → Prop} {whole : E → Prop}
    (hkept : C.Kept sets keeps) (hkey : ∀ c ∈ key, c ∈ R.columns.names ∧ c ∉ sets ∧ c ≠ "id")
    (hwhole : ∀ e, whole e → ∀ c ∈ key, ∃ s, C.record e c = .text s) :
    R.GetAfterUpsert key sets ok (fun e => fits e ∧ whole e) same keeps := by
  intro accepts driver driver' relation stored e hunique hok hget hkeeps
  obtain ⟨row, hrow, hdecoded⟩ := Adapter.row_of_get hget
  have hread := C.read_written hkept hrow hdecoded hkeeps
  constructor
  · exact fun hfits hadmits => C.upsert_goes_through hkept hkey hunique hok hfits.1
      (hwhole e hfits.2) hadmits hrow hdecoded hkeeps
  · intro relation' hupsert
    have hrun : relation.upsert accepts R.columns.names R.slots key sets (R.row e) =
        some relation' := by
      unfold Adapter.upsert at hupsert
      split at hupsert
      next heq => rw [heq, Except.ok.inj hupsert]
      next => cases hupsert
    unfold Relation.upsert at hrun
    obtain ⟨values, hvalues, hrest⟩ := Option.bind_eq_some_iff.mp hrun
    rw [C.insert e values hok hvalues] at hrest
    dsimp only at hrest
    split at hrest
    next k holder hfind =>
      cases C.holder_of_key hkept hkey hunique hrow hdecoded hkeeps hfind
      apply C.get_eq (row.write sets ((C.record e).read sets)) hok
      · rw [Relation.put_eq_some hrest, Dict.get?_set_self]
        rfl
      · exact hread
    next =>
      unfold Relation.insert at hrest
      obtain ⟨values', hvalues', hrest⟩ := Option.bind_eq_some_iff.mp hrest
      rw [C.insert e values' hok hvalues'] at hrest
      dsimp only at hrest
      rw [C.id e] at hrest
      dsimp only at hrest
      rw [hrow] at hrest
      cases hrest

end Codec

end Wapsell.Postgres
