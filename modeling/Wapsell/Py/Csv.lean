import Wapsell.Lib.Dict
import Wapsell.Py.Number

/-!
# The module `csv`

`csv.reader` in its default dialect, on a file opened with `newline=""`:
commas between the fields, a field in double quotes where it begins with one,
a quote in it doubled, and a line end in it part of it. Text behind the
closing quote is read on into the field. `csv.DictReader` takes the first row
for the names of the columns.

The reader is a state machine over the characters of the whole file and
not line by line, since a field in quotes may hold line ends. It is the
machine of the C module, state for state, so that what it makes of a
quote in the middle of a field or of an end of the file inside quotes is
not an opinion: both are read on, and nothing raises but a field over
the limit.

**What this does not establish.** Nothing about other dialects, and
nothing of a file opened with translated line ends.
-/

namespace Py

open Lib

/-- The states of the reader. -/
inductive ReaderState
  | startRecord
  | startField
  | inField
  | inQuotedField
  | quoteInQuotedField
  /-- Behind a carriage return that ended a row. -/
  | eatNewline
  deriving DecidableEq, Repr

/-- The reader: the field and the row read so far, and the rows before. The rows are part of the
state, so the file is one fold over its characters. -/
structure Reader where
  state : ReaderState := .startRecord
  field : List Char := []
  fields : List String := []
  rows : List (List String) := []

namespace Reader

def addChar (r : Reader) (state : ReaderState) (c : Char) : Reader :=
  { r with state, field := r.field ++ [c] }

def saveField (r : Reader) : Reader :=
  { r with state := .startField, field := [], fields := r.fields ++ [String.ofList r.field] }

/-- The row is complete. Of a CRLF the line feed is still to come. -/
def endRecord (r : Reader) (c : Char) : Reader where
  state := if c = '\r' then .eatNewline else .startRecord
  rows := r.rows ++ [r.fields]

/-- A character where a field begins.

A quote opens a quoted field here and nowhere else. -/
def startField (r : Reader) (c : Char) : Reader :=
  if c = '\n' ∨ c = '\r' then r.saveField.endRecord c
  else if c = '"' then { r with state := .inQuotedField }
  else if c = ',' then r.saveField
  else r.addChar .inField c

/-- A character where a row begins: a line end makes an empty row. -/
def startRecord (r : Reader) (c : Char) : Reader :=
  if c = '\n' ∨ c = '\r' then r.endRecord c else r.startField c

/-- One character. -/
def processChar (r : Reader) (c : Char) : Reader :=
  match r.state with
  | .startRecord => r.startRecord c
  | .eatNewline => if c = '\n' then { r with state := .startRecord } else r.startRecord c
  | .startField => r.startField c
  | .inField =>
    if c = '\n' ∨ c = '\r' then r.saveField.endRecord c
    else if c = ',' then r.saveField
    else r.addChar .inField c
  | .inQuotedField =>
    if c = '"' then { r with state := .quoteInQuotedField } else r.addChar .inQuotedField c
  | .quoteInQuotedField =>
    if c = '"' then r.addChar .inQuotedField c
    else if c = ',' then r.saveField
    else if c = '\n' ∨ c = '\r' then r.saveField.endRecord c
    else r.addChar .inField c

/-- The end of the file: what a row has so far is a row, also within quotes.

A file that ends in a line end has no further row. -/
def finish (r : Reader) : List (List String) :=
  match r.state with
  | .startRecord | .eatNewline => r.rows
  | _ => r.rows ++ [r.saveField.fields]

end Reader

/-- The rows of a text. -/
def readRows (text : String) : List (List String) :=
  (text.toList.foldl Reader.processChar {}).finish

/-- `csv.field_size_limit()`. -/
def FIELD_SIZE_LIMIT : Nat := 131072

/-- No field is over the limit.

The limit is on the characters of a field as it is read, without its quotes. -/
def WithinLimit (rows : List (List String)) : Prop :=
  ∀ row ∈ rows, ∀ field ∈ row, field.length ≤ FIELD_SIZE_LIMIT

instance (rows : List (List String)) : Decidable (WithinLimit rows) :=
  inferInstanceAs (Decidable (∀ row ∈ rows, ∀ field ∈ row, _))

/-- All that `csv.reader` yields. A field over the limit raises. -/
def csvReader (text : String) : Except Exc (List (List String)) :=
  if WithinLimit (readRows text) then .ok (readRows text) else .error (.library "csv.Error")

/-- A value in a row of `DictReader`. -/
inductive CsvValue
  | cell (text : String)
  /-- `restval`, `None` unless given. -/
  | missing
  /-- The cells beyond the names. -/
  | surplus (cells : List String)
  deriving DecidableEq, Repr

/-- A row of `DictReader`. The surplus is under `restkey`, `None` unless given; a name without a
cell has `None`, which is no text. -/
def dictRow (fieldnames row : List String) : Dict (Option String) CsvValue :=
  let d := ((fieldnames.zip row).map fun e => (some e.1, CsvValue.cell e.2)).foldl
    (fun d e => d.set e.1 e.2) Dict.empty
  if fieldnames.length < row.length then d.set none (.surplus (row.drop fieldnames.length))
  else ((fieldnames.drop row.length).map fun key => (some key, CsvValue.missing)).foldl
    (fun d e => d.set e.1 e.2) d

/-- All that `csv.DictReader` yields: the rows behind the first but the empty ones. -/
def dictReader (text : String) : Except Exc (List (Dict (Option String) CsvValue)) :=
  match csvReader text with
  | .error e => .error e
  | .ok [] => .ok []
  | .ok (fieldnames :: rows) => .ok ((rows.filter (· ≠ [])).map (dictRow fieldnames))

/-- What a row has beyond its cells: a value for each name without a cell, or one for all the cells
without a name. -/
def dictRest (fieldnames row : List String) : List (Option String × CsvValue) :=
  if fieldnames.length < row.length then [(none, .surplus (row.drop fieldnames.length))]
  else (fieldnames.drop row.length).map fun key => (some key, .missing)

theorem dictRest_eq_nil_iff {fieldnames row : List String} :
    dictRest fieldnames row = [] ↔ row.length = fieldnames.length := by
  unfold dictRest
  split
  · next h => exact iff_of_false (List.cons_ne_nil _ _) (Nat.ne_of_gt h)
  · next h =>
    rw [List.map_eq_nil_iff, List.drop_eq_nil_iff]
    omega

/-- The names that have a cell. -/
theorem map_fst_zip_eq_take {α β : Type*} : ∀ (l : List α) (m : List β),
    (l.zip m).map Prod.fst = l.take m.length
  | [], _ => List.take_nil.symm
  | _ :: _, [] => rfl
  | a :: l, _ :: m => congrArg (a :: ·) (map_fst_zip_eq_take l m)

/-- Of distinct names each is in the row once, where it is in the header. -/
theorem entries_dictRow {fieldnames : List String} (hdistinct : fieldnames.Nodup)
    (row : List String) : (dictRow fieldnames row).entries =
      ((fieldnames.zip row).map fun e => (some e.1, CsvValue.cell e.2)) ++
        dictRest fieldnames row := by
  have hsome : Function.Injective (some : String → Option String) := Option.some_injective String
  have hkeys : ((fieldnames.zip row).map fun e => (some e.1, CsvValue.cell e.2)).map Prod.fst =
      (fieldnames.take row.length).map some := by
    rw [← map_fst_zip_eq_take, List.map_map, List.map_map]
    rfl
  have hcells : (((fieldnames.zip row).map fun e => (some e.1, CsvValue.cell e.2)).foldl
      (fun (d : Dict (Option String) CsvValue) e => d.set e.1 e.2) Dict.empty).entries =
        (fieldnames.zip row).map fun e => (some e.1, CsvValue.cell e.2) := by
    apply Dict.entries_foldl_set
    · rw [hkeys]
      exact (hdistinct.sublist (List.take_sublist _ _)).map hsome
    · exact fun k _ => List.not_mem_nil
  unfold dictRow dictRest
  split
  · rw [Dict.entries_set_of_none, hcells]
    rw [Dict.get?_eq_none_iff, Dict.keys, hcells, hkeys]
    intro hmem
    obtain ⟨_, _, hnone⟩ := List.mem_map.mp hmem
    cases hnone
  · rw [Dict.entries_foldl_set, hcells]
    · rw [List.map_map]
      exact (hdistinct.sublist (List.drop_sublist _ _)).map hsome
    · intro k hk
      rw [Dict.keys, hcells, hkeys]
      intro hmem
      rw [List.map_map] at hk
      obtain ⟨key, hdrop, rfl⟩ := List.mem_map.mp hk
      obtain ⟨key', htake, heq⟩ := List.mem_map.mp hmem
      rw [hsome heq] at htake
      exact List.disjoint_take_drop hdistinct (Nat.le_refl _) htake hdrop

end Py
