import Wapsell.Ingestion.Preprocessor
import Wapsell.Py.Csv

/-!
# The CSV extractor

`sdk/wapsell/ingestion/extractors/csv.py`: every row of a file becomes a
chunk, its columns as `key: value` with ` | ` between them. A row with a cell
for each column becomes what it says. One with fewer says `None` for the
others, and one with more has the surplus as a list under the key `None`.

The `None` is Python's own text for the missing value, so a fact then
says that a product costs None. A field over the limit of the `csv`
module raises, and the file is not ingested at all: the facts are built
after the reader has come to its end.

What this does not establish: that the file was meant to be read with
commas. Rows with semicolons are rows of one cell, and complete.
-/

namespace Wapsell.Ingestion

open Lib Py

/-- A key in an f-string. -/
def formatKey : Option String → String
  | some key => key
  | none => "None"

/-- A value in an f-string.

The surplus is a list and shows as Python writes one, with its brackets and quotes. -/
def formatValue (U : Unicode) : CsvValue → String
  | .cell text => text
  | .missing => "None"
  | .surplus cells => "[" ++ join ", " (cells.map (reprStr U)) ++ "]"

/-- `f"{key}: {value}"`. -/
def entryText (U : Unicode) (e : Option String × CsvValue) : String :=
  formatKey e.1 ++ ": " ++ formatValue U e.2

/-- The text of a row: its entries in the order of the columns, with ` | ` between them. -/
def rowText (U : Unicode) (row : Dict (Option String) CsvValue) : String :=
  join " | " (row.entries.map (entryText U))

/-- The chunk of a row, none when its text is blank. The row number goes into the metadata.

The number counts the rows of the reader from zero, blank ones included. -/
def chunkOf (U : Unicode) (path : Path) (row : Dict (Option String) CsvValue) (index : Nat) :
    Option ExtractedChunk :=
  let text := rowText U row
  if strip text ≠ "" then
    some { text, source := path.name, metadata := Dict.empty.set "row" (toString index) }
  else none

/-- `CsvExtractor.extract`, on the text of the file. -/
def CsvExtractor.extract (U : Unicode) (path : Path) (text : String) :
    Except Exc (List ExtractedChunk) :=
  match dictReader text with
  | .error e => .error e
  | .ok rows => .ok (rows.zipIdx.filterMap fun r => chunkOf U path r.1 r.2)

/-! ## What a file says -/

/-- The names of the columns. -/
def header (text : String) : List String := (readRows text).headD []

/-- The data rows with at least one cell. `DictReader` passes over the others.

A row of one empty cell stays, since it has a cell. -/
def dataRows (text : String) : List (List String) := (readRows text).tail.filter (· ≠ [])

/-- `name: cell` for the columns that a row has a cell for. -/
def cellTexts (names row : List String) : List String :=
  (names.zip row).map fun e => e.1 ++ ": " ++ e.2

/-- The file is ingested as it is: behind the facts there were stands one for each data row, with
each cell of the row under the name of its column and nothing besides.

The ids and the times of the facts are left out, since they are drawn. -/
def Faithful (U : Unicode) (hindsight : Hindsight) (job : IngestionJob) (draws : Nat → FactDraw)
    (text : String) : Prop :=
  ∃ facts, process U defaultExtractors hindsight job (CsvExtractor.extract U job.path text) draws =
      (.ok facts, hindsight ++ facts) ∧
    facts.map (fun f => (f.tenantId, f.content)) =
      (dataRows text).map fun row => (job.tenantId, join " | " (cellTexts (header text) row))

/-! ## The text of a row -/

/-- Parts behind others make a join longer. -/
theorem join_append_ne {sep : String} (hsep : sep ≠ "") (a : List String) {b : List String}
    (hb : b ≠ []) (hparts : ∀ x ∈ b, x ≠ "") : join sep (a ++ b) ≠ join sep a := by
  intro heq
  cases a with
  | nil =>
    obtain ⟨x, hx⟩ := List.exists_mem_of_ne_nil b hb
    have hpart : x.toList <:+: (join sep ([] ++ b)).toList := infix_join hx
    rw [heq, join, String.intercalate_nil] at hpart
    exact hparts x hx (String.toList_eq_nil_iff.mp (List.infix_nil.mp hpart))
  | cons x a =>
    have hlength := congrArg String.length heq
    rw [join, String.intercalate_append_of_ne_nil (List.cons_ne_nil x a) hb, String.length_append,
      String.length_append, join] at hlength
    have hpos : 0 < sep.length :=
      Nat.pos_of_ne_zero fun hzero => hsep (String.length_eq_zero_iff.mp hzero)
    omega

theorem colon_mem_entryText (U : Unicode) (e : Option String × CsvValue) :
    ':' ∈ (entryText U e).toList := by
  simp [entryText]

section Rows

variable {U : Unicode} {names : List String} (hdistinct : names.Nodup) (row : List String)
include hdistinct

/-- What the row says, and something for each name or cell that is alone. -/
theorem rowText_dictRow : rowText U (dictRow names row) =
    join " | " (cellTexts names row ++ (dictRest names row).map (entryText U)) := by
  rw [rowText, entries_dictRow hdistinct, List.map_append, List.map_map]
  rfl

/-- It says what the row does when it has a cell for each name and no more. -/
theorem rowText_dictRow_eq_iff : rowText U (dictRow names row) = join " | " (cellTexts names row) ↔
    row.length = names.length := by
  rw [rowText_dictRow hdistinct, ← dictRest_eq_nil_iff]
  constructor
  · intro heq
    by_contra hrest
    refine join_append_ne (by decide) _ (fun hnil => hrest (List.map_eq_nil_iff.mp hnil)) ?_ heq
    intro x hx hempty
    obtain ⟨e, -, rfl⟩ := List.mem_map.mp hx
    have hcolon := colon_mem_entryText U e
    rw [hempty] at hcolon
    cases hcolon
  · intro hrest
    rw [hrest, List.map_nil, List.append_nil]

/-- The text of a row with a cell is not blank. -/
theorem strip_rowText {row : List String} (hrow : row ≠ []) :
    strip (rowText U (dictRow names row)) ≠ "" := by
  have hentry : ∃ e, e ∈ (dictRow names row).entries := by
    rw [entries_dictRow hdistinct]
    apply List.exists_mem_of_ne_nil
    intro hnil
    obtain ⟨hcells, hrest⟩ := List.append_eq_nil_iff.mp hnil
    have hlength := dictRest_eq_nil_iff.mp hrest
    rw [List.map_eq_nil_iff, List.zip_eq_nil_iff] at hcells
    rcases hcells with rfl | hcells
    · exact hrow (List.eq_nil_of_length_eq_zero hlength)
    · exact hrow hcells
  obtain ⟨e, he⟩ := hentry
  have hpart : entryText U e ∈ (dictRow names row).entries.map (entryText U) :=
    List.mem_map.mpr ⟨e, he, rfl⟩
  have hcolon : [':'] <:+: (rowText U (dictRow names row)).toList := by
    obtain ⟨before, behind, hsplit⟩ := List.append_of_mem (colon_mem_entryText U e)
    have hentry : [':'] <:+: (entryText U e).toList := ⟨before, behind, by simp [hsplit]⟩
    exact hentry.trans (infix_join hpart)
  have hkept := infix_strip (by decide) hcolon
  intro hblank
  rw [hblank] at hkept
  exact absurd (List.infix_nil.mp hkept) (List.cons_ne_nil _ _)

end Rows

/-! ## The chunks of a file -/

/-- Each row that is not blank becomes a chunk with its text. -/
theorem texts_chunkOf {U : Unicode} (path : Path) {rows : List (Dict (Option String) CsvValue)}
    (h : ∀ row ∈ rows, strip (rowText U row) ≠ "") (n : Nat) :
    ((rows.zipIdx n).filterMap fun r => chunkOf U path r.1 r.2).map ExtractedChunk.text =
      rows.map (rowText U) := by
  induction rows generalizing n with
  | nil => rfl
  | cons row rows ih =>
    obtain ⟨hrow, hrows⟩ := List.forall_mem_cons.mp h
    have hchunk : ∃ chunk, chunkOf U path row n = some chunk ∧ chunk.text = rowText U row := by
      unfold chunkOf
      extract_lets text
      rw [if_pos hrow]
      exact ⟨_, rfl, rfl⟩
    obtain ⟨chunk, hsome, htext⟩ := hchunk
    rw [List.zipIdx_cons, List.filterMap_cons, hsome, List.map_cons, List.map_cons, htext,
      ih hrows (n + 1)]

theorem dictReader_eq {text : String} (h : WithinLimit (readRows text)) :
    dictReader text = .ok ((dataRows text).map (dictRow (header text))) := by
  rw [dictReader, csvReader, if_pos h, dataRows, header]
  cases readRows text with
  | nil => rfl
  | cons names rows => rfl

theorem dictReader_error {text : String} (h : ¬ WithinLimit (readRows text)) :
    dictReader text = .error (.library "csv.Error") := by
  rw [dictReader, csvReader, if_neg h]

/-- Of a file with distinct names that can be read the chunks are those of its data rows. -/
theorem texts_extract {U : Unicode} {text : String} (hdistinct : (header text).Nodup)
    (h : WithinLimit (readRows text)) (path : Path) :
    ∃ chunks, CsvExtractor.extract U path text = .ok chunks ∧ chunks.map ExtractedChunk.text =
      (dataRows text).map fun row => rowText U (dictRow (header text) row) := by
  have htext : ∀ row ∈ (dataRows text).map (dictRow (header text)),
      strip (rowText U row) ≠ "" := by
    intro d hd
    obtain ⟨row, hrow, rfl⟩ := List.mem_map.mp hd
    have hne := (List.mem_filter.mp hrow).2
    exact strip_rowText hdistinct (by simpa using hne)
  rw [CsvExtractor.extract, dictReader_eq h]
  exact ⟨_, rfl, (texts_chunkOf path htext 0).trans List.map_map⟩

/-- A fact is its chunk's, for the tenant of the job. -/
theorem contents_factsOf (job : IngestionJob) (draws : Nat → FactDraw) (i : Nat)
    (chunks : List ExtractedChunk) :
    (factsOf job draws i chunks).map (fun f => (f.tenantId, f.content)) =
      (chunks.map ExtractedChunk.text).map fun text => (job.tenantId, text) := by
  induction chunks generalizing i with
  | nil => rfl
  | cons chunk chunks ih => rw [factsOf, List.map_cons, List.map_cons, List.map_cons, ih]

/-! ## The file -/

/-- **Ingestion of a CSV.** A file with distinct names of columns is ingested as it is exactly when
each data row has a cell for every column and no more, and no field is over the limit.

A row with fewer cells is read with `None` in their place and one with more has them under the key
`None`; both are facts that the file does not state, and both are stored. -/
theorem faithful_iff {U : Unicode} {job : IngestionJob} (hcsv : lower U job.path.suffix = ".csv")
    {text : String} (hdistinct : (header text).Nodup) (hindsight : Hindsight)
    (draws : Nat → FactDraw) : Faithful U hindsight job draws text ↔
      (∀ row ∈ dataRows text, row.length = (header text).length) ∧
        WithinLimit (readRows text) := by
  have hsupported : Supported U defaultExtractors job := by
    rw [Supported, hcsv]
    decide
  unfold Faithful process
  rw [if_pos hsupported]
  by_cases hlimit : WithinLimit (readRows text)
  · obtain ⟨chunks, hextract, htexts⟩ := texts_extract (U := U) hdistinct hlimit job.path
    rw [hextract, and_iff_left hlimit]
    dsimp only
    rw [Hindsight.foldl_addFact]
    have hcontents : ((factsOf job draws 0 chunks).map (fun f => (f.tenantId, f.content)) =
        (dataRows text).map fun row => (job.tenantId, join " | " (cellTexts (header text) row))) ↔
          ∀ row ∈ dataRows text, row.length = (header text).length := by
      rw [contents_factsOf, htexts, List.map_map, List.map_inj_left]
      refine forall₂_congr fun row _ => ?_
      rw [← rowText_dictRow_eq_iff (U := U) hdistinct row]
      simp
    rw [← hcontents]
    constructor
    · rintro ⟨facts, hprocess, hfacts⟩
      cases hprocess
      exact hfacts
    · intro hfacts
      exact ⟨_, rfl, hfacts⟩
  · -- the reader raises, and nothing is added
    rw [CsvExtractor.extract, dictReader_error hlimit]
    refine iff_of_false ?_ fun h => hlimit h.2
    rintro ⟨facts, hprocess, -⟩
    cases hprocess

/-- A price list to ingest. -/
def prices : IngestionJob :=
  { tenantId := "acme", path := { parent := ".", name := "precios.csv" } }

/-- Two rows that are complete, one of them with a comma in a cell. -/
theorem complete_rows_faithful : Faithful Unicode.ascii [] prices (fun _ => ⟨"", 0⟩)
    "nombre,precio\nzapatos,100\n\"gorro, rojo\",30\n" :=
  (faithful_iff (by decide +kernel) (by decide +kernel) [] _).mpr
    ⟨by decide +kernel, by decide +kernel⟩

/-- A row without a price, and one with a cell too many. -/
theorem ragged_rows :
    (process Unicode.ascii defaultExtractors [] prices
      (CsvExtractor.extract Unicode.ascii prices.path "nombre,precio\nzapatos\n")
        fun _ => ⟨"", 0⟩).2.map Fact.content = ["nombre: zapatos | precio: None"] ∧
    (process Unicode.ascii defaultExtractors [] prices
      (CsvExtractor.extract Unicode.ascii prices.path "nombre\nzapatos,rojos\n")
        fun _ => ⟨"", 0⟩).2.map Fact.content = ["nombre: zapatos | None: ['rojos']"] ∧
    (header "nombre,precio\nzapatos\n").Nodup ∧
      ¬ Faithful Unicode.ascii [] prices (fun _ => ⟨"", 0⟩) "nombre,precio\nzapatos\n" := by
  have hshort : (process Unicode.ascii defaultExtractors [] prices
      (CsvExtractor.extract Unicode.ascii prices.path "nombre,precio\nzapatos\n")
        fun _ => ⟨"", 0⟩).2.map Fact.content = ["nombre: zapatos | precio: None"] := by
    decide +kernel
  refine ⟨hshort, by decide +kernel, by decide +kernel, ?_⟩
  rintro ⟨facts, hprocess, hfacts⟩
  rw [hprocess, List.nil_append] at hshort
  have hcontents := congrArg (List.map Prod.snd) hfacts
  rw [List.map_map, List.map_map] at hcontents
  have hexpected : (dataRows "nombre,precio\nzapatos\n").map (fun row =>
      join " | " (cellTexts (header "nombre,precio\nzapatos\n") row)) = ["nombre: zapatos"] := by
    decide +kernel
  have heq : ["nombre: zapatos | precio: None"] = ["nombre: zapatos"] :=
    hshort.symm.trans (hcontents.trans hexpected)
  exact absurd heq (by decide)

end Wapsell.Ingestion
