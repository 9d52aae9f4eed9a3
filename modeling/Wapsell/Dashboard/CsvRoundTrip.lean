import Mathlib.Data.List.Forall2
import Mathlib.Data.List.TakeWhile
import Wapsell.Dashboard.Csv

/-!
# The round trip of a catalog

A table written as RFC 4180 says, with every field in quotes, is read back.
The line splitter and the field splitter each come out of a quoted field in
the state they entered it in, whatever the field has in it, as long as no
quote follows it: a comma, a line end or nothing does.

Every choice that RFC 4180 leaves a writer is a parameter: a byte order
mark or none, a line end of its own behind each row, and a line end
behind the last row or none. The headers of a table are distinct,
trimmed and in lower case, with `content` among them and without
`__proto__`, a property that keeps no text.

What this does not establish: that a field written without quotes is
read back. Such a writer must know which fields need them.
-/

namespace Wapsell.Dashboard

open Lib

/-! ## RFC 4180 -/

/-- Every quote twice. Nothing else in a quoted field is escaped. -/
def doubled (s : List Char) : List Char := s.flatMap fun c => if c = '"' then ['"', '"'] else [c]

/-- A field in quotes. -/
def quoted (s : String) : List Char := '"' :: (doubled s.toList ++ ['"'])

/-- A record: its fields with commas between them. -/
def encodeRecord : List String → List Char
  | [] => []
  | [field] => quoted field
  | field :: next :: rest => quoted field ++ ',' :: encodeRecord (next :: rest)

/-- What ends a row. -/
inductive LineEnd
  | lf
  | crlf
  | cr

def LineEnd.chars : LineEnd → List Char
  | .lf => ['\n']
  | .crlf => ['\r', '\n']
  | .cr => ['\r']

/-- The records, each with a line end of its own behind it; behind the last one only if `final` says
so. -/
def encodeRecords (final : Bool) : (Nat → LineEnd) → List (List String) → List Char
  | _, [] => []
  | ends, [record] => encodeRecord record ++ if final then (ends 0).chars else []
  | ends, record :: next :: rest =>
    encodeRecord record ++ ((ends 0).chars ++ encodeRecords final (fun i => ends (i + 1)) (next :: rest))

theorem doubled_cons (c : Char) (s : List Char) :
    doubled (c :: s) = (if c = '"' then ['"', '"'] else [c]) ++ doubled s := rfl

/-! ## The line splitter -/

/-- Inside quotes, up to the closing one. -/
theorem splitFrom_doubled {rest : List Char} (hrest : rest.head? ≠ some '"') (s : List Char) :
    ∀ buf, splitFrom true buf (doubled s ++ '"' :: rest) =
      splitFrom false (buf ++ doubled s ++ ['"']) rest := by
  induction s with
  | nil =>
    intro buf
    show splitFrom true buf ('"' :: rest) = _
    rw [splitFrom, if_pos rfl, if_neg (by simp [hrest])]
    simp [doubled]
  | cons c s ih =>
    intro buf
    rw [doubled_cons]
    by_cases hc : c = '"'
    · rw [if_pos hc, List.append_assoc]
      show splitFrom true buf ('"' :: '"' :: (doubled s ++ '"' :: rest)) = _
      rw [splitFrom, if_pos rfl, if_pos (by simp)]
      show splitFrom true (buf ++ ['"', '"']) (doubled s ++ '"' :: rest) = _
      rw [ih]
      simp
    · rw [if_neg hc, List.append_assoc]
      show splitFrom true buf (c :: (doubled s ++ '"' :: rest)) = _
      rw [splitFrom, if_neg hc, if_neg (by simp), ih]
      simp

/-- A quoted field is read over. -/
theorem splitFrom_quoted {rest : List Char} (hrest : rest.head? ≠ some '"') (field : String)
    (buf : List Char) :
    splitFrom false buf (quoted field ++ rest) = splitFrom false (buf ++ quoted field) rest := by
  have hcons : quoted field ++ rest = '"' :: (doubled field.toList ++ '"' :: rest) := by
    simp [quoted]
  rw [hcons, splitFrom, if_pos rfl, if_neg (by simp), Bool.not_false,
    splitFrom_doubled hrest field.toList]
  simp [quoted]

/-- So is a record. -/
theorem splitFrom_encodeRecord {rest : List Char} (hrest : rest.head? ≠ some '"') :
    ∀ (record : List String) (buf : List Char),
      splitFrom false buf (encodeRecord record ++ rest) =
        splitFrom false (buf ++ encodeRecord record) rest
  | [], buf => by rw [encodeRecord, List.nil_append, List.append_nil]
  | [field], buf => splitFrom_quoted hrest field buf
  | field :: next :: record, buf => by
    rw [encodeRecord, List.append_assoc, List.cons_append, splitFrom_quoted (by simp), splitFrom,
      if_neg (by decide), if_neg (by decide), splitFrom_encodeRecord hrest (next :: record)]
    simp

/-- Behind a line end the next line begins. -/
theorem splitFrom_lineEnd {rest : List Char} (hrest : rest.head? ≠ some '\n') (lineEnd : LineEnd)
    (buf : List Char) :
    splitFrom false buf (lineEnd.chars ++ rest) = buf :: splitFrom false [] rest := by
  cases lineEnd with
  | lf =>
    show splitFrom false buf ('\n' :: rest) = _
    rw [splitFrom, if_neg (by decide), if_pos (by decide), afterLineEnd, if_neg (by simp)]
  | crlf =>
    show splitFrom false buf ('\r' :: '\n' :: rest) = _
    rw [splitFrom, if_neg (by decide), if_pos (by decide), afterLineEnd, if_pos ⟨rfl, rfl⟩,
      List.tail_cons]
  | cr =>
    show splitFrom false buf ('\r' :: rest) = _
    rw [splitFrom, if_neg (by decide), if_pos (by decide), afterLineEnd,
      if_neg fun h => hrest h.2]

theorem head?_lineEnd (lineEnd : LineEnd) (rest : List Char) :
    (lineEnd.chars ++ rest).head? ≠ some '"' := by
  cases lineEnd <;> simp [LineEnd.chars]

/-- A record begins with a quote. -/
theorem head?_encodeRecord {record : List String} (h : record ≠ []) (rest : List Char) :
    (encodeRecord record ++ rest).head? = some '"' := by
  match record with
  | [] => exact absurd rfl h
  | [field] => rfl
  | field :: next :: record => rfl

/-- **The lines.** Each line is a record. A line end inside a field is in quotes, so none of them is
taken for the end of a record. -/
theorem splitFrom_encodeRecords (final : Bool) : ∀ (records : List (List String))
    (ends : Nat → LineEnd), (∀ record ∈ records, record ≠ []) →
      splitFrom false [] (encodeRecords final ends records) = records.map encodeRecord
  | [], _, _ => by rw [encodeRecords, splitFrom, if_pos rfl, List.map_nil]
  | [record], ends, h => by
    have hne : encodeRecord record ≠ [] := by
      intro hempty
      have hhead := head?_encodeRecord (h record List.mem_cons_self) []
      rw [hempty] at hhead
      cases hhead
    rw [encodeRecords, List.map_singleton]
    cases final with
    | false =>
      rw [if_neg Bool.false_ne_true, splitFrom_encodeRecord (by simp), List.nil_append, splitFrom,
        if_neg hne]
    | true =>
      have hnil : ([] : List Char).head? ≠ some '\n' := by simp
      have hend := splitFrom_lineEnd hnil (ends 0) (encodeRecord record)
      rw [List.append_nil, splitFrom, if_pos rfl] at hend
      have hquote := head?_lineEnd (ends 0) []
      rw [List.append_nil] at hquote
      rw [if_pos rfl, splitFrom_encodeRecord hquote, List.nil_append, hend]
  | record :: next :: records, ends, h => by
    obtain ⟨-, hnext⟩ := List.forall_mem_cons.mp h
    have hhead : (encodeRecords final (fun i => ends (i + 1)) (next :: records)).head? =
        some '"' := by
      cases records with
      | nil => exact head?_encodeRecord (hnext next List.mem_cons_self) _
      | cons third records => exact head?_encodeRecord (hnext next List.mem_cons_self) _
    rw [encodeRecords, splitFrom_encodeRecord (head?_lineEnd _ _), List.nil_append,
      splitFrom_lineEnd (by rw [hhead]; simp), splitFrom_encodeRecords final (next :: records) _ hnext]
    rfl

/-! ## The field splitter -/

theorem parseFrom_doubled {rest : List Char} (hrest : rest.head? ≠ some '"') (s : List Char) :
    ∀ cur, parseFrom true cur (doubled s ++ '"' :: rest) = parseFrom false (cur ++ s) rest := by
  induction s with
  | nil =>
    intro cur
    show parseFrom true cur ('"' :: rest) = _
    rw [parseFrom, if_pos rfl, if_neg (by simp [hrest]), List.append_nil]
    rfl
  | cons c s ih =>
    intro cur
    rw [doubled_cons]
    by_cases hc : c = '"'
    · rw [if_pos hc, List.append_assoc]
      show parseFrom true cur ('"' :: '"' :: (doubled s ++ '"' :: rest)) = _
      rw [parseFrom, if_pos rfl, if_pos (by simp)]
      show parseFrom true (cur ++ ['"']) (doubled s ++ '"' :: rest) = _
      rw [ih, hc]
      simp
    · rw [if_neg hc, List.append_assoc]
      show parseFrom true cur (c :: (doubled s ++ '"' :: rest)) = _
      rw [parseFrom, if_neg hc, if_neg (by simp), ih]
      simp

/-- Of a quoted field the field is read. -/
theorem parseFrom_quoted {rest : List Char} (hrest : rest.head? ≠ some '"') (field : String)
    (cur : List Char) :
    parseFrom false cur (quoted field ++ rest) = parseFrom false (cur ++ field.toList) rest := by
  have hcons : quoted field ++ rest = '"' :: (doubled field.toList ++ '"' :: rest) := by
    simp [quoted]
  rw [hcons, parseFrom, if_pos rfl, if_neg (by simp), Bool.not_false,
    parseFrom_doubled hrest field.toList]

/-- **The fields.** Of a record its fields are read, with the spaces around them. -/
theorem parseCsvLine_encodeRecord : ∀ {record : List String}, record ≠ [] →
    parseCsvLine (encodeRecord record) = record
  | [], h => absurd rfl h
  | [field], _ => by
    have hnil : ([] : List Char).head? ≠ some '"' := by simp
    have hquoted := parseFrom_quoted hnil field []
    rw [List.append_nil, List.nil_append, parseFrom, String.ofList_toList] at hquoted
    exact hquoted
  | field :: next :: record, _ => by
    have hrest := parseCsvLine_encodeRecord (List.cons_ne_nil next record)
    rw [parseCsvLine] at hrest
    rw [parseCsvLine, encodeRecord, parseFrom_quoted (by simp), parseFrom, if_neg (by decide),
      if_pos (by decide), hrest, List.nil_append, String.ofList_toList]

/-! ## The metadata -/

/-- Assigning some entries is assigning what is left of the others. -/
theorem foldl_assign {α κ ν : Type*} [DecidableEq κ] (keep : α → Bool) (key : α → κ) (value : α → ν) :
    ∀ (l : List α) (d : Dict κ ν),
      l.foldl (fun d a => if keep a then d.set (key a) (value a) else d) d =
        ((l.filter keep).map fun a => (key a, value a)).foldl (fun d e => d.set e.1 e.2) d
  | [], _ => rfl
  | a :: l, d => by
    rw [List.foldl_cons, foldl_assign keep key value l, List.filter_cons]
    split <;> rfl

/-- A property for every other column that is not empty. -/
theorem get?_rowMetadata {headers : List String} (hdistinct : headers.Nodup)
    (hproto : "__proto__" ∉ headers) (contentIdx : Nat) (cols : List String) (key value : String) :
    (rowMetadata headers contentIdx cols).get? key = some value ↔
      ∃ j, headers[j]? = some key ∧ j ≠ contentIdx ∧ trim (cols.getD j "") = value ∧ value ≠ "" := by
  let keep : String × Nat → Bool := fun h =>
    decide (h.2 ≠ contentIdx ∧ trim (cols.getD h.2 "") ≠ "")
  have hassign : rowMetadata headers contentIdx cols =
      headers.zipIdx.foldl (fun d h => if keep h then d.set h.1 (trim (cols.getD h.2 "")) else d)
        Dict.empty := by
    refine List.foldl_ext _ _ _ fun d h hmem => ?_
    have hname : h.1 ≠ "__proto__" := by
      intro heq
      have hget := List.mem_zipIdx_iff_getElem?.mp hmem
      exact hproto (heq ▸ List.mem_of_getElem? hget)
    simp only [assignProperty, if_neg hname]
    by_cases hidx : h.2 = contentIdx
    · have hkeep : keep h = false := decide_eq_false fun hk => hk.1 hidx
      rw [if_pos hidx, hkeep, if_neg Bool.false_ne_true]
    · by_cases hblank : trim (cols.getD h.2 "") = ""
      · have hkeep : keep h = false := decide_eq_false fun hk => hk.2 hblank
        rw [if_neg hidx, if_neg (not_not.mpr hblank), hkeep, if_neg Bool.false_ne_true]
      · have hkeep : keep h = true := decide_eq_true ⟨hidx, hblank⟩
        rw [if_neg hidx, if_pos hblank, hkeep, if_pos rfl]
  have hkeys : (((headers.zipIdx.filter keep).map fun h =>
      (h.1, trim (cols.getD h.2 ""))).map Prod.fst).Nodup := by
    rw [List.map_map]
    have hsub : ((headers.zipIdx.filter keep).map Prod.fst).Sublist (headers.zipIdx.map Prod.fst) :=
      List.filter_sublist.map Prod.fst
    rw [List.zipIdx_map_fst] at hsub
    exact hdistinct.sublist hsub
  rw [hassign, foldl_assign, Dict.get?_foldl_set key hkeys, Dict.get?_empty, Option.or_none,
    Dict.find_eq_some_iff hkeys, List.mem_map]
  constructor
  · rintro ⟨h, hmem, heq⟩
    obtain ⟨hmem, hkeep⟩ := List.mem_filter.mp hmem
    obtain ⟨hidx, hblank⟩ := of_decide_eq_true hkeep
    cases heq
    exact ⟨h.2, List.mem_zipIdx_iff_getElem?.mp hmem, hidx, rfl, hblank⟩
  · rintro ⟨j, hkey, hidx, rfl, hblank⟩
    refine ⟨(key, j), List.mem_filter.mpr ⟨?_, decide_eq_true ⟨hidx, hblank⟩⟩, rfl⟩
    exact List.mem_zipIdx_iff_getElem?.mpr hkey

/-! ## The table -/

/-- The trimmed cell of a column. -/
def cell (headers row : List String) (header : String) : String :=
  trim ((Dict.find header (headers.zip row)).getD "")

/-- A catalog: the headers are distinct, trimmed and in lower case, with `content` and without
`__proto__`; a row has a cell for each header, and one row has content. -/
structure Table (toLowerCase : String → String) where
  headers : List String
  rows : List (List String)
  distinct : headers.Nodup
  normal : ∀ h ∈ headers, trim h = h ∧ toLowerCase h = h
  content : "content" ∈ headers
  noProto : "__proto__" ∉ headers
  complete : ∀ row ∈ rows, row.length = headers.length
  filled : ∃ row ∈ rows, cell headers row "content" ≠ ""

/-- The table as RFC 4180 text. -/
def encode {toLowerCase : String → String} (T : Table toLowerCase) (bom final : Bool)
    (ends : Nat → LineEnd) : String :=
  String.ofList ((if bom then [BOM] else []) ++ encodeRecords final ends (T.headers :: T.rows))

/-- A row as a fact: the trimmed content, and the other columns that are not empty. -/
structure IsFact (headers row : List String) (fact : CatalogFactIn) : Prop where
  content : fact.content = cell headers row "content"
  metadata : ∀ key value, fact.metadata.get? key = some value ↔
    key ∈ headers ∧ key ≠ "content" ∧ cell headers row key = value ∧ value ≠ ""

section Rows

variable {headers row : List String} (hdistinct : headers.Nodup)
  (hlength : row.length = headers.length)
include hdistinct hlength

/-- The cell under a header. -/
theorem cell_eq {j : Nat} {header : String} (h : headers[j]? = some header) :
    cell headers row header = trim (row.getD j "") := by
  obtain ⟨hj, rfl⟩ := List.getElem?_eq_some_iff.mp h
  have hj' : j < row.length := hlength ▸ hj
  have hkeys : ((headers.zip row).map Prod.fst).Nodup := by
    rwa [List.map_fst_zip hlength.ge]
  have hmem : (headers[j], row[j]) ∈ headers.zip row := by
    have hzip : j < (headers.zip row).length := by
      rw [List.length_zip]
      omega
    rw [← List.getElem_zip (h := hzip)]
    exact List.getElem_mem hzip
  rw [cell, (Dict.find_eq_some_iff hkeys).mpr hmem, Option.getD_some, List.getD_eq_getElem?_getD,
    List.getElem?_eq_getElem hj', Option.getD_some]

/-- The metadata of a row is that of its columns. -/
theorem isFact_row {contentIdx : Nat} (hidx : headers[contentIdx]? = some "content")
    (hproto : "__proto__" ∉ headers) :
    IsFact headers row ⟨trim (row.getD contentIdx ""), rowMetadata headers contentIdx row⟩ where
  content := (cell_eq hdistinct hlength hidx).symm
  metadata key value := by
    rw [get?_rowMetadata hdistinct hproto]
    constructor
    · rintro ⟨j, hkey, hj, hvalue, hblank⟩
      refine ⟨List.mem_of_getElem? hkey, ?_, ?_, hblank⟩
      · rintro rfl
        obtain ⟨hlt, -⟩ := List.getElem?_eq_some_iff.mp hkey
        exact hj ((List.getElem?_inj hlt hdistinct).mp (hkey.trans hidx.symm))
      · rw [cell_eq hdistinct hlength hkey, hvalue]
    · rintro ⟨hmem, hne, hvalue, hblank⟩
      obtain ⟨j, hkey⟩ := List.mem_iff_getElem?.mp hmem
      refine ⟨j, hkey, ?_, ?_, hblank⟩
      · rintro rfl
        exact hne (Option.some.inj (hkey.symm.trans hidx))
      · rw [← cell_eq hdistinct hlength hkey, hvalue]

end Rows

/-! ## The whole file -/

section File

variable {toLowerCase : String → String} (T : Table toLowerCase)

/-- The mark is taken off, and no text of records begins with one. -/
theorem stripBom_encode (bom final : Bool) (ends : Nat → LineEnd) :
    stripBom (encode T bom final ends).toList = encodeRecords final ends (T.headers :: T.rows) := by
  rw [encode, String.toList_ofList, stripBom]
  cases bom with
  | true => simp
  | false =>
    have hne : T.headers ≠ [] := List.ne_nil_of_mem T.content
    have hhead : (encodeRecords final ends (T.headers :: T.rows)).head? = some '"' := by
      cases T.rows with
      | nil => exact head?_encodeRecord hne _
      | cons row rows => exact head?_encodeRecord hne _
    simp only [Bool.false_eq_true, if_false, List.nil_append]
    rw [hhead, if_neg (by decide)]

theorem splitLogicalLines_encode (bom final : Bool) (ends : Nat → LineEnd) :
    splitLogicalLines (stripBom (encode T bom final ends).toList) =
      encodeRecord T.headers :: T.rows.map encodeRecord := by
  have hne : T.headers ≠ [] := List.ne_nil_of_mem T.content
  rw [stripBom_encode, splitLogicalLines, splitFrom_encodeRecords, List.map_cons]
  refine List.forall_mem_cons.mpr ⟨hne, fun row hrow hnil => hne ?_⟩
  have hlength := T.complete row hrow
  rw [hnil] at hlength
  exact List.eq_nil_of_length_eq_zero hlength.symm

/-- The headers are read as they are. -/
theorem headers_encode :
    (parseCsvLine (encodeRecord T.headers)).map (fun h => toLowerCase (trim h)) = T.headers := by
  rw [parseCsvLine_encodeRecord (List.ne_nil_of_mem T.content)]
  conv_rhs => rw [← List.map_id T.headers]
  refine List.map_congr_left fun h hmem => ?_
  obtain ⟨htrim, hlower⟩ := T.normal h hmem
  rw [htrim, hlower, id_eq]

/-- A line that begins with a quote is not blank. -/
theorem trim_encodeRecord {record : List String} (h : record ≠ []) :
    trim (String.ofList (encodeRecord record)) ≠ "" := by
  have hhead := head?_encodeRecord h []
  rw [List.append_nil] at hhead
  obtain ⟨rest, hrest⟩ := List.head?_eq_some_iff.mp hhead
  rw [hrest, trim, String.toList_ofList, List.dropWhile_cons_of_neg (by decide)]
  intro hblank
  have hnil := congrArg String.toList hblank
  rw [String.toList_ofList, String.toList_empty, List.reverse_eq_nil_iff,
    List.dropWhile_eq_nil_iff] at hnil
  exact absurd (hnil '"' (by simp)) (by decide)

/-- A row with content becomes its fact, and any other nothing. -/
theorem parseRow_encodeRecord {contentIdx : Nat} (hidx : T.headers[contentIdx]? = some "content")
    {row : List String} (hrow : row ∈ T.rows) :
    (cell T.headers row "content" = "" ∧
      parseRow T.headers contentIdx (encodeRecord row) = none) ∨
    cell T.headers row "content" ≠ "" ∧
      ∃ fact, parseRow T.headers contentIdx (encodeRecord row) = some fact ∧
        IsFact T.headers row fact := by
  have hlength := T.complete row hrow
  have hne : row ≠ [] := by
    intro hnil
    rw [hnil] at hlength
    exact List.ne_nil_of_mem T.content (List.eq_nil_of_length_eq_zero hlength.symm)
  have hfact := isFact_row T.distinct hlength hidx T.noProto
  rw [parseRow, if_neg (trim_encodeRecord hne), parseCsvLine_encodeRecord hne,
    cell_eq T.distinct hlength hidx]
  dsimp only
  by_cases hblank : trim (row.getD contentIdx "") = ""
  · exact .inl ⟨hblank, if_pos hblank⟩
  · exact .inr ⟨hblank, _, if_neg hblank, hfact⟩

/-- The rows with content, in their order. -/
theorem facts_encode {contentIdx : Nat} (hidx : T.headers[contentIdx]? = some "content") :
    ∀ {rows : List (List String)}, rows ⊆ T.rows →
      List.Forall₂ (IsFact T.headers) (rows.filter fun row => cell T.headers row "content" ≠ "")
        ((rows.map encodeRecord).filterMap (parseRow T.headers contentIdx))
  | [], _ => .nil
  | row :: rows, h => by
    obtain ⟨hrow, hrows⟩ := List.cons_subset.mp h
    have ih := facts_encode hidx hrows
    rw [List.map_cons, List.filterMap_cons]
    rcases parseRow_encodeRecord T hidx hrow with ⟨hblank, hnone⟩ | ⟨hcontent, fact, hsome, hfact⟩
    · rw [hnone, List.filter_cons_of_neg (by simpa using hblank)]
      exact ih
    · rw [hsome, List.filter_cons_of_pos (by simpa using hcontent)]
      exact .cons hfact ih

/-- **The round trip.** Every table is read back from each of its texts: the headers, and in their
order the rows with content as facts.

The facts hold the trimmed cells, for the parser trims. A row without content is no fact, and an
empty cell no property. -/
theorem parse_encode (bom final : Bool) (ends : Nat → LineEnd) :
    ∃ rows, parseCatalogCsv toLowerCase (encode T bom final ends) = .ok ⟨T.headers, rows⟩ ∧
      List.Forall₂ (IsFact T.headers)
        (T.rows.filter fun row => cell T.headers row "content" ≠ "") rows := by
  obtain ⟨contentIdx, hcontent⟩ := Option.isSome_iff_exists.mp (List.isSome_idxOf?.mpr T.content)
  have hidx : T.headers[contentIdx]? = some "content" := by
    obtain ⟨hlt, hget, -⟩ := List.idxOf?_eq_some_iff.mp hcontent
    rw [List.getElem?_eq_getElem hlt, hget]
  have hfacts := facts_encode T hidx (List.Subset.refl T.rows)
  refine ⟨_, ?_, hfacts⟩
  have hrows : ((T.rows.map encodeRecord).filterMap (parseRow T.headers contentIdx)).isEmpty =
      false := by
    obtain ⟨row, hrow, hfilled⟩ := T.filled
    have hlength := hfacts.length_eq
    rw [List.isEmpty_eq_false_iff, ← List.length_pos_iff, ← hlength, List.length_pos_iff]
    exact List.ne_nil_of_mem (List.mem_filter.mpr ⟨hrow, by simpa using hfilled⟩)
  rw [parseCatalogCsv, splitLogicalLines_encode]
  dsimp only
  rw [headers_encode, hcontent]
  dsimp only
  rw [hrows, if_neg Bool.false_ne_true]

end File

/-- A catalog of two rows, one with a comma, quotes and a line end in its content. -/
def shoes : Table fun s => String.ofList (s.toList.map Char.toLower) where
  headers := ["content", "price"]
  rows := [["Shoes, \"red\"\nsize 42", " 100 "], ["", "5"]]
  distinct := by decide
  normal := by decide
  content := by decide
  noProto := by decide
  complete := by decide
  filled := by decide

theorem parse_encode_shoes : ∃ rows,
    parseCatalogCsv (fun s => String.ofList (s.toList.map Char.toLower))
      (encode shoes true false fun _ => .crlf) = .ok ⟨["content", "price"], rows⟩ ∧
      List.Forall₂ (IsFact ["content", "price"])
        (shoes.rows.filter fun row => cell shoes.headers row "content" ≠ "") rows :=
  parse_encode shoes true false fun _ => .crlf

end Wapsell.Dashboard
