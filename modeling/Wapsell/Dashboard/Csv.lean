import Wapsell.Lib.Dict

/-!
# The catalog CSV

`dashboard/admin/src/lib/csv.ts`: the file is split into logical lines, each
line into columns, and the rows become facts. Both scanners keep a quote
state of their own. A string is read as its characters: no code unit of a
surrogate pair is a quote, a comma or a line end.

What the two scanners disagree on is no accident of the model: the line
splitter keeps the quotes in its lines, and the field splitter reads
them once more. `toLowerCase` is a parameter, since the headers are
compared after it and Unicode's tables are not a part of the repository.

**What this does not establish.** Other dialects, or what a spreadsheet
means by a file. The contract comment of the source is compared with the
code in the modules on round trips and blank lines.
-/

namespace Wapsell.Dashboard

open Lib

/-- What `String.prototype.trim` takes: `WhiteSpace` and `LineTerminator` of ECMAScript.

It is not Python's set: the byte order mark is in it, and the four separators below the blank are
not. -/
def isWhiteSpace (c : Char) : Bool :=
  let n := c.toNat
  (9 ≤ n && n ≤ 13) || n == 0x20 || n == 0xA0 || n == 0x1680 || (0x2000 ≤ n && n ≤ 0x200A) ||
    n == 0x2028 || n == 0x2029 || n == 0x202F || n == 0x205F || n == 0x3000 || n == 0xFEFF

/-- `String.prototype.trim`. -/
def trim (s : String) : String :=
  String.ofList ((s.toList.dropWhile isWhiteSpace).reverse.dropWhile isWhiteSpace).reverse

/-- A row of the catalog. The metadata is looked up by its keys; in what order an engine lists them
is not part of it. -/
structure CatalogFactIn where
  content : String
  metadata : Dict String String

structure ParsedCsv where
  headers : List String
  rows : List CatalogFactIn

structure CsvParseError where
  message : String
  deriving DecidableEq, Repr

/-- The byte order mark. -/
def BOM : Char := '\uFEFF'

/-- `text.replace(/^\uFEFF/, "")`.

One mark goes, and only in front. A second one belongs to the first header. -/
def stripBom (text : List Char) : List Char :=
  if text.head? = some BOM then text.tail else text

/-- What is left behind a line end: of a CRLF both characters are taken.

A carriage return alone ends a line as well. -/
def afterLineEnd (ch : Char) (rest : List Char) : List Char :=
  if ch = '\r' ∧ rest.head? = some '\n' then rest.tail else rest

theorem length_afterLineEnd (ch : Char) (rest : List Char) :
    (afterLineEnd ch rest).length ≤ rest.length := by
  unfold afterLineEnd
  split
  · rw [List.length_tail]
    exact Nat.sub_le _ _
  · exact Nat.le_refl _

/-- The loop of `splitLogicalLines`: in quotes or not, with the line read so far. A line end in
quotes is a character of the line; the last line is answered only if it has a character. -/
def splitFrom (inQuotes : Bool) (buf : List Char) : List Char → List (List Char)
  | [] => if buf = [] then [] else [buf]
  | ch :: rest =>
    if ch = '"' then
      -- a doubled quote inside a quoted field is an escape, not a delimiter
      if inQuotes && rest.head? = some '"' then splitFrom inQuotes (buf ++ ['"', '"']) rest.tail
      else splitFrom (!inQuotes) (buf ++ [ch]) rest
    else if (ch = '\n' || ch = '\r') && !inQuotes then
      buf :: splitFrom inQuotes [] (afterLineEnd ch rest)
    else splitFrom inQuotes (buf ++ [ch]) rest
termination_by text => text.length
decreasing_by
  · rw [List.length_cons, List.length_tail]
    omega
  · exact Nat.lt_succ_self _
  · exact Nat.lt_succ_of_le (length_afterLineEnd ch rest)
  · exact Nat.lt_succ_self _

def splitLogicalLines (text : List Char) : List (List Char) := splitFrom false [] text

/-- The loop of `parseCsvLine`: in quotes or not, with the column read so far. In quotes a doubled
quote is one quote; outside, a comma ends the column. -/
def parseFrom (inQuotes : Bool) (cur : List Char) : List Char → List String
  | [] => [String.ofList cur]
  | ch :: rest =>
    if ch = '"' then
      if inQuotes && rest.head? = some '"' then parseFrom inQuotes (cur ++ ['"']) rest.tail
      else parseFrom (!inQuotes) cur rest
    else if ch = ',' && !inQuotes then String.ofList cur :: parseFrom inQuotes [] rest
    else parseFrom inQuotes (cur ++ [ch]) rest
termination_by line => line.length
decreasing_by
  · rw [List.length_cons, List.length_tail]
    omega
  · exact Nat.lt_succ_self _
  · exact Nat.lt_succ_self _
  · exact Nat.lt_succ_self _

def parseCsvLine (line : List Char) : List String := parseFrom false [] line

/-- `metadata[key] = value`: the setter of `__proto__` ignores a string. -/
def assignProperty (metadata : Dict String String) (key value : String) : Dict String String :=
  if key = "__proto__" then metadata else metadata.set key value

/-- The metadata of a row: a property for every other column that is not empty.

Two columns of one name leave the later one that is not empty. -/
def rowMetadata (headers : List String) (contentIdx : Nat) (cols : List String) :
    Dict String String :=
  headers.zipIdx.foldl (fun metadata header =>
    if header.2 = contentIdx then metadata
    else
      let v := trim (cols.getD header.2 "")
      if v ≠ "" then assignProperty metadata header.1 v else metadata) Dict.empty

/-- One line behind the headers; a blank one, or one without content, is skipped. Columns the line
does not have read as empty. -/
def parseRow (headers : List String) (contentIdx : Nat) (line : List Char) : Option CatalogFactIn :=
  if trim (String.ofList line) = "" then none
  else
    let cols := parseCsvLine line
    let content := trim (cols.getD contentIdx "")
    if content = "" then none
    else some { content, metadata := rowMetadata headers contentIdx cols }

/-- `parseCatalogCsv`, with the case mapping of `toLowerCase`.

The first line is the header whatever is in it, an empty one included. -/
def parseCatalogCsv (toLowerCase : String → String) (text : String) :
    Except CsvParseError ParsedCsv :=
  match splitLogicalLines (stripBom text.toList) with
  | [] => .error ⟨"El archivo CSV está vacío."⟩
  | header :: lines =>
    let headers := (parseCsvLine header).map fun h => toLowerCase (trim h)
    match headers.idxOf? "content" with
    | none =>
      .error ⟨"El CSV debe tener una columna llamada 'content' con la descripción del producto/política."⟩
    | some contentIdx =>
      let rows := lines.filterMap (parseRow headers contentIdx)
      if rows.isEmpty then
        .error ⟨"El CSV no tiene filas con contenido. Verificá que la columna 'content' tenga texto."⟩
      else .ok { headers, rows }

end Wapsell.Dashboard
