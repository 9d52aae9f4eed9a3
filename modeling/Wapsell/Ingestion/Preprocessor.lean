import Wapsell.Ingestion.Hindsight

/-!
# The preprocessor

`Preprocessor.process` of `sdk/wapsell/ingestion/preprocessor.py`: a file is
routed to an extractor by its extension, and each chunk of text the
extractor answers becomes a fact. What an extractor answers on a file is an
argument, and so is what each new `Fact` draws.

A file that no extractor takes raises, and so does a failing extractor;
the worker that calls `process` decides what becomes of that. The
content of a fact is the text of its chunk as it is.

Ids and clocks are drawn for each chunk, by its number, so a run of
`process` is determined by the extractor's answer and these draws.
-/

namespace Wapsell.Ingestion

open Lib Py

/-- A `Path`, by its last component. -/
structure Path where
  parent : String
  name : String
  deriving DecidableEq, Repr

/-- `path.suffix`: from the last point on, unless that is the first character or the last. -/
def Path.suffix (path : Path) : String :=
  let ext := (path.name.toList.reverse.takeWhile (· ≠ '.')).reverse
  let stem := (path.name.toList.reverse.dropWhile (· ≠ '.')).reverse
  -- `stem` ends in the point itself
  if 1 < stem.length ∧ ext ≠ [] then String.ofList ('.' :: ext) else ""

/-- One unit of text extracted from a file. -/
structure ExtractedChunk where
  text : String
  source : String
  metadata : Dict String String := Dict.empty

/-- One file to ingest. -/
structure IngestionJob where
  tenantId : String
  path : Path
  sourceLabel : Option String := none
  deriving DecidableEq, Repr

/-- The defaults of a fresh `Fact`. -/
structure FactDraw where
  id : String
  createdAt : Datetime

/-- The extensions of `default_extractors`. -/
def defaultExtractors : List String :=
  [".csv", ".pdf", ".docx", ".mp3", ".wav", ".m4a", ".ogg", ".mp4", ".mov", ".webm", ".jpg", ".jpeg",
    ".png", ".webp"]

/-- `job.source_label or path.name`.

An empty label counts as none. -/
def sourceOf (job : IngestionJob) : String :=
  match job.sourceLabel with
  | none => job.path.name
  | some label => if label = "" then job.path.name else label

/-- The loop over the chunks, from the `i`th on. Each fact draws an id and a clock of its own. -/
def factsOf (job : IngestionJob) (draws : Nat → FactDraw) : Nat → List ExtractedChunk → List Fact
  | _, [] => []
  | i, chunk :: chunks =>
    { id := (draws i).id, tenantId := job.tenantId, source := sourceOf job, content := chunk.text
      metadata := chunk.metadata, createdAt := (draws i).createdAt } :: factsOf job draws (i + 1) chunks

/-- There is an extractor for the file. -/
def Supported (U : Unicode) (extractors : List String) (job : IngestionJob) : Prop :=
  lower U job.path.suffix ∈ extractors

instance (U : Unicode) (extractors : List String) (job : IngestionJob) :
    Decidable (Supported U extractors job) :=
  inferInstanceAs (Decidable (_ ∈ _))

/-- `process`, with what the extractor answers; the facts it answers, and the store it leaves.

Nothing is stored before the extractor has answered, so a file that fails leaves no facts behind. -/
def process (U : Unicode) (extractors : List String) (hindsight : Hindsight) (job : IngestionJob)
    (extracted : Except Exc (List ExtractedChunk)) (draws : Nat → FactDraw) :
    Except Exc (List Fact) × Hindsight :=
  if Supported U extractors job then
    match extracted with
    | .error e => (.error e, hindsight)
    | .ok chunks =>
      (.ok (factsOf job draws 0 chunks), (factsOf job draws 0 chunks).foldl Hindsight.addFact hindsight)
  else (.error (.library "UnsupportedFormatError"), hindsight)

/-- `process` answers when the file has an extractor that does. -/
theorem process_isOk_iff {U : Unicode} {extractors : List String} {job : IngestionJob}
    {extracted : Except Exc (List ExtractedChunk)} (hindsight : Hindsight) (draws : Nat → FactDraw) :
    (process U extractors hindsight job extracted draws).1.isOk = true ↔
      Supported U extractors job ∧ extracted.isOk = true := by
  unfold process
  split
  · next h => cases extracted <;> simp [h, Except.isOk, Except.toBool]
  · next h => simp [h, Except.isOk, Except.toBool]

/-- A file without text leaves the store as it was. -/
theorem process_nil {U : Unicode} {extractors : List String} {job : IngestionJob}
    (hindsight : Hindsight) (draws : Nat → FactDraw) (h : Supported U extractors job) :
    process U extractors hindsight job (.ok []) draws = (.ok [], hindsight) :=
  if_pos h

end Wapsell.Ingestion
