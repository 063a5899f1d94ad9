import ConnectWeb.Foundation.Utf8

/-!
# Reassembling Arrow results (`arrow/results.py`)

A query result arrives as a sequence of responses, some of which carry an `ArrowBatch`:
either a whole Arrow IPC stream, or one chunk of a stream that was too large for one
message.  `reassemble` walks the responses once, joins the chunks and decodes each joined
stream.  The IPC decoder itself is a parameter.
-/

namespace ConnectWeb.Arrow

/-- What `_reassemble` raises. -/
inductive Exc where
  /-- `ValueError` -/
  | value (message : String)
  /-- What the IPC decoder raises. -/
  | decoder (message : String)
deriving DecidableEq, Repr

/-- The `ArrowBatch` message.  A `proto3 optional` field is `none` when it is not set,
which is also how a field that the installed proto does not have reads. -/
structure ArrowBatch where
  rowCount : Int := 0
  data : Bytes
  startOffset : Option Int := none
  chunkIndex : Option Int := none
  numChunksInBatch : Option Int := none
deriving DecidableEq, Repr

/-- The `ExecutePlanResponse` message, as far as reassembly reads it. -/
structure Response where
  arrowBatch : Option ArrowBatch := none
deriving DecidableEq, Repr

/-- What iterating an open IPC reader comes to: its schema, the record batches it yields,
and what it raises behind them. -/
structure Reader (Schema RecordBatch : Type) where
  schema : Schema
  batches : List RecordBatch
  failure : Option String := none

/-- The part of pyarrow that reassembly uses. -/
structure Decoder (Schema RecordBatch : Type) where
  /-- `pa.ipc.open_stream` -/
  openStream : Bytes → Except String (Reader Schema RecordBatch)
  /-- `RecordBatch.num_rows` -/
  numRows : RecordBatch → Nat

/-! ## The fields of a batch -/

def chunkIndex (ab : ArrowBatch) : Int := ab.chunkIndex.getD 0

def numChunksInBatch (ab : ArrowBatch) : Int := ab.numChunksInBatch.getD 0

/-- `int(getattr(ab, "row_count", rows_in_batch) or rows_in_batch)` -/
def declaredRows (ab : ArrowBatch) (rowsInBatch : Nat) : Int :=
  if ab.rowCount = 0 then rowsInBatch else ab.rowCount

/-! ## The loop -/

section Loop

variable {Schema RecordBatch : Type} (decoder : Decoder Schema RecordBatch)

/-- The locals of `_reassemble`. -/
structure State (Schema RecordBatch : Type) where
  batches : List RecordBatch := []
  schema : Option Schema := none
  /-- The chunks of the unfinished batch, in `chunk_index` order. -/
  pending : List Bytes := []
  /-- The rows of all completed batches. -/
  numRecords : Nat := 0

/-- The checks on the chunk that comes next. -/
def checkChunk (s : State Schema RecordBatch) (ab : ArrowBatch) : Except Exc Unit :=
  if s.pending ≠ [] then
    if chunkIndex ab ≠ s.pending.length then
      .error (.value s!"Out-of-order arrow chunk: expected chunk_index {s.pending.length} but got {chunkIndex ab}.")
    else .ok ()
  else if chunkIndex ab ≠ 0 then
    .error (.value s!"Expected chunk_index 0 at the start of an arrow batch but got {chunkIndex ab}.")
  else
    match ab.startOffset with
    | none => .ok ()
    | some offset =>
        if offset ≠ s.numRecords then
          .error (.value s!"Arrow batch row-offset gap: expected batch to start at row {s.numRecords} but server reported start_offset {offset}.")
        else .ok ()

/-- Decode a complete batch whose joined bytes are `ipcBytes`; `ab` is its last chunk. -/
def decodeBatch (s : State Schema RecordBatch) (ab : ArrowBatch) (ipcBytes : Bytes) :
    Except Exc (State Schema RecordBatch) :=
  match decoder.openStream ipcBytes with
  | .error e => .error (.decoder e)
  | .ok reader =>
      match reader.failure with
      | some e => .error (.decoder e)
      | none =>
          let rowsInBatch := (reader.batches.map decoder.numRows).sum
          let declared := declaredRows ab rowsInBatch
          if declared ≠ rowsInBatch then
            .error (.value s!"Arrow batch row-count mismatch: server declared {declared} rows but the IPC stream decoded to {rowsInBatch}.")
          else
            .ok {
              batches := s.batches ++ reader.batches
              schema := s.schema.or (some reader.schema)
              pending := []
              numRecords := s.numRecords + rowsInBatch }

/-- The loop body on a response that carries a batch. -/
def stepBatch (s : State Schema RecordBatch) (ab : ArrowBatch) :
    Except Exc (State Schema RecordBatch) := do
  checkChunk s ab
  let pending := s.pending ++ [ab.data]
  let numChunks := numChunksInBatch ab
  if numChunks = 0 ∨ (pending.length : Int) = numChunks then
    decodeBatch decoder s ab pending.flatten
  else .ok { s with pending }

/-- The loop body. -/
def step (s : State Schema RecordBatch) (resp : Response) :
    Except Exc (State Schema RecordBatch) :=
  match resp.arrowBatch with
  | none => .ok s
  | some ab => stepBatch decoder s ab

/-- `_reassemble` -/
def reassemble (responses : List Response) :
    Except Exc (List RecordBatch × Option Schema) := do
  let s ← responses.foldlM (step decoder) {}
  if s.pending ≠ [] then
    .error (.value s!"Truncated arrow result: response stream ended in the middle of a chunked batch ({s.pending.length} chunk(s) buffered, batch never completed).")
  else .ok (s.batches, s.schema)

/-- `reassemble_record_batches` -/
def reassembleRecordBatches (responses : List Response) : Except Exc (List RecordBatch) :=
  (reassemble decoder responses).map Prod.fst

/-- Only the responses that carry a batch matter. -/
theorem foldlM_step (responses : List Response) (s : State Schema RecordBatch) :
    responses.foldlM (step decoder) s =
      (responses.filterMap (·.arrowBatch)).foldlM (stepBatch decoder) s := by
  induction responses generalizing s with
  | nil => rfl
  | cons resp responses ih =>
      rcases h : resp.arrowBatch with _ | ab
      · rw [List.foldlM_cons, step, h, List.filterMap_cons_none h]
        exact ih s
      · rw [List.foldlM_cons, step, h, List.filterMap_cons_some h, List.foldlM_cons]
        simp only [ih]

end Loop

/-! ## What a server sends -/

section Sending

variable {Schema RecordBatch : Type} (decoder : Decoder Schema RecordBatch)

/-- An Arrow IPC stream: bytes the decoder reads to the end. -/
structure IpcStream where
  bytes : Bytes
  schema : Schema
  batches : List RecordBatch
  opens : decoder.openStream bytes = .ok { schema, batches }

variable {decoder}

/-- The rows a stream decodes to. -/
def IpcStream.rows (stream : IpcStream decoder) : Nat :=
  (stream.batches.map decoder.numRows).sum

/-- `ab` is chunk `i` of `n` of a stream that starts behind `rowsBefore` rows. -/
structure IsChunk (stream : IpcStream decoder) (rowsBefore n i : Nat) (ab : ArrowBatch) :
    Prop where
  rowCount : ab.rowCount = stream.rows
  startOffset : ab.startOffset = none ∨ ab.startOffset = some (rowsBefore : Int)
  /-- The chunk fields may be left out when the stream is one chunk. -/
  position : (ab.chunkIndex = some (i : Int) ∧ ab.numChunksInBatch = some (n : Int)) ∨
    (n = 1 ∧ ab.chunkIndex = none ∧ ab.numChunksInBatch = none)

/-- `abs` carries a stream, cut into one or more fragments. -/
structure Carries (stream : IpcStream decoder) (rowsBefore : Nat) (abs : List ArrowBatch) :
    Prop where
  nonempty : abs ≠ []
  data : (abs.map (·.data)).flatten = stream.bytes
  chunk : ∀ i ab, abs[i]? = some ab → IsChunk stream rowsBefore abs.length i ab

/-- `abs` carries the streams one after the other. -/
inductive CarriesAll : Nat → List (IpcStream decoder) → List ArrowBatch → Prop
  | nil (rowsBefore : Nat) : CarriesAll rowsBefore [] []
  | cons {rowsBefore : Nat} {stream : IpcStream decoder} {streams : List (IpcStream decoder)}
      {abs later : List ArrowBatch} (head : Carries stream rowsBefore abs)
      (tail : CarriesAll (rowsBefore + stream.rows) streams later) :
      CarriesAll rowsBefore (stream :: streams) (abs ++ later)

end Sending

end ConnectWeb.Arrow
