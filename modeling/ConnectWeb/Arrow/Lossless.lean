import ConnectWeb.Arrow.Accepted

/-!
# Reassembly is lossless

Whatever a server sends for a list of IPC streams, `reassemble` returns the record batches
of the streams: the chunks of a stream, as `Carries` has them, are a batch that passes every
check.
-/

namespace ConnectWeb.Arrow

variable {Schema RecordBatch : Type} {decoder : Decoder Schema RecordBatch}

theorem IsChunk.chunkIndex_eq {stream : IpcStream decoder} {rowsBefore n i : Nat}
    {ab : ArrowBatch} (h : IsChunk stream rowsBefore n i ab) (hi : i < n) :
    chunkIndex ab = i := by
  rcases h.position with ⟨hci, -⟩ | ⟨hn, hci, -⟩
  · simp [chunkIndex, hci]
  · simp only [chunkIndex, hci, Option.getD_none]
    omega

/-- A chunk ends its batch at the last place and not before. -/
theorem IsChunk.closes_iff {stream : IpcStream decoder} {rowsBefore n i : Nat}
    {ab : ArrowBatch} (h : IsChunk stream rowsBefore n i ab) (hi : i < n) :
    Closes i ab ↔ i + 1 = n := by
  rw [Closes]
  rcases h.position with ⟨-, hn⟩ | ⟨hn, -, hnone⟩
  · simp only [numChunksInBatch, hn, Option.getD_some]
    omega
  · simp only [numChunksInBatch, hnone, Option.getD_none, true_or, true_iff]
    omega

theorem Carries.accepted {stream : IpcStream decoder} {rowsBefore : Nat}
    {abs : List ArrowBatch} (h : Carries stream rowsBefore abs) :
    Accepted rowsBefore ⟨stream, abs⟩ := by
  have hlt : ∀ i ab, abs[i]? = some ab → i < abs.length :=
    fun i ab hi ↦ (List.getElem?_eq_some_iff.mp hi).1
  refine ⟨h.nonempty, h.data, fun i ab hi ↦ ?_, fun i ab hi ↦ ?_, fun ab hl ↦ ?_⟩
  · exact ⟨(h.chunk i ab hi).chunkIndex_eq (hlt i ab hi), fun _ ↦ (h.chunk i ab hi).startOffset⟩
  · exact (h.chunk i ab hi).closes_iff (hlt i ab hi)
  · rw [List.getLast?_eq_getElem?] at hl
    exact .inr (h.chunk _ ab hl).rowCount

theorem CarriesAll.exists_inRow {rowsBefore : Nat} {streams : List (IpcStream decoder)}
    {abs : List ArrowBatch} (h : CarriesAll rowsBefore streams abs) :
    ∃ bs : List (Batch decoder), InRow Accepted rowsBefore bs ∧ bs.flatMap (·.chunks) = abs ∧
      bs.map (·.stream) = streams := by
  induction h with
  | nil rowsBefore => exact ⟨[], trivial, rfl, rfl⟩
  | @cons rowsBefore stream streams abs later head tail ih =>
      obtain ⟨bs, hbs, hflat, hstreams⟩ := ih
      refine ⟨⟨stream, abs⟩ :: bs, ⟨head.accepted, hbs⟩, ?_, ?_⟩
      · rw [List.flatMap_cons, hflat]
      · rw [List.map_cons, hstreams]

/-- Reassembly is lossless: the record batches of all the streams, in order, and the schema
of the first, for any cut into chunks and any other responses in between. -/
theorem reassemble_lossless (streams : List (IpcStream decoder)) (responses : List Response)
    (h : CarriesAll 0 streams (responses.filterMap (·.arrowBatch))) :
    reassemble decoder responses =
      .ok (streams.flatMap (·.batches), streams.head?.map (·.schema)) := by
  obtain ⟨bs, hbs, hflat, rfl⟩ := h.exists_inRow
  refine reassemble_eq_ok_iff.mpr ⟨bs, hbs, hflat, ?_⟩
  rw [List.flatMap_map, List.head?_map, Option.map_map]
  rfl

/-! ## A stream in two chunks -/

/-- A decoder for streams of one column of bytes: every byte is a row. -/
def byteDecoder : Decoder Unit Bytes where
  openStream := fun bytes ↦ .ok { schema := (), batches := [bytes] }
  numRows := List.length

/-- Three rows in two chunks with a progress response between them, then a row that is not cut. -/
theorem reassemble_lossless_two_chunks :
    let chunk := fun (i : Int) (data : Bytes) ↦
      ({ rowCount := 3, data, chunkIndex := some i, numChunksInBatch := some 2 } : ArrowBatch)
    let whole : ArrowBatch := { rowCount := 1, data := [4], startOffset := some 3 }
    reassemble byteDecoder [⟨some (chunk 0 [1, 2])⟩, ⟨none⟩, ⟨some (chunk 1 [3])⟩, ⟨some whole⟩] =
      .ok ([[1, 2, 3], [4]], some ()) := by
  intro chunk whole
  let first : IpcStream byteDecoder := ⟨[1, 2, 3], (), [[1, 2, 3]], rfl⟩
  let second : IpcStream byteDecoder := ⟨[4], (), [[4]], rfl⟩
  have hfirst : Carries first 0 [chunk 0 [1, 2], chunk 1 [3]] := by
    refine ⟨by simp, by decide, fun i ab hi ↦ ?_⟩
    match i with
    | 0 | 1 =>
        cases hi
        exact ⟨rfl, .inl rfl, .inl ⟨rfl, rfl⟩⟩
  have hsecond : Carries second 3 [whole] := by
    refine ⟨by simp, by decide, fun i ab hi ↦ ?_⟩
    match i with
    | 0 =>
        cases hi
        exact ⟨rfl, .inr rfl, .inr ⟨rfl, rfl, rfl⟩⟩
  exact reassemble_lossless [first, second] _ (.cons hfirst (.cons hsecond (.nil _)))

end ConnectWeb.Arrow
