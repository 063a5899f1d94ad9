import ConnectWeb.Arrow.Integrity

/-!
# Lost, repeated and reordered responses

A stream in which every field is set is edited: responses are dropped, repeated or put in
another order.  Whole batches of the stream come out at their place or not at all, since the
start offset of the first chunk says where they belong.  The start offsets of the other
chunks are not looked at, so chunks of different batches may be put together.
-/

namespace ConnectWeb.Arrow

variable {Schema RecordBatch Row : Type} {decoder : Decoder Schema RecordBatch}

/-- The rows of a record batch: as many as `RecordBatch.num_rows` says. -/
structure Rows (decoder : Decoder Schema RecordBatch) (Row : Type) where
  ofBatch : RecordBatch → List Row
  length_ofBatch : ∀ rb, (ofBatch rb).length = decoder.numRows rb

/-- The rows of record batches, in order. -/
def Rows.ofBatches (rows : Rows decoder Row) (batches : List RecordBatch) : List Row :=
  batches.flatMap rows.ofBatch

/-- What a server sends for one stream, with every field set. -/
structure Sent (rowsBefore : Nat) (b : Batch decoder) : Prop where
  carries : Carries b.stream rowsBefore b.chunks
  explicit : ∀ ab ∈ b.chunks,
    ab.startOffset ≠ none ∧ ab.chunkIndex ≠ none ∧ ab.numChunksInBatch ≠ none

/-- A well-formed response stream with every field set, and what it carries. -/
structure Stream (decoder : Decoder Schema RecordBatch) where
  responses : List Response
  batches : List (Batch decoder)
  sent : InRow Sent 0 batches
  carried : batches.flatMap (·.chunks) = responses.filterMap (·.arrowBatch)

/-- The responses of a stream, some dropped, some repeated, in any order. -/
structure Edit (stream : Stream decoder) where
  responses : List Response
  subset : responses ⊆ stream.responses

/-- What reassembly returns for the edit has a prefix of the rows it returns for the stream. -/
def Edit.Harmless {stream : Stream decoder} (edit : Edit stream) (rows : Rows decoder Row) :
    Prop :=
  ∃ whole, reassemble decoder stream.responses = .ok whole ∧
    ∀ result, reassemble decoder edit.responses = .ok result →
      rows.ofBatches result.1 <+: rows.ofBatches whole.1

/-- The number of rows of some batches. -/
def rowsIn (bs : List (Batch decoder)) : Nat := (bs.map (·.stream.rows)).sum

/-- The chunks are not all of one batch of the stream. -/
def Stream.Mixes (stream : Stream decoder) (b : Batch decoder) : Prop :=
  ∀ b₀ ∈ stream.batches, ¬b.chunks ⊆ b₀.chunks

/-- The groups of the edit pass every check of the code, and one of them is put together from
different batches and does not decode to the rows that the stream has at its place. -/
def Edit.Corrupts {stream : Stream decoder} (edit : Edit stream) (rows : Rows decoder Row) :
    Prop :=
  ∃ (front : List (Batch decoder)) (b : Batch decoder) (later : List (Batch decoder)),
    InRow Accepted 0 (front ++ b :: later) ∧
      (front ++ b :: later).flatMap (·.chunks) = edit.responses.filterMap (·.arrowBatch) ∧
      stream.Mixes b ∧
      ¬rows.ofBatches b.stream.batches <+:
        (rows.ofBatches (stream.batches.flatMap (·.stream.batches))).drop (rowsIn front)

/-! ## Rows -/

theorem Rows.ofBatches_append (rows : Rows decoder Row) (l l' : List RecordBatch) :
    rows.ofBatches (l ++ l') = rows.ofBatches l ++ rows.ofBatches l' :=
  List.flatMap_append

theorem Rows.length_ofBatches (rows : Rows decoder Row) (l : List RecordBatch) :
    (rows.ofBatches l).length = (l.map decoder.numRows).sum := by
  rw [ofBatches, List.length_flatMap]
  simp only [rows.length_ofBatch]

theorem Rows.length_flatMap (rows : Rows decoder Row) (bs : List (Batch decoder)) :
    (rows.ofBatches (bs.flatMap (·.stream.batches))).length = rowsIn bs := by
  induction bs with
  | nil => rfl
  | cons b bs ih =>
      rw [List.flatMap_cons, ofBatches_append, List.length_append, ih, length_ofBatches, rowsIn,
        rowsIn, List.map_cons, List.sum_cons, IpcStream.rows]

theorem prefix_append {l l' total : List Row} (h : l <+: total)
    (h' : l' <+: total.drop l.length) : l ++ l' <+: total := by
  obtain ⟨rest, rfl⟩ := h
  rw [List.drop_left] at h'
  exact (List.prefix_append_right_inj l).mpr h'

/-! ## Places -/

theorem InRow.append_iff {P : Nat → Batch decoder → Prop} {front later : List (Batch decoder)}
    {rowsBefore : Nat} :
    InRow P rowsBefore (front ++ later) ↔
      InRow P rowsBefore front ∧ InRow P (rowsBefore + rowsIn front) later := by
  induction front generalizing rowsBefore with
  | nil => simp [InRow, rowsIn]
  | cons b front ih =>
      have hsum : rowsBefore + rowsIn (b :: front) =
          rowsBefore + b.stream.rows + rowsIn front := by
        rw [rowsIn, List.map_cons, List.sum_cons, ← rowsIn, Nat.add_assoc]
      rw [List.cons_append, InRow, InRow, ih, and_assoc, hsum]

/-- A batch of the stream, and the rows that the stream has at its place. -/
theorem Stream.sent_of_mem (stream : Stream decoder) (rows : Rows decoder Row)
    {b : Batch decoder} (hb : b ∈ stream.batches) :
    ∃ rowsBefore, Sent rowsBefore b ∧ rows.ofBatches b.stream.batches <+:
      (rows.ofBatches (stream.batches.flatMap (·.stream.batches))).drop rowsBefore := by
  obtain ⟨front, later, hsplit⟩ := List.append_of_mem hb
  have hsent := stream.sent
  rw [hsplit, InRow.append_iff, Nat.zero_add] at hsent
  refine ⟨rowsIn front, hsent.2.1, ?_⟩
  rw [hsplit, List.flatMap_append, rows.ofBatches_append, ← rows.length_flatMap front,
    List.drop_left, List.flatMap_cons, rows.ofBatches_append]
  exact List.prefix_append _ _

/-- With its index set, a chunk says where in its batch it is. -/
theorem Sent.getElem?_eq {rowsBefore : Nat} {b : Batch decoder} (h : Sent rowsBefore b)
    {ab : ArrowBatch} (hab : ab ∈ b.chunks) {i : Nat} (hi : chunkIndex ab = i) :
    b.chunks[i]? = some ab := by
  obtain ⟨j, hj⟩ := List.mem_iff_getElem?.mp hab
  have hindex := (h.carries.chunk j ab hj).chunkIndex_eq (List.getElem?_eq_some_iff.mp hj).1
  obtain rfl : i = j := by omega
  exact hj

/-- A group whose chunks are all of one batch is that batch. -/
theorem Sent.chunks_eq {rowsBefore rowsBefore' : Nat} {b₀ b : Batch decoder}
    (h₀ : Sent rowsBefore b₀) (h : Accepted rowsBefore' b) (hsub : b.chunks ⊆ b₀.chunks) :
    b.chunks = b₀.chunks := by
  have hget : ∀ (i : Nat) ab, b.chunks[i]? = some ab → b₀.chunks[i]? = some ab :=
    fun i ab hi ↦ h₀.getElem?_eq (hsub (List.mem_of_getElem? hi)) (h.follows i ab hi).index
  have hpos : 0 < b.chunks.length := List.length_pos_iff.mpr h.nonempty
  -- the last chunk of the group ends the batch it is of
  obtain ⟨last, hlast⟩ : ∃ last, b.chunks[b.chunks.length - 1]? = some last :=
    ⟨_, List.getElem?_eq_getElem (by omega)⟩
  have hcloses : Closes (b.chunks.length - 1) last := (h.closes _ _ hlast).mpr (by omega)
  have hlen := (h₀.carries.accepted.closes _ _ (hget _ _ hlast)).mp hcloses
  refine List.ext_getElem? fun i ↦ ?_
  rcases hi : b.chunks[i]? with _ | ab
  · have := List.getElem?_eq_none_iff.mp hi
    rw [List.getElem?_eq_none]
    simp only at hlen
    omega
  · exact (hget i ab hi).symm

/-- A group that does not mix batches decodes to the rows that the stream has at its place. -/
theorem Stream.prefix_of_not_mixes (stream : Stream decoder) (rows : Rows decoder Row)
    {b : Batch decoder} {rowsBefore : Nat} (h : Accepted rowsBefore b)
    (hb : ¬stream.Mixes b) :
    rows.ofBatches b.stream.batches <+:
      (rows.ofBatches (stream.batches.flatMap (·.stream.batches))).drop rowsBefore := by
  simp only [Mixes, not_forall, not_not] at hb
  obtain ⟨b₀, hmem, hsub⟩ := hb
  obtain ⟨rowsBefore₀, hsent, hprefix⟩ := stream.sent_of_mem rows hmem
  have hchunks := hsent.chunks_eq h hsub
  have hstream : b.stream = b₀.stream :=
    IpcStream.eq_of_bytes (by rw [← h.data, ← hsent.carries.data, hchunks])
  -- the start offset of the first chunk says where the batch belongs
  obtain ⟨first, hfirst⟩ : ∃ first, b.chunks[0]? = some first :=
    ⟨_, List.getElem?_eq_getElem (List.length_pos_iff.mpr h.nonempty)⟩
  have hoffset : first.startOffset = some (rowsBefore₀ : Int) :=
    (hsent.carries.chunk 0 first (hchunks ▸ hfirst)).startOffset.resolve_left
      (hsent.explicit first (hchunks ▸ List.mem_of_getElem? hfirst)).1
  have hplace : rowsBefore = rowsBefore₀ := by
    rcases (h.follows 0 first hfirst).offset rfl with hnone | hsome
    · rw [hoffset] at hnone
      cases hnone
    · rw [hoffset, Option.some.injEq] at hsome
      omega
  rw [hstream, hplace]
  exact hprefix

/-! ## The rows of an edit -/

/-- Groups that each decode to the rows at their place decode to the rows from the first place
on. -/
theorem prefix_of_places (rows : Rows decoder Row) (total : List Row)
    (bs : List (Batch decoder)) (rowsBefore : Nat)
    (h : ∀ front b later, bs = front ++ b :: later →
      rows.ofBatches b.stream.batches <+: total.drop (rowsBefore + rowsIn front)) :
    rows.ofBatches (bs.flatMap (·.stream.batches)) <+: total.drop rowsBefore := by
  induction bs generalizing rowsBefore with
  | nil => exact List.nil_prefix
  | cons b bs ih =>
      rw [List.flatMap_cons, rows.ofBatches_append]
      refine prefix_append (h [] b bs rfl) ?_
      rw [List.drop_drop, rows.length_ofBatches]
      refine ih _ fun front b' later hsplit ↦ ?_
      have := h (b :: front) b' later (by rw [hsplit, List.cons_append])
      rw [rowsIn, List.map_cons, List.sum_cons, ← rowsIn, ← Nat.add_assoc] at this
      exact this

theorem Stream.reassemble_eq (stream : Stream decoder) :
    reassemble decoder stream.responses =
      .ok (stream.batches.flatMap (·.stream.batches), stream.batches.head?.map (·.stream.schema)) :=
  reassemble_eq_ok_iff.mpr
    ⟨stream.batches, stream.sent.mono fun _ _ h ↦ h.carries.accepted, stream.carried, rfl⟩

/-- An edit is harmless unless it gets a mixture of batches past the checks. -/
theorem Edit.harmless_iff {stream : Stream decoder} (edit : Edit stream)
    (rows : Rows decoder Row) : edit.Harmless rows ↔ ¬edit.Corrupts rows := by
  constructor
  · rintro ⟨whole, hwhole, hprefix⟩ ⟨front, b, later, hbs, hflat, -, hrows⟩
    rw [stream.reassemble_eq, Except.ok.injEq] at hwhole
    have := hprefix _ (reassemble_eq_ok_iff.mpr ⟨_, hbs, hflat, rfl⟩)
    rw [← hwhole] at this
    simp only [List.flatMap_append, List.flatMap_cons, rows.ofBatches_append] at this
    obtain ⟨rest, hrest⟩ := this
    refine hrows ⟨rows.ofBatches (later.flatMap (·.stream.batches)) ++ rest, ?_⟩
    rw [← hrest, ← rows.length_flatMap front, List.append_assoc, List.drop_left,
      List.append_assoc]
  · intro hcorrupts
    refine ⟨_, stream.reassemble_eq, fun result hresult ↦ ?_⟩
    obtain ⟨bs, hbs, hflat, rfl⟩ := reassemble_eq_ok_iff.mp hresult
    have := prefix_of_places rows (rows.ofBatches (stream.batches.flatMap (·.stream.batches)))
      bs 0 ?_
    · exact this
    · rintro front b later rfl
      have haccepted := (InRow.append_iff.mp hbs).2.1
      rw [Nat.zero_add] at haccepted ⊢
      by_cases hmix : stream.Mixes b
      · by_contra hne
        exact hcorrupts ⟨front, b, later, hbs, hflat, hmix, hne⟩
      · exact stream.prefix_of_not_mixes rows haccepted hmix

/-! ## Two batches with their chunks mixed -/

/-- Chunk `i` of two chunks of a batch of two rows that starts at `startOffset`. -/
def halfOf (startOffset i : Int) (data : Bytes) : ArrowBatch :=
  { rowCount := 2, data, startOffset := some startOffset, chunkIndex := some i,
    numChunksInBatch := some 2 }

/-- The batch of two rows behind `rowsBefore` rows, in two chunks. -/
def twoRows (rowsBefore : Nat) (first second : UInt8) : Batch byteDecoder where
  stream := ⟨[first, second], (), [[first, second]], rfl⟩
  chunks := [halfOf rowsBefore 0 [first], halfOf rowsBefore 1 [second]]

theorem sent_twoRows (rowsBefore : Nat) (first second : UInt8) :
    Sent rowsBefore (twoRows rowsBefore first second) := by
  refine ⟨⟨by simp [twoRows], rfl, fun i ab hi ↦ ?_⟩, fun ab hab ↦ ?_⟩
  · match i with
    | 0 | 1 =>
        cases hi
        exact ⟨rfl, .inr rfl, .inl ⟨rfl, rfl⟩⟩
  · rcases List.mem_pair.mp hab with rfl | rfl <;> exact ⟨nofun, nofun, nofun⟩

/-- The rows 1, 2, 3, 4 in two batches of two chunks. -/
def fourRows : Stream byteDecoder where
  responses := ([twoRows 0 1 2, twoRows 2 3 4].flatMap (·.chunks)).map (⟨some ·⟩)
  batches := [twoRows 0 1 2, twoRows 2 3 4]
  sent := ⟨sent_twoRows 0 1 2, sent_twoRows 2 3 4, trivial⟩
  carried := rfl

/-- With the second chunk of the first batch and the first of the second lost, the rows that
come out are 1 and 4. -/
theorem not_harmless_mixed :
    ∃ edit : Edit fourRows, edit.responses = [⟨some (halfOf 0 0 [1])⟩, ⟨some (halfOf 2 1 [4])⟩] ∧
      ¬edit.Harmless (⟨id, fun _ ↦ rfl⟩ : Rows byteDecoder UInt8) := by
  refine ⟨⟨_, by decide⟩, rfl, ?_⟩
  rintro ⟨whole, hwhole, hprefix⟩
  have hmixed := hprefix ([[1, 4]], some ()) rfl
  rw [fourRows.reassemble_eq, Except.ok.injEq] at hwhole
  rw [← hwhole] at hmixed
  revert hmixed
  decide

end ConnectWeb.Arrow
