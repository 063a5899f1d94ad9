import ConnectWeb.Arrow.Results

/-!
# What reassembly accepts

A run of `reassemble` that returns has split the batches it was handed into consecutive
groups of chunks.  `Accepted` says what was checked of one group, and
`reassemble_eq_ok_iff` that these checks are all: the run returns exactly when the batches
split into accepted groups, and then it returns what the groups decode to.
-/

namespace ConnectWeb.Arrow

variable {Schema RecordBatch : Type} {decoder : Decoder Schema RecordBatch}

/-! ## One chunk -/

/-- `ab` ends its batch when it comes behind `i` chunks. -/
def Closes (i : Nat) (ab : ArrowBatch) : Prop :=
  numChunksInBatch ab = 0 ∨ numChunksInBatch ab = (i + 1 : Nat)

instance (i : Nat) (ab : ArrowBatch) : Decidable (Closes i ab) :=
  inferInstanceAs (Decidable (_ ∨ _))

/-- The start offset of a chunk is left out or is the number of rows before its batch. -/
def StartsAt (rowsBefore : Nat) (ab : ArrowBatch) : Prop :=
  ab.startOffset = none ∨ ab.startOffset = some (rowsBefore : Int)

/-- `ab` may come behind `i` chunks of a batch.  The start offset counts at the first chunk
only. -/
structure Follows (rowsBefore i : Nat) (ab : ArrowBatch) : Prop where
  index : chunkIndex ab = i
  offset : i = 0 → StartsAt rowsBefore ab

/-- The row count `ab` declares is that of the stream, or zero. -/
def RowsAgree (stream : IpcStream decoder) (ab : ArrowBatch) : Prop :=
  ab.rowCount = 0 ∨ ab.rowCount = stream.rows

theorem RowsAgree.iff_declaredRows {stream : IpcStream decoder} {ab : ArrowBatch} :
    RowsAgree stream ab ↔ declaredRows ab stream.rows = stream.rows := by
  rw [RowsAgree, declaredRows]
  split <;> simp_all

theorem checkChunk_eq_ok_iff {s : State Schema RecordBatch} {ab : ArrowBatch} :
    checkChunk s ab = .ok () ↔ Follows s.numRecords s.pending.length ab := by
  rw [checkChunk]
  by_cases hp : s.pending = []
  · have hiff : Follows s.numRecords s.pending.length ab ↔
        chunkIndex ab = 0 ∧ StartsAt s.numRecords ab := by
      rw [hp]
      exact ⟨fun h ↦ ⟨h.index, h.offset rfl⟩, fun h ↦ ⟨h.1, fun _ ↦ h.2⟩⟩
    rw [hiff, if_neg (not_not.mpr hp)]
    by_cases hi : chunkIndex ab = 0
    · rw [if_neg (not_not.mpr hi)]
      rcases ho : ab.startOffset with _ | offset
      · simp [hi, StartsAt, ho]
      · by_cases he : offset = s.numRecords <;> simp [hi, StartsAt, ho, he]
    · simp [hi]
  · have hpos : s.pending.length ≠ 0 := by simpa using hp
    rw [if_pos hp]
    by_cases hi : chunkIndex ab = s.pending.length
    · simp only [hi, ne_eq, not_true_eq_false, if_false, true_iff]
      exact ⟨hi, fun h ↦ absurd h hpos⟩
    · simp only [ne_eq, hi, not_false_eq_true, if_true, reduceCtorEq, false_iff]
      exact fun h ↦ hi h.index

/-- The state behind a stream that started in `s`. -/
def State.after (s : State Schema RecordBatch) (stream : IpcStream decoder) :
    State Schema RecordBatch where
  batches := s.batches ++ stream.batches
  schema := s.schema.or (some stream.schema)
  pending := []
  numRecords := s.numRecords + stream.rows

theorem decodeBatch_eq_ok_iff {s s' : State Schema RecordBatch} {ab : ArrowBatch}
    {ipcBytes : Bytes} :
    decodeBatch decoder s ab ipcBytes = .ok s' ↔
      ∃ stream : IpcStream decoder, stream.bytes = ipcBytes ∧ RowsAgree stream ab ∧
        s' = s.after stream := by
  constructor
  · intro h
    rw [decodeBatch] at h
    rcases hopen : decoder.openStream ipcBytes with e | reader
    · simp [hopen] at h
    · rcases hfail : reader.failure with _ | e
      · let stream : IpcStream decoder :=
          ⟨ipcBytes, reader.schema, reader.batches, by rw [hopen, ← hfail]⟩
        simp only [hopen, hfail] at h
        change (if declaredRows ab stream.rows ≠ stream.rows then _ else _) = _ at h
        by_cases hrows : declaredRows ab stream.rows = stream.rows
        · refine ⟨stream, rfl, RowsAgree.iff_declaredRows.mpr hrows, ?_⟩
          rw [if_neg (not_not.mpr hrows), Except.ok.injEq] at h
          exact h.symm
        · rw [if_pos hrows] at h
          cases h
      · simp [hopen, hfail] at h
  · rintro ⟨stream, rfl, hrows, rfl⟩
    have hdeclared := RowsAgree.iff_declaredRows.mp hrows
    rw [IpcStream.rows] at hdeclared
    simp [decodeBatch, stream.opens, hdeclared, State.after, IpcStream.rows]

/-- What the loop body does with a batch it does not refuse: it keeps a chunk that does not
end its batch, and decodes what it holds at one that does. -/
theorem stepBatch_eq_ok_iff {s s' : State Schema RecordBatch} {ab : ArrowBatch} :
    stepBatch decoder s ab = .ok s' ↔
      Follows s.numRecords s.pending.length ab ∧
        (¬Closes s.pending.length ab ∧ s' = { s with pending := s.pending ++ [ab.data] } ∨
          Closes s.pending.length ab ∧ ∃ stream : IpcStream decoder,
            stream.bytes = (s.pending ++ [ab.data]).flatten ∧ RowsAgree stream ab ∧
              s' = s.after stream) := by
  have hcloses : (numChunksInBatch ab = 0 ∨
      ((s.pending ++ [ab.data]).length : Int) = numChunksInBatch ab) ↔
        Closes s.pending.length ab := by
    rw [Closes, List.length_append, List.length_singleton, eq_comm (b := numChunksInBatch ab)]
  rw [stepBatch]
  rcases hcheck : checkChunk s ab with e | ⟨⟩
  · have hnot : ¬Follows s.numRecords s.pending.length ab := by
      rw [← checkChunk_eq_ok_iff, hcheck]
      exact nofun
    simp [bind, Except.bind, hnot]
  · have hfollows := checkChunk_eq_ok_iff.mp hcheck
    by_cases hc : Closes s.pending.length ab
    · simp only [bind, Except.bind, if_pos (hcloses.mpr hc), decodeBatch_eq_ok_iff, hfollows, hc,
        not_true_eq_false, false_and, false_or, true_and]
    · simp only [bind, Except.bind, if_neg (mt hcloses.mp hc), hfollows, hc, not_false_eq_true,
        false_and, or_false, true_and, Except.ok.injEq, eq_comm (a := s')]

/-! ## One batch -/

/-- A batch as it went by: the stream it decodes to and the chunks it came in. -/
structure Batch (decoder : Decoder Schema RecordBatch) where
  stream : IpcStream decoder
  chunks : List ArrowBatch

/-- The chunks of a batch that is not complete. -/
def Front (rowsBefore : Nat) (chunks : List ArrowBatch) : Prop :=
  ∀ i ab, chunks[i]? = some ab → Follows rowsBefore i ab ∧ ¬Closes i ab

/-- What was checked of a complete batch. -/
structure Accepted (rowsBefore : Nat) (b : Batch decoder) : Prop where
  nonempty : b.chunks ≠ []
  data : (b.chunks.map (·.data)).flatten = b.stream.bytes
  follows : ∀ i ab, b.chunks[i]? = some ab → Follows rowsBefore i ab
  closes : ∀ i ab, b.chunks[i]? = some ab → (Closes i ab ↔ i + 1 = b.chunks.length)
  rowCount : ∀ ab, b.chunks.getLast? = some ab → RowsAgree b.stream ab

theorem getElem?_snoc_eq_some_iff {α : Type} {l : List α} {a b : α} {i : Nat} :
    (l ++ [a])[i]? = some b ↔ l[i]? = some b ∨ i = l.length ∧ a = b := by
  rw [List.getElem?_append]
  split
  · rename_i hlt
    simp [Nat.ne_of_lt hlt]
  · rename_i hle
    rw [List.getElem?_eq_none (Nat.le_of_not_lt hle), List.getElem?_singleton]
    have hiff : i - l.length = 0 ↔ i = l.length := by omega
    simp [hiff]

theorem Front.nil (rowsBefore : Nat) : Front rowsBefore [] :=
  fun _ _ h ↦ by simp at h

theorem Front.snoc {rowsBefore : Nat} {chunks : List ArrowBatch} {ab : ArrowBatch}
    (h : Front rowsBefore chunks) (hf : Follows rowsBefore chunks.length ab)
    (hc : ¬Closes chunks.length ab) : Front rowsBefore (chunks ++ [ab]) := by
  intro i ab' hi
  rcases getElem?_snoc_eq_some_iff.mp hi with hi | ⟨rfl, rfl⟩
  · exact h i ab' hi
  · exact ⟨hf, hc⟩

/-- A chunk that ends its batch completes the chunks before it. -/
theorem Front.complete {rowsBefore : Nat} {chunks : List ArrowBatch} {ab : ArrowBatch}
    {stream : IpcStream decoder} (h : Front rowsBefore chunks)
    (hf : Follows rowsBefore chunks.length ab) (hc : Closes chunks.length ab)
    (hdata : ((chunks ++ [ab]).map (·.data)).flatten = stream.bytes) (hr : RowsAgree stream ab) :
    Accepted rowsBefore ⟨stream, chunks ++ [ab]⟩ := by
  refine ⟨by simp, hdata, fun i ab' hi ↦ ?_, fun i ab' hi ↦ ?_, fun ab' hl ↦ ?_⟩
  · rcases getElem?_snoc_eq_some_iff.mp hi with hi | ⟨rfl, rfl⟩
    · exact (h i ab' hi).1
    · exact hf
  · rcases getElem?_snoc_eq_some_iff.mp hi with hi | ⟨rfl, rfl⟩
    · have hlt := (List.getElem?_eq_some_iff.mp hi).1
      simp only [(h i ab' hi).2, List.length_append, List.length_singleton, false_iff]
      omega
    · simp [hc]
  · obtain rfl : ab = ab' := by simpa using hl
    exact hr

/-- A complete batch is its last chunk behind a front. -/
theorem Accepted.front {rowsBefore : Nat} {b : Batch decoder} (h : Accepted rowsBefore b)
    {front later : List ArrowBatch} {ab : ArrowBatch} (hb : b.chunks = front ++ ab :: later) :
    Follows rowsBefore front.length ab ∧ (Closes front.length ab ↔ later = []) := by
  have hget : b.chunks[front.length]? = some ab := by
    rw [hb, List.getElem?_append_right le_rfl, Nat.sub_self]
    rfl
  refine ⟨h.follows _ _ hget, (h.closes _ _ hget).trans ?_⟩
  rw [hb, List.length_append, List.length_cons]
  rcases later with _ | ⟨next, later⟩
  · simp
  · simp

/-! ## Batches in a row -/

/-- Each batch is as `P` says of it and of the number of rows before it. -/
def InRow (P : Nat → Batch decoder → Prop) : Nat → List (Batch decoder) → Prop
  | _, [] => True
  | rowsBefore, b :: bs => P rowsBefore b ∧ InRow P (rowsBefore + b.stream.rows) bs

theorem InRow.mono {P Q : Nat → Batch decoder → Prop} (hPQ : ∀ n b, P n b → Q n b)
    {bs : List (Batch decoder)} {rowsBefore : Nat} (h : InRow P rowsBefore bs) :
    InRow Q rowsBefore bs := by
  induction bs generalizing rowsBefore with
  | nil => trivial
  | cons b bs ih => exact ⟨hPQ _ _ h.1, ih h.2⟩

theorem foldl_after (streams : List (IpcStream decoder)) (s : State Schema RecordBatch)
    (hp : s.pending = []) :
    (streams.foldl State.after s).batches = s.batches ++ streams.flatMap (·.batches) ∧
      (streams.foldl State.after s).schema = s.schema.or (streams.head?.map (·.schema)) ∧
      (streams.foldl State.after s).pending = [] := by
  induction streams generalizing s with
  | nil => simp [hp]
  | cons stream streams ih =>
      obtain ⟨hb, hs, hpend⟩ := ih (s.after stream) rfl
      refine ⟨?_, ?_, hpend⟩
      · rw [List.foldl_cons, hb, List.flatMap_cons, ← List.append_assoc]
        rfl
      · rw [List.foldl_cons, hs]
        rcases h : s.schema with _ | schema <;> simp [State.after, h]

/-- The chunks of a batch behind those already buffered complete it. -/
theorem Accepted.foldlM {b : Batch decoder} (later : List ArrowBatch)
    (s : State Schema RecordBatch) (h : Accepted s.numRecords b) (front : List ArrowBatch)
    (hb : b.chunks = front ++ later) (hne : later ≠ []) (hp : s.pending = front.map (·.data)) :
    later.foldlM (stepBatch decoder) s = .ok (s.after b.stream) := by
  induction later generalizing s front with
  | nil => exact absurd rfl hne
  | cons ab later ih =>
      obtain ⟨hf, hc⟩ := h.front hb
      have hlen : s.pending.length = front.length := by rw [hp, List.length_map]
      rw [← hlen] at hf hc
      rw [List.foldlM_cons]
      by_cases hl : later = []
      · -- the last chunk
        have hstep : stepBatch decoder s ab = .ok (s.after b.stream) := by
          refine stepBatch_eq_ok_iff.mpr ⟨hf, .inr ⟨hc.mpr hl, b.stream, ?_, ?_, rfl⟩⟩
          · rw [← h.data, hb, hl, hp, List.map_append]
            rfl
          · exact h.rowCount ab (by rw [hb, hl, List.getLast?_concat])
        rw [hstep, hl]
        rfl
      · -- a chunk with more to come
        have hstep : stepBatch decoder s ab = .ok { s with pending := s.pending ++ [ab.data] } :=
          stepBatch_eq_ok_iff.mpr ⟨hf, .inl ⟨mt hc.mp hl, rfl⟩⟩
        rw [hstep]
        exact ih { s with pending := s.pending ++ [ab.data] } h (front ++ [ab]) (by simp [hb]) hl
          (by simp [hp])

theorem InRow.foldlM {bs : List (Batch decoder)} (s : State Schema RecordBatch)
    (hp : s.pending = []) (h : InRow Accepted s.numRecords bs) :
    (bs.flatMap (·.chunks)).foldlM (stepBatch decoder) s =
      .ok ((bs.map (·.stream)).foldl State.after s) := by
  induction bs generalizing s with
  | nil => rfl
  | cons b bs ih =>
      have hbatch := h.1.foldlM b.chunks s [] rfl h.1.nonempty (by rw [hp, List.map_nil])
      rw [List.flatMap_cons, List.foldlM_append, hbatch]
      exact ih (s.after b.stream) rfl h.2

/-- A run that ends with nothing buffered has split its batches into accepted groups.  The
induction keeps the chunks of the batch at hand. -/
theorem exists_inRow {abs : List ArrowBatch} {s s' : State Schema RecordBatch}
    {front : List ArrowBatch} (hp : s.pending = front.map (·.data))
    (hfront : Front s.numRecords front) (hrun : abs.foldlM (stepBatch decoder) s = .ok s')
    (hdone : s'.pending = []) :
    ∃ bs : List (Batch decoder),
      InRow Accepted s.numRecords bs ∧ bs.flatMap (·.chunks) = front ++ abs := by
  induction abs generalizing s front with
  | nil =>
      obtain rfl : s = s' := by simpa [pure, Except.pure] using hrun
      have hnil : front = [] := by simpa [hdone] using hp.symm
      exact ⟨[], trivial, by simp [hnil]⟩
  | cons ab abs ih =>
      have hlen : s.pending.length = front.length := by rw [hp, List.length_map]
      rcases hstep : stepBatch decoder s ab with e | s₁
      · rw [List.foldlM_cons, hstep] at hrun
        cases hrun
      · rw [List.foldlM_cons, hstep] at hrun
        obtain ⟨hf, ⟨hc, rfl⟩ | ⟨hc, stream, hbytes, hrows, rfl⟩⟩ := stepBatch_eq_ok_iff.mp hstep
        · -- the chunk joins the front
          rw [hlen] at hf hc
          obtain ⟨bs, hbs, hflat⟩ :=
            @ih { s with pending := s.pending ++ [ab.data] } _ (by simp [hp]) (hfront.snoc hf hc) hrun
          exact ⟨bs, hbs, by rw [hflat, List.append_assoc, List.singleton_append]⟩
        · -- the chunk completes the front
          rw [hlen] at hf hc
          have hdata : ((front ++ [ab]).map (·.data)).flatten = stream.bytes := by
            rw [hbytes, hp, List.map_append]
            rfl
          obtain ⟨bs, hbs, hflat⟩ := @ih (s.after stream) [] rfl (Front.nil _) hrun
          refine ⟨⟨stream, front ++ [ab]⟩ :: bs, ⟨hfront.complete hf hc hdata hrows, hbs⟩, ?_⟩
          rw [List.flatMap_cons, hflat, List.nil_append, List.append_assoc, List.singleton_append]

/-- Reassembly returns exactly when its batches split into accepted groups, and it returns
what these decode to. -/
theorem reassemble_eq_ok_iff {responses : List Response}
    {result : List RecordBatch × Option Schema} :
    reassemble decoder responses = .ok result ↔
      ∃ bs : List (Batch decoder), InRow Accepted 0 bs ∧
        bs.flatMap (·.chunks) = responses.filterMap (·.arrowBatch) ∧
        result = (bs.flatMap (·.stream.batches), bs.head?.map (·.stream.schema)) := by
  have hmpr : ∀ bs : List (Batch decoder), InRow Accepted 0 bs →
      bs.flatMap (·.chunks) = responses.filterMap (·.arrowBatch) →
      reassemble decoder responses =
        .ok (bs.flatMap (·.stream.batches), bs.head?.map (·.stream.schema)) := by
    intro bs hbs hflat
    obtain ⟨hb, hs, hp⟩ := foldl_after (bs.map (·.stream)) ({} : State Schema RecordBatch) rfl
    have hrun := hbs.foldlM ({} : State Schema RecordBatch) rfl
    rw [reassemble, foldlM_step, ← hflat, hrun]
    simp [bind, Except.bind, hp, hb, hs, List.flatMap_map, Function.comp_def]
  constructor
  · intro h
    rcases hrun : responses.foldlM (step decoder) {} with e | s'
    · rw [reassemble, hrun] at h
      cases h
    · by_cases hdone : s'.pending = []
      · rw [foldlM_step] at hrun
        obtain ⟨bs, hbs, hflat⟩ :=
          @exists_inRow _ _ _ _ ({} : State Schema RecordBatch) _ [] rfl (Front.nil 0) hrun hdone
        have := hmpr bs hbs hflat
        rw [h, Except.ok.injEq] at this
        exact ⟨bs, hbs, hflat, this⟩
      · rw [reassemble, hrun] at h
        simp [bind, Except.bind, hdone] at h
  · rintro ⟨bs, hbs, hflat, rfl⟩
    exact hmpr bs hbs hflat

end ConnectWeb.Arrow
