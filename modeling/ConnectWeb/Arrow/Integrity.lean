import ConnectWeb.Arrow.Lossless

/-!
# The integrity contract of reassembly

The contract asks for groups of chunks that agree on how many they are and whose declared
row count is the true one.  The code looks at the number of chunks where it takes the group
for complete, and reads a row count of zero as one that was left out.
-/

namespace ConnectWeb.Arrow

variable {Schema RecordBatch : Type} {decoder : Decoder Schema RecordBatch}

/-- A group of chunks as the contract asks for it. -/
structure Intact (rowsBefore : Nat) (b : Batch decoder) : Prop where
  data : (b.chunks.map (·.data)).flatten = b.stream.bytes
  shape :
    (∃ ab, b.chunks = [ab] ∧ chunkIndex ab = 0 ∧ numChunksInBatch ab = 0) ∨
      b.chunks ≠ [] ∧ ∀ (i : Nat) ab, b.chunks[i]? = some ab →
        numChunksInBatch ab = b.chunks.length ∧ chunkIndex ab = i
  offset : ∀ ab, b.chunks.head? = some ab → StartsAt rowsBefore ab
  rowCount : ∀ ab, b.chunks.getLast? = some ab → ab.rowCount = b.stream.rows

/-- The batches of the responses split into groups as the contract asks for them. -/
def Consistent (decoder : Decoder Schema RecordBatch) (responses : List Response) : Prop :=
  ∃ bs : List (Batch decoder), InRow Intact 0 bs ∧
    bs.flatMap (·.chunks) = responses.filterMap (·.arrowBatch)

/-- The contract on `responses`: reassembly returns for consistent ones only, and raises
`ValueError` for all others that the decoder can read. -/
structure Vetted (decoder : Decoder Schema RecordBatch) (responses : List Response) : Prop where
  returns : ∀ result, reassemble decoder responses = .ok result → Consistent decoder responses
  raises : ¬Consistent decoder responses →
    (∀ message, reassemble decoder responses ≠ .error (.decoder message)) →
      ∃ message, reassemble decoder responses = .error (.value message)

/-- A group that declares what is not so, where the code does not look. -/
inductive Misdeclares (b : Batch decoder) : Prop
  /-- A chunk declares another number of chunks than the chunk that completes the group. -/
  | count {ab last : ArrowBatch} (hab : ab ∈ b.chunks) (hlast : b.chunks.getLast? = some last)
      (hne : numChunksInBatch ab ≠ numChunksInBatch last)
  /-- A row count of zero on a group with rows. -/
  | rows {last : ArrowBatch} (hlast : b.chunks.getLast? = some last) (hzero : last.rowCount = 0)
      (hrows : b.stream.rows ≠ 0)

/-- Responses whose groups pass every check of the code, one of them though it misdeclares. -/
def SlipsThrough (decoder : Decoder Schema RecordBatch) (responses : List Response) : Prop :=
  ∃ bs : List (Batch decoder), InRow Accepted 0 bs ∧
    bs.flatMap (·.chunks) = responses.filterMap (·.arrowBatch) ∧ ∃ b ∈ bs, Misdeclares b

/-! ## Groups that are intact and groups that are accepted -/

theorem Intact.accepted {rowsBefore : Nat} {b : Batch decoder} (h : Intact rowsBefore b) :
    Accepted rowsBefore b := by
  have hoffset : ∀ i ab, b.chunks[i]? = some ab → i = 0 → StartsAt rowsBefore ab := by
    rintro i ab hi rfl
    exact h.offset ab (by rw [List.head?_eq_getElem?, hi])
  rcases h.shape with ⟨ab, hb, hindex, hcount⟩ | ⟨hne, hshape⟩
  · have honly : ∀ i ab', b.chunks[i]? = some ab' → i = 0 ∧ ab = ab' := by
      intro i ab' hi
      simpa [hb, List.getElem?_singleton] using hi
    refine ⟨by simp [hb], h.data, fun i ab' hi ↦ ?_, fun i ab' hi ↦ ?_, fun ab' hl ↦ ?_⟩
    · obtain ⟨rfl, rfl⟩ := honly i ab' hi
      exact ⟨hindex, hoffset 0 ab hi⟩
    · obtain ⟨rfl, rfl⟩ := honly i ab' hi
      simp [Closes, hcount, hb]
    · exact .inr (h.rowCount ab' hl)
  · refine ⟨hne, h.data, fun i ab hi ↦ ?_, fun i ab hi ↦ ?_, fun ab hl ↦ ?_⟩
    · exact ⟨(hshape i ab hi).2, hoffset i ab hi⟩
    · have hpos : b.chunks.length ≠ 0 := by simpa using hne
      rw [Closes, (hshape i ab hi).1]
      omega
    · exact .inr (h.rowCount ab hl)

theorem Intact.not_misdeclares {rowsBefore : Nat} {b : Batch decoder} (h : Intact rowsBefore b) :
    ¬Misdeclares b := by
  rintro (⟨hab, hlast, hne⟩ | ⟨hlast, hzero, hrows⟩)
  · obtain ⟨i, hi⟩ := List.mem_iff_getElem?.mp hab
    rcases h.shape with ⟨ab', hb, -⟩ | ⟨-, hshape⟩
    · simp only [hb, List.mem_singleton, List.getLast?_singleton, Option.some.injEq] at hab hlast
      exact hne (by rw [hab, hlast])
    · rw [List.getLast?_eq_getElem?] at hlast
      exact hne ((hshape _ _ hi).1.trans (hshape _ _ hlast).1.symm)
  · have := h.rowCount _ hlast
    omega

/-- What the checks leave open is what a group may misdeclare. -/
theorem Accepted.intact {rowsBefore : Nat} {b : Batch decoder} (h : Accepted rowsBefore b)
    (hb : ¬Misdeclares b) : Intact rowsBefore b := by
  obtain ⟨last, hlast⟩ : ∃ last, b.chunks.getLast? = some last :=
    ⟨_, List.getLast?_eq_some_getLast h.nonempty⟩
  have hcount : ∀ ab ∈ b.chunks, numChunksInBatch ab = numChunksInBatch last := by
    intro ab hab
    by_contra hne
    exact hb (.count hab hlast hne)
  have hpos : 0 < b.chunks.length := List.length_pos_iff.mpr h.nonempty
  have hcloses : Closes (b.chunks.length - 1) last := by
    rw [List.getLast?_eq_getElem?] at hlast
    exact (h.closes _ _ hlast).mpr (by omega)
  refine ⟨h.data, ?_, fun ab hh ↦ ?_, fun ab hl ↦ ?_⟩
  · rcases hcloses with hzero | hn
    · -- the first chunk declares zero as well, so it is the only one
      left
      obtain ⟨ab, later, hcons⟩ := List.exists_cons_of_ne_nil h.nonempty
      have hget : b.chunks[0]? = some ab := by rw [hcons]; rfl
      have hab : numChunksInBatch ab = 0 := by
        rw [hcount ab (List.mem_of_getElem? hget), hzero]
      have hlen : 0 + 1 = b.chunks.length := (h.closes 0 ab hget).mp (.inl hab)
      refine ⟨ab, ?_, (h.follows 0 ab hget).index, hab⟩
      have hlater : later = [] := by simpa [hcons] using hlen
      rw [hcons, hlater]
    · right
      refine ⟨h.nonempty, fun i ab hi ↦ ⟨?_, (h.follows i ab hi).index⟩⟩
      rw [hcount ab (List.mem_of_getElem? hi), hn, Nat.sub_add_cancel hpos]
  · rw [List.head?_eq_getElem?] at hh
    exact (h.follows 0 ab hh).offset rfl
  · rcases h.rowCount ab hl with hzero | hrows
    · have hrows : b.stream.rows = 0 := by
        by_contra hne
        exact hb (.rows hl hzero hne)
      rw [hzero, hrows]
      rfl
    · exact hrows

/-! ## The groups are determined -/

theorem IpcStream.eq_of_bytes {stream stream' : IpcStream decoder}
    (h : stream.bytes = stream'.bytes) : stream = stream' := by
  obtain ⟨bytes, schema, batches, opens⟩ := stream
  obtain ⟨bytes', schema', batches', opens'⟩ := stream'
  obtain rfl : bytes = bytes' := h
  have := opens.symm.trans opens'
  simp only [Except.ok.injEq, Reader.mk.injEq] at this
  obtain ⟨rfl, rfl, -⟩ := this
  rfl

/-- Neither of two accepted groups that start at the same place is longer: the last chunk of
the shorter one ends the other as well. -/
theorem Accepted.length_le {rowsBefore rowsBefore' : Nat} {b b' : Batch decoder}
    (h : Accepted rowsBefore b) (h' : Accepted rowsBefore' b') {later later' : List ArrowBatch}
    (heq : b.chunks ++ later = b'.chunks ++ later') : b'.chunks.length ≤ b.chunks.length := by
  by_contra hlt
  have hpos : 0 < b.chunks.length := List.length_pos_iff.mpr h.nonempty
  obtain ⟨last, hlast⟩ : ∃ last, b.chunks[b.chunks.length - 1]? = some last :=
    ⟨_, List.getElem?_eq_getElem (by omega)⟩
  have hlast' : b'.chunks[b.chunks.length - 1]? = some last := by
    rw [← @List.getElem?_append_left _ b'.chunks later' _ (by omega), ← heq,
      List.getElem?_append_left (by omega), hlast]
  have hcloses := (h.closes _ _ hlast).mpr (by omega)
  have := (h'.closes _ _ hlast').mp hcloses
  omega

theorem InRow.unique {bs bs' : List (Batch decoder)} {rowsBefore : Nat}
    (h : InRow Accepted rowsBefore bs) (h' : InRow Accepted rowsBefore bs')
    (heq : bs.flatMap (·.chunks) = bs'.flatMap (·.chunks)) : bs = bs' := by
  induction bs generalizing bs' rowsBefore with
  | nil =>
      rcases bs' with _ | ⟨b', bs'⟩
      · rfl
      · rw [List.flatMap_nil, List.flatMap_cons, eq_comm, List.append_eq_nil_iff] at heq
        exact absurd heq.1 h'.1.nonempty
  | cons b bs ih =>
      rcases bs' with _ | ⟨b', bs'⟩
      · rw [List.flatMap_nil, List.flatMap_cons, List.append_eq_nil_iff] at heq
        exact absurd heq.1 h.1.nonempty
      · rw [List.flatMap_cons, List.flatMap_cons] at heq
        have hlen : b.chunks.length = b'.chunks.length :=
          le_antisymm (h'.1.length_le h.1 heq.symm) (h.1.length_le h'.1 heq)
        obtain ⟨hchunks, hrest⟩ := List.append_inj heq hlen
        have hstream : b.stream = b'.stream :=
          IpcStream.eq_of_bytes (by rw [← h.1.data, ← h'.1.data, hchunks])
        obtain rfl : b = b' := by
          cases b
          cases b'
          simp only [Batch.mk.injEq]
          exact ⟨hstream, hchunks⟩
        rw [ih h.2 h'.2 hrest]

/-! ## The contract -/

theorem InRow.intact {bs : List (Batch decoder)} {rowsBefore : Nat}
    (h : InRow Accepted rowsBefore bs) (hbs : ∀ b ∈ bs, ¬Misdeclares b) :
    InRow Intact rowsBefore bs := by
  induction bs generalizing rowsBefore with
  | nil => trivial
  | cons b bs ih =>
      exact ⟨h.1.intact (hbs b List.mem_cons_self),
        ih h.2 fun b' hb' ↦ hbs b' (List.mem_cons_of_mem _ hb')⟩

theorem InRow.not_misdeclares {bs : List (Batch decoder)} {rowsBefore : Nat}
    (h : InRow Intact rowsBefore bs) : ∀ b ∈ bs, ¬Misdeclares b := by
  induction bs generalizing rowsBefore with
  | nil => exact nofun
  | cons b bs ih =>
      rintro b' (_ | ⟨_, hb'⟩)
      · exact h.1.not_misdeclares
      · exact ih h.2 b' hb'

theorem SlipsThrough.not_consistent {responses : List Response}
    (h : SlipsThrough decoder responses) : ¬Consistent decoder responses := by
  obtain ⟨bs, hbs, hflat, b, hb, hmis⟩ := h
  rintro ⟨bs', hbs', hflat'⟩
  obtain rfl : bs = bs' :=
    hbs.unique (hbs'.mono fun _ _ ↦ Intact.accepted) (hflat.trans hflat'.symm)
  exact hbs'.not_misdeclares b hb hmis

theorem SlipsThrough.exists_result {responses : List Response}
    (h : SlipsThrough decoder responses) : ∃ result, reassemble decoder responses = .ok result := by
  obtain ⟨bs, hbs, hflat, -⟩ := h
  exact ⟨_, reassemble_eq_ok_iff.mpr ⟨bs, hbs, hflat, rfl⟩⟩

/-- The contract holds except where a group that passes every check misdeclares its count of
chunks or its rows. -/
theorem vetted_iff (decoder : Decoder Schema RecordBatch) (responses : List Response) :
    Vetted decoder responses ↔ ¬SlipsThrough decoder responses := by
  constructor
  · intro hv hslip
    obtain ⟨result, hresult⟩ := hslip.exists_result
    exact hslip.not_consistent (hv.returns result hresult)
  · intro hslip
    have hreturns : ∀ result, reassemble decoder responses = .ok result →
        Consistent decoder responses := by
      intro result hresult
      obtain ⟨bs, hbs, hflat, -⟩ := reassemble_eq_ok_iff.mp hresult
      refine ⟨bs, hbs.intact fun b hb hmis ↦ hslip ⟨bs, hbs, hflat, b, hb, hmis⟩, hflat⟩
    refine ⟨hreturns, fun hcons hdecodes ↦ ?_⟩
    rcases hrun : reassemble decoder responses with (message | message) | result
    · exact ⟨message, rfl⟩
    · exact absurd hrun (hdecodes message)
    · exact absurd (hreturns result hrun) hcons

/-- An IPC stream with no columns and no batches: the schema message and the end of the
stream. -/
def emptyIpcBytes : Bytes :=
  [255, 255, 255, 255, 48, 0, 0, 0, 16, 0, 0, 0, 0, 0, 10, 0, 12, 0, 6, 0, 5, 0, 8, 0, 10, 0, 0, 0,
    0, 1, 4, 0, 12, 0, 0, 0, 8, 0, 8, 0, 0, 0, 4, 0, 8, 0, 0, 0, 4, 0, 0, 0, 0, 0, 0, 0,
    255, 255, 255, 255, 0, 0, 0, 0]

/-- A decoder that knows the empty stream only; a schema is its column names. -/
def emptyIpcDecoder : Decoder (List String) (List String × Nat) where
  openStream := fun bytes ↦
    if bytes = emptyIpcBytes then .ok { schema := [], batches := [] }
    else .error "Tried reading schema message, was null or length 0"
  numRows := Prod.snd

/-- The empty stream in two chunks, the second without the number of chunks that the first
declares. -/
theorem not_vetted_dropped_count :
    ¬Vetted emptyIpcDecoder
      [⟨some { data := emptyIpcBytes.take 8, chunkIndex := some 0, numChunksInBatch := some 3 }⟩,
        ⟨some { data := emptyIpcBytes.drop 8, chunkIndex := some 1 }⟩] := by
  intro hv
  refine SlipsThrough.not_consistent ?_ (hv.returns ([], some []) (by decide +kernel))
  let first : ArrowBatch :=
    { data := emptyIpcBytes.take 8, chunkIndex := some 0, numChunksInBatch := some 3 }
  let second : ArrowBatch := { data := emptyIpcBytes.drop 8, chunkIndex := some 1 }
  let b : Batch emptyIpcDecoder := ⟨⟨emptyIpcBytes, [], [], rfl⟩, [first, second]⟩
  have haccepted : Accepted 0 b := by
    refine ⟨nofun, by decide, fun i ab hi ↦ ?_, fun i ab hi ↦ ?_, fun ab hl ↦ ?_⟩
    · match i with
      | 0 | 1 =>
          cases hi
          exact ⟨rfl, fun _ ↦ .inl rfl⟩
    · match i with
      | 0 | 1 =>
          cases hi
          decide
    · cases hl
      exact .inl rfl
  refine ⟨[b], ⟨haccepted, trivial⟩, rfl, b, List.mem_singleton_self b, ?_⟩
  exact @Misdeclares.count _ _ _ b first second List.mem_cons_self rfl (by decide)

end ConnectWeb.Arrow
