import ConnectWeb.Arrow.Edits

/-!
# Results that are cut off

Where the response stream of a query ends early, reassembly returns the record batches of the
streams that arrived whole, or it says that the last one did not.  It does not notice a cut
between two streams: that is for the caller, who waits for the end of the result.
-/

namespace ConnectWeb.Arrow

/-- Some whole parts of a list, and a piece of the next that is not the whole of it. -/
structure CutAt {α β : Type} (f : α → List β) (l : List α) (front : List β) (whole : List α)
    (piece : List β) : Prop where
  front : front = whole.flatMap f ++ piece
  isFront : whole <+: l
  next : piece ≠ [] →
    ∃ (a : α) (missing : List β), whole ++ [a] <+: l ∧ f a = piece ++ missing ∧ missing ≠ []

/-- A front of a list of parts is cut somewhere. -/
theorem exists_cutAt {α β : Type} {f : α → List β} {l : List α} {front : List β}
    (h : front <+: l.flatMap f) : ∃ whole piece, CutAt f l front whole piece := by
  induction l generalizing front with
  | nil => exact ⟨[], [], by simpa using h, List.prefix_rfl, fun h ↦ absurd rfl h⟩
  | cons a l ih =>
      rw [List.flatMap_cons] at h
      rcases List.prefix_or_prefix_of_prefix h (List.prefix_append _ _) with hin | ⟨later, rfl⟩
      · obtain ⟨missing, hmissing⟩ := hin
        rcases eq_or_ne missing [] with rfl | hne
        · rw [List.append_nil] at hmissing
          exact ⟨[a], [], by simp [hmissing], ⟨l, rfl⟩, fun h ↦ absurd rfl h⟩
        · exact ⟨[], front, rfl, List.nil_prefix, fun _ ↦
            ⟨a, missing, ⟨l, rfl⟩, hmissing.symm, hne⟩⟩
      · obtain ⟨whole, piece, hcut⟩ := ih ((List.prefix_append_right_inj _).mp h)
        refine ⟨a :: whole, piece, ?_, (List.prefix_cons_inj a).mpr hcut.isFront, fun hne ↦ ?_⟩
        · rw [List.flatMap_cons, hcut.front, List.append_assoc]
        · obtain ⟨b, missing, hb, hrest⟩ := hcut.next hne
          exact ⟨b, missing, (List.prefix_cons_inj a).mpr hb, hrest⟩

variable {Schema RecordBatch : Type} {decoder : Decoder Schema RecordBatch}

/-- What the code says of a result that ends behind `n` chunks of a batch. -/
def truncated (n : Nat) : Exc :=
  .value s!"Truncated arrow result: response stream ended in the middle of a chunked batch ({n} chunk(s) buffered, batch never completed)."

/-- The chunks of a batch are kept as long as more are to come. -/
theorem Accepted.foldlM_piece {b : Batch decoder} (piece missing : List ArrowBatch)
    (s : State Schema RecordBatch) (h : Accepted s.numRecords b) (front : List ArrowBatch)
    (hb : b.chunks = front ++ (piece ++ missing)) (hne : missing ≠ [])
    (hp : s.pending = front.map (·.data)) : piece.foldlM (stepBatch decoder) s =
      .ok { s with pending := s.pending ++ piece.map (·.data) } := by
  induction piece generalizing s front with
  | nil =>
      rw [List.map_nil, List.append_nil]
      rfl
  | cons ab piece ih =>
      obtain ⟨hf, hc⟩ := h.front (hb.trans rfl)
      have hlen : s.pending.length = front.length := by rw [hp, List.length_map]
      rw [← hlen] at hf hc
      have hmore : piece ++ missing ≠ [] := by simp [hne]
      have hstep : stepBatch decoder s ab = .ok { s with pending := s.pending ++ [ab.data] } :=
        stepBatch_eq_ok_iff.mpr ⟨hf, .inl ⟨mt hc.mp hmore, rfl⟩⟩
      rw [List.foldlM_cons, hstep]
      have hrest := ih { s with pending := s.pending ++ [ab.data] } h (front ++ [ab])
        (by simp [hb]) (by simp [hp])
      refine hrest.trans ?_
      rw [List.map_cons, List.append_assoc, List.singleton_append]

theorem numRecords_foldl_after (bs : List (Batch decoder)) (s : State Schema RecordBatch) :
    ((bs.map (·.stream)).foldl State.after s).numRecords = s.numRecords + rowsIn bs := by
  induction bs generalizing s with
  | nil => rfl
  | cons b bs ih =>
      rw [List.map_cons, List.foldl_cons, ih, rowsIn, rowsIn, List.map_cons, List.sum_cons,
        ← Nat.add_assoc]
      rfl

/-- Reassembly of whole batches, and of some of the chunks of the next. -/
theorem reassemble_cut {bs : List (Batch decoder)} (h : InRow Accepted 0 bs)
    {responses : List Response} {whole : List (Batch decoder)} {piece : List ArrowBatch}
    (hcut : CutAt (·.chunks) bs (responses.filterMap (·.arrowBatch)) whole piece) :
    reassemble decoder responses =
      if piece = [] then
        .ok (whole.flatMap (·.stream.batches), whole.head?.map (·.stream.schema))
      else .error (truncated piece.length) := by
  have hrow : ∀ {front : List (Batch decoder)}, front <+: bs → InRow Accepted 0 front := by
    rintro front ⟨later, rfl⟩
    exact (InRow.append_iff.mp h).1
  by_cases hnil : piece = []
  · rw [if_pos hnil]
    refine reassemble_eq_ok_iff.mpr ⟨whole, hrow hcut.isFront, ?_, rfl⟩
    rw [hcut.front, hnil, List.append_nil]
  · obtain ⟨b, missing, hb, hchunks, hne⟩ := hcut.next hnil
    have hrows := InRow.append_iff.mp (hrow hb)
    have hrun := hrows.1.foldlM ({} : State Schema RecordBatch) rfl
    obtain ⟨-, -, hpending⟩ :=
      foldl_after (whole.map (·.stream)) ({} : State Schema RecordBatch) rfl
    have hnum := numRecords_foldl_after whole ({} : State Schema RecordBatch)
    have hpiece := Accepted.foldlM_piece piece missing _ (hnum ▸ hrows.2.1) [] hchunks hne hpending
    rw [reassemble, foldlM_step, hcut.front, List.foldlM_append, hrun]
    change Except.bind (List.foldlM _ _ piece) _ = _
    rw [hpiece, hpending, List.nil_append, if_neg hnil]
    change (if piece.map (·.data) ≠ [] then _ else _) = _
    rw [if_pos (by simpa using hnil), List.length_map]
    rfl

/-! ## What a server sends -/

theorem CarriesAll.exists_carries {rowsBefore : Nat} {streams : List (IpcStream decoder)}
    {abs : List ArrowBatch} (h : CarriesAll rowsBefore streams abs) :
    ∃ bs : List (Batch decoder),
      InRow (fun n b ↦ Carries b.stream n b.chunks) rowsBefore bs ∧
        bs.flatMap (·.chunks) = abs ∧ bs.map (·.stream) = streams := by
  induction h with
  | nil rowsBefore => exact ⟨[], trivial, rfl, rfl⟩
  | @cons rowsBefore stream streams abs later head tail ih =>
      obtain ⟨bs, hbs, hflat, hstreams⟩ := ih
      refine ⟨⟨stream, abs⟩ :: bs, ⟨head, hbs⟩, ?_, ?_⟩
      · rw [List.flatMap_cons, hflat]
      · rw [List.map_cons, hstreams]

theorem InRow.carriesAll {rowsBefore : Nat} {bs : List (Batch decoder)}
    (h : InRow (fun n b ↦ Carries b.stream n b.chunks) rowsBefore bs) :
    CarriesAll rowsBefore (bs.map (·.stream)) (bs.flatMap (·.chunks)) := by
  induction bs generalizing rowsBefore with
  | nil => exact .nil rowsBefore
  | cons b bs ih => exact .cons h.1 (ih h.2)

/-- However much of a result arrives: the record batches of the streams that arrived whole, or
the error that says that chunks of the next are left over. -/
theorem reassemble_front {streams : List (IpcStream decoder)} {abs : List ArrowBatch}
    (h : CarriesAll 0 streams abs) {responses : List Response}
    (hfront : responses.filterMap (·.arrowBatch) <+: abs) :
    ∃ (whole : List (IpcStream decoder)) (carried piece : List ArrowBatch),
      whole <+: streams ∧ CarriesAll 0 whole carried ∧
        responses.filterMap (·.arrowBatch) = carried ++ piece ∧
        reassemble decoder responses =
          if piece = [] then .ok (whole.flatMap (·.batches), whole.head?.map (·.schema))
          else .error (truncated piece.length) := by
  obtain ⟨bs, hbs, rfl, rfl⟩ := h.exists_carries
  obtain ⟨whole, piece, hcut⟩ := exists_cutAt hfront
  have hwhole : InRow (fun n b ↦ Carries b.stream n b.chunks) 0 whole := by
    obtain ⟨later, rfl⟩ := hcut.isFront
    exact (InRow.append_iff.mp hbs).1
  refine ⟨whole.map (·.stream), whole.flatMap (·.chunks), piece, hcut.isFront.map _,
    hwhole.carriesAll, hcut.front, ?_⟩
  rw [reassemble_cut (hbs.mono fun _ _ ↦ Carries.accepted) hcut, List.flatMap_map, List.head?_map,
    Option.map_map]
  rfl

/-- Two rows that arrive whole, and the first chunk of the next two. -/
theorem reassemble_front_halfOf :
    let responses : List Response :=
      [⟨some (halfOf 0 0 [1])⟩, ⟨some (halfOf 0 1 [2])⟩, ⟨none⟩, ⟨some (halfOf 2 0 [3])⟩]
    ∃ (whole : List (IpcStream byteDecoder)) (carried piece : List ArrowBatch),
      whole <+: [(twoRows 0 1 2).stream, (twoRows 2 3 4).stream] ∧ CarriesAll 0 whole carried ∧
        responses.filterMap (·.arrowBatch) = carried ++ piece ∧
        reassemble byteDecoder responses =
          if piece = [] then .ok (whole.flatMap (·.batches), whole.head?.map (·.schema))
          else .error (truncated piece.length) :=
  reassemble_front (.cons (sent_twoRows 0 1 2).carries
    (.cons (sent_twoRows 2 3 4).carries (.nil _))) ⟨[halfOf 2 1 [4]], rfl⟩

end ConnectWeb.Arrow
