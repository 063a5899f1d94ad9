import ConnectWeb.Transport.Grpcweb

/-!
# Encoding and decoding are inverse

`encodeFrames` is the body that joining the outputs of `encode_message` gives.  Decoding it
gives the frames back, and whatever a body is, the frames that `iter_frames` yields re-encode
to its longest front that is whole frames.
-/

namespace ConnectWeb.Transport

/-- `b"".join(encode_message(f.payload, flags=f.flags) for f in fs)` -/
def encodeFrames (fs : List Frame) : Except Exc Bytes := do
  let bodies ← fs.mapM fun f ↦ encodeMessage f.payload f.flags.toNat
  .ok bodies.flatten

theorem encodeMessage_frame {f : Frame} (h : f.payload.length < 2 ^ 32) :
    encodeMessage f.payload f.flags.toNat = .ok (encodeFrame f) := by
  rw [encodeMessage, if_pos h, UInt8.ofNat_toNat]
  rfl

theorem encodeFrames_of_lt {fs : List Frame} (h : ∀ f ∈ fs, f.payload.length < 2 ^ 32) :
    encodeFrames fs = .ok (fs.flatMap encodeFrame) := by
  have hbodies : (fs.mapM fun f ↦ encodeMessage f.payload f.flags.toNat) =
      .ok (fs.map encodeFrame) := by
    induction fs with
    | nil => rfl
    | cons f fs ih =>
        rw [List.mapM_cons, encodeMessage_frame (h f List.mem_cons_self),
          ih fun g hg ↦ h g (List.mem_cons_of_mem _ hg)]
        rfl
  rw [encodeFrames, hbodies, List.flatMap_def]
  rfl

theorem lt_of_encodeFrames {fs : List Frame} {d : Bytes} (h : encodeFrames fs = .ok d) :
    ∀ f ∈ fs, f.payload.length < 2 ^ 32 := by
  induction fs generalizing d with
  | nil => exact nofun
  | cons f fs ih =>
      rw [encodeFrames, List.mapM_cons] at h
      by_cases hf : f.payload.length < 2 ^ 32
      · rcases hrest : fs.mapM fun f ↦ encodeMessage f.payload f.flags.toNat with e | bodies
        · rw [encodeMessage_frame hf, hrest] at h
          cases h
        · have hfs : encodeFrames fs = .ok bodies.flatten := by
            rw [encodeFrames, hrest]
            rfl
          exact List.forall_mem_cons.mpr ⟨hf, ih hfs⟩
      · rw [encodeMessage, if_neg hf] at h
        cases h

/-- Encoding succeeds on frames whose payload lengths fit their headers, and on no others. -/
theorem encodeFrames_eq_ok_iff {fs : List Frame} {d : Bytes} :
    encodeFrames fs = .ok d ↔
      (∀ f ∈ fs, f.payload.length < 2 ^ 32) ∧ d = fs.flatMap encodeFrame := by
  constructor
  · intro h
    have hlt := lt_of_encodeFrames h
    rw [encodeFrames_of_lt hlt, Except.ok.injEq] at h
    exact ⟨hlt, h.symm⟩
  · rintro ⟨hlt, rfl⟩
    exact encodeFrames_of_lt hlt

/-! ## The walk over a body -/

/-- One more round than there are bytes is enough for the loop to end by itself. -/
theorem iterFramesFrom_succ (data : Bytes) (fuel off : Nat) (hfuel : data.length - off < fuel) :
    iterFramesFrom data (fuel + 1) off = iterFramesFrom data fuel off := by
  induction fuel generalizing off with
  | zero => omega
  | succ fuel ih =>
      rw [iterFramesFrom, iterFramesFrom]
      by_cases hlt : off < data.length
      swap
      · simp only [hlt, if_false]
      by_cases hhead : data.length < off + headerLen
      · simp only [hlt, hhead, if_true]
      rcases hu : unpackHeader data off with ⟨flags, length⟩
      by_cases hbody : data.length < off + headerLen + length
      · simp only [hlt, hhead, hbody, if_true, if_false]
      · have hrec := ih (off + headerLen + length) (by simp only [headerLen]; omega)
        simp only [hlt, hhead, hbody, if_true, if_false, hrec]

theorem iterFramesFrom_eq_iterFrames (data : Bytes) {fuel : Nat} (h : data.length < fuel) :
    iterFramesFrom data fuel 0 = iterFrames data := by
  induction fuel, h using Nat.le_induction with
  | base => rfl
  | succ fuel hle ih => rw [iterFramesFrom_succ data fuel 0 (by omega), ih]

/-- The frames `fs` are those of the longest front of `data` that is whole frames. -/
structure LongestWhole (data : Bytes) (fs : List Frame) (front : Bytes) : Prop where
  encodes : encodeFrames fs = .ok front
  isPrefix : front <+: data
  longest : ∀ gs front', encodeFrames gs = .ok front' → front' <+: data → front' <+: front

theorem longestWhole_drain (data : Bytes) :
    LongestWhole data (frames.drain data).1 ((frames.drain data).1.flatMap encodeFrame) := by
  obtain ⟨hdata, hlt⟩ := frames_drain_spec data
  refine ⟨encodeFrames_eq_ok_iff.mpr ⟨hlt, rfl⟩, ⟨_, hdata.symm⟩, ?_⟩
  intro gs front' hgs hprefix
  obtain ⟨hlt', rfl⟩ := encodeFrames_eq_ok_iff.mp hgs
  obtain ⟨rest, rfl⟩ := hprefix
  rw [frames.drain_flatMap encodeFrame fun g hg ↦ takeFrame_encodeFrame g (hlt' g hg),
    List.flatMap_append]
  exact List.prefix_append _ _

/-! ## The bodies the stub sends -/

theorem encodeMessage_bytes (request : Serialized) :
    encodeMessage request.bytes = .ok (encodeFrame ⟨0, request.bytes⟩) := by
  have h : request.bytes.length < 2 ^ 32 := by
    have := request.length_lt
    omega
  rw [encodeMessage, if_pos h]
  rfl

theorem mapM_encodeMessage (requests : List Serialized) :
    (requests.mapM fun request ↦ encodeMessage request.bytes) =
      .ok (requests.map fun request ↦ encodeFrame ⟨0, request.bytes⟩) := by
  induction requests with
  | nil => rfl
  | cons request requests ih =>
      rw [List.mapM_cons, encodeMessage_bytes, ih]
      rfl

/-! ## Both directions -/

theorem iterFrames_encodeFrames {fs : List Frame} {d : Bytes} (h : encodeFrames fs = .ok d) :
    iterFrames d = (fs, none) := by
  obtain ⟨hlt, rfl⟩ := encodeFrames_eq_ok_iff.mp h
  have hdrain : frames.drain (fs.flatMap encodeFrame) = (fs, []) :=
    frames_drain_unique (List.append_nil _).symm hlt rfl
  rw [iterFrames_of_whole (by rw [hdrain]), hdrain]

/-- A body has one longest front of whole frames. -/
theorem LongestWhole.unique {data front front' : Bytes} {fs gs : List Frame}
    (h : LongestWhole data fs front) (h' : LongestWhole data gs front') : fs = gs := by
  have hle := h'.longest fs front h.encodes h.isPrefix
  have hge := h.longest gs front' h'.encodes h'.isPrefix
  obtain rfl := hle.eq_of_length (hle.length_le.antisymm hge.length_le)
  have hfs := iterFrames_encodeFrames h.encodes
  exact congrArg Prod.fst (hfs.symm.trans (iterFrames_encodeFrames h'.encodes))

/-- The front of a body that is whole frames is what `iter_frames` yields; it ends there
when that is the body, and raises behind it when it is not. -/
theorem iterFrames_longest (d : Bytes) :
    (encodeFrames (iterFrames d).1 = .ok d ∧ (iterFrames d).2 = none) ∨
      ∃ front message, LongestWhole d (iterFrames d).1 front ∧ front ≠ d ∧
        (iterFrames d).2 = some (.value message) := by
  have hlongest := longestWhole_drain d
  have hdata := (frames_drain_spec d).1
  rw [iterFrames_frames]
  by_cases hrest : (frames.drain d).2 = []
  · left
    have hencodes := hlongest.encodes
    rw [hrest, List.append_nil] at hdata
    rw [← hdata] at hencodes
    exact ⟨hencodes, by rw [iterFrames_of_whole hrest]⟩
  · right
    obtain ⟨message, hm⟩ := iterFrames_of_truncated hrest
    refine ⟨_, message, hlongest, fun heq ↦ hrest ?_, by rw [hm]⟩
    rw [heq] at hdata
    simpa using hdata

/-- Framing is a codec: decoding inverts encoding, every body is decoded up to its longest
front of whole frames, with `ValueError` behind it when bytes are left, and the body of a
client-streaming call decodes to its requests. -/
theorem framing_codec :
    (∀ fs : List Frame, (∀ f ∈ fs, f.payload.length < 2 ^ 32) →
      ∃ d, encodeFrames fs = .ok d ∧ iterFrames d = (fs, none)) ∧
    (∀ d : Bytes,
      (∀ fuel, d.length < fuel → iterFramesFrom d fuel 0 = iterFrames d) ∧
        ((encodeFrames (iterFrames d).1 = .ok d ∧ (iterFrames d).2 = none) ∨
          ∃ front message, LongestWhole d (iterFrames d).1 front ∧ front ≠ d ∧
            (iterFrames d).2 = some (.value message))) ∧
    ∀ {τ Msg : Type} (stub : GrpcWebStub τ) (fromString : Bytes → Except Exc Msg) (path : String)
      (requests : List Serialized) (metadata : Option Metadata) (timeout : Option τ),
      ∃ body, iterFrames body = (requests.map fun request ↦ ⟨0, request.bytes⟩, none) ∧
        stub.callClientStream fromString path requests metadata timeout =
          unaryResponse fromString path s!"grpc-web: OK trailer but no message frame for {path}"
            (stub.channel.unary path body
              (headersFromMetadata (stub.mergeMetadata metadata)) timeout) := by
  refine ⟨fun fs hlt ↦ ?_, fun d ↦ ⟨fun fuel ↦ iterFramesFrom_eq_iterFrames d, iterFrames_longest d⟩,
    fun stub fromString path requests metadata timeout ↦ ?_⟩
  · have hencode := encodeFrames_eq_ok_iff.mpr ⟨hlt, rfl⟩
    exact ⟨_, hencode, iterFrames_encodeFrames hencode⟩
  · refine ⟨(requests.map fun request ↦ encodeFrame ⟨0, request.bytes⟩).flatten, ?_, ?_⟩
    · refine iterFrames_encodeFrames (encodeFrames_eq_ok_iff.mpr ⟨fun f hf ↦ ?_, ?_⟩)
      · obtain ⟨request, -, rfl⟩ := List.mem_map.mp hf
        have := request.length_lt
        simp only
        omega
      · rw [List.flatMap_map, ← List.flatMap_def]
    · rw [GrpcWebStub.callClientStream, mapM_encodeMessage]
      rfl

end ConnectWeb.Transport
