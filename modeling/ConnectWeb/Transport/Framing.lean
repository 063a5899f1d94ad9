import ConnectWeb.Foundation.Deframe
import ConnectWeb.Foundation.Dict
import ConnectWeb.Foundation.Text
import ConnectWeb.Foundation.Utf8

/-!
# grpc-web wire framing (`transport/framing.py`)

A message is a sequence of frames `[1 byte flags][4 byte big-endian length][payload]`.
`iterFrames` walks a complete body by offsets; `takeFrame` (from `transport/grpcweb.py`,
kept here because it reads the same header) pops one frame off a growing buffer.  Both
recognise the same frames: `frames` is the `Popper` they share, and `iterFrames_eq` says
that walking by offsets is draining.
-/

namespace ConnectWeb.Transport

/-- What the transport layer raises. -/
inductive Exc where
  /-- `ValueError` -/
  | value (message : String)
  /-- `struct.error` -/
  | struct (message : String)
  /-- `SparkConnectGrpcException` -/
  | grpc (message : String) (reason : Option String)
  /-- The retryable `grpc.RpcError` whose `code()` is `UNAVAILABLE`. -/
  | unavailable (message : String)
  /-- What a generated protobuf class raises from `FromString`. -/
  | decode (message : String)
deriving DecidableEq, Repr

/-! ## Frames -/

def compressedFlag : UInt8 := 0x01
def trailerFlag : UInt8 := 0x80

/-- `_HEADER.size` of `struct.Struct(">BI")` -/
def headerLen : Nat := 5

/-- A decoded frame: its flag byte and raw payload. -/
structure Frame where
  flags : UInt8
  payload : Bytes
deriving DecidableEq, Repr

namespace Frame

def isTrailer (f : Frame) : Bool := f.flags &&& trailerFlag != 0
def isCompressed (f : Frame) : Bool := f.flags &&& compressedFlag != 0

end Frame

/-- `_HEADER.pack(flags, length)` for a length that fits -/
def packHeader (flags : UInt8) (length : Nat) : Bytes :=
  [flags, .ofNat (length / 0x1000000), .ofNat (length / 0x10000), .ofNat (length / 0x100),
    .ofNat length]

/-- `_HEADER.unpack_from(data, off)` -/
def unpackHeader (data : Bytes) (off : Nat) : UInt8 × Nat :=
  let byte := fun i ↦ (data.getD (off + i) 0).toNat
  (data.getD off 0, byte 1 * 0x1000000 + byte 2 * 0x10000 + byte 3 * 0x100 + byte 4)

def encodeMessage (payload : Bytes) (flags : Nat := 0) : Except Exc Bytes :=
  if payload.length < 2 ^ 32 then
    .ok (packHeader (.ofNat flags) payload.length ++ payload)
  else .error (.struct "'I' format requires 0 <= number <= 4294967295")

/-- The loop of `iter_frames` from offset `off`: the frames yielded, and what is
raised after them.  `fuel` bounds the number of frames left. -/
def iterFramesFrom (data : Bytes) : Nat → Nat → List Frame × Option Exc
  | 0, _ => ([], none)
  | fuel + 1, off =>
      let n := data.length
      if off < n then
        if off + headerLen > n then
          ([], some (.value s!"truncated grpc-web frame header at offset {off}: {n - off} byte(s) left, need {headerLen}"))
        else
          let (flags, length) := unpackHeader data off
          let start := off + headerLen
          let stop := start + length
          if stop > n then
            ([], some (.value s!"truncated grpc-web frame body at offset {off}: declared {length} byte(s), only {n - start} available"))
          else
            let later := iterFramesFrom data fuel stop
            (⟨flags, (data.drop start).take (stop - start)⟩ :: later.1, later.2)
      else ([], none)

def iterFrames (data : Bytes) : List Frame × Option Exc :=
  iterFramesFrom data (data.length + 1) 0

/-- `_take_frame`: pop the first whole frame off `buffer`. -/
def takeFrame (buffer : Bytes) : Option (Frame × Bytes) :=
  let n := buffer.length
  if n < headerLen then none
  else
    let (flags, length) := unpackHeader buffer 0
    let stop := headerLen + length
    if stop > n then none
    else some (⟨flags, (buffer.drop headerLen).take (stop - headerLen)⟩, buffer.drop stop)

/-! ## Trailers -/

/-- `parse_trailers` on the decoded text -/
def parseTrailerText (text : List Char) : Dict String String :=
  ((Text.replaceCrLf text).splitOn '\n').foldl (fun out rawLine ↦
    let line := Text.strip rawLine
    if line = [] ∨ ':' ∉ line then out
    else
      let (key, value) := Text.partition ':' line
      out.set (String.ofList (Text.lower (Text.strip key))) (String.ofList (Text.strip value))) []

def parseTrailers (payload : Bytes) : Dict String String :=
  parseTrailerText (Utf8.decodeReplace payload)

def encodeTrailers (status : Int) (message : String) : Except Exc Bytes :=
  let lines := ("grpc-status:" ++ toString status) ::
    if message ≠ "" then ["grpc-message:" ++ message] else []
  encodeMessage (Utf8.encode ("\r\n".intercalate lines ++ "\r\n").toList) 0x80

/-! ## Whole frames -/

/-- The bytes of a frame whose payload length fits its header. -/
def encodeFrame (f : Frame) : Bytes := packHeader f.flags f.payload.length ++ f.payload

theorem unpackHeader_packHeader (flags : UInt8) {length : Nat} (h : length < 2 ^ 32)
    (rest : Bytes) : unpackHeader (packHeader flags length ++ rest) 0 = (flags, length) := by
  simp only [unpackHeader, packHeader, List.cons_append, List.nil_append, Nat.zero_add,
    List.getD_cons_zero, List.getD_cons_succ, UInt8.toNat_ofNat']
  congr 1
  omega

theorem packHeader_unpackHeader {buffer : Bytes} (h : headerLen ≤ buffer.length) :
    packHeader (unpackHeader buffer 0).1 (unpackHeader buffer 0).2 = buffer.take headerLen := by
  match buffer, h with
  | a :: b :: c :: d :: e :: rest, _ =>
      have byte : ∀ (x : UInt8) (n : Nat), n % 256 = x.toNat → UInt8.ofNat n = x := by
        intro x n hn
        rw [← UInt8.toNat_inj, UInt8.toNat_ofNat', hn]
      have hb := b.toNat_lt
      have hc := c.toNat_lt
      have hd := d.toNat_lt
      have he := e.toNat_lt
      simp only [unpackHeader, packHeader, headerLen, Nat.zero_add, List.getD_cons_zero,
        List.getD_cons_succ, List.take_succ_cons, List.take_zero]
      rw [byte b _ (by omega), byte c _ (by omega), byte d _ (by omega), byte e _ (by omega)]

theorem unpackHeader_lt (data : Bytes) (off : Nat) : (unpackHeader data off).2 < 2 ^ 32 := by
  have lt : ∀ i, (data.getD (off + i) 0).toNat < 256 := fun i ↦ UInt8.toNat_lt _
  have h1 := lt 1
  have h2 := lt 2
  have h3 := lt 3
  have h4 := lt 4
  simp only [unpackHeader]
  omega

theorem unpackHeader_drop (data : Bytes) (off : Nat) :
    unpackHeader (data.drop off) 0 = unpackHeader data off := by
  simp [unpackHeader, List.getD_eq_getElem?_getD]

/-- `takeFrame` pops an encoded frame and leaves what follows it. -/
theorem takeFrame_encodeFrame (f : Frame) (h : f.payload.length < 2 ^ 32) (rest : Bytes) :
    takeFrame (encodeFrame f ++ rest) = some (f, rest) := by
  have hu : unpackHeader (encodeFrame f ++ rest) 0 = (f.flags, f.payload.length) := by
    rw [encodeFrame, List.append_assoc]
    exact unpackHeader_packHeader _ h _
  have hlen : (encodeFrame f).length = headerLen + f.payload.length := by
    simp [encodeFrame, packHeader, headerLen]
    omega
  have hdrop : (encodeFrame f ++ rest).drop headerLen = f.payload ++ rest := by
    simp [encodeFrame, packHeader, headerLen]
  have hstop : (encodeFrame f ++ rest).drop (headerLen + f.payload.length) = rest := by
    rw [← hlen, List.drop_left]
  unfold takeFrame
  simp only [hu, List.length_append, hlen, hdrop, hstop]
  rw [if_neg (by omega), if_neg (by omega), Nat.add_sub_cancel_left, List.take_left]

/-- A popped frame is the front of the buffer, byte for byte. -/
theorem takeFrame_eq_some {buffer rest : Bytes} {f : Frame}
    (h : takeFrame buffer = some (f, rest)) :
    buffer = encodeFrame f ++ rest ∧ f.payload.length < 2 ^ 32 := by
  unfold takeFrame at h
  simp only at h
  split at h
  · cases h
  rename_i hn
  split at h
  · cases h
  rename_i hstop
  have hlt := unpackHeader_lt buffer 0
  simp only [Nat.add_sub_cancel_left, Option.some.injEq, Prod.mk.injEq] at h
  obtain ⟨rfl, rfl⟩ := h
  have hlen : ((buffer.drop headerLen).take (unpackHeader buffer 0).2).length =
      (unpackHeader buffer 0).2 := by
    rw [List.length_take, List.length_drop]
    omega
  refine ⟨?_, by rw [hlen]; exact hlt⟩
  rw [encodeFrame, hlen, packHeader_unpackHeader (by omega), List.append_assoc,
    ← List.drop_drop, List.take_append_drop, List.take_append_drop]

/-- Frames as tokens of a byte buffer. -/
def frames : Popper UInt8 Frame where
  pop := takeFrame
  length_lt := by
    intro l f r h
    rw [(takeFrame_eq_some h).1]
    simp [encodeFrame, packHeader]
    omega
  pop_append := by
    intro l f r m h
    obtain ⟨rfl, hlt⟩ := takeFrame_eq_some h
    rw [List.append_assoc]
    exact takeFrame_encodeFrame f hlt _

@[simp] theorem frames_pop (l : Bytes) : frames.pop l = takeFrame l := rfl

/-- Whatever `frames` drains off a buffer re-encodes to the front of the buffer, and the
rest starts with no whole frame. -/
theorem frames_drain_spec (data : Bytes) :
    data = (frames.drain data).1.flatMap encodeFrame ++ (frames.drain data).2 ∧
      (∀ f ∈ (frames.drain data).1, f.payload.length < 2 ^ 32) := by
  induction data using frames.drain_induction with
  | none l h => simp [frames.drain_of_none h]
  | some l f r h ih =>
      obtain ⟨hl, hlt⟩ := takeFrame_eq_some h
      rw [frames.drain_of_some h]
      refine ⟨?_, ?_⟩
      · rw [List.flatMap_cons, List.append_assoc, ← ih.1]
        exact hl
      · intro g hg
        rcases List.mem_cons.mp hg with rfl | hg
        · exact hlt
        · exact ih.2 g hg

/-- The whole frames at the front of a buffer are unique: any way to read it as encoded
frames followed by a rest that starts with no whole frame is what `frames` drains. -/
theorem frames_drain_unique {data rest : Bytes} {fs : List Frame}
    (h : data = fs.flatMap encodeFrame ++ rest) (hlt : ∀ f ∈ fs, f.payload.length < 2 ^ 32)
    (hrest : takeFrame rest = none) : frames.drain data = (fs, rest) := by
  rw [h, frames.drain_flatMap encodeFrame fun f hf ↦ takeFrame_encodeFrame f (hlt f hf),
    frames.drain_of_none hrest, List.append_nil]

/-- `takeFrame` on what is left of a body behind offset `off`. -/
theorem takeFrame_drop (data : Bytes) (off : Nat) :
    takeFrame (data.drop off) =
      if data.length < off + headerLen then none
      else if data.length < off + headerLen + (unpackHeader data off).2 then none
      else some (⟨(unpackHeader data off).1,
          (data.drop (off + headerLen)).take (unpackHeader data off).2⟩,
        data.drop (off + headerLen + (unpackHeader data off).2)) := by
  unfold takeFrame
  rw [unpackHeader_drop]
  generalize unpackHeader data off = u
  simp only [List.length_drop, List.drop_drop, Nat.add_sub_cancel_left, ← Nat.add_assoc]
  by_cases hhead : data.length < off + headerLen
  · rw [if_pos hhead, if_pos (by simp only [headerLen] at hhead ⊢; omega)]
  by_cases hbody : data.length < off + headerLen + u.2
  · rw [if_neg hhead, if_pos hbody, if_neg (by omega), if_pos (by omega)]
  · rw [if_neg hhead, if_neg hbody, if_neg (by omega), if_neg (by omega)]

/-- Walking a body by offsets is draining it; it raises exactly when bytes are left. -/
theorem iterFramesFrom_eq (data : Bytes) (fuel off : Nat) (hoff : off ≤ data.length)
    (hfuel : data.length - off < fuel) :
    (iterFramesFrom data fuel off).1 = (frames.drain (data.drop off)).1 ∧
      ((frames.drain (data.drop off)).2 = [] → (iterFramesFrom data fuel off).2 = none) ∧
      ((frames.drain (data.drop off)).2 ≠ [] →
        ∃ message, (iterFramesFrom data fuel off).2 = some (.value message)) := by
  induction fuel generalizing off with
  | zero => omega
  | succ fuel ih =>
      have hlen : (data.drop off).length = data.length - off := List.length_drop ..
      have hpop : frames.pop (data.drop off) = _ := takeFrame_drop data off
      rcases hu : unpackHeader data off with ⟨flags, length⟩
      rw [hu] at hpop
      rw [iterFramesFrom]
      simp only [hu]
      by_cases hlt : off < data.length
      swap
      · have hnil : data.drop off = [] := List.drop_eq_nil_of_le (by omega)
        have hd : frames.drain (data.drop off) = ([], []) := by
          rw [hnil]
          exact frames.drain_of_none rfl
        simp [hlt, hd]
      have hne : data.drop off ≠ [] := List.ne_nil_of_length_pos (by omega)
      by_cases hhead : data.length < off + headerLen
      · rw [if_pos hhead] at hpop
        rw [frames.drain_of_none hpop]
        simp [hlt, hhead, hne]
      rw [if_neg hhead] at hpop
      by_cases hbody : data.length < off + headerLen + length
      · rw [if_pos hbody] at hpop
        rw [frames.drain_of_none hpop]
        simp [hlt, hhead, hbody, hne]
      · rw [if_neg hbody] at hpop
        have hrec := ih (off + headerLen + length) (by omega) (by simp only [headerLen]; omega)
        rw [frames.drain_of_some hpop]
        simp only [hlt, hhead, hbody, ↓reduceIte, Nat.add_sub_cancel_left, hrec.1, true_and]
        exact hrec.2

/-- The frames `iter_frames` yields are those of the longest whole-frame prefix. -/
theorem iterFrames_frames (data : Bytes) : (iterFrames data).1 = (frames.drain data).1 := by
  simpa [iterFrames] using (iterFramesFrom_eq data (data.length + 1) 0 (by omega) (by omega)).1

/-- `iter_frames` ends without raising when the body is whole frames. -/
theorem iterFrames_of_whole {data : Bytes} (h : (frames.drain data).2 = []) :
    iterFrames data = ((frames.drain data).1, none) := by
  have := iterFramesFrom_eq data (data.length + 1) 0 (by omega) (by omega)
  exact Prod.ext (iterFrames_frames data) (this.2.1 (by simpa using h))

/-- `iter_frames` raises `ValueError` behind the whole frames when bytes are left. -/
theorem iterFrames_of_truncated {data : Bytes} (h : (frames.drain data).2 ≠ []) :
    ∃ message, iterFrames data = ((frames.drain data).1, some (.value message)) := by
  have := iterFramesFrom_eq data (data.length + 1) 0 (by omega) (by omega)
  obtain ⟨message, hm⟩ := this.2.2 (by simpa using h)
  exact ⟨message, Prod.ext (iterFrames_frames data) hm⟩

end ConnectWeb.Transport
