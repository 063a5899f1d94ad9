import ConnectWeb.Transport.RoundTrip

/-!
# What a list of frames comes to

Both decoders of the stub, `_decode_body` over a whole body and `_stream_responses`
over a buffer that grows, are folds over the whole frames in front of them.  This file
says what each fold comes to, in terms of four readings of a frame list: its messages,
its last trailers, the frames before the first compressed one, and whether there is a
compressed one at all.
-/

namespace ConnectWeb.Transport

/-- The payloads of the message frames, in order. -/
def messagePayloads (fs : List Frame) : List Bytes :=
  (fs.filter fun f ↦ !f.isTrailer).map (·.payload)

/-- What the last trailer frame says. -/
def lastTrailers (fs : List Frame) : Option (Dict String String) :=
  (fs.filter (·.isTrailer)).getLast?.map fun f ↦ parseTrailers f.payload

/-- The frames before the first compressed one. -/
def readable (fs : List Frame) : List Frame := fs.takeWhile fun f ↦ !f.isCompressed

/-- Some frame is compressed. -/
def hasCompressed (fs : List Frame) : Prop := ∃ f ∈ fs, f.isCompressed = true

instance (fs : List Frame) : Decidable (hasCompressed fs) :=
  inferInstanceAs (Decidable (∃ f ∈ fs, _))

/-! ## Readings of a frame list, frame by frame -/

@[simp] theorem messagePayloads_nil : messagePayloads [] = [] := rfl

@[simp] theorem lastTrailers_nil : lastTrailers [] = none := rfl

@[simp] theorem readable_nil : readable [] = [] := rfl

@[simp] theorem hasCompressed_nil : ¬ hasCompressed [] := by simp [hasCompressed]

@[simp] theorem hasCompressed_append (fs gs : List Frame) :
    hasCompressed (fs ++ gs) ↔ hasCompressed fs ∨ hasCompressed gs := by
  simp only [hasCompressed, List.mem_append, or_and_right, exists_or]

@[simp] theorem hasCompressed_cons (f : Frame) (fs : List Frame) :
    hasCompressed (f :: fs) ↔ f.isCompressed = true ∨ hasCompressed fs := by
  simp [hasCompressed]

theorem messagePayloads_append (fs gs : List Frame) :
    messagePayloads (fs ++ gs) = messagePayloads fs ++ messagePayloads gs := by
  simp [messagePayloads]

theorem messagePayloads_cons (f : Frame) (fs : List Frame) :
    messagePayloads (f :: fs) =
      if f.isTrailer then messagePayloads fs else f.payload :: messagePayloads fs := by
  by_cases h : f.isTrailer = true <;> simp [messagePayloads, h]

/-- Later trailers win. -/
theorem lastTrailers_append (fs gs : List Frame) :
    lastTrailers (fs ++ gs) = (lastTrailers gs).or (lastTrailers fs) := by
  simp only [lastTrailers, List.filter_append, List.getLast?_append, Option.map_or]

theorem lastTrailers_cons (f : Frame) (fs : List Frame) :
    lastTrailers (f :: fs) = (lastTrailers fs).or
      (if f.isTrailer then some (parseTrailers f.payload) else none) := by
  rw [← List.singleton_append, lastTrailers_append]
  congr 1
  by_cases h : f.isTrailer = true <;> simp [lastTrailers, h]

theorem readable_cons (f : Frame) (fs : List Frame) :
    readable (f :: fs) = if f.isCompressed then [] else f :: readable fs := by
  by_cases h : f.isCompressed = true <;> simp [readable, h]

theorem readable_of_not_hasCompressed {fs : List Frame} (h : ¬ hasCompressed fs) :
    readable fs = fs := by
  refine List.takeWhile_eq_self_iff.mpr fun f hf ↦ ?_
  by_contra hc
  exact h ⟨f, hf, by simpa using hc⟩

theorem readable_append_of_not_hasCompressed {fs : List Frame} (h : ¬ hasCompressed fs)
    (gs : List Frame) : readable (fs ++ gs) = fs ++ readable gs := by
  refine List.takeWhile_append_of_pos fun f hf ↦ ?_
  by_contra hc
  exact h ⟨f, hf, by simpa using hc⟩

theorem readable_append_of_hasCompressed {fs : List Frame} (h : hasCompressed fs)
    (gs : List Frame) : readable (fs ++ gs) = readable fs := by
  induction fs with
  | nil => simp at h
  | cons f fs ih =>
      by_cases hf : f.isCompressed = true
      · simp [readable_cons, hf]
      · rw [List.cons_append, readable_cons, readable_cons,
          ih ((hasCompressed_cons f fs).mp h |>.resolve_left hf)]

/-! ## The whole-body decoder -/

/-- `_decode_body` on a frame list: the first compressed frame wins over everything, then
what the generator raises behind its last frame. -/
theorem decodeFrames_eq (path : String) (ending : Option Exc) (fs : List Frame)
    (messages : List Bytes) (trailers : Option (Dict String String)) :
    decodeFrames path ending fs messages trailers =
      if hasCompressed fs then .error (compressedError path)
      else match ending with
        | some e => .error e
        | none => .ok (messages ++ messagePayloads fs, (lastTrailers fs).or trailers) := by
  induction fs generalizing messages trailers with
  | nil => cases ending <;> simp [decodeFrames]
  | cons f fs ih =>
      rw [decodeFrames]
      by_cases hc : f.isCompressed = true
      · simp [hc]
      by_cases ht : f.isTrailer = true
      · simp [hc, ht, ih, messagePayloads_cons, lastTrailers_cons]
      · simp [hc, ht, ih, messagePayloads_cons, lastTrailers_cons]

/-- `_decode_body` of a body, by its whole frames and what is left behind them. -/
theorem decodeBody_eq (body : Bytes) (path : String) :
    (hasCompressed (frames.drain body).1 → decodeBody body path = .error (compressedError path)) ∧
    (¬ hasCompressed (frames.drain body).1 → (frames.drain body).2 = [] →
      decodeBody body path =
        .ok (messagePayloads (frames.drain body).1, lastTrailers (frames.drain body).1)) ∧
    (¬ hasCompressed (frames.drain body).1 → (frames.drain body).2 ≠ [] →
      ∃ message, decodeBody body path = .error (.value message)) := by
  simp only [decodeBody, decodeFrames_eq, iterFrames_frames]
  refine ⟨fun hc ↦ by simp [hc], fun hc hrest ↦ ?_, fun hc hrest ↦ ?_⟩
  · simp [hc, iterFrames_of_whole hrest]
  · obtain ⟨message, hm⟩ := iterFrames_of_truncated hrest
    exact ⟨message, by simp [hc, hm]⟩

/-! ## The streaming decoder -/

section Streaming

variable {Msg : Type} (f : Bytes → Msg) (path : String)

/-- The class method `FromString` when it never raises. -/
def totalFromString (b : Bytes) : Except Exc Msg := .ok (f b)

/-- Draining the buffer yields the messages before the first compressed frame; it raises
when there is one, and otherwise keeps the partial frame and the last trailers. -/
theorem drainBuffer_eq (fuel : Nat) (buffer : Bytes) (trailers : Option (Dict String String))
    (hfuel : buffer.length ≤ fuel) :
    drainBuffer (totalFromString f) path fuel buffer trailers =
      ((messagePayloads (readable (frames.drain buffer).1)).map f,
        if hasCompressed (frames.drain buffer).1 then .error (compressedError path)
        else .ok ((frames.drain buffer).2, (lastTrailers (frames.drain buffer).1).or trailers)) := by
  induction fuel generalizing buffer trailers with
  | zero =>
      have hnil : buffer = [] := List.length_eq_zero_iff.mp (by omega)
      have hd : frames.drain buffer = ([], buffer) := frames.drain_of_none (by rw [hnil]; rfl)
      simp [drainBuffer, hd]
  | succ fuel ih =>
      rw [drainBuffer]
      rcases hpop : takeFrame buffer with _ | ⟨frame, rest⟩
      · simp [frames.drain_of_none hpop]
      have hlen : rest.length < buffer.length := frames.length_lt hpop
      simp only [frames.drain_of_some hpop, hasCompressed_cons, readable_cons]
      by_cases hc : frame.isCompressed = true
      · simp [hc]
      by_cases ht : frame.isTrailer = true
      · simp [hc, ht, ih rest _ (by omega), messagePayloads_cons, lastTrailers_cons]
      · simp [hc, ht, ih rest _ (by omega), messagePayloads_cons, lastTrailers_cons,
          totalFromString]

/-- How `_stream_responses` ends, by the whole frames of everything the chunk iterator
delivered and by how that iterator ended. -/
def streamEnding (ending : Option String) (fs : List Frame)
    (trailers : Option (Dict String String)) : Except Exc Unit :=
  if hasCompressed fs then .error (compressedError path)
  else match ending with
    | some e => .error (transportUnavailable path e)
    | none =>
        match (lastTrailers fs).or trailers with
        | none => .ok ()
        | some t => raiseForTrailers (some t) none path

/-- The chunk loop, from a buffer that starts with no whole frame, comes to what the whole
frames of the joined input come to. -/
theorem streamFrom_eq (ending : Option String) (chunks : List Bytes) (buffer : Bytes)
    (trailers : Option (Dict String String)) (hbuffer : takeFrame buffer = none) :
    streamFrom (totalFromString f) path ending chunks buffer trailers =
      ((messagePayloads (readable (frames.drain (buffer ++ chunks.flatten)).1)).map f,
        streamEnding path ending (frames.drain (buffer ++ chunks.flatten)).1 trailers) := by
  induction chunks generalizing buffer trailers with
  | nil =>
      have hd : frames.drain buffer = ([], buffer) := frames.drain_of_none hbuffer
      simp only [List.flatten_nil, List.append_nil, hd, streamEnding]
      cases ending <;> cases trailers <;> simp [streamFrom]
  | cons chunk chunks ih =>
      rw [streamFrom]
      by_cases hnil : chunk = []
      · simp [hnil, ih buffer trailers hbuffer]
      rw [if_neg hnil]
      simp only [drainBuffer_eq f path _ _ trailers (Nat.le_refl _), List.flatten_cons]
      -- the first chunk's frames, then those of its rest joined with the later chunks
      rw [← List.append_assoc, frames.drain_append (buffer ++ chunk)]
      have hrest := ih (frames.drain (buffer ++ chunk)).2
        ((lastTrailers (frames.drain (buffer ++ chunk)).1).or trailers)
        (frames.pop_drain_rest (buffer ++ chunk))
      by_cases hc : hasCompressed (frames.drain (buffer ++ chunk)).1
      · simp [hc, readable_append_of_hasCompressed hc, streamEnding]
      · simp [hc, hrest, readable_append_of_not_hasCompressed hc,
          readable_of_not_hasCompressed hc, messagePayloads_append, streamEnding,
          lastTrailers_append, Option.or_assoc]

end Streaming

section Spoiled

variable {Msg : Type} (fromString : Bytes → Except Exc Msg) (path : String)

/-- `_stream_responses` raises on the frame: it is compressed, or its message does not
parse. -/
def Frame.Spoiled (frame : Frame) : Prop :=
  frame.isCompressed = true ∨
    frame.isTrailer = false ∧ ∃ e, fromString frame.payload = .error e

/-- Draining the buffer raises on a spoiled frame, and on nothing else. -/
theorem drainBuffer_spoiled (fuel : Nat) (buffer : Bytes) (trailers : Option (Dict String String))
    (hfuel : buffer.length ≤ fuel) :
    (∃ frame ∈ (frames.drain buffer).1, frame.Spoiled fromString) ∧
        (∃ e, (drainBuffer fromString path fuel buffer trailers).2 = .error e) ∨
      (∀ frame ∈ (frames.drain buffer).1, ¬ frame.Spoiled fromString) ∧
        (drainBuffer fromString path fuel buffer trailers).2 =
          .ok ((frames.drain buffer).2, (lastTrailers (frames.drain buffer).1).or trailers) := by
  induction fuel generalizing buffer trailers with
  | zero =>
      have hnil : buffer = [] := List.length_eq_zero_iff.mp (by omega)
      have hd : frames.drain buffer = ([], buffer) := frames.drain_of_none (by rw [hnil]; rfl)
      simp [drainBuffer, hd]
  | succ fuel ih =>
      rw [drainBuffer]
      rcases hpop : takeFrame buffer with _ | ⟨frame, rest⟩
      · simp [frames.drain_of_none hpop]
      have hlen : rest.length < buffer.length := frames.length_lt hpop
      simp only [frames.drain_of_some hpop, List.mem_cons, exists_eq_or_imp, forall_eq_or_imp,
        lastTrailers_cons]
      by_cases hc : frame.isCompressed = true
      · exact .inl ⟨.inl (.inl hc), _, by rw [if_pos hc]⟩
      by_cases ht : frame.isTrailer = true
      · have hplain : ¬ frame.Spoiled fromString := by simp [Frame.Spoiled, hc, ht]
        simpa [hc, ht, hplain] using ih rest (some (parseTrailers frame.payload)) (by omega)
      · rcases hmsg : fromString frame.payload with e | message
        · refine .inl ⟨.inl (.inr ⟨by simpa using ht, e, hmsg⟩), transportUnavailable path e.text, ?_⟩
          simp [hc, ht]
        · have hplain : ¬ frame.Spoiled fromString := by simp [Frame.Spoiled, hc, hmsg]
          simpa [hc, ht, hplain, hmsg] using ih rest trailers (by omega)

/-- The chunk loop raises on a spoiled frame, before it learns how the chunk iterator ends;
without one it ends as the last trailers and that ending say. -/
theorem streamFrom_spoiled (chunks : List Bytes) (buffer : Bytes)
    (trailers : Option (Dict String String)) (hbuffer : takeFrame buffer = none) :
    (∃ frame ∈ (frames.drain (buffer ++ chunks.flatten)).1, frame.Spoiled fromString) ∧
        (∃ e, ∀ ending,
          (streamFrom fromString path ending chunks buffer trailers).2 = .error e) ∨
      (∀ frame ∈ (frames.drain (buffer ++ chunks.flatten)).1, ¬ frame.Spoiled fromString) ∧
        ∀ ending, (streamFrom fromString path ending chunks buffer trailers).2 =
          streamEnding path ending (frames.drain (buffer ++ chunks.flatten)).1 trailers := by
  induction chunks generalizing buffer trailers with
  | nil =>
      have hd : frames.drain buffer = ([], buffer) := frames.drain_of_none hbuffer
      simp only [List.flatten_nil, List.append_nil, hd, List.not_mem_nil, false_and, exists_false,
        false_or]
      refine ⟨by simp, fun ending ↦ ?_⟩
      cases ending <;> cases trailers <;> simp [streamFrom, streamEnding]
  | cons chunk chunks ih =>
      by_cases hnil : chunk = []
      · simpa [streamFrom, hnil] using ih buffer trailers hbuffer
      -- the first chunk's frames, then those of its rest joined with the later chunks
      rw [List.flatten_cons, ← List.append_assoc, frames.drain_append (buffer ++ chunk)]
      have hrest := ih (frames.drain (buffer ++ chunk)).2
        ((lastTrailers (frames.drain (buffer ++ chunk)).1).or trailers)
        (frames.pop_drain_rest (buffer ++ chunk))
      simp only [streamFrom, if_neg hnil]
      have hfirst := drainBuffer_spoiled fromString path _ (buffer ++ chunk) trailers le_rfl
      rcases hdrain : drainBuffer fromString path (buffer ++ chunk).length (buffer ++ chunk)
        trailers with ⟨messages, result⟩
      rw [hdrain] at hfirst
      rcases hfirst with ⟨⟨frame, hm, hs⟩, e, rfl⟩ | ⟨hplain, rfl⟩
      · exact .inl ⟨⟨frame, List.mem_append_left _ hm, hs⟩, e, fun _ ↦ rfl⟩
      rcases hrest with ⟨⟨frame, hm, hs⟩, e, he⟩ | ⟨hplain', hend⟩
      · exact .inl ⟨⟨frame, List.mem_append_right _ hm, hs⟩, e, he⟩
      · refine .inr ⟨fun frame hm ↦ (List.mem_append.mp hm).elim (hplain frame) (hplain' frame), ?_⟩
        intro ending
        have hc : ¬ hasCompressed (frames.drain (buffer ++ chunk)).1 := by
          rintro ⟨frame, hm, hc⟩
          exact hplain frame hm (.inl hc)
        simp only [hend ending, streamEnding, lastTrailers_append, Option.or_assoc,
          hasCompressed_append, hc, false_or]

end Spoiled

/-- `_stream_responses` by the whole frames in front of everything that was delivered. -/
theorem streamResponses_eq {Msg : Type} (f : Bytes → Msg) (path : String) (chunks : List Bytes)
    (ending : Option String) :
    streamResponses (totalFromString f) path chunks ending =
      ((messagePayloads (readable (frames.drain chunks.flatten).1)).map f,
        streamEnding path ending (frames.drain chunks.flatten).1 none) :=
  streamFrom_eq f path ending chunks [] none rfl

/-- Stream reframing: for every way of cutting a body into chunks, `_stream_responses`
yields the messages among the frames of its longest front of whole frames, up to the first
compressed one, and ends as those frames and the chunk iterator say.  Where the body is
whole uncompressed frames, these are the messages and the trailers of `_decode_body`. -/
theorem streamResponses_reframing {Msg : Type} (f : Bytes → Msg) (path : String)
    (chunks : List Bytes) (ending : Option String) :
    (∃ fs front, LongestWhole chunks.flatten fs front ∧
      (streamResponses (fun b ↦ .ok (f b)) path chunks ending).1 =
        (messagePayloads (readable fs)).map f ∧
      (streamResponses (fun b ↦ .ok (f b)) path chunks ending).2 =
        (if hasCompressed fs then
          .error (.grpc s!"grpc-web: compressed frame not supported (path={path})" none)
        else match ending, lastTrailers fs with
          | some e, _ => .error (.unavailable s!"grpc-web transport failed ({path}): {e}")
          | none, none => .ok ()
          | none, some trailers => raiseForTrailers (some trailers) none path)) ∧
    ∀ gs, encodeFrames gs = .ok chunks.flatten → ¬ hasCompressed gs →
      ∃ messages trailers, decodeBody chunks.flatten path = .ok (messages, trailers) ∧
        messages = messagePayloads gs ∧ trailers = lastTrailers gs ∧
        (streamResponses (fun b ↦ .ok (f b)) path chunks ending).1 = messages.map f ∧
        (streamResponses (fun b ↦ .ok (f b)) path chunks ending).2 =
          match ending, trailers with
          | some e, _ => .error (.unavailable s!"grpc-web transport failed ({path}): {e}")
          | none, none => .ok ()
          | none, some trailers => raiseForTrailers (some trailers) none path := by
  have hstream := streamResponses_eq f path chunks ending
  constructor
  · refine ⟨_, _, longestWhole_drain chunks.flatten, congrArg Prod.fst hstream, ?_⟩
    refine (congrArg Prod.snd hstream).trans ?_
    simp only [streamEnding, Option.or_none]
    cases ending <;> cases lastTrailers (frames.drain chunks.flatten).1 <;> rfl
  · intro gs hgs hplain
    obtain ⟨hlt, hdata⟩ := encodeFrames_eq_ok_iff.mp hgs
    have hdrain : frames.drain chunks.flatten = (gs, []) :=
      frames_drain_unique (hdata.trans (List.append_nil _).symm) hlt rfl
    rw [hdrain, readable_of_not_hasCompressed hplain] at hstream
    have hdecode := (decodeBody_eq chunks.flatten path).2.1
    rw [hdrain] at hdecode
    refine ⟨_, _, hdecode hplain rfl, rfl, rfl, congrArg Prod.fst hstream, ?_⟩
    refine (congrArg Prod.snd hstream).trans ?_
    simp only [streamEnding, if_neg hplain, Option.or_none]
    cases ending <;> cases lastTrailers gs <;> rfl

end ConnectWeb.Transport
