import ConnectWeb.Transport.RoundTrip
import ConnectWeb.Transport.Unary

/-!
# Answering an RPC

The ten methods of the stub as calls of one kind, and what a server that frames its messages and
its trailers makes of them: what the stub gives its caller depends on the answer only, and not on
how the body was cut or how much of it has arrived.
-/

namespace ConnectWeb.Transport

/-! ## Calls -/

/-- A call of a method of the stub. -/
inductive StubCall where
  | unary (method : UnaryMethod) (request : Serialized)
  | serverStream (method : StreamMethod) (request : Serialized)
  | addArtifacts (requests : List Serialized)

namespace StubCall

def streams : StubCall → Bool
  | serverStream _ _ => true
  | unary _ _ | addArtifacts _ => false

def method : StubCall → String
  | unary method _ => method.name
  | serverStream method _ => method.name
  | addArtifacts _ => "AddArtifacts"

def path (call : StubCall) : String := grpcPath call.method

def requests : StubCall → List Serialized
  | unary _ request | serverStream _ request => [request]
  | addArtifacts requests => requests

/-- The message frames that the stub sends. -/
def frames (call : StubCall) : List Frame := call.requests.map fun request ↦ ⟨0, request.bytes⟩

/-- The body that the stub hands to its channel. -/
def body (call : StubCall) : Bytes := call.frames.flatMap encodeFrame

/-- The text for an `OK` without a message. -/
def missing : StubCall → String
  | unary method _ => s!"grpc-web: OK trailer but no message frame for unary {grpcPath method.name}"
  | call => s!"grpc-web: OK trailer but no message frame for {call.path}"

/-- What a call gives its caller: a message, or the messages of an iterator and how it ends. -/
inductive Result (Msg : Type) where
  | message (result : Except Exc Msg)
  | stream (result : Except Exc (List Msg × Except Exc Unit))

variable {τ Msg : Type}

/-- The call on a stub. -/
def perform (fromString : Bytes → Except Exc Msg) (stub : GrpcWebStub τ)
    (metadata : Option Metadata) (timeout : Option τ) : StubCall → Result Msg
  | unary method request => .message (stub.unary fromString method request metadata timeout)
  | serverStream method request =>
      .stream (stub.serverStream fromString method request metadata timeout)
  | addArtifacts requests => .message (stub.addArtifacts fromString requests metadata timeout)

section
variable (fromString : Bytes → Except Exc Msg) (stub : GrpcWebStub τ)
  (metadata : Option Metadata) (timeout : Option τ)

/-- A call that does not stream is one `unary` of the channel. -/
theorem perform_message {call : StubCall} (h : call.streams = false) :
    call.perform fromString stub metadata timeout =
      .message (unaryResponse fromString call.path call.missing
        (stub.channel.unary call.path call.body
          (headersFromMetadata (stub.mergeMetadata metadata)) timeout)) := by
  cases call with
  | serverStream _ _ => cases h
  | unary method request =>
      rw [perform, GrpcWebStub.unary, GrpcWebStub.callUnary, encodeMessage_bytes, body, frames,
        requests, List.map_singleton, List.flatMap_singleton]
      rfl
  | addArtifacts requests =>
      rw [perform, GrpcWebStub.addArtifacts, GrpcWebStub.callClientStream, mapM_encodeMessage, body,
        frames, List.flatMap_map, List.flatMap_def]
      rfl

/-- A call that streams is one `server_stream`. -/
theorem perform_stream {call : StubCall} (h : call.streams = true) :
    call.perform fromString stub metadata timeout =
      let handed := stub.channel.serverStream call.path call.body
        (headersFromMetadata (stub.mergeMetadata metadata)) timeout
      .stream (.ok (streamResponses fromString call.path handed.1 handed.2)) := by
  cases call with
  | unary _ _ | addArtifacts _ => cases h
  | serverStream method request =>
      rw [perform, GrpcWebStub.serverStream, GrpcWebStub.callServerStream, encodeMessage_bytes, body,
        frames, requests, List.map_singleton, List.flatMap_singleton]
      rfl

end

/-- The server reads the requests off the body, in order. -/
theorem iterFrames_body (call : StubCall) : iterFrames call.body = (call.frames, none) := by
  refine iterFrames_encodeFrames (encodeFrames_eq_ok_iff.mpr ⟨fun f hf ↦ ?_, rfl⟩)
  obtain ⟨request, -, rfl⟩ := List.mem_map.mp hf
  exact request.length_lt.trans (by decide)

end StubCall

/-! ## Answers -/

/-- What a server answers: messages, and the block of its trailers. -/
structure Answer where
  messages : List Bytes
  trailer : Bytes
  messages_lt : ∀ m ∈ messages, m.length < 2 ^ 32
  trailer_lt : trailer.length < 2 ^ 32

namespace Answer

variable {Msg : Type} (f : Bytes → Msg) (a : Answer) (path : String)

def frames : List Frame := (a.messages.map fun m ↦ ⟨0, m⟩) ++ [⟨trailerFlag, a.trailer⟩]

/-- The body of the HTTP response. -/
def body : Bytes := a.frames.flatMap encodeFrame

/-- How the call ends. -/
def ending : Except Exc Unit := raiseForTrailers (some (parseTrailers a.trailer)) none path

/-- The first message, if the trailers are fine. -/
def first (missing : String) : Except Exc Msg :=
  (a.ending path).bind fun _ ↦ (a.messages.head?.map f).elim (.error (.grpc missing none)) .ok

/-- What a call gives its caller. -/
def result (call : StubCall) : StubCall.Result Msg :=
  if call.streams then .stream (.ok (a.messages.map f, a.ending call.path))
  else .message (a.first f call.path call.missing)

theorem messagePayloads_frames : messagePayloads a.frames = a.messages := by
  have hmessage : (⟨trailerFlag, a.trailer⟩ : Frame).isTrailer = true :=
    (by decide : (trailerFlag &&& trailerFlag != 0) = true)
  rw [frames, messagePayloads_append, messagePayloads_cons, if_pos hmessage]
  induction a.messages with
  | nil => rfl
  | cons m messages ih =>
      rw [List.map_cons, messagePayloads_cons, if_neg, List.cons_append, ih]
      exact (by decide : ¬ ((0 : UInt8) &&& trailerFlag != 0) = true)

theorem lastTrailers_frames : lastTrailers a.frames = some (parseTrailers a.trailer) := by
  have htrailer : (⟨trailerFlag, a.trailer⟩ : Frame).isTrailer = true :=
    (by decide : (trailerFlag &&& trailerFlag != 0) = true)
  rw [frames, lastTrailers_append, lastTrailers_cons, if_pos htrailer]
  rfl

theorem not_hasCompressed_frames : ¬ hasCompressed a.frames := by
  rintro ⟨g, hg, hc⟩
  rcases List.mem_append.mp hg with hg | hg
  · obtain ⟨m, -, rfl⟩ := List.mem_map.mp hg
    exact absurd hc (by decide : ¬ ((0 : UInt8) &&& compressedFlag != 0) = true)
  · rw [List.mem_singleton.mp hg] at hc
    exact absurd hc (by decide : ¬ (trailerFlag &&& compressedFlag != 0) = true)

theorem drain_body : Transport.frames.drain a.body = (a.frames, []) := by
  refine frames_drain_unique (List.append_nil _).symm (fun g hg ↦ ?_) rfl
  rcases List.mem_append.mp hg with hg | hg
  · obtain ⟨m, hm, rfl⟩ := List.mem_map.mp hg
    exact a.messages_lt m hm
  · rw [List.mem_singleton.mp hg]
    exact a.trailer_lt

/-- A whole answer as a unary response, whatever its status and headers. -/
theorem unaryResponse_body (missing : String) (status : Int) (headers : Dict String String) :
    unaryResponse (totalFromString f) path missing ⟨status, headers, a.body⟩ =
      a.first f path missing := by
  have hframes : HttpResponse.wholeFrames ⟨status, headers, a.body⟩ = a.frames := by
    rw [HttpResponse.wholeFrames, drain_body]
  rw [unaryResponse_of_whole f path missing _ (by rw [hframes]; exact a.not_hasCompressed_frames)
    (by rw [drain_body])]
  rw [effectiveTrailers, hframes, messagePayloads_frames, lastTrailers_frames]
  rfl

/-- A whole answer in any chunks. -/
theorem streamResponses_whole {chunks : List Bytes} (h : chunks.flatten = a.body) :
    streamResponses (totalFromString f) path chunks none =
      (a.messages.map f, a.ending path) := by
  rw [streamResponses_eq, h, drain_body, readable_of_not_hasCompressed a.not_hasCompressed_frames,
    messagePayloads_frames, streamEnding, if_neg a.not_hasCompressed_frames, lastTrailers_frames]
  rfl

/-- As much of an answer as has arrived gives as many of its messages. -/
theorem streamResponses_front {chunks : List Bytes} (h : chunks.flatten <+: a.body)
    (ending : Option String) :
    (streamResponses (totalFromString f) path chunks ending).1 <+: a.messages.map f := by
  obtain ⟨later, hframes⟩ : (Transport.frames.drain chunks.flatten).1 <+: a.frames := by
    have hfront := Transport.frames.drain_prefix h
    rwa [a.drain_body] at hfront
  have hplain : ¬ hasCompressed (Transport.frames.drain chunks.flatten).1 := by
    intro hc
    refine a.not_hasCompressed_frames ?_
    rw [← hframes, hasCompressed_append]
    exact .inl hc
  rw [streamResponses_eq, readable_of_not_hasCompressed hplain, ← messagePayloads_frames, ← hframes,
    messagePayloads_append, List.map_append]
  exact List.prefix_append _ _

end Answer

end ConnectWeb.Transport
