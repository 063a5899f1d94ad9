import ConnectWeb.Transport.Outcome
import ConnectWeb.Transport.RoundTrip

/-!
# Outcomes of unary calls

What a unary call or the `AddArtifacts` lowering may do with a response: return the first
message, with the effective status at zero, or raise `SparkConnectGrpcException`, carrying
the status of the headers when the body has no trailers.  `_decode_body` runs before the
fallback to the headers and raises on bytes that are not whole frames, so the calls do this
for exactly the responses that are `Decodable`.
-/

namespace ConnectWeb.Transport

/-- The `grpc-status` of a trailer block. -/
def statusOf (trailers : Option (Dict String String)) : Option String :=
  trailers.bind fun t ↦ t.get? "grpc-status"

/-- The status the response carries in its headers. -/
def headerStatus (resp : HttpResponse) : Option String :=
  statusOf (trailersFromHeaders resp.headers)

/-- The whole frames in front of the response's body. -/
def HttpResponse.wholeFrames (resp : HttpResponse) : List Frame := (frames.drain resp.body).1

/-- The effective trailers: those of the last trailer frame, else the headers'. -/
def effectiveTrailers (resp : HttpResponse) : Option (Dict String String) :=
  (lastTrailers resp.wholeFrames).or (trailersFromHeaders resp.headers)

/-- The headers carry a failure and no trailer frame overrides it. -/
def FailedByHeaders (resp : HttpResponse) (status : String) : Prop :=
  lastTrailers resp.wholeFrames = none ∧ headerStatus resp = some status ∧ status ≠ grpcStatusOk

/-- The outcome of a call is one the response calls for. -/
structure Classified {Msg : Type} (f : Bytes → Msg) (resp : HttpResponse)
    (outcome : Except Exc Msg) : Prop where
  /-- A returned value is the first message, under status zero. -/
  returned : ∀ m, outcome = .ok m →
    (messagePayloads resp.wholeFrames).head?.map f = some m ∧
      statusOf (effectiveTrailers resp) = some grpcStatusOk
  /-- Nothing but `SparkConnectGrpcException` is raised. -/
  raised : ∀ e, outcome = .error e → ∃ message reason, e = .grpc message reason
  /-- A status in the headers alone becomes the reason. -/
  reason : ∀ status, FailedByHeaders resp status →
    ∃ message, outcome = .error (.grpc message (some status))

/-- The responses `_decode_body` does not stand in the way of: a compressed frame hides no
status that only the headers carry, and without one the body is whole frames. -/
structure Decodable (resp : HttpResponse) : Prop where
  /-- A compressed frame hides no failure reported in the headers. -/
  compressed : hasCompressed resp.wholeFrames → ∀ status, ¬ FailedByHeaders resp status
  /-- No bytes are left behind the frames. -/
  whole : ¬ hasCompressed resp.wholeFrames → (frames.drain resp.body).2 = []

/-- `_raise_for_trailers` by the status it looks up. -/
theorem raiseForTrailers_eq (trailers : Option (Dict String String)) (httpStatus : Option Int)
    (path : String) :
    (statusOf trailers = none →
      ∃ message, raiseForTrailers trailers httpStatus path = .error (.grpc message none)) ∧
    (statusOf trailers = some grpcStatusOk → raiseForTrailers trailers httpStatus path = .ok ()) ∧
    (∀ status, statusOf trailers = some status → status ≠ grpcStatusOk →
      ∃ message,
        raiseForTrailers trailers httpStatus path = .error (.grpc message (some status))) := by
  rcases trailers with _ | t
  · simp [statusOf, raiseForTrailers]
  rcases h : t.get? "grpc-status" with _ | status
  · simp [statusOf, raiseForTrailers, h]
  by_cases hok : status = grpcStatusOk
  · simp [statusOf, raiseForTrailers, h, hok]
  · simp [statusOf, raiseForTrailers, h, hok]

section Response

variable {Msg : Type} (f : Bytes → Msg) (path missing : String) (resp : HttpResponse)

theorem unaryResponse_of_raised {e : Exc} (h : decodeBody resp.body path = .error e) :
    unaryResponse (totalFromString f) path missing resp = .error e := by
  unfold unaryResponse
  rw [h]
  rfl

/-- On whole uncompressed frames the effective trailers decide, then the first message. -/
theorem unaryResponse_of_whole (hc : ¬ hasCompressed resp.wholeFrames)
    (hrest : (frames.drain resp.body).2 = []) :
    unaryResponse (totalFromString f) path missing resp =
      (raiseForTrailers (effectiveTrailers resp) (some resp.status) path).bind fun _ ↦
        ((messagePayloads resp.wholeFrames).head?.map f).elim
          (.error (.grpc missing none)) .ok := by
  have hdec : decodeBody resp.body path =
      .ok (messagePayloads resp.wholeFrames, lastTrailers resp.wholeFrames) :=
    (decodeBody_eq resp.body path).2.1 hc hrest
  unfold unaryResponse effectiveTrailers
  rw [hdec]
  cases lastTrailers resp.wholeFrames <;> cases messagePayloads resp.wholeFrames <;> rfl

/-- A failure in the headers that no trailer frame overrides is the effective status. -/
theorem FailedByHeaders.effective {resp : HttpResponse} {status : String}
    (h : FailedByHeaders resp status) :
    statusOf (effectiveTrailers resp) = some status ∧ status ≠ grpcStatusOk := by
  obtain ⟨hno, hst, hne⟩ := h
  refine ⟨?_, hne⟩
  rw [effectiveTrailers, hno]
  exact hst

theorem Classified.of_error {resp : HttpResponse} {message : String} {reason : Option String}
    (h : ∀ status, FailedByHeaders resp status → reason = some status) :
    Classified f resp (.error (.grpc message reason)) where
  returned := fun m hm ↦ by cases hm
  raised := fun e he ↦ by
    cases he
    exact ⟨message, reason, rfl⟩
  reason := fun status hfail ↦ ⟨message, by rw [h status hfail]⟩

/-- A body of whole uncompressed frames is classified. -/
theorem unaryResponse_classified (hc : ¬ hasCompressed resp.wholeFrames)
    (hrest : (frames.drain resp.body).2 = []) :
    Classified f resp (unaryResponse (totalFromString f) path missing resp) := by
  rw [unaryResponse_of_whole f path missing resp hc hrest]
  obtain ⟨hnone, hzero, hfailed⟩ :=
    raiseForTrailers_eq (effectiveTrailers resp) (some resp.status) path
  rcases hst : statusOf (effectiveTrailers resp) with _ | status
  · obtain ⟨message, hm⟩ := hnone hst
    rw [hm]
    refine .of_error f fun status hfail ↦ ?_
    rw [hfail.effective.1] at hst
    cases hst
  by_cases hok : status = grpcStatusOk
  · subst hok
    have hnofail : ∀ status, ¬ FailedByHeaders resp status := by
      intro status hfail
      obtain ⟨heff, hne⟩ := hfail.effective
      rw [hst] at heff
      exact hne (Option.some.inj heff).symm
    rw [hzero hst]
    rcases hmsg : (messagePayloads resp.wholeFrames).head?.map f with _ | m
    · exact .of_error f fun status hfail ↦ absurd hfail (hnofail status)
    · refine ⟨fun m' hm' ↦ ?_, (fun e he ↦ nomatch he), fun status hfail ↦ ?_⟩
      · cases hm'
        exact ⟨hmsg, hst⟩
      · exact absurd hfail (hnofail status)
  · obtain ⟨message, hm⟩ := hfailed status hst hok
    rw [hm]
    refine .of_error f fun status' hfail ↦ ?_
    rw [← hst, hfail.effective.1]

/-- Both calls classify exactly the decodable responses. -/
theorem unaryResponse_classified_iff :
    Classified f resp (unaryResponse (totalFromString f) path missing resp) ↔
      Decodable resp := by
  obtain ⟨hcomp, -, htrunc⟩ := decodeBody_eq resp.body path
  by_cases hc : hasCompressed resp.wholeFrames
  · rw [unaryResponse_of_raised f path missing resp (hcomp hc)]
    constructor
    · intro h
      refine ⟨fun _ status hfail ↦ ?_, fun hn ↦ absurd hc hn⟩
      obtain ⟨message, hm⟩ := h.reason status hfail
      cases hm
    · intro h
      exact .of_error f fun status hfail ↦ absurd hfail (h.compressed hc status)
  by_cases hrest : (frames.drain resp.body).2 = []
  · exact ⟨fun _ ↦ ⟨fun h ↦ absurd h hc, fun _ ↦ hrest⟩,
      fun _ ↦ unaryResponse_classified f path missing resp hc hrest⟩
  · obtain ⟨text, hm⟩ := htrunc hc hrest
    rw [unaryResponse_of_raised f path missing resp hm]
    constructor
    · intro h
      obtain ⟨message, reason, he⟩ := h.raised _ rfl
      cases he
    · intro h
      exact absurd (h.whole hc) hrest

end Response

/-! ## The calls of the stub -/

/-- Every unary method and the `AddArtifacts` lowering classify the channel's response if
and only if it is decodable. -/
theorem unary_outcome_iff {τ Msg : Type} (f : Bytes → Msg) (stub : GrpcWebStub τ)
    (metadata : Option Metadata) (timeout : Option τ) :
    (∀ (method : UnaryMethod) (request : Serialized),
      let resp := stub.channel.unary (grpcPath method.name) (encodeFrame ⟨0, request.bytes⟩)
        (headersFromMetadata (stub.mergeMetadata metadata)) timeout
      Classified f resp (stub.unary (fun b ↦ .ok (f b)) method request metadata timeout) ↔
        Decodable resp) ∧
    (∀ requests : List Serialized,
      let resp := stub.channel.unary (grpcPath "AddArtifacts")
        (requests.map fun request ↦ encodeFrame ⟨0, request.bytes⟩).flatten
        (headersFromMetadata (stub.mergeMetadata metadata)) timeout
      Classified f resp (stub.addArtifacts (fun b ↦ .ok (f b)) requests metadata timeout) ↔
        Decodable resp) := by
  refine ⟨fun method request ↦ ?_, fun requests ↦ ?_⟩
  · unfold GrpcWebStub.unary GrpcWebStub.callUnary
    rw [encodeMessage_bytes]
    exact unaryResponse_classified_iff f _ _ _
  · unfold GrpcWebStub.addArtifacts GrpcWebStub.callClientStream
    rw [mapM_encodeMessage]
    exact unaryResponse_classified_iff f _ _ _

/-- A proxy's plain-text 503: the call raises `ValueError`. -/
theorem unary_plain_text_not_classified :
    let resp : HttpResponse :=
      ⟨503, [("content-type", "text/plain")], Utf8.encode "no healthy upstream".toList⟩
    let stub : GrpcWebStub Nat := ⟨⟨fun _ _ _ _ ↦ resp, fun _ _ _ _ ↦ ([], none)⟩, []⟩
    ¬ Classified id resp
      (stub.unary (fun b ↦ .ok (id b)) .analyzePlan ⟨[], by decide⟩ none none) := by
  intro resp stub h
  obtain ⟨message, reason, he⟩ := h.raised (.value "truncated grpc-web frame body at offset 0: declared 1864394853 byte(s), only 14 available") (by decide)
  cases he

end ConnectWeb.Transport
