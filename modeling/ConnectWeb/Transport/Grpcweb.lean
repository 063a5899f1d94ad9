import ConnectWeb.Transport.Framing

/-!
# The grpc-web stub (`transport/grpcweb.py`)

`GrpcWebStub` speaks the gRPC-Python calling convention over a blocking byte
transport.  Python exceptions are `Exc` values; a generator is the list of what it
yields together with how it ends, `ok` being a plain `StopIteration`.  The protobuf
class of a response is a parameter: its `FromString`.
-/

namespace ConnectWeb.Transport

/-- `HttpResponse` of `_contract.py` -/
structure HttpResponse where
  status : Int
  headers : Dict String String := []
  body : Bytes := []
deriving DecidableEq, Repr

/-- What `request.SerializeToString()` returns.  protobuf refuses to serialise
messages of 2 GiB and more, so the length always fits a frame header. -/
structure Serialized where
  bytes : Bytes
  length_lt : bytes.length < 2 ^ 31

abbrev Metadata := List (String × String)

/-- The `SyncChannel` protocol of `_contract.py`.  A stream is the chunks it yields and,
when it does not end normally, the text of the `TransportError` it then raises. -/
structure SyncChannel (τ : Type) where
  unary : (path : String) → (body : Bytes) → (headers : Dict String String) →
    (timeout : Option τ) → HttpResponse
  serverStream : (path : String) → (body : Bytes) → (headers : Dict String String) →
    (timeout : Option τ) → List Bytes × Option String

/-! ## Headers and trailers -/

def contentType : String := "application/grpc-web+proto"

def baseHeaders : Dict String String :=
  [("content-type", contentType), ("x-grpc-web", "1"), ("grpc-accept-encoding", "identity"),
    ("accept", contentType)]

def grpcStatusOk : String := "0"

def lowerKey (key : String) : String := String.ofList (Text.lower key.toList)

def headersFromMetadata (metadata : Metadata) : Dict String String :=
  let headers := metadata.foldl (fun d p ↦ d.set (lowerKey p.1) p.2) baseHeaders
  (headers.set "content-type" contentType).set "x-grpc-web" "1"

/-- `repr` of a `dict[str, str]` whose texts hold no quote or backslash -/
def reprDict (d : Dict String String) : String :=
  "\x7b" ++ ", ".intercalate (d.map fun p ↦ "'" ++ p.1 ++ "': '" ++ p.2 ++ "'") ++ "\x7d"

def reprHttpStatus : Option Int → String
  | none => "None"
  | some n => toString n

def raiseForTrailers (trailers : Option (Dict String String)) (httpStatus : Option Int)
    (path : String) : Except Exc Unit :=
  match trailers with
  | none => .error (.grpc s!"grpc-web: no trailer frame in response for {path} (http_status={reprHttpStatus httpStatus}); stream truncated" none)
  | some t =>
      match t.get? "grpc-status" with
      | none => .error (.grpc s!"grpc-web: trailer for {path} has no grpc-status: {reprDict t}" none)
      | some status =>
          if status = grpcStatusOk then .ok ()
          else
            let message := (t.get? "grpc-message").getD ""
            .error (.grpc (if message ≠ "" then s!"grpc-status {status}: {message}"
              else s!"grpc-status {status}") (some status))

def trailersFromHeaders (headers : Dict String String) : Option (Dict String String) :=
  let lowered := Dict.ofPairs (headers.map fun p ↦ (lowerKey p.1, p.2))
  match lowered.get? "grpc-status" with
  | none => none
  | some status =>
      match lowered.get? "grpc-message" with
      | none => some [("grpc-status", status)]
      | some message => some [("grpc-status", status), ("grpc-message", message)]

/-! ## Decoding -/

def compressedError (path : String) : Exc :=
  .grpc s!"grpc-web: compressed frame not supported (path={path})" none

/-- The `for frame in iter_frames(body)` loop of `_decode_body`: `ending` is what the
generator raises behind its last frame. -/
def decodeFrames (path : String) (ending : Option Exc) :
    List Frame → List Bytes → Option (Dict String String) →
      Except Exc (List Bytes × Option (Dict String String))
  | [], messages, trailers =>
      match ending with
      | some e => .error e
      | none => .ok (messages, trailers)
  | frame :: later, messages, trailers =>
      if frame.isCompressed then .error (compressedError path)
      else if frame.isTrailer then
        decodeFrames path ending later messages (some (parseTrailers frame.payload))
      else decodeFrames path ending later (messages ++ [frame.payload]) trailers

def decodeBody (body : Bytes) (path : String) :
    Except Exc (List Bytes × Option (Dict String String)) :=
  let walked := iterFrames body
  decodeFrames path walked.2 walked.1 [] none

section Calls

variable {Msg : Type} (fromString : Bytes → Except Exc Msg) (path : String)

/-- What `_call_unary` and `_call_client_stream` both do with the response; `missing`
is the text raised when no message frame came. -/
def unaryResponse (missing : String) (resp : HttpResponse) : Except Exc Msg := do
  let (messages, trailers) ← decodeBody resp.body path
  let trailers := match trailers with
    | some t => some t
    | none => trailersFromHeaders resp.headers
  raiseForTrailers trailers (some resp.status) path
  match messages with
  | [] => .error (.grpc missing none)
  | message :: _ => fromString message

def transportUnavailable (e : String) : Exc :=
  .unavailable s!"grpc-web transport failed ({path}): {e}"

/-- `str(e)` -/
def Exc.text : Exc → String
  | .value m | .struct m | .grpc m _ | .unavailable m | .decode m => m

/-- The inner `while True` of `_stream_responses`: drain every whole frame of `buffer`.
`fuel` bounds the number of frames. -/
def drainBuffer : Nat → Bytes → Option (Dict String String) →
    List Msg × Except Exc (Bytes × Option (Dict String String))
  | 0, buffer, trailers => ([], .ok (buffer, trailers))
  | fuel + 1, buffer, trailers =>
      match takeFrame buffer with
      | none => ([], .ok (buffer, trailers))
      | some (frame, rest) =>
          if frame.isCompressed then ([], .error (compressedError path))
          else if frame.isTrailer then
            drainBuffer fuel rest (some (parseTrailers frame.payload))
          else
            match fromString frame.payload with
            | .error e => ([], .error (transportUnavailable path e.text))
            | .ok message =>
                let later := drainBuffer fuel rest trailers
                (message :: later.1, later.2)

/-- `_stream_responses` from inside its chunk loop.  `ending` is the text of the error the
chunk iterator raises behind its last chunk; `trailers` is `none` while no trailer frame
was seen. -/
def streamFrom (ending : Option String) : List Bytes → Bytes → Option (Dict String String) →
    List Msg × Except Exc Unit
  | [], _, trailers =>
      match ending with
      | some e => ([], .error (transportUnavailable path e))
      | none =>
          match trailers with
          | none => ([], .ok ())
          | some t => ([], raiseForTrailers (some t) none path)
  | chunk :: chunks, buffer, trailers =>
      if chunk = [] then streamFrom ending chunks buffer trailers
      else
        let buffer := buffer ++ chunk
        match drainBuffer fromString path buffer.length buffer trailers with
        | (messages, .error e) => (messages, .error e)
        | (messages, .ok (rest, trailers)) =>
            let later := streamFrom ending chunks rest trailers
            (messages ++ later.1, later.2)

def streamResponses (chunks : List Bytes) (ending : Option String) : List Msg × Except Exc Unit :=
  streamFrom fromString path ending chunks [] none

end Calls

/-! ## The stub -/

/-- `grpc_path` of `_contract.py` -/
def grpcPath (method : String) : String := "/spark.connect.SparkConnectService/" ++ method

/-- The unary methods `GrpcWebStub.__init__` binds. -/
inductive UnaryMethod where
  | releaseExecute | analyzePlan | config | interrupt | artifactStatus | releaseSession
  | fetchErrorDetails
deriving DecidableEq, Repr

def UnaryMethod.name : UnaryMethod → String
  | .releaseExecute => "ReleaseExecute"
  | .analyzePlan => "AnalyzePlan"
  | .config => "Config"
  | .interrupt => "Interrupt"
  | .artifactStatus => "ArtifactStatus"
  | .releaseSession => "ReleaseSession"
  | .fetchErrorDetails => "FetchErrorDetails"

/-- The server-streaming methods. -/
inductive StreamMethod where
  | executePlan | reattachExecute
deriving DecidableEq, Repr

def StreamMethod.name : StreamMethod → String
  | .executePlan => "ExecutePlan"
  | .reattachExecute => "ReattachExecute"

structure GrpcWebStub (τ : Type) where
  channel : SyncChannel τ
  defaultMetadata : Metadata := []

namespace GrpcWebStub

variable {τ Msg : Type} (stub : GrpcWebStub τ)
variable (fromString : Bytes → Except Exc Msg)

def mergeMetadata (metadata : Option Metadata) : Metadata :=
  stub.defaultMetadata ++ metadata.getD []

def callUnary (path : String) (request : Serialized) (metadata : Option Metadata)
    (timeout : Option τ) : Except Exc Msg := do
  let headers := headersFromMetadata (stub.mergeMetadata metadata)
  let body ← encodeMessage request.bytes
  unaryResponse fromString path s!"grpc-web: OK trailer but no message frame for unary {path}"
    (stub.channel.unary path body headers timeout)

def callServerStream (path : String) (request : Serialized) (metadata : Option Metadata)
    (timeout : Option τ) : Except Exc (List Msg × Except Exc Unit) := do
  let headers := headersFromMetadata (stub.mergeMetadata metadata)
  let body ← encodeMessage request.bytes
  let (chunks, ending) := stub.channel.serverStream path body headers timeout
  .ok (streamResponses fromString path chunks ending)

def callClientStream (path : String) (requests : List Serialized) (metadata : Option Metadata)
    (timeout : Option τ) : Except Exc Msg := do
  let headers := headersFromMetadata (stub.mergeMetadata metadata)
  let bodies ← requests.mapM fun request ↦ encodeMessage request.bytes
  unaryResponse fromString path s!"grpc-web: OK trailer but no message frame for {path}"
    (stub.channel.unary path bodies.flatten headers timeout)

/-- The callable that `_make_unary` binds for a method. -/
def unary (method : UnaryMethod) (request : Serialized) (metadata : Option Metadata)
    (timeout : Option τ) : Except Exc Msg :=
  stub.callUnary fromString (grpcPath method.name) request metadata timeout

/-- The callable that `_make_server_stream` binds for a method. -/
def serverStream (method : StreamMethod) (request : Serialized) (metadata : Option Metadata)
    (timeout : Option τ) : Except Exc (List Msg × Except Exc Unit) :=
  stub.callServerStream fromString (grpcPath method.name) request metadata timeout

/-- The callable that `_make_client_stream` binds for `AddArtifacts`. -/
def addArtifacts (requests : List Serialized) (metadata : Option Metadata)
    (timeout : Option τ) : Except Exc Msg :=
  stub.callClientStream fromString (grpcPath "AddArtifacts") requests metadata timeout

end GrpcWebStub

end ConnectWeb.Transport
