import ConnectWeb.Sab.Layout
import ConnectWeb.Transport.Grpcweb
import Mathlib.Data.List.Sort

/-!
# The state of the blocking bridge

One worker thread (`_AtomicsBackend`, any number of instances) and the main thread
(`Bridge`), which share the control and data SABs and a message queue.  The records here
are the locals of the two programs at the points where the threads can interleave: before
each Atomics operation, each `postMessage`, and each `await`.

The fields under *history* are read by no program.  They record who wrote what, for the
statements about runs.
-/

namespace ConnectWeb.Sab

open Transport (HttpResponse)

/-! ## The control words -/

/-- The STATE values that are ever stored (`S_REALLOC_REQ` is not). -/
inductive SabState where
  | idle | reqReady | respChunk | respEnd | respError | chunkAck
deriving DecidableEq, Repr

namespace SabState

def code : SabState → Nat
  | idle => 0
  | reqReady => 1
  | respChunk => 2
  | respEnd => 3
  | respError => 4
  | chunkAck => 5

/-- The main thread is due: a request or an ack is up. -/
def mainTurn : SabState → Bool
  | reqReady | chunkAck => true
  | _ => false

/-- The values that `_awaitWorker(S_CHUNK_ACK)` returns on. -/
def endsAwait : SabState → Bool
  | idle | reqReady | chunkAck => true
  | _ => false

/-- The main thread has answered. -/
def answer : SabState → Bool
  | respChunk | respEnd | respError => true
  | _ => false

end SabState

/-- A control SAB: its `Int32` words. -/
structure Control where
  state : SabState := .idle
  length : Int := 0
  status : Int := 0
  seq : Int := 0
  gen : Int := 0
  cap : Int := 0

/-- An `_AtomicsBackend`: its control SAB, the data SAB its views are bound to, and its
generation counter. -/
structure Backend where
  ctrl : Control := {}
  data : Nat := 0
  gen : Nat := 0

/-- What the worker posts to the main thread. -/
inductive Message where
  /-- `pcw_sab`: a backend announces its control SAB and a data SAB. -/
  | sab (chan data : Nat)
  /-- `pcw_rpc`: the nudge. -/
  | rpc
deriving DecidableEq, Repr

/-! ## The engine and the network -/

/-- A text of the engine's own errors (`RangeError` and the like), short enough to be
reported within the meta zone. -/
structure EngineText where
  text : String
  fits : (metaBytes (errorMeta text "error")).length ≤ metaZone

/-- What the main thread's JavaScript engine brings along. -/
structure Engine where
  /-- `Atomics.waitAsync` exists. -/
  waitAsync : Bool
  /-- `TypedArray.prototype.set` out of range. -/
  rangeError : EngineText
  /-- `JSON.parse` of something else. -/
  syntaxError : EngineText
  /-- A property of `null`. -/
  typeError : EngineText

/-- The texts of V8. -/
def v8 : Engine where
  waitAsync := true
  rangeError := ⟨"offset is out of bounds", by decide +kernel⟩
  syntaxError := ⟨"Unexpected token in JSON", by decide +kernel⟩
  typeError := ⟨"Cannot read properties of null (reading 'headers')", by decide +kernel⟩

/-- A fetch that succeeded, whatever its status. -/
structure FetchResponse where
  status : UInt16
  /-- What `headers.forEach` yields. -/
  headers : List (String × String) := []
  hasBody : Bool := true
deriving DecidableEq, Repr

namespace FetchResponse

def ok (resp : FetchResponse) : Bool := 200 ≤ resp.status.toNat && resp.status.toNat ≤ 299

/-- The array index that a property name is, if it is one. -/
def arrayIndex (name : String) : Option Nat :=
  let n := Nat.ofDigitChars 10 name.toList 0
  if Nat.toDigits 10 n = name.toList ∧ n < 2 ^ 32 - 1 then some n else none

/-- The `headers` object: array indices first, in order, then the names as they came; assigning
to `__proto__` adds no property. -/
def collected (resp : FetchResponse) : Dict String String :=
  let named := Dict.ofPairs (resp.headers.filter fun p ↦ p.1 ≠ "__proto__")
  let indices := named.filter fun p ↦ (arrayIndex p.1).isSome
  indices.insertionSort (fun p q ↦ (arrayIndex p.1).getD 0 ≤ (arrayIndex q.1).getD 0) ++
    named.filter fun p ↦ (arrayIndex p.1).isNone

/-- The `metaBase` of a first window. -/
def metaBase (resp : FetchResponse) : List (String × Json) :=
  [("ok", .bool resp.ok), ("headers", .ofStrings resp.collected)]

end FetchResponse

inductive FetchResult where
  | resolved (resp : FetchResponse)
  /-- `isAbort`: the error is an `AbortError`; `text` is its message, or itself. -/
  | rejected (isAbort : Bool) (text : String)

inductive BufferResult where
  | resolved (body : Bytes)
  | rejected (error : EngineText)

inductive ReadResult where
  | value (chunk : Bytes)
  | done
  | rejected (isAbort : Bool) (text : String)

/-! ## The worker -/

inductive TransportError where
  | plain (message : String)
  | timeout (message : String)
  | aborted (message : String)
deriving DecidableEq, Repr

/-- What a call raises. -/
inductive WorkerExc where
  | transport (e : TransportError)
  /-- Not a `TransportError`: what the decoder of a malformed window raises, or the copy of a
  request that does not fit. -/
  | other
deriving DecidableEq, Repr

/-- How a call ends. -/
inductive Outcome where
  /-- `unary` returns. -/
  | response (resp : HttpResponse)
  /-- The generator returns. -/
  | stop
  | raised (e : WorkerExc)
deriving DecidableEq, Repr

/-- The calls of `_wait`. -/
inductive Wait where
  /-- for the first answer -/
  | first
  /-- in `_reassemble_windows` -/
  | window
  /-- for the next chunk of a stream -/
  | chunk
deriving DecidableEq, Repr

/-- `expect_from` -/
def Wait.expect : Wait → SabState
  | first => .reqReady
  | window | chunk => .chunkAck

/-- The locals of `unary` or `server_stream`. -/
structure Call where
  chan : Nat
  /-- `my_gen` -/
  gen : Nat
  request : Request
  status : Int := 0
  firstMeta : Option Json := none
  parts : List Bytes := []

/-- Where a call is. -/
inductive Pc where
  /-- `_grow_data_sab`: allocate, publish the capacity -/
  | grow
  /-- `_attach_data`: post the announcement of data SAB `d` -/
  | announce (d : Nat)
  /-- store the request, then GEN -/
  | marshal
  | storeLength (off : Nat)
  | storeSeq
  /-- STATE := REQ_READY and notify -/
  | storeReady
  | nudge
  /-- the load in `_wait` -/
  | wait (w : Wait)
  /-- the `Atomics.wait` in `_wait` -/
  | block (w : Wait)
  /-- asleep in `Atomics.wait` -/
  | parked (w : Wait)
  /-- `unary` loads STATUS; `chunk`: a window is there -/
  | loadStatus (chunk : Bool)
  | readWindow
  /-- STATE := CHUNK_ACK between two windows -/
  | ackWindow
  /-- behind `yield`: load GEN -/
  | resume
  /-- STATE := CHUNK_ACK between two chunks -/
  | ackChunk
  /-- `_reset_idle_if_current`: load GEN -/
  | resetLoad (o : Outcome)
  /-- `_reset_idle_if_current`: STATE := IDLE -/
  | resetStore (o : Outcome)

inductive Worker where
  /-- Running the caller's code. -/
  | ready
  /-- In `__init__`, about to announce. -/
  | attaching (chan data : Nat)
  | run (call : Call) (pc : Pc)

/-- A generator being closed: in `_reset_idle_if_current`, before its load or its store. -/
structure Closing where
  call : Call
  loaded : Bool

/-! ## The main thread -/

/-- A request as the worker last stored it into a channel (history). -/
structure Posted where
  gen : Nat
  request : Request
deriving DecidableEq, Repr

/-- An invocation of `handleRpc` that passed its guard: what `_readRequest` gave it, and, as
history, where it read and which request was up. -/
structure Pick where
  id : Nat
  chan : Nat
  data : Nat
  pending : Option Posted
  read : Option (Json × Bytes)

namespace Pick

def header (p : Pick) : Json :=
  match p.read with
  | some (h, _) => h
  | none => .null

/-- The request as a value of the worker's. -/
def Reads (p : Pick) (posted : Posted) : Prop :=
  p.read = some (Sab.header posted.request posted.gen, posted.request.body)

end Pick

/-- A message being emitted: the locals of `_emitMessage` before a window, and whether the
caller is the stream loop. -/
structure Emission where
  resp : FetchResponse
  metaBase : List (String × Json)
  bytes : Bytes
  cap : Int
  sent : Int
  streaming : Bool

/-- What an ack, or a state store, leads to. -/
inductive Next where
  /-- the next window of the message -/
  | window (e : Emission)
  /-- the next `reader.read()` -/
  | read (resp : FetchResponse)
  /-- the end of `handleRpc` -/
  | leave

/-- Where `handleRpc` is. -/
inductive At where
  | fetching
  /-- `await resp.arrayBuffer()` -/
  | buffering (resp : FetchResponse)
  /-- `await reader.read()` -/
  | reading (resp : FetchResponse) (first : Bool)
  /-- `_writeWindow` of a window: data, then STATUS -/
  | window (e : Emission)
  /-- `_writeError`: data, then STATUS; `caught`: in the outer `catch` -/
  | report (message kind : String) (caught : Bool)
  | storeLength (off : Nat) (state : SabState) (next : Next)
  /-- STATE := `state` and notify -/
  | storeState (state : SabState) (next : Next)
  /-- `_awaitWorker`: the load -/
  | awaitLoad (next : Next)
  /-- `_awaitWorker`: `Atomics.waitAsync`, or the timer -/
  | awaitBlock (cur : SabState) (next : Next)
  /-- asleep on the STATE word of `chan` -/
  | parked (chan : Nat) (cur : SabState) (next : Next)
  /-- the promise of `waitAsync` is resolved, or the timer runs -/
  | woken (next : Next)
  /-- `finally` -/
  | leaving

/-- A running invocation of `handleRpc`. -/
structure Task where
  pick : Pick
  timedOut : Bool := false
  pc : At

/-- What the main thread executes right now; everything else waits for its turn. -/
inductive Current where
  | idle
  /-- `handleRpc`, before its guard -/
  | guard
  | run (t : Task)

def Current.task : Current → Option Task
  | run t => some t
  | _ => none

structure Bridge where
  ctrl : Option Nat := none
  data : Nat := 0
  busy : Bool := false

/-! ## The whole -/

/-- A place in shared memory, for the record of its last writer. -/
inductive Cell where
  | state (chan : Nat)
  | status (chan : Nat)
  | length (chan : Nat)
  | data (d : Nat)
deriving DecidableEq

/-- What is recorded of a run. -/
inductive Event where
  /-- A wait ran into its timeout. -/
  | expired
  | fetched (p : Pick) (resp : FetchResponse)
  | buffered (p : Pick) (body : Bytes)
  /-- `reader.read()` returned a non-empty chunk. -/
  | chunk (p : Pick) (bytes : Bytes)
  | exhausted (p : Pick)
  | yielded (call : Call) (bytes : Bytes)
  /-- `latest` is the backend's generation at the time. -/
  | returned (call : Call) (o : Outcome) (latest : Nat)

structure Sys where
  backend : Nat → Backend := fun _ ↦ {}
  /-- The number of backends constructed so far. -/
  backends : Nat := 0
  sab : Nat → Region := fun _ ↦ .zeros 0
  /-- The number of data SABs allocated so far. -/
  sabs : Nat := 0
  /-- Messages from the worker, oldest first. -/
  queue : List Message := []
  worker : Worker := .ready
  closing : Option Closing := none
  /-- The generators suspended at their `yield`. -/
  suspended : List Call := []
  bridge : Bridge := {}
  current : Current := .idle
  /-- The invocations suspended at an `await`. -/
  tasks : List Task := []
  /-- History: the request last stored into each channel. -/
  posted : Nat → Option Posted := fun _ ↦ none
  /-- History: what the worker has posted to the main thread, oldest first. -/
  sent : List Message := []
  /-- History: the invocation that last wrote each place, as it was; `none` is the worker. -/
  writer : Cell → Option Task := fun _ ↦ none
  /-- History: the invocations that passed their guard, oldest first. -/
  picks : List Pick := []
  log : List Event := []

end ConnectWeb.Sab
