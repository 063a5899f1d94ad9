import ConnectWeb.Foundation.Simulation
import ConnectWeb.Sab.Moves

/-!
# The service behind the bridge

What the blocking bridge is for, without buffers, windows or threads: requests are answered one
at a time, a stream is handed over chunk by chunk, and a call ends with what the network gave for
its own request.  `Sys.observed` is what a step of the bridge shows of this.
-/

namespace ConnectWeb.Sab

/-- How far a request is. -/
inductive Course where
  | asked
  /-- The fetch is out. -/
  | sent
  /-- A unary response whose body is not complete. -/
  | buffering (resp : FetchResponse)
  | whole (resp : FetchResponse) (body : Bytes)
  /-- A streaming response, and the chunk of it that is read and not yielded. -/
  | streaming (resp : FetchResponse) (held : Option Bytes)
  | exhausted
  | failed (message kind : String)

/-- What happens to a request. -/
inductive Op where
  | asked (q : Posted)
  | sent (q : Posted)
  | fetched (q : Posted) (resp : FetchResponse)
  | buffered (q : Posted) (body : Bytes)
  | chunk (q : Posted) (bytes : Bytes)
  | exhausted (q : Posted)
  | failed (q : Posted) (message kind : String)
  | yielded (q : Posted) (bytes : Bytes)
  | returned (q : Posted) (o : Outcome)
  /-- The generator of the request is closed. -/
  | abandoned (q : Posted)

/-- The exception for a failure of some kind. -/
def failure (message kind : String) : WorkerExc :=
  if kind = "timeout" then .transport (.timeout message)
  else if kind = "abort" then .transport (.aborted message)
  else .transport (.plain message)

namespace Course

/-- What the call for a request ends with. -/
def outcome : Course → Option Outcome
  | whole resp body => some (.response ⟨resp.status.toNat, resp.collected, body⟩)
  | exhausted => some .stop
  | failed message kind => some (.raised (failure message kind))
  | asked | sent | buffering _ | streaming _ _ => none

/-- What may happen next to a request of some kind. -/
def next (kind : Kind) : Course → Op → Option Course
  | asked, .sent _ => some sent
  | sent, .fetched _ resp =>
      match kind with
      | .unary => some (buffering resp)
      | .serverStream => some (streaming resp none)
  | buffering resp, .buffered _ body => some (whole resp body)
  | streaming resp none, .chunk _ bytes => some (streaming resp (some bytes))
  | streaming resp (some bytes), .yielded _ bytes' =>
      if bytes' = bytes then some (streaming resp none) else none
  | streaming _ none, .exhausted _ => some exhausted
  | asked, .failed .. | exhausted, .failed .. => none
  | _, .failed _ message kind => some (failed message kind)
  | _, _ => none

end Course

/-- The requests whose calls are not over, and the one that was asked last. -/
structure Service where
  calls : List Posted := []
  latest : Option (Posted × Course) := none

namespace Service

/-- The last request goes on; its call is not over. -/
def advance (a : Service) (q : Posted) (op : Op) : Option Service :=
  match a.latest with
  | some (q', c) =>
      if q' = q ∧ q ∈ a.calls then
        (c.next q.request.kind op).map fun c' ↦ { a with latest := some (q, c') }
      else none
  | none => none

/-- The call for a request is over. -/
def settle (a : Service) (q : Posted) : Service :=
  { a with calls := a.calls.filter fun q' ↦ q' ≠ q }

/-- The call for the last request ends with what the request led to, and the generators of older
ones stop. -/
def Ends (a : Service) (q : Posted) (o : Outcome) : Prop :=
  ∃ l ∈ a.latest,
    if l.1 = q then l.2.outcome = some o else o = .stop ∧ q.request.kind = .serverStream

instance (a : Service) (q : Posted) (o : Outcome) : Decidable (a.Ends q o) :=
  inferInstanceAs (Decidable (∃ l ∈ a.latest, _))

def step (a : Service) (op : Op) : Option Service :=
  match op with
  | .asked q =>
      if ∀ l ∈ a.latest, l.1.gen < q.gen then some ⟨q :: a.calls, some (q, .asked)⟩ else none
  | .returned q o => if q ∈ a.calls ∧ a.Ends q o then some (a.settle q) else none
  | .abandoned q =>
      if q ∈ a.calls ∧ q.request.kind = .serverStream then some (a.settle q) else none
  | .sent q | .fetched q _ | .buffered q _ | .chunk q _ | .exhausted q | .failed q _ _
    | .yielded q _ => a.advance q op

end Service

/-- The service of one channel. -/
def service : System Service Op where
  init := fun a ↦ a = {}
  step := Service.step

/-! ## What the bridge shows -/

abbrev Call.posted (call : Call) : Posted := ⟨call.gen, call.request⟩

def Event.op : Event → Option Op
  | .expired => none
  | .fetched p resp => p.pending.map (.fetched · resp)
  | .buffered p body => p.pending.map (.buffered · body)
  | .chunk p bytes => p.pending.map (.chunk · bytes)
  | .exhausted p => p.pending.map .exhausted
  | .yielded call bytes => some (.yielded call.posted bytes)
  | .returned call o _ => some (.returned call.posted o)

/-- The report that an invocation is about to store. -/
def Current.fails : Current → List Op
  | .run ⟨pick, _, .report message kind _⟩ => pick.pending.toList.map (.failed · message kind)
  | _ => []

namespace Sys

/-- A generator is closed. -/
def abandons (s : Sys) : Action → List Op
  | .close i => s.suspended[i]?.toList.map fun call ↦ .abandoned call.posted
  | _ => []

/-- A request is stored, with its generation. -/
def asks (s s' : Sys) : List Op :=
  if s'.posted 0 = s.posted 0 then [] else (s'.posted 0).toList.map .asked

/-- Invocations pass their guard, and fetch. -/
def sends (s s' : Sys) : List Op :=
  ((s'.picks.drop s.picks.length).filterMap Pick.pending).map .sent

/-- What is recorded. -/
def records (s s' : Sys) : List Op :=
  (s'.log.drop s.log.length).filterMap Event.op

/-- What a step shows of the service. -/
def observed (s : Sys) (a : Action) (s' : Sys) : List Op :=
  s.abandons a ++ s.asks s' ++ s.sends s' ++ s.records s' ++
    if a.byMain then s'.current.fails else []

end Sys

end ConnectWeb.Sab
