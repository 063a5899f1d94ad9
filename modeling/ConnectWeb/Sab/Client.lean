import ConnectWeb.Foundation.Text
import ConnectWeb.Sab.Dispatch
import ConnectWeb.Transport.Answer

/-!
# Who asks (`SabSyncChannel`, `GrpcWebStub`)

`SabSyncChannel` turns what the stub hands it into the request dictionary of its backend, and
`handleRpc` turns what it reads into a `fetch`.  In a run whose RPCs are calls of one stub, every
request that is stored, picked up or answered is one of that stub's.
-/

namespace ConnectWeb.Sab

open Transport (StubCall Metadata SyncChannel GrpcWebStub HttpResponse headersFromMetadata)

/-! ## The channel -/

structure SabSyncChannel where
  /-- Without slashes at its end. -/
  baseUrl : String

namespace SabSyncChannel

/-- `__init__` -/
def ofUrl (baseUrl : String) : SabSyncChannel := ⟨.ofList (Text.rstrip '/' baseUrl.toList)⟩

/-- `_request`, for a path without quotes or backslashes -/
def request (channel : SabSyncChannel) (kind : Kind) (path : String) (body : Bytes)
    (headers : Dict String String) (timeout : Option Timeout) : Except TransportError Request :=
  if ['/'].isPrefixOf path.toList then
    .ok { kind, url := channel.baseUrl ++ path, body, headers, timeout }
  else .error (.plain s!"gRPC path must start with '/': '{path}'")

end SabSyncChannel

/-- A call of the stub, with what goes along. -/
structure Rpc where
  call : StubCall
  metadata : Option Metadata := none
  timeout : Option Timeout := none

/-- A stub and its channel. -/
structure Client where
  channel : SabSyncChannel
  defaultMetadata : Metadata := []

namespace Client

variable (client : Client) (rpc : Rpc)

def kind : Kind := if rpc.call.streams then .serverStream else .unary

def headers : Dict String String :=
  headersFromMetadata (client.defaultMetadata ++ rpc.metadata.getD [])

/-- What the channel hands to its backend for a call of the stub. -/
def request : Except TransportError Request :=
  client.channel.request (kind rpc) rpc.call.path rpc.call.body (client.headers rpc) rpc.timeout

/-- The request of a call of the stub. -/
def asked : Request where
  kind := kind rpc
  url := client.channel.baseUrl ++ rpc.call.path
  body := rpc.call.body
  headers := client.headers rpc
  timeout := rpc.timeout

/-- The paths of the stub start with a slash. -/
theorem request_eq : client.request rpc = .ok (client.asked rpc) := by
  have hservice : ['/'] <+: "/spark.connect.SparkConnectService/".toList := by decide +kernel
  have hpath : rpc.call.path.toList =
      "/spark.connect.SparkConnectService/".toList ++ rpc.call.method.toList :=
    String.toList_append
  have hslash : ['/'].isPrefixOf rpc.call.path.toList = true :=
    List.isPrefixOf_iff_prefix.mpr (hpath ▸ hservice.trans (List.prefix_append _ _))
  rw [request, SabSyncChannel.request, if_pos hslash]
  rfl

/-- The stub over some other channel. -/
def stub (channel : SyncChannel Timeout) : GrpcWebStub Timeout := ⟨channel, client.defaultMetadata⟩

end Client

/-! ## The fetch -/

/-- What `fetch` is called with: a `POST` without credentials. -/
structure Fetch where
  url : String
  headers : List (String × String)
  body : Bytes
deriving DecidableEq, Repr

/-- The `fetch` for a call of the stub. -/
def Client.fetch (client : Client) (rpc : Rpc) : Fetch where
  url := client.channel.baseUrl ++ rpc.call.path
  headers := client.headers rpc
  body := rpc.call.body

theorem Client.fetch_of_request {client : Client} {rpc : Rpc} {req : Request}
    (h : client.request rpc = .ok req) :
    client.fetch rpc = ⟨req.url, req.headers, req.body⟩ := by
  cases (client.request_eq rpc).symm.trans h
  rfl

/-- The members of `{ ...x }`, which are strings. -/
def spread : Option Json → List (String × String)
  | some (.obj members) => members.strings
  | _ => []

/-- The `fetch` of an invocation, which a malformed request does not reach. -/
def Pick.fetch (p : Pick) : Option Fetch :=
  match p.read with
  | some (.null, _) | none => none
  | some (h, body) => some ⟨jsText (h.get? "url"), spread (h.get? "headers"), body⟩

/-- The request that the worker stored is the one that is fetched. -/
theorem Pick.fetch_of_reads {p : Pick} {q : Posted} (h : p.Reads q) :
    p.fetch = some ⟨q.request.url, q.request.headers, q.request.body⟩ := by
  rw [fetch, h]
  simp [Sab.header, Json.get?, Json.Members.get?, Json.Members.ofList, jsText, spread, Json.ofStrings]

/-! ## What the caller asks for -/

/-- What the caller asks for is of some kind. -/
def Action.Asking (P : Request → Prop) : Action → Prop
  | .start _ req => P req
  | _ => True

instance (P : Request → Prop) [DecidablePred P] : DecidablePred (Action.Asking P)
  | .start _ req => inferInstanceAs (Decidable (P req))
  | .construct _ | .resume _ | .close _ | .worker | .closing | .expire | .deliver | .main
  | .fetchDone _ _ | .timer _ | .bufferDone _ _ | .readDone _ _ | .wake _ => isTrue trivial

theorem Action.Asking.imp {P Q : Request → Prop} {a : Action} (h : a.Asking P)
    (hPQ : ∀ req, P req → Q req) : a.Asking Q := by
  cases a with
  | start chan req => exact hPQ req h
  | _ => trivial

/-- Every RPC is a call of the stub. -/
abbrev Client.Asks (client : Client) : Action → Prop :=
  Action.Asking fun req ↦ ∃ rpc, client.request rpc = .ok req

/-- All requests of a state are of some kind. -/
structure Sys.Requests (P : Request → Prop) (s : Sys) : Prop where
  running : ∀ call ph, s.worker.phase = some (call, ph) → P call.request
  held : ∀ call ∈ s.suspended, P call.request
  posted : ∀ c q, s.posted c = some q → P q.request
  picks : ∀ p ∈ s.picks, ∀ q, p.pending = some q → P q.request

namespace Sys.Requests

variable {P : Request → Prop} {engine : Engine} {s s' : Sys}

theorem init : Requests P {} where
  running _ _ h := by cases h
  held _ h := by cases h
  posted _ _ h := by cases h
  picks _ h := by cases h

/-- The worker runs no call. -/
theorem ready (h : Requests P s) (hw : s'.worker.phase = none)
    (hs : ∀ call ∈ s'.suspended, P call.request) (hp : s'.posted = s.posted)
    (hk : s'.picks = s.picks) : Requests P s' where
  running call ph hw' := by
    rw [hw] at hw'
    cases hw'
  held := hs
  posted := hp ▸ h.posted
  picks := hk ▸ h.picks

theorem call {call : Call} {pc : Pc} (h : Requests P s) (hw : s.worker = .run call pc)
    (hm : CallMove s call pc s') : Requests P s' := by
  have hcall := h.running call pc.phase (by rw [hw]; rfl)
  have goes : ∀ {t : Sys} {call' : Call} {pc' : Pc}, t.worker = .run call' pc' →
      call'.request = call.request → t.suspended = s.suspended → t.posted = s.posted →
      t.picks = s.picks → Requests P t := by
    intro t call' pc' hwt hreq hst hp hk
    refine ⟨fun call0 ph hw0 ↦ ?_, hst ▸ h.held, hp ▸ h.posted, hk ▸ h.picks⟩
    rw [hwt] at hw0
    cases hw0
    rw [hreq]
    exact hcall
  cases hm with
  | marshal _ =>
      refine ⟨fun call0 ph hw0 ↦ (by cases hw0; exact hcall), h.held, fun c q hq ↦ ?_, h.picks⟩
      change Function.update s.posted call.chan (some ⟨call.gen, call.request⟩) c = some q at hq
      rw [Function.update_apply] at hq
      split at hq
      · cases hq
        exact hcall
      · exact h.posted c q hq
  | answered _ => exact goes rfl (afterWait_call ..).2.2 rfl rfl rfl
  | loadStatus hcall' =>
      subst hcall'
      exact goes rfl rfl rfl rfl rfl
  | more ht => exact goes rfl (takeWindow_call (.inl ht)).2.2 rfl rfl rfl
  | complete _ ht => exact goes rfl (takeWindow_call (.inr ht)).2.2 rfl rfl rfl
  | yield _ ht =>
      refine h.ready rfl (fun call0 hm0 ↦ ?_) rfl rfl
      rcases List.mem_append.mp hm0 with hm0 | hm0
      · exact h.held call0 hm0
      · cases List.mem_singleton.mp hm0
        rw [(takeWindow_call (.inr ht)).2.2]
        exact hcall
  | unfit _ | keeps _ | resetStore => exact h.ready rfl h.held rfl rfl
  | _ => exact goes rfl rfl rfl rfl rfl

theorem worker {a : Action} (h : Requests P s) (hm : WorkerMove s a s') (ha : a.Asking P) :
    Requests P s' := by
  have rest : ∀ i, ∀ call ∈ s.suspended.eraseIdx i, P call.request := fun i call hm ↦
    h.held call (List.mem_of_mem_eraseIdx hm)
  cases hm with
  | construct _ _ | attached _ _ | expireFirst _ _ _ => exact h.ready rfl h.held rfl rfl
  | start _ _ _ _ =>
      refine ⟨fun call ph hw ↦ ?_, h.held, h.posted, h.picks⟩
      cases hw
      exact ha
  | @resume i _ _ _ hi =>
      refine ⟨fun call ph hw ↦ ?_, rest i, h.posted, h.picks⟩
      cases hw
      exact h.held _ (List.mem_of_getElem? hi)
  | call _ hw hm => exact h.call hw hm
  | expire hw _ _ =>
      refine ⟨fun call ph hw' ↦ ?_, h.held, h.posted, h.picks⟩
      cases hw'
      exact h.running _ _ (by rw [hw]; rfl)
  | @close i _ _ _ _ => exact ⟨h.running, rest i, h.posted, h.picks⟩
  | closingCurrent _ _ | closingStale _ _ | closingStore _ =>
      exact ⟨h.running, h.held, h.posted, h.picks⟩

theorem main (h : Requests P s) (hm : MainMove engine s s') : Requests P s' := by
  have hposted : s'.posted = s.posted := by cases hm <;> rfl
  refine ⟨hm.phase ▸ h.running, hm.suspended ▸ h.held, hposted ▸ h.posted, fun p hp q hq ↦ ?_⟩
  rcases hm.picks with heq | ⟨c, heq⟩
  · exact h.picks p (heq ▸ hp) q hq
  · rw [heq, List.mem_append, List.mem_singleton] at hp
    rcases hp with hp | rfl
    · exact h.picks p hp q hq
    · exact h.posted c q hq

end Sys.Requests

/-- Where every RPC asks for something of some kind, nothing else is ever stored or picked up. -/
theorem requests_of_asking {P : Request → Prop} {engine : Engine}
    {ok : System.Guard Sys Action} {s : Sys} (h : (system engine).Reachable ok s)
    (hok : ∀ s a, ok s a → a.Asking P) : s.Requests P := by
  refine System.Reachable.invariant_of (fun _ ↦ shape_of_reachable) ?_ ?_ h
  · rintro s rfl
    exact .init
  · intro s a s' hs _ hreq ha hstep
    cases Move.of_step hs hstep with
    | worker hm => exact hreq.worker hm (hok s a ha)
    | main _ _ hm => exact hreq.main hm

end ConnectWeb.Sab
