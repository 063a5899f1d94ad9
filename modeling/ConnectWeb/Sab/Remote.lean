import ConnectWeb.Sab.Client
import ConnectWeb.Sab.Seen
import ConnectWeb.Transport.Headers

/-!
# Remote procedure calls

The whole way of a call: from the stub through the bridge to a server, and back.  The server sees
the call as the caller made it, and the caller gets what the server answered.
-/

namespace ConnectWeb.Sab

open Transport (Answer Frame HttpResponse Sendable StubCall SyncChannel iterFrames
  streamResponses totalFromString)

/-! ## The invocation that serves a call -/

section
variable {engine : Engine} {s s' : Sys} {q : Posted}

/-- The invocation that records an event. -/
def Event.pick : Event → Option Pick
  | .fetched p _ | .buffered p _ | .chunk p _ | .exhausted p => some p
  | .expired | .yielded _ _ | .returned _ _ _ => none

theorem WorkerMove.pick_of_log {a : Action} (hm : WorkerMove s a s') {e : Event} {p : Pick}
    (h : e ∈ s'.log) (hp : e.pick = some p) : e ∈ s.log := by
  have old : ∀ {t : Sys} {call : Call} {o : Outcome}, e ∈ (t.finish call o).log → e ∈ t.log := by
    intro t call o hmem
    refine (List.mem_append.mp hmem).resolve_right fun heq ↦ ?_
    cases List.mem_singleton.mp heq
    cases hp
  cases hm with
  | call _ _ hm =>
      cases hm with
      | unfit _ | keeps _ | resetStore =>
          have hmem := old h
          exact hmem
      | yield _ _ =>
          refine (List.mem_append.mp h).resolve_right fun heq ↦ ?_
          cases List.mem_singleton.mp heq
          cases hp
      | _ => exact h
  | expireFirst _ _ _ =>
      refine (List.mem_append.mp (old h)).resolve_right fun heq ↦ ?_
      cases List.mem_singleton.mp heq
      cases hp
  | expire _ _ _ =>
      refine (List.mem_append.mp h).resolve_right fun heq ↦ ?_
      cases List.mem_singleton.mp heq
      cases hp
  | _ => exact h

/-- An invocation that records something passed its guard. -/
def Sys.Taken (s : Sys) : Prop := ∀ e ∈ s.log, ∀ p, e.pick = some p → p ∈ s.picks

theorem taken_of_fitting
    (h : (system engine).Reachable (fun s a ↦ s.Single a ∧ s.Fitting a ∧ Sys.Counted a) s) :
    s.Taken := by
  refine System.Reachable.invariant_of (fun _ ↦ delivering_of_fitting) ?_ ?_ h
  · rintro s rfl e he
    cases he
  · intro s a s' hd hd' hlog _ hstep e he p hp
    cases Move.of_step hd.paced.sound.shape hstep with
    | worker hm =>
        rw [hm.picks]
        exact hlog e (hm.pick_of_log he hp) p hp
    | main _ _ hm =>
        have old : e ∈ s.log → p ∈ s'.picks := fun he ↦ hm.picks_subset (hlog e he p hp)
        cases hm with
        | @task _ t _ events _ _ hl _ _ hm _ =>
            rcases List.mem_append.mp he with he | he
            · exact old he
            · have hpick : p = t.pick := by
                cases hm with
                | buffering _ _ | reading _ _ _ | bodiless _ _ _ | buffered _ | chunk _ _
                | exhausted _ =>
                    cases List.mem_singleton.mp he
                    exact (Option.some.inj hp).symm
                | _ => cases he
              exact hpick ▸ hd.traced.live t (hl ▸ List.mem_singleton_self t)
        | _ => exact old he

/-- A request is taken by one invocation. -/
theorem Dispatched.unique (h : Dispatched s) {p p' : Pick} (hp : p ∈ s.picks)
    (hp' : p' ∈ s.picks) (hq : p.pending = some q) (hq' : p'.pending = some q) : p = p' := by
  have hall : s.picks.Pairwise fun p p' ↦ p.pending = some q → p'.pending = some q → p = p' := by
    refine h.order.imp ?_
    rintro p p' ⟨q1, q2, h1, h2, hlt⟩ hq hq'
    cases h1.symm.trans hq
    cases h2.symm.trans hq'
    exact absurd hlt (lt_irrefl _)
  have hflip := hall.imp fun {a b} hab (hb : b.pending = some q) ha ↦ (hab ha hb).symm
  exact List.Pairwise.forall_of_forall_of_flip (fun _ _ _ _ ↦ rfl) hall hflip hp hp' hq hq'

end

/-! ## Answers -/

/-- What was read is what the server answers. -/
def Event.AnsweredBy (s : Sys) (answer : Pick → Answer) : Event → Prop
  | .buffered p body => body = (answer p).body
  | .chunk p _ => ∀ q ∈ p.pending, (s.chunks q).flatten <+: (answer p).body
  | .exhausted p => ∀ q ∈ p.pending, (s.chunks q).flatten = (answer p).body
  | .expired | .fetched _ _ | .yielded _ _ | .returned _ _ _ => True

/-- The server answers every invocation, and the network delivers the answers. -/
def Sys.AnsweredBy (s : Sys) (answer : Pick → Transport.Answer) : Prop :=
  ∀ e ∈ s.log, e.AnsweredBy s answer

instance (s : Sys) (answer : Pick → Answer) (e : Event) : Decidable (e.AnsweredBy s answer) :=
  match e with
  | .buffered p body => inferInstanceAs (Decidable (body = (answer p).body))
  | .chunk p _ => inferInstanceAs
      (Decidable (∀ q ∈ p.pending, (s.chunks q).flatten <+: (answer p).body))
  | .exhausted p => inferInstanceAs
      (Decidable (∀ q ∈ p.pending, (s.chunks q).flatten = (answer p).body))
  | .expired | .fetched _ _ | .yielded _ _ | .returned _ _ _ => isTrue trivial

instance (s : Sys) (answer : Pick → Answer) : Decidable (s.AnsweredBy answer) :=
  inferInstanceAs (Decidable (∀ e ∈ s.log, e.AnsweredBy s answer))

/-! ## Two calls -/

/-- A stub for `sc://host` with a user. -/
def namedClient : Client := ⟨.ofUrl "http://host/", [("X-User", "me")]⟩

def configRpc : Rpc where
  call := .unary .config ⟨[8, 1], by decide⟩

def executeRpc : Rpc where
  call := .serverStream .executePlan ⟨[8, 2], by decide⟩
  metadata := some [("Trace", "1")]

/-- One message, and `grpc-status:0`. -/
def okAnswer : Answer where
  messages := [[1, 2, 3]]
  trailer := [103, 114, 112, 99, 45, 115, 116, 97, 116, 117, 115, 58, 48, 13, 10]
  messages_lt := by decide
  trailer_lt := by decide

/-- The answer to `ExecutePlan` in two chunks, and the one to `Config` in two windows. -/
def remoteRun : List Action :=
  List.flatten [
    [.construct 4120, .worker, .deliver, .start 0 (namedClient.asked executeRpc)],
    .replicate 5 .worker, [.deliver, .main, .fetchDone 0 (.resolved { status := 200 })],
    [.readDone 0 (.value (okAnswer.body.take 10))], .replicate 5 .main, .replicate 2 .worker,
    [.resume 0], .replicate 2 .worker, [.wake 0, .main],
    [.readDone 0 (.value (okAnswer.body.drop 10))], .replicate 5 .main, .replicate 2 .worker,
    [.resume 0], .replicate 2 .worker, [.wake 0, .main],
    [.readDone 0 .done], .replicate 3 .main, .replicate 3 .worker,
    [.start 0 (namedClient.asked configRpc)], .replicate 5 .worker,
    [.deliver, .main, .fetchDone 0 (.resolved { status := 200, headers := [("x", "y")] })],
    [.bufferDone 0 (.resolved okAnswer.body)], .replicate 5 .main, .replicate 4 .worker,
    [.wake 0], .replicate 5 .main, .replicate 4 .worker]

/-- Both calls have returned. -/
def Sys.returnsBoth (s : Sys) : Bool :=
  (s.log.any fun e ↦ match e with
    | .returned _ .stop 1 => true
    | _ => false) &&
  s.log.any fun e ↦ match e with
    | .returned _ (.response resp) 2 => resp.body = okAnswer.body
    | _ => false

/-- Both calls have returned what the server answered. -/
def Sys.hasReceived (s : Sys) : Bool :=
  s.picks.length = 2 && decide (s.AnsweredBy fun _ ↦ okAnswer) && s.returnsBoth

theorem Sys.hasReceived_iff {s : Sys} : s.hasReceived = true ↔
    s.picks.length = 2 ∧ (s.AnsweredBy fun _ ↦ okAnswer) ∧ s.returnsBoth = true := by
  simp [hasReceived, and_assoc]

theorem namedClient_asks {a : Action}
    (h : a.Asking (· ∈ [namedClient.asked executeRpc, namedClient.asked configRpc])) :
    namedClient.Asks a := by
  refine h.imp fun req hreq ↦ ?_
  rcases List.mem_pair.mp hreq with rfl | rfl
  · exact ⟨executeRpc, namedClient.request_eq executeRpc⟩
  · exact ⟨configRpc, namedClient.request_eq configRpc⟩

/-- A run of the two calls. -/
theorem exists_hasReceived : ∃ s : Sys, (system v8).Reachable
    (fun s a ↦ (s.Single a ∧ s.Fitting a ∧ Sys.Counted a) ∧ namedClient.Asks a) s ∧
      s.hasReceived = true := by
  obtain ⟨s, hr, hs⟩ := (system v8).exists_reachable
    (fun s a ↦ (s.Single a ∧ s.Fitting a ∧ Sys.Counted a) ∧
      a.Asking (· ∈ [namedClient.asked executeRpc, namedClient.asked configRpc]))
    remoteRun Sys.hasReceived rfl (by decide +kernel)
  exact ⟨s, hr.mono fun _ _ hok ↦ ⟨hok.1, namedClient_asks hok.2⟩, hs⟩

/-! ## What the server sees -/

/-- An invocation fetches a call of the stub. -/
structure Client.Fetches (client : Client) (p : Pick) (rpc : Rpc) : Prop where
  asked : ∃ q, p.pending = some q ∧ client.request rpc = .ok q.request
  fetch : p.fetch = some (client.fetch rpc)
  /-- The server reads the requests of the call off the body. -/
  body : iterFrames (client.fetch rpc).body = (rpc.call.frames, none)
  headers : Sendable (client.defaultMetadata ++ rpc.metadata.getD []) (client.fetch rpc).headers

theorem Client.Fetches.of_reads {client : Client} {p : Pick} {rpc : Rpc} {q : Posted}
    (hq : p.pending = some q) (hr : p.Reads q) (h : client.request rpc = .ok q.request) :
    client.Fetches p rpc where
  asked := ⟨q, hq, h⟩
  fetch := by rw [Pick.fetch_of_reads hr, fetch_of_request h]
  body := rpc.call.iterFrames_body
  headers := Transport.headersFromMetadata_sendable _

/-- Where every RPC is a call of one stub, so is every fetch: to the URL, with the headers and
with the requests of that call.  No call is fetched twice, and they are fetched in the order in
which they were made. -/
theorem fetches_of_asking {engine : Engine} {client : Client} {s : Sys}
    (h : (system engine).Reachable (fun s a ↦ (s.Single a ∧ s.Steady a) ∧ client.Asks a) s) :
    (∀ p ∈ s.picks, ∃ rpc, client.Fetches p rpc) ∧ s.picks.Pairwise Pick.Before := by
  have hd := dispatched_of_steady (h.mono fun _ _ hok ↦ hok.1)
  have hreq := requests_of_asking h fun _ _ hok ↦ hok.2
  refine ⟨fun p hp ↦ ?_, hd.order⟩
  obtain ⟨q, hq, hr⟩ := hd.reads p hp
  obtain ⟨rpc, hrpc⟩ := hreq.picks p hp q hq
  exact ⟨rpc, .of_reads hq hr hrpc⟩

theorem fetches_of_asking_remoteRun : ∃ s : Sys, s.picks.length = 2 ∧
    (∀ p ∈ s.picks, ∃ rpc, namedClient.Fetches p rpc) ∧ s.picks.Pairwise Pick.Before := by
  obtain ⟨s, hr, hs⟩ := exists_hasReceived
  have hsteady : (system v8).Reachable
      (fun s a ↦ (s.Single a ∧ s.Steady a) ∧ namedClient.Asks a) s := by
    refine hr.guard_of (fun _ h ↦ settled_of_fitting (h.mono fun _ _ hok ↦ hok.1)) ?_
    rintro s a ⟨hset, hp, hb⟩ ⟨⟨hone, hfit, -⟩, hasks⟩
    exact ⟨⟨hone, hset.steady hp hb hfit⟩, hasks⟩
  exact ⟨s, (Sys.hasReceived_iff.mp hs).1, fetches_of_asking hsteady⟩

/-! ## What the caller gets -/

/-- A channel that gives this response. -/
def responding (resp : HttpResponse) : SyncChannel Timeout :=
  ⟨fun _ _ _ _ ↦ resp, fun _ _ _ _ ↦ ([], none)⟩

/-- A channel that gives these chunks, and ends so. -/
def streaming (chunks : List Bytes) (ending : Option String) : SyncChannel Timeout :=
  ⟨fun _ _ _ _ ↦ ⟨0, [], []⟩, fun _ _ _ _ ↦ (chunks, ending)⟩

/-- What the stub makes of what its channel gives. -/
def Client.perform {Msg : Type} (client : Client) (f : Bytes → Msg) (rpc : Rpc)
    (channel : SyncChannel Timeout) : StubCall.Result Msg :=
  rpc.call.perform (totalFromString f) (client.stub channel) rpc.metadata rpc.timeout

/-- The call is one of the stub, and one invocation fetches for it. -/
structure Client.Carried (client : Client) (s : Sys) (call : Call) (p : Pick) (rpc : Rpc) :
    Prop where
  fetches : client.Fetches p rpc
  picked : p ∈ s.picks
  pending : p.pending = some call.posted
  only : ∀ p' ∈ s.picks, p'.pending = some call.posted → p' = p

/-- The caller gets what the server answered to its call. -/
structure Client.Receives {Msg : Type} (client : Client) (f : Bytes → Msg)
    (answer : Pick → Answer) (s : Sys) : Prop where
  response : ∀ call resp latest, .returned call (.response resp) latest ∈ s.log →
    ∃ p rpc, client.Carried s call p rpc ∧
      client.perform f rpc (responding resp) = (answer p).result f rpc.call
  stop : ∀ call, .returned call .stop call.gen ∈ s.log →
    ∃ p rpc, client.Carried s call p rpc ∧
      client.perform f rpc (streaming (s.yields call.posted) none) = (answer p).result f rpc.call
  /-- However the stream ends, what came before is a front of the answer. -/
  yielded : ∀ call bytes, .yielded call bytes ∈ s.log →
    ∃ p rpc, client.Carried s call p rpc ∧ ∀ ending, ∃ messages last,
      client.perform f rpc (streaming (s.yields call.posted) ending) =
        .stream (.ok (messages, last)) ∧
      messages <+: (answer p).messages.map f

section
variable {engine : Engine} {client : Client} {s : Sys} {call : Call} {p : Pick} {rpc : Rpc}
  {Msg : Type} (f : Bytes → Msg)

theorem Sys.exists_chunk {q : Posted} {bytes : Bytes} (h : bytes ∈ s.chunks q) :
    ∃ p, .chunk p bytes ∈ s.log ∧ p.pending = some q := by
  obtain ⟨e, he, heq⟩ := List.mem_filterMap.mp h
  cases e with
  | chunk p bytes' =>
      rw [Event.chunkOf] at heq
      split at heq
      · cases heq
        exact ⟨p, he, ‹_›⟩
      · cases heq
  | _ => cases heq

theorem Client.Carried.request (h : client.Carried s call p rpc) :
    client.request rpc = .ok call.request := by
  obtain ⟨q, hq, hreq⟩ := h.fetches.asked
  cases hq.symm.trans h.pending
  exact hreq

theorem Client.kind_of_request {req : Request} (h : client.request rpc = .ok req) :
    req.kind = Client.kind rpc := by
  cases (client.request_eq rpc).symm.trans h
  rfl

theorem Client.Carried.streams (h : client.Carried s call p rpc) :
    call.request.kind = .serverStream ↔ rpc.call.streams = true := by
  rw [Client.kind_of_request h.request, Client.kind]
  split <;> simp_all

theorem Client.perform_responding {resp : HttpResponse} (h : rpc.call.streams = false)
    (answer : Answer) (hbody : resp.body = answer.body) :
    client.perform f rpc (responding resp) = answer.result f rpc.call := by
  obtain ⟨status, headers, body⟩ := resp
  obtain rfl : body = answer.body := hbody
  rw [perform, StubCall.perform_message _ _ _ _ h, Answer.result, if_neg (by simp [h])]
  exact congrArg _ (answer.unaryResponse_body f ..)

/-- An invocation for a call fetches it. -/
theorem Client.exists_carried (hd : Delivering s)
    (hreq : s.Requests fun req ↦ ∃ rpc, client.request rpc = .ok req) (hp : p ∈ s.picks)
    (hq : p.pending = some call.posted) : ∃ rpc, client.Carried s call p rpc := by
  obtain ⟨q, hq', hr⟩ := hd.dispatched.reads p hp
  cases hq'.symm.trans hq
  obtain ⟨rpc, hrpc⟩ := hreq.picks p hp _ hq
  exact ⟨rpc, .of_reads hq hr hrpc, hp, hq, fun p' hp' hq' ↦
    hd.dispatched.unique hp' hp hq' hq⟩

theorem Client.perform_streaming (h : rpc.call.streams = true) (chunks : List Bytes)
    (ending : Option String) : client.perform f rpc (streaming chunks ending) =
      .stream (.ok (streamResponses (totalFromString f) rpc.call.path chunks ending)) :=
  StubCall.perform_stream _ _ _ _ h

variable {answer : Pick → Answer}

/-- A generator that stops before a newer request has yielded the body that the server answered. -/
theorem Client.exists_stopped (h : (system engine).Reachable
      (fun s a ↦ (s.Single a ∧ s.Fitting a ∧ Sys.Counted a) ∧ client.Asks a) s)
    (ha : s.AnsweredBy answer) (he : .returned call .stop call.gen ∈ s.log) :
    ∃ p rpc, client.Carried s call p rpc ∧ rpc.call.streams = true ∧
      (s.yields call.posted).flatten = (answer p).body := by
  have hfit := h.mono fun _ _ hok ↦ hok.1
  have hd := delivering_of_fitting hfit
  obtain ⟨ops, hseen⟩ : ∃ ops, Seen engine ops s := hfit.observed _
  obtain ⟨a, hkeeps, -⟩ := hseen.keeps
  obtain ⟨p, hpending, hex⟩ := hseen.exhausted he
  obtain ⟨rpc, hc⟩ := client.exists_carried hd (requests_of_asking h fun _ _ hok ↦ hok.2)
    (taken_of_fitting hfit _ hex p rfl) hpending
  have hkind := (hkeeps.earned _ _ (mem_of_recorded (recorded_of_observed hseen) he rfl)).1
  refine ⟨p, rpc, hc, hc.streams.mp hkind, ?_⟩
  rw [(hd.conveying.returned call _ _ he).stop rfl, ha _ hex _ hpending]

/-- What a generator has yielded is a front of the body that the server answers. -/
theorem Client.exists_yielded (h : (system engine).Reachable
      (fun s a ↦ (s.Single a ∧ s.Fitting a ∧ Sys.Counted a) ∧ client.Asks a) s)
    (ha : s.AnsweredBy answer) {bytes : Bytes} (he : .yielded call bytes ∈ s.log) :
    ∃ p rpc, client.Carried s call p rpc ∧ rpc.call.streams = true ∧
      (s.yields call.posted).flatten <+: (answer p).body := by
  have hfit := h.mono fun _ _ hok ↦ hok.1
  have hd := delivering_of_fitting hfit
  obtain ⟨ops, hseen⟩ : ∃ ops, Seen engine ops s := hfit.observed _
  obtain ⟨a, hkeeps, -⟩ := hseen.keeps
  have hmem : bytes ∈ s.yields call.posted := List.mem_filterMap.mpr ⟨_, he, if_pos rfl⟩
  obtain ⟨p, hchunk, hpending⟩ := Sys.exists_chunk ((hd.conveying.ordered _).subset hmem)
  obtain ⟨rpc, hc⟩ := client.exists_carried hd (requests_of_asking h fun _ _ hok ↦ hok.2)
    (taken_of_fitting hfit _ hchunk p rfl) hpending
  have hkind := hkeeps.streams _ _ (mem_of_recorded (recorded_of_observed hseen) he rfl)
  refine ⟨p, rpc, hc, hc.streams.mp hkind, ?_⟩
  exact (hd.conveying.ordered _).flatten.trans (ha _ hchunk _ hpending)

end

/-- Where every RPC is a call of one stub and the server answers what is fetched, the caller gets
the answer to its own call: a unary call its message or its error, a stream that no newer request
cuts short all messages and the ending, and any stream at any time a front of them. -/
theorem receives_of_asking {engine : Engine} {client : Client} {s : Sys} {Msg : Type}
    (f : Bytes → Msg) {answer : Pick → Answer}
    (h : (system engine).Reachable
      (fun s a ↦ (s.Single a ∧ s.Fitting a ∧ Sys.Counted a) ∧ client.Asks a) s)
    (ha : s.AnsweredBy answer) : client.Receives f answer s := by
  refine ⟨fun call resp latest he ↦ ?_, fun call he ↦ ?_, fun call bytes he ↦ ?_⟩
  · have hfit := h.mono fun _ _ hok ↦ hok.1
    have hd := delivering_of_fitting hfit
    obtain ⟨ops, hseen⟩ : ∃ ops, Seen engine ops s := hfit.observed _
    have hrec := recorded_of_observed hseen
    obtain ⟨a, hkeeps, -⟩ := hseen.keeps
    obtain ⟨hk, fetched, body, -, hbuffered, rfl⟩ :=
      hkeeps.earned _ _ (mem_of_recorded hrec he rfl)
    obtain ⟨e, he', hop⟩ := exists_recorded hrec hbuffered rfl
    obtain ⟨p, rfl, hpending⟩ : ∃ p, e = .buffered p body ∧ p.pending = some call.posted := by
      cases e <;> simp_all [Event.op]
    obtain ⟨rpc, hc⟩ := client.exists_carried hd (requests_of_asking h fun _ _ hok ↦ hok.2)
      (taken_of_fitting hfit _ he' p rfl) hpending
    have hplain : rpc.call.streams = false := by
      rw [← Bool.not_eq_true, ← hc.streams, hk]
      simp
    exact ⟨p, rpc, hc, client.perform_responding f hplain _ (ha _ he')⟩
  · obtain ⟨p, rpc, hc, hstreams, hbody⟩ := client.exists_stopped h ha he
    refine ⟨p, rpc, hc, ?_⟩
    rw [client.perform_streaming f hstreams, Answer.result, if_pos hstreams,
      (answer p).streamResponses_whole f _ hbody]
  · obtain ⟨p, rpc, hc, hstreams, hfront⟩ := client.exists_yielded h ha he
    exact ⟨p, rpc, hc, fun ending ↦ ⟨_, _, client.perform_streaming f hstreams _ ending,
      (answer p).streamResponses_front f _ hfront ending⟩⟩

theorem receives_of_asking_remoteRun : ∃ s : Sys, s.hasReceived = true ∧
    namedClient.Receives id (fun _ ↦ okAnswer) s := by
  obtain ⟨s, hr, hs⟩ := exists_hasReceived
  exact ⟨s, hs, receives_of_asking id hr (Sys.hasReceived_iff.mp hs).2.1⟩

end ConnectWeb.Sab
