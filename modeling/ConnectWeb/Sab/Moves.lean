import ConnectWeb.Sab.Phase

/-!
# What a step can do

One inversion lemma for each thread.  `CallMove` lists the steps of a running call, and
`MainMove` those of the main thread, where the steps of an invocation of `handleRpc` that
store nothing are kept apart as `Task.Move`.  `Shape` is what the second lemma needs: at
most one invocation is live, and it runs or sleeps as its program counter says.  It holds
in every run whatsoever.
-/

namespace ConnectWeb.Sab

open Transport (HttpResponse)

/-! ## The worker -/

/-- The request is in the data SAB and its generation in GEN. -/
def Sys.marshalled (s : Sys) (call : Call) (r : Region) : Sys :=
  let s := (s.setSab (s.backend call.chan).data r).wrote (.data (s.backend call.chan).data) none
  let s := s.setCtrl call.chan fun ctrl ↦ { ctrl with gen := toInt32 call.gen }
  { s with posted := Function.update s.posted call.chan (some ⟨call.gen, call.request⟩) }.goto
    call (.storeLength
      (requestStores (headerBytes call.request call.gen) call.request.body).off)

/-- The steps of a running call. -/
inductive CallMove (s : Sys) (call : Call) : Pc → Sys → Prop where
  | grow {capacity : Nat}
      (h : grownCapacity (s.region call.chan).size (neededBytes call.request call.gen) =
        some capacity) :
      CallMove s call .grow ((s.attachData call.chan capacity).goto call (.announce s.sabs))
  | announce {d : Nat} :
      CallMove s call (.announce d) ((s.post (.sab call.chan d)).goto call .marshal)
  | marshal {r : Region}
      (h : writeRequest (s.region call.chan) (headerBytes call.request call.gen)
        call.request.body = some r) :
      CallMove s call .marshal (s.marshalled call r)
  | unfit
      (h : writeRequest (s.region call.chan) (headerBytes call.request call.gen)
        call.request.body = none) :
      CallMove s call .marshal (s.finish call (.raised .other))
  | storeLength {off : Nat} :
      CallMove s call (.storeLength off)
        (((s.setCtrl call.chan fun ctrl ↦ { ctrl with length := toInt32 off }).wrote
          (.length call.chan) none).goto call .storeSeq)
  | storeSeq :
      CallMove s call .storeSeq
        ((s.setCtrl call.chan fun ctrl ↦ { ctrl with seq := 0 }).goto call .storeReady)
  | storeReady : CallMove s call .storeReady ((s.storeByWorker call.chan .reqReady).goto call .nudge)
  | nudge : CallMove s call .nudge ((s.post .rpc).goto call (.wait .first))
  | due {w : Wait} (h : s.state call.chan = w.expect) :
      CallMove s call (.wait w) (s.goto call (.block w))
  | answered {w : Wait} (h : s.state call.chan ≠ w.expect) :
      CallMove s call (.wait w)
        (s.goto (afterWait call w (s.state call.chan) (s.region call.chan)).1
          (afterWait call w (s.state call.chan) (s.region call.chan)).2)
  | park {w : Wait} (h : s.state call.chan = w.expect) :
      CallMove s call (.block w) (s.goto call (.parked w))
  | notEqual {w : Wait} (h : s.state call.chan ≠ w.expect) :
      CallMove s call (.block w) (s.goto call (.wait w))
  | loadStatus {chunk : Bool} {call' : Call}
      (h : call' = { call with status := (s.backend call.chan).ctrl.status }) :
      CallMove s call (.loadStatus chunk)
        (s.goto call' (if chunk then .readWindow else .resetLoad (.response ⟨call'.status, [], []⟩)))
  | malformed
      (h : takeWindow call (s.region call.chan) (s.backend call.chan).ctrl.length = .malformed) :
      CallMove s call .readWindow (s.goto call (.resetLoad (.raised .other)))
  | more {call' : Call}
      (h : takeWindow call (s.region call.chan) (s.backend call.chan).ctrl.length = .more call') :
      CallMove s call .readWindow (s.goto call' .ackWindow)
  | complete {call' : Call} (hk : call'.request.kind = .unary)
      (h : takeWindow call (s.region call.chan) (s.backend call.chan).ctrl.length = .last call') :
      CallMove s call .readWindow (s.goto call' (.resetLoad (unaryOutcome call')))
  | yield {call' : Call} (hk : call'.request.kind = .serverStream)
      (h : takeWindow call (s.region call.chan) (s.backend call.chan).ctrl.length = .last call') :
      CallMove s call .readWindow
        ({ s with worker := .ready, suspended := s.suspended ++ [call'] }.logged
          (.yielded call' call'.parts.flatten))
  | ackWindow :
      CallMove s call .ackWindow ((s.storeByWorker call.chan .chunkAck).goto call (.wait .window))
  | current (h : (s.backend call.chan).ctrl.gen = call.gen) :
      CallMove s call .resume (s.goto call .ackChunk)
  | stale (h : (s.backend call.chan).ctrl.gen ≠ call.gen) :
      CallMove s call .resume (s.goto call (.resetLoad .stop))
  | ackChunk :
      CallMove s call .ackChunk ((s.storeByWorker call.chan .chunkAck).goto call (.wait .chunk))
  | resets {o : Outcome} (h : (s.backend call.chan).ctrl.gen = call.gen) :
      CallMove s call (.resetLoad o) (s.goto call (.resetStore o))
  | keeps {o : Outcome} (h : (s.backend call.chan).ctrl.gen ≠ call.gen) :
      CallMove s call (.resetLoad o) (s.finish call o)
  | resetStore {o : Outcome} :
      CallMove s call (.resetStore o) ((s.storeByWorker call.chan .idle).finish call o)

theorem CallMove.of_step {s s' : Sys} {call : Call} {pc : Pc} (h : s.stepCall call pc = some s') :
    CallMove s call pc s' := by
  cases pc with
  | grow =>
      obtain ⟨capacity, hc, rfl⟩ := Option.map_eq_some_iff.mp h
      exact .grow hc
  | announce d =>
      cases h
      exact .announce
  | marshal =>
      rcases hr : writeRequest (s.region call.chan) (headerBytes call.request call.gen)
        call.request.body with _ | r
      · have hr' := hr
        rw [Sys.region] at hr'
        simp only [Sys.stepCall, hr', Option.some.injEq] at h
        subst h
        exact .unfit hr
      · have hr' := hr
        rw [Sys.region] at hr'
        simp only [Sys.stepCall, hr', Option.some.injEq] at h
        subst h
        exact .marshal hr
  | storeLength off =>
      cases h
      exact .storeLength
  | storeSeq =>
      cases h
      exact .storeSeq
  | storeReady =>
      cases h
      exact .storeReady
  | nudge =>
      cases h
      exact .nudge
  | wait w =>
      by_cases hst : s.state call.chan = w.expect
      · simp only [Sys.stepCall, if_pos hst, Option.some.injEq] at h
        subst h
        exact .due hst
      · simp only [Sys.stepCall, if_neg hst, Option.some.injEq] at h
        subst h
        exact .answered hst
  | block w =>
      by_cases hst : s.state call.chan = w.expect
      · simp only [Sys.stepCall, if_pos hst, Option.some.injEq] at h
        subst h
        exact .park hst
      · simp only [Sys.stepCall, if_neg hst, Option.some.injEq] at h
        subst h
        exact .notEqual hst
  | parked w => cases h
  | loadStatus chunk =>
      cases h
      exact .loadStatus rfl
  | readWindow =>
      rcases hw : takeWindow call (s.region call.chan) (s.backend call.chan).ctrl.length with
        call' | call' | _
      · simp only [Sys.stepCall, hw, Option.some.injEq] at h
        subst h
        exact .more hw
      · rcases hk : call'.request.kind with _ | _
        · simp only [Sys.stepCall, hw, hk, Option.some.injEq] at h
          subst h
          exact .complete hk hw
        · simp only [Sys.stepCall, hw, hk, Option.some.injEq] at h
          subst h
          exact .yield hk hw
      · simp only [Sys.stepCall, hw, Option.some.injEq] at h
        subst h
        exact .malformed hw
  | ackWindow =>
      cases h
      exact .ackWindow
  | resume =>
      by_cases hg : (s.backend call.chan).ctrl.gen = call.gen
      · simp only [Sys.stepCall, if_pos hg, Option.some.injEq] at h
        subst h
        exact .current hg
      · simp only [Sys.stepCall, if_neg hg, Option.some.injEq] at h
        subst h
        exact .stale hg
  | ackChunk =>
      cases h
      exact .ackChunk
  | resetLoad o =>
      by_cases hg : (s.backend call.chan).ctrl.gen = call.gen
      · simp only [Sys.stepCall, if_pos hg, Option.some.injEq] at h
        subst h
        exact .resets hg
      · simp only [Sys.stepCall, if_neg hg, Option.some.injEq] at h
        subst h
        exact .keeps hg
  | resetStore o =>
      cases h
      exact .resetStore

/-- The steps of the worker thread. -/
inductive WorkerMove (s : Sys) : Action → Sys → Prop where
  | construct {capacity : Nat} (hc : s.closing = none) (hw : s.worker = .ready) :
      WorkerMove s (.construct capacity)
        { { s with backends := s.backends + 1 }.attachData s.backends capacity with
          worker := .attaching s.backends s.sabs }
  | attached {c d : Nat} (hc : s.closing = none) (hw : s.worker = .attaching c d) :
      WorkerMove s .worker { s.post (.sab c d) with worker := .ready }
  | start {c : Nat} {req : Request} {pc : Pc} (hc : s.closing = none) (hw : s.worker = .ready)
      (hlt : c < s.backends)
      (hpc : pc = if (s.region c).size < neededBytes req ((s.backend c).gen + 1) then .grow
        else .marshal) :
      WorkerMove s (.start c req)
        ((s.setBackend c fun b ↦ { b with gen := (s.backend c).gen + 1 }).goto
          { chan := c, gen := (s.backend c).gen + 1, request := req } pc)
  | resume {i : Nat} {call : Call} (hc : s.closing = none) (hw : s.worker = .ready)
      (hi : s.suspended[i]? = some call) :
      WorkerMove s (.resume i)
        ({ s with suspended := s.suspended.eraseIdx i }.goto call .resume)
  | call {call : Call} {pc : Pc} {s' : Sys} (hc : s.closing = none)
      (hw : s.worker = .run call pc) (h : CallMove s call pc s') : WorkerMove s .worker s'
  | expireFirst {call : Call} {t : Timeout} (hw : s.worker = .run call (.parked .first))
      (ht : call.request.timeout = some t) (hk : call.request.kind = .unary) :
      WorkerMove s .expire ((s.logged .expired).finish call (.raised (timedOut t)))
  | expire {call : Call} {w : Wait} {t : Timeout} (hw : s.worker = .run call (.parked w))
      (ht : call.request.timeout = some t) (hk : ¬(w = .first ∧ call.request.kind = .unary)) :
      WorkerMove s .expire ((s.logged .expired).goto call (.resetLoad (.raised (timedOut t))))
  | close {i : Nat} {call : Call} (hc : s.closing = none) (hi : s.suspended[i]? = some call)
      (ha : s.awake = true) :
      WorkerMove s (.close i)
        { s with closing := some ⟨call, false⟩, suspended := s.suspended.eraseIdx i }
  | closingCurrent {call : Call} (hc : s.closing = some ⟨call, false⟩)
      (h : (s.backend call.chan).ctrl.gen = call.gen) :
      WorkerMove s .closing { s with closing := some ⟨call, true⟩ }
  | closingStale {call : Call} (hc : s.closing = some ⟨call, false⟩)
      (h : (s.backend call.chan).ctrl.gen ≠ call.gen) :
      WorkerMove s .closing { s with closing := none }
  | closingStore {call : Call} (hc : s.closing = some ⟨call, true⟩) :
      WorkerMove s .closing { s.storeByWorker call.chan .idle with closing := none }

theorem Sys.construct_move {s s' : Sys} {capacity : Nat} (h : s.construct capacity = some s') :
    WorkerMove s (.construct capacity) s' := by
  unfold construct at h
  split at h
  · rename_i hc hw
    cases h
    exact .construct hc hw
  · cases h

theorem Sys.start_move {s s' : Sys} {c : Nat} {req : Request} (h : s.start c req = some s') :
    WorkerMove s (.start c req) s' := by
  unfold start at h
  split at h
  · rename_i hc hw
    split at h
    · rename_i hlt
      cases h
      refine .start hc hw hlt ?_
      have hr : (s.setBackend c fun b ↦ { b with gen := (s.backend c).gen + 1 }).region c =
          s.region c := by
        simp [Sys.region, setBackend]
      congr 1
      exact congrArg (fun r : Region ↦ r.size < neededBytes req ((s.backend c).gen + 1)) hr
    · cases h
  · cases h

theorem Sys.resume_move {s s' : Sys} {i : Nat} (h : s.resume i = some s') :
    WorkerMove s (.resume i) s' := by
  unfold resume at h
  split at h
  · rename_i hc hw hi
    cases h
    exact .resume hc hw hi
  · cases h

theorem Sys.close_move {s s' : Sys} {i : Nat} (h : s.close i = some s') :
    WorkerMove s (.close i) s' := by
  unfold close at h
  split at h
  · rename_i hc hi
    split at h
    · rename_i ha
      cases h
      exact .close hc hi ha
    · cases h
  · cases h

theorem Sys.stepWorker_move {s s' : Sys} (h : s.stepWorker = some s') :
    WorkerMove s .worker s' := by
  unfold stepWorker at h
  split at h
  · rename_i hc hw
    cases h
    exact .attached hc hw
  · rename_i hc hw
    exact .call hc hw (.of_step h)
  · cases h

theorem Sys.stepClosing_move {s s' : Sys} (h : s.stepClosing = some s') :
    WorkerMove s .closing s' := by
  unfold stepClosing at h
  split at h
  · cases h
  · rename_i call hc
    split at h
    · rename_i hg
      cases h
      exact .closingCurrent hc hg
    · rename_i hg
      cases h
      exact .closingStale hc hg
  · rename_i call hc
    cases h
    exact .closingStore hc

theorem Sys.expire_move {s s' : Sys} (h : s.expire = some s') : WorkerMove s .expire s' := by
  unfold expire at h
  split at h
  · rename_i call w hw
    split at h
    · cases h
    · rename_i t ht
      by_cases hk : w = .first ∧ call.request.kind = .unary
      · simp only [if_pos hk, Option.some.injEq] at h
        subst h
        obtain ⟨rfl, hk⟩ := hk
        exact .expireFirst hw ht hk
      · simp only [if_neg hk, Option.some.injEq] at h
        subst h
        exact .expire hw ht hk
  · cases h

/-! ## The main thread -/

/-- What `stepGuard` records when it passes. -/
def Sys.pickAt (s : Sys) (c : Nat) : Pick where
  id := s.picks.length
  chan := c
  data := s.bridge.data
  pending := s.posted c
  read := readRequest (s.sab s.bridge.data)

/-- Where an invocation goes from its guard. -/
inductive Pick.Starts (engine : Engine) (p : Pick) : At → Prop where
  | fetch {h : Json} {body : Bytes} (hr : p.read = some (h, body)) (hh : h ≠ .null) :
      Starts engine p .fetching
  | unreadable (hr : p.read = none) : Starts engine p (.report engine.syntaxError.text "error" true)
  | null {body : Bytes} (hr : p.read = some (.null, body)) :
      Starts engine p (.report engine.typeError.text "error" true)

/-- The steps of an invocation that store nothing: `c` is the channel attached, `st` its STATE,
`size` the size of the data SAB attached. -/
inductive Task.Move (engine : Engine) (c : Nat) (st : SabState) (size : Nat) (t : Task) :
    Task → List Event → Prop where
  | rejected {message kind : String} (h : t.pc = .fetching) :
      Move engine c st size t (t.goto (.report message kind false)) []
  | timer (h : t.pc = .fetching) : Move engine c st size t { t with timedOut := true } []
  | buffering {resp : FetchResponse} (h : t.pc = .fetching)
      (hk : jsText (t.pick.header.get? "kind") = "unary") :
      Move engine c st size t (t.goto (.buffering resp)) [.fetched t.pick resp]
  | reading {resp : FetchResponse} (h : t.pc = .fetching)
      (hk : jsText (t.pick.header.get? "kind") ≠ "unary") (hb : resp.hasBody = true) :
      Move engine c st size t (t.goto (.reading resp true)) [.fetched t.pick resp]
  | bodiless {resp : FetchResponse} (h : t.pc = .fetching)
      (hk : jsText (t.pick.header.get? "kind") ≠ "unary") (hb : resp.hasBody = false) :
      Move engine c st size t (t.goto (.report engine.typeError.text "error" true))
        [.fetched t.pick resp]
  | buffered {resp : FetchResponse} {body : Bytes} (h : t.pc = .buffering resp) :
      Move engine c st size t (t.emit resp resp.metaBase body size false) [.buffered t.pick body]
  | unbuffered {resp : FetchResponse} {e : EngineText} (h : t.pc = .buffering resp) :
      Move engine c st size t (t.goto (.report e.text "error" true)) []
  | empty {resp : FetchResponse} {first : Bool} (h : t.pc = .reading resp first) :
      Move engine c st size t t []
  | chunk {resp : FetchResponse} {first : Bool} {chunk : Bytes} (h : t.pc = .reading resp first)
      (hne : chunk ≠ []) :
      Move engine c st size t (t.emit resp (if first then resp.metaBase else []) chunk size true)
        [.chunk t.pick chunk]
  | exhausted {resp : FetchResponse} {first : Bool} (h : t.pc = .reading resp first) :
      Move engine c st size t (t.goto (.storeLength 0 .respEnd .leave)) [.exhausted t.pick]
  | broken {resp : FetchResponse} {first : Bool} {message kind : String}
      (h : t.pc = .reading resp first) :
      Move engine c st size t (t.goto (.report message kind false)) []
  | ackedWindow {e : Emission} (h : t.pc = .awaitLoad (.window e)) (hst : st = .chunkAck) :
      Move engine c st size t (t.goto (.window e)) []
  | ackedRead {resp : FetchResponse} (h : t.pc = .awaitLoad (.read resp)) (hst : st = .chunkAck) :
      Move engine c st size t (t.goto (.reading resp false)) []
  | ackedLeave (h : t.pc = .awaitLoad .leave) (hst : st = .chunkAck) :
      Move engine c st size t (t.goto .leaving) []
  | quits {next : Next} (h : t.pc = .awaitLoad next) (hst : st ≠ .chunkAck)
      (he : st.endsAwait = true) : Move engine c st size t (t.goto .leaving) []
  | still {next : Next} (h : t.pc = .awaitLoad next) (he : st.endsAwait = false) :
      Move engine c st size t (t.goto (.awaitBlock st next)) []
  | park {next : Next} (h : t.pc = .awaitBlock st next) (hw : engine.waitAsync = true) :
      Move engine c st size t (t.goto (.parked c st next)) []
  | notEqual {cur : SabState} {next : Next} (h : t.pc = .awaitBlock cur next)
      (hw : engine.waitAsync = true) (hst : st ≠ cur) :
      Move engine c st size t (t.goto (.awaitLoad next)) []
  | poll {cur : SabState} {next : Next} (h : t.pc = .awaitBlock cur next)
      (hw : engine.waitAsync = false) : Move engine c st size t (t.goto (.woken next)) []
  | woken {next : Next} (h : t.pc = .woken next) :
      Move engine c st size t (t.goto (.awaitLoad next)) []

/-- What `_writeWindow` and `_writeError` store: the meta, the payload, STATUS, the STATE that
will follow, what comes next, and where a `RangeError` leads. -/
inductive Task.Stores (engine : Engine) (t : Task) :
    Json → Bytes → Int → SabState → Next → At → Prop where
  | window {e : Emission} (h : t.pc = .window e) :
      Stores engine t e.info e.window e.resp.status.toNat .respChunk e.next
        (.report engine.rangeError.text "error" true)
  | report {message kind : String} {caught : Bool} (h : t.pc = .report message kind caught) :
      Stores engine t (errorMeta message kind) [] 0 .respError .leave
        (if caught then .leaving else .report engine.rangeError.text "error" true)

/-- The bytes of a window are in the data SAB attached, and STATUS is stored. -/
def Sys.stored (s : Sys) (c : Nat) (t : Task) (r : Region) (status : Int) : Sys :=
  (((s.setSab s.bridge.data r).wrote (.data s.bridge.data) (some t)).setCtrl c
    fun ctrl ↦ { ctrl with status := toInt32 status }).wrote (.status c) (some t)

/-- The invocation is where its program counter says: it runs, or it is suspended. -/
def Task.Placed (t : Task) (current : Current) (tasks : List Task) : Prop :=
  t.pc.sleeps = true ∧ current = .idle ∧ tasks = [t] ∨
    t.pc.sleeps = false ∧ current = .run t ∧ tasks = []

theorem Task.Placed.live {t : Task} {current : Current} {tasks : List Task}
    (h : t.Placed current tasks) : current.task.toList ++ tasks = [t] := by
  rcases h with ⟨-, rfl, rfl⟩ | ⟨-, rfl, rfl⟩ <;> rfl

/-- At most one invocation is live, and it runs or sleeps as its program counter says. -/
structure Shape (s : Sys) : Prop where
  single : s.live = [] ∧ s.bridge.busy = false ∨ ∃ t, s.live = [t] ∧ s.bridge.busy = true
  attached : s.live ≠ [] → ∃ c, s.bridge.ctrl = some c
  asleep : ∀ t ∈ s.tasks, t.pc.sleeps = true
  awake : ∀ t, s.current = .run t → t.pc.sleeps = false

/-- The steps of the main thread. -/
inductive MainMove (engine : Engine) (s : Sys) : Sys → Prop where
  | attach {c d : Nat} {queue : List Message} (hi : s.current = .idle)
      (hq : s.queue = .sab c d :: queue) :
      MainMove engine s { s with queue, bridge := { s.bridge with ctrl := some c, data := d } }
  | nudge {queue : List Message} (hi : s.current = .idle) (hq : s.queue = .rpc :: queue) :
      MainMove engine s { s with queue, current := .guard }
  | decline (hg : s.current = .guard)
      (h : ∀ c, s.bridge.busy = false → s.bridge.ctrl = some c → s.state c ≠ .reqReady) :
      MainMove engine s { s with current := .idle }
  | pick {c : Nat} {current : Current} {tasks : List Task} {pc : At} (hg : s.current = .guard)
      (hl : s.live = []) (hb : s.bridge.busy = false) (hc : s.bridge.ctrl = some c)
      (hst : s.state c = .reqReady) (hp : (s.pickAt c).Starts engine pc)
      (hl' : Task.Placed ⟨s.pickAt c, false, pc⟩ current tasks) :
      MainMove engine s { s with
        bridge := { s.bridge with busy := true }, picks := s.picks ++ [s.pickAt c], current, tasks }
  | task {c : Nat} {t t' : Task} {events : List Event} {current : Current} {tasks : List Task}
      (hl : s.live = [t]) (hg : s.current ≠ .guard) (hc : s.bridge.ctrl = some c)
      (hm : t.Move engine c (s.state c) (s.sab s.bridge.data).size t' events)
      (hl' : t'.Placed current tasks) :
      MainMove engine s { s with current, tasks, log := s.log ++ events }
  | store {c off : Nat} {t : Task} {info : Json} {payload : Bytes} {status : Int}
      {state : SabState} {next : Next} {failed : At} (hr : s.current = .run t) (ht : s.tasks = [])
      (hc : s.bridge.ctrl = some c) (hs : t.Stores engine info payload status state next failed)
      (hw : (writeWindow (s.sab s.bridge.data) (metaBytes info) payload).2 = some off) :
      MainMove engine s
        ((s.stored c t (writeWindow (s.sab s.bridge.data) (metaBytes info) payload).1
          status).runs (t.goto (.storeLength off state next)))
  | overflow {c : Nat} {t : Task} {info : Json} {payload : Bytes} {status : Int}
      {state : SabState} {next : Next} {failed : At} (hr : s.current = .run t) (ht : s.tasks = [])
      (hc : s.bridge.ctrl = some c) (hs : t.Stores engine info payload status state next failed)
      (hw : (writeWindow (s.sab s.bridge.data) (metaBytes info) payload).2 = none) :
      MainMove engine s
        (((s.setSab s.bridge.data
            (writeWindow (s.sab s.bridge.data) (metaBytes info) payload).1).wrote
          (.data s.bridge.data) (some t)).runs (t.goto failed))
  | storeLength {c off : Nat} {t : Task} {state : SabState} {next : Next}
      (hr : s.current = .run t) (ht : s.tasks = []) (hc : s.bridge.ctrl = some c)
      (hpc : t.pc = .storeLength off state next) :
      MainMove engine s
        (((s.setCtrl c fun ctrl ↦ { ctrl with length := toInt32 off }).wrote (.length c)
          (some t)).runs (t.goto (.storeState state next)))
  | storeState {c : Nat} {t : Task} {state : SabState} {next : Next} {pc : At}
      (hr : s.current = .run t) (ht : s.tasks = []) (hc : s.bridge.ctrl = some c)
      (hpc : t.pc = .storeState state next)
      (hpc' : next = .leave ∧ pc = .leaving ∨ next ≠ .leave ∧ pc = .awaitLoad next) :
      MainMove engine s ((s.storeByMain t c state).runs (t.goto pc))
  | leave {c : Nat} {t : Task} (hr : s.current = .run t) (ht : s.tasks = [])
      (hc : s.bridge.ctrl = some c) (hpc : t.pc = .leaving) :
      MainMove engine s { s with
        bridge := { s.bridge with busy := false }
        current := if s.state c = .reqReady then .guard else .idle }

/-- Where nobody sleeps, the invocation that runs is the only one. -/
theorem Sys.live_runs (s : Sys) (t : Task) (ht : s.tasks = []) : (s.runs t).live = [t] := by
  change [t] ++ s.tasks = _
  rw [ht]
  rfl

/-- The invocation that leaves was the only one. -/
theorem Sys.live_leave (s : Sys) (c : Nat) (ht : s.tasks = []) : Sys.live { s with
    bridge := { s.bridge with busy := false }
    current := if s.state c = .reqReady then .guard else .idle } = [] := by
  rw [Sys.live, ht]
  dsimp only
  split <;> rfl

namespace Shape

variable {s : Sys} (h : Shape s)

include h in
theorem tasks_of_run {t : Task} (hr : s.current = .run t) : s.tasks = [] := by
  rcases h.single with ⟨hl, -⟩ | ⟨t', hl, -⟩
  · simp [Sys.live, hr, Current.task] at hl
  · simp only [Sys.live, hr, Current.task, Option.toList_some, List.singleton_append,
      List.cons.injEq] at hl
    exact hl.2

include h in
theorem live_of_run {t : Task} (hr : s.current = .run t) : s.live = [t] := by
  rw [Sys.live, h.tasks_of_run hr, hr]
  rfl

include h in
theorem mem_live_of_run {t : Task} (hr : s.current = .run t) : t ∈ s.live :=
  Sys.mem_live (h.live_of_run hr)

include h in
theorem live_of_awaiting {i : Nat} {t : Task} (hi : s.awaiting i = some t) :
    s.current = .idle ∧ s.tasks = [t] ∧ i = 0 := by
  unfold Sys.awaiting at hi
  split at hi
  swap
  · cases hi
  rename_i hc
  refine ⟨hc, ?_⟩
  have hlive : s.live = s.tasks := by
    rw [Sys.live, hc]
    rfl
  rcases h.single with ⟨hl, -⟩ | ⟨t', hl, -⟩
  · rw [hlive] at hl
    rw [hl] at hi
    cases hi
  · rw [hlive] at hl
    rw [hl] at hi
    cases i with
    | zero =>
        cases hi
        exact ⟨hl, rfl⟩
    | succ i => cases hi

include h in
theorem live_eq_of_awaiting {i : Nat} {t : Task} (hi : s.awaiting i = some t) : s.live = [t] := by
  obtain ⟨hidle, ht, -⟩ := h.live_of_awaiting hi
  rw [Sys.live, hidle, ht]
  rfl

include h in
theorem live_nil_of_not_busy (hb : s.bridge.busy = false) : s.live = [] := by
  rcases h.single with ⟨hl, -⟩ | ⟨t, -, hb'⟩
  · exact hl
  · rw [hb'] at hb
    cases hb

end Shape

theorem Sys.deliver_move {engine : Engine} {s s' : Sys} (h : s.deliver = some s') :
    MainMove engine s s' := by
  unfold deliver at h
  split at h
  · rename_i hi hq
    cases h
    exact .attach hi hq
  · rename_i hi hq
    cases h
    exact .nudge hi hq
  · cases h

theorem Sys.stepGuard_move {engine : Engine} {s : Sys} (hs : Shape s) (hg : s.current = .guard) :
    MainMove engine s (s.stepGuard engine) := by
  unfold stepGuard
  split
  · rename_i c hb hc
    split
    · rename_i hst
      have hl := hs.live_nil_of_not_busy hb
      have ht : s.tasks = [] := (List.append_eq_nil_iff.mp hl).2
      dsimp only
      split
      · rename_i hr
        exact .pick hg hl hb hc hst (.unreadable hr) (.inr ⟨rfl, rfl, ht⟩)
      · rename_i hr
        exact .pick hg hl hb hc hst (.null hr) (.inr ⟨rfl, rfl, ht⟩)
      · rename_i r hne hr
        obtain ⟨header, body⟩ := r
        refine .pick hg hl hb hc hst (.fetch hr ?_) (.inl ⟨rfl, rfl, ?_⟩)
        · rintro rfl
          exact hne body rfl
        · change s.tasks ++ [_] = [_]
          rw [ht]
          rfl
    · rename_i hst
      refine .decline hg fun c' _ hc' ↦ ?_
      cases hc.symm.trans hc'
      exact hst
  · rename_i hno
    exact .decline hg fun c hb hc ↦ (hno c hb hc).elim

theorem Sys.storeWindow_move {engine : Engine} {s : Sys} {c : Nat} {t : Task} {info : Json}
    {payload : Bytes} {status : Int} {state : SabState} {next : Next} {failed : At}
    (hr : s.current = .run t) (ht : s.tasks = []) (hc : s.bridge.ctrl = some c)
    (hs : t.Stores engine info payload status state next failed) :
    MainMove engine s (s.storeWindow t c info payload status state next failed) := by
  unfold storeWindow
  dsimp only
  split
  · rename_i hw
    exact .overflow hr ht hc hs hw
  · rename_i off hw
    exact .store hr ht hc hs hw

theorem Sys.stepTask_move {engine : Engine} {s s' : Sys} {c : Nat} {t : Task} (hs : Shape s)
    (hr : s.current = .run t) (hc : s.bridge.ctrl = some c)
    (h : s.stepTask engine c t = some s') : MainMove engine s s' := by
  have ht := hs.tasks_of_run hr
  have hl := hs.live_of_run hr
  have hg : s.current ≠ .guard := by
    rw [hr]
    nofun
  -- an invocation that goes on running, or goes to sleep, without a store
  have runs : ∀ {t' : Task}, t'.pc.sleeps = false →
      t.Move engine c (s.state c) (s.sab s.bridge.data).size t' [] →
      MainMove engine s (s.runs t') := by
    intro t' hsleeps hm
    have : MainMove engine s { s with current := .run t', tasks := s.tasks, log := s.log ++ [] } :=
      .task hl hg hc hm (.inr ⟨hsleeps, rfl, ht⟩)
    rwa [List.append_nil] at this
  have suspends : ∀ {t' : Task}, t'.pc.sleeps = true →
      t.Move engine c (s.state c) (s.sab s.bridge.data).size t' [] →
      MainMove engine s (s.suspends t') := by
    intro t' hsleeps hm
    have : MainMove engine s
        { s with current := .idle, tasks := s.tasks ++ [t'], log := s.log ++ [] } :=
      .task hl hg hc hm (.inl ⟨hsleeps, rfl, by rw [ht]; rfl⟩)
    rwa [List.append_nil] at this
  unfold stepTask at h
  split at h
  · rename_i e hpc
    cases h
    exact storeWindow_move hr ht hc (.window hpc)
  · rename_i message kind caught hpc
    cases h
    exact storeWindow_move hr ht hc (.report hpc)
  · rename_i off state next hpc
    cases h
    exact .storeLength hr ht hc hpc
  · rename_i state next hpc
    split at h
    · cases h
      exact .storeState hr ht hc hpc (.inl ⟨rfl, rfl⟩)
    · rename_i hne
      cases h
      exact .storeState hr ht hc hpc (.inr ⟨hne, rfl⟩)
  · rename_i next hpc
    dsimp only at h
    split at h
    · rename_i hst
      split at h
      · cases h
        exact runs rfl (.ackedWindow hpc hst)
      · cases h
        exact suspends rfl (.ackedRead hpc hst)
      · cases h
        exact runs rfl (.ackedLeave hpc hst)
    · rename_i hst
      split at h
      · rename_i he
        cases h
        exact runs rfl (.quits hpc hst he)
      · rename_i he
        cases h
        exact runs rfl (.still hpc (by simpa using he))
  · rename_i cur next hpc
    split at h
    · rename_i hw
      split at h
      · rename_i hst
        subst hst
        cases h
        exact suspends rfl (.park hpc hw)
      · rename_i hst
        cases h
        exact runs rfl (.notEqual hpc hw hst)
    · rename_i hw
      cases h
      exact suspends rfl (.poll hpc (by simpa using hw))
  · rename_i hpc
    cases h
    exact .leave hr ht hc hpc
  · cases h

theorem Sys.stepMain_move {engine : Engine} {s s' : Sys} (hs : Shape s)
    (h : s.stepMain engine = some s') : MainMove engine s s' := by
  unfold stepMain at h
  split at h
  · rename_i hg
    cases h
    exact stepGuard_move hs hg
  · rename_i t c hr hc
    exact stepTask_move hs hr hc h
  · cases h

section
variable {engine : Engine} {s : Sys} (hs : Shape s) {i c : Nat} {t t' : Task}
  {events : List Event} (hi : s.awaiting i = some t) (hc : s.bridge.ctrl = some c)
  (hm : t.Move engine c (s.state c) (s.sab s.bridge.data).size t' events)

include hs hi hc hm

/-- A sleeper runs on. -/
theorem Sys.resumes_move (hsleeps : t'.pc.sleeps = false) :
    MainMove engine s ({ s.without i with log := s.log ++ events }.runs t') := by
  have hl := hs.live_eq_of_awaiting hi
  obtain ⟨hidle, ht, rfl⟩ := hs.live_of_awaiting hi
  refine .task hl ?_ hc hm (.inr ⟨hsleeps, rfl, ?_⟩)
  · rw [hidle]
    nofun
  · change s.tasks.eraseIdx 0 = []
    rw [ht]
    rfl

/-- A sleeper goes on and suspends again. -/
theorem Sys.suspends_move (hsleeps : t'.pc.sleeps = true) :
    MainMove engine s ({ s.without i with log := s.log ++ events }.suspends t') := by
  have hl := hs.live_eq_of_awaiting hi
  obtain ⟨hidle, ht, rfl⟩ := hs.live_of_awaiting hi
  refine .task hl ?_ hc hm (.inl ⟨hsleeps, rfl, ?_⟩)
  · rw [hidle]
    nofun
  · change (s.tasks.eraseIdx 0) ++ [t'] = [t']
    rw [ht]
    rfl

end

theorem Sys.resumes_silently {engine : Engine} {s : Sys} (hs : Shape s) {i c : Nat} {t t' : Task}
    (hi : s.awaiting i = some t) (hc : s.bridge.ctrl = some c)
    (hm : t.Move engine c (s.state c) (s.sab s.bridge.data).size t' [])
    (hsleeps : t'.pc.sleeps = false) : MainMove engine s ((s.without i).runs t') := by
  have := resumes_move hs hi hc hm hsleeps
  rwa [List.append_nil] at this

theorem Sys.attached_of_awaiting {s : Sys} (hs : Shape s) {i : Nat} {t : Task}
    (hi : s.awaiting i = some t) : ∃ c, s.bridge.ctrl = some c := by
  obtain ⟨hidle, ht, -⟩ := hs.live_of_awaiting hi
  refine hs.attached ?_
  rw [Sys.live, ht]
  simp

theorem Sys.fetchDone_move {engine : Engine} {s s' : Sys} {i : Nat} {r : FetchResult}
    (hs : Shape s) (h : s.fetchDone engine i r = some s') : MainMove engine s s' := by
  unfold fetchDone at h
  split at h
  swap
  · cases h
  rename_i t hi
  obtain ⟨c, hc⟩ := attached_of_awaiting hs hi
  split at h
  swap
  · cases h
  rename_i hpc
  dsimp only at h
  split at h
  · cases h
    exact resumes_silently hs hi hc (.rejected hpc) rfl
  · rename_i resp
    split at h
    · rename_i hk
      cases h
      exact suspends_move hs hi hc (.buffering hpc hk) rfl
    · rename_i hk
      split at h
      · rename_i hb
        cases h
        exact suspends_move hs hi hc (.reading hpc hk hb) rfl
      · rename_i hb
        cases h
        exact resumes_move hs hi hc (.bodiless hpc hk (by simpa using hb)) rfl

theorem Sys.timer_move {engine : Engine} {s s' : Sys} {i : Nat} (hs : Shape s)
    (h : s.timer i = some s') : MainMove engine s s' := by
  unfold timer at h
  split at h
  swap
  · cases h
  rename_i t hi
  obtain ⟨c, hc⟩ := attached_of_awaiting hs hi
  split at h
  swap
  · cases h
  rename_i hpc
  split at h
  · cases h
    have hl := hs.live_eq_of_awaiting hi
    obtain ⟨hidle, ht, rfl⟩ := hs.live_of_awaiting hi
    have hg : s.current ≠ .guard := by
      rw [hidle]
      nofun
    have : MainMove engine s { s with
        current := s.current, tasks := s.tasks.set 0 { t with timedOut := true }
        log := s.log ++ [] } :=
      .task hl hg hc (.timer hpc) (.inl ⟨by rw [hpc]; rfl, hidle, by rw [ht]; rfl⟩)
    rwa [List.append_nil] at this
  · cases h

theorem Sys.bufferDone_move {engine : Engine} {s s' : Sys} {i : Nat} {r : BufferResult}
    (hs : Shape s) (h : s.bufferDone i r = some s') : MainMove engine s s' := by
  unfold bufferDone at h
  split at h
  swap
  · cases h
  rename_i t hi
  obtain ⟨c, hc⟩ := attached_of_awaiting hs hi
  split at h
  swap
  · cases h
  rename_i resp hpc
  dsimp only at h
  split at h
  · cases h
    exact resumes_move hs hi hc (.buffered hpc) rfl
  · cases h
    exact resumes_silently hs hi hc (.unbuffered hpc) rfl

theorem Sys.readDone_move {engine : Engine} {s s' : Sys} {i : Nat} {r : ReadResult}
    (hs : Shape s) (h : s.readDone i r = some s') : MainMove engine s s' := by
  unfold readDone at h
  split at h
  swap
  · cases h
  rename_i t hi
  obtain ⟨c, hc⟩ := attached_of_awaiting hs hi
  split at h
  swap
  · cases h
  rename_i resp first hpc
  split at h
  · cases h
    have hl := hs.live_eq_of_awaiting hi
    obtain ⟨hidle, ht, rfl⟩ := hs.live_of_awaiting hi
    have hg : s.current ≠ .guard := by
      rw [hidle]
      nofun
    have : MainMove engine s { s with
        current := s.current, tasks := s.tasks, log := s.log ++ [] } :=
      .task hl hg hc (.empty hpc) (.inl ⟨hs.asleep t (by rw [ht]; simp), hidle, ht⟩)
    rwa [List.append_nil] at this
  · cases h
    exact resumes_move hs hi hc (.chunk hpc (List.cons_ne_nil _ _)) rfl
  · cases h
    exact resumes_move hs hi hc (.exhausted hpc) rfl
  · cases h
    exact resumes_silently hs hi hc (.broken hpc) rfl

theorem Sys.wake_move {engine : Engine} {s s' : Sys} {i : Nat} (hs : Shape s)
    (h : s.wake i = some s') : MainMove engine s s' := by
  unfold wake at h
  split at h
  swap
  · cases h
  rename_i t hi
  obtain ⟨c, hc⟩ := attached_of_awaiting hs hi
  split at h
  swap
  · cases h
  rename_i next hpc
  cases h
  exact resumes_silently hs hi hc (.woken hpc) rfl

/-! ## All steps -/

/-- The steps of the main thread. -/
def Action.byMain : Action → Bool
  | .deliver | .main | .fetchDone .. | .timer _ | .bufferDone .. | .readDone .. | .wake _ => true
  | _ => false

/-- A step of either thread; what the main thread does between two turns of its event loop
is its own action. -/
inductive Move (engine : Engine) (s : Sys) : Action → Sys → Prop where
  | worker {a : Action} {s' : Sys} (h : WorkerMove s a s') : Move engine s a s'
  | main {a : Action} {s' : Sys} (hb : a.byMain = true) (ha : s.current ≠ .idle → a = .main)
      (h : MainMove engine s s') : Move engine s a s'

theorem Sys.awaiting_eq_none {s : Sys} (i : Nat) (h : s.current ≠ .idle) : s.awaiting i = none := by
  unfold awaiting
  split
  · rename_i hi
    exact absurd hi h
  · rfl

theorem Sys.deliver_eq_none {s : Sys} (h : s.current ≠ .idle) : s.deliver = none := by
  unfold deliver
  split
  · rename_i hi _
    exact absurd hi h
  · rename_i hi _
    exact absurd hi h
  · rfl

theorem Move.of_step {engine : Engine} {s s' : Sys} {a : Action} (hs : Shape s)
    (h : step engine s a = some s') : Move engine s a s' := by
  cases a with
  | construct capacity => exact .worker (Sys.construct_move h)
  | start c req => exact .worker (Sys.start_move h)
  | resume i => exact .worker (Sys.resume_move h)
  | close i => exact .worker (Sys.close_move h)
  | worker => exact .worker (Sys.stepWorker_move h)
  | closing => exact .worker (Sys.stepClosing_move h)
  | expire => exact .worker (Sys.expire_move h)
  | deliver =>
      refine .main rfl (fun hne ↦ ?_) (Sys.deliver_move h)
      cases h.symm.trans (Sys.deliver_eq_none hne)
  | main => exact .main rfl (fun _ ↦ rfl) (Sys.stepMain_move hs h)
  | fetchDone i r =>
      refine .main rfl (fun hne ↦ ?_) (Sys.fetchDone_move hs h)
      simp [step, Sys.fetchDone, Sys.awaiting_eq_none i hne] at h
  | timer i =>
      refine .main rfl (fun hne ↦ ?_) (Sys.timer_move hs h)
      simp [step, Sys.timer, Sys.awaiting_eq_none i hne] at h
  | bufferDone i r =>
      refine .main rfl (fun hne ↦ ?_) (Sys.bufferDone_move hs h)
      simp [step, Sys.bufferDone, Sys.awaiting_eq_none i hne] at h
  | readDone i r =>
      refine .main rfl (fun hne ↦ ?_) (Sys.readDone_move hs h)
      simp [step, Sys.readDone, Sys.awaiting_eq_none i hne] at h
  | wake i =>
      refine .main rfl (fun hne ↦ ?_) (Sys.wake_move hs h)
      simp [step, Sys.wake, Sys.awaiting_eq_none i hne] at h

/-! ## Overlap -/

theorem Shape.init : Shape {} where
  single := .inl ⟨rfl, rfl⟩
  attached h := absurd rfl h
  asleep := by simp
  awake := by simp

/-- The parts of the state that `Shape` speaks of. -/
theorem Shape.of_eq {s s' : Sys} (h : Shape s) (hb : s'.bridge = s.bridge)
    (hc : s'.current = s.current) (ht : s'.tasks = s.tasks) : Shape s' := by
  have hl : s'.live = s.live := by rw [Sys.live, Sys.live, hc, ht]
  refine ⟨?_, ?_, ?_, ?_⟩
  · rw [hl, hb]
    exact h.single
  · rw [hl, hb]
    exact h.attached
  · rw [ht]
    exact h.asleep
  · rw [hc]
    exact h.awake

/-- A `notify` of the worker's wakes the sleepers and leaves the rest. -/
theorem Shape.live_storeByWorker {s : Sys} (h : Shape s) (c : Nat) (st : SabState) :
    (s.storeByWorker c st).live = s.live.map (Task.wake c) := by
  change s.current.task.toList ++ s.tasks.map (Task.wake c) = _
  rw [Sys.live, List.map_append]
  congr 1
  rcases hc : s.current with _ | _ | t
  · rfl
  · rfl
  · have hawake := h.awake t hc
    have : t.wake c = t := Task.wake_eq_self fun cur next hpc ↦ by
      rw [hpc] at hawake
      cases hawake
    simp [Current.task, this]

theorem Shape.storeByWorker {s : Sys} (h : Shape s) (c : Nat) (st : SabState) :
    Shape (s.storeByWorker c st) := by
  have hl := h.live_storeByWorker c st
  refine ⟨?_, ?_, ?_, h.awake⟩
  · rw [hl]
    rcases h.single with ⟨h0, hb⟩ | ⟨t, h1, hb⟩
    · exact .inl ⟨by rw [h0]; rfl, hb⟩
    · exact .inr ⟨t.wake c, by rw [h1]; rfl, hb⟩
  · intro hne
    refine h.attached fun h0 ↦ hne ?_
    rw [hl, h0]
    rfl
  · intro t ht
    obtain ⟨t', ht', rfl⟩ := List.mem_map.mp ht
    rw [Task.sleeps_wake]
    exact h.asleep t' ht'

/-- The main thread turns to another event while no invocation runs. -/
theorem Shape.turn {s s' : Sys} (h : Shape s) (hb : s'.bridge = s.bridge)
    (ht : s'.tasks = s.tasks) (hc : s.current.task = none) (hc' : s'.current.task = none) :
    Shape s' := by
  have hl : s'.live = s.live := by rw [Sys.live, Sys.live, hc, hc', ht]
  refine ⟨?_, ?_, ?_, fun t hr ↦ ?_⟩
  · rw [hl, hb]
    exact h.single
  · rw [hl, hb]
    exact h.attached
  · rw [ht]
    exact h.asleep
  · rw [hr] at hc'
    cases hc'

/-- An invocation runs on, or sleeps, and the bridge keeps its flag. -/
theorem Shape.placed {s : Sys} {c : Nat} {t : Task} (hb : s.bridge.busy = true)
    (hc : s.bridge.ctrl = some c) (hp : t.Placed s.current s.tasks) : Shape s where
  single := .inr ⟨t, hp.live, hb⟩
  attached _ := ⟨c, hc⟩
  asleep := by
    intro t' ht
    rcases hp with ⟨hs, -, ht'⟩ | ⟨-, -, ht'⟩ <;> rw [ht'] at ht
    · cases List.mem_singleton.mp ht
      exact hs
    · cases ht
  awake := by
    intro t' hr
    rcases hp with ⟨-, hc', -⟩ | ⟨hs, hc', -⟩ <;> rw [hc'] at hr
    · cases hr
    · cases hr
      exact hs

theorem Shape.busy_of_live {s : Sys} (h : Shape s) {t : Task} (hl : s.live = [t]) :
    s.bridge.busy = true := by
  rcases h.single with ⟨h0, -⟩ | ⟨_, -, hb⟩
  · rw [hl] at h0
    cases h0
  · exact hb

theorem CallMove.shape {s s' : Sys} {call : Call} {pc : Pc} (h : CallMove s call pc s')
    (hs : Shape s) : Shape s' := by
  cases h with
  | storeReady => exact (hs.storeByWorker call.chan .reqReady).of_eq rfl rfl rfl
  | ackWindow => exact (hs.storeByWorker call.chan .chunkAck).of_eq rfl rfl rfl
  | ackChunk => exact (hs.storeByWorker call.chan .chunkAck).of_eq rfl rfl rfl
  | resetStore => exact (hs.storeByWorker call.chan .idle).of_eq rfl rfl rfl
  | _ => exact hs.of_eq rfl rfl rfl

theorem WorkerMove.shape {s s' : Sys} {a : Action} (h : WorkerMove s a s') (hs : Shape s) :
    Shape s' := by
  cases h with
  | call _ _ h => exact h.shape hs
  | @closingStore call _ => exact (hs.storeByWorker call.chan .idle).of_eq rfl rfl rfl
  | _ => exact hs.of_eq rfl rfl rfl

theorem Task.Stores.awake {engine : Engine} {t : Task} {info : Json} {payload : Bytes}
    {status : Int} {state : SabState} {next : Next} {failed : At}
    (h : t.Stores engine info payload status state next failed) : failed.sleeps = false := by
  cases h with
  | window => rfl
  | report => split <;> rfl

theorem MainMove.shape {engine : Engine} {s s' : Sys} (h : MainMove engine s s') (hs : Shape s) :
    Shape s' := by
  cases h with
  | @attach c d queue hi hq => exact ⟨hs.single, fun _ ↦ ⟨c, rfl⟩, hs.asleep, hs.awake⟩
  | nudge hi hq => exact hs.turn rfl rfl (by rw [hi]; rfl) rfl
  | decline hg _ => exact hs.turn rfl rfl (by rw [hg]; rfl) rfl
  | pick hg hl hb hc hst hp hl' => exact Shape.placed rfl hc hl'
  | task hl hg hc hm hl' => exact Shape.placed (hs.busy_of_live hl) hc hl'
  | store hr ht hc hm hw =>
      exact .placed (hs.busy_of_live (hs.live_of_run hr)) hc (.inr ⟨rfl, rfl, ht⟩)
  | overflow hr ht hc hm hw =>
      exact .placed (hs.busy_of_live (hs.live_of_run hr)) hc (.inr ⟨hm.awake, rfl, ht⟩)
  | storeLength hr ht hc hpc =>
      exact .placed (hs.busy_of_live (hs.live_of_run hr)) hc (.inr ⟨rfl, rfl, ht⟩)
  | storeState hr ht hc hpc hpc' =>
      refine .placed (hs.busy_of_live (hs.live_of_run hr)) hc (.inr ⟨?_, rfl, ht⟩)
      rcases hpc' with ⟨-, rfl⟩ | ⟨-, rfl⟩ <;> rfl
  | @leave c t hr ht hc hpc =>
      have hl := Sys.live_leave s c ht
      refine ⟨.inl ⟨hl, rfl⟩, fun hne ↦ absurd hl hne, hs.asleep, fun t hr' ↦ ?_⟩
      dsimp only at hr'
      split at hr' <;> cases hr'

/-- Invocations of `handleRpc` never overlap behind their guard, in any run. -/
theorem shape_of_reachable {engine : Engine} {ok : System.Guard Sys Action} {s : Sys}
    (h : (system engine).Reachable ok s) : Shape s := by
  refine h.invariant ?_ ?_
  · rintro s rfl
    exact Shape.init
  · intro s a s' hs _ hstep
    cases Move.of_step hs hstep with
    | worker h => exact h.shape hs
    | main _ _ h => exact h.shape hs

end ConnectWeb.Sab
