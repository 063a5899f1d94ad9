import ConnectWeb.Sab.Sending
import ConnectWeb.Sab.Wire

/-!
# Runs over `postMessage`

A step of the two programs only appends to the messages on the way.  So where the page listens
for what the backends speak, a run over `postMessage` is a run of the two programs, whatever else
goes over the same channel.
-/

namespace ConnectWeb.Sab

/-! ## Messages stay in order -/

namespace Sys

/-- Older messages are on the way. -/
def behind (older : List Message) (s : Sys) : Sys := { s with queue := older ++ s.queue }

variable (older : List Message) (s : Sys)

theorem behind_post (m : Message) : (s.behind older).post m = (s.post m).behind older :=
  congrArg (fun queue ↦ ({ s with queue, sent := s.sent ++ [m] } : Sys)) (List.append_assoc ..)

theorem stepCall_behind (call : Call) (pc : Pc) :
    (s.behind older).stepCall call pc = (s.stepCall call pc).map (behind older) := by
  cases pc with
  | grow =>
      change Option.map _ _ = Option.map _ (Option.map _ _)
      rw [Option.map_map]
      rfl
  | announce d =>
      change some (((s.behind older).post (.sab call.chan d)).goto call .marshal) = _
      rw [behind_post]
      rfl
  | nudge =>
      change some (((s.behind older).post .rpc).goto call (.wait .first)) = _
      rw [behind_post]
      rfl
  | marshal =>
      simp only [stepCall, behind]
      rcases writeRequest (s.sab (s.backend call.chan).data) (headerBytes call.request call.gen)
        call.request.body with _ | r
      · rfl
      · rfl
  | wait w =>
      have hstate : (s.behind older).state call.chan = s.state call.chan := rfl
      simp only [stepCall, hstate]
      split
      · rfl
      · rfl
  | block w => rfl
  | readWindow =>
      simp only [stepCall, behind, region]
      rcases takeWindow call (s.sab (s.backend call.chan).data) (s.backend call.chan).ctrl.length
        with call' | call' | _
      · rfl
      · dsimp only
        rcases call'.request.kind with _ | _
        · rfl
        · rfl
      · rfl
  | resume => rfl
  | resetLoad o =>
      have hbackend : (s.behind older).backend = s.backend := rfl
      simp only [stepCall, hbackend]
      split
      · rfl
      · rfl
  | _ => rfl

theorem stepWorker_behind :
    (s.behind older).stepWorker = s.stepWorker.map (behind older) := by
  have hclosing : (s.behind older).closing = s.closing := rfl
  have hworker : (s.behind older).worker = s.worker := rfl
  simp only [stepWorker, hclosing, hworker]
  rcases s.closing with _ | cl
  · rcases s.worker with _ | ⟨c, d⟩ | ⟨call, pc⟩
    · rfl
    · exact congrArg (fun s : Sys ↦ some { s with worker := Worker.ready })
        (behind_post older s (.sab c d))
    · exact stepCall_behind older s call pc
  · rfl

theorem storeWindow_behind (t : Task) (c : Nat) (info : Json) (payload : Bytes) (status : Int)
    (state : SabState) (next : Next) (failed : At) :
    (s.behind older).storeWindow t c info payload status state next failed =
      (s.storeWindow t c info payload status state next failed).behind older := by
  have hsab : (s.behind older).sab = s.sab := rfl
  have hbridge : (s.behind older).bridge = s.bridge := rfl
  simp only [storeWindow, hsab, hbridge]
  rcases (writeWindow (s.sab s.bridge.data) (metaBytes info) payload).2 with _ | off
  · rfl
  · rfl

theorem stepTask_behind (engine : Engine) (c : Nat) (t : Task) :
    (s.behind older).stepTask engine c t = (s.stepTask engine c t).map (behind older) := by
  obtain ⟨pick, timedOut, pc⟩ := t
  cases pc with
  | window e => exact congrArg some (storeWindow_behind ..)
  | report message kind caught => exact congrArg some (storeWindow_behind ..)
  | storeState state next => cases next <;> rfl
  | awaitLoad next =>
      have hstate : (s.behind older).state c = s.state c := rfl
      simp only [stepTask, hstate]
      split
      · cases next <;> rfl
      · split
        · rfl
        · rfl
  | awaitBlock cur next =>
      have hstate : (s.behind older).state c = s.state c := rfl
      simp only [stepTask, hstate]
      split
      · split
        · rfl
        · rfl
      · rfl
  | _ => rfl

theorem stepGuard_behind (engine : Engine) :
    (s.behind older).stepGuard engine = (s.stepGuard engine).behind older := by
  have hbridge : (s.behind older).bridge = s.bridge := rfl
  have hsab : (s.behind older).sab = s.sab := rfl
  have hstate : ∀ c, (s.behind older).state c = s.state c := fun _ ↦ rfl
  simp only [stepGuard, hbridge, hsab, hstate]
  rcases s.bridge with ⟨_ | c, data, _ | _⟩
  · rfl
  · rfl
  · dsimp only
    by_cases hup : s.state c = .reqReady
    · rw [if_pos hup, if_pos hup]
      rcases readRequest (s.sab data) with _ | ⟨_ | _ | _ | _ | _ | _, body⟩ <;> rfl
    · rw [if_neg hup, if_neg hup]
      rfl
  · rfl

theorem stepMain_behind (engine : Engine) :
    (s.behind older).stepMain engine = (s.stepMain engine).map (behind older) := by
  have hcurrent : (s.behind older).current = s.current := rfl
  have hbridge : (s.behind older).bridge = s.bridge := rfl
  simp only [stepMain, hcurrent, hbridge]
  rcases s.current with _ | _ | t
  · rfl
  · exact congrArg some (stepGuard_behind ..)
  · rcases s.bridge.ctrl with _ | c
    · rfl
    · exact stepTask_behind ..

end Sys

/-- A step appends to the messages on the way, and does not look at them. -/
theorem step_behind (engine : Engine) (older : List Message) (s : Sys) {a : Action}
    (ha : a.local = true) :
    step engine (s.behind older) a = (step engine s a).map (Sys.behind older) := by
  have hclosing : (s.behind older).closing = s.closing := rfl
  have hworker : (s.behind older).worker = s.worker := rfl
  have hsuspended : (s.behind older).suspended = s.suspended := rfl
  have hbackends : (s.behind older).backends = s.backends := rfl
  have hbackend : (s.behind older).backend = s.backend := rfl
  have hawake : (s.behind older).awake = s.awake := rfl
  have hawaiting : ∀ i, (s.behind older).awaiting i = s.awaiting i := fun _ ↦ rfl
  cases a with
  | deliver => cases ha
  | worker => exact Sys.stepWorker_behind ..
  | main => exact Sys.stepMain_behind ..
  | construct capacity =>
      simp only [step, Sys.construct, hclosing, hworker]
      rcases s.closing with _ | cl
      · rcases s.worker with _ | ⟨c, d⟩ | ⟨call, pc⟩ <;> rfl
      · rfl
  | start c req =>
      simp only [step, Sys.start, hclosing, hworker, hbackends]
      rcases s.closing with _ | cl
      · rcases s.worker with _ | ⟨c, d⟩ | ⟨call, pc⟩
        · dsimp only
          by_cases hlt : c < s.backends
          · rw [if_pos hlt, if_pos hlt]
            rfl
          · rw [if_neg hlt, if_neg hlt]
            rfl
        · rfl
        · rfl
      · rfl
  | resume i =>
      simp only [step, Sys.resume, hclosing, hworker, hsuspended]
      rcases s.closing with _ | cl
      · rcases s.worker with _ | ⟨c, d⟩ | ⟨call, pc⟩
        · rcases s.suspended[i]? with _ | call <;> rfl
        · rfl
        · rfl
      · rfl
  | close i =>
      simp only [step, Sys.close, hclosing, hsuspended, hawake]
      rcases s.closing with _ | cl
      · rcases s.suspended[i]? with _ | call
        · rfl
        · rcases s.awake with _ | _ <;> rfl
      · rfl
  | closing =>
      simp only [step, Sys.stepClosing, hclosing, hbackend]
      rcases s.closing with _ | ⟨call, _ | _⟩
      · rfl
      · dsimp only
        by_cases hgen : (s.backend call.chan).ctrl.gen = call.gen
        · rw [if_pos hgen, if_pos hgen]
          rfl
        · rw [if_neg hgen, if_neg hgen]
          rfl
      · rfl
  | expire =>
      simp only [step, Sys.expire, hworker]
      rcases s.worker with _ | ⟨c, d⟩ | ⟨call, pc⟩
      · rfl
      · rfl
      · cases pc with
        | parked w =>
            dsimp only
            rcases call.request.timeout with _ | t
            · rfl
            · dsimp only
              by_cases hk : w = .first ∧ call.request.kind = .unary
              · rw [if_pos hk, if_pos hk]
                rfl
              · rw [if_neg hk, if_neg hk]
                rfl
        | _ => rfl
  | fetchDone i r =>
      simp only [step, Sys.fetchDone, hawaiting]
      rcases s.awaiting i with _ | ⟨pick, timedOut, pc⟩
      · rfl
      · cases pc with
        | fetching =>
            rcases r with resp | ⟨isAbort, text⟩
            · dsimp only
              by_cases hk : jsText (pick.header.get? "kind") = "unary"
              · rw [if_pos hk, if_pos hk]
                rfl
              · rw [if_neg hk, if_neg hk]
                rcases resp.hasBody with _ | _ <;> rfl
            · rfl
        | _ => rfl
  | timer i =>
      simp only [step, Sys.timer, hawaiting]
      rcases s.awaiting i with _ | ⟨pick, timedOut, pc⟩
      · rfl
      · cases pc with
        | fetching =>
            dsimp only
            rcases jsPresent (pick.header.get? "timeout") with _ | _ <;> rfl
        | _ => rfl
  | bufferDone i r =>
      simp only [step, Sys.bufferDone, hawaiting]
      rcases s.awaiting i with _ | ⟨pick, timedOut, pc⟩
      · rfl
      · cases pc with
        | buffering resp => rcases r with body | e <;> rfl
        | _ => rfl
  | readDone i r =>
      simp only [step, Sys.readDone, hawaiting]
      rcases s.awaiting i with _ | ⟨pick, timedOut, pc⟩
      · rfl
      · cases pc with
        | reading resp first => rcases r with ⟨_ | ⟨b, bs⟩⟩ | _ | ⟨isAbort, text⟩ <;> rfl
        | _ => rfl
  | wake i =>
      simp only [step, Sys.wake, hawaiting]
      rcases s.awaiting i with _ | ⟨pick, timedOut, pc⟩
      · rfl
      · cases pc <;> rfl

/-! ## Who posts -/

theorem Worker.chan_wake (c : Nat) (w : Worker) : (w.wake c).chan = w.chan := by
  rcases w with _ | _ | ⟨call, pc⟩
  · rfl
  · rfl
  · cases pc with
    | parked w =>
        rw [wake]
        split <;> rfl
    | _ => rfl

/-- The worker's code and its generators are on backends that were built. -/
structure Sys.Known (s : Sys) : Prop where
  running : ∀ c, s.worker.chan = some c → c < s.backends
  held : ∀ call ∈ s.suspended, call.chan < s.backends

namespace Sys.Known

variable {engine : Engine} {s s' : Sys} {a : Action}

theorem init : Known {} where
  running _ h := by cases h
  held _ h := by cases h

theorem call {call : Call} {pc : Pc} (h : Known s) (hw : s.worker = .run call pc)
    (hm : CallMove s call pc s') : Known s' := by
  have hcall : call.chan < s.backends := h.running _ (by rw [hw]; rfl)
  have goes : ∀ {t : Sys} {call' : Call} {pc' : Pc}, t.worker = .run call' pc' →
      call'.chan = call.chan → t.suspended = s.suspended → t.backends = s.backends → Known t := by
    intro t call' pc' hwt hchan hst hb
    refine ⟨fun c hc ↦ ?_, fun call0 hm0 ↦ hb ▸ h.held call0 (hst ▸ hm0)⟩
    rw [hwt] at hc
    cases hc
    rw [hchan, hb]
    exact hcall
  have ready : ∀ {t : Sys}, t.worker = .ready → (∀ call ∈ t.suspended, call.chan < s.backends) →
      t.backends = s.backends → Known t := by
    intro t hwt hst hb
    refine ⟨fun c hc ↦ ?_, fun call0 hm0 ↦ hb ▸ hst call0 hm0⟩
    rw [hwt] at hc
    cases hc
  cases hm with
  | answered _ => exact goes rfl (afterWait_call ..).1 rfl rfl
  | loadStatus hcall' =>
      subst hcall'
      exact goes rfl rfl rfl rfl
  | more ht => exact goes rfl (takeWindow_call (.inl ht)).1 rfl rfl
  | complete _ ht => exact goes rfl (takeWindow_call (.inr ht)).1 rfl rfl
  | yield _ ht =>
      refine ready rfl (fun call0 hm0 ↦ ?_) rfl
      rcases List.mem_append.mp hm0 with hm0 | hm0
      · exact h.held call0 hm0
      · cases List.mem_singleton.mp hm0
        rw [(takeWindow_call (.inr ht)).1]
        exact hcall
  | unfit _ | keeps _ | resetStore => exact ready rfl h.held rfl
  | _ => exact goes rfl rfl rfl rfl

theorem worker (h : Known s) (hm : WorkerMove s a s') : Known s' := by
  cases hm with
  | construct _ _ =>
      refine ⟨fun c hc ↦ ?_, fun call hm ↦ Nat.lt_succ_of_lt (h.held call hm)⟩
      cases hc
      exact Nat.lt_succ_self _
  | attached _ _ | expireFirst _ _ _ => exact ⟨fun _ hc ↦ (by cases hc), h.held⟩
  | start _ _ hlt _ =>
      refine ⟨fun c hc ↦ ?_, h.held⟩
      cases hc
      exact hlt
  | resume _ _ hi =>
      refine ⟨fun c hc ↦ ?_, fun call hm ↦ h.held call (List.mem_of_mem_eraseIdx hm)⟩
      cases hc
      exact h.held _ (List.mem_of_getElem? hi)
  | call _ hw hm => exact h.call hw hm
  | expire hw _ _ =>
      refine ⟨fun c hc ↦ ?_, h.held⟩
      cases hc
      exact h.running _ (by rw [hw]; rfl)
  | close _ _ _ => exact ⟨h.running, fun call hm ↦ h.held call (List.mem_of_mem_eraseIdx hm)⟩
  | closingCurrent _ _ | closingStale _ _ | closingStore _ => exact ⟨h.running, h.held⟩

theorem move (h : Known s) (hm : Move engine s a s') : Known s' := by
  cases hm with
  | worker hm => exact h.worker hm
  | main _ _ hm =>
      have hchan : s'.worker.chan = s.worker.chan := by
        rcases hm.worker with hw | ⟨c, hw⟩
        · rw [hw]
        · rw [hw, Worker.chan_wake]
      refine ⟨fun c hc ↦ ?_, fun call hc ↦ ?_⟩
      · rw [hm.sameGens.backends]
        exact h.running c (hchan ▸ hc)
      · rw [hm.sameGens.backends]
        exact h.held call (hm.suspended ▸ hc)

end Sys.Known

theorem Move.backends {engine : Engine} {s s' : Sys} {a : Action} (hm : Move engine s a s') :
    s'.backends = s.backends ∨ ∃ capacity, a = .construct capacity ∧
      s'.backends = s.backends + 1 := by
  cases hm with
  | main _ _ hm => exact .inl hm.sameGens.backends
  | worker hm =>
      cases hm with
      | construct _ _ => exact .inr ⟨_, rfl, rfl⟩
      | call _ _ hm => exact .inl (by cases hm <;> rfl)
      | _ => exact .inl rfl

/-- Who posts a message is at work. -/
theorem Move.queue {engine : Engine} {s s' : Sys} {a : Action} (hm : Move engine s a s')
    (hq : s.queue = []) : s'.queue = [] ∨
      ∃ c, s.worker.chan = some c ∧ ∀ c' d, .sab c' d ∈ s'.queue → c' = c := by
  have last : ∀ {m' : Message} (m : Message), m' ∈ s.queue ++ [m] → m' = m := by
    intro m' m hm
    rw [hq] at hm
    exact List.mem_singleton.mp hm
  cases hm with
  | main _ _ hm =>
      refine .inl ?_
      cases hm with
      | attach _ hq' | nudge _ hq' =>
          rw [hq] at hq'
          cases hq'
      | _ => exact hq
  | worker hm =>
      cases hm with
      | attached _ hw =>
          refine .inr ⟨_, by rw [hw]; rfl, fun c' d hm ↦ ?_⟩
          cases last _ hm
          rfl
      | call _ hw hm =>
          cases hm with
          | announce =>
              refine .inr ⟨_, by rw [hw]; rfl, fun c' d hm ↦ ?_⟩
              cases last _ hm
              rfl
          | nudge =>
              refine .inr ⟨_, by rw [hw]; rfl, fun c' d hm ↦ ?_⟩
              cases last _ hm
          | _ => exact .inl hq
      | _ => exact .inl hq

theorem Sys.deliver_sab {s : Sys} {c d : Nat} {queue : List Message} (hi : s.current = .idle)
    (hq : s.queue = .sab c d :: queue) : s.deliver = some { s with
      queue, bridge := { s.bridge with ctrl := some c, data := d } } := by
  cases s
  cases hi
  cases hq
  rfl

theorem Sys.deliver_rpc {s : Sys} {queue : List Message} (hi : s.current = .idle)
    (hq : s.queue = .rpc :: queue) : s.deliver = some { s with queue, current := .guard } := by
  cases s
  cases hi
  cases hq
  rfl

/-! ## What a step over `postMessage` can do -/

/-- What a listener hears, as a message of the two programs. -/
def Page.message (page : Page) (m : Posting) : Option Message :=
  match page.listen m with
  | some .rpc => some .rpc
  | some (.attach (some (.backend c)) (some (.sab d))) => some (.sab c d)
  | _ => none

/-- The listener hears what is posted for it, and nothing that is posted for the other. -/
theorem Page.message_posting (page : Page) (t : BackendTransport) (m : Message) :
    page.message (t.posting m) = if t = page.transport then some m else none := by
  obtain ⟨_ | _⟩ := page <;> rcases t with _ | _ <;> rcases m with _ | _ <;> rfl

/-- The steps over `postMessage`. -/
inductive WireMove (page : Page) (engine : Engine) (w : Wire) : WireAction → Wire → Prop where
  | core {a : Action} {core : Sys} (hl : a.local = true)
      (hs : Sab.step engine w.core a = some core) :
      WireMove page engine w (.core a) { w with
        core := { core with queue := [] }
        postings := w.postings ++ w.posted core.queue
        transports := if w.core.backends < core.backends then w.transports ++ [w.auto]
          else w.transports }
  | attach {m : Posting} {postings : List Posting} {c d : Nat} (hi : w.core.current = .idle)
      (hp : w.postings = m :: postings) (hm : page.message m = some (.sab c d)) :
      WireMove page engine w .deliver { w with postings, core := { w.core with
        bridge := { w.core.bridge with ctrl := some c, data := d } } }
  | nudge {m : Posting} {postings : List Posting} (hi : w.core.current = .idle)
      (hp : w.postings = m :: postings) (hm : page.message m = some .rpc) :
      WireMove page engine w .deliver { w with postings, core := { w.core with current := .guard } }
  | passed {m : Posting} {postings : List Posting} (hp : w.postings = m :: postings)
      (hm : page.message m = none) : WireMove page engine w .deliver { w with postings }
  | foreign {m : Posting} (hm : page.message m = none) :
      WireMove page engine w (.foreign m) { w with postings := w.postings ++ [m] }
  | register {m : Posting} (hm : page.message m = none) :
      WireMove page engine w .register { w with hook := true, postings := w.postings ++ [m] }

namespace Wire

variable {page : Page} {engine : Engine} {w w' : Wire}

theorem deliver_move (h : w.deliver page = some w') : WireMove page engine w .deliver w' := by
  rw [deliver] at h
  split at h
  · rename_i hi hp
    split at h
    · rename_i hm
      cases h
      exact .passed hp (by rw [Page.message, hm])
    · rename_i hm
      cases h
      exact .nudge hi hp (by rw [Page.message, hm])
    · rename_i hm
      cases h
      exact .attach hi hp (by rw [Page.message, hm])
    · rename_i hm
      split at h
      · cases h
        exact .passed hp (by rw [Page.message, hm])
      · cases h
    · cases h
  · cases h

theorem register_move (h : w.step page engine .register = some w') :
    WireMove page engine w .register w' := by
  rw [step] at h
  split at h
  · rename_i hpage
    cases h
    refine .register ?_
    rw [Page.message, Page.listen, hpage.1]
    rfl
  · cases h

end Wire

theorem WireMove.of_step {page : Page} {engine : Engine} {w w' : Wire} {a : WireAction}
    (h : w.step page engine a = some w') : WireMove page engine w a w' := by
  cases a with
  | core a =>
      rw [Wire.step] at h
      split at h
      · rename_i hl
        obtain ⟨core, hs, rfl⟩ := Option.map_eq_some_iff.mp h
        exact .core hl hs
      · cases h
  | deliver => exact Wire.deliver_move h
  | foreign m =>
      rw [Wire.step] at h
      split at h
      · rename_i hm
        cases h
        exact .foreign (by rw [Page.message, hm])
      · cases h
  | register => exact Wire.register_move h

/-! ## Who speaks what -/

namespace Wire

/-- The transports are those of the backends, and the two programs are where they can be. -/
structure Orderly (w : Wire) : Prop where
  queue : w.core.queue = []
  count : w.transports.length = w.core.backends
  known : w.core.Known
  shape : Shape w.core

namespace Orderly

variable {page : Page} {engine : Engine} {w w' : Wire} {a : WireAction}

theorem init {postings : List Posting} : Orderly { postings } := ⟨rfl, rfl, .init, .init⟩

/-- A step of the worker is one of a backend that was built, whose transport is on record. -/
theorem posted (h : Orderly w) {a : Action} {core : Sys} (hm : Move engine w.core a core) :
    core.queue = [] ∧ w.posted core.queue = [] ∨
      ∃ (c : Nat) (t : BackendTransport), w.transports[c]? = some t ∧
        (∀ c' d, .sab c' d ∈ core.queue → c' = c) ∧
        w.posted core.queue = core.queue.map t.posting := by
  rcases hm.queue h.queue with hq | ⟨c, hc, hsab⟩
  · refine .inl ⟨hq, ?_⟩
    rw [hq, Wire.posted]
    split <;> rfl
  · obtain ⟨t, ht⟩ : ∃ t, w.transports[c]? = some t := by
      refine ⟨_, List.getElem?_eq_getElem ?_⟩
      rw [h.count]
      exact h.known.running c hc
    refine .inr ⟨c, t, ht, hsab, ?_⟩
    rw [Wire.posted, hc, Option.bind_some, ht]

/-- A step of the two programs. -/
theorem core (h : Orderly w) {a : Action} {core : Sys} (hm : Move engine w.core a core)
    {postings : List Posting} : Orderly { w with
      core := { core with queue := [] }
      postings
      transports := if w.core.backends < core.backends then w.transports ++ [w.auto]
        else w.transports } := by
  have hknown := h.known.move hm
  have hshape : Shape core := by
    cases hm with
    | worker hm => exact hm.shape h.shape
    | main _ _ hm => exact hm.shape h.shape
  refine ⟨rfl, ?_, ⟨hknown.running, hknown.held⟩, hshape.of_eq rfl rfl rfl⟩
  dsimp only
  rcases hm.backends with hb | ⟨-, -, hb⟩
  · rw [if_neg (by omega), h.count, hb]
  · rw [if_pos (by omega), List.length_append, h.count, hb]
    rfl

theorem move (h : Orderly w) (hm : WireMove page engine w a w') : Orderly w' := by
  cases hm with
  | core _ hs => exact h.core (Move.of_step h.shape hs)
  | @attach m _ c d _ _ _ =>
      have hs := h.shape
      exact ⟨h.queue, h.count, ⟨h.known.running, h.known.held⟩,
        ⟨hs.single, fun _ ↦ ⟨c, rfl⟩, hs.asleep, hs.awake⟩⟩
  | nudge hi _ _ =>
      exact ⟨h.queue, h.count, ⟨h.known.running, h.known.held⟩,
        h.shape.turn rfl rfl (by rw [hi]; rfl) rfl⟩
  | passed _ _ | foreign _ | register _ => exact ⟨h.queue, h.count, h.known, h.shape⟩

end Orderly

theorem orderly_of_reachable {page : Page} {engine : Engine} {ok : System.Guard Wire WireAction}
    {w : Wire} (h : (wire page engine).Reachable ok w) : Orderly w := by
  refine h.invariant ?_ ?_
  · rintro w rfl
    exact .init
  · intro w a w' hw _ hstep
    exact hw.move (WireMove.of_step hstep)

end Wire

/-! ## The refinement -/

namespace Wire

/-- The two programs, with the messages for the bridge on the way. -/
def sys (page : Page) (w : Wire) : Sys := w.core.behind (w.postings.filterMap page.message)

/-- A backend is built when its transport is the one that the page listens for. -/
def Tunes (page : Page) (w : Wire) : WireAction → Prop
  | .core (.construct _) => w.auto = page.transport
  | _ => True

/-- What the guard of the two programs is for the steps over `postMessage`. -/
def Allows (page : Page) (ok : System.Guard Sys Action) (w : Wire) : WireAction → Prop
  | .core a => ok (w.sys page) a
  | .deliver => ok (w.sys page) .deliver
  | .foreign _ | .register => True

/-- Every backend speaks what the page listens for. -/
structure Tuned (page : Page) (w : Wire) : Prop extends Orderly w where
  tuned : ∀ t ∈ w.transports, t = page.transport

variable {page : Page} {engine : Engine} {w w' : Wire} {a : WireAction}

/-- What is not for the bridge makes no difference. -/
theorem sys_append (page : Page) (w : Wire) {m : Posting} (h : page.message m = none) :
    sys page { w with postings := w.postings ++ [m] } = w.sys page := by
  rw [sys, List.filterMap_append, List.filterMap_cons_none h, List.filterMap_nil, List.append_nil]
  rfl

theorem Tuned.move (h : Tuned page w) (ha : w.Tunes page a) (hm : WireMove page engine w a w') :
    Tuned page w' := by
  refine ⟨h.toOrderly.move hm, ?_⟩
  cases hm with
  | core _ hs =>
      dsimp only
      intro t ht
      split at ht
      · rename_i hlt
        rcases List.mem_append.mp ht with ht | ht
        · exact h.tuned t ht
        · have hm := Move.of_step h.shape hs
          obtain ⟨capacity, rfl, -⟩ := hm.backends.resolve_left hlt.ne'
          rw [List.mem_singleton.mp ht]
          exact ha
      · exact h.tuned t ht
  | attach _ _ _ | nudge _ _ _ | passed _ _ | foreign _ | register _ => exact h.tuned

/-- What a tuned backend posts is what it has to say. -/
theorem Tuned.posted (h : Tuned page w) {a : Action} {core : Sys}
    (hm : Move engine w.core a core) :
    (w.posted core.queue).filterMap page.message = core.queue := by
  rcases h.toOrderly.posted hm with ⟨hq, hposted⟩ | ⟨c, t, ht, -, hposted⟩
  · rw [hposted, hq]
    rfl
  · have hmessage : page.message ∘ t.posting = some := by
      funext m
      rw [Function.comp_apply, page.message_posting, if_pos (h.tuned t (List.mem_of_getElem? ht))]
    rw [hposted, List.filterMap_map, hmessage, List.filterMap_some]

/-- A step over `postMessage` is one of the two programs, or none. -/
theorem Tuned.refines (h : Tuned page w) (hm : WireMove page engine w a w') :
    w'.sys page = w.sys page ∨ ∃ b, (∀ ok, w.Allows page ok a → ok (w.sys page) b) ∧
      Sab.step engine (w.sys page) b = some (w'.sys page) := by
  have hqueue : ∀ {m : Posting} {postings : List Posting} {m' : Message},
      w.postings = m :: postings → page.message m = some m' →
      (w.sys page).queue = m' :: postings.filterMap page.message := by
    intro m postings m' hp hm
    rw [sys, Sys.behind, hp, List.filterMap_cons_some hm, h.queue, List.append_nil]
  have hcurrent : w.core.current = .idle → (w.sys page).current = .idle := id
  have hskip : ∀ {m : Posting} {postings : List Posting}, w.postings = m :: postings →
      page.message m = none → sys page { w with postings } = w.sys page := by
    intro m postings hp hm
    rw [sys, sys, hp, List.filterMap_cons_none hm]
  cases hm with
  | @core a core hl hs =>
      refine .inr ⟨a, fun _ hok ↦ hok, ?_⟩
      rw [sys, step_behind engine _ _ hl, hs]
      change some ({ core with queue := w.postings.filterMap page.message ++ core.queue } : Sys) =
        some ({ core with
          queue := (w.postings ++ w.posted core.queue).filterMap page.message ++ [] } : Sys)
      rw [List.filterMap_append, h.posted (Move.of_step h.shape hs), List.append_nil]
  | @attach m postings c d hi hp hm =>
      refine .inr ⟨.deliver, fun _ hok ↦ hok, (Sys.deliver_sab (hcurrent hi) (hqueue hp hm)).trans ?_⟩
      change some ({ w.core with
          queue := postings.filterMap page.message
          bridge := { w.core.bridge with ctrl := some c, data := d } } : Sys) =
        some ({ w.core with
          queue := postings.filterMap page.message ++ w.core.queue
          bridge := { w.core.bridge with ctrl := some c, data := d } } : Sys)
      rw [h.queue, List.append_nil]
  | @nudge m postings hi hp hm =>
      refine .inr ⟨.deliver, fun _ hok ↦ hok, (Sys.deliver_rpc (hcurrent hi) (hqueue hp hm)).trans ?_⟩
      change some ({ w.core with
          queue := postings.filterMap page.message, current := .guard } : Sys) =
        some ({ w.core with
          queue := postings.filterMap page.message ++ w.core.queue, current := .guard } : Sys)
      rw [h.queue, List.append_nil]
  | passed hp hm => exact .inl (hskip hp hm)
  | foreign hm => exact .inl (sys_append page w hm)
  | register hm => exact .inl (sys_append page _ hm)

end Wire

/-- A run over `postMessage` is a run of the two programs, if every backend speaks what the page
listens for: whatever else the kernel or the harness posts in between. -/
theorem reachable_of_wire {page : Page} {engine : Engine} {ok : System.Guard Sys Action} {w : Wire}
    (h : (wire page engine).Reachable (fun w a ↦ w.Tunes page a ∧ w.Allows page ok a) w) :
    (system engine).Reachable ok (w.sys page) := by
  refine (System.Reachable.mapped (Wire.sys page) ?_ ?_ h : Wire.Tuned page w ∧ _).2
  · rintro w rfl
    refine ⟨⟨.init, fun t ht ↦ (by cases ht)⟩, ?_⟩
    obtain ⟨_ | _⟩ := page <;> rfl
  · rintro w a w' ht _ ⟨htunes, hallows⟩ hstep
    have hm : WireMove page engine w a w' := .of_step hstep
    exact ⟨ht.move htunes hm, (ht.refines hm).imp_right fun hb ↦
      hb.imp fun b hb ↦ ⟨hb.1 ok hallows, hb.2⟩⟩

instance (page : Page) (w : Wire) : DecidablePred (w.Tunes page)
  | .core (.construct _) => inferInstanceAs (Decidable (w.auto = page.transport))
  | .core (.start _ _) | .core (.resume _) | .core (.close _) | .core .worker | .core .closing
  | .core .expire | .core .deliver | .core .main | .core (.fetchDone _ _) | .core (.timer _)
  | .core (.bufferDone _ _) | .core (.readDone _ _) | .core (.wake _)
  | .deliver | .foreign _ | .register => isTrue trivial

instance (page : Page) (ok : System.Guard Sys Action) [∀ s a, Decidable (ok s a)] (w : Wire) :
    DecidablePred (w.Allows page ok)
  | .core a => inferInstanceAs (Decidable (ok (w.sys page) a))
  | .deliver => inferInstanceAs (Decidable (ok (w.sys page) .deliver))
  | .foreign _ | .register => isTrue trivial

/-- A call from a kernel, between the kernel's own messages. -/
def kernelRun : List WireAction :=
  List.flatten [
    [.foreign { type := "_kernelMessage" }, .core (.construct 8192), .core .worker],
    [.foreign {}, .deliver, .deliver, .core (.start 0 { kind := .unary, url := "/unary" })],
    .replicate 5 (.core .worker),
    [.foreign { type := "pcw_rpc" }, .deliver, .deliver, .core .main]]

theorem reachable_of_wire_kernelRun : ∃ w : Wire, w.core.picks.length = 1 ∧
    (system v8).Reachable (fun s a ↦ s.Single a) (w.sys ⟨.kernel⟩) := by
  obtain ⟨w, hr, hw⟩ := (wire ⟨.kernel⟩ v8).exists_reachable
    (fun w a ↦ w.Tunes ⟨.kernel⟩ a ∧ w.Allows ⟨.kernel⟩ (fun s a ↦ s.Single a) a) kernelRun
    (fun w ↦ w.core.picks.length = 1) rfl (by decide +kernel)
  exact ⟨w, of_decide_eq_true hw, reachable_of_wire hr⟩

end ConnectWeb.Sab
