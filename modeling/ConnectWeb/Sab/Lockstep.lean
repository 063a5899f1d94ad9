import ConnectWeb.Sab.Isolation

/-!
# Runs without timeouts

Without timeouts the two threads take strict turns: a request or an ack is up only while the
worker waits for the answer to it, and an invocation serves only while one is up.  So whenever
an RPC starts nobody can still answer, and of the discipline of the preceding file only the
conditions at the guard are left.
-/

namespace ConnectWeb.Sab

/-- RPCs have no timeout. -/
def Sys.Untimed : Action → Prop
  | .start _ req => req.timeout = none
  | _ => True

/-- An invocation that passes its guard has the data SAB that the worker is bound to attached,
and the request there fits its length words. -/
def Sys.Fresh (s : Sys) : Action → Prop
  | .main => s.current = .guard → ∀ c, s.bridge.busy = false → s.bridge.ctrl = some c →
      s.state c = .reqReady →
        s.bridge.data = (s.backend c).data ∧ ∀ q, s.posted c = some q → q.Sized
  | _ => True

/-- The calls that go on, or may be resumed, have no timeout. -/
structure Patient (s : Sys) : Prop where
  running : ∀ call ph, s.worker.phase = some (call, ph) → call.request.timeout = none
  held : ∀ call ∈ s.suspended, call.request.timeout = none

/-- The main thread is not due, and nobody serves. -/
structure Sys.Quiet (s : Sys) : Prop where
  states : ∀ c, (s.state c).mainTurn = false
  serving : ∀ t ∈ s.live, t.stage ≠ .serving

/-- The two threads take turns. -/
structure Lockstep (s : Sys) : Prop where
  patient : Patient s
  asks : ∀ c, (s.state c).mainTurn = true →
    ∃ call w, s.worker.phase = some (call, .asking w) ∧ call.chan = c ∧ s.state c = w.expect
  turn : ∀ t ∈ s.live, t.stage = .serving → (s.state s.newest).mainTurn = true

/-- A call without a timeout is not timed out. -/
theorem Patient.not_timed {s : Sys} (h : Patient s) {call : Call} {pc : Pc} {t : Timeout}
    (hw : s.worker = .run call pc) (ht : call.request.timeout = some t) : False := by
  have hph : s.worker.phase = some (call, pc.phase) := by rw [hw]; rfl
  rw [h.running call _ hph] at ht
  cases ht

namespace Lockstep

variable {s : Sys} (h : Lockstep s)

include h in
/-- Unless the worker waits for an answer that is due, all is quiet. -/
theorem quiet (hw : ∀ call w, s.worker.phase = some (call, .asking w) →
    s.state call.chan ≠ w.expect) : s.Quiet := by
  have states : ∀ c, (s.state c).mainTurn = false := by
    intro c
    rw [← Bool.not_eq_true]
    intro hc
    obtain ⟨call, w, hph, rfl, hst⟩ := h.asks c hc
    exact hw call w hph hst
  refine ⟨states, fun t ht hst ↦ ?_⟩
  have := h.turn t ht hst
  rw [states] at this
  cases this

include h in
theorem quiet_of_not_asking {call : Call} {ph : Phase} (hw : s.worker.phase = some (call, ph))
    (hph : ph.asks = false) : s.Quiet := by
  refine h.quiet fun call' w hw' ↦ ?_
  rw [hw, Option.some.injEq, Prod.mk.injEq] at hw'
  obtain ⟨rfl, rfl⟩ := hw'
  cases hph

include h in
theorem quiet_of_ready (hw : s.worker.phase = none) : s.Quiet := by
  refine h.quiet fun call' w hw' ↦ ?_
  rw [hw] at hw'
  cases hw'

end Lockstep

theorem SabState.ne_of_not_mainTurn {st : SabState} (h : st.mainTurn = false) :
    st ≠ .reqReady ∧ st ≠ .chunkAck := by
  constructor <;> rintro rfl <;> cases h

/-- While all is quiet, nobody is going to answer. -/
theorem Sys.Quiet.calm {s : Sys} (h : s.Quiet) (c : Nat) : s.Calm c := fun t ht ↦
  ⟨h.serving t ht, fun hst ↦ absurd hst (SabState.ne_of_not_mainTurn (h.states c)).2⟩

/-- While all is quiet, no turn is due. -/
theorem Sys.Quiet.lockstep {s : Sys} (h : s.Quiet) (hp : Patient s) : Lockstep s where
  patient := hp
  asks c hc := by
    rw [h.states] at hc
    cases hc
  turn t ht hst := absurd hst (h.serving t ht)

theorem Sys.Quiet.of_eq {s s' : Sys} (h : s.Quiet) (hst : ∀ c, s'.state c = s.state c)
    (hl : s'.live = s.live) : s'.Quiet :=
  ⟨fun c ↦ by rw [hst]; exact h.states c, fun t ht ↦ h.serving t (hl ▸ ht)⟩

theorem Patient.init : Patient {} := ⟨fun call ph hw ↦ (by cases hw), fun call hm ↦ (by cases hm)⟩

theorem Lockstep.init : Lockstep {} :=
  Sys.Quiet.lockstep ⟨fun _ ↦ rfl, fun t ht ↦ (by cases ht)⟩ .init

/-! ## The requests of the calls -/

theorem Patient.ready {s : Sys} (hw : s.worker.phase = none)
    (hs : ∀ call ∈ s.suspended, call.request.timeout = none) : Patient s where
  running call ph hw' := by
    rw [hw] at hw'
    cases hw'
  held := hs

theorem CallMove.patient {s s' : Sys} {call : Call} {pc : Pc} (hm : CallMove s call pc s')
    (hw : s.worker = .run call pc) (h : Patient s) : Patient s' := by
  have hcall := h.running call pc.phase (by rw [hw]; rfl)
  have goes : ∀ {t : Sys} {call' : Call} {pc' : Pc}, t.worker = .run call' pc' →
      call'.request = call.request → t.suspended = s.suspended → Patient t := by
    intro t call' pc' hwt hreq hst
    refine ⟨fun call0 ph hw0 ↦ ?_, by rw [hst]; exact h.held⟩
    rw [hwt] at hw0
    cases hw0
    rw [hreq]
    exact hcall
  cases hm with
  | answered _ => exact goes rfl (afterWait_call ..).2.2 rfl
  | loadStatus hcall' =>
      subst hcall'
      exact goes rfl rfl rfl
  | more ht => exact goes rfl (takeWindow_call (.inl ht)).2.2 rfl
  | complete _ ht => exact goes rfl (takeWindow_call (.inr ht)).2.2 rfl
  | yield _ ht =>
      refine .ready rfl fun call0 hm0 ↦ ?_
      rcases List.mem_append.mp hm0 with hm0 | hm0
      · exact h.held call0 hm0
      · cases List.mem_singleton.mp hm0
        rw [(takeWindow_call (.inr ht)).2.2]
        exact hcall
  | unfit _ | keeps _ | resetStore => exact .ready rfl h.held
  | _ => exact goes rfl rfl rfl

theorem WorkerMove.patient {s s' : Sys} {a : Action} (hm : WorkerMove s a s') (ha : Sys.Untimed a)
    (h : Patient s) : Patient s' := by
  cases hm with
  | construct _ _ | attached _ _ => exact .ready rfl h.held
  | start _ _ _ _ =>
      refine ⟨fun call ph hw ↦ ?_, h.held⟩
      cases hw
      exact ha
  | resume _ _ hi =>
      refine ⟨fun call ph hw ↦ ?_, fun call hm ↦ h.held call (List.mem_of_mem_eraseIdx hm)⟩
      cases hw
      exact h.held _ (List.mem_of_getElem? hi)
  | call _ hw hm => exact hm.patient hw h
  | expireFirst hw ht _ | expire hw ht _ =>
      rw [h.running _ _ (by rw [hw]; rfl)] at ht
      cases ht
  | close _ _ _ => exact ⟨h.running, fun call hm ↦ h.held call (List.mem_of_mem_eraseIdx hm)⟩
  | closingCurrent _ _ | closingStale _ _ | closingStore _ => exact ⟨h.running, h.held⟩

/-! ## The worker's steps -/

/-- A step of a call that stores no STATE and asks for nothing. -/
theorem Lockstep.still {s s' : Sys} (h : Lockstep s) (hp : Patient s')
    (hph : s'.worker.phase = s.worker.phase) (hst : ∀ c, s'.state c = s.state c)
    (hl : s'.live = s.live) (hb : s'.backends = s.backends) : Lockstep s' := by
  refine ⟨hp, fun c hc ↦ ?_, fun t ht hs ↦ ?_⟩
  · rw [hst] at hc
    rw [hph, hst]
    exact h.asks c hc
  · have hnew : s'.newest = s.newest := by rw [Sys.newest, Sys.newest, hb]
    rw [hst, hnew]
    exact h.turn t (hl ▸ ht) hs

theorem state_marshalled (s : Sys) (call : Call) (r : Region) (c : Nat) :
    (s.marshalled call r).state c = s.state c := by
  rw [Sys.state, Sys.backend_marshalled]
  exact Sys.state_setCtrl s call.chan c (fun ctrl ↦ { ctrl with gen := toInt32 call.gen })
    fun _ ↦ rfl

/-- The running call stores STATE, and asks for what it stored, or is over. -/
theorem Lockstep.store {s s' : Sys} {call : Call} {st : SabState} (hq : s.Quiet) (hs : Shape s)
    (hp : Patient s') (hst : ∀ c, s'.state c = (s.storeByWorker call.chan st).state c)
    (hl : s'.live = (s.storeByWorker call.chan st).live)
    (hw : st.mainTurn = true →
      ∃ call0 w, s'.worker.phase = some (call0, .asking w) ∧ call0.chan = call.chan ∧
        st = w.expect) : Lockstep s' := by
  have hstate : ∀ c, s'.state c = if c = call.chan then st else s.state c := fun c ↦
    (hst c).trans (Sys.state_storeByWorker s call.chan c st)
  refine ⟨hp, fun c hc ↦ ?_, fun t ht hserv ↦ ?_⟩
  · rw [hstate] at hc ⊢
    split at hc
    · rename_i heq
      obtain ⟨call0, w, hph, hchan, hexp⟩ := hw hc
      exact ⟨call0, w, hph, hchan.trans heq.symm, by rw [if_pos heq]; exact hexp⟩
    · rw [hq.states] at hc
      cases hc
  · rw [hl, hs.live_storeByWorker] at ht
    obtain ⟨t0, ht0, rfl⟩ := List.mem_map.mp ht
    rw [Task.stage_wake] at hserv
    exact absurd hserv (hq.serving t0 ht0)

theorem CallMove.lockstep {s s' : Sys} {call : Call} {pc : Pc} (hm : CallMove s call pc s')
    (hw : s.worker = .run call pc) (hs : Shape s) (h : Lockstep s) : Lockstep s' := by
  have hp := hm.patient hw h.patient
  have hph : s.worker.phase = some (call, pc.phase) := by rw [hw]; rfl
  -- between two waits all is quiet
  have quiet : pc.phase.asks = false → s.Quiet := h.quiet_of_not_asking hph
  have stays : pc.phase.asks = false → (∀ c, s'.state c = s.state c) →
      s'.live = s.live → Lockstep s' := fun hne hst hl ↦ ((quiet hne).of_eq hst hl).lockstep hp
  cases hm with
  | @grow capacity _ => exact stays rfl (state_attachData s call.chan capacity) rfl
  | @marshal r _ => exact stays rfl (state_marshalled s call r) rfl
  | @storeLength off =>
      refine stays rfl (fun c ↦ ?_) rfl
      exact Sys.state_setCtrl s call.chan c (fun ctrl ↦ { ctrl with length := toInt32 off })
        fun _ ↦ rfl
  | storeSeq =>
      refine stays rfl (fun c ↦ ?_) rfl
      exact Sys.state_setCtrl s call.chan c (fun ctrl ↦ { ctrl with seq := 0 }) fun _ ↦ rfl
  | announce | unfit _ | loadStatus _ | malformed _ | more _ | complete _ _ | yield _ _
  | current _ | stale _ | resets _ | keeps _ => exact stays rfl (fun _ ↦ rfl) rfl
  | storeReady =>
      exact .store (quiet rfl) hs hp (fun _ ↦ rfl) rfl fun _ ↦ ⟨call, .first, rfl, rfl, rfl⟩
  | ackWindow =>
      exact .store (quiet rfl) hs hp (fun _ ↦ rfl) rfl fun _ ↦ ⟨call, .window, rfl, rfl, rfl⟩
  | ackChunk =>
      exact .store (quiet rfl) hs hp (fun _ ↦ rfl) rfl fun _ ↦ ⟨call, .chunk, rfl, rfl, rfl⟩
  | resetStore => exact .store (quiet rfl) hs hp (fun _ ↦ rfl) rfl nofun
  | nudge | due _ | park _ | notEqual _ => exact h.still hp hph.symm (fun _ ↦ rfl) rfl rfl
  | answered hne =>
      refine Sys.Quiet.lockstep (.of_eq (h.quiet fun call0 w0 hw0 ↦ ?_) (fun _ ↦ rfl) rfl) hp
      rw [hph, Option.some.injEq, Prod.mk.injEq] at hw0
      obtain ⟨rfl, heq⟩ := hw0
      cases heq
      exact hne

theorem WorkerMove.lockstep {s s' : Sys} {a : Action} (hm : WorkerMove s a s')
    (ha : Sys.Untimed a) (hs : Shape s) (hl : Ledger s) (h : Lockstep s) : Lockstep s' := by
  have hp := hm.patient ha h.patient
  cases hm with
  | @construct capacity hc hw =>
      refine Sys.Quiet.lockstep (.of_eq (h.quiet_of_ready (by rw [hw]; rfl)) ?_ rfl) hp
      exact state_attachData { s with backends := s.backends + 1 } s.backends capacity
  | attached hc hw =>
      exact Sys.Quiet.lockstep (.of_eq (h.quiet_of_ready (by rw [hw]; rfl)) (fun _ ↦ rfl) rfl) hp
  | @start c req pc hc hw hlt hpc =>
      exact Sys.Quiet.lockstep (.of_eq (h.quiet_of_ready (by rw [hw]; rfl))
        (fun c' ↦ Sys.state_setGen s c c' _) rfl) hp
  | resume hc hw hi =>
      exact Sys.Quiet.lockstep (.of_eq (h.quiet_of_ready (by rw [hw]; rfl)) (fun _ ↦ rfl) rfl) hp
  | call hc hw hm => exact hm.lockstep hw hs h
  | expireFirst hw ht _ | expire hw ht _ =>
      exact (h.patient.not_timed hw ht).elim
  | close _ _ _ | closingCurrent _ _ | closingStale _ _ =>
      exact h.still hp rfl (fun _ ↦ rfl) rfl rfl
  | @closingStore call hc =>
      have hcur : s.Current call := (hl.closing _ hc).2.2 rfl
      -- who waits for an answer is on another channel
      have other : ∀ call0 w, s.worker.phase = some (call0, .asking w) → call0.chan ≠ call.chan := by
        intro call0 w hw heq
        have hcur0 : s.Current call0 := hl.current_of_engaged hw rfl
        exact hcur0.not_of_key_ne heq.symm (hl.closing_ne_running hw hc) hcur
      have hstate : ∀ c, Sys.state { s.storeByWorker call.chan .idle with closing := none } c =
          if c = call.chan then .idle else s.state c :=
        fun c ↦ Sys.state_storeByWorker s call.chan c .idle
      refine ⟨hp, fun c hcs ↦ ?_, fun t ht hst ↦ ?_⟩
      · rw [hstate] at hcs ⊢
        split at hcs
        · cases hcs
        · rename_i hne
          rw [if_neg hne]
          exact h.asks c hcs
      · change t ∈ (s.storeByWorker call.chan .idle).live at ht
        rw [hs.live_storeByWorker] at ht
        obtain ⟨t0, ht0, rfl⟩ := List.mem_map.mp ht
        rw [Task.stage_wake] at hst
        have hturn := h.turn t0 ht0 hst
        obtain ⟨call0, w, hph, hchan, -⟩ := h.asks _ hturn
        rw [hstate, if_neg (hchan ▸ other call0 w hph)]
        exact hturn

/-! ## The main thread's steps -/

theorem MainMove.suspended {engine : Engine} {s s' : Sys} (hm : MainMove engine s s') :
    s'.suspended = s.suspended := by
  cases hm <;> rfl

/-- A step of the main thread that stores no STATE. -/
theorem Lockstep.main {s s' : Sys} (h : Lockstep s) (hph : s'.worker.phase = s.worker.phase)
    (hsus : s'.suspended = s.suspended) (hb : s'.backends = s.backends)
    (hst : ∀ c, s'.state c = s.state c)
    (hturn : ∀ t ∈ s'.live, t.stage = .serving →
      (∃ t0 ∈ s.live, t0.stage = .serving) ∨ (s.state s.newest).mainTurn = true) :
    Lockstep s' := by
  refine ⟨⟨by rw [hph]; exact h.patient.running, by rw [hsus]; exact h.patient.held⟩,
    fun c hc ↦ ?_, fun t ht hserv ↦ ?_⟩
  · rw [hst] at hc
    rw [hph, hst]
    exact h.asks c hc
  · have hnew : s'.newest = s.newest := by rw [Sys.newest, Sys.newest, hb]
    rw [hst, hnew]
    rcases hturn t ht hserv with ⟨t0, ht0, hserv0⟩ | hmain
    · exact h.turn t0 ht0 hserv0
    · exact hmain

/-- A channel that waits for the main thread is the newest one. -/
theorem Exchange.eq_of_mainTurn {s : Sys} {c c' : Nat} (h : Exchange s c)
    (hc : (s.state c').mainTurn = true) : c' = c := by
  by_contra hne
  rw [h.old c' hne] at hc
  cases hc

theorem MainMove.lockstep {engine : Engine} {s s' : Sys} (hm : MainMove engine s s')
    (hs : Shape s) (he : Exchange s s.newest) (h : Lockstep s) : Lockstep s' := by
  have hph := hm.phase
  have hsus := hm.suspended
  have hb := hm.sameGens.backends
  have same : (∀ c, s'.state c = s.state c) → s'.live = s.live → Lockstep s' := fun hst hl ↦
    h.main hph hsus hb hst fun t ht hserv ↦ .inl ⟨t, hl ▸ ht, hserv⟩
  -- an invocation that stores a part of its answer was serving before
  have part : ∀ {t : Task}, s.current = .run t → t.stage = .serving →
      (∀ c, s'.state c = s.state c) → Lockstep s' := fun hr hserv hst ↦
    h.main hph hsus hb hst fun _ _ _ ↦ .inl ⟨_, hs.mem_live_of_run hr, hserv⟩
  cases hm with
  | attach hi _ => exact same (fun _ ↦ rfl) rfl
  | nudge hi _ => exact same (fun _ ↦ rfl) (by rw [Sys.live, Sys.live, hi]; rfl)
  | decline hg _ => exact same (fun _ ↦ rfl) (by rw [Sys.live, Sys.live, hg]; rfl)
  | @pick c _ _ _ hg hl _ hc hst hp hpl =>
      refine h.main hph hsus hb (fun _ ↦ rfl) fun t _ _ ↦ .inr ?_
      have hmain : (s.state c).mainTurn = true := by rw [hst]; rfl
      rwa [← he.eq_of_mainTurn hmain]
  | @task c t t' events _ _ hl hg hc hm hpl =>
      refine h.main hph hsus hb (fun _ ↦ rfl) fun t0 ht0 hserv ↦ ?_
      have hlive : _ = [t'] := hpl.live
      change t0 ∈ _ ++ _ at ht0
      rw [hlive, List.mem_singleton] at ht0
      subst ht0
      rcases hst : t.stage with _ | next | _
      · exact .inl ⟨t, Sys.mem_live hl, hst⟩
      · have hmain : (s.state c).mainTurn = true := by rw [hm.acked hst hserv]; rfl
        exact .inr (he.eq_of_mainTurn hmain ▸ hmain)
      · exact absurd hst hm.stage_ne_leaving
  | store hr _ _ hst _ => exact part hr hst.stage (Sys.state_stored s _ _ _ _)
  | overflow hr _ _ hst _ => exact part hr hst.stage fun _ ↦ rfl
  | @storeLength c off t st next hr _ _ hpc =>
      refine part hr (by rw [Task.stage, hpc]; rfl) fun c' ↦ ?_
      exact Sys.state_setCtrl s c c' (fun ctrl ↦ { ctrl with length := toInt32 off }) fun _ ↦ rfl
  | @storeState c t st next pc hr ht hc hpc hpc' =>
      have hserv := he.serving t (hs.mem_live_of_run hr) (by rw [Task.stage, hpc]; rfl)
      have hans := (hserv.answer hpc).1
      cases hc.symm.trans hserv.bound.attached
      -- what is shown now is an answer, and no other channel waits for the main thread
      have hq : ∀ c', (Sys.state ((s.storeByMain t s.newest st).runs (t.goto pc)) c').mainTurn =
          false := by
        intro c'
        have hstate := Sys.state_storeByMain s s.newest c' t st
        change ((s.storeByMain t s.newest st).state c').mainTurn = false
        rw [hstate]
        split
        · cases st <;> first
            | rfl
            | cases hans
        · rename_i hne
          exact he.old c' hne
      refine Sys.Quiet.lockstep ⟨hq, fun t0 ht0 ↦ ?_⟩ ⟨?_, h.patient.held⟩
      · change t0 ∈ [t.goto pc] ++ s.tasks at ht0
        rw [ht, List.append_nil, List.mem_singleton] at ht0
        subst ht0
        rcases hpc' with ⟨-, rfl⟩ | ⟨-, rfl⟩ <;> rintro ⟨⟩
      · rw [hph]
        exact h.patient.running
  | @leave c t hr ht hc hpc =>
      refine h.main hph hsus hb (fun _ ↦ rfl) fun t0 ht0 _ ↦ ?_
      rw [Sys.live_leave s c ht] at ht0
      cases ht0

theorem Move.lockstep {engine : Engine} {s s' : Sys} {a : Action} (hm : Move engine s a s')
    (ha : Sys.Untimed a) (hs : Sound s) (h : Lockstep s) : Lockstep s' := by
  cases hm with
  | worker hm => exact hm.lockstep ha hs.shape hs.ledger h
  | main _ _ hm => exact hm.lockstep hs.shape hs.exchange h

/-- Without timeouts, only the conditions at the guard are left of the discipline. -/
theorem Lockstep.orderly {engine : Engine} {s s' : Sys} {a : Action} (h : Lockstep s)
    (hm : Move engine s a s') (hf : s.Fresh a) : s.Orderly a := by
  cases hm with
  | worker hm =>
      cases hm with
      | construct _ hw =>
          have hq := h.quiet_of_ready (by rw [hw]; rfl)
          exact ⟨hq.serving, fun c _ ↦ hq.states c⟩
      | start _ hw _ _ => exact (h.quiet_of_ready (by rw [hw]; rfl)).calm _
      | _ => trivial
  | main hb ha hm =>
      cases a with
      | main =>
          intro hg c hbusy hc hst
          obtain ⟨hfresh, hsized⟩ := hf hg c hbusy hc hst
          refine ⟨?_, hfresh, hsized⟩
          -- the worker waits for the answer to the request that is up
          obtain ⟨call, w, hph, -, -⟩ := h.asks c (by rw [hst]; rfl)
          rw [Sys.requesting_iff hph]
          rintro ⟨-, hreq⟩
          cases hreq
      | deliver | fetchDone _ _ | timer _ | bufferDone _ _ | readDone _ _ | wake _ => trivial
      | _ => cases hb

/-! ## Runs -/

/-- The state of the two threads in a run without timeouts. -/
structure Paced (s : Sys) : Prop where
  sound : Sound s
  lockstep : Lockstep s

theorem Paced.init : Paced {} := ⟨.init, .init⟩

/-- What is asked of a run without timeouts, beside the channels that are used. -/
structure Sys.Steady (s : Sys) (a : Action) : Prop where
  roomy : Sys.Roomy a
  unwrapped : s.Unwrapped a
  fresh : s.Fresh a

theorem Paced.move {engine : Engine} {s s' : Sys} {a : Action} (h : Paced s)
    (hm : Move engine s a s') (hu : Sys.Untimed a) (hn : s.OnNewest a) (hs : s.Steady a) :
    Paced s' where
  sound := h.sound.move hm hs.unwrapped hn hs.roomy (h.lockstep.orderly hm hs.fresh)
  lockstep := hm.lockstep hu h.sound h.lockstep

/-- One backend, and no timeouts. -/
structure Sys.Single (s : Sys) (a : Action) : Prop where
  one : s.OneBackend a
  untimed : Sys.Untimed a

theorem paced_of_steady {engine : Engine} {s : Sys}
    (h : (system engine).Reachable (fun s a ↦ s.Single a ∧ s.Steady a) s) :
    Paced s ∧ s.backends ≤ 1 := by
  refine @System.Reachable.invariant _ _ (system engine) _ (fun s ↦ Paced s ∧ s.backends ≤ 1)
    ?_ ?_ s h
  · rintro s rfl
    exact ⟨.init, Nat.zero_le _⟩
  · rintro s a s' ⟨h, hb⟩ ⟨hone, hs⟩ hstep
    have hm := Move.of_step h.sound.shape hstep
    exact ⟨h.move hm hone.untimed (hm.onNewest hb h.sound.ledger) hs,
      hm.backends_le_one hone.one hb⟩

/-- An invariant on top of these. -/
theorem invariant_of_steady {engine : Engine} {Inv : Sys → Prop} {s : Sys} (hinit : Inv {})
    (hmove : ∀ s a s', Paced s → s.backends ≤ 1 → s.Steady a → Move engine s a s' → Inv s → Inv s')
    (h : (system engine).Reachable (fun s a ↦ s.Single a ∧ s.Steady a) s) : Inv s := by
  refine System.Reachable.invariant_of (fun _ ↦ paced_of_steady) ?_ ?_ h
  · rintro s rfl
    exact hinit
  · rintro s a s' ⟨hp, hb⟩ - hinv ⟨-, hs⟩ hstep
    exact hmove s a s' hp hb hs (Move.of_step hp.sound.shape hstep) hinv

/-! ## Guards that can be computed -/

instance (a : Action) : Decidable (Sys.Roomy a) :=
  match a with
  | .construct capacity => inferInstanceAs (Decidable (metaZone + 4 < capacity))
  | .start _ _ | .resume _ | .close _ | .worker | .closing | .expire | .deliver | .main
    | .fetchDone _ _ | .timer _ | .bufferDone _ _ | .readDone _ _ | .wake _ => isTrue trivial

instance (a : Action) : Decidable (Sys.Untimed a) :=
  match a with
  | .start _ req => inferInstanceAs (Decidable (req.timeout = none))
  | .construct _ | .resume _ | .close _ | .worker | .closing | .expire | .deliver | .main
    | .fetchDone _ _ | .timer _ | .bufferDone _ _ | .readDone _ _ | .wake _ => isTrue trivial

instance (s : Sys) (a : Action) : Decidable (s.Fresh a) :=
  match a with
  | .main =>
      have : Decidable (∀ c, s.bridge.busy = false → s.bridge.ctrl = some c →
          s.state c = .reqReady →
            s.bridge.data = (s.backend c).data ∧ ∀ q, s.posted c = some q → q.Sized) :=
        decidable_of_iff (∀ c ∈ s.bridge.ctrl, s.bridge.busy = false → s.state c = .reqReady →
            s.bridge.data = (s.backend c).data ∧ ∀ q ∈ s.posted c, q.Sized)
          ⟨fun h c hb hc ↦ h c hc hb, fun h c hc hb ↦ h c hb hc⟩
      inferInstanceAs (Decidable (s.current = .guard → _))
  | .construct _ | .start _ _ | .resume _ | .close _ | .worker | .closing | .expire | .deliver
    | .fetchDone _ _ | .timer _ | .bufferDone _ _ | .readDone _ _ | .wake _ => isTrue trivial

instance (s : Sys) (a : Action) : Decidable (s.Steady a) :=
  decidable_of_iff (Sys.Roomy a ∧ s.Unwrapped a ∧ s.Fresh a)
    ⟨fun ⟨h1, h2, h3⟩ ↦ ⟨h1, h2, h3⟩, fun h ↦ ⟨h.roomy, h.unwrapped, h.fresh⟩⟩

instance (s : Sys) (a : Action) : Decidable (s.Single a) :=
  decidable_of_iff (s.OneBackend a ∧ Sys.Untimed a)
    ⟨fun ⟨h1, h2⟩ ↦ ⟨h1, h2⟩, fun h ↦ ⟨h.one, h.untimed⟩⟩

end ConnectWeb.Sab
