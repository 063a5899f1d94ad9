import ConnectWeb.Sab.Lockstep

/-!
# What is picked up

The requests that pass the guard of `handleRpc`, over whole runs of one backend without
timeouts: each invocation reads the request that is up, each request is picked up once, in the
order in which they were posted, and a call that completes was picked up.  All of this rests on
the buffer that the bridge has attached when a request passes the guard: the re-dispatch in
`finally` does not wait for an announcement that is on its way.
-/

namespace ConnectWeb.Sab

/-! ## Frames -/

theorem WorkerMove.picks {s s' : Sys} {a : Action} (hm : WorkerMove s a s') :
    s'.picks = s.picks := by
  cases hm with
  | call _ _ hm => cases hm <;> rfl
  | _ => rfl

theorem eq_some_of_update_none {α β : Type} [DecidableEq α] {f : α → Option β} {a x : α} {b : β}
    (h : Function.update f a none x = some b) : f x = some b := by
  rw [Function.update_apply] at h
  split at h
  · cases h
  · exact h

/-- What an invocation wrote was there before a step of the worker's. -/
theorem WorkerMove.writer {s s' : Sys} {a : Action} (hm : WorkerMove s a s') {cell : Cell}
    {t : Task} (h : s'.writer cell = some t) : s.writer cell = some t := by
  cases hm with
  | call _ _ hm =>
      cases hm with
      | marshal _ | storeLength | storeReady | ackWindow | ackChunk | resetStore =>
          exact eq_some_of_update_none h
      | _ => exact h
  | closingStore _ => exact eq_some_of_update_none h
  | _ => exact h

/-- An invocation wrote it before, or writes it now. -/
theorem MainMove.writer {engine : Engine} {s s' : Sys} (hm : MainMove engine s s') (hs : Shape s)
    {cell : Cell} {t : Task} (h : s'.writer cell = some t) :
    s.writer cell = some t ∨ t ∈ s.live := by
  have update : ∀ {f : Cell → Option Task} {x : Cell} {t0 : Task}, s.current = .run t0 →
      Function.update f x (some t0) cell = some t → f cell = some t ∨ t ∈ s.live := by
    intro f x t0 hr hu
    rw [Function.update_apply] at hu
    split at hu
    · cases hu
      exact .inr (hs.mem_live_of_run hr)
    · exact .inl hu
  cases hm with
  | store hr _ _ _ _ =>
      rcases update hr h with h | h
      · exact update hr h
      · exact .inr h
  | overflow hr _ _ _ _ => exact update hr h
  | storeLength hr _ _ _ => exact update hr h
  | storeState hr _ _ _ _ => exact update hr h
  | _ => exact .inl h

theorem MainMove.picks {engine : Engine} {s s' : Sys} (hm : MainMove engine s s') :
    s'.picks = s.picks ∨ ∃ c, s'.picks = s.picks ++ [s.pickAt c] := by
  cases hm with
  | @pick c => exact .inr ⟨c, rfl⟩
  | _ => exact .inl rfl

theorem MainMove.picks_subset {engine : Engine} {s s' : Sys} (hm : MainMove engine s s') :
    s.picks ⊆ s'.picks := by
  rcases hm.picks with h | ⟨c, h⟩ <;> rw [h]
  · exact List.Subset.refl _
  · exact List.subset_append_left ..

/-! ## The order of the requests -/

/-- `p` took an earlier request than `p'`. -/
def Pick.Before (p p' : Pick) : Prop :=
  ∃ q q', p.pending = some q ∧ p'.pending = some q' ∧ q.gen < q'.gen

/-- A request is up, or is about to be, that no invocation has taken. -/
def Sys.Unpicked (s : Sys) : Prop :=
  (∃ call, s.worker.phase = some (call, .posting)) ∨
    s.state 0 = .reqReady ∧ ∀ t ∈ s.live, t.stage ≠ .serving

/-- The invocations so far, with one backend. -/
structure Dispatched (s : Sys) : Prop where
  reads : ∀ p ∈ s.picks, ∃ q, p.pending = some q ∧ p.Reads q
  order : s.picks.Pairwise Pick.Before
  below : ∀ p ∈ s.picks, ∀ q, p.pending = some q → ∃ q', s.posted 0 = some q' ∧ q.gen ≤ q'.gen
  ahead : s.Unpicked → ∀ p ∈ s.picks, ∀ q q', p.pending = some q → s.posted 0 = some q' →
    q.gen < q'.gen

theorem Dispatched.init : Dispatched {} where
  reads p hp := by cases hp
  order := .nil
  below p hp := by cases hp
  ahead _ p hp := by cases hp

/-- A step that takes no request and posts none. -/
theorem Dispatched.same {s s' : Sys} (h : Dispatched s) (hp : s'.picks = s.picks)
    (hposted : s'.posted = s.posted) (hu : s'.Unpicked → s.Unpicked) : Dispatched s' := by
  refine ⟨?_, ?_, ?_, fun hu' ↦ ?_⟩
  · rw [hp]
    exact h.reads
  · rw [hp]
    exact h.order
  · rw [hp, hposted]
    exact h.below
  · rw [hp, hposted]
    exact h.ahead (hu hu')

section
variable {s s' : Sys}

/-- A step that leaves STATE and the invocations, behind which nothing is being posted. -/
theorem Sys.Unpicked.of_same (hph : ∀ call, s'.worker.phase ≠ some (call, .posting))
    (hst : s'.state 0 = s.state 0) (hl : s'.live = s.live) (h : s'.Unpicked) : s.Unpicked := by
  rcases h with ⟨call, hw⟩ | ⟨hr, hserv⟩
  · exact absurd hw (hph call)
  · exact .inr ⟨hst ▸ hr, hl ▸ hserv⟩

/-- The worker stores another STATE than REQ_READY. -/
theorem Sys.Unpicked.of_store (c : Nat) (st : SabState) (hs : Shape s) (hne : st ≠ .reqReady)
    (hph : ∀ call, s'.worker.phase = some (call, .posting) →
      s.worker.phase = some (call, .posting))
    (hst : s'.state 0 = (s.storeByWorker c st).state 0)
    (hl : s'.live = (s.storeByWorker c st).live) (h : s'.Unpicked) : s.Unpicked := by
  rcases h with ⟨call, hw⟩ | ⟨hr, hserv⟩
  · exact .inl ⟨call, hph call hw⟩
  · rw [hst, Sys.state_storeByWorker] at hr
    split at hr
    · exact absurd hr hne
    · refine .inr ⟨hr, fun t ht ↦ ?_⟩
      have := hserv (t.wake c) (by rw [hl, hs.live_storeByWorker]; exact List.mem_map_of_mem ht)
      rwa [Task.stage_wake] at this

/-- A request is posted. -/
theorem Dispatched.marshalled {call : Call} (h : Dispatched s) (hl : Ledger s)
    (hw : s.worker = .run call .marshal) (hc : call.chan = 0) (r : Region) :
    Dispatched (s.marshalled call r) := by
  have hold : ∀ q, s.posted 0 = some q → q.gen < call.gen := by
    have := (hl.running call .preparing (by rw [hw]; rfl)).2
    rwa [hc] at this
  have hposted : (s.marshalled call r).posted 0 = some ⟨call.gen, call.request⟩ := by
    change Function.update s.posted call.chan _ 0 = _
    rw [hc, Function.update_self]
  refine ⟨h.reads, h.order, fun p hp q hq ↦ ?_, fun _ p hp q q' hq hq' ↦ ?_⟩
  · obtain ⟨q', hq', hle⟩ := h.below p hp q hq
    exact ⟨_, hposted, hle.trans (hold q' hq').le⟩
  · rw [hposted] at hq'
    cases hq'
    obtain ⟨q0, hq0, hle⟩ := h.below p hp q hq
    exact hle.trans_lt (hold q0 hq0)

theorem CallMove.dispatched {call : Call} {pc : Pc} (hm : CallMove s call pc s')
    (hw : s.worker = .run call pc) (hs : Shape s) (hl : Ledger s) (hc : call.chan = 0)
    (h : Dispatched s) : Dispatched s' := by
  cases hm with
  | @grow capacity _ =>
      refine h.same rfl rfl (.of_same ?_ (state_attachData s call.chan capacity 0) rfl)
      rintro call0 hw0
      cases hw0
  | marshal _ => exact h.marshalled hl hw hc _
  -- a request that is being posted was not taken before
  | storeLength | storeSeq | storeReady => exact h.same rfl rfl fun _ ↦ .inl ⟨call, by rw [hw]; rfl⟩
  | ackWindow | ackChunk =>
      refine h.same rfl rfl (.of_store call.chan .chunkAck hs nofun ?_ rfl rfl)
      rintro call0 hw0
      cases hw0
  | resetStore =>
      refine h.same rfl rfl (.of_store call.chan .idle hs nofun ?_ rfl rfl)
      rintro call0 hw0
      cases hw0
  | @answered w _ =>
      refine h.same rfl rfl (.of_same ?_ rfl rfl)
      rintro call0 hw0
      rcases afterWait_phase call w (s.state call.chan) (s.region call.chan) with hph | ⟨o, hph⟩ <;>
        rw [Sys.goto, Worker.phase_run, hph] at hw0 <;> cases hw0
  | @loadStatus chunk _ _ =>
      refine h.same rfl rfl (.of_same ?_ rfl rfl)
      rintro call0 hw0
      cases chunk <;> cases hw0
  | _ =>
      refine h.same rfl rfl (.of_same ?_ rfl rfl)
      rintro call0 hw0
      cases hw0

theorem WorkerMove.dispatched {a : Action} (hm : WorkerMove s a s') (hs : Shape s) (hl : Ledger s)
    (hb : s.backends ≤ 1) (h : Dispatched s) : Dispatched s' := by
  -- between two calls
  have ready : s'.picks = s.picks → s'.posted = s.posted →
      (∀ call, s'.worker.phase ≠ some (call, .posting)) → s'.state 0 = s.state 0 →
      s'.live = s.live → Dispatched s' := fun hp hposted hph hst hlive ↦
    h.same hp hposted (.of_same hph hst hlive)
  cases hm with
  | @construct capacity _ _ =>
      refine ready rfl rfl (by simp) ?_ rfl
      exact state_attachData { s with backends := s.backends + 1 } s.backends capacity 0
  | attached _ _ => exact ready rfl rfl (by simp) rfl rfl
  | @start c req pc _ _ _ hpc =>
      refine ready rfl rfl ?_ (Sys.state_setGen s c 0 _) rfl
      rintro call hw
      rw [hpc] at hw
      simp only [Sys.goto, Worker.phase_run, Option.some.injEq, Prod.mk.injEq] at hw
      split at hw <;> cases hw.2
  | resume _ _ _ =>
      refine ready rfl rfl ?_ rfl rfl
      rintro call hw
      cases hw
  | @call call pc s' hc hw hm =>
      have hph : s.worker.phase = some (call, pc.phase) := by rw [hw]; rfl
      have := hl.chan_lt (Sys.mem_calls_of_phase hph)
      exact hm.dispatched hw hs hl (by omega) h
  | expireFirst _ _ _ => exact ready rfl rfl (fun _ h ↦ (by cases h)) rfl rfl
  | expire _ _ _ =>
      refine ready rfl rfl ?_ rfl rfl
      rintro call hw
      cases hw
  | close _ _ _ | closingCurrent _ _ | closingStale _ _ => exact h.same rfl rfl id
  | @closingStore call _ =>
      exact h.same rfl rfl (.of_store call.chan .idle hs (by simp) (fun _ hw ↦ hw) rfl rfl)

end

/-- An invocation passes its guard. -/
theorem Dispatched.pick {s s' : Sys} (h : Dispatched s) {q : Posted} (hlive : s.live = [])
    (hst : s.state 0 = .reqReady) (hq : s.posted 0 = some q) (hr : (s.pickAt 0).Reads q)
    (hp : s'.picks = s.picks ++ [s.pickAt 0]) (hposted : s'.posted = s.posted)
    (hu : ¬ s'.Unpicked) : Dispatched s' := by
  have hahead := h.ahead (.inr ⟨hst, fun t ht ↦ by rw [hlive] at ht; cases ht⟩)
  refine ⟨?_, ?_, ?_, fun hu' ↦ absurd hu' hu⟩
  · intro p hm
    rw [hp] at hm
    rcases List.mem_append.mp hm with hm | hm
    · exact h.reads p hm
    · cases List.mem_singleton.mp hm
      exact ⟨q, hq, hr⟩
  · rw [hp, List.pairwise_append]
    refine ⟨h.order, List.pairwise_singleton .., fun p hm p' hm' ↦ ?_⟩
    cases List.mem_singleton.mp hm'
    obtain ⟨q0, hq0, -⟩ := h.reads p hm
    exact ⟨q0, q, hq0, hq, hahead p hm q0 q hq0 hq⟩
  · intro p hm q0 hq0
    rw [hp] at hm
    rw [hposted]
    rcases List.mem_append.mp hm with hm | hm
    · exact h.below p hm q0 hq0
    · cases List.mem_singleton.mp hm
      exact ⟨q0, hq0, le_rfl⟩

theorem Pick.Starts.stage {engine : Engine} {p : Pick} {pc : At} (h : p.Starts engine pc) :
    pc.stage = .serving := by
  cases h <;> rfl

theorem MainMove.dispatched {engine : Engine} {s s' : Sys} (hm : MainMove engine s s')
    (ho : s.current ≠ .idle → s.Orderly .main) (hp : Paced s) (hb : s.backends ≤ 1)
    (h : Dispatched s) : Dispatched s' := by
  have hs := hp.sound.shape
  have he := hp.sound.exchange
  have hph := hm.phase
  -- while an invocation serves, its request is taken
  have serving : ∀ {t' : Task}, s'.picks = s.picks → s'.posted = s.posted → s'.live = [t'] →
      t'.stage = .serving → Dispatched s' := by
    intro t' hpk hposted hlive hst
    refine h.same hpk hposted ?_
    rintro (⟨call, hw⟩ | ⟨-, hserv⟩)
    · exact .inl ⟨call, hph ▸ hw⟩
    · exact absurd hst (hserv t' (by rw [hlive]; simp))
  have same : s'.picks = s.picks → s'.posted = s.posted → s'.state 0 = s.state 0 →
      ((∀ t ∈ s'.live, t.stage ≠ .serving) → ∀ t ∈ s.live, t.stage ≠ .serving) →
      Dispatched s' := by
    intro hpk hposted hst hserv
    refine h.same hpk hposted ?_
    rintro (⟨call, hw⟩ | ⟨hr, hs'⟩)
    · exact .inl ⟨call, hph ▸ hw⟩
    · exact .inr ⟨hst ▸ hr, hserv hs'⟩
  cases hm with
  | attach hi _ => exact same rfl rfl rfl id
  | nudge hi _ =>
      refine same rfl rfl rfl fun hserv ↦ ?_
      rw [Sys.live, hi]
      exact hserv
  | decline hg _ =>
      refine same rfl rfl rfl fun hserv ↦ ?_
      rw [Sys.live, hg]
      exact hserv
  | @pick c current tasks pc hg hl hbusy hc hst hstarts hpl =>
      have hc0 : c = 0 := by
        have := (hp.sound.announced.ctrl_lt hc).1
        omega
      subst hc0
      have hnew := Sys.newest_eq_zero hb
      obtain ⟨q, hq, hr⟩ := (hnew ▸ he).reads hl hst (ho (by rw [hg]; simp) hg 0 hbusy hc hst)
      refine h.pick hl hst hq hr rfl rfl ?_
      rintro (⟨call, hw⟩ | ⟨-, hserv⟩)
      · obtain ⟨call0, w, hph0, -, -⟩ := hp.lockstep.asks 0 (by rw [hst]; rfl)
        rw [hph, hph0] at hw
        cases hw
      · refine hserv ⟨s.pickAt 0, false, pc⟩ ?_ hstarts.stage
        rw [Sys.live, hpl.live]
        simp
  | @task c t t' events _ _ hl hg hc hm hpl =>
      refine same rfl rfl rfl fun hserv t0 ht0 hst ↦ ?_
      rw [hl, List.mem_singleton] at ht0
      subst ht0
      refine hserv t' ?_ (hm.serving_of_serving hst)
      rw [Sys.live, hpl.live]
      simp
  | @store c off t info payload status st next failed hr ht hc hst hw =>
      exact serving rfl rfl (Sys.live_runs _ _ ht) rfl
  | @overflow c t info payload status st next failed hr ht hc hst hw =>
      have hserv := he.serving t (hs.mem_live_of_run hr) hst.stage
      obtain ⟨hfailed, -⟩ := hserv.overflow hp.sound.announced hst
        (writeWindow (s.sab s.bridge.data) (metaBytes info) payload).1 hw
      exact serving rfl rfl (Sys.live_runs _ _ ht) hfailed
  | @storeLength c off t st next hr ht hc hpc =>
      exact serving rfl rfl (Sys.live_runs _ _ ht) rfl
  | @storeState c t st next pc hr ht hc hpc hpc' =>
      have hserv := he.serving t (hs.mem_live_of_run hr) (by rw [Task.stage, hpc]; rfl)
      have hans := (hserv.answer hpc).1
      have hc0 : c = 0 := by
        have := (hp.sound.announced.ctrl_lt hc).1
        omega
      subst hc0
      refine h.same rfl rfl ?_
      rintro (⟨call, hw⟩ | ⟨hr', -⟩)
      · exact .inl ⟨call, hph ▸ hw⟩
      · have hstate : (s.storeByMain t 0 st).state 0 = st :=
          (Sys.state_storeByMain s 0 0 t st).trans (if_pos rfl)
        change (s.storeByMain t 0 st).state 0 = _ at hr'
        rw [hstate] at hr'
        rw [hr'] at hans
        cases hans
  | @leave c t hr ht hc hpc =>
      refine same rfl rfl rfl fun _ t0 ht0 hst ↦ ?_
      rw [hs.live_of_run hr, List.mem_singleton] at ht0
      subst ht0
      rw [Task.stage, hpc] at hst
      cases hst

/-! ## Calls that were answered -/

/-- The call ends with what was sent to it. -/
def Outcome.completes : Outcome → Bool
  | .response _ | .stop => true
  | .raised _ => false

/-- The call has been sent something. -/
def Phase.answered : Phase → Bool
  | .reading | .acking _ | .resuming => true
  | .ending o | .resetting o => o.completes
  | _ => false

/-- The call that received a part or the end of its response. -/
def Event.completes : Event → Option Call
  | .yielded call _ => some call
  | .returned call o _ => if o.completes then some call else none
  | _ => none

/-- An invocation took the request of the call. -/
def Sys.Picked (s : Sys) (call : Call) : Prop :=
  ∃ p ∈ s.picks, p.pending = some ⟨call.gen, call.request⟩

/-- What the invocations leave behind. -/
structure Traced (s : Sys) : Prop where
  live : ∀ t ∈ s.live, t.pick ∈ s.picks
  written : ∀ cell t, s.writer cell = some t → t.pick ∈ s.picks
  answered : ∀ call ph, s.worker.phase = some (call, ph) → ph.answered = true → s.Picked call
  held : ∀ call ∈ s.suspended, s.Picked call
  completed : ∀ e ∈ s.log, ∀ call, e.completes = some call → s.Picked call

theorem Traced.init : Traced {} where
  live t ht := by cases ht
  written cell t ht := by cases ht
  answered call ph hw := by cases hw
  held call hm := by cases hm
  completed e he := by cases he

theorem Sys.Picked.congr {s : Sys} {call call' : Call} (h : s.Picked call)
    (hg : call'.gen = call.gen) (hr : call'.request = call.request) : s.Picked call' := by
  rw [Picked, hg, hr]
  exact h

theorem Sys.Picked.mono {s s' : Sys} {call : Call} (h : s.Picked call) (hp : s.picks ⊆ s'.picks) :
    s'.Picked call := by
  obtain ⟨p, hm, hq⟩ := h
  exact ⟨p, hp hm, hq⟩

theorem afterWait_answered {call : Call} {w : Wait} {st : SabState} {d : Region}
    (h : (afterWait call w st d).2.phase.answered = true) : st.answer = true := by
  unfold afterWait at h
  split at h <;> first
    | rfl
    | cases h

/-- A step of the worker's. -/
theorem Traced.worker {s s' : Sys} {a : Action} (h : Traced s) (hm : WorkerMove s a s')
    (hlive : ∀ t ∈ s'.live, ∃ t0 ∈ s.live, t0.pick = t.pick)
    (hans : ∀ call ph, s'.worker.phase = some (call, ph) → ph.answered = true → s.Picked call)
    (hheld : ∀ call ∈ s'.suspended, s.Picked call)
    (hlog : ∀ e ∈ s'.log, e ∈ s.log ∨ ∀ call, e.completes = some call → s.Picked call) :
    Traced s' := by
  have hp := hm.picks
  have picked : ∀ {call : Call}, s.Picked call → s'.Picked call := fun hc ↦
    hc.mono (by rw [hp]; exact List.Subset.refl _)
  refine ⟨fun t ht ↦ ?_, fun cell t ht ↦ ?_, fun call ph hw ha ↦ picked (hans call ph hw ha),
    fun call hm' ↦ picked (hheld call hm'), fun e he call hc ↦ ?_⟩
  · obtain ⟨t0, ht0, heq⟩ := hlive t ht
    rw [hp, ← heq]
    exact h.live t0 ht0
  · rw [hp]
    exact h.written cell t (hm.writer ht)
  · rcases hlog e he with he | he
    · exact picked (h.completed e he call hc)
    · exact picked (he call hc)

section
variable {s s' : Sys}

theorem live_pick_of_store (c : Nat) (st : SabState) (hs : Shape s)
    (hl : s'.live = (s.storeByWorker c st).live) :
    ∀ t ∈ s'.live, ∃ t0 ∈ s.live, t0.pick = t.pick := by
  intro t ht
  rw [hl, hs.live_storeByWorker] at ht
  obtain ⟨t0, ht0, rfl⟩ := List.mem_map.mp ht
  exact ⟨t0, ht0, (Task.pick_wake ..).symm⟩

/-- What a call that finds an answer was sent, an invocation that took its request sent. -/
theorem Paced.picked_of_answer (hp : Paced s) (h : Traced s) {call : Call} {w : Wait}
    (hw : s.worker.phase = some (call, .asking w)) (ha : (s.state call.chan).answer = true) :
    s.Picked call := by
  have hchan : call.chan = s.newest := hp.sound.only.chan hw rfl
  rw [hchan] at ha
  obtain ⟨p, off, next, hpend, -, ⟨t, ht, rfl⟩, -⟩ :=
    hp.sound.exchange.answered call _ hw hchan rfl ha
  exact ⟨t.pick, h.written _ _ ht, hpend⟩

theorem CallMove.traced {call : Call} {pc : Pc} (hm : CallMove s call pc s')
    (hw : s.worker = .run call pc) (hc : s.closing = none) (hp : Paced s) (h : Traced s) :
    Traced s' := by
  have hph : s.worker.phase = some (call, pc.phase) := by rw [hw]; rfl
  have hwm : WorkerMove s .worker s' := .call hc hw hm
  have hs := hp.sound.shape
  have mine : pc.phase.answered = true → s.Picked call := h.answered call _ hph
  have same : ∀ t ∈ s.live, ∃ t0 ∈ s.live, t0.pick = t.pick := fun t ht ↦ ⟨t, ht, rfl⟩
  -- the call goes on at `pc'`
  have goes : ∀ {call' : Call} {pc' : Pc}, s'.worker = .run call' pc' →
      call'.gen = call.gen ∧ call'.request = call.request →
      (pc'.phase.answered = true → s.Picked call) →
      ∀ call0 ph, s'.worker.phase = some (call0, ph) → ph.answered = true → s.Picked call0 := by
    intro call' pc' hw' hkey ha call0 ph hw0 hph0
    rw [hw'] at hw0
    cases hw0
    exact (ha hph0).congr hkey.1 hkey.2
  -- the call is over
  have ready : s'.worker.phase = none →
      ∀ call0 ph, s'.worker.phase = some (call0, ph) → ph.answered = true → s.Picked call0 := by
    intro hw' call0 ph hw0
    rw [hw'] at hw0
    cases hw0
  have logged : ∀ {e : Event} {t : Sys}, t.log = s.log ++ [e] →
      (∀ call0, e.completes = some call0 → s.Picked call0) →
      ∀ e' ∈ t.log, e' ∈ s.log ∨ ∀ call0, e'.completes = some call0 → s.Picked call0 := by
    intro e t ht he e' hm'
    rw [ht] at hm'
    rcases List.mem_append.mp hm' with hm' | hm'
    · exact .inl hm'
    · cases List.mem_singleton.mp hm'
      exact .inr he
  -- what is recorded at the end of the call
  have returned : ∀ {o : Outcome} {latest : Nat}, (o.completes = true → s.Picked call) →
      ∀ call0, (Event.returned call o latest).completes = some call0 → s.Picked call0 := by
    intro o latest ho call0 hc0
    simp only [Event.completes, Option.ite_none_right_eq_some, Option.some.injEq] at hc0
    obtain ⟨ho', rfl⟩ := hc0
    exact ho ho'
  cases hm with
  | unfit _ =>
      exact h.worker hwm same (ready rfl) h.held (logged rfl (returned nofun))
  | storeReady =>
      exact h.worker hwm (live_pick_of_store call.chan .reqReady hs rfl)
        (goes rfl ⟨rfl, rfl⟩ nofun) h.held fun _ he ↦ .inl he
  | ackWindow | ackChunk =>
      exact h.worker hwm (live_pick_of_store call.chan .chunkAck hs rfl)
        (goes rfl ⟨rfl, rfl⟩ nofun) h.held fun _ he ↦ .inl he
  | resetStore =>
      exact h.worker hwm (live_pick_of_store call.chan .idle hs rfl)
        (ready rfl) h.held (logged rfl (returned mine))
  | answered _ =>
      refine h.worker hwm same (goes rfl (afterWait_call ..).2 fun ha ↦ ?_) h.held
        fun _ he ↦ .inl he
      exact hp.picked_of_answer h hph (afterWait_answered ha)
  | @loadStatus chunk call' hcall =>
      subst hcall
      exact h.worker hwm same (goes rfl ⟨rfl, rfl⟩ fun _ ↦ mine rfl) h.held fun _ he ↦ .inl he
  | malformed _ => exact h.worker hwm same (goes rfl ⟨rfl, rfl⟩ nofun) h.held fun _ he ↦ .inl he
  | more ht =>
      exact h.worker hwm same (goes rfl (takeWindow_call (.inl ht)).2 fun _ ↦ mine rfl) h.held
        fun _ he ↦ .inl he
  | complete _ ht =>
      exact h.worker hwm same (goes rfl (takeWindow_call (.inr ht)).2 fun _ ↦ mine rfl) h.held
        fun _ he ↦ .inl he
  | @yield call' _ ht =>
      obtain ⟨-, hg, hr⟩ := takeWindow_call (.inr ht)
      have hcall' : s.Picked call' := (mine rfl).congr hg hr
      refine h.worker hwm same (ready rfl) (fun call0 hm0 ↦ ?_) (logged rfl fun call0 hc0 ↦ ?_)
      · rcases List.mem_append.mp hm0 with hm0 | hm0
        · exact h.held call0 hm0
        · cases List.mem_singleton.mp hm0
          exact hcall'
      · cases hc0
        exact hcall'
  | current _ | stale _ =>
      exact h.worker hwm same (goes rfl ⟨rfl, rfl⟩ fun _ ↦ mine rfl) h.held fun _ he ↦ .inl he
  | resets _ => exact h.worker hwm same (goes rfl ⟨rfl, rfl⟩ mine) h.held fun _ he ↦ .inl he
  | keeps _ => exact h.worker hwm same (ready rfl) h.held (logged rfl (returned mine))
  | _ => exact h.worker hwm same (goes rfl ⟨rfl, rfl⟩ nofun) h.held fun _ he ↦ .inl he

theorem WorkerMove.traced {a : Action} (hm : WorkerMove s a s') (hp : Paced s) (h : Traced s) :
    Traced s' := by
  have same : ∀ t ∈ s.live, ∃ t0 ∈ s.live, t0.pick = t.pick := fun t ht ↦ ⟨t, ht, rfl⟩
  have ready : s'.worker.phase = none →
      ∀ call0 ph, s'.worker.phase = some (call0, ph) → ph.answered = true → s.Picked call0 := by
    intro hw' call0 ph hw0
    rw [hw'] at hw0
    cases hw0
  cases hm with
  | construct hc hw =>
      exact h.worker (.construct hc hw) same (ready rfl) h.held fun _ he ↦ .inl he
  | attached hc hw =>
      exact h.worker (.attached hc hw) same (ready rfl) h.held fun _ he ↦ .inl he
  | @start c req pc hc hw hlt hpc =>
      refine h.worker (.start hc hw hlt hpc) same ?_ h.held fun _ he ↦ .inl he
      intro call0 ph hw0 ha
      rw [hpc] at hw0
      simp only [Sys.goto, Worker.phase_run, Option.some.injEq, Prod.mk.injEq] at hw0
      obtain ⟨-, rfl⟩ := hw0
      split at ha <;> cases ha
  | @resume i call hc hw hi =>
      refine h.worker (.resume hc hw hi) same ?_ ?_ fun _ he ↦ .inl he
      · intro call0 ph hw0 _
        cases hw0
        exact h.held call (List.mem_of_getElem? hi)
      · exact fun call0 hm0 ↦ h.held call0 (List.mem_of_mem_eraseIdx hm0)
  | call hc hw hm => exact hm.traced hw hc hp h
  | expireFirst hw ht _ | expire hw ht _ =>
      exact (hp.lockstep.patient.not_timed hw ht).elim
  | @close i call hc hi ha =>
      exact h.worker (.close hc hi ha) same h.answered
        (fun call0 hm0 ↦ h.held call0 (List.mem_of_mem_eraseIdx hm0)) fun _ he ↦ .inl he
  | closingCurrent hc hg =>
      exact h.worker (.closingCurrent hc hg) same h.answered h.held fun _ he ↦ .inl he
  | closingStale hc hg =>
      exact h.worker (.closingStale hc hg) same h.answered h.held fun _ he ↦ .inl he
  | @closingStore call hc =>
      exact h.worker (.closingStore hc)
        (live_pick_of_store call.chan .idle hp.sound.shape rfl) h.answered h.held
        fun _ he ↦ .inl he

theorem Task.Move.completes {engine : Engine} {c size : Nat} {st : SabState} {t t' : Task}
    {events : List Event} (h : t.Move engine c st size t' events) :
    ∀ e ∈ events, e.completes = none := by
  intro e he
  cases h <;> first
    | exact List.mem_singleton.mp he ▸ rfl
    | cases he

/-- A step of the main thread. -/
theorem MainMove.traced {engine : Engine} (hm : MainMove engine s s') (hs : Shape s)
    (h : Traced s) : Traced s' := by
  have hsub := hm.picks_subset
  have hph := hm.phase
  have main : (∀ t ∈ s'.live, t.pick ∈ s'.picks) →
      (∀ e ∈ s'.log, e ∈ s.log ∨ e.completes = none) → Traced s' := by
    intro hlive hlog
    refine ⟨hlive, fun cell t ht ↦ ?_, fun call ph hw ha ↦ ?_, fun call hm' ↦ ?_,
      fun e he call hc ↦ ?_⟩
    · rcases hm.writer hs ht with ht | ht
      · exact hsub (h.written cell t ht)
      · exact hsub (h.live t ht)
    · rw [hph] at hw
      exact (h.answered call ph hw ha).mono hsub
    · rw [hm.suspended] at hm'
      exact (h.held call hm').mono hsub
    · rcases hlog e he with he | he
      · exact (h.completed e he call hc).mono hsub
      · rw [he] at hc
        cases hc
  -- the invocation goes on
  have goes : ∀ {t t' : Task}, s.live = [t] → s'.live = [t'] → t'.pick = t.pick →
      s'.log = s.log → Traced s' := by
    intro t t' hl hl' hpick hlog
    refine main (fun t0 ht0 ↦ ?_) fun e he ↦ .inl (hlog ▸ he)
    rw [hl', List.mem_singleton] at ht0
    subst ht0
    rw [hpick]
    exact hsub (h.live t (Sys.mem_live hl))
  cases hm with
  | attach _ _ => exact main h.live fun _ he ↦ .inl he
  | nudge hi _ =>
      refine main (fun t ht ↦ h.live t ?_) fun _ he ↦ .inl he
      rwa [Sys.live, hi]
  | decline hg _ =>
      refine main (fun t ht ↦ h.live t ?_) fun _ he ↦ .inl he
      rwa [Sys.live, hg]
  | @pick c current tasks pc hg hl _ _ _ _ hpl =>
      refine main (fun t ht ↦ ?_) fun _ he ↦ .inl he
      rw [Sys.live, hpl.live, List.mem_singleton] at ht
      subst ht
      exact List.mem_append_right _ (List.mem_singleton.mpr rfl)
  | @task c t t' events _ _ hl _ _ hm hpl =>
      refine main (fun t0 ht0 ↦ ?_) fun e he ↦ ?_
      · rw [Sys.live, hpl.live, List.mem_singleton] at ht0
        subst ht0
        rw [hm.pick]
        exact h.live t (Sys.mem_live hl)
      · rcases List.mem_append.mp he with he | he
        · exact .inl he
        · exact .inr (hm.completes e he)
  | @store c off t info payload status st next failed hr ht hc hst hw =>
      exact goes (hs.live_of_run hr) (Sys.live_runs _ _ ht) rfl rfl
  | @overflow c t info payload status st next failed hr ht hc hst hw =>
      exact goes (hs.live_of_run hr) (Sys.live_runs _ _ ht) rfl rfl
  | @storeLength c off t st next hr ht hc hpc =>
      exact goes (hs.live_of_run hr) (Sys.live_runs _ _ ht) rfl rfl
  | @storeState c t st next pc hr ht hc hpc hpc' =>
      exact goes (hs.live_of_run hr) (Sys.live_runs _ _ ht) rfl rfl
  | @leave c t hr ht hc hpc =>
      refine main (fun t0 ht0 ↦ ?_) fun _ he ↦ .inl he
      rw [Sys.live_leave s c ht] at ht0
      cases ht0

end

/-! ## Runs of one backend -/

theorem dispatched_of_steady {engine : Engine} {s : Sys}
    (h : (system engine).Reachable (fun s a ↦ s.Single a ∧ s.Steady a) s) : Dispatched s := by
  refine invariant_of_steady .init (fun s a s' hp hb hs hm hd ↦ ?_) h
  have ho := hp.lockstep.orderly hm hs.fresh
  cases hm with
  | worker hm => exact hm.dispatched hp.sound.shape hp.sound.ledger hb hd
  | main _ hmain hm => exact hm.dispatched (fun hne ↦ hmain hne ▸ ho) hp hb hd

theorem traced_of_steady {engine : Engine} {s : Sys}
    (h : (system engine).Reachable (fun s a ↦ s.Single a ∧ s.Steady a) s) : Traced s := by
  refine invariant_of_steady .init (fun s a s' hp _ _ hm ht ↦ ?_) h
  cases hm with
  | worker hm => exact hm.traced hp ht
  | main _ _ hm => exact hm.traced hp.sound.shape ht

/-! ## Agreement -/

/-- The two threads agree on requests and buffers: what an invocation reads is the request that
is up, what it stores goes into the buffer to which the views of the waiting call are bound,
and what a call reads there is a window stored for it. -/
structure Sys.Agrees (s : Sys) : Prop where
  reads : ∀ p ∈ s.picks, ∃ q, p.pending = some q ∧ p.Reads q
  writes : ∀ t c, s.current = .run t → t.stage = .serving → s.bridge.ctrl = some c →
    ∃ call w, s.worker.phase = some (call, .asking w) ∧ call.chan = c ∧
      t.pick.pending = some ⟨call.gen, call.request⟩ ∧ s.bridge.data = (s.backend c).data
  finds : ∀ call, s.worker = .run call .readWindow →
    ∃ t e, s.writer (.data (s.backend call.chan).data) = some t ∧ t.pc = .window e ∧
      t.pick.pending = some ⟨call.gen, call.request⟩

theorem Paced.writes {s : Sys} (h : Paced s) {t : Task} {c : Nat} (hr : s.current = .run t)
    (hst : t.stage = .serving) (hc : s.bridge.ctrl = some c) :
    ∃ call w, s.worker.phase = some (call, .asking w) ∧ call.chan = c ∧
      t.pick.pending = some ⟨call.gen, call.request⟩ ∧ s.bridge.data = (s.backend c).data := by
  have hmem := h.sound.shape.mem_live_of_run hr
  obtain ⟨hb, -⟩ := h.sound.exchange.serving t hmem hst
  cases hc.symm.trans hb.attached
  obtain ⟨call, w, hph, hchan, -⟩ := h.lockstep.asks _ (h.lockstep.turn t hmem hst)
  refine ⟨call, w, hph, hchan, ?_, hb.data⟩
  -- the request that the invocation serves is that of the call that waits
  have hcur := h.sound.ledger.current_of_engaged hph rfl
  obtain ⟨q, hp, hq, -⟩ := hb.current
  rw [Sys.Current, hchan, hq] at hcur
  rw [hp, hcur]

theorem Paced.finds {s : Sys} (h : Paced s) {call : Call} (hw : s.worker = .run call .readWindow) :
    ∃ t e, s.writer (.data (s.backend call.chan).data) = some t ∧ t.pc = .window e ∧
      t.pick.pending = some ⟨call.gen, call.request⟩ := by
  have hph : s.worker.phase = some (call, .reading) := by rw [hw]; rfl
  have hchan : call.chan = s.newest := h.sound.only.chan hph rfl
  have hcur := h.sound.ledger.current_of_engaged hph rfl
  have hst := h.sound.exchange.holding call (.inr ⟨_, hph, rfl⟩) hchan hcur
  obtain ⟨p, off, next, hpend, -, -, hshows, -⟩ :=
    h.sound.exchange.answered call _ hph hchan rfl (by rw [hst]; rfl)
  rw [hst] at hshows
  obtain ⟨t, e, hwt, -, rfl, hpc, -⟩ := hshows
  exact ⟨t, e, hchan ▸ hwt, hpc, hpend⟩

/-- While requests are read from the buffer that the worker is bound to, the threads agree. -/
theorem agrees_of_steady {engine : Engine} {s : Sys}
    (h : (system engine).Reachable (fun s a ↦ s.Single a ∧ s.Steady a) s) : s.Agrees where
  reads := (dispatched_of_steady h).reads
  writes _ _ hr hst hc := (paced_of_steady h).1.writes hr hst hc
  finds _ hw := (paced_of_steady h).1.finds hw

/-! ## At most once -/

/-- The generation of the request that an invocation fetches. -/
def Pick.fetches (p : Pick) : Option Json := p.header.get? "gen"

theorem Pick.fetches_of_reads {p : Pick} {q : Posted} (h : p.Reads q) :
    p.fetches = some (.num q.gen 0 none) := by
  rw [fetches, header, h]
  rfl

/-- Requests are dispatched at most once: one invocation at a time is behind the guard, requests
are picked up in the order of their generations, none is fetched twice, and those of the calls
that received a response were picked up exactly once. -/
structure Sys.AtMostOnce (s : Sys) : Prop where
  alone : s.live.length ≤ 1
  order : s.picks.Pairwise Pick.Before
  fetched : s.picks.Pairwise fun p p' ↦ ∀ g, p.fetches = some g → p'.fetches ≠ some g
  completed : ∀ e ∈ s.log, ∀ call, e.completes = some call →
    s.picks.countP (fun p ↦ p.pending = some ⟨call.gen, call.request⟩) = 1

/-- What holds of one element at most and of some holds of exactly one. -/
theorem countP_eq_one {α : Type} {r : α → α → Prop} {p : α → Bool} {l : List α}
    (h : l.Pairwise r) (hr : ∀ a b, r a b → p a = true → p b = false)
    (hex : ∃ a ∈ l, p a = true) : l.countP p = 1 := by
  induction l with
  | nil =>
      obtain ⟨a, hm, -⟩ := hex
      cases hm
  | cons a l ih =>
      obtain ⟨hall, hl⟩ := List.pairwise_cons.mp h
      by_cases hp : p a = true
      · have hzero : l.countP p = 0 := by
          rw [List.countP_eq_zero]
          intro b hb
          rw [hr a b (hall b hb) hp]
          nofun
        rw [List.countP_cons_of_pos hp, hzero]
      · rw [List.countP_cons_of_neg hp]
        obtain ⟨b, hb, hpb⟩ := hex
        rcases List.mem_cons.mp hb with rfl | hb
        · exact absurd hpb hp
        · exact ih hl ⟨b, hb, hpb⟩

theorem Dispatched.fetched {s : Sys} (h : Dispatched s) :
    s.picks.Pairwise fun p p' ↦ ∀ g, p.fetches = some g → p'.fetches ≠ some g := by
  refine List.Pairwise.imp_of_mem ?_ h.order
  rintro p p' hp hp' ⟨q, q', hq, hq', hlt⟩ g hg hg'
  obtain ⟨q0, hq0, hr⟩ := h.reads p hp
  obtain ⟨q1, hq1, hr'⟩ := h.reads p' hp'
  cases hq.symm.trans hq0
  cases hq'.symm.trans hq1
  rw [Pick.fetches_of_reads hr] at hg
  rw [Pick.fetches_of_reads hr', ← hg, Option.some.injEq, Json.num.injEq] at hg'
  omega

theorem Dispatched.countP {s : Sys} (h : Dispatched s) {call : Call} (hp : s.Picked call) :
    s.picks.countP (fun p ↦ p.pending = some ⟨call.gen, call.request⟩) = 1 := by
  obtain ⟨p, hm, hq⟩ := hp
  refine countP_eq_one h.order ?_ ⟨p, hm, by simpa using hq⟩
  rintro a b ⟨q, q', ha, hb, hlt⟩ hpa
  rw [decide_eq_true_eq, ha, Option.some.injEq] at hpa
  subst hpa
  rw [decide_eq_false_iff_not, hb, Option.some.injEq]
  rintro rfl
  exact lt_irrefl _ hlt

/-- While requests are read from the buffer that the worker is bound to, they are dispatched at
most once. -/
theorem atMostOnce_of_steady {engine : Engine} {s : Sys}
    (h : (system engine).Reachable (fun s a ↦ s.Single a ∧ s.Steady a) s) : s.AtMostOnce where
  alone := by
    rcases (shape_of_reachable h).single with ⟨hl, -⟩ | ⟨t, hl, -⟩ <;> rw [hl] <;> simp
  order := (dispatched_of_steady h).order
  fetched := (dispatched_of_steady h).fetched
  completed e he _ hc :=
    (dispatched_of_steady h).countP ((traced_of_steady h).completed e he _ hc)

/-! ## Runs -/

/-- A unary call, and a second one up to its window, which has grown the data SAB and announced it
before its request is taken. -/
def windowRun : List Action :=
  List.flatten [[.construct 4200, .worker, .deliver], requestRun "/rpc1" none,
    [.deliver, .main, .fetchDone 0 (.resolved { status := 200 })],
    [.bufferDone 0 (.resolved [1, 2, 3])], .replicate 4 .main, .replicate 5 .worker,
    [.start 0 { kind := .unary, url := "/rpc2", body := .replicate 4200 0 }], .replicate 7 .worker,
    [.deliver, .deliver, .main, .fetchDone 0 (.resolved { status := 200 })],
    [.bufferDone 0 (.resolved [4, 5])], .replicate 3 .main, .replicate 2 .worker]

/-- The second call is about to take its window, out of the data SAB that it has allocated. -/
def Sys.readsWindow (s : Sys) : Bool :=
  match s.worker with
  | .run call .readWindow => call.gen = 2 && s.picks.length = 2 && s.sabs = 2
  | _ => false

theorem agrees_windowRun : ∃ s : Sys,
    (system v8).Reachable (fun s a ↦ s.Single a ∧ s.Steady a) s ∧ s.readsWindow = true ∧
      s.Agrees := by
  obtain ⟨s, hr, hw⟩ := (system v8).exists_reachable (fun s a ↦ s.Single a ∧ s.Steady a)
    windowRun Sys.readsWindow rfl (by decide +kernel)
  exact ⟨s, hr, hw, agrees_of_steady hr⟩

/-- Both calls have returned. -/
def Sys.hasReturned (s : Sys) : Bool :=
  (s.log.any fun e ↦ match e with
    | .returned _ (.response resp) 1 => resp.body = [1, 2, 3]
    | _ => false) &&
  s.log.any fun e ↦ match e with
    | .returned _ (.response resp) 2 => resp.body = [4, 5]
    | _ => false

theorem atMostOnce_windowRun : ∃ s : Sys,
    (system v8).Reachable (fun s a ↦ s.Single a ∧ s.Steady a) s ∧ s.hasReturned = true ∧
      s.AtMostOnce := by
  obtain ⟨s, hr, hw⟩ := (system v8).exists_reachable (fun s a ↦ s.Single a ∧ s.Steady a)
    (windowRun ++ [Action.worker, .worker, .worker]) Sys.hasReturned rfl (by decide +kernel)
  exact ⟨s, hr, hw, atMostOnce_of_steady hr⟩

/-- The first call is a stream that ends without a chunk; while its invocation is on its way to
`finally`, the second call has grown the data SAB and stored its request into the new one. -/
def staleRun : List Action :=
  [.construct 4200, .worker, .deliver, .start 0 { kind := .serverStream, url := "/rpc1" }] ++
    .replicate 5 .worker ++
    [.deliver, .main, .fetchDone 0 (.resolved { status := 200 }), .readDone 0 .done, .main, .main] ++
    .replicate 3 .worker ++
    [.start 0 { kind := .unary, url := "/rpc2", body := .replicate 4200 0 }] ++
    .replicate 6 .worker ++ [.main, .main]

/-- The request of generation 1 is fetched while that of generation 2 is up. -/
def Sys.fetchesStale (s : Sys) : Bool :=
  match s.picks with
  | [p, p'] =>
      match p.fetches, p'.fetches, p'.pending with
      | some (.num 1 0 none), some (.num 1 0 none), some ⟨2, _⟩ => true
      | _, _, _ => false
  | _ => false

theorem exists_fetchesStale :
    ∃ s : Sys, (system v8).Reachable (fun s a ↦ s.Single a) s ∧ s.fetchesStale = true :=
  (system v8).exists_reachable (fun s a ↦ s.Single a) staleRun Sys.fetchesStale rfl
    (by decide +kernel)

theorem Sys.fetchesStale_elim {s : Sys} (h : s.fetchesStale = true) :
    ∃ p p' q, s.picks = [p, p'] ∧ p.fetches = some (.num 1 0 none) ∧ p'.fetches = some (.num 1 0 none) ∧
      p'.pending = some q ∧ q.gen = 2 := by
  unfold fetchesStale at h
  split at h
  · rename_i p p' hp
    split at h
    · rename_i h1 h2 h3
      exact ⟨p, p', _, hp, h1, h2, h3, rfl⟩
    · cases h
  · cases h

theorem not_always_agrees : ¬ ∀ engine s,
    (system engine).Reachable (fun s a ↦ s.Single a) s → s.Agrees := by
  intro hall
  obtain ⟨s, hr, hs⟩ := exists_fetchesStale
  obtain ⟨p, p', q, hp, -, h2, hq, hgen⟩ := Sys.fetchesStale_elim hs
  obtain ⟨q', hq', hreads⟩ := (hall v8 s hr).reads p' (by rw [hp]; simp)
  cases hq.symm.trans hq'
  rw [Pick.fetches_of_reads hreads, hgen] at h2
  cases h2

theorem not_always_atMostOnce : ¬ ∀ engine s,
    (system engine).Reachable (fun s a ↦ s.Single a) s → s.AtMostOnce := by
  intro hall
  obtain ⟨s, hr, hs⟩ := exists_fetchesStale
  obtain ⟨p, p', q, hp, h1, h2, -⟩ := Sys.fetchesStale_elim hs
  have := (hall v8 s hr).fetched
  rw [hp] at this
  exact List.rel_of_pairwise_cons this (List.mem_singleton.mpr rfl) _ h1 h2

/-! ## A data SAB without a meta zone -/

/-- An engine that words its `RangeError` at length. -/
def wordyEngine : Engine :=
  { v8 with
    rangeError := ⟨"Range consisting of offset and length are out of bounds", by decide +kernel⟩ }

/-- A fetch fails, and neither the report of that nor the one of the outer `catch` fits the data
SAB, which holds the request and no more.  So the request is still up in `finally`, where it is
taken again, with the length of its header overwritten. -/
def crampedRun : List Action :=
  [.construct 80, .worker, .deliver, .start 0 { kind := .unary, url := "/" }] ++
    .replicate 5 .worker ++
    [.deliver, .main, .fetchDone 0 (.rejected false "The network connection was lost."),
      .main, .main, .main, .main]

/-- One request is taken twice, and the second time it cannot be read. -/
def Sys.takesAgain (s : Sys) : Bool :=
  match s.picks with
  | [p, p'] => p.pending.isSome && p.pending = p'.pending && p'.read.isNone
  | _ => false

theorem exists_takesAgain : ∃ s : Sys,
    (system wordyEngine).Reachable (fun s a ↦ s.Single a ∧ s.Unwrapped a ∧ s.Fresh a) s ∧
      s.takesAgain = true :=
  (system wordyEngine).exists_reachable (fun s a ↦ s.Single a ∧ s.Unwrapped a ∧ s.Fresh a)
    crampedRun Sys.takesAgain rfl (by decide +kernel)

theorem Sys.takesAgain_elim {s : Sys} (h : s.takesAgain = true) :
    ∃ p p' q, s.picks = [p, p'] ∧ p.pending = some q ∧ p'.pending = some q ∧ p'.read = none := by
  unfold takesAgain at h
  split at h
  · rename_i p p' hp
    simp only [Bool.and_eq_true, decide_eq_true_eq, Option.isNone_iff_eq_none] at h
    obtain ⟨⟨hsome, heq⟩, hread⟩ := h
    obtain ⟨q, hq⟩ := Option.isSome_iff_exists.mp hsome
    exact ⟨p, p', q, hp, hq, heq ▸ hq, hread⟩
  · cases h

/-- `Roomy` is needed: without room for its reports a request is not read as it was written. -/
theorem not_agrees_cramped : ¬ ∀ engine s,
    (system engine).Reachable (fun s a ↦ s.Single a ∧ s.Unwrapped a ∧ s.Fresh a) s →
      s.Agrees := by
  intro hall
  obtain ⟨s, hr, hs⟩ := exists_takesAgain
  obtain ⟨p, p', q, hp, -, -, hread⟩ := Sys.takesAgain_elim hs
  obtain ⟨q', -, hreads⟩ := (hall wordyEngine s hr).reads p' (by rw [hp]; simp)
  cases hread.symm.trans hreads

/-- Nor is it picked up once. -/
theorem not_atMostOnce_cramped : ¬ ∀ engine s,
    (system engine).Reachable (fun s a ↦ s.Single a ∧ s.Unwrapped a ∧ s.Fresh a) s →
      s.AtMostOnce := by
  intro hall
  obtain ⟨s, hr, hs⟩ := exists_takesAgain
  obtain ⟨p, p', q, hp, hq, hq', -⟩ := Sys.takesAgain_elim hs
  have horder := (hall wordyEngine s hr).order
  rw [hp] at horder
  obtain ⟨q1, q2, h1, h2, hlt⟩ := List.rel_of_pairwise_cons horder (List.mem_singleton.mpr rfl)
  cases h1.symm.trans hq
  cases h2.symm.trans hq'
  exact lt_irrefl _ hlt

end ConnectWeb.Sab
