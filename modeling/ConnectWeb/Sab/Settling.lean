import ConnectWeb.Sab.Potential

/-!
# Where the two threads come to rest

The steps that the two threads take by themselves are paid by what comes from outside, so they
come to an end, and then the worker is with its caller, or its request is with the network.
-/

namespace ConnectWeb.Sab

/-! ## Events from outside -/

namespace Action

/-- A step of the two threads' own; without `Atomics.waitAsync`, a poll waits for its timer. -/
def own (engine : Engine) : Action → Bool
  | .worker | .closing | .deliver | .main => true
  | .wake _ => engine.waitAsync
  | .construct _ | .start _ _ | .resume _ | .close _ | .expire | .fetchDone _ _ | .timer _
    | .bufferDone _ _ | .readDone _ _ => false

/-- The bytes that the network brings. -/
def bytes : Action → Nat
  | .bufferDone _ (.resolved body) => body.length
  | .readDone _ (.value chunk) => chunk.length
  | _ => 0

/-- What an event from outside pays for. -/
def income (engine : Engine) (a : Action) : Nat :=
  if a.own engine then 0 else 22 * a.bytes + 32

end Action

section
variable {engine : Engine} {s s' : Sys}

theorem Sys.potential_le_of_still {k : Nat} (hst : ∀ c, s'.state c = s.state c)
    (hl : s'.live = s.live) (hb : s'.bridge = s.bridge) (hc : s'.current = s.current)
    (h : s'.workerPotential ≤ s.workerPotential + k) :
    s'.potential engine ≤ s.potential engine + k := by
  have hmain : s'.mainPotential engine = s.mainPotential engine :=
    mainPotential_of_still hst hl hb hc
  rw [potential, potential, hmain]
  rw [workerPotential, workerPotential] at h
  omega

/-- What the caller does, and the timeout of a wait. -/
theorem WorkerMove.potential_le {a : Action} (hm : WorkerMove s a s') (ha : a.own engine = false) :
    s'.potential engine ≤ s.potential engine + 18 := by
  have runs : ∀ {s'' : Sys}, s''.worker.potential s''.state ≤ s.worker.potential s.state + 17 →
      (∀ c, s''.state c = s.state c) → s''.live = s.live → s''.bridge = s.bridge →
      s''.current = s.current → s''.closing = s.closing → s''.queue = s.queue →
      s''.potential engine ≤ s.potential engine + 18 := by
    intro s'' hw hst hl hb hc hcl hq
    refine Sys.potential_le_of_still hst hl hb hc ?_
    rw [Sys.workerPotential, Sys.workerPotential, hcl, hq]
    omega
  cases hm with
  | @construct capacity _ _ =>
      refine runs ?_ (state_attachData { s with backends := s.backends + 1 } s.backends capacity)
        rfl rfl rfl rfl rfl
      exact (by decide : 2 ≤ 17).trans (Nat.le_add_left _ _)
  | @start c req pc _ _ _ hpc =>
      refine runs ?_ (fun c' ↦ Sys.state_setGen s c c' _) rfl rfl rfl rfl rfl
      subst hpc
      rw [Sys.goto, Worker.potential_run]
      split
      · exact Nat.le_add_left 17 _
      · exact (by decide : 14 ≤ 17).trans (Nat.le_add_left _ _)
  | resume _ _ _ =>
      have hle : 9 ≤ s.worker.potential s.state + 17 :=
        (by decide : 9 ≤ 17).trans (Nat.le_add_left _ _)
      exact runs hle (fun _ ↦ rfl) rfl rfl rfl rfl rfl
  | expireFirst _ _ _ => exact runs (Nat.zero_le _) (fun _ ↦ rfl) rfl rfl rfl rfl rfl
  | expire _ _ _ =>
      have hle : 7 ≤ s.worker.potential s.state + 17 :=
        (by decide : 7 ≤ 17).trans (Nat.le_add_left _ _)
      exact runs hle (fun _ ↦ rfl) rfl rfl rfl rfl rfl
  | @close i call hc _ _ =>
      refine Sys.potential_le_of_still (fun _ ↦ rfl) rfl rfl rfl ?_
      rw [Sys.workerPotential, Sys.workerPotential, hc]
      change s.worker.potential s.state + 18 + (s.queue.map Message.potential).sum ≤ _ + 0 + _ + 18
      omega
  | attached _ _ | call _ _ _ | closingCurrent _ _ | closingStale _ _ | closingStore _ => cases ha

/-- A sleeper does not mind what STATE shows. -/
theorem At.potential_of_sleeps {pc : At} (h : pc.sleeps = true) (st st' : SabState) :
    pc.potential engine st' = pc.potential engine st := by
  cases pc with
  | awaitBlock _ _ => cases h
  | _ => rfl

namespace Sys

theorem ne_guard_of_awaiting {i : Nat} {t : Task} (hs : Shape s) (hi : s.awaiting i = some t) :
    s.current ≠ .guard := by
  intro hg
  cases (hs.live_of_awaiting hi).1.symm.trans hg

/-- A sleeper takes its turn. -/
theorem potential_of_turn {i : Nat} {t t' : Task} (hs : Shape s) (hi : s.awaiting i = some t)
    (hl : s'.live = [t']) (hg : s'.current ≠ .guard) (hb : s'.bridge = s.bridge)
    (hw : s'.worker = s.worker) (hst : s'.state = s.state) (hcl : s'.closing = s.closing)
    (hq : s'.queue = s.queue) :
    s'.potential engine + t.pc.potential engine s.attached =
      s.potential engine + t'.pc.potential engine s.attached := by
  have hg' : s.current ≠ .guard := ne_guard_of_awaiting hs hi
  have hattached : s'.attached = s.attached := by rw [attached, attached, hb, hst]
  rw [potential, potential, mainPotential_of_live hl hg,
    mainPotential_of_live (hs.live_eq_of_awaiting hi) hg', hw, hst, hcl, hq,
    hattached]
  omega

variable {i : Nat} {t : Task} (hs : Shape s) (hi : s.awaiting i = some t) (log : List Event)
  (t' : Task)

include hs hi

theorem potential_runs : potential engine ({ s.without i with log }.runs t') +
    t.pc.potential engine s.attached = s.potential engine + t'.pc.potential engine s.attached := by
  refine potential_of_turn hs hi ?_ (fun h ↦ by cases h) rfl rfl rfl rfl rfl
  obtain ⟨-, ht, rfl⟩ := hs.live_of_awaiting hi
  change [t'] ++ s.tasks.eraseIdx 0 = _
  rw [ht]
  rfl

theorem potential_runs_le {n : Nat} (hn : t'.pc.potential engine s.attached ≤ n) :
    potential engine ({ s.without i with log }.runs t') ≤ s.potential engine + n := by
  have : potential engine ({ s.without i with log }.runs t') + t.pc.potential engine s.attached =
      s.potential engine + t'.pc.potential engine s.attached := potential_runs hs hi log t'
  omega

theorem potential_suspends_le {n : Nat} (hn : t'.pc.potential engine s.attached ≤ n) :
    potential engine ({ s.without i with log }.suspends t') ≤ s.potential engine + n := by
  have : potential engine ({ s.without i with log }.suspends t') +
      t.pc.potential engine s.attached =
        s.potential engine + t'.pc.potential engine s.attached := by
    refine potential_of_turn hs hi ?_ (fun h ↦ by cases h) rfl rfl rfl rfl rfl
    obtain ⟨-, ht, rfl⟩ := hs.live_of_awaiting hi
    change [] ++ (s.tasks.eraseIdx 0 ++ [t']) = _
    rw [ht]
    rfl
  omega

end Sys

/-- A message of `n` bytes is going to be written. -/
theorem Task.potential_emit (t : Task) (resp : FetchResponse) (metaBase : List (String × Json))
    (bytes : Bytes) (size : Nat) (streaming : Bool) (st : SabState) :
    (t.emit resp metaBase bytes size streaming).pc.potential engine st =
      22 * bytes.length + 32 := by
  simp only [emit, pc_goto, At.potential, At.stores, At.steps, Emission.left]
  omega

theorem Sys.fetchDone_potential {i : Nat} {r : FetchResult} (hs : Shape s)
    (h : s.fetchDone engine i r = some s') : s'.potential engine ≤ s.potential engine + 32 := by
  unfold fetchDone at h
  split at h
  swap
  · cases h
  rename_i t hi
  split at h
  swap
  · cases h
  dsimp only at h
  split at h
  · cases h
    exact potential_runs_le hs hi s.log _ (by decide : 20 ≤ 32)
  · split at h
    · cases h
      exact potential_suspends_le hs hi _ _ (Nat.zero_le 32)
    · split at h
      · cases h
        exact potential_suspends_le hs hi _ _ (Nat.zero_le 32)
      · cases h
        exact potential_runs_le hs hi _ _ (by decide : 19 ≤ 32)

theorem Sys.timer_potential {i : Nat} (hs : Shape s) (h : s.timer i = some s') :
    s'.potential engine ≤ s.potential engine := by
  unfold timer at h
  split at h
  swap
  · cases h
  rename_i t hi
  split at h
  swap
  · cases h
  rename_i hpc
  split at h
  · cases h
    obtain ⟨hidle, ht, rfl⟩ := hs.live_of_awaiting hi
    have hl : Sys.live { s with tasks := s.tasks.set 0 { t with timedOut := true } } =
        [{ t with timedOut := true }] := by
      rw [live, hidle, ht]
      rfl
    have hg : s.current ≠ .guard := ne_guard_of_awaiting hs hi
    have hturn := @potential_of_turn engine s _ 0 t { t with timedOut := true } hs hi hl hg rfl rfl
      rfl rfl rfl
    exact Nat.le_of_eq (Nat.add_right_cancel hturn)
  · cases h

theorem Sys.bufferDone_potential {i : Nat} {r : BufferResult} (hs : Shape s)
    (h : s.bufferDone i r = some s') :
    s'.potential engine ≤ s.potential engine + (22 * (Action.bufferDone i r).bytes + 32) := by
  unfold bufferDone at h
  split at h
  swap
  · cases h
  rename_i t hi
  split at h
  swap
  · cases h
  dsimp only at h
  split at h
  · cases h
    exact potential_runs_le hs hi _ _ (Nat.le_of_eq (Task.potential_emit ..))
  · cases h
    exact potential_runs_le hs hi s.log _ (by decide : 19 ≤ 32)

theorem Sys.readDone_potential {i : Nat} {r : ReadResult} (hs : Shape s)
    (h : s.readDone i r = some s') :
    s'.potential engine ≤ s.potential engine + (22 * (Action.readDone i r).bytes + 32) := by
  unfold readDone at h
  split at h
  swap
  · cases h
  rename_i t hi
  split at h
  swap
  · cases h
  split at h
  · cases h
    exact Nat.le_add_right _ _
  · cases h
    exact potential_runs_le hs hi _ _ (Nat.le_of_eq (Task.potential_emit ..))
  · cases h
    exact potential_runs_le hs hi _ _ (by decide : 18 ≤ 32)
  · cases h
    exact potential_runs_le hs hi s.log _ (by decide : 20 ≤ 32)

theorem Sys.wake_potential {i : Nat} (hs : Shape s) (h : s.wake i = some s') :
    (if engine.waitAsync then 1 else 0) + s'.potential engine ≤
      s.potential engine + (if engine.waitAsync then 0 else 32) := by
  unfold wake at h
  split at h
  swap
  · cases h
  rename_i t hi
  split at h
  swap
  · cases h
  rename_i next hpc
  cases h
  have hturn : potential engine ((s.without i).runs (t.goto (.awaitLoad next))) +
      t.pc.potential engine s.attached =
        s.potential engine + (At.awaitLoad next).potential engine s.attached :=
    potential_runs hs hi s.log _
  simp only [hpc, At.potential, At.stores, At.steps] at hturn
  cases hw : engine.waitAsync with
  | true =>
      simp only [hw, if_true] at hturn ⊢
      omega
  | false =>
      simp only [hw, Bool.false_eq_true, if_false] at hturn ⊢
      omega

theorem Sys.deliver_potential (hs : Shape s) (h : s.deliver = some s') :
    s'.potential engine < s.potential engine := by
  have sleepers : ∀ st st', s.current = .idle →
      s.live.map (fun t ↦ t.pc.potential engine st') =
        s.live.map fun t ↦ t.pc.potential engine st := by
    intro st st' hidle
    refine List.map_congr_left fun t ht ↦ At.potential_of_sleeps (hs.asleep t ?_) _ _
    rwa [live, hidle] at ht
  unfold deliver at h
  split at h
  · rename_i c d queue hidle hq
    cases h
    have hmain : mainPotential engine
        { s with queue, bridge := { s.bridge with ctrl := some c, data := d } } =
          s.mainPotential engine := by
      rw [mainPotential, mainPotential]
      exact congrArg (fun l : List Nat ↦ l.sum + _) (sleepers _ _ hidle)
    rw [potential, potential, hmain, hq]
    change _ + _ + _ + _ < s.worker.potential s.state + (s.closing.map Closing.potential).getD 0 +
      (1 + (queue.map Message.potential).sum) + _
    change s.worker.potential s.state + (s.closing.map Closing.potential).getD 0 +
      (queue.map Message.potential).sum + _ < _
    omega
  · rename_i queue hidle hq
    cases h
    have hmain : mainPotential engine { s with queue, current := .guard } =
        s.mainPotential engine + 1 := by
      rw [mainPotential, mainPotential, live, live, hidle]
      rfl
    rw [potential, potential, hmain, hq]
    change s.worker.potential s.state + (s.closing.map Closing.potential).getD 0 +
      (queue.map Message.potential).sum + _ < s.worker.potential s.state +
        (s.closing.map Closing.potential).getD 0 + (2 + (queue.map Message.potential).sum) + _
    omega
  · cases h

/-! ## All steps -/

/-- A step of the threads' own takes out of the potential, an event from outside pays in. -/
theorem Sys.potential_step {a : Action} (hp : Paced s) (ha : s.Advances) (hd : Dispatched s')
    (h : step engine s a = some s') :
    (if a.own engine then 1 else 0) + s'.potential engine ≤
      s.potential engine + a.income engine := by
  have hs := hp.sound.shape
  have takes : a.own engine = true → s'.potential engine < s.potential engine →
      (if a.own engine then 1 else 0) + s'.potential engine ≤
        s.potential engine + a.income engine := by
    intro ho hlt
    rw [Action.income, if_pos ho, if_pos ho]
    omega
  have pays : a.own engine = false →
      s'.potential engine ≤ s.potential engine + (22 * a.bytes + 32) →
      (if a.own engine then 1 else 0) + s'.potential engine ≤
        s.potential engine + a.income engine := by
    intro ho hle
    rw [Action.income, if_neg (ne_true_of_eq_false ho), if_neg (ne_true_of_eq_false ho)]
    omega
  have caller : WorkerMove s a s' → a.own engine = false → s'.potential engine ≤
      s.potential engine + (22 * a.bytes + 32) := fun hm ho ↦
    (hm.potential_le ho).trans (by omega)
  cases a with
  | construct capacity => exact pays rfl (caller (construct_move h) rfl)
  | start c req => exact pays rfl (caller (start_move h) rfl)
  | resume i => exact pays rfl (caller (resume_move h) rfl)
  | close i => exact pays rfl (caller (close_move h) rfl)
  | expire => exact pays rfl (caller (expire_move h) rfl)
  | worker => exact takes rfl ((stepWorker_move h).potential_lt (.inl rfl) hs)
  | closing => exact takes rfl ((stepClosing_move h).potential_lt (.inr rfl) hs)
  | deliver => exact takes rfl (deliver_potential hs h)
  | main =>
      refine takes rfl ((stepMain_move hs h).potential_lt (fun hidle ↦ ?_) hs ha hd)
      rw [Sab.step, stepMain, hidle] at h
      cases h
  | fetchDone i r => exact pays rfl (fetchDone_potential hs h)
  | timer i => exact pays rfl ((timer_potential hs h).trans (Nat.le_add_right _ _))
  | bufferDone i r => exact pays rfl (bufferDone_potential hs h)
  | readDone i r => exact pays rfl (readDone_potential hs h)
  | wake i => exact wake_potential hs h

/-! ## Sleep -/

/-- A worker that sleeps found its STATE word as it was, and closes nothing. -/
def Sys.Dormant (s : Sys) : Prop :=
  ∀ call w, s.worker = .run call (.parked w) → s.closing = none ∧ s.state call.chan = w.expect

theorem CallMove.dormant {call : Call} {pc : Pc} (hm : CallMove s call pc s')
    (hc : s.closing = none) : s'.Dormant := by
  intro call' w' hw'
  cases hm with
  | park h =>
      cases hw'
      exact ⟨hc, h⟩
  | @answered w _ =>
      have hph := congrArg Worker.phase hw'
      rw [Sys.goto, Worker.phase_run, Worker.phase_run, Option.some.injEq, Prod.mk.injEq] at hph
      rcases afterWait_phase call w (s.state call.chan) (s.region call.chan) with heq | ⟨_, heq⟩ <;>
        cases heq.symm.trans hph.2
  | @loadStatus chunk _ _ => cases chunk <;> cases hw'
  | _ => cases hw'

theorem WorkerMove.dormant {a : Action} (hm : WorkerMove s a s') (h : s.Dormant) :
    s'.Dormant := by
  cases hm with
  | call hc _ hm => exact hm.dormant hc
  | @start c req pc _ _ _ hpc =>
      intro call w hw
      rw [hpc] at hw
      split at hw <;> cases hw
  | close _ _ ha =>
      intro call w hw
      rw [Sys.awake, show s.worker = .run call (.parked w) from hw] at ha
      cases ha
  | closingCurrent hc _ | closingStale hc _ | closingStore hc =>
      intro call w hw
      cases (h call w hw).1.symm.trans hc
  | construct _ _ | attached _ _ | resume _ _ _ | expireFirst _ _ _ | expire _ _ _ =>
      intro call w hw
      cases hw

theorem MainMove.dormant (hm : MainMove engine s s') (h : s.Dormant) : s'.Dormant := by
  have still : ∀ {s'' : Sys}, s''.worker = s.worker → s''.closing = s.closing →
      (∀ c, s''.state c = s.state c) → s''.Dormant := by
    intro s'' hw hc hst call w hw'
    rw [hc, hst]
    exact h call w (hw ▸ hw')
  cases hm with
  | @store c off t _ _ status _ _ _ _ _ _ _ _ =>
      exact still rfl rfl (Sys.state_stored s c t _ status)
  | @storeLength c off _ _ _ _ _ _ _ =>
      exact still rfl rfl fun c' ↦ Sys.state_setCtrl s c c'
        (fun ctrl ↦ { ctrl with length := toInt32 off }) fun _ ↦ rfl
  | @storeState c t st _ _ _ _ _ _ _ =>
      intro call w hw
      change s.worker.wake c = _ at hw
      -- a sleeper on the channel has been woken
      have hne : call.chan ≠ c ∧ s.worker = .run call (.parked w) := by
        unfold Worker.wake at hw
        split at hw
        · rename_i hw0
          split at hw
          · cases hw
          · rename_i hne
            cases hw
            exact ⟨hne, hw0⟩
        · rename_i hno
          exact absurd hw (hno call w)
      obtain ⟨hcl, hst⟩ := h call w hne.2
      refine ⟨hcl, ?_⟩
      change (s.storeByMain t c st).state call.chan = _
      rw [Sys.state_storeByMain, if_neg hne.1, hst]
  | _ => exact still rfl rfl fun _ ↦ rfl

/-! ## Rest -/

/-- The worker is with its caller, or the request that it waits for is with the network; only a
poll is a third thing. -/
inductive Sys.Rests (engine : Engine) (s : Sys) : Prop
  | returned (hw : s.worker = .ready) (hc : s.closing = none) : Rests engine s
  | network {call : Call} {w : Wait} {t : Task} (hw : s.worker = .run call (.parked w))
      (ht : t ∈ s.tasks) (ho : t.pc.outstanding = true)
      (hp : t.pick.pending = some ⟨call.gen, call.request⟩) : Rests engine s
  | poll {t : Task} {next : Next} (hasync : engine.waitAsync = false) (ht : t ∈ s.tasks)
      (hpc : t.pc = .woken next) : Rests engine s

theorem Sys.isSome_stepCall (s : Sys) (call : Call) {pc : Pc} (hpc : ∀ w, pc ≠ .parked w)
    (hroom : 0 < (s.region call.chan).size) : (s.stepCall call pc).isSome = true := by
  cases pc with
  | grow =>
      simp [stepCall, grownCapacity, hroom.ne']
  | marshal =>
      simp only [stepCall]
      split <;> rfl
  | wait w =>
      simp only [stepCall]
      split <;> rfl
  | readWindow =>
      simp only [stepCall]
      split
      · rfl
      · rfl
      · split <;> rfl
  | resetLoad o =>
      simp only [stepCall]
      split <;> rfl
  | parked w => exact absurd rfl (hpc w)
  | _ => rfl

theorem Sys.isSome_stepClosing {cl : Closing} (h : s.closing = some cl) :
    s.stepClosing.isSome = true := by
  obtain ⟨call, loaded⟩ := cl
  rw [stepClosing, h]
  cases loaded with
  | false =>
      dsimp only
      split <;> rfl
  | true => rfl

theorem Sys.isSome_stepMain (hs : Shape s) (h : s.current ≠ .idle) :
    (s.stepMain engine).isSome = true := by
  rw [stepMain]
  cases hc : s.current with
  | idle => exact absurd hc h
  | guard => rfl
  | run t =>
      obtain ⟨c, hctrl⟩ := hs.attached (by rw [hs.live_of_run hc]; exact List.cons_ne_nil _ _)
      rw [hctrl]
      exact isSome_stepTask engine s c (hs.awake t hc)

/-- An invocation that serves has the request of the call that waits. -/
theorem Paced.pending_of_serving (h : Paced s) {t : Task} {call : Call} {ph : Phase}
    (ht : t ∈ s.live) (hst : t.stage = .serving) (hph : s.worker.phase = some (call, ph)) :
    t.pick.pending = some ⟨call.gen, call.request⟩ := by
  obtain ⟨call', w, hph', hchan, -⟩ := h.lockstep.asks _ (h.lockstep.turn t ht hst)
  cases hph.symm.trans hph'
  have hcur := h.sound.ledger.current_of_engaged hph rfl
  obtain ⟨q, hp, hq, -⟩ := (h.sound.exchange.serving t ht hst).bound.current
  rw [Sys.Current, hchan, hq] at hcur
  rw [hp, hcur]

theorem Sys.isSome_deliver (hidle : s.current = .idle) (hq : s.queue ≠ []) :
    s.deliver.isSome = true := by
  rw [deliver, hidle]
  cases hqueue : s.queue with
  | nil => exact absurd hqueue hq
  | cons m q => cases m <;> rfl

theorem Sys.isSome_wake {i : Nat} {t : Task} {next : Next} (hi : s.awaiting i = some t)
    (hpc : t.pc = .woken next) : (s.wake i).isSome = true := by
  rw [wake, hi]
  simp [hpc]

/-- Whoever is awake goes on. -/
theorem Paced.isSome_stepWorker (h : Paced s) {call : Call} {pc : Pc} (hc : s.closing = none)
    (hw : s.worker = .run call pc) (hpc : ∀ w, pc ≠ .parked w) : s.stepWorker.isSome = true := by
  have hph : s.worker.phase = some (call, pc.phase) := by rw [hw]; rfl
  have hlt := h.sound.ledger.chan_lt (Sys.mem_calls_of_phase hph)
  have hroom := h.sound.announced.room _ (h.sound.announced.known _ hlt)
  rw [Sys.stepWorker, hc, hw]
  refine Sys.isSome_stepCall s call hpc ?_
  rw [Sys.region]
  omega

theorem Task.stage_of_outstanding {t : Task} (h : t.pc.outstanding = true) :
    t.stage = .serving := by
  cases hpc : t.pc with
  | fetching | buffering _ | reading _ _ => rw [stage, hpc, At.stage]
  | _ =>
      rw [hpc] at h
      cases h

theorem ne_true_of_atRest {a : Action} (h : (system engine).AtRest (Action.own engine) s)
    (ha : a.own engine = true) : (Sab.step engine s a).isSome ≠ true := by
  rw [show Sab.step engine s a = none from h a ha]
  exact Bool.false_ne_true

theorem Sys.rests (hp : Paced s) (hd : s.Dormant) (hu : s.Unblocked)
    (h : (system engine).AtRest (Action.own engine) s) : s.Rests engine := by
  have hs := hp.sound.shape
  have stuck : ∀ a, a.own engine = true → (Sab.step engine s a).isSome = true → False :=
    fun a ha ↦ ne_true_of_atRest h ha
  have hclosing : s.closing = none := by
    cases hc : s.closing with
    | none => rfl
    | some cl => exact (stuck .closing rfl (isSome_stepClosing hc)).elim
  have hidle : s.current = .idle := by
    by_contra hne
    exact stuck .main rfl (isSome_stepMain hs hne)
  cases hw : s.worker with
  | ready => exact .returned hw hclosing
  | attaching c d =>
      refine (stuck .worker rfl ?_).elim
      rw [Sab.step, stepWorker, hclosing, hw]
      rfl
  | run call pc =>
      have hph : s.worker.phase = some (call, pc.phase) := by rw [hw]; rfl
      by_cases hpc : ∃ w, pc = .parked w
      swap
      · exact (stuck .worker rfl (hp.isSome_stepWorker hclosing hw fun w hw' ↦ hpc ⟨w, hw'⟩)).elim
      · obtain ⟨w, rfl⟩ := hpc
        have hlive : s.live = s.tasks := by
          rw [live, hidle]
          rfl
        cases hu call w hw (hd call w hw).2 with
        | running hne => exact absurd hidle hne
        | @nudge q q' _ hq _ _ _ =>
            refine (stuck .deliver rfl (isSome_deliver hidle fun hnil ↦ ?_)).elim
            rw [hnil] at hq
            exact List.append_ne_nil_of_right_ne_nil q (List.cons_ne_nil _ q') hq.symm
        | @operation t ht ho =>
            have hst : t.stage = .serving := Task.stage_of_outstanding ho
            exact .network hw ht ho (hp.pending_of_serving (hlive ▸ ht) hst hph)
        | @exits t next _ _ _ ht hpc _ _ _ =>
            cases hasync : engine.waitAsync with
            | false => exact .poll hasync ht hpc
            | true =>
                obtain ⟨i, hi⟩ := List.mem_iff_getElem?.mp ht
                have hi' : s.awaiting i = some t := by
                  rw [awaiting, hidle]
                  exact hi
                exact (stuck (.wake i) hasync (isSome_wake hi' hpc)).elim

/-! ## Runs -/

theorem advances_of_steady (h : (system engine).Reachable (fun s a ↦ s.Single a ∧ s.Steady a) s) :
    s.Advances := by
  refine invariant_of_steady (fun t ht ↦ by cases ht) (fun s a s' hp _ _ hm ha ↦ ?_) h
  cases hm with
  | worker hm => exact hm.advances hp.sound.shape hp.sound.only ha
  | main _ _ hm => exact hm.advances hp.sound.shape hp.sound.announced ha

theorem dormant_of_reachable {ok : System.Guard Sys Action}
    (h : (system engine).Reachable ok s) : s.Dormant := by
  refine System.Reachable.invariant_of (fun _ ↦ shape_of_reachable) ?_ ?_ h
  · rintro s rfl call w hw
    cases hw
  · intro s a s' hs _ hd _ hstep
    cases Move.of_step hs hstep with
    | worker hm => exact hm.dormant hd
    | main _ _ hm => exact hm.dormant hd

/-- The two threads come to rest. -/
structure Sys.Settles (engine : Engine) (ok : System.Guard Sys Action) (s : Sys) : Prop where
  /-- Their own steps, whatever happens, are paid for by what comes from outside. -/
  paid : ∀ as s', (system engine).Path ok s as s' →
    as.countP (Action.own engine) ≤ s.potential engine + (as.map (Action.income engine)).sum
  rests : ∀ as s', (system engine).Path ok s as s' →
    (system engine).AtRest (Action.own engine) s' → s'.Rests engine

/-- While requests are read from the buffer that the worker is bound to, the threads take a
bounded number of steps for each event from outside and for each byte, and they stop only where
the worker is with its caller or its request is with the network. -/
theorem settles_of_single (h : (system engine).Reachable
    (fun s a ↦ s.Single a ∧ s.Steady a ∧ s.Legible a) s) :
    s.Settles engine fun s a ↦ s.Single a ∧ s.Steady a ∧ s.Legible a := by
  have steady : ∀ {s},
      (system engine).Reachable (fun s a ↦ s.Single a ∧ s.Steady a ∧ s.Legible a) s →
        (system engine).Reachable (fun s a ↦ s.Single a ∧ s.Steady a) s := fun h ↦
    h.mono fun _ _ hok ↦ ⟨hok.1, hok.2.1⟩
  refine ⟨fun as s' hpath ↦ ?_, fun as s' hpath hrest ↦ ?_⟩
  · have hpaid := hpath.countP_add_le (Action.own engine) (Action.income engine)
      (Sys.potential engine) (fun s a s' hr hok hstep ↦ ?_) h
    · omega
    · exact Sys.potential_step (paced_of_steady (steady hr)).1 (advances_of_steady (steady hr))
        (dispatched_of_steady (steady (.step hr hok hstep))) hstep
  · have hr := hpath.reachable h
    obtain ⟨hw, hp⟩ := waiting_of_single hr
    exact Sys.rests hp (dormant_of_reachable hr) (hw.unblocked hp) hrest

end

theorem settles_of_single_abandonedRun : ∃ s : Sys, s.dropsNudge = true ∧
    s.Settles v8 fun s a ↦ s.Single a ∧ s.Steady a ∧ s.Legible a := by
  obtain ⟨s, hr, hw⟩ := (system v8).exists_reachable
    (fun s a ↦ s.Single a ∧ s.Steady a ∧ s.Legible a) abandonedRun Sys.dropsNudge rfl
    (by decide +kernel)
  exact ⟨s, hw, settles_of_single hr⟩

end ConnectWeb.Sab
