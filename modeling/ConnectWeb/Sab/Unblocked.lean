import ConnectWeb.Sab.Progress

/-!
# The worker is never left waiting

The results about runs: while the bridge reads requests from the buffers they are written to,
and RPCs are started on the newest channel with no invocation waiting on an older one, a worker
that sleeps on its STATE word has something enabled on the main thread.
-/

namespace ConnectWeb.Sab

section
variable {engine : Engine} {s : Sys}

/-! ## What is enabled -/

/-- An operation of the surroundings is outstanding. -/
def At.outstanding : At → Bool
  | .fetching | .buffering _ | .reading _ _ => true
  | _ => false

/-- What an invocation sleeps for. -/
theorem At.sleeps_cases {pc : At} (h : pc.sleeps = true) : pc.outstanding = true ∨
    ∃ next, pc.stage = .awaiting next ∧ (pc = .woken next ∨ ∃ c cur, pc = .parked c cur next) := by
  cases pc with
  | fetching | buffering _ | reading _ _ => exact .inl rfl
  | parked c cur next => exact .inr ⟨next, rfl, .inr ⟨c, cur, rfl⟩⟩
  | woken next => exact .inr ⟨next, rfl, .inl rfl⟩
  | _ => cases h

/-- A step of the main thread is enabled that takes the exchange on. -/
inductive Sys.Enabled (s : Sys) : Prop where
  /-- The main thread executes. -/
  | running (h : s.current ≠ .idle) : Enabled s
  /-- A nudge will pass the guard of `handleRpc`. -/
  | nudge {q q' : List Message} {c : Nat} (hq : s.queue = q ++ .rpc :: q')
      (hb : s.bridge.busy = false) (hc : attachedBy s.bridge.ctrl q = some c)
      (hst : s.state c = .reqReady) : Enabled s
  /-- A fetch, a body or a read is outstanding. -/
  | operation {t : Task} (ht : t ∈ s.tasks) (ho : t.pc.outstanding = true) : Enabled s
  /-- An invocation that is not asleep finds that its wait is over, once the announcements `q`
  are delivered. -/
  | exits {t : Task} {next : Next} {q q' : List Message} {c : Nat} (ht : t ∈ s.tasks)
      (hpc : t.pc = .woken next) (hq : s.queue = q ++ q')
      (hc : attachedBy s.bridge.ctrl q = some c) (he : (s.state c).endsAwait = true) : Enabled s

/-- A worker that sleeps on its STATE word has something enabled on the main thread. -/
def Sys.Unblocked (s : Sys) : Prop :=
  ∀ call w, s.worker = .run call (.parked w) → s.state call.chan = w.expect → s.Enabled

theorem Wait.mainTurn_expect (w : Wait) : w.expect.mainTurn = true := by cases w <;> rfl

/-- An invocation that sleeps beside a sleeping worker is not waiting for it. -/
theorem Waits.unblocked {t : Task} {next : Next} {call : Call} {w : Wait} (h : Waits engine s t next)
    (hp : Paced s) (hw : s.worker = .run call (.parked w)) (hst : s.state s.newest = w.expect)
    (ht : t ∈ s.live) (hstage : t.stage = .awaiting next) (c : Nat) (cur : SabState) :
    t.pc ≠ .parked c cur next := by
  have hph : s.worker.phase = some (call, .asking w) := by rw [hw]; rfl
  have hends := (SabState.of_mainTurn w.mainTurn_expect).1
  intro hpc
  obtain ⟨hasync, rfl, rfl, he⟩ := h.parked c cur next hpc
  -- it waits on the channel of the worker's
  have hchan : t.pick.chan = s.newest := by
    cases w with
    | first =>
        refine (h.cleared call _ hph rfl hasync).resolve_right fun hidle ↦ ?_
        rw [hidle] at he
        cases he
    | window | chunk =>
        obtain ⟨hb, -⟩ := hp.sound.exchange.awaiting t ht next hstage (by rw [hst]; nofun)
          (by rw [hst]; nofun) (by
            rw [Sys.requesting_iff hph]
            rintro ⟨-, hr⟩
            cases hr)
        exact hb.chan
  rw [hchan, hst, hends] at he
  cases he

theorem Waiting.unblocked (h : Waiting engine s) (hp : Paced s) : s.Unblocked := by
  intro call w hw hst
  have hph : s.worker.phase = some (call, .asking w) := by rw [hw]; rfl
  have hchan := hp.sound.only.chan hph rfl
  have hlt := hp.sound.ledger.chan_lt (Sys.mem_calls_of_phase hph)
  rw [hchan] at hst hlt
  by_cases hidle : s.current = .idle
  swap
  · exact .running hidle
  have hlive : s.live = s.tasks := by
    rw [Sys.live, hidle]
    rfl
  rcases hp.sound.shape.single with ⟨hnil, hb⟩ | ⟨t, hl, -⟩
  · cases w with
    | first =>
        rcases h.nudged call _ hw rfl hst with ⟨q, q', hq, hatt⟩ | ⟨-, hrun⟩
        · exact .nudge hq hb hatt hst
        · rcases hrun with hrun | hrun
          · exact absurd hidle hrun
          · exact absurd hnil hrun
    | window | chunk =>
        obtain ⟨t, hl, -⟩ := h.attending.acked call _ hph (by simp) hst
        rw [hl] at hnil
        cases hnil
  · have hmem := Sys.mem_live hl
    have htask : t ∈ s.tasks := hlive ▸ hmem
    rcases At.sleeps_cases (hp.sound.shape.asleep t htask) with ho | ⟨next, hstage, hpc⟩
    · exact .operation htask ho
    · have hasleep := (h.awaits t hmem next hstage).unblocked hp hw hst hmem hstage
      have hpc : t.pc = .woken next := by
        rcases hpc with hpc | ⟨c, cur, hpc⟩
        · exact hpc
        · exact absurd hpc (hasleep c cur)
      refine .exits htask hpc (List.append_nil _).symm
        (hp.sound.announced.attachedBy_queue hlt (by rw [hw]; rfl)) ?_
      rw [hst]
      exact (SabState.of_mainTurn w.mainTurn_expect).1

theorem Sys.isSome_stepTask (engine : Engine) (s : Sys) (c : Nat) {t : Task}
    (h : t.pc.sleeps = false) : (s.stepTask engine c t).isSome = true := by
  cases hpc : t.pc with
  | window e => simp [stepTask, hpc]
  | report message kind caught => simp [stepTask, hpc]
  | storeLength off st next => simp [stepTask, hpc]
  | leaving => simp [stepTask, hpc]
  | storeState st next => cases next <;> simp [stepTask, hpc]
  | awaitLoad next =>
      simp only [stepTask, hpc]
      split
      · cases next <;> rfl
      · split <;> rfl
  | awaitBlock cur next =>
      simp only [stepTask, hpc]
      split
      · split <;> rfl
      · rfl
  | fetching | buffering _ | reading _ _ | parked _ _ _ | woken _ =>
      rw [hpc] at h
      cases h

/-- What is enabled is a step of the main thread's. -/
theorem Sys.Enabled.step (h : s.Enabled) (hs : Shape s) :
    ∃ a : Action, a.byMain = true ∧ (Sab.step engine s a).isSome = true := by
  by_cases hidle : s.current = .idle
  swap
  · refine ⟨.main, rfl, ?_⟩
    rw [Sab.step, stepMain]
    cases hc : s.current with
    | idle => exact absurd hc hidle
    | guard => rfl
    | run t =>
        obtain ⟨c, hctrl⟩ := hs.attached (by rw [hs.live_of_run hc]; simp)
        rw [hctrl]
        exact isSome_stepTask engine s c (hs.awake t hc)
  -- an invocation that sleeps
  have sleeper : ∀ {t : Task}, t ∈ s.tasks → ∃ i, s.awaiting i = some t := by
    intro t ht
    obtain ⟨i, hi⟩ := List.mem_iff_getElem?.mp ht
    refine ⟨i, ?_⟩
    rw [awaiting, hidle]
    exact hi
  cases h with
  | running h => exact absurd hidle h
  | @nudge q q' c hq _ _ _ =>
      refine ⟨.deliver, rfl, ?_⟩
      rw [Sab.step, deliver, hidle, hq]
      cases q with
      | nil => rfl
      | cons m q => cases m <;> rfl
  | @operation t ht ho =>
      obtain ⟨i, hi⟩ := sleeper ht
      cases hpc : t.pc with
      | fetching =>
          refine ⟨.fetchDone i (.rejected false ""), rfl, ?_⟩
          rw [Sab.step, fetchDone, hi]
          simp [hpc]
      | buffering resp =>
          refine ⟨.bufferDone i (.resolved []), rfl, ?_⟩
          rw [Sab.step, bufferDone, hi]
          simp [hpc]
      | reading resp first =>
          refine ⟨.readDone i .done, rfl, ?_⟩
          rw [Sab.step, readDone, hi]
          simp [hpc]
      | _ =>
          rw [hpc] at ho
          cases ho
  | @exits t next _ _ _ ht hpc _ _ _ =>
      obtain ⟨i, hi⟩ := sleeper ht
      refine ⟨.wake i, rfl, ?_⟩
      rw [Sab.step, wake, hi]
      simp [hpc]

end

/-! ## Guards that can be computed -/

instance (s : Sys) (a : Action) : Decidable (s.OnNewest a) :=
  match a with
  | .start c _ => inferInstanceAs (Decidable (c + 1 = s.backends))
  | .resume i =>
      inferInstanceAs (Decidable (∀ call ∈ s.suspended[i]?, call.chan + 1 = s.backends ∨
        (s.backend call.chan).ctrl.gen ≠ call.gen))
  | .construct _ | .close _ | .worker | .closing | .expire | .deliver | .main
    | .fetchDone _ _ | .timer _ | .bufferDone _ _ | .readDone _ _ | .wake _ => isTrue trivial

instance (engine : Engine) (s : Sys) (a : Action) : Decidable (s.Cleared engine a) :=
  match a with
  | .start c _ =>
      inferInstanceAs (Decidable (engine.waitAsync = true → ∀ t ∈ s.live,
        (∀ next, t.stage ≠ .awaiting next) ∨ t.pick.chan = c ∨ s.state t.pick.chan = .idle))
  | .construct _ | .resume _ | .close _ | .worker | .closing | .expire | .deliver | .main
    | .fetchDone _ _ | .timer _ | .bufferDone _ _ | .readDone _ _ | .wake _ => isTrue trivial

instance (s : Sys) (a : Action) : Decidable (s.Legible a) :=
  match a with
  | .main =>
      inferInstanceAs (Decidable (∀ t ∈ s.current.task, ∀ e ∈ t.pc.emits,
        (metaBytes e.info).length < 2 ^ 32))
  | .construct _ | .start _ _ | .resume _ | .close _ | .worker | .closing | .expire | .deliver
    | .fetchDone _ _ | .timer _ | .bufferDone _ _ | .readDone _ _ | .wake _ => isTrue trivial

instance (engine : Engine) (s : Sys) (a : Action) : Decidable (s.Attentive engine a) :=
  decidable_of_iff (s.Steady a ∧ s.Cleared engine a ∧ s.Legible a)
    ⟨fun ⟨h1, h2, h3⟩ ↦ ⟨h1, h2, h3⟩, fun h ↦ ⟨h.toSteady, h.cleared, h.legible⟩⟩

/-! ## One channel -/

/-- With one channel, an RPC finds no invocation waiting elsewhere. -/
theorem Waiting.cleared {engine : Engine} {s s' : Sys} {a : Action} (h : Waiting engine s)
    (hb : s.backends ≤ 1) (hm : Move engine s a s') : s.Cleared engine a := by
  cases hm with
  | worker hm =>
      cases hm with
      | @start c _ _ _ _ hlt _ =>
          intro _ t ht
          refine or_iff_not_imp_left.mpr fun hstage ↦ .inl ?_
          push Not at hstage
          obtain ⟨next, hstage⟩ := hstage
          have := (h.awaits t ht next hstage).known
          omega
      | _ => trivial
  | main hb _ _ => cases a <;> trivial

theorem waiting_of_single {engine : Engine} {s : Sys}
    (h : (system engine).Reachable (fun s a ↦ s.Single a ∧ s.Steady a ∧ s.Legible a) s) :
    Waiting engine s ∧ Paced s := by
  have hsteady : ∀ s, (system engine).Reachable (fun s a ↦ s.Single a ∧ s.Steady a ∧ s.Legible a) s →
      Paced s ∧ s.backends ≤ 1 := fun s h ↦
    paced_of_steady (h.mono fun _ _ ⟨h1, h2, _⟩ ↦ ⟨h1, h2⟩)
  refine ⟨?_, (hsteady s h).1⟩
  refine System.Reachable.invariant_of hsteady ?_ ?_ h
  · rintro s rfl
    exact .init
  · rintro s a s' ⟨hp, hb⟩ - hw ⟨-, hs, hlegible⟩ hstep
    have hm := Move.of_step hp.sound.shape hstep
    exact hw.move hp hm (hm.onNewest hb hp.sound.ledger)
      ⟨hs, hw.cleared hb hm, hlegible⟩

/-- While requests are read from the buffer that the worker is bound to, the worker of one
channel is never left waiting. -/
theorem unblocked_of_single {engine : Engine} {s : Sys}
    (h : (system engine).Reachable (fun s a ↦ s.Single a ∧ s.Steady a ∧ s.Legible a) s) :
    s.Unblocked :=
  (waiting_of_single h).1.unblocked (waiting_of_single h).2

/-- The worker sleeps on its STATE word. -/
def Sys.asleep (s : Sys) : Bool :=
  match s.worker with
  | .run call (.parked w) => s.state call.chan = w.expect
  | _ => false

/-- A stream is closed at its first chunk, and the next call sleeps; its nudge was dropped, as the
invocation of the stream has not come to its end. -/
def abandonedRun : List Action :=
  List.flatten [attachRun, [.start 0 { kind := .serverStream, url := "/rpc1" }],
    .replicate 5 .worker, [.deliver, .main, .fetchDone 0 (.resolved { status := 200 })],
    [.readDone 0 (.value [1, 2, 3])], .replicate 5 .main, [.worker, .worker],
    [.close 0, .closing, .closing], requestRun "/rpc2" none, [.worker, .worker, .deliver, .main]]

/-- The second call sleeps, and its nudge is gone. -/
def Sys.dropsNudge (s : Sys) : Bool :=
  s.asleep && (s.backend 0).gen = 2 && s.picks.length = 1 && s.queue.isEmpty

theorem unblocked_abandonedRun : ∃ s : Sys,
    (system v8).Reachable (fun s a ↦ s.Single a ∧ s.Steady a ∧ s.Legible a) s ∧
      s.dropsNudge = true ∧ s.Unblocked := by
  obtain ⟨s, hr, hw⟩ := (system v8).exists_reachable
    (fun s a ↦ s.Single a ∧ s.Steady a ∧ s.Legible a) abandonedRun Sys.dropsNudge rfl
    (by decide +kernel)
  exact ⟨s, hr, hw, unblocked_of_single hr⟩

/-- The worker sleeps, and there is nothing for the main thread to do. -/
def Sys.wedged (s : Sys) : Bool :=
  match s.current, s.queue, s.tasks with
  | .idle, [], [] => s.asleep
  | _, _, _ => false

theorem Sys.not_unblocked_of_wedged {s : Sys} (h : s.wedged = true) : ¬ s.Unblocked := by
  intro hu
  unfold wedged at h
  split at h
  swap
  · cases h
  rename_i hidle hqueue htasks
  unfold asleep at h
  split at h
  swap
  · cases h
  rename_i call w hw
  cases hu call w hw (by simpa using h) with
  | running hne => exact hne hidle
  | nudge hq _ _ _ =>
      rw [hqueue] at hq
      simp at hq
  | operation ht _ =>
      rw [htasks] at ht
      cases ht
  | exits ht _ _ _ _ =>
      rw [htasks] at ht
      cases ht

/-- Behind `staleRun` the second call ends, its announcement and its nudge still in the queue.
The third call is a stream that grows the data SAB again; before it posts its own nudge, the old
one lets `handleRpc` serve the second call's unary request to it. -/
def wedgedRun : List Action := List.flatten [
  staleRun,
  [.worker, .fetchDone 0 (.resolved { status := 200 }), .readDone 0 .done, .main, .main],
  .replicate 4 .worker,
  [.main, .start 0 { kind := .serverStream, url := "/rpc3", body := .replicate 8400 0 }],
  .replicate 6 .worker,
  [.deliver, .deliver, .main, .fetchDone 0 (.resolved { status := 200 }),
    .bufferDone 0 (.resolved []), .main, .main, .main, .main],
  .replicate 3 .worker,
  [.resume 0],
  .replicate 4 .worker,
  [.deliver, .deliver, .main]]

theorem not_always_unblocked : ¬ ∀ engine s,
    (system engine).Reachable (fun s a ↦ s.Single a ∧ Sys.Roomy a) s → s.Unblocked := by
  intro hall
  obtain ⟨s, hr, hw⟩ := (system v8).exists_reachable (fun s a ↦ s.Single a ∧ Sys.Roomy a)
    wedgedRun Sys.wedged rfl (by decide +kernel)
  exact s.not_unblocked_of_wedged hw (hall v8 s hr)

/-! ## Many channels -/

/-- A backend is constructed with the default data SAB, as `toChannel` does. -/
def Sys.Default : Action → Prop
  | .construct capacity => capacity = defaultDataBytes
  | _ => True

instance (a : Action) : Decidable (Sys.Default a) :=
  match a with
  | .construct capacity => inferInstanceAs (Decidable (capacity = defaultDataBytes))
  | .start _ _ | .resume _ | .close _ | .worker | .closing | .expire | .deliver | .main
    | .fetchDone _ _ | .timer _ | .bufferDone _ _ | .readDone _ _ | .wake _ => isTrue trivial

/-- Each RPC is served from the buffers of the channel that issued it, and the worker is never
left waiting. -/
structure Sys.Served (s : Sys) : Prop where
  unblocked : s.Unblocked
  serves : ∀ t c, s.current = .run t → t.stage = .serving → s.bridge.ctrl = some c →
    ∃ call w, s.worker.phase = some (call, .asking w) ∧ call.chan = c ∧
      t.pick.pending = some ⟨call.gen, call.request⟩ ∧ s.bridge.data = (s.backend c).data

theorem waiting_of_onNewest {engine : Engine} {s : Sys}
    (h : (system engine).Reachable (fun s a ↦ (Sys.Default a ∧ Sys.Untimed a) ∧ s.OnNewest a ∧
      s.Attentive engine a) s) : Waiting engine s ∧ Paced s := by
  refine @System.Reachable.invariant _ _ (system engine) _ (fun s ↦ Waiting engine s ∧ Paced s)
    ?_ ?_ s h
  · rintro s rfl
    exact ⟨.init, .init⟩
  · rintro s a s' ⟨hw, hp⟩ ⟨⟨-, hu⟩, hon, ha⟩ hstep
    have hm := Move.of_step hp.sound.shape hstep
    exact ⟨hw.move hp hm hon ha, hp.move hm hu hon ha.toSteady⟩

/-- While only the newest channel is used, with nothing left over on the older ones, the
channels do not disable each other. -/
theorem served_of_onNewest {engine : Engine} {s : Sys}
    (h : (system engine).Reachable (fun s a ↦ (Sys.Default a ∧ Sys.Untimed a) ∧ s.OnNewest a ∧
      s.Attentive engine a) s) : s.Served where
  unblocked := (waiting_of_onNewest h).1.unblocked (waiting_of_onNewest h).2
  serves _ _ hr hst hc := (waiting_of_onNewest h).2.writes hr hst hc

/-- Two channels are constructed and announced. -/
def twoChannels : List Action :=
  [.construct defaultDataBytes, .worker, .deliver, .construct defaultDataBytes, .worker, .deliver]

/-- The newer of two channels is used. -/
theorem served_newer : ∃ s : Sys,
    (system v8).Reachable (fun s a ↦ (Sys.Default a ∧ Sys.Untimed a) ∧ s.OnNewest a ∧
      s.Attentive v8 a) s ∧ s.asleep = true ∧ s.Served := by
  obtain ⟨s, hr, hw⟩ := (system v8).exists_reachable
    (fun s a ↦ (Sys.Default a ∧ Sys.Untimed a) ∧ s.OnNewest a ∧ s.Attentive v8 a)
    (twoChannels ++ .start 1 { kind := .unary, url := "/rpc" } :: .replicate 7 .worker)
    Sys.asleep rfl (by decide +kernel)
  exact ⟨s, hr, hw, served_of_onNewest hr⟩

/-- The older of two channels is used: its nudge finds the STATE of the newer one. -/
theorem not_always_served : ¬ ∀ engine s,
    (system engine).Reachable (fun _ a ↦ Sys.Default a ∧ Sys.Untimed a) s → s.Served := by
  intro hall
  obtain ⟨s, hr, hw⟩ := (system v8).exists_reachable
    (fun _ a ↦ Sys.Default a ∧ Sys.Untimed a)
    (List.flatten [twoChannels, [.start 0 { kind := .unary, url := "/rpc" }], .replicate 5 .worker,
      [.deliver, .main, .worker, .worker]]) Sys.wedged rfl (by decide +kernel)
  exact s.not_unblocked_of_wedged hw (hall v8 s hr).unblocked

end ConnectWeb.Sab
