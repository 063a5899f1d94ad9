import ConnectWeb.Sab.BridgeTurn

/-!
# Response isolation

The invariants of the preceding files together, and the first result about runs: with one
backend, and even with timeouts, a call consumes only what the invocation of `handleRpc`
wrote that read the call's own request.  The bridge checks no generation, so this takes a
discipline of the caller's: an RPC is started only when no earlier invocation can still
store an answer.
-/

namespace ConnectWeb.Sab

/-! ## The invariants together -/

/-- The state of the two threads. -/
structure Sound (s : Sys) : Prop where
  shape : Shape s
  ledger : Ledger s
  only : OnlyNewest s
  announced : Announced s
  exchange : Exchange s s.newest

theorem Exchange.init : Exchange {} 0 where
  unused _ _ := rfl
  old _ _ := rfl
  calm hr := absurd hr (Sys.not_requesting rfl)
  serving _ ht := by cases ht
  awaiting _ ht := by cases ht
  holding call hh := by
    rcases hh with hm | ⟨ph, hw, -⟩
    · cases hm
    · cases hw
  answered _ _ hw := by cases hw
  request hst := by cases hst
  posting _ hw := by cases hw

theorem Sound.init : Sound {} :=
  ⟨.init, .init, .ready rfl, .init, .init⟩

theorem Sound.move {engine : Engine} {s s' : Sys} {a : Action} (h : Sound s)
    (hm : Move engine s a s') (hu : s.Unwrapped a) (hn : s.OnNewest a) (hr : Sys.Roomy a)
    (ho : s.Orderly a) : Sound s' where
  shape := by
    cases hm with
    | worker hm => exact hm.shape h.shape
    | main _ _ hm => exact hm.shape h.shape
  ledger := hm.ledger hu h.ledger
  only := hm.onlyNewest hn h.only
  announced := hm.announced hr h.only h.announced
  exchange := hm.exchange ho hn h.shape h.ledger h.only h.announced h.exchange

/-! ## One backend -/

/-- One backend is constructed. -/
def Sys.OneBackend (s : Sys) : Action → Prop
  | .construct _ => s.backends = 0
  | _ => True

theorem Move.backends_le_one {engine : Engine} {s s' : Sys} {a : Action}
    (hm : Move engine s a s') (ha : s.OneBackend a) (h : s.backends ≤ 1) : s'.backends ≤ 1 := by
  cases hm with
  | worker hm =>
      cases hm with
      | construct _ _ =>
          have h0 : s.backends = 0 := ha
          change s.backends + 1 ≤ 1
          omega
      | call _ _ hm => cases hm <;> exact h
      | _ => exact h
  | main _ _ hm =>
      rw [hm.sameGens.backends]
      exact h

/-- With one backend, every call is on the newest channel. -/
theorem Move.onNewest {engine : Engine} {s s' : Sys} {a : Action} (hm : Move engine s a s')
    (hb : s.backends ≤ 1) (hl : Ledger s) : s.OnNewest a := by
  cases hm with
  | worker hm =>
      cases hm with
      | start _ _ hlt _ =>
          simp only [Sys.OnNewest]
          omega
      | resume _ _ hi =>
          intro call hi'
          have := hl.chan_lt (Sys.mem_calls_of_suspended (List.mem_of_getElem? hi'))
          exact .inl (by omega)
      | _ => trivial
  | main hmain _ _ => cases a <;> trivial

/-- Nothing is live before a backend is constructed. -/
theorem Sound.live_nil {s : Sys} (h : Sound s) (hb : s.backends = 0) : s.live = [] := by
  by_contra hne
  obtain ⟨c, hc⟩ := h.shape.attached hne
  have := (h.announced.ctrl_lt hc).1
  omega

/-! ## Guards that can be computed -/

instance (s : Sys) (a : Action) : Decidable (s.OneBackend a) := by
  cases a with
  | construct _ => exact inferInstanceAs (Decidable (s.backends = 0))
  | _ => exact isTrue trivial

instance (cur : Current) : Decidable (cur = .guard) :=
  match cur with
  | .guard => isTrue rfl
  | .idle | .run _ => isFalse nofun

instance (t : Task) : Decidable (t.stage = .serving) :=
  match t.stage with
  | .serving => isTrue rfl
  | .awaiting _ | .leaving => isFalse nofun

instance (t : Task) : Decidable (∀ next, t.stage ≠ .awaiting next) :=
  match t.stage with
  | .awaiting next => isFalse fun hn ↦ hn next rfl
  | .serving | .leaving => isTrue nofun

instance (s : Sys) (c : Nat) : Decidable (s.Calm c) :=
  inferInstanceAs (Decidable (∀ t ∈ s.live, t.stage ≠ .serving ∧ _))

instance (s : Sys) (c : Nat) : Decidable (s.Requesting c) :=
  match h : s.worker.phase with
  | some _ => decidable_of_iff _ (Sys.requesting_iff h).symm
  | none => isFalse (Sys.not_requesting h)

instance (q : Posted) : Decidable q.Sized :=
  inferInstanceAs (Decidable (_ ∧ _))

instance (s : Sys) (c : Nat) : Decidable (s.Pickable c) :=
  have : Decidable (∀ q, s.posted c = some q → q.Sized) :=
    inferInstanceAs (Decidable (∀ q ∈ s.posted c, q.Sized))
  decidable_of_iff (¬ s.Requesting c ∧ s.bridge.data = (s.backend c).data ∧ _)
    ⟨fun ⟨h1, h2, h3⟩ ↦ ⟨h1, h2, h3⟩, fun h ↦ ⟨h.posted, h.fresh, h.sized⟩⟩

instance (s : Sys) (call : Call) : Decidable (s.NoWrap call) :=
  inferInstanceAs (Decidable (∀ q ∈ s.posted call.chan, q.gen < call.gen + 2 ^ 32))

instance (s : Sys) (a : Action) : Decidable (s.Unwrapped a) := by
  cases a with
  | resume i | close i =>
      exact inferInstanceAs (Decidable (∀ call ∈ s.suspended[i]?, s.NoWrap call))
  | _ => exact isTrue trivial

/-- The discipline of the caller's, and the conditions of the bridge's reading a request. -/
def Sys.Disciplined (s : Sys) : Action → Prop
  | .construct capacity => metaZone + 4 < capacity
  | .start c _ => s.Calm c
  | .resume i | .close i => ∀ call, s.suspended[i]? = some call → s.NoWrap call
  | .main => s.current = .guard → ∀ c, s.bridge.busy = false → s.bridge.ctrl = some c →
      s.state c = .reqReady → s.Pickable c
  | _ => True

instance (s : Sys) (a : Action) : Decidable (s.Disciplined a) := by
  cases a with
  | construct capacity => exact inferInstanceAs (Decidable (metaZone + 4 < capacity))
  | start c _ => exact inferInstanceAs (Decidable (s.Calm c))
  | resume i | close i =>
      exact inferInstanceAs (Decidable (∀ call ∈ s.suspended[i]?, s.NoWrap call))
  | main =>
      have : Decidable (∀ c, s.bridge.busy = false → s.bridge.ctrl = some c →
          s.state c = .reqReady → s.Pickable c) :=
        decidable_of_iff (∀ c ∈ s.bridge.ctrl, s.bridge.busy = false → s.state c = .reqReady →
          s.Pickable c) ⟨fun h c hb hc ↦ h c hc hb, fun h c hc hb ↦ h c hb hc⟩
      exact inferInstanceAs (Decidable (s.current = .guard → _))
  | _ => exact isTrue trivial

/-- One backend, and the discipline. -/
theorem sound_of_one {engine : Engine} {s : Sys}
    (h : (system engine).Reachable (fun s a ↦ s.OneBackend a ∧ s.Disciplined a) s) :
    Sound s ∧ s.backends ≤ 1 := by
  refine @System.Reachable.invariant _ _ (system engine) _ (fun s ↦ Sound s ∧ s.backends ≤ 1)
    ?_ ?_ s h
  · rintro s rfl
    exact ⟨.init, Nat.zero_le _⟩
  · rintro s a s' ⟨h, hb⟩ ⟨hone, hd⟩ hstep
    have hm := Move.of_step h.shape hstep
    refine ⟨h.move hm ?_ (hm.onNewest hb h.ledger) ?_ ?_, hm.backends_le_one hone hb⟩
    · cases a <;> trivial
    · cases a <;> trivial
    · cases a with
      | construct capacity =>
          have h0 : s.backends = 0 := hone
          refine ⟨fun t ht ↦ ?_, fun c hc ↦ ?_⟩
          · rw [h.live_nil h0] at ht
            cases ht
          · omega
      | start c req => exact hd
      | main => exact hd
      | _ => trivial

/-! ## What a call consumes -/

/-- The places that a call takes from in its next step. -/
def Sys.taken (s : Sys) (call : Call) : Pc → List Cell
  | .wait _ =>
      match s.state call.chan with
      | .respChunk | .respEnd => [.state call.chan]
      | .respError => [.state call.chan, .data (s.backend call.chan).data]
      | _ => []
  | .loadStatus _ => [.status call.chan]
  | .readWindow => [.length call.chan, .data (s.backend call.chan).data]
  | _ => []

/-- Responses are isolated: what a call consumes was written by an invocation that read the
call's own request, and an invocation that is about to store anything over a request that is
up serves that request. -/
structure Sys.Isolated (s : Sys) : Prop where
  consumes : ∀ call pc, s.worker = .run call pc → s.taken call pc ≠ [] →
    ∃ p : Pick, p.Reads ⟨call.gen, call.request⟩ ∧
      ∀ cell ∈ s.taken call pc, ∃ t, s.writer cell = some t ∧ t.pick = p
  spares : ∀ t c, s.current = .run t → t.stage = .serving → s.bridge.ctrl = some c →
    s.state c = .reqReady → t.pick.pending = s.posted c

/-- What an engaged call takes is its answer. -/
theorem Sound.consumes {s : Sys} (h : Sound s) {call : Call} {pc : Pc}
    (hw : s.worker = .run call pc) (ht : s.taken call pc ≠ []) :
    ∃ p : Pick, p.Reads ⟨call.gen, call.request⟩ ∧
      ∀ cell ∈ s.taken call pc, ∃ t, s.writer cell = some t ∧ t.pick = p := by
  have hphase : s.worker.phase = some (call, pc.phase) := by rw [hw]; rfl
  have hengaged : pc.phase.engaged = true := by
    cases pc <;> first
      | rfl
      | exact absurd rfl ht
  have hchan : call.chan = s.newest := h.only.chan hphase (Phase.not_retires_of_engaged hengaged)
  have hcur := h.ledger.current_of_engaged hphase hengaged
  -- a call that is reading has seen a chunk
  have hread : pc.phase.holds = true → s.state s.newest = .respChunk := fun hh ↦
    h.exchange.holding call (.inr ⟨_, hphase, hh⟩) hchan hcur
  have hans : (s.state s.newest).answer = true := by
    cases pc with
    | wait w =>
        rw [Sys.taken, hchan] at ht
        cases hst : s.state s.newest <;> rw [hst] at ht <;> first
          | rfl
          | exact absurd rfl ht
    | loadStatus _ | readWindow =>
        rw [hread rfl]
        rfl
    | _ => exact absurd rfl ht
  obtain ⟨p, off, next, -, hr, hstate, hshows, ⟨-, hlen⟩, -⟩ :=
    h.exchange.answered call pc.phase hphase hchan hengaged hans
  refine ⟨p, hr, ?_⟩
  cases pc with
  | wait w =>
      intro cell hcell
      rw [Sys.taken, hchan] at hcell
      cases hst : s.state s.newest <;> rw [hst] at hcell hshows
      case respChunk | respEnd =>
        cases List.mem_singleton.mp hcell
        exact hstate
      case respError =>
        obtain ⟨-, t, -, -, -, hwt, hp, -⟩ := hshows
        rcases List.mem_cons.mp hcell with rfl | hcell
        · exact hstate
        · cases List.mem_singleton.mp hcell
          exact ⟨t, hwt, hp⟩
      all_goals cases hcell
  | loadStatus _ =>
      intro cell hcell
      rw [Sys.taken, hchan] at hcell
      rw [hread rfl] at hshows
      obtain ⟨t, -, -, hwt, hp, -⟩ := hshows
      cases List.mem_singleton.mp hcell
      exact ⟨t, hwt, hp⟩
  | readWindow =>
      intro cell hcell
      rw [Sys.taken, hchan] at hcell
      rw [hread rfl] at hshows
      obtain ⟨t, -, hwt, -, hp, -⟩ := hshows
      rcases List.mem_cons.mp hcell with rfl | hcell
      · exact hlen
      · cases List.mem_singleton.mp hcell
        exact ⟨t, hwt, hp⟩
  | _ => exact absurd rfl ht

theorem Sound.isolated {s : Sys} (h : Sound s) : s.Isolated where
  consumes _ _ hw ht := h.consumes hw ht
  spares := by
    intro t c hr hst hc _
    have hmem := h.shape.mem_live_of_run hr
    obtain ⟨hb, -⟩ := h.exchange.serving t hmem hst
    cases hc.symm.trans hb.attached
    obtain ⟨q, hp, hq, -⟩ := hb.current
    rw [hp, hq]

/-- In the runs that keep the discipline, responses are isolated. -/
theorem isolated_of_disciplined {engine : Engine} {s : Sys}
    (h : (system engine).Reachable (fun s a ↦ s.OneBackend a ∧ s.Disciplined a) s) : s.Isolated :=
  (sound_of_one h).1.isolated

/-! ## Two runs -/

/-- One backend announces its buffers. -/
def attachRun : List Action := [.construct 8192, .worker, .deliver]

/-- A request is written, and the worker is on its way to sleep. -/
def requestRun (url : String) (timeout : Option Timeout) : List Action :=
  .start 0 { kind := .unary, url, timeout } :: .replicate 5 .worker

/-- An invocation takes its request, and its fetch fails: STATE is RESP_ERROR. -/
def failedRun : List Action :=
  [.deliver, .main, .fetchDone 0 (.rejected false "Failed to fetch"), .main, .main, .main]

/-- The worker is about to take an error out of RESP_ERROR: its call asked for the URL `asked`,
and the invocation that stored STATE was serving a request for `served`. -/
def Sys.takesError (s : Sys) (asked served : String) : Bool :=
  match s.worker with
  | .run call (.wait _) => s.state call.chan = .respError && call.request.url = asked &&
      (s.writer (.state call.chan)).any fun t ↦ jsText (t.pick.header.get? "url") = served
  | _ => false

/-- The first call times out while its fetch is outstanding, and the fetch fails before the
second call is started. -/
theorem isolated_lateRun : ∃ s : Sys,
    (system v8).Reachable (fun s a ↦ s.OneBackend a ∧ s.Disciplined a) s ∧
      s.picks.length = 2 ∧ s.takesError "/rpc2" "/rpc2" = true ∧ s.Isolated := by
  obtain ⟨s, hr, hs⟩ := (system v8).exists_reachable
    (fun s a ↦ s.OneBackend a ∧ s.Disciplined a)
    (attachRun ++ requestRun "/rpc1" (some { mantissa := 1, scale := 0 }) ++
      [.deliver, .main, .worker, .worker, .expire, .fetchDone 0 (.rejected false "Failed to fetch"),
        .main, .main, .main, .main] ++ requestRun "/rpc2" none ++ failedRun)
    (fun s ↦ s.picks.length = 2 && s.takesError "/rpc2" "/rpc2") rfl (by decide +kernel)
  simp only [Bool.and_eq_true, decide_eq_true_eq] at hs
  exact ⟨s, hr, hs.1, hs.2, isolated_of_disciplined hr⟩

theorem Pick.url_of_reads {p : Pick} {q : Posted} (h : p.Reads q) :
    jsText (p.header.get? "url") = q.request.url := by
  rw [Pick.header, h]
  rfl

/-- An error that was produced for another request is not isolated. -/
theorem Sys.not_isolated_of_takesError {s : Sys} {asked served : String}
    (h : s.takesError asked served = true) (hne : asked ≠ served) : ¬ s.Isolated := by
  intro hi
  unfold takesError at h
  split at h
  swap
  · cases h
  rename_i call w hw
  simp only [Bool.and_eq_true, decide_eq_true_eq, Option.any_eq_true] at h
  obtain ⟨⟨hst, hasked⟩, t, ht, hserved⟩ := h
  have htaken : s.taken call (.wait w) = [.state call.chan, .data (s.backend call.chan).data] := by
    rw [taken, hst]
  obtain ⟨p, hr, hp⟩ := hi.consumes call _ hw (by rw [htaken]; nofun)
  obtain ⟨t', ht', rfl⟩ := hp (.state call.chan) (by rw [htaken]; exact List.mem_cons_self ..)
  cases ht.symm.trans ht'
  refine hne ?_
  rw [← hasked, ← hserved]
  exact (Pick.url_of_reads hr).symm

/-- The first call times out while its fetch is outstanding; the failure of that fetch is
reported to the second call. -/
theorem not_always_isolated : ¬ ∀ engine s,
    (system engine).Reachable (fun s a ↦ s.OneBackend a) s → s.Isolated := by
  intro hall
  obtain ⟨s, hr, htakes⟩ := (system v8).exists_reachable
    (fun s a ↦ s.OneBackend a)
    (attachRun ++ requestRun "/rpc1" (some { mantissa := 1, scale := 0 }) ++
      [.deliver, .main, .worker, .worker, .expire] ++ requestRun "/rpc2" none ++
      [.worker, .fetchDone 0 (.rejected false "Failed to fetch"), .main, .main, .main, .worker])
    (fun s ↦ s.takesError "/rpc2" "/rpc1") rfl (by decide +kernel)
  exact s.not_isolated_of_takesError htakes (by decide) (hall v8 s hr)

end ConnectWeb.Sab
