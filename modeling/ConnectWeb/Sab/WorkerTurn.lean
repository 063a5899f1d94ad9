import ConnectWeb.Sab.Exchange

/-!
# The worker's steps keep the exchange

The worker stores STATE at four places.  Whenever it does, the call that stores is the only
one of its channel whose request is the last one stored, and the ack of a chunk or a window
finds the chunk still shown.
-/

namespace ConnectWeb.Sab

theorem Task.wake_of_serving {c : Nat} {t : Task} (h : t.stage = .serving) : t.wake c = t := by
  refine Task.wake_eq_self fun cur next hpc ↦ ?_
  rw [Task.stage, hpc] at h
  cases h

/-! ## Stores of STATE -/

namespace Exchange

variable {s s' : Sys} {c c0 : Nat} {st0 : SabState}

/-- What is live behind a store of the worker's was live before it, but for the wake-up. -/
theorem live_of_store (hs : Shape s) (hk : SameShared (s.storeByWorker c0 st0) s') {t : Task}
    (ht : t ∈ s'.live) :
    ∃ t0 ∈ s.live, t0.pick = t.pick ∧ t0.stage = t.stage ∧ (t.stage = .serving → t0 = t) := by
  rw [hk.live, hs.live_storeByWorker] at ht
  obtain ⟨t0, ht0, rfl⟩ := List.mem_map.mp ht
  refine ⟨t0, ht0, (Task.pick_wake ..).symm, (Task.stage_wake ..).symm, fun h ↦ ?_⟩
  rw [Task.stage_wake] at h
  exact (Task.wake_of_serving h).symm

theorem bound_of_store (hk : SameShared (s.storeByWorker c0 st0) s') {p : Pick}
    (hb : s.Bound c p) : s'.Bound c p :=
  hk.bound (hb.storeByWorker s c0 st0)

/-- The worker stores STATE into the channel. -/
theorem store (h : Exchange s c) (hs : Shape s) (hk : SameShared (s.storeByWorker c st0) s')
    (hc : c < s.backends) (ha : st0.answer = false)
    (hreq : s'.Requesting c → s.Requesting c ∧ st0 = .idle)
    (hack : st0 = .chunkAck → s.state c = .respChunk ∧ ¬ s.Requesting c)
    (hhold : ∀ call, s'.Holding call → call.chan = c → ¬ s.Current call)
    (hready : st0 = .reqReady → ∃ q, s.posted c = some q ∧ s.Carries c q)
    (hpost : ∀ call, s'.worker.phase = some (call, .posting) → call.chan = c →
      s.worker.phase = some (call, .posting)) : Exchange s' c := by
  have hstate : ∀ c', s'.state c' = if c' = c then st0 else s.state c' := fun c' ↦
    (hk.state c').trans (Sys.state_storeByWorker s c c' st0)
  have hself : s'.state c = st0 := (hstate c).trans (if_pos rfl)
  have hother : ∀ c', c' ≠ c → s'.state c' = s.state c' := fun c' hne ↦
    (hstate c').trans (if_neg hne)
  refine ⟨?_, ?_, ?_, ?_, ?_, ?_, ?_, ?_, ?_⟩
  · intro c' hle
    have hle' : s.backends ≤ c' := hk.backends ▸ hle
    rw [hother c' (by omega)]
    exact h.unused c' hle'
  · intro c' hne
    rw [hother c' hne]
    exact h.old c' hne
  · intro hr t ht
    obtain ⟨hr, rfl⟩ := hreq hr
    obtain ⟨t0, ht0, -, hst, -⟩ := live_of_store hs hk ht
    refine ⟨hst ▸ (h.calm hr t0 ht0).1, fun hst' ↦ ?_⟩
    rw [hself] at hst'
    cases hst'
  · intro t ht hst
    obtain ⟨t0, ht0, -, -, heq⟩ := live_of_store hs hk ht
    cases heq hst
    have hserv := h.serving t ht0 hst
    refine ⟨bound_of_store hk hserv.bound, hserv.suits, by rw [hself]; exact ha, ?_⟩
    exact hk.progress.mpr (hserv.progress.storeByWorker s c st0)
  · intro t ht next hst hi hr hn
    obtain ⟨t0, ht0, hp, hst0, -⟩ := live_of_store hs hk ht
    rw [hself] at hi hr
    have hack' : st0 = .chunkAck := by
      cases st0 <;> first
        | rfl
        | exact absurd rfl hi
        | exact absurd rfl hr
        | cases ha
    obtain ⟨hshown, hn0⟩ := hack hack'
    obtain ⟨hb, hal⟩ := h.awaiting t0 ht0 next (hst0.trans hst) (by rw [hshown]; nofun)
      (by rw [hshown]; nofun) hn0
    rw [hp] at hb hal
    exact ⟨bound_of_store hk hb, hal⟩
  · intro call hh hc' hcur
    refine absurd ?_ (hhold call hh hc')
    rwa [Sys.Current, hk.posted] at hcur
  · intro call ph _ _ _ ha'
    rw [hself, ha] at ha'
    cases ha'
  · intro hst _
    rw [hself] at hst
    obtain ⟨q, hq, hcar⟩ := hready hst
    refine .inr ⟨q, ?_, hk.carries.mpr ((Sys.carries_storeByWorker s c st0).mpr hcar)⟩
    rw [hk.posted]
    exact hq
  · intro call hw hc'
    exact hk.carries.mpr ((Sys.carries_storeByWorker s c st0).mpr
      (h.posting call (hpost call hw hc') hc'))

/-- The worker stores STATE into another channel. -/
theorem store_elsewhere (h : Exchange s c) (hs : Shape s)
    (hk : SameShared (s.storeByWorker c0 st0) s') (hc : c0 ≠ c) (hlt : c0 < s.backends)
    (ht0 : st0.mainTurn = false) (hw : s'.worker = s.worker)
    (hsus : s'.suspended = s.suspended) : Exchange s' c := by
  have hstate : ∀ c', s'.state c' = if c' = c0 then st0 else s.state c' := fun c' ↦
    (hk.state c').trans (Sys.state_storeByWorker s c0 c' st0)
  have hself : s'.state c = s.state c := (hstate c).trans (if_neg hc.symm)
  have hreq : s'.Requesting c ↔ s.Requesting c := by rw [Sys.Requesting, Sys.Requesting, hw]
  refine ⟨?_, ?_, ?_, ?_, ?_, ?_, ?_, ?_, ?_⟩
  · intro c' hle
    have hle' : s.backends ≤ c' := hk.backends ▸ hle
    rw [hstate, if_neg (by omega)]
    exact h.unused c' hle'
  · intro c' hne
    rw [hstate]
    split
    · exact ht0
    · exact h.old c' hne
  · intro hr t ht
    obtain ⟨t0, ht0, -, hst, -⟩ := live_of_store hs hk ht
    rw [hself, ← hst]
    exact h.calm (hreq.mp hr) t0 ht0
  · intro t ht hst
    obtain ⟨t0, ht0, -, -, heq⟩ := live_of_store hs hk ht
    cases heq hst
    have hserv := h.serving t ht0 hst
    refine ⟨bound_of_store hk hserv.bound, hserv.suits, by rw [hself]; exact hserv.due, ?_⟩
    exact hk.progress.mpr (hserv.progress.storeByWorker s c0 st0)
  · intro t ht next hst hi hr hn
    obtain ⟨t0, ht0, hp, hst0, -⟩ := live_of_store hs hk ht
    rw [hself] at hi hr
    obtain ⟨hb, hal⟩ := h.awaiting t0 ht0 next (hst0.trans hst) hi hr fun hn' ↦ hn (hreq.mpr hn')
    rw [hp] at hb hal
    exact ⟨bound_of_store hk hb, hal⟩
  · intro call hh hc' hcur
    rw [hself]
    refine h.holding call ?_ hc' ?_
    · rwa [Sys.Holding, hw, hsus] at hh
    · rwa [Sys.Current, hk.posted] at hcur
  · intro call ph hw' hc' he ha
    rw [hw] at hw'
    rw [hself] at ha
    obtain ⟨p, off, next, h1, h2, ⟨t, h3, h4⟩, h5, h6, h7⟩ := h.answered call ph hw' hc' he ha
    refine ⟨p, off, next, hk.answer.mpr ⟨h1, h2, ⟨t, ?_, h4⟩, ?_, ?_, ?_⟩⟩
    · rwa [Sys.writer_storeByWorker s c0 st0 (by rintro heq; cases heq; exact hc rfl)]
    · rw [Sys.shows_storeByWorker, Sys.state_storeByWorker, if_neg hc.symm]
      exact h5
    · exact (Sys.measures_storeByWorker s c0 st0).mpr h6
    · exact h7.storeByWorker s c0 st0 hs
  · intro hst hn
    rw [hself] at hst
    rcases h.request hst fun hn' ↦ hn (hreq.mpr hn') with ⟨t, ht, hserv⟩ | ⟨q, hq, hcar⟩
    · refine .inl ⟨t, ?_, hserv⟩
      rw [hk.live, hs.live_storeByWorker]
      exact List.mem_map.mpr ⟨t, ht, Task.wake_of_serving hserv⟩
    · refine .inr ⟨q, ?_, hk.carries.mpr ((Sys.carries_storeByWorker s c0 st0).mpr hcar)⟩
      rw [hk.posted]
      exact hq
  · intro call hw' hc'
    rw [hw] at hw'
    exact hk.carries.mpr ((Sys.carries_storeByWorker s c0 st0).mpr (h.posting call hw' hc'))

end Exchange

/-! ## The steps -/

theorem afterWait_holds {call : Call} {w : Wait} {st : SabState} {d : Region}
    (h : (afterWait call w st d).2.phase.holds = true) :
    st = .respChunk ∨ st = .respEnd ∧ call.request.kind = .unary := by
  unfold afterWait at h
  split at h
  all_goals first
    | exact .inl rfl
    | exact .inr ⟨rfl, ‹_›⟩
    | cases h

theorem afterWait_not_requests (call : Call) (w : Wait) (st : SabState) (d : Region) :
    (afterWait call w st d).2.phase.requests = false := by
  rcases afterWait_phase call w st d with h | ⟨o, h⟩ <;> rw [h] <;> rfl

/-- Beside a call whose own request is the last one stored, no suspended call is current. -/
theorem Ledger.not_current_suspended {s : Sys} (h : Ledger s) {call call0 : Call} {ph : Phase}
    (hw : s.worker.phase = some (call, ph)) (hcur : s.Current call) (hm : call0 ∈ s.suspended)
    (hc : call0.chan = call.chan) : ¬ s.Current call0 := by
  exact hcur.not_of_key_ne hc (h.suspended_ne_running hw hm)

theorem state_attachData (s : Sys) (c capacity c' : Nat) :
    (s.attachData c capacity).state c' = s.state c' := by
  by_cases h : c' = c
  · subst h
    simp [Sys.state, Sys.attachData, Sys.setBackend]
  · simp [Sys.state, Sys.attachData, Sys.setBackend, h]

namespace CallMove

variable {s s' : Sys} {call : Call} {pc : Pc} {c : Nat}

/-- A store of STATE by the running call. -/
theorem exchange_of_store {st0 : SabState} (h : Exchange s c) (hs : Shape s) (hl : Ledger s)
    (hw : s.worker = .run call pc) (hchan : call.chan = c) (hc : c < s.backends)
    (hk : SameShared (s.storeByWorker c st0) s') (hsus : s'.suspended = s.suspended)
    (hcur : s.Current call) (ha : st0.answer = false)
    (hph : ∀ call0 ph, s'.worker.phase = some (call0, ph) →
      ph.requests = false ∧ ph.holds = false)
    (hack : st0 = .chunkAck → s.state c = .respChunk ∧ pc.phase.requests = false)
    (hready : st0 = .reqReady → pc.phase = .posting) : Exchange s' c := by
  have hphase : s.worker.phase = some (call, pc.phase) := by rw [hw]; rfl
  refine h.store hs hk hc ha ?_ ?_ ?_ ?_ ?_
  · rintro ⟨call0, ph, hw0, -, hr⟩
    rw [(hph call0 ph hw0).1] at hr
    cases hr
  · intro hst
    refine ⟨(hack hst).1, fun hr ↦ ?_⟩
    have := ((Sys.requesting_iff hphase).mp hr).2
    rw [(hack hst).2] at this
    cases this
  · rintro call0 (hm | ⟨ph, hw0, hh⟩) hc0
    · exact hl.not_current_suspended hphase hcur (hsus ▸ hm) (hc0.trans hchan.symm)
    · rw [(hph call0 ph hw0).2] at hh
      cases hh
  · intro hst
    refine ⟨_, hchan ▸ hcur, h.posting call ?_ hchan⟩
    rw [hphase, hready hst]
  · intro call0 hw0
    cases (hph call0 _ hw0).1

/-- A step of the running call while it writes its request, when nobody serves or waits. -/
theorem exchange_of_writing {pc' : Pc} (h : Exchange s c) (hw : s.worker = .run call pc)
    (hchan : call.chan = c) (hr : pc.phase.requests = true) (hw' : s'.worker = .run call pc')
    (hr' : pc'.phase.requests = true) (hholds : pc'.phase.holds = false)
    (hb : s'.backends = s.backends) (hstate : ∀ c', s'.state c' = s.state c')
    (hlive : s'.live = s.live) (hsus : s'.suspended = s.suspended)
    (hcur : ∀ call0 ∈ s.suspended, call0.chan = c → s'.Current call0 → s.Current call0)
    (hpost : pc'.phase = .posting → s'.Carries c ⟨call.gen, call.request⟩) : Exchange s' c := by
  have hphase : s.worker.phase = some (call, pc.phase) := by rw [hw]; rfl
  have hphase' : s'.worker.phase = some (call, pc'.phase) := by rw [hw']; rfl
  refine h.requesting hb hstate hlive ⟨call, _, hphase, hchan, hr⟩ ⟨call, _, hphase', hchan, hr'⟩
    ?_ ?_
  · rintro call0 (hm | ⟨ph, hw0, hh⟩) hc0 hcur0
    · rw [hsus] at hm
      exact ⟨.inl hm, hcur call0 hm hc0 hcur0⟩
    · rw [hphase'] at hw0
      cases hw0
      rw [hholds] at hh
      cases hh
  · intro call0 hw0 _
    rw [hphase', Option.some.injEq, Prod.mk.injEq] at hw0
    obtain ⟨rfl, hpc'⟩ := hw0
    exact hpost hpc'

theorem exchange (hm : CallMove s call pc s') (hw : s.worker = .run call pc)
    (hc : c + 1 = s.backends) (hs : Shape s) (hl : Ledger s) (hn : OnlyNewest s)
    (ha : Announced s) (h : Exchange s c) : Exchange s' c := by
  have hphase : s.worker.phase = some (call, pc.phase) := by rw [hw]; rfl
  have newest : pc.phase.retires = false → call.chan = c := by
    intro hph
    rcases hn call pc.phase hphase with hn | ⟨hph', -⟩
    · omega
    · rw [hph] at hph'
      cases hph'
  have hlt : c < s.backends := by omega
  have same : call.chan = call.chan ∧ call.gen = call.gen ∧ call.request = call.request :=
    ⟨rfl, rfl, rfl⟩
  -- behind the store of GEN, and until it retires, the call is the current one
  have hrun := hl.running call pc.phase hphase
  -- what a call has written of its request stays behind the stores of its control words
  have carries : pc.phase = .posting → call.chan = c → ∀ f : Control → Control,
      (s.setCtrl call.chan f).Carries c ⟨call.gen, call.request⟩ := by
    intro hpc hchan f
    have hcar := h.posting call (hpc ▸ hphase) hchan
    rw [Sys.Carries, Sys.region] at hcar ⊢
    rw [Sys.data_setCtrl]
    exact hcar
  cases hm with
  | @grow capacity _ =>
      exact exchange_of_writing h hw (newest rfl) rfl rfl rfl rfl rfl
        (state_attachData s call.chan capacity) rfl rfl (fun _ _ _ hcur ↦ hcur)
        fun h ↦ (by cases h)
  | announce =>
      exact exchange_of_writing h hw (newest rfl) rfl rfl rfl rfl rfl (fun _ ↦ rfl) rfl rfl
        (fun _ _ _ hcur ↦ hcur) fun h ↦ (by cases h)
  | @marshal r hr =>
      have hchan := newest rfl
      refine exchange_of_writing h hw hchan rfl rfl rfl rfl rfl (fun c' ↦ ?_) rfl rfl
        (fun call0 hm hc0 hcur ↦ ?_) fun _ ↦ ?_
      · rw [Sys.state, Sys.backend_marshalled]
        exact Sys.state_setCtrl s call.chan c' _ fun _ ↦ rfl
      · -- the request has a generation of its own
        have hown : (s.marshalled call r).Current call := Function.update_self ..
        exact absurd hcur (hown.not_of_key_ne (hc0.trans hchan.symm)
          (hl.suspended_ne_running hphase hm))
      · obtain ⟨r', hr', -, hholds⟩ := writeRequest_of_fits (ha.fits call _ hw (.inl rfl))
        cases hr.symm.trans hr'
        have hreg : (s.marshalled call r).region c = r := by
          rw [Sys.region, Sys.backend_marshalled, Sys.data_setCtrl, ← hchan]
          exact Function.update_self ..
        rw [Sys.Carries, hreg]
        exact hholds
  | unfit hr =>
      obtain ⟨r', hr', -⟩ := writeRequest_of_fits (ha.fits call _ hw (.inl rfl))
      cases hr.symm.trans hr'
  | @storeLength off =>
      refine exchange_of_writing h hw (newest rfl) rfl rfl rfl rfl rfl (fun c' ↦ ?_) rfl rfl
        (fun _ _ _ hcur ↦ hcur) fun _ ↦ carries rfl (newest rfl) fun ctrl ↦
          { ctrl with length := toInt32 off }
      exact Sys.state_setCtrl s call.chan c' (fun ctrl ↦ { ctrl with length := toInt32 off })
        fun _ ↦ rfl
  | storeSeq =>
      refine exchange_of_writing h hw (newest rfl) rfl rfl rfl rfl rfl (fun c' ↦ ?_) rfl rfl
        (fun _ _ _ hcur ↦ hcur) fun _ ↦ carries rfl (newest rfl) fun ctrl ↦ { ctrl with seq := 0 }
      exact Sys.state_setCtrl s call.chan c' (fun ctrl ↦ { ctrl with seq := 0 }) fun _ ↦ rfl
  | storeReady =>
      have hchan := newest rfl
      rw [hchan]
      refine exchange_of_store h hs hl hw hchan hlt (.of_eq rfl rfl rfl rfl rfl rfl rfl) rfl hrun
        rfl ?_ (by simp) fun _ ↦ rfl
      rintro call0 ph hw0
      cases hw0
      exact ⟨rfl, rfl⟩
  | nudge | due _ | park _ | notEqual _ =>
      exact h.goto (.of_eq rfl rfl rfl rfl rfl rfl rfl) hw rfl same rfl rfl rfl
        (fun h ↦ (by cases h)) fun _ ↦ rfl
  | @answered w hst =>
      refine h.goto (.of_eq rfl rfl rfl rfl rfl rfl rfl) hw rfl (afterWait_call ..) rfl rfl
        (afterWait_not_requests ..) ?_ fun _ ↦ rfl
      intro hh hchan _
      rcases afterWait_holds hh with hst' | ⟨hst', hk⟩
      · exact hchan ▸ hst'
      · -- the end of a stream answers no unary call
        rw [hchan] at hst'
        obtain ⟨p, off, next, hp, -, -, hshow, -⟩ := h.answered call _ hphase hchan rfl
          (by rw [hst']; rfl)
        rw [hst'] at hshow
        have hkind := hshow.2.2
        rw [Pick.kind, hp, Option.map_some, hk] at hkind
        cases hkind
  | @loadStatus chunk call' hcall =>
      subst hcall
      refine h.goto (.of_eq rfl rfl rfl rfl rfl rfl rfl) hw rfl same rfl rfl ?_ ?_ fun _ ↦ rfl
      · cases chunk <;> rfl
      · exact fun _ hchan hcur ↦ h.holding call (.inr ⟨_, hphase, rfl⟩) hchan hcur
  | malformed _ | stale _ | resets _ =>
      exact h.goto (.of_eq rfl rfl rfl rfl rfl rfl rfl) hw rfl same rfl rfl rfl
        (fun h ↦ (by cases h)) fun h ↦ (by cases h)
  | more ht =>
      exact h.goto (.of_eq rfl rfl rfl rfl rfl rfl rfl) hw rfl (takeWindow_call (.inl ht)) rfl rfl
        rfl (fun _ hchan hcur ↦ h.holding call (.inr ⟨_, hphase, rfl⟩) hchan hcur)
        fun h ↦ (by cases h)
  | complete _ ht =>
      exact h.goto (.of_eq rfl rfl rfl rfl rfl rfl rfl) hw rfl (takeWindow_call (.inr ht)) rfl rfl
        rfl (fun h ↦ (by cases h)) fun h ↦ (by cases h)
  | @yield call' _ ht =>
      obtain ⟨hchan', hgen', hreq'⟩ := takeWindow_call (.inr ht)
      refine h.ready (.of_eq rfl rfl rfl rfl rfl rfl rfl) ?_ rfl ?_
      · rw [Sys.requesting_iff hphase]
        rintro ⟨-, hr⟩
        cases hr
      · intro call0 hm hc0 hcur
        rcases List.mem_append.mp hm with hm | hm
        · exact h.holding call0 (.inl hm) hc0 hcur
        · cases List.mem_singleton.mp hm
          exact h.holding call (.inr ⟨_, hphase, rfl⟩) (newest rfl) hrun
  | ackWindow | ackChunk =>
      have hchan := newest rfl
      rw [hchan]
      refine exchange_of_store h hs hl hw hchan hlt (.of_eq rfl rfl rfl rfl rfl rfl rfl) rfl hrun
        rfl ?_ (fun _ ↦ ⟨?_, rfl⟩) (by simp)
      · rintro call0 ph hw0
        cases hw0
        exact ⟨rfl, rfl⟩
      · exact h.holding call (.inr ⟨_, hphase, rfl⟩) hchan hrun
  | current hg =>
      refine h.goto (.of_eq rfl rfl rfl rfl rfl rfl rfl) hw rfl same rfl rfl rfl ?_
        fun h ↦ (by cases h)
      exact fun _ hchan hcur ↦ h.holding call (.inr ⟨_, hphase, rfl⟩) hchan hcur
  | keeps _ =>
      refine h.ready (.of_eq rfl rfl rfl rfl rfl rfl rfl) ?_ rfl
        fun call0 hm ↦ h.holding call0 (.inl hm)
      rw [Sys.requesting_iff hphase]
      rintro ⟨-, hr⟩
      cases hr
  | resetStore =>
      have hchan := newest rfl
      rw [hchan]
      refine exchange_of_store h hs hl hw hchan hlt (.of_eq rfl rfl rfl rfl rfl rfl rfl) rfl hrun
        rfl ?_ (by simp) (by simp)
      rintro call0 ph hw0
      cases hw0

end CallMove

theorem Sys.newest_add_one {s : Sys} {c : Nat} (h : c < s.backends) :
    s.newest + 1 = s.backends := by
  rw [newest]
  omega

theorem Sys.newest_eq_zero {s : Sys} (hb : s.backends ≤ 1) : s.newest = 0 := by
  rw [newest]
  omega

/-- The channel of a call that is not over. -/
theorem OnlyNewest.chan {s : Sys} (h : OnlyNewest s) {call : Call} {ph : Phase}
    (hw : s.worker.phase = some (call, ph)) (hph : ph.retires = false) : call.chan = s.newest := by
  rcases h call ph hw with hn | ⟨hr, -⟩
  · rw [Sys.newest]
    omega
  · rw [hph] at hr
    cases hr

/-- A new channel is idle. -/
theorem Exchange.construct {s : Sys} {capacity : Nat} (ho : s.Orderly (.construct capacity))
    (hl : Ledger s) (h : Exchange s s.newest) :
    Exchange { { s with backends := s.backends + 1 }.attachData s.backends capacity with
      worker := .attaching s.backends s.sabs } s.backends := by
  obtain ⟨hserving, hquiet⟩ := ho
  have hstate : ∀ c', Sys.state { { s with backends := s.backends + 1 }.attachData s.backends
      capacity with worker := .attaching s.backends s.sabs } c' = s.state c' :=
    state_attachData { s with backends := s.backends + 1 } s.backends capacity
  have hidle := h.unused s.backends le_rfl
  refine ⟨?_, ?_, ?_, ?_, ?_, ?_, ?_, ?_, ?_⟩
  · intro c' hle
    rw [hstate]
    exact h.unused c' (Nat.le_of_succ_le hle)
  · intro c' hne
    rw [hstate]
    by_cases hc : c' + 1 = s.backends
    · exact hquiet c' hc
    · refine h.old c' ?_
      rw [Sys.newest]
      omega
  · exact fun hr ↦ absurd hr (Sys.not_requesting rfl)
  · exact fun t ht hst ↦ absurd hst (hserving t ht)
  · intro t _ next _ hi
    rw [hstate, hidle] at hi
    exact absurd rfl hi
  · rintro call (hm | ⟨ph, hw, -⟩) hc
    · exact absurd hc (hl.chan_lt (Sys.mem_calls_of_suspended hm)).ne
    · cases hw
  · intro call ph hw
    cases hw
  · intro hst
    rw [hstate, hidle] at hst
    cases hst
  · intro call hw
    cases hw

theorem WorkerMove.exchange {s s' : Sys} {a : Action} (hm : WorkerMove s a s')
    (ho : s.Orderly a) (hr : s.OnNewest a) (hs : Shape s) (hl : Ledger s) (hn : OnlyNewest s)
    (ha : Announced s) (h : Exchange s s.newest) : Exchange s' s'.newest := by
  cases hm with
  | construct _ _ => exact h.construct ho hl
  | attached hc hw =>
      exact h.ready (.of_eq rfl rfl rfl rfl rfl rfl rfl) (Sys.not_requesting (by rw [hw]; rfl)) rfl
        fun call hm ↦ h.holding call (.inl hm)
  | @start c req pc hc hw hlt hpc =>
      have hc' : c = s.newest := by
        have := Sys.newest_add_one hlt
        simp only [Sys.OnNewest] at hr
        omega
      refine h.start ⟨⟨rfl, fun c' ↦ Sys.ctrl_setGen s c c' _, fun c' ↦ Sys.data_setGen s c c' _,
        rfl, rfl⟩, rfl, rfl, rfl, rfl⟩ rfl ?_ hc' rfl (hc' ▸ ho)
      rw [hpc]
      split <;> rfl
  | @resume i call hc hw hi =>
      have hnone : s.worker.phase = none := by rw [hw]; rfl
      refine h.private (.of_eq rfl rfl rfl rfl rfl rfl rfl) ?_ ?_ ?_ ?_
      · refine iff_of_false ?_ (Sys.not_requesting hnone)
        rintro ⟨call0, ph, hw0, -, hreq⟩
        cases hw0
        cases hreq
      · rintro call0 (hm | ⟨ph, hw0, -⟩) hc0 hcur
        · exact h.holding call0 (.inl (List.mem_of_mem_eraseIdx hm)) hc0 hcur
        · cases hw0
          exact h.holding call (.inl (List.mem_of_getElem? hi)) hc0 hcur
      · intro call0 ph hw0 _ he
        cases hw0
        cases he
      · intro call0 hw0
        cases hw0
  | @call call pc s' hc hw hm =>
      have hphase : s.worker.phase = some (call, pc.phase) := by rw [hw]; rfl
      have hlt := hl.chan_lt (Sys.mem_calls_of_phase hphase)
      have hb : s'.backends = s.backends := by cases hm <;> rfl
      have hnew : s'.newest = s.newest := by rw [Sys.newest, Sys.newest, hb]
      rw [hnew]
      exact hm.exchange hw (Sys.newest_add_one hlt) hs hl hn ha h
  | @expireFirst call _ hw _ _ =>
      refine h.ready (.of_eq rfl rfl rfl rfl rfl rfl rfl) ?_ rfl
        fun call hm ↦ h.holding call (.inl hm)
      rw [Sys.requesting_iff (show s.worker.phase = some (call, .asking .first) by rw [hw]; rfl)]
      rintro ⟨-, hreq⟩
      cases hreq
  | expire hw _ _ =>
      exact h.goto (.of_eq rfl rfl rfl rfl rfl rfl rfl) hw rfl ⟨rfl, rfl, rfl⟩ rfl rfl rfl nofun
        nofun
  | close hc hi _ =>
      refine h.private (.of_eq rfl rfl rfl rfl rfl rfl rfl) Iff.rfl ?_ ?_ fun _ hw _ ↦ hw
      · rintro call0 (hm | hw) hc0 hcur
        · exact h.holding call0 (.inl (List.mem_of_mem_eraseIdx hm)) hc0 hcur
        · exact h.holding call0 (.inr hw) hc0 hcur
      · exact fun call0 ph hw hc0 he ↦ ⟨call0, ph, hw, hc0, he, rfl, rfl⟩
  | closingCurrent _ _ =>
      exact h.private (.of_eq rfl rfl rfl rfl rfl rfl rfl) Iff.rfl h.holding
        (fun call0 ph hw hc0 he ↦ ⟨call0, ph, hw, hc0, he, rfl, rfl⟩) fun _ hw _ ↦ hw
  | closingStale _ _ =>
      exact h.private (.of_eq rfl rfl rfl rfl rfl rfl rfl) Iff.rfl h.holding
        (fun call0 ph hw hc0 he ↦ ⟨call0, ph, hw, hc0, he, rfl, rfl⟩) fun _ hw _ ↦ hw
  | @closingStore call hc =>
      have hlt := hl.chan_lt (Sys.mem_calls_of_closing hc)
      have hcur : s.Current call := (hl.closing _ hc).2.2 rfl
      by_cases hchan : call.chan = s.newest
      · rw [hchan]
        refine h.store hs (.of_eq rfl rfl rfl rfl rfl rfl rfl) (hchan ▸ hlt) rfl ?_ nofun ?_ nofun
          fun _ hw _ ↦ hw
        · exact fun hreq ↦ ⟨hreq, rfl⟩
        · rintro call0 (hm | ⟨ph, hw, -⟩) hc0
          · exact hcur.not_of_key_ne (hc0.trans hchan.symm) (hl.suspended_ne_closing hc hm)
          · exact hcur.not_of_key_ne (hc0.trans hchan.symm) (hl.closing_ne_running hw hc).symm
      · exact h.store_elsewhere hs (.of_eq rfl rfl rfl rfl rfl rfl rfl) hchan hlt rfl rfl rfl

end ConnectWeb.Sab
