import ConnectWeb.Sab.Delivery

/-!
# What the worker takes

The worker's steps keep the messages of the channel in their places.  A window that is read
is the one that the data SAB shows, behind the last window of a chunk everything that was read
so far is yielded, and what a call returns with is what was sent to it.
-/

namespace ConnectWeb.Sab

/-! ## Frames -/

/-- A step that records nothing of the messages of a request. -/
structure SameTransfers (s s' : Sys) (q : Posted) : Prop where
  chunks : s'.chunks q = s.chunks q
  yields : s'.yields q = s.yields q
  log : s.log ⊆ s'.log

/-- The worker is where it was in a message. -/
structure SameHand (s s' : Sys) : Prop where
  inHand : ∀ e, s.InHand e → s'.InHand e
  amid : ∀ call ph, s'.worker.phase = some (call, ph) → ph.amid = true →
    ∃ call' ph', s.worker.phase = some (call', ph') ∧ ph'.amid = true

section
variable {s s' : Sys} {q : Posted}

theorem Sys.chunks_append {events : List Event} (h : s'.log = s.log ++ events) :
    s'.chunks q = s.chunks q ++ events.filterMap (Event.chunkOf q) := by
  rw [chunks, chunks, h, List.filterMap_append]

theorem Sys.yields_append {events : List Event} (h : s'.log = s.log ++ events) :
    s'.yields q = s.yields q ++ events.filterMap (Event.yieldOf q) := by
  rw [yields, yields, h, List.filterMap_append]

theorem SameTransfers.of_append {events : List Event} (h : s'.log = s.log ++ events)
    (hc : events.filterMap (Event.chunkOf q) = []) (hy : events.filterMap (Event.yieldOf q) = []) :
    SameTransfers s s' q where
  chunks := by rw [Sys.chunks_append h, hc, List.append_nil]
  yields := by rw [Sys.yields_append h, hy, List.append_nil]
  log := by
    rw [h]
    exact List.subset_append_left ..

theorem SameTransfers.of_log (h : s'.log = s.log) : SameTransfers s s' q :=
  .of_append (h.trans (List.append_nil _).symm) rfl rfl

theorem SameHand.of_phase (h : s'.worker.phase = s.worker.phase) : SameHand s s' where
  inHand e he := by
    rw [Sys.InHand, h]
    exact he
  amid call ph hw ha := ⟨call, ph, h.symm.trans hw, ha⟩

/-- The running call goes on, with what it has of the message. -/
theorem SameHand.goto {call call' : Call} {ph ph' : Phase} (hw : s.worker.phase = some (call, ph))
    (hw' : s'.worker.phase = some (call', ph'))
    (ht : ∀ e call0, ph.taking call = some call0 → call0.UpTo e →
      ∃ call1, ph'.taking call' = some call1 ∧ call1.UpTo e)
    (ha : ph'.amid = true → ph.amid = true) : SameHand s s' where
  inHand e he := by
    obtain ⟨call0, ph0, call1, hw0, htaking, hup⟩ := he
    rw [hw, Option.some.injEq, Prod.mk.injEq] at hw0
    obtain ⟨rfl, rfl⟩ := hw0
    obtain ⟨call2, htaking', hup'⟩ := ht e call1 htaking hup
    exact ⟨call', ph', call2, hw', htaking', hup'⟩
  amid call0 ph0 hw0 ha0 := by
    rw [hw', Option.some.injEq, Prod.mk.injEq] at hw0
    obtain ⟨rfl, rfl⟩ := hw0
    exact ⟨call, ph, hw, ha ha0⟩

/-- The worker was in no message, and is in none. -/
theorem SameHand.outside (h : ∀ call ph, s.worker.phase = some (call, ph) → ph.taking call = none)
    (h' : ∀ call ph, s'.worker.phase = some (call, ph) → ph.amid = false) : SameHand s s' where
  inHand e he := by
    obtain ⟨call, ph, call', hw, ht, -⟩ := he
    rw [h call ph hw] at ht
    cases ht
  amid call ph hw ha := by
    rw [h' call ph hw] at ha
    cases ha

namespace Sys

theorem Buffered.mono {resp : FetchResponse} {body : Bytes} (h : s.Buffered q resp body)
    (hl : s.log ⊆ s'.log) : s'.Buffered q resp body := by
  obtain ⟨p, hp, hr, hf, hb⟩ := h
  exact ⟨p, hp, hr, hl hf, hl hb⟩

theorem Level.congr (h : s.Level q) (ht : SameTransfers s s' q) : s'.Level q := by
  rw [Level, ht.yields, ht.chunks]
  exact h

theorem Sends.congr {e : Emission} (h : s.Sends q e) (ht : SameTransfers s s' q)
    (hh : SameHand s s') : s'.Sends q e where
  inside := h.inside
  room := h.room
  stream hk := by
    rw [ht.chunks, ht.yields]
    exact h.stream hk
  unary hk := (h.unary hk).mono ht.log
  inHand := hh.inHand e h.inHand

theorem Clear.congr (h : s.Clear q) (ht : SameTransfers s s' q) (hh : SameHand s s') :
    s'.Clear q where
  level := h.level.congr ht
  between call ph hw := by
    by_contra ha
    obtain ⟨call', ph', hw', ha'⟩ := hh.amid call ph hw (Bool.of_not_eq_false ha)
    rw [h.between call' ph' hw'] at ha'
    cases ha'

theorem Offers.congr {st : SabState} (h : s.Offers q st) (ht : SameTransfers s s' q)
    (hh : SameHand s s') (hw : ∀ t, s'.writer (.data (s'.backend 0).data) = some t →
      s.writer (.data (s.backend 0).data) = some t) : s'.Offers q st := by
  cases st with
  | respChunk => exact fun t e hd hpc ↦ (h t e (hw t hd) hpc).congr ht hh
  | respEnd => exact Level.congr h ht
  | _ => trivial

theorem Ready.congr {next : Next} (h : s.Ready q next) (ht : SameTransfers s s' q)
    (hh : SameHand s s') : s'.Ready q next := by
  cases next with
  | window e => exact Sends.congr h ht hh
  | read resp => exact Clear.congr h ht hh
  | leave => trivial

theorem Renders.congr {t : Task} (h : s.Renders q t) (ht : SameTransfers s s' q)
    (hh : SameHand s s') (hw : ∀ t, s'.writer (.data (s'.backend 0).data) = some t →
      s.writer (.data (s.backend 0).data) = some t) : s'.Renders q t := by
  unfold Renders at h ⊢
  split at h
  · exact Clear.congr h ht hh
  · exact Clear.congr h ht hh
  · exact ⟨h.1.congr ht hh, ht.log h.2⟩
  · exact Sends.congr h ht hh
  · exact Offers.congr h ht hh hw
  · exact Offers.congr h ht hh hw
  · trivial

/-- A channel is opened by an ack, or by a call that takes a chunk. -/
theorem Open.back (hst : s'.state 0 = .chunkAck → s.state 0 = .chunkAck)
    (hp : s'.posted = s.posted) (hk : ∀ call, s'.Keeping call → s.Keeping call) (h : s'.Open) :
    s.Open := by
  rcases h with h | ⟨call, hkeep, hcur⟩
  · exact .inl (hst h)
  · refine .inr ⟨call, hk call hkeep, ?_⟩
    rwa [Current, hp] at hcur

namespace Conveys

/-- A step that leaves STATE, the invocations, and the exchange of the running call. -/
theorem same (h : s.Conveys q) (ht : SameTransfers s s' q)
    (hph : s'.worker.phase = s.worker.phase) (hl : s'.live = s.live)
    (hst : s'.state 0 = s.state 0) (hp : s'.posted = s.posted)
    (hsus : ∀ call ∈ s'.suspended, call ∈ s.suspended)
    (hw : ∀ t, s'.writer (.data (s'.backend 0).data) = some t →
      s.writer (.data (s.backend 0).data) = some t) : s'.Conveys q where
  serving t hm hs := (h.serving t (hl ▸ hm) hs).congr ht (.of_phase hph) hw
  shown call ph hw' he := by
    rw [hst]
    exact (h.shown call ph (hph.symm.trans hw') he).congr ht (.of_phase hph) hw
  awaiting ho t hm next hs := by
    refine (h.awaiting (ho.back (fun hc ↦ hst ▸ hc) hp fun call hk ↦ ?_) t (hl ▸ hm) next hs).congr
      ht (.of_phase hph)
    rw [Keeping, hph] at hk
    exact hk.imp_left (hsus call)

/-- A step of the worker's while nobody serves. -/
theorem worker (h : s.Conveys q) (hst : Stirs s s') (hserv : ∀ t ∈ s.live, t.stage ≠ .serving)
    (hshown : ∀ call ph, s'.worker.phase = some (call, ph) → ph.engaged = true →
      s'.Offers q (s'.state 0))
    (hopen : s'.Open → s.Open ∧ SameTransfers s s' q ∧ SameHand s s') : s'.Conveys q where
  serving t hm hs := by
    obtain ⟨t0, hm0, -, hstage, -⟩ := hst.mem hm
    exact absurd (hstage ▸ hs) (hserv t0 hm0)
  shown := hshown
  awaiting ho t hm next hs := by
    obtain ⟨t0, hm0, -, hstage, -⟩ := hst.mem hm
    obtain ⟨ho, ht, hh⟩ := hopen ho
    exact (h.awaiting ho t0 hm0 next (hstage ▸ hs)).congr ht hh

/-- A step of the worker's out of any message. -/
theorem outside (h : s.Conveys q) (hst : Stirs s s') (hserv : ∀ t ∈ s.live, t.stage ≠ .serving)
    (htaking : ∀ call ph, s.worker.phase = some (call, ph) → ph.taking call = none)
    (hph : ∀ call ph, s'.worker.phase = some (call, ph) →
      ph.engaged = false ∧ ph.amid = false ∧ (ph.keeps = true → s.Keeping call))
    (hack : s'.state 0 = .chunkAck → s.state 0 = .chunkAck) (hp : s'.posted = s.posted)
    (hsus : ∀ call ∈ s'.suspended, call ∈ s.suspended) (ht : SameTransfers s s' q) :
    s'.Conveys q := by
  refine h.worker hst hserv (fun call ph hw he ↦ ?_) fun ho ↦
    ⟨ho.back hack hp fun call hk ↦ ?_, ht, .outside htaking fun call ph hw ↦ (hph call ph hw).2.1⟩
  · rw [(hph call ph hw).1] at he
    cases he
  · rcases hk with hm | ⟨ph, hw, hk⟩
    · exact .inl (hsus call hm)
    · exact (hph call ph hw).2.2 hk

end Conveys

end Sys

/-! ## The worker -/

/-- What a call that reads a window finds, and who wrote it. -/
theorem Conveying.finds_written (h : Conveying s) (hp : Paced s) (hb : s.backends ≤ 1)
    (hsize : (s.region 0).size < 2 ^ 31) {call : Call} (hw : s.worker = .run call .readWindow) :
    ∃ e p t, s.writer (.data (s.backend 0).data) = some t ∧ t.pc = .window e ∧
      s.Sends ⟨call.gen, call.request⟩ e ∧ call.UpTo e ∧ e.kind = call.request.kind ∧
      (e.streaming = false → call.firstMeta = none → call.status = e.resp.status.toNat) ∧
      s.Follows p e.next ∧
      takeWindow call (s.region call.chan) (s.backend call.chan).ctrl.length =
        if e.more then .more (call.take e) else .last (call.take e) := by
  have hph : s.worker.phase = some (call, .reading) := by rw [hw]; rfl
  have hchan := hp.sound.ledger.chan_eq_zero (Sys.mem_calls_of_phase hph) hb
  have hnew := Sys.newest_eq_zero hb
  have hcur : s.Current call := hp.sound.ledger.current_of_engaged hph rfl
  have hst : s.state 0 = .respChunk := by
    have := hp.sound.exchange.holding call (.inr ⟨_, hph, rfl⟩) (hchan.trans hnew.symm) hcur
    rwa [hnew] at this
  obtain ⟨p, off, next, hpend, -, -, hshows, hmeasures, hfollows⟩ :=
    hp.sound.exchange.answered call _ hph (hchan.trans hnew.symm) rfl (by rw [hnew, hst]; rfl)
  rw [hnew, hst] at hshows
  rw [hnew] at hmeasures
  obtain ⟨t, e, hwd, -, -, hpc, hkind, rfl, rfl, hholds, hstatus⟩ := hshows
  rw [Sys.Current, hchan] at hcur
  have hsends : s.Sends ⟨call.gen, call.request⟩ e := by
    have := (h.conveys _ hcur).shown call _ hph rfl
    rw [hst] at this
    exact this t e hwd hpc
  have hupto : call.UpTo e := by
    obtain ⟨call0, ph0, call1, hw0, htaking, hup⟩ := hsends.inHand
    rw [hph, Option.some.injEq, Prod.mk.injEq] at hw0
    obtain ⟨rfl, rfl⟩ := hw0
    cases htaking
    exact hup
  have hekind : e.kind = call.request.kind := by
    rw [Pick.kind, hpend] at hkind
    exact (Option.some.inj hkind).symm
  have hfits := hholds.fits
  simp only [windowBytes, List.length_append, Region.length_u32] at hfits
  refine ⟨e, p, t, hwd, hpc, hsends, hupto, hekind, fun hk hm ↦ ?_, hfollows, ?_⟩
  · have hunary : call.request.kind = .unary := by
      rw [← hekind, Emission.kind, hk]
      rfl
    rw [h.begun call _ hw hunary hm, hstatus, toInt32_of_lt]
    have := e.resp.status.toNat_lt
    omega
  · rw [hchan, hmeasures.1, toInt32_of_lt (by omega)]
    exact takeWindow_eq hholds (by omega)

/-- What a call that reads a window finds. -/
theorem Conveying.finds (h : Conveying s) (hp : Paced s) (hb : s.backends ≤ 1)
    (hsize : (s.region 0).size < 2 ^ 31) {call : Call} (hw : s.worker = .run call .readWindow) :
    ∃ e p, s.Sends ⟨call.gen, call.request⟩ e ∧ call.UpTo e ∧ e.kind = call.request.kind ∧
      (e.streaming = false → call.firstMeta = none → call.status = e.resp.status.toNat) ∧
      s.Follows p e.next ∧
      takeWindow call (s.region call.chan) (s.backend call.chan).ctrl.length =
        if e.more then .more (call.take e) else .last (call.take e) := by
  obtain ⟨e, p, -, -, -, hfinds⟩ := h.finds_written hp hb hsize hw
  exact ⟨e, p, hfinds⟩

/-- A call that finds a chunk takes what it was going to take. -/
theorem afterWait_chunk (call : Call) (w : Wait) (d : Region) :
    (afterWait call w .respChunk d).2.phase = .reading ∧
      some (afterWait call w .respChunk d).1 = Phase.taking (.asking w) call := by
  cases w <;> cases hk : call.request.kind <;> simp only [afterWait, hk] <;> exact ⟨rfl, rfl⟩

/-- The worker takes the last window of a chunk. -/
theorem Sys.Sends.yielded {call : Call} {e : Emission} (h : s.Sends q e) (hup : call.UpTo e)
    (hk : e.streaming = true) (hmore : e.more = false) (hq : ⟨call.gen, call.request⟩ = q)
    (hlog : s'.log = s.log ++ [Event.yielded (call.take e) (call.take e).parts.flatten]) :
    s'.Level q := by
  have hflat : (call.take e).parts.flatten = e.bytes := by
    rw [hup.flatten_take h.inside h.room, Emission.take_stop hmore]
  have hchunks : s'.chunks q = s.chunks q := by
    rw [Sys.chunks_append hlog]
    exact List.append_nil _
  have hyields : s'.yields q = s.yields q ++ [e.bytes] := by
    rw [Sys.yields_append hlog, hflat]
    simp [Event.yieldOf, Call.take, hq]
  rw [Sys.Level, hchunks, hyields, h.stream hk]

/-- The worker yields a chunk. -/
theorem Conveying.yielded (h : Conveying s) (hp : Paced s) (hb : s.backends ≤ 1)
    (hsize : (s.region 0).size < 2 ^ 31) {call call' : Call} (hw : s.worker = .run call .readWindow)
    (hk : call'.request.kind = .serverStream)
    (ht : takeWindow call (s.region call.chan) (s.backend call.chan).ctrl.length = .last call')
    (hlog : s'.log = s.log ++ [Event.yielded call' call'.parts.flatten]) :
    s'.Level ⟨call.gen, call.request⟩ ∧
      ∃ resp, ∀ t ∈ s.live, t.stage = .awaiting (.read resp) := by
  obtain ⟨e, p, hsends, hup, hkind, -, hfollows, htake⟩ := h.finds hp hb hsize hw
  rw [ht] at htake
  rcases hmore : e.more with _ | _
  swap
  · rw [hmore] at htake
    cases htake
  rw [hmore] at htake
  cases htake
  have hstream : e.streaming = true := by
    rw [Emission.kind, show call.request.kind = .serverStream from hk] at hkind
    by_contra hne
    rw [if_neg hne] at hkind
    cases hkind
  have hnext : e.next = .read e.resp := by
    rw [Emission.next, hmore, hstream]
    rfl
  rw [hnext] at hfollows
  obtain ⟨t0, hlive, -, hstage⟩ := hfollows
  refine ⟨hsends.yielded hup hstream hmore rfl hlog, e.resp, fun t hm ↦ ?_⟩
  rw [hlive, List.mem_singleton] at hm
  rw [hm]
  exact hstage

/-- The worker takes a window that is not the last, and the invocation waits to store the next. -/
theorem Conveying.more (h : Conveying s) (hp : Paced s) (hb : s.backends ≤ 1)
    (hsize : (s.region 0).size < 2 ^ 31) {call call' : Call} (hw : s.worker = .run call .readWindow)
    (ht : takeWindow call (s.region call.chan) (s.backend call.chan).ctrl.length = .more call') :
    ∃ e', (∀ t ∈ s.live, t.stage = .awaiting (.window e')) ∧
      Sys.Sends (s.goto call' .ackWindow) ⟨call.gen, call.request⟩ e' := by
  obtain ⟨e, p, hsends, hup, -, hstatus, hfollows, htake⟩ := h.finds hp hb hsize hw
  rw [ht] at htake
  rcases hmore : e.more with _ | _
  · rw [hmore] at htake
    cases htake
  rw [hmore] at htake
  cases htake
  obtain ⟨e', hnext⟩ : ∃ e', e.next = .window e' := by
    rw [Emission.next, hmore]
    exact ⟨_, rfl⟩
  rw [hnext] at hfollows
  obtain ⟨t0, hlive, -, hstage⟩ := hfollows
  refine ⟨e', fun t hm ↦ ?_, ?_⟩
  · rw [hlive, List.mem_singleton] at hm
    rw [hm]
    exact hstage
  · obtain ⟨hin, hroom⟩ := Emission.inside_next hsends.inside hsends.room hnext
    have hinHand := hup.next hsends.inside hsends.room hnext hstatus
    obtain ⟨-, rfl⟩ := Emission.next_eq_window hnext
    exact ⟨hin, hroom, hsends.stream, hsends.unary, ⟨_, _, _, rfl, rfl, hinHand⟩⟩

/-- A call that is offered a chunk begins to take it. -/
theorem Sys.Offers.answered {call : Call} {w : Wait} {st st' : SabState} {d : Region}
    (h : s.Offers q st) (hph : s.worker.phase = some (call, .asking w)) (hst : st' = st) :
    Sys.Offers (s.goto (afterWait call w st' d).1 (afterWait call w st' d).2) q st := by
  subst hst
  cases st' with
  | respChunk =>
      obtain ⟨hphase, htaking⟩ := afterWait_chunk call w d
      refine h.congr (.of_log rfl) (.goto hph rfl (fun e call0 ht hup ↦ ?_) ?_) fun _ ht ↦ ht
      · rw [hphase]
        exact ⟨_, rfl, by rwa [← Option.some.inj (htaking.trans ht)] at hup⟩
      · rw [hphase]
        nofun
  | respEnd => exact Sys.Level.congr h (.of_log rfl)
  | idle | reqReady | respError | chunkAck => trivial

/-- Beside a current call no other one keeps a chunk. -/
theorem Paced.not_open (hp : Paced s) (hb : s.backends ≤ 1) {call : Call} {ph : Phase}
    (hph : s.worker.phase = some (call, ph)) (hcur : s.Current call)
    (hposted : s'.posted = s.posted) (hsus : s'.suspended = s.suspended)
    (hst : s'.state 0 ≠ .chunkAck)
    (hkeeps : ∀ call0 ph, s'.worker.phase = some (call0, ph) → ph.keeps = false) :
    ¬ s'.Open := by
  have hl := hp.sound.ledger
  rintro (hst' | ⟨call0, hm0 | ⟨ph, hw0, hk⟩, hcur0⟩)
  · exact hst hst'
  · rw [hsus] at hm0
    rw [Sys.Current, hposted] at hcur0
    have hchan := hl.chan_eq_zero (Sys.mem_calls_of_phase hph) hb
    have hchan0 := hl.chan_eq_zero (Sys.mem_calls_of_suspended hm0) hb
    exact hl.not_current_suspended hph hcur hm0 (hchan0.trans hchan.symm) hcur0
  · rw [hkeeps call0 ph hw0] at hk
    cases hk

theorem CallMove.conveys {call : Call} {pc : Pc} (hm : CallMove s call pc s')
    (hw : s.worker = .run call pc) (hp : Paced s) (hb : s.backends ≤ 1)
    (hsize : (s.region 0).size < 2 ^ 31) (h : Conveying s) (hq : s'.posted 0 = some q) :
    s'.Conveys q := by
  have hph : s.worker.phase = some (call, pc.phase) := by rw [hw]; rfl
  have hchan := hp.sound.ledger.chan_eq_zero (Sys.mem_calls_of_phase hph) hb
  have hruns := hp.sound.ledger.running call _ hph
  have hstirs := hm.stirs hw hp.sound.shape hp.sound.only
  -- between two waits all is quiet
  have quiet : pc.phase.asks = false → s.Quiet := hp.lockstep.quiet_of_not_asking hph
  have unacked : s.Quiet → s.state 0 ≠ .chunkAck := fun hquiet ↦
    (SabState.ne_of_not_mainTurn (hquiet.states 0)).2
  -- the request whose chunks are taken is that of a current call
  have own : s.posted 0 = some q → s.Current call → ⟨call.gen, call.request⟩ = q := by
    intro hq0 hcur
    rw [Sys.Current, hchan] at hcur
    exact Option.some.inj (hcur.symm.trans hq0)
  -- a step out of any message
  have outside : s.posted 0 = some q → pc.phase.asks = false → pc.phase.taking call = none →
      (∀ call0 ph, s'.worker.phase = some (call0, ph) →
        ph.engaged = false ∧ ph.amid = false ∧ (ph.keeps = true → s.Keeping call0)) →
      (s'.state 0 = .chunkAck → s.state 0 = .chunkAck) → s'.posted = s.posted →
      s'.suspended = s.suspended → SameTransfers s s' q → s'.Conveys q := by
    intro hq0 hask htaking hph' hst hposted hsus ht
    refine (h.conveys q hq0).outside hstirs (quiet hask).serving (fun call0 ph hw0 ↦ ?_) hph' hst
      hposted (fun _ hm ↦ hsus ▸ hm) ht
    rw [hph] at hw0
    cases hw0
    exact htaking
  have goes : ∀ {pc' : Pc}, s'.worker = .run call pc' → pc'.phase.engaged = false →
      pc'.phase.amid = false → pc'.phase.keeps = false →
      ∀ call0 ph, s'.worker.phase = some (call0, ph) →
        ph.engaged = false ∧ ph.amid = false ∧ (ph.keeps = true → s.Keeping call0) := by
    intro pc' hw' he ha hk call0 ph hw0
    rw [hw'] at hw0
    cases hw0
    refine ⟨he, ha, fun hk' ↦ ?_⟩
    rw [hk] at hk'
    cases hk'
  cases hm with
  | @grow capacity _ =>
      refine outside hq rfl rfl (goes rfl rfl rfl rfl) (fun hst ↦ ?_) rfl rfl (.of_log rfl)
      exact (state_attachData s call.chan capacity 0).symm.trans hst
  | announce | stale _ | resets _ =>
      exact outside hq rfl rfl (goes rfl rfl rfl rfl) id rfl rfl (.of_log rfl)
  | @marshal r _ =>
      have hquiet := quiet rfl
      refine ⟨fun t hm hs ↦ absurd hs (hquiet.serving t hm), fun call0 ph hw0 he ↦ ?_, fun ho ↦ ?_⟩
      · cases hw0
        cases he
      · rcases ho with hst | ⟨call0, hm0 | ⟨ph, hw0, hk⟩, hcur0⟩
        · exact absurd ((state_marshalled s call r 0).symm.trans hst) (unacked hquiet)
        · -- the request has a generation of its own
          have hchan0 := hp.sound.ledger.chan_eq_zero (Sys.mem_calls_of_suspended hm0) hb
          have hcur : (s.marshalled call r).Current call := Function.update_self ..
          exact absurd hcur0 (hcur.not_of_key_ne (hchan0.trans hchan.symm)
            (hp.sound.ledger.suspended_ne_running hph hm0))
        · cases hw0
          cases hk
  | unfit _ | keeps _ =>
      exact outside hq rfl rfl (fun call0 ph hw0 ↦ (by cases hw0)) id rfl rfl
        (.of_append rfl rfl rfl)
  | @storeLength off =>
      refine outside hq rfl rfl (goes rfl rfl rfl rfl) (fun hst ↦ ?_) rfl rfl (.of_log rfl)
      exact (Sys.state_setCtrl s call.chan 0 (fun ctrl ↦ { ctrl with length := toInt32 off })
        fun _ ↦ rfl).symm.trans hst
  | storeSeq =>
      refine outside hq rfl rfl (goes rfl rfl rfl rfl) (fun hst ↦ ?_) rfl rfl (.of_log rfl)
      exact (Sys.state_setCtrl s call.chan 0 (fun ctrl ↦ { ctrl with seq := 0 })
        fun _ ↦ rfl).symm.trans hst
  | storeReady =>
      have hst : Sys.state ((s.storeByWorker call.chan .reqReady).goto call .nudge) 0 = .reqReady :=
        (Sys.state_storeByWorker s call.chan 0 .reqReady).trans (if_pos hchan.symm)
      refine (h.conveys q hq).worker hstirs (quiet rfl).serving (fun call0 ph _ _ ↦ ?_)
        fun ho ↦ absurd ho (hp.not_open hb hph hruns rfl rfl ?_ ?_)
      · rw [hst]
        trivial
      · rw [hst]
        simp
      · rintro call0 ph hw0
        cases hw0
        rfl
  | nudge | due _ | park _ | notEqual _ =>
      exact (h.conveys q hq).same (.of_log rfl) hph.symm rfl rfl rfl (fun _ hm ↦ hm) fun _ ht ↦ ht
  | @answered w hne =>
      have hquiet : s.Quiet := by
        refine hp.lockstep.quiet fun call0 w0 hw0 ↦ ?_
        rw [hph, Option.some.injEq, Prod.mk.injEq] at hw0
        obtain ⟨rfl, heq⟩ := hw0
        cases heq
        exact hne
      refine (h.conveys q hq).worker hstirs hquiet.serving (fun call0 ph hw0 he ↦ ?_)
        fun ho ↦ absurd ho (hp.not_open hb hph hruns rfl rfl (unacked hquiet) ?_)
      · exact ((h.conveys q hq).shown call _ hph rfl).answered hph (congrArg s.state hchan)
      · rintro call0 ph hw0
        cases hw0
        rcases afterWait_phase call w (s.state call.chan) (s.region call.chan) with heq | ⟨o, heq⟩ <;>
          rw [heq] <;> rfl
  | @loadStatus chunk call' hcall' =>
      obtain ⟨rfl, hfirst⟩ := h.begun call _ hw
      refine (h.conveys q hq).worker hstirs (quiet rfl).serving (fun call0 ph hw0 he ↦ ?_)
        fun ho ↦ absurd ho (hp.not_open hb hph hruns rfl rfl (unacked (quiet rfl)) ?_)
      · refine ((h.conveys q hq).shown call _ hph rfl).congr (.of_log rfl)
          (.goto hph rfl (fun e call0 ht hup ↦ ⟨call', rfl, ?_⟩) fun h ↦ (by cases h)) fun _ ht ↦ ht
        cases ht
        subst hcall'
        refine ⟨hup.parts, hup.first, fun _ m hm ↦ ?_⟩
        rw [hfirst] at hm
        cases hm
      · rintro call0 ph hw0
        cases hw0
        rfl
  | malformed _ | complete _ _ =>
      refine (h.conveys q hq).worker hstirs (quiet rfl).serving (fun call0 ph hw0 he ↦ ?_)
        fun ho ↦ absurd ho (hp.not_open hb hph hruns rfl rfl (unacked (quiet rfl)) ?_)
      · cases hw0
        cases he
      · rintro call0 ph hw0
        cases hw0
        rfl
  | @more call' ht =>
      obtain ⟨e', hstage, hsends⟩ := h.more hp hb hsize hw ht
      refine ⟨fun t hm hs ↦ absurd hs ((quiet rfl).serving t hm), fun call0 ph hw0 he ↦ ?_,
        fun _ t hm next hs ↦ ?_⟩
      · cases hw0
        cases he
      · obtain rfl : next = .window e' := by
          rw [hstage t hm] at hs
          cases hs
          rfl
        exact own hq hruns ▸ hsends
  | @yield call' hk ht =>
      have hlog : Sys.log ({ s with worker := .ready, suspended := s.suspended ++ [call'] }.logged
          (.yielded call' call'.parts.flatten)) =
          s.log ++ [Event.yielded call' call'.parts.flatten] := rfl
      obtain ⟨hlevel, resp, hstage⟩ := h.yielded hp hb hsize hw hk ht hlog
      refine ⟨fun t hm hs ↦ absurd hs ((quiet rfl).serving t hm), fun call0 ph hw0 he ↦ ?_,
        fun _ t hm next hs ↦ ?_⟩
      · cases hw0
      · obtain rfl : next = .read resp := by
          rw [hstage t hm] at hs
          cases hs
          rfl
        exact ⟨own hq hruns ▸ hlevel, fun call0 ph hw0 ↦ (by cases hw0)⟩
  | ackWindow =>
      refine (h.conveys q hq).worker hstirs (quiet rfl).serving (fun call0 ph hw0 he ↦ ?_)
        fun ho ↦ ⟨.inr ⟨call, .inr ⟨_, hph, rfl⟩, hruns⟩, .of_log rfl,
          .goto hph rfl (fun e call0 ht hup ↦ ⟨call0, ht, hup⟩) fun _ ↦ rfl⟩
      have hst : Sys.state ((s.storeByWorker call.chan .chunkAck).goto call (.wait .window)) 0 =
          .chunkAck := (Sys.state_storeByWorker s call.chan 0 .chunkAck).trans (if_pos hchan.symm)
      rw [hst]
      trivial
  | current _ =>
      refine outside hq rfl rfl (fun call0 ph hw0 ↦ ?_) id rfl rfl (.of_log rfl)
      cases hw0
      exact ⟨rfl, rfl, fun _ ↦ .inr ⟨_, hph, rfl⟩⟩
  | ackChunk =>
      refine (h.conveys q hq).worker hstirs (quiet rfl).serving (fun call0 ph hw0 he ↦ ?_)
        fun ho ↦ ⟨.inr ⟨call, .inr ⟨_, hph, rfl⟩, hruns⟩, .of_log rfl,
          .goto hph rfl (fun e call0 ht _ ↦ (by cases ht)) fun h ↦ (by cases h)⟩
      have hst : Sys.state ((s.storeByWorker call.chan .chunkAck).goto call (.wait .chunk)) 0 =
          .chunkAck := (Sys.state_storeByWorker s call.chan 0 .chunkAck).trans (if_pos hchan.symm)
      rw [hst]
      trivial
  | @resetStore o =>
      have hst : Sys.state ((s.storeByWorker call.chan .idle).finish call o) 0 = .idle :=
        (Sys.state_storeByWorker s call.chan 0 .idle).trans (if_pos hchan.symm)
      refine (h.conveys q hq).worker hstirs (quiet rfl).serving (fun call0 ph hw0 _ ↦ ?_)
        fun ho ↦ absurd ho (hp.not_open hb hph hruns rfl rfl ?_ ?_)
      · cases hw0
      · rw [hst]
        simp
      · rintro call0 ph hw0
        cases hw0

theorem WorkerMove.conveys {a : Action} (hm : WorkerMove s a s') (ha : s.OneBackend a)
    (hp : Paced s) (hb : s.backends ≤ 1) (hsize : (s.region 0).size < 2 ^ 31)
    (h : Conveying s) (hq : s'.posted 0 = some q) : s'.Conveys q := by
  have hstirs := hm.stirs hp.sound.shape hp.sound.only
  -- no call runs, before or behind the step
  have ready : s.posted 0 = some q → s.worker.phase = none →
      (∀ call ph, s'.worker.phase = some (call, ph) →
        ph.engaged = false ∧ ph.amid = false ∧ (ph.keeps = true → s.Keeping call)) →
      (∀ c, s'.state c = s.state c) → s'.posted = s.posted → s'.log = s.log →
      (∀ call ∈ s'.suspended, call ∈ s.suspended) → s'.Conveys q := by
    intro hq0 hw hph hst hposted hlog hsus
    refine (h.conveys q hq0).outside hstirs (hp.lockstep.quiet_of_ready hw).serving
      (fun call ph hw' ↦ ?_) hph (fun hc ↦ (hst 0).symm.trans hc) hposted hsus (.of_log hlog)
    rw [hw] at hw'
    cases hw'
  cases hm with
  | construct _ _ =>
      have h0 : s.backends = 0 := ha
      have : s.posted 0 = none := hp.sound.ledger.unused 0 (by omega)
      cases this.symm.trans hq
  | attached _ hw =>
      exact ready hq (by rw [hw]; rfl) (fun call ph hw' ↦ (by cases hw')) (fun _ ↦ rfl) rfl rfl
        fun _ hm ↦ hm
  | @start c req pc _ hw _ hpc =>
      refine ready hq (by rw [hw]; rfl) (fun call ph hw' ↦ ?_) (fun c' ↦ Sys.state_setGen s c c' _)
        rfl rfl fun _ hm ↦ hm
      cases hw'
      subst hpc
      split <;> exact ⟨rfl, rfl, nofun⟩
  | @resume i call _ hw hi =>
      refine ready hq (by rw [hw]; rfl) (fun call0 ph hw' ↦ ?_) (fun _ ↦ rfl) rfl rfl
        fun _ hm ↦ List.mem_of_mem_eraseIdx hm
      cases hw'
      exact ⟨rfl, rfl, fun _ ↦ .inl (List.mem_of_getElem? hi)⟩
  | call _ hw hm => exact hm.conveys hw hp hb hsize h hq
  | expireFirst hw ht _ | expire hw ht _ =>
      exact (hp.lockstep.patient.not_timed hw ht).elim
  | close _ _ _ =>
      exact (h.conveys q hq).same (.of_log rfl) rfl rfl rfl rfl
        (fun _ hm ↦ List.mem_of_mem_eraseIdx hm) fun _ ht ↦ ht
  | closingCurrent _ _ | closingStale _ _ =>
      exact (h.conveys q hq).same (.of_log rfl) rfl rfl rfl rfl (fun _ hm ↦ hm) fun _ ht ↦ ht
  | @closingStore call hc =>
      have hledger := hp.sound.ledger
      have hcur : s.Current call := (hledger.closing _ hc).2.2 rfl
      have hchan := hledger.chan_eq_zero (Sys.mem_calls_of_closing hc) hb
      -- beside it no other call is current
      have alone : ∀ call0 ∈ s.calls, call0.key ≠ call.key → ¬ s.Current call0 := by
        intro call0 hm0 hne
        exact hcur.not_of_key_ne ((hledger.chan_eq_zero hm0 hb).trans hchan.symm) hne
      have running : ∀ call0 ph, s.worker.phase = some (call0, ph) → ¬ s.Current call0 :=
        fun call0 ph hw ↦ alone call0 (Sys.mem_calls_of_phase hw)
          (hledger.closing_ne_running hw hc).symm
      have hquiet : s.Quiet := hp.lockstep.quiet fun call0 w hw ↦
        absurd (hledger.current_of_engaged hw rfl) (running call0 _ hw)
      have hst : Sys.state { s.storeByWorker call.chan .idle with closing := none } 0 = .idle :=
        (Sys.state_storeByWorker s call.chan 0 .idle).trans (if_pos hchan.symm)
      refine (h.conveys q hq).worker hstirs hquiet.serving (fun call0 ph hw he ↦ ?_) fun ho ↦ ?_
      · exact absurd (hledger.current_of_engaged hw he) (running call0 ph hw)
      · rcases ho with ho | ⟨call0, hm0 | ⟨ph, hw, hk⟩, hcur0⟩
        · rw [hst] at ho
          cases ho
        · exact absurd hcur0 (alone call0 (Sys.mem_calls_of_suspended hm0)
            (hledger.suspended_ne_closing hc hm0))
        · exact absurd hcur0 (running call0 ph hw)

/-! ## The variables of the calls -/

/-- Where a call goes on a chunk, it has begun. -/
theorem afterWait_begun {call : Call} {w : Wait} {st : SabState} {d : Region} {status : Int}
    (h : call.Within (.asking w)) (hunary : st = .respEnd → call.request.kind ≠ .unary) :
    (afterWait call w st d).1.Begun status (afterWait call w st d).2 := by
  cases w <;> cases hk : call.request.kind <;> cases st <;> simp only [afterWait, hk]
  all_goals first
    | trivial
    | exact ⟨rfl, rfl⟩
    | exact absurd hk (hunary rfl)
    | skip
  · intro hk'
    rw [hk'] at hk
    cases hk
  · exact fun _ hm ↦ absurd hm h
  · exact fun _ hm ↦ absurd hm h
  · have h : call.request.kind = .serverStream := h
    rw [hk] at h
    cases h
  · intro hk'
    rw [hk'] at hk
    cases hk

theorem takeWindow_firstMeta {call call' : Call} {d : Region} {length : Int}
    (h : takeWindow call d length = .more call') : call'.firstMeta ≠ none := by
  unfold takeWindow at h
  split at h
  · split at h
    · split at h <;> cases h
      nofun
    · cases h
  · cases h

/-- An ended stream is the answer to no unary call. -/
theorem Exchange.not_unary {c : Nat} (he : Exchange s c) {call : Call} {w : Wait}
    (hw : s.worker.phase = some (call, .asking w)) (hc : call.chan = c)
    (hst : s.state c = .respEnd) : call.request.kind ≠ .unary := by
  obtain ⟨p, off, next, hp, -, -, hshow, -⟩ := he.answered call _ hw hc rfl (by rw [hst]; rfl)
  rw [hst] at hshow
  have hkind := hshow.2.2
  rw [Pick.kind, hp, Option.map_some, Option.some.injEq] at hkind
  rw [hkind]
  simp

theorem CallMove.begun {call : Call} {pc : Pc} (hm : CallMove s call pc s')
    (hw : s.worker = .run call pc) (hp : Paced s) (hb : s.backends ≤ 1) (h : Conveying s) :
    (∀ call0 pc0, s'.worker = .run call0 pc0 →
      call0.Begun (s'.backend 0).ctrl.status pc0) ∧
    ∀ call0 ∈ s'.suspended, call0.request.kind = .serverStream := by
  have hph : s.worker.phase = some (call, pc.phase) := by rw [hw]; rfl
  have hchan := hp.sound.ledger.chan_eq_zero (Sys.mem_calls_of_phase hph) hb
  have hbegun := h.begun call pc hw
  cases hm with
  | @answered w hne =>
      refine ⟨fun call0 pc0 hw0 ↦ ?_, h.held⟩
      cases hw0
      have hnew := hchan.trans (Sys.newest_eq_zero hb).symm
      exact afterWait_begun hbegun fun hst ↦ hp.sound.exchange.not_unary hph hnew (hnew ▸ hst)
  | @loadStatus chunk call' hcall' =>
      refine ⟨fun call0 pc0 hw0 ↦ ?_, h.held⟩
      obtain ⟨rfl, -⟩ := hbegun
      cases hw0
      subst hcall'
      intro _ _
      rw [hchan]
      rfl
  | yield hk _ =>
      refine ⟨fun call0 pc0 hw0 ↦ (by cases hw0), fun call0 hm0 ↦ ?_⟩
      rcases List.mem_append.mp hm0 with hm0 | hm0
      · exact h.held call0 hm0
      · rw [List.mem_singleton.mp hm0]
        exact hk
  | more ht =>
      refine ⟨fun call0 pc0 hw0 ↦ ?_, h.held⟩
      cases hw0
      exact takeWindow_firstMeta ht
  | unfit _ | keeps _ | resetStore => exact ⟨fun call0 pc0 hw0 ↦ (by cases hw0), h.held⟩
  | ackWindow | ackChunk | current _ | due _ | park _ | notEqual _ =>
      refine ⟨fun call0 pc0 hw0 ↦ ?_, h.held⟩
      cases hw0
      exact hbegun
  | _ =>
      refine ⟨fun call0 pc0 hw0 ↦ ?_, h.held⟩
      cases hw0
      trivial

theorem WorkerMove.begun {a : Action} (hm : WorkerMove s a s') (hp : Paced s)
    (hb : s.backends ≤ 1) (h : Conveying s) :
    (∀ call pc, s'.worker = .run call pc → call.Begun (s'.backend 0).ctrl.status pc) ∧
      ∀ call ∈ s'.suspended, call.request.kind = .serverStream := by
  cases hm with
  | construct _ _ | attached _ _ => exact ⟨fun call pc hw ↦ (by cases hw), h.held⟩
  | start _ _ _ hpc =>
      refine ⟨fun call pc hw ↦ ?_, h.held⟩
      cases hw
      subst hpc
      split <;> trivial
  | resume _ _ hi =>
      refine ⟨fun call pc hw ↦ ?_, fun call hm ↦ h.held call (List.mem_of_mem_eraseIdx hm)⟩
      cases hw
      exact h.held _ (List.mem_of_getElem? hi)
  | call _ hw hm => exact hm.begun hw hp hb h
  | expireFirst hw ht _ | expire hw ht _ =>
      exact (hp.lockstep.patient.not_timed hw ht).elim
  | close _ _ _ => exact ⟨h.begun, fun call hm ↦ h.held call (List.mem_of_mem_eraseIdx hm)⟩
  | closingCurrent _ _ | closingStale _ _ => exact ⟨h.begun, h.held⟩
  | @closingStore call _ =>
      refine ⟨fun call0 pc hw ↦ ?_, h.held⟩
      have hstatus : ((s.storeByWorker call.chan .idle).backend 0).ctrl.status =
          (s.backend 0).ctrl.status :=
        Sys.ctrl_storeByWorker s call.chan 0 .idle Control.status fun _ ↦ rfl
      exact hstatus ▸ h.begun call0 pc hw

end

end ConnectWeb.Sab
