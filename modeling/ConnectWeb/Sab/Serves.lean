import ConnectWeb.Sab.Service
import ConnectWeb.Sab.Transfer

/-!
# Where the bridge is in the service

The relation between the two threads and the service behind them, and the worker's steps.  What
an invocation does next, what STATE tells the worker, and what a call is about to end with are
read off the course of the request that is stored last.
-/

namespace ConnectWeb.Sab

/-! ## The relation -/

namespace Course

/-- The window `e` belongs to what was received last. -/
def Carries (c : Course) (e : Emission) : Prop :=
  c = if e.streaming then .streaming e.resp (some e.bytes) else .whole e.resp e.bytes

/-- What an ack leads to. -/
def Awaits (c : Course) : Next → Prop
  | .window e => c.Carries e
  | .read resp => c = .streaming resp none
  | .leave => True

end Course

namespace Sys

/-- The worker is in no message. -/
def Between (s : Sys) : Prop := ∀ call ph, s.worker.phase = some (call, ph) → ph.amid = false

/-- What a value of STATE says of the request. -/
def Tells (s : Sys) (c : Course) : SabState → Prop
  | .respChunk => ∀ t e, s.writer (.data (s.backend 0).data) = some t → t.pc = .window e →
      c.Carries e
  | .respEnd => c = .exhausted ∧ s.Between
  | .respError => ∀ t message kind caught, s.writer (.data (s.backend 0).data) = some t →
      t.pc = .report message kind caught → c = .failed message kind
  | _ => True

/-- What an invocation is about to do with the request. -/
def Performs (s : Sys) (c : Course) (t : Task) : Prop :=
  match t.pc with
  | .fetching => c = .sent
  | .buffering resp => c = .buffering resp
  | .reading resp _ => c = .streaming resp none
  | .window e => c.Carries e
  | .report message kind _ => c = .failed message kind
  | .storeLength _ st _ | .storeState st _ => s.Tells c st
  | _ => True

/-- The request that is stored last is as far as its course says. -/
structure Matches (s : Sys) (q : Posted) (c : Course) : Prop where
  picked : c = .asked ∨ ∃ p ∈ s.picks, p.pending = some q
  serving : ∀ t ∈ s.live, t.stage = .serving → s.Performs c t
  shown : ∀ call ph, s.worker.phase = some (call, ph) → ph.engaged = true → s.Tells c (s.state 0)
  awaiting : s.Open → ∀ t ∈ s.live, ∀ next, t.stage = .awaiting next → c.Awaits next
  ending : ∀ call o, s.worker.phase = some (call, .ending o) ∨
    s.worker.phase = some (call, .resetting o) → s.Current call → c.outcome = some o

end Sys

/-- The bridge is where the service is. -/
structure Serves (s : Sys) (a : Service) : Prop where
  latest : a.latest.map Prod.fst = s.posted 0
  begun : a.latest = none → a.calls = []
  running : ∀ call ph, s.worker.phase = some (call, ph) → ph ≠ .preparing → call.posted ∈ a.calls
  held : ∀ call ∈ s.suspended, call.posted ∈ a.calls
  due : ∀ call w, s.worker.phase = some (call, .asking w) → s.state 0 ≠ .idle
  stale : ∀ call o, s.worker.phase = some (call, .ending o) → ¬ s.Current call →
    o = .stop ∧ call.request.kind = .serverStream
  course : ∀ q c, a.latest = some (q, c) → s.Matches q c

/-- What is known of the runs in which requests fit. -/
structure Delivering (s : Sys) : Prop where
  settled : Settled s
  paced : Paced s
  single : s.backends ≤ 1
  dispatched : Dispatched s
  traced : Traced s
  conveying : Conveying s

theorem delivering_of_fitting {engine : Engine} {s : Sys}
    (h : (system engine).Reachable (fun s a ↦ s.Single a ∧ s.Fitting a ∧ Sys.Counted a) s) :
    Delivering s := by
  obtain ⟨hset, hp, hb⟩ := settled_of_fitting h
  have hsteady := steady_of_fitting h
  exact ⟨hset, hp, hb, dispatched_of_steady hsteady, traced_of_steady hsteady,
    conveying_of_fitting h⟩

theorem Serves.init : Serves {} {} where
  latest := rfl
  begun _ := rfl
  running _ _ h := by cases h
  held _ h := by cases h
  due _ _ h := by cases h
  stale _ _ h := by cases h
  course _ _ h := by cases h

/-! ## What is shown of a step -/

section
variable {s s' : Sys} {a : Service} {q : Posted} {c c' : Course}

/-- A step of the worker's that is no ask and closes no generator. -/
theorem Sys.observed_worker (events : List Event) (hposted : s'.posted = s.posted)
    (hpicks : s'.picks = s.picks) (hlog : s'.log = s.log ++ events) :
    s.observed .worker s' = events.filterMap Event.op := by
  simp [observed, abandons, asks, sends, records, hposted, hpicks, hlog, Action.byMain]

/-- The last request goes on by one step. -/
theorem Service.run_advance {op : Op} (hl : a.latest = some (q, c)) (hq : q ∈ a.calls)
    (hop : a.step op = a.advance q op) (hc : c.next q.request.kind op = some c') :
    service.run a [op] = some { a with latest := some (q, c') } := by
  rw [System.run_singleton]
  change a.step op = _
  rw [hop, advance, hl]
  simp [hq, hc]

/-! ## Frames -/

namespace Sys

theorem Tells.congr {st : SabState} (h : s.Tells c st) (hb : s.Between → s'.Between)
    (hw : ∀ t, s'.writer (.data (s'.backend 0).data) = some t →
      s.writer (.data (s.backend 0).data) = some t) : s'.Tells c st := by
  cases st with
  | respChunk => exact fun t e ht ↦ h t e (hw t ht)
  | respEnd => exact ⟨h.1, hb h.2⟩
  | respError => exact fun t message kind caught ht ↦ h t message kind caught (hw t ht)
  | _ => trivial

theorem Performs.congr {t : Task} (h : s.Performs c t) (hb : s.Between → s'.Between)
    (hw : ∀ t, s'.writer (.data (s'.backend 0).data) = some t →
      s.writer (.data (s.backend 0).data) = some t) : s'.Performs c t := by
  unfold Performs at h ⊢
  split at h
  any_goals exact h
  all_goals exact Tells.congr h hb hw

theorem Between.of_phase (h : s.Between) (hph : s'.worker.phase = s.worker.phase) :
    s'.Between := by
  rw [Between, hph]
  exact h

theorem tells_of_due {st : SabState} (h : st.answer = false) : s.Tells c st := by
  cases st <;> trivial

namespace Matches

/-- A step that leaves STATE, the invocations, and the exchange of the running call. -/
theorem same (h : s.Matches q c) (hph : s'.worker.phase = s.worker.phase) (hl : s'.live = s.live)
    (hst : s'.state 0 = s.state 0) (hp : s'.posted = s.posted) (hk : s.picks ⊆ s'.picks)
    (hsus : ∀ call ∈ s'.suspended, call ∈ s.suspended)
    (hw : ∀ t, s'.writer (.data (s'.backend 0).data) = some t →
      s.writer (.data (s.backend 0).data) = some t) : s'.Matches q c where
  picked := h.picked.imp_right fun hp ↦ hp.imp fun _ hm ↦ ⟨hk hm.1, hm.2⟩
  serving t hm hs := (h.serving t (hl ▸ hm) hs).congr (fun hb ↦ hb.of_phase hph) hw
  shown call ph hw' he := by
    rw [hst]
    exact (h.shown call ph (hph.symm.trans hw') he).congr (fun hb ↦ hb.of_phase hph) hw
  awaiting ho t hm next hs := by
    refine h.awaiting (ho.back (fun hc ↦ hst ▸ hc) hp fun call hk ↦ ?_) t (hl ▸ hm) next hs
    rw [Keeping, hph] at hk
    exact hk.imp_left (hsus call)
  ending call o hw' hcur := by
    rw [hph] at hw'
    rw [Current, hp] at hcur
    exact h.ending call o hw' hcur

/-- A step of the worker's while nobody serves. -/
theorem worker (h : s.Matches q c) (hst : Stirs s s') (hserv : ∀ t ∈ s.live, t.stage ≠ .serving)
    (hk : s'.picks = s.picks)
    (hshown : ∀ call ph, s'.worker.phase = some (call, ph) → ph.engaged = true →
      s'.Tells c (s'.state 0))
    (hopen : s'.Open → s.Open)
    (hending : ∀ call o, s'.worker.phase = some (call, .ending o) ∨
      s'.worker.phase = some (call, .resetting o) → s'.Current call → c.outcome = some o) :
    s'.Matches q c where
  picked := by
    rw [hk]
    exact h.picked
  serving t hm hs := by
    obtain ⟨t0, hm0, -, hstage, -⟩ := hst.mem hm
    exact absurd (hstage ▸ hs) (hserv t0 hm0)
  shown := hshown
  awaiting ho t hm next hs := by
    obtain ⟨t0, hm0, -, hstage, -⟩ := hst.mem hm
    exact h.awaiting (hopen ho) t0 hm0 next (hstage ▸ hs)
  ending := hending

/-- A step of the worker's out of any message. -/
theorem outside (h : s.Matches q c) (hst : Stirs s s') (hserv : ∀ t ∈ s.live, t.stage ≠ .serving)
    (hk : s'.picks = s.picks)
    (hph : ∀ call ph, s'.worker.phase = some (call, ph) → ph.engaged = false ∧
      (ph.keeps = true → s.Keeping call) ∧ ∀ o, ph ≠ .ending o ∧ ph ≠ .resetting o)
    (hack : s'.state 0 = .chunkAck → s.state 0 = .chunkAck) (hp : s'.posted = s.posted)
    (hsus : ∀ call ∈ s'.suspended, call ∈ s.suspended) : s'.Matches q c := by
  refine h.worker hst hserv hk (fun call ph hw he ↦ ?_) (fun ho ↦ ho.back hack hp fun call hk ↦ ?_)
    fun call o hw _ ↦ ?_
  · rw [(hph call ph hw).1] at he
    cases he
  · rcases hk with hm | ⟨ph, hw, hk⟩
    · exact .inl (hsus call hm)
    · exact (hph call ph hw).2.1 hk
  · rcases hw with hw | hw
    · exact absurd rfl ((hph call _ hw).2.2 o).1
    · exact absurd rfl ((hph call _ hw).2.2 o).2

end Matches

end Sys

namespace Serves

theorem posted_of_latest (h : Serves s a) (hl : a.latest = some (q, c)) : s.posted 0 = some q := by
  rw [← h.latest, hl]
  rfl

theorem exists_latest (h : Serves s a) (hq : s.posted 0 = some q) :
    ∃ c, a.latest = some (q, c) ∧ s.Matches q c := by
  have hl := h.latest
  rw [hq, Option.map_eq_some_iff] at hl
  obtain ⟨l, hl, rfl⟩ := hl
  exact ⟨l.2, hl, h.course _ _ hl⟩

/-- A step that the service does not see. -/
theorem silent (h : Serves s a) (hposted : s'.posted = s.posted)
    (hrunning : ∀ call ph, s'.worker.phase = some (call, ph) → ph ≠ .preparing →
      call.posted ∈ a.calls)
    (hheld : ∀ call ∈ s'.suspended, call.posted ∈ a.calls)
    (hdue : ∀ call w, s'.worker.phase = some (call, .asking w) → s'.state 0 ≠ .idle)
    (hstale : ∀ call o, s'.worker.phase = some (call, .ending o) → ¬ s'.Current call →
      o = .stop ∧ call.request.kind = .serverStream)
    (hcourse : ∀ q c, s.posted 0 = some q → s.Matches q c → s'.Matches q c) : Serves s' a where
  latest := by
    rw [hposted]
    exact h.latest
  begun := h.begun
  running := hrunning
  held := hheld
  due := hdue
  stale := hstale
  course q c hl := hcourse q c (h.posted_of_latest hl) (h.course q c hl)

/-- The running call goes on. -/
theorem goes {call call' : Call} {ph ph' : Phase} (h : Serves s a)
    (hw : s.worker.phase = some (call, ph)) (hw' : s'.worker.phase = some (call', ph'))
    (hcall : call'.posted = call.posted) (hpre : ph = .preparing → ph' = .preparing)
    (hposted : s'.posted = s.posted) (hsus : s'.suspended = s.suspended)
    (hdue : ∀ w, ph' = .asking w → s'.state 0 ≠ .idle)
    (hstale : ∀ o, ph' = .ending o → ¬ s'.Current call' →
      o = .stop ∧ call'.request.kind = .serverStream)
    (hcourse : ∀ q c, s.posted 0 = some q → s.Matches q c → s'.Matches q c) : Serves s' a := by
  refine h.silent hposted (fun call0 ph0 hw0 hne ↦ ?_) (fun call0 hm ↦ h.held call0 (hsus ▸ hm))
    (fun call0 w hw0 ↦ ?_) (fun call0 o hw0 ↦ ?_) hcourse <;>
    rw [hw', Option.some.injEq, Prod.mk.injEq] at hw0 <;> obtain ⟨rfl, rfl⟩ := hw0
  · rw [hcall]
    exact h.running call ph hw fun heq ↦ hne (hpre heq)
  · exact hdue w rfl
  · exact hstale o rfl

end Serves

/-! ## The worker -/

/-- The exception that the worker makes of a report. -/
theorem errorFromMeta_of_holds {d : Region} {message kind : String}
    (h : d.Holds 0 (windowBytes (metaBytes (errorMeta message kind)) []))
    (hlen : (metaBytes (errorMeta message kind)).length < 2 ^ 32) :
    errorFromMeta d = failure message kind := by
  have hmessage : (Json.Members.ofList [("message", Json.str message), ("kind", .str kind)]).get?
      "message" = some (.str message) := by
    simp [Json.Members.ofList, Json.Members.get?]
  have hkind : (Json.Members.ofList [("message", Json.str message), ("kind", .str kind)]).get?
      "kind" = some (.str kind) := by
    simp [Json.Members.ofList, Json.Members.get?]
  rw [errorFromMeta, (readMeta_of_holds h hlen).1, errorMeta, failure]
  simp only [hmessage, hkind, pyStr]
  split
  · rename_i heq
    cases heq
    rfl
  · rename_i heq
    cases heq
    rfl
  · rename_i htimeout habort
    have hne : kind ≠ "timeout" := fun heq ↦ htimeout (congrArg (some ∘ Json.str) heq)
    have hne' : kind ≠ "abort" := fun heq ↦ habort (congrArg (some ∘ Json.str) heq)
    rw [if_neg hne, if_neg hne']

namespace Delivering

variable (hd : Delivering s)

include hd

/-- STATE, when the wait of a call ends. -/
theorem answer (h : Serves s a) {call : Call} {w : Wait}
    (hph : s.worker.phase = some (call, .asking w)) (hne : s.state call.chan ≠ w.expect) :
    (s.state 0).answer = true := by
  have hchan := hd.paced.sound.ledger.chan_eq_zero (Sys.mem_calls_of_phase hph) hd.single
  have hquiet : s.Quiet := by
    refine hd.paced.lockstep.quiet fun call0 w0 hw0 ↦ ?_
    rw [hph, Option.some.injEq, Prod.mk.injEq] at hw0
    obtain ⟨rfl, heq⟩ := hw0
    cases heq
    exact hne
  have hturn := hquiet.states 0
  have hidle := h.due call w hph
  cases hst : s.state 0 <;> rw [hst] at hturn hidle <;> first
    | rfl
    | exact absurd rfl hidle
    | cases hturn

/-- How the wait of a call ends. -/
theorem answered (h : s.Matches q c) {call : Call} {w : Wait}
    (hph : s.worker.phase = some (call, .asking w)) (hans : (s.state 0).answer = true) :
    (afterWait call w (s.state call.chan) (s.region call.chan)).2.phase = .reading ∧
        s.state 0 = .respChunk ∨
      ∃ o, (afterWait call w (s.state call.chan) (s.region call.chan)).2.phase = .ending o ∧
        c.outcome = some o := by
  have hchan := hd.paced.sound.ledger.chan_eq_zero (Sys.mem_calls_of_phase hph) hd.single
  have hnew := Sys.newest_eq_zero hd.single
  have hexch := hd.paced.sound.exchange
  rw [hnew] at hexch
  have htells := h.shown call _ hph rfl
  obtain ⟨p, off, next, -, -, -, hshows, -⟩ := hexch.answered call _ hph hchan rfl hans
  rw [hchan]
  cases hst : s.state 0 <;> rw [hst] at hans htells hshows
  case respChunk => exact .inl ⟨(afterWait_chunk call w _).1, rfl⟩
  case respEnd =>
    obtain ⟨rfl, hbetween⟩ := htells
    have hkind : call.request.kind = .serverStream := by
      have := hexch.not_unary hph hchan hst
      cases hk : call.request.kind with
      | unary => exact absurd hk this
      | serverStream => rfl
    refine .inr ⟨.stop, ?_, rfl⟩
    cases w with
    | window => cases hbetween call _ hph
    | first | chunk => simp only [afterWait, hkind]; rfl
  case respError =>
    obtain ⟨-, t, message, kind, caught, hwd, -, hpc, hholds⟩ := hshows
    have hfits := hholds.fits
    simp only [windowBytes, List.length_append, Region.length_u32] at hfits
    have hsize := hd.settled.sizes (s.backend 0).data
    rw [Sys.region] at hfits
    rw [htells t message kind caught hwd hpc]
    refine .inr ⟨.raised (failure message kind), ?_, rfl⟩
    rw [← errorFromMeta_of_holds hholds (by omega)]
    cases w <;> cases hk : call.request.kind <;> simp only [afterWait] <;> rfl
  all_goals cases hans

/-- Two calls that are not over have requests of their own. -/
theorem posted_ne {call call' : Call} (hm : call ∈ s.calls) (hm' : call' ∈ s.calls)
    (hne : call.key ≠ call'.key) : call.posted ≠ call'.posted := by
  intro heq
  have hl := hd.paced.sound.ledger
  refine hne (Call.key_eq ?_ (congrArg Posted.gen heq))
  rw [hl.chan_eq_zero hm hd.single, hl.chan_eq_zero hm' hd.single]

/-- A call whose generation GEN does not hold is not current. -/
theorem not_current {call : Call} (hm : call ∈ s.calls)
    (hne : (s.backend call.chan).ctrl.gen ≠ call.gen) : ¬ s.Current call := by
  intro hcur
  have hl := hd.paced.sound.ledger
  have hle := hl.gen_le hm
  rw [hl.chan_eq_zero hm hd.single] at hle
  exact hne ((hl.word _ _ hcur).1.trans (toInt32_of_lt (hle.trans_lt hd.settled.gen)))

/-- A call stores its request. -/
theorem asks {call : Call} {r : Region} (h : Serves s a) (hw : s.worker = .run call .marshal) :
    ∃ a', service.run a (s.observed .worker (s.marshalled call r)) = some a' ∧
      Serves (s.marshalled call r) a' := by
  have hph : s.worker.phase = some (call, .preparing) := by rw [hw]; rfl
  have hl := hd.paced.sound.ledger
  have hchan := hl.chan_eq_zero (Sys.mem_calls_of_phase hph) hd.single
  have hquiet : s.Quiet := hd.paced.lockstep.quiet_of_not_asking hph rfl
  have hposted : (s.marshalled call r).posted 0 = some call.posted := by
    rw [← hchan]
    exact Function.update_self ..
  have hnew : ∀ q, s.posted 0 = some q → q.gen < call.gen := fun q hq ↦
    (hl.running call _ hph).2 q (hchan ▸ hq)
  have hobs : s.observed .worker (s.marshalled call r) = [.asked call.posted] := by
    have hne : (s.marshalled call r).posted 0 ≠ s.posted 0 := by
      rw [hposted]
      exact fun heq ↦ absurd (hnew _ heq.symm) (lt_irrefl _)
    have hlog : (s.marshalled call r).log = s.log := rfl
    have hpicks : (s.marshalled call r).picks = s.picks := rfl
    simp [Sys.observed, Sys.abandons, Sys.asks, Sys.sends, Sys.records, hposted ▸ hne, hposted,
      hlog, hpicks, Action.byMain]
  refine ⟨⟨call.posted :: a.calls, some (call.posted, .asked)⟩, ?_, ?_⟩
  · have hlt : ∀ l ∈ a.latest, l.1.gen < call.posted.gen := by
      intro l hm
      refine hnew l.1 ?_
      rw [← h.latest, Option.mem_def.mp hm]
      rfl
    rw [hobs, System.run_singleton]
    exact if_pos hlt
  · refine ⟨hposted.symm, fun h ↦ (by cases h), fun call0 ph hw0 _ ↦ ?_, fun call0 hm ↦
      List.mem_cons_of_mem _ (h.held call0 hm), fun call0 w hw0 ↦ (by cases hw0),
      fun call0 o hw0 ↦ (by cases hw0), fun q c hlatest ↦ ?_⟩
    · cases hw0
      exact List.mem_cons_self
    · cases hlatest
      refine ⟨.inl rfl, fun t hm hs ↦ absurd hs (hquiet.serving t hm), fun call0 ph hw0 he ↦ ?_,
        fun ho ↦ ?_, fun call0 o hw0 ↦ ?_⟩
      · cases hw0
        cases he
      · rcases ho with hst | ⟨call0, hm0 | ⟨ph, hw0, hk⟩, hcur0⟩
        · exact absurd ((state_marshalled s call r 0).symm.trans hst)
            (SabState.ne_of_not_mainTurn (hquiet.states 0)).2
        · have hcur : (s.marshalled call r).Current call := Function.update_self ..
          exact absurd hcur0 (hcur.not_of_key_ne
            ((hl.chan_eq_zero (Sys.mem_calls_of_suspended hm0) hd.single).trans hchan.symm)
            (hl.suspended_ne_running hph hm0))
        · cases hw0
          cases hk
      · rcases hw0 with hw0 | hw0 <;> cases hw0

/-- A call that reads has been told so. -/
theorem reading {call : Call} (hph : s.worker.phase = some (call, .reading)) :
    s.state 0 = .respChunk := by
  have hl := hd.paced.sound.ledger
  have hchan := hl.chan_eq_zero (Sys.mem_calls_of_phase hph) hd.single
  have hnew := Sys.newest_eq_zero hd.single
  have := hd.paced.sound.exchange.holding call (.inr ⟨_, hph, rfl⟩) (hchan.trans hnew.symm)
    (hl.current_of_engaged hph rfl)
  rwa [hnew] at this

/-- The window that a call reads is one of what was received last. -/
theorem carries {call : Call} {t : Task} {e : Emission} (h : s.Matches q c)
    (hph : s.worker.phase = some (call, .reading))
    (hwd : s.writer (.data (s.backend 0).data) = some t) (hpc : t.pc = .window e) :
    c.Carries e := by
  have htells := h.shown call _ hph rfl
  rw [hd.reading hph] at htells
  exact htells t e hwd hpc

/-- A call yields a chunk. -/
theorem yields {call call' : Call} (h : Serves s a) (hw : s.worker = .run call .readWindow)
    (hk : call'.request.kind = .serverStream)
    (ht : takeWindow call (s.region call.chan) (s.backend call.chan).ctrl.length = .last call')
    (hs' : s' = { s with worker := .ready, suspended := s.suspended ++ [call'] }.logged
      (.yielded call' call'.parts.flatten)) :
    ∃ a', service.run a (s.observed .worker s') = some a' ∧ Serves s' a' := by
  have hph : s.worker.phase = some (call, .reading) := by rw [hw]; rfl
  have hl := hd.paced.sound.ledger
  have hchan := hl.chan_eq_zero (Sys.mem_calls_of_phase hph) hd.single
  have hquiet : s.Quiet := hd.paced.lockstep.quiet_of_not_asking hph rfl
  obtain ⟨e, p, t, hwd, hpc, hsends, hup, hkind, -, hfollows, htake⟩ :=
    hd.conveying.finds_written hd.paced hd.single (hd.settled.sizes _) hw
  rw [ht] at htake
  rcases hmore : e.more with _ | _
  swap
  · rw [hmore] at htake
    cases htake
  rw [hmore] at htake
  cases htake
  -- the call is that of the request stored last, and the chunk the one that was read for it
  have hposted : s.posted 0 = some call.posted := by
    have hcur : s.Current call := hl.current_of_engaged hph rfl
    rwa [Sys.Current, hchan] at hcur
  obtain ⟨c, hlatest, hmatches⟩ := h.exists_latest hposted
  have hstream : e.streaming = true := by
    rw [Emission.kind, show call.request.kind = .serverStream from hk] at hkind
    by_contra hne
    rw [if_neg hne] at hkind
    cases hkind
  have hcarries : c = .streaming e.resp (some e.bytes) := by
    have := hd.carries hmatches hph hwd hpc
    rwa [Course.Carries, if_pos hstream] at this
  have hflat : (call.take e).parts.flatten = e.bytes := by
    rw [hup.flatten_take hsends.inside hsends.room, Emission.take_stop hmore]
  have hnext : e.next = .read e.resp := by
    rw [Emission.next, hmore, hstream]
    rfl
  rw [hnext] at hfollows
  obtain ⟨t0, hlive, -, hstage⟩ := hfollows
  have hmem := h.running call _ hph (by simp)
  have hobs : s.observed .worker s' = [.yielded call.posted e.bytes] := by
    rw [Sys.observed_worker [.yielded (call.take e) e.bytes] (by rw [hs']; rfl) (by rw [hs']; rfl)
      (by rw [hs', hflat]; rfl)]
    rfl
  refine ⟨{ a with latest := some (call.posted, .streaming e.resp none) }, ?_, ?_⟩
  · rw [hobs]
    refine Service.run_advance hlatest hmem rfl ?_
    rw [hcarries]
    exact if_pos rfl
  · subst hs'
    refine ⟨hposted.symm, fun h ↦ (by cases h), fun call0 ph hw0 ↦ (by cases hw0),
      fun call0 hm0 ↦ ?_, fun call0 w hw0 ↦ (by cases hw0), fun call0 o hw0 ↦ (by cases hw0),
      fun q c hlatest ↦ ?_⟩
    · rcases List.mem_append.mp hm0 with hm0 | hm0
      · exact h.held call0 hm0
      · rw [List.mem_singleton.mp hm0]
        exact hmem
    · cases hlatest
      refine ⟨.inr ?_, fun t hm hs ↦ absurd hs (hquiet.serving t hm), fun call0 ph hw0 ↦
        (by cases hw0), fun _ t hm next hs ↦ ?_, fun call0 o hw0 ↦ ?_⟩
      · exact hmatches.picked.resolve_left (by rw [hcarries]; simp)
      · change t ∈ s.live at hm
        rw [hlive, List.mem_singleton] at hm
        rw [hm, hstage] at hs
        cases hs
        rfl
      · rcases hw0 with hw0 | hw0 <;> cases hw0

/-- A call ends. -/
theorem finishes {call : Call} {ph : Phase} {o : Outcome} {latest : Nat} (h : Serves s a)
    (hph : s.worker.phase = some (call, ph)) (hpre : ph ≠ .preparing)
    (hends : a.Ends call.posted o) (hw' : s'.worker.phase = none)
    (hsus : s'.suspended = s.suspended) (hposted : s'.posted = s.posted)
    (hpicks : s'.picks = s.picks) (hlog : s'.log = s.log ++ [Event.returned call o latest])
    (hcourse : ∀ q c, s.posted 0 = some q → s.Matches q c → s'.Matches q c) :
    ∃ a', service.run a (s.observed .worker s') = some a' ∧ Serves s' a' := by
  refine ⟨a.settle call.posted, ?_, ?_⟩
  · rw [Sys.observed_worker _ hposted hpicks hlog]
    exact (System.run_singleton service a _).trans
      (if_pos ⟨h.running call ph hph hpre, hends⟩)
  · refine ⟨?_, fun hn ↦ ?_, fun call0 ph0 hw0 ↦ ?_, fun call0 hm0 ↦ ?_, fun call0 w hw0 ↦ ?_,
      fun call0 o hw0 ↦ ?_, fun q c hl ↦ hcourse q c (h.posted_of_latest hl) (h.course q c hl)⟩
    · rw [hposted]
      exact h.latest
    · rw [Service.settle, h.begun hn]
      rfl
    · cases hw'.symm.trans hw0
    · rw [hsus] at hm0
      refine List.mem_filter.mpr ⟨h.held call0 hm0, decide_eq_true ?_⟩
      exact hd.posted_ne (Sys.mem_calls_of_suspended hm0) (Sys.mem_calls_of_phase hph)
        (hd.paced.sound.ledger.suspended_ne_running hph hm0)
    · cases hw'.symm.trans hw0
    · cases hw'.symm.trans hw0

end Delivering

theorem CallMove.serves {call : Call} {pc : Pc} (hm : CallMove s call pc s')
    (hw : s.worker = .run call pc) (hd : Delivering s) (h : Serves s a) :
    ∃ a', service.run a (s.observed .worker s') = some a' ∧ Serves s' a' := by
  have hph : s.worker.phase = some (call, pc.phase) := by rw [hw]; rfl
  have hl := hd.paced.sound.ledger
  have hmem := Sys.mem_calls_of_phase hph
  have hchan := hl.chan_eq_zero hmem hd.single
  have hruns := hl.running call _ hph
  have hstirs := hm.stirs hw hd.paced.sound.shape hd.paced.sound.only
  -- between two waits all is quiet
  have quiet : pc.phase.asks = false → s.Quiet := hd.paced.lockstep.quiet_of_not_asking hph
  have silent : s'.posted = s.posted → s'.picks = s.picks → s'.log = s.log → Serves s' a →
      ∃ a', service.run a (s.observed .worker s') = some a' ∧ Serves s' a' := by
    intro hposted hpicks hlog hs
    rw [Sys.observed_worker [] hposted hpicks (hlog.trans (List.append_nil _).symm)]
    exact ⟨a, rfl, hs⟩
  -- a step out of any message
  have outside : ∀ {ph' : Phase}, s'.worker.phase = some (call, ph') → pc.phase.asks = false →
      (pc.phase = .preparing → ph' = .preparing) → ph'.engaged = false →
      (ph'.keeps = true → s.Keeping call) → (∀ o, ph' ≠ .ending o ∧ ph' ≠ .resetting o) →
      (s'.state 0 = .chunkAck → s.state 0 = .chunkAck) → s'.posted = s.posted →
      s'.picks = s.picks → s'.log = s.log → s'.suspended = s.suspended →
      ∃ a', service.run a (s.observed .worker s') = some a' ∧ Serves s' a' := by
    intro ph' hph' hask hpre he hk hends hack hposted hpicks hlog hsus
    refine silent hposted hpicks hlog (h.goes hph hph' rfl hpre hposted hsus (fun w hw0 ↦ ?_)
      (fun o hw0 ↦ absurd hw0 (hends o).1) fun q c _ hmatches ↦ ?_)
    · rw [hw0] at he
      cases he
    · refine hmatches.outside hstirs (quiet hask).serving hpicks (fun call0 ph hw0 ↦ ?_) hack
        hposted fun _ hm0 ↦ hsus ▸ hm0
      cases hph'.symm.trans hw0
      exact ⟨he, hk, hends⟩
  -- a step of a current call in its exchange
  have inside : ∀ {call' : Call} {ph' : Phase}, s'.worker.phase = some (call', ph') →
      call'.key = call.key → call'.request = call.request → pc.phase ≠ .preparing → s.Quiet →
      s.Current call → ph'.keeps = false → s'.state 0 ≠ .chunkAck → s'.posted = s.posted →
      s'.picks = s.picks → s'.log = s.log → s'.suspended = s.suspended →
      (∀ w, ph' = .asking w → s'.state 0 ≠ .idle) →
      (∀ q c, s.Matches q c → ph'.engaged = true → s'.Tells c (s'.state 0)) →
      (∀ q c, s.Matches q c → ∀ o, ph' = .ending o ∨ ph' = .resetting o → c.outcome = some o) →
      ∃ a', service.run a (s.observed .worker s') = some a' ∧ Serves s' a' := by
    intro call' ph' hph' hkey hreq hpre hquiet hcur hk hack hposted hpicks hlog hsus hdue htells
      hends
    have hcall : call'.posted = call.posted := by
      rw [Call.posted, hreq, show call'.gen = call.gen from congrArg Prod.snd hkey]
    have hcur' : s'.Current call' := by
      rw [Sys.Current, hposted, show call'.chan = call.chan from congrArg Prod.fst hkey]
      exact hcur.trans (congrArg some hcall.symm)
    refine silent hposted hpicks hlog (h.goes hph hph' hcall (fun heq ↦ absurd heq hpre) hposted
      hsus hdue (fun o _ hstale ↦ absurd hcur' hstale) fun q c _ hmatches ↦ ?_)
    refine hmatches.worker hstirs hquiet.serving hpicks (fun call0 ph hw0 he ↦ ?_)
      (fun ho ↦ absurd ho (hd.paced.not_open hd.single hph hcur hposted hsus hack
        fun call0 ph hw0 ↦ ?_)) fun call0 o hw0 _ ↦ hends q c hmatches o ?_
    · cases hph'.symm.trans hw0
      exact htells q c hmatches he
    · cases hph'.symm.trans hw0
      exact hk
    · refine hw0.imp (fun hw0 ↦ ?_) fun hw0 ↦ ?_
      · cases hph'.symm.trans hw0
        rfl
      · cases hph'.symm.trans hw0
        rfl
  -- a call acks what it took
  have acks : ∀ {w : Wait}, s'.worker.phase = some (call, .asking w) →
      pc.phase = .acking w → s'.state 0 = .chunkAck → s.Current call → s'.posted = s.posted →
      s'.picks = s.picks → s'.log = s.log → s'.suspended = s.suspended →
      ∃ a', service.run a (s.observed .worker s') = some a' ∧ Serves s' a' := by
    intro w hph' hpc hst hcur hposted hpicks hlog hsus
    have hquiet : s.Quiet := quiet (by rw [hpc]; rfl)
    refine silent hposted hpicks hlog (h.goes hph hph' rfl (fun hpre ↦ ?_) hposted hsus
      (fun _ _ ↦ by simp [hst]) (fun _ ho ↦ (by cases ho)) fun q c _ hmatches ↦ ?_)
    · rw [hpc] at hpre
      cases hpre
    · refine hmatches.worker hstirs hquiet.serving hpicks (fun call0 ph _ _ ↦ ?_)
        (fun _ ↦ .inr ⟨call, .inr ⟨_, hph, by rw [hpc]; rfl⟩, hcur⟩) fun call0 o hw0 ↦ ?_
      · rw [hst]
        trivial
      · rcases hw0 with hw0 | hw0 <;> cases hph'.symm.trans hw0
  cases hm with
  | @grow capacity _ =>
      refine outside rfl rfl (fun _ ↦ rfl) rfl (fun hk ↦ (by cases hk))
        (fun o ↦ ⟨fun ho ↦ (by cases ho), fun ho ↦ (by cases ho)⟩) (fun hst ↦ ?_) rfl rfl rfl rfl
      exact (state_attachData s call.chan capacity 0).symm.trans hst
  | announce =>
      exact outside rfl rfl (fun _ ↦ rfl) rfl (fun hk ↦ (by cases hk))
        (fun o ↦ ⟨fun ho ↦ (by cases ho), fun ho ↦ (by cases ho)⟩) id rfl rfl rfl rfl
  | marshal _ => exact hd.asks h hw
  | unfit hr =>
      obtain ⟨r', hr', -⟩ := writeRequest_of_fits (hd.paced.sound.announced.fits call _ hw (.inl rfl))
      cases hr.symm.trans hr'
  | @storeLength off =>
      refine outside rfl rfl (fun hpre ↦ (by cases hpre)) rfl (fun hk ↦ (by cases hk))
        (fun o ↦ ⟨fun ho ↦ (by cases ho), fun ho ↦ (by cases ho)⟩) (fun hst ↦ ?_) rfl rfl rfl rfl
      exact (Sys.state_setCtrl s call.chan 0 (fun ctrl ↦ { ctrl with length := toInt32 off })
        fun _ ↦ rfl).symm.trans hst
  | storeSeq =>
      refine outside rfl rfl (fun hpre ↦ (by cases hpre)) rfl (fun hk ↦ (by cases hk))
        (fun o ↦ ⟨fun ho ↦ (by cases ho), fun ho ↦ (by cases ho)⟩) (fun hst ↦ ?_) rfl rfl rfl rfl
      exact (Sys.state_setCtrl s call.chan 0 (fun ctrl ↦ { ctrl with seq := 0 })
        fun _ ↦ rfl).symm.trans hst
  | storeReady =>
      have hst : Sys.state ((s.storeByWorker call.chan .reqReady).goto call .nudge) 0 = .reqReady :=
        (Sys.state_storeByWorker s call.chan 0 .reqReady).trans (if_pos hchan.symm)
      refine inside rfl rfl rfl (fun hpre ↦ (by cases hpre)) (quiet rfl) hruns rfl (by simp [hst])
        rfl rfl rfl rfl (fun _ _ ↦ by simp [hst]) (fun q c _ _ ↦ ?_) fun _ _ _ o ho ↦ ?_
      · rw [hst]
        trivial
      · rcases ho with ho | ho <;> cases ho
  | nudge | due _ | park _ | notEqual _ =>
      refine silent rfl rfl rfl (h.goes hph rfl rfl (fun hpre ↦ (by cases hpre)) rfl rfl
        (fun w _ ↦ h.due call _ hph) (fun o ho ↦ (by cases ho)) fun q c _ hmatches ↦ ?_)
      exact hmatches.same hph.symm rfl rfl rfl (fun _ hm ↦ hm) (fun _ hm ↦ hm) fun _ ht ↦ ht
  | @answered w hne =>
      have hans := hd.answer h hph hne
      obtain ⟨hc, hg, hreq⟩ := afterWait_call call w (s.state call.chan) (s.region call.chan)
      have hquiet : s.Quiet := by
        refine hd.paced.lockstep.quiet fun call0 w0 hw0 ↦ ?_
        rw [hph, Option.some.injEq, Prod.mk.injEq] at hw0
        obtain ⟨rfl, heq⟩ := hw0
        cases heq
        exact hne
      refine inside rfl (Call.key_eq hc hg) hreq (fun hpre ↦ (by cases hpre)) hquiet
        (hl.current_of_engaged hph rfl) ?_ (SabState.ne_of_not_mainTurn (hquiet.states 0)).2 rfl rfl
        rfl rfl (fun w' ho ↦ ?_) (fun q c hmatches he ↦ ?_) fun q c hmatches o ho ↦ ?_
      · rcases afterWait_phase call w (s.state call.chan) (s.region call.chan) with heq | ⟨_, heq⟩ <;>
          rw [heq] <;> rfl
      · exact h.due call w hph
      · rcases hd.answered hmatches hph hans with ⟨-, hst⟩ | ⟨o, heq, -⟩
        · have htells := hmatches.shown call _ hph rfl
          change Sys.Tells _ c (s.state 0)
          rw [hst] at htells ⊢
          exact htells
        · rw [heq] at he
          cases he
      · rcases hd.answered hmatches hph hans with ⟨heq, -⟩ | ⟨o', heq, hout⟩
        · rw [heq] at ho
          rcases ho with ho | ho <;> cases ho
        · rw [heq] at ho
          rcases ho with ho | ho <;> cases ho
          exact hout
  | @loadStatus chunk call' hcall' =>
      obtain ⟨rfl, -⟩ := hd.conveying.begun call _ hw
      have hquiet := quiet rfl
      refine inside rfl (by rw [hcall']; rfl) (by rw [hcall']) (fun hpre ↦ (by cases hpre)) hquiet
        (hl.current_of_engaged hph rfl) rfl (SabState.ne_of_not_mainTurn (hquiet.states 0)).2 rfl rfl
        rfl rfl (fun w' ho ↦ (by cases ho)) (fun q c hmatches _ ↦ ?_) fun _ _ _ o ho ↦ ?_
      · refine (hmatches.shown call _ hph rfl).congr (fun _ call0 ph hw0 ↦ ?_) fun _ ht ↦ ht
        cases hw0
        rfl
      · rcases ho with ho | ho <;> cases ho
  | malformed ht =>
      obtain ⟨e, p, -, -, -, -, -, htake⟩ :=
        hd.conveying.finds hd.paced hd.single (hd.settled.sizes _) hw
      rw [ht] at htake
      split at htake <;> cases htake
  | @more call' ht =>
      obtain ⟨e, p, t, hwd, hpc, -, -, -, -, hfollows, htake⟩ :=
        hd.conveying.finds_written hd.paced hd.single (hd.settled.sizes _) hw
      rw [ht] at htake
      rcases hmore : e.more with _ | _
      · rw [hmore] at htake
        cases htake
      rw [hmore] at htake
      cases htake
      obtain ⟨e', hnext⟩ : ∃ e', e.next = .window e' := by
        rw [Emission.next, hmore]
        exact ⟨_, rfl⟩
      rw [hnext] at hfollows
      obtain ⟨t0, hlive, -, hstage⟩ := hfollows
      refine silent rfl rfl rfl (h.goes hph rfl rfl (fun hpre ↦ (by cases hpre)) rfl rfl
        (fun _ hw0 ↦ (by cases hw0)) (fun _ ho ↦ (by cases ho)) fun q c _ hmatches ↦ ?_)
      refine ⟨hmatches.picked, fun t hm hs ↦ absurd hs ((quiet rfl).serving t hm),
        fun call0 ph hw0 he ↦ ?_, fun _ t1 hm next hs ↦ ?_, fun call0 o hw0 ↦ ?_⟩
      · cases hw0
        cases he
      · change t1 ∈ s.live at hm
        rw [hlive, List.mem_singleton] at hm
        rw [hm, hstage] at hs
        cases hs
        have hcarries := hd.carries hmatches hph hwd hpc
        obtain ⟨-, rfl⟩ := Emission.next_eq_window hnext
        exact hcarries
      · rcases hw0 with hw0 | hw0 <;> cases hw0
  | @complete call' hk ht =>
      obtain ⟨e, p, t, hwd, hpc, hsends, hup, hkind, hstatus, -, htake⟩ :=
        hd.conveying.finds_written hd.paced hd.single (hd.settled.sizes _) hw
      rw [ht] at htake
      rcases hmore : e.more with _ | _
      swap
      · rw [hmore] at htake
        cases htake
      rw [hmore] at htake
      cases htake
      have hunary : e.streaming = false := by
        rw [Emission.kind, show call.request.kind = .unary from hk] at hkind
        by_contra hne
        rw [if_pos (Bool.of_not_eq_false hne)] at hkind
        cases hkind
      have hquiet := quiet rfl
      refine inside rfl rfl rfl (fun hpre ↦ (by cases hpre)) hquiet (hl.current_of_engaged hph rfl)
        rfl (SabState.ne_of_not_mainTurn (hquiet.states 0)).2 rfl rfl rfl rfl
        (fun _ ho ↦ (by cases ho)) (fun _ _ _ he ↦ (by cases he)) fun q c hmatches o ho ↦ ?_
      have hcarries := hd.carries hmatches hph hwd hpc
      rw [Course.Carries, hunary] at hcarries
      rcases ho with ho | ho <;> cases ho
      rw [hcarries,
        hup.unaryOutcome_take hsends.inside hsends.room hunary hmore (hstatus hunary)]
      rfl
  | yield hk ht => exact hd.yields h hw hk ht rfl
  | ackWindow =>
      have hst : Sys.state ((s.storeByWorker call.chan .chunkAck).goto call (.wait .window)) 0 =
          .chunkAck := (Sys.state_storeByWorker s call.chan 0 .chunkAck).trans (if_pos hchan.symm)
      exact acks rfl rfl hst hruns rfl rfl rfl rfl
  | ackChunk =>
      have hst : Sys.state ((s.storeByWorker call.chan .chunkAck).goto call (.wait .chunk)) 0 =
          .chunkAck := (Sys.state_storeByWorker s call.chan 0 .chunkAck).trans (if_pos hchan.symm)
      exact acks rfl rfl hst hruns rfl rfl rfl rfl
  | current _ =>
      exact outside rfl rfl (fun hpre ↦ (by cases hpre)) rfl (fun _ ↦ .inr ⟨_, hph, rfl⟩)
        (fun o ↦ ⟨fun ho ↦ (by cases ho), fun ho ↦ (by cases ho)⟩) id rfl rfl rfl rfl
  | stale hne =>
      have hcur := hd.not_current hmem hne
      refine silent rfl rfl rfl (h.goes hph rfl rfl (fun hpre ↦ (by cases hpre)) rfl rfl
        (fun _ hw0 ↦ (by cases hw0)) (fun o ho _ ↦ ?_) fun q c _ hmatches ↦ ?_)
      · cases ho
        exact ⟨rfl, hd.conveying.begun call _ hw⟩
      · refine hmatches.worker hstirs (quiet rfl).serving rfl (fun call0 ph hw0 he ↦ ?_)
          (fun ho ↦ ?_) fun call0 o hw0 hcur0 ↦ ?_
        · cases hw0
          cases he
        · refine Sys.Open.back ?_ ?_ (fun call0 hk ↦ ?_) ho
          · exact id
          · rfl
          rcases hk with hm0 | ⟨ph, hw0, hk⟩
          · exact .inl hm0
          · cases hw0
            cases hk
        · rcases hw0 with hw0 | hw0 <;> cases hw0
          exact absurd hcur0 hcur
  | @resets o hgen =>
      have hcur : s.Current call := hruns.resolve_right fun hne ↦ hne hgen
      have hquiet := quiet rfl
      refine inside rfl rfl rfl (fun hpre ↦ (by cases hpre)) hquiet hcur rfl
        (SabState.ne_of_not_mainTurn (hquiet.states 0)).2 rfl rfl rfl rfl
        (fun _ ho ↦ (by cases ho)) (fun _ _ _ he ↦ (by cases he)) fun q c hmatches o' ho ↦ ?_
      rcases ho with ho | ho <;> cases ho
      exact hmatches.ending call o (.inl hph) hcur
  | @keeps o hne =>
      have hcur := hd.not_current hmem hne
      obtain ⟨rfl, hkind⟩ := h.stale call o hph hcur
      refine hd.finishes h hph (by simp [Pc.phase]) ?_ rfl rfl rfl rfl rfl fun q c _ hmatches ↦ ?_
      · have hcalls := h.running call _ hph (by simp [Pc.phase])
        obtain ⟨l, hl'⟩ := Option.ne_none_iff_exists'.mp fun hn ↦
          List.ne_nil_of_mem hcalls (h.begun hn)
        refine ⟨l, hl', ?_⟩
        rw [if_neg]
        · exact ⟨rfl, hkind⟩
        · rintro heq
          refine hcur ?_
          change s.posted call.chan = some call.posted
          rw [hchan, ← heq]
          exact h.posted_of_latest hl'
      · exact hmatches.outside hstirs (quiet rfl).serving rfl (fun _ _ hw0 ↦ (by cases hw0)) id rfl
          fun _ hm0 ↦ hm0
  | @resetStore o =>
      have hst : Sys.state ((s.storeByWorker call.chan .idle).finish call o) 0 = .idle :=
        (Sys.state_storeByWorker s call.chan 0 .idle).trans (if_pos hchan.symm)
      have hcur : s.Current call := hruns
      refine hd.finishes h hph (by simp [Pc.phase]) ?_ rfl rfl rfl rfl rfl fun q c _ hmatches ↦ ?_
      · have hposted : s.posted 0 = some call.posted := by
          rw [← hchan]
          exact hcur
        obtain ⟨c, hl', hmatches⟩ := h.exists_latest hposted
        refine ⟨_, hl', ?_⟩
        rw [if_pos rfl]
        exact hmatches.ending call o (.inr hph) hcur
      · refine hmatches.outside hstirs (quiet rfl).serving rfl (fun _ _ hw0 ↦ (by cases hw0))
          (fun hack ↦ ?_) rfl fun _ hm0 ↦ hm0
        rw [hst] at hack
        cases hack

/-- A generator is closed. -/
theorem Delivering.closes {i : Nat} {call : Call} (hd : Delivering s) (hd' : Delivering s')
    (h : Serves s a) (hi : s.suspended[i]? = some call)
    (hs' : s' = { s with
      closing := some ⟨call, false⟩, suspended := s.suspended.eraseIdx i }) :
    ∃ a', service.run a (s.observed (.close i) s') = some a' ∧ Serves s' a' := by
  have hl := hd.paced.sound.ledger
  have hheld := List.mem_of_getElem? hi
  have hmem := Sys.mem_calls_of_suspended hheld
  have hobs : s.observed (.close i) s' = [.abandoned call.posted] := by
    rw [hs']
    simp [Sys.observed, Sys.abandons, hi, Sys.asks, Sys.sends, Sys.records, Action.byMain]
  have hsub : ∀ call0 ∈ s.suspended.eraseIdx i, call0 ∈ s.suspended := fun _ hm ↦
    List.mem_of_mem_eraseIdx hm
  refine ⟨a.settle call.posted, ?_, ?_⟩
  · rw [hobs, System.run_singleton]
    exact if_pos ⟨h.held call hheld, hd.conveying.held call hheld⟩
  · subst hs'
    refine ⟨h.latest, fun hn ↦ ?_, fun call0 ph hw hpre ↦ ?_, fun call0 hm ↦ ?_, h.due, h.stale,
      fun q c hl' ↦ ?_⟩
    · rw [Service.settle, h.begun hn]
      rfl
    · refine List.mem_filter.mpr ⟨h.running call0 ph hw hpre, decide_eq_true ?_⟩
      exact (hd.posted_ne hmem (Sys.mem_calls_of_phase hw)
        (hl.suspended_ne_running hw hheld)).symm
    · refine List.mem_filter.mpr ⟨h.held call0 (hsub call0 hm), decide_eq_true ?_⟩
      exact hd.posted_ne (Sys.mem_calls_of_suspended (hsub call0 hm)) hmem
        (hd'.paced.sound.ledger.suspended_ne_closing rfl hm)
    · exact (h.course q c hl').same rfl rfl rfl rfl (fun _ hm ↦ hm) hsub fun _ ht ↦ ht

theorem WorkerMove.serves {act : Action} (hm : WorkerMove s act s') (hd : Delivering s)
    (hd' : Delivering s') (h : Serves s a) :
    ∃ a', service.run a (s.observed act s') = some a' ∧ Serves s' a' := by
  have hl := hd.paced.sound.ledger
  have hstirs := hm.stirs hd.paced.sound.shape hd.paced.sound.only
  have silent : s.abandons act = [] → act.byMain = false → s'.posted = s.posted →
      s'.picks = s.picks → s'.log = s.log → Serves s' a →
      ∃ a', service.run a (s.observed act s') = some a' ∧ Serves s' a' := by
    intro habandons hby hposted hpicks hlog hs
    have hobs : s.observed act s' = [] := by
      simp [Sys.observed, habandons, hby, hposted, Sys.asks, Sys.sends, Sys.records, hpicks, hlog]
    rw [hobs]
    exact ⟨a, rfl, hs⟩
  -- no call runs before the step
  have ready : s.worker.phase = none → s.abandons act = [] → act.byMain = false →
      (∀ call ph, s'.worker.phase = some (call, ph) → ph = .preparing ∨ ph = .resuming ∧
        call ∈ s.suspended) →
      (∀ c, s'.state c = s.state c) → s'.posted = s.posted → s'.picks = s.picks →
      s'.log = s.log → (∀ call ∈ s'.suspended, call ∈ s.suspended) →
      ∃ a', service.run a (s.observed act s') = some a' ∧ Serves s' a' := by
    intro hw habandons hby hph hst hposted hpicks hlog hsus
    refine silent habandons hby hposted hpicks hlog (h.silent hposted (fun call ph hw' hne ↦ ?_)
      (fun call hm ↦ h.held call (hsus call hm)) (fun call w hw' ↦ ?_) (fun call o hw' ↦ ?_)
      fun q c _ hmatches ↦ ?_)
    · exact h.held call ((hph call ph hw').resolve_left hne).2
    · rcases hph call _ hw' with heq | ⟨heq, -⟩ <;> cases heq
    · rcases hph call _ hw' with heq | ⟨heq, -⟩ <;> cases heq
    · refine hmatches.outside hstirs (hd.paced.lockstep.quiet_of_ready hw).serving hpicks
        (fun call ph hw' ↦ ?_) (fun hack ↦ (hst 0).symm.trans hack) hposted hsus
      rcases hph call ph hw' with rfl | ⟨rfl, hm⟩
      · exact ⟨rfl, fun hk ↦ (by cases hk), fun _ ↦ ⟨by simp, by simp⟩⟩
      · exact ⟨rfl, fun _ ↦ .inl hm, fun _ ↦ ⟨by simp, by simp⟩⟩
  cases hm with
  | @construct capacity _ hw =>
      exact ready (by rw [hw]; rfl) rfl rfl (fun _ _ hw' ↦ (by cases hw'))
        (state_attachData { s with backends := s.backends + 1 } s.backends capacity) rfl rfl rfl
        fun _ hm ↦ hm
  | attached _ hw =>
      exact ready (by rw [hw]; rfl) rfl rfl (fun _ _ hw' ↦ (by cases hw')) (fun _ ↦ rfl) rfl rfl rfl
        fun _ hm ↦ hm
  | @start c req pc _ hw _ hpc =>
      refine ready (by rw [hw]; rfl) rfl rfl (fun call ph hw' ↦ .inl ?_)
        (fun c' ↦ Sys.state_setGen s c c' _) rfl rfl rfl fun _ hm ↦ hm
      cases hw'
      subst hpc
      split <;> rfl
  | @resume i call _ hw hi =>
      refine ready (by rw [hw]; rfl) rfl rfl (fun call0 ph hw' ↦ .inr ?_) (fun _ ↦ rfl) rfl rfl rfl
        fun _ hm ↦ List.mem_of_mem_eraseIdx hm
      cases hw'
      exact ⟨rfl, List.mem_of_getElem? hi⟩
  | call _ hw hm => exact hm.serves hw hd h
  | expireFirst hw ht _ | expire hw ht _ =>
      exact (hd.paced.lockstep.patient.not_timed hw ht).elim
  | close _ hi _ => exact hd.closes hd' h hi rfl
  | closingCurrent _ _ | closingStale _ _ =>
      exact silent rfl rfl rfl rfl rfl (h.silent rfl h.running h.held h.due h.stale
        fun q c _ hmatches ↦ hmatches.same rfl rfl rfl rfl (fun _ hm ↦ hm) (fun _ hm ↦ hm)
          fun _ ht ↦ ht)
  | @closingStore call hc =>
      have hcur : s.Current call := (hl.closing _ hc).2.2 rfl
      have hchan := hl.chan_eq_zero (Sys.mem_calls_of_closing hc) hd.single
      -- beside it no other call is current
      have running : ∀ call0 ph, s.worker.phase = some (call0, ph) → ¬ s.Current call0 :=
        fun call0 ph hw ↦ hcur.not_of_key_ne
          ((hl.chan_eq_zero (Sys.mem_calls_of_phase hw) hd.single).trans hchan.symm)
          (hl.closing_ne_running hw hc).symm
      have hquiet : s.Quiet := hd.paced.lockstep.quiet fun call0 w hw ↦
        absurd (hl.current_of_engaged hw rfl) (running call0 _ hw)
      have hst : Sys.state { s.storeByWorker call.chan .idle with closing := none } 0 = .idle :=
        (Sys.state_storeByWorker s call.chan 0 .idle).trans (if_pos hchan.symm)
      refine silent rfl rfl rfl rfl rfl (h.silent rfl h.running h.held (fun call0 w hw ↦ ?_)
        h.stale fun q c _ hmatches ↦ ?_)
      · exact absurd (hl.current_of_engaged hw rfl) (running call0 _ hw)
      · refine hmatches.worker hstirs hquiet.serving rfl (fun call0 ph hw he ↦ ?_) (fun ho ↦ ?_)
          fun call0 o hw hcur0 ↦ ?_
        · exact absurd (hl.current_of_engaged hw he) (running call0 ph hw)
        · rcases ho with ho | ⟨call0, hm0 | ⟨ph, hw, hk⟩, hcur0⟩
          · rw [hst] at ho
            cases ho
          · exact absurd hcur0 (hcur.not_of_key_ne
              ((hl.chan_eq_zero (Sys.mem_calls_of_suspended hm0) hd.single).trans hchan.symm)
              (hl.suspended_ne_closing hc hm0))
          · exact absurd hcur0 (running call0 ph hw)
        · rcases hw with hw | hw <;> exact absurd hcur0 (running call0 _ hw)

end

end ConnectWeb.Sab
