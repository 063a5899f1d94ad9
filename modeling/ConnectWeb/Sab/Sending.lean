import ConnectWeb.Sab.Progress
import ConnectWeb.Sab.Returned

/-!
# What the main thread sends

The main thread's steps keep the messages of the channel in their places.  A message begins
where none is under way, its first window finds a worker that is about to take a first window,
and each later one finds the worker that acked the one before.
-/

namespace ConnectWeb.Sab

section
variable {engine : Engine} {s s' : Sys} {q : Posted}

/-! ## Beginnings -/

theorem Sys.offers_of_due {st : SabState} (h : st.answer = false) : s.Offers q st := by
  cases st <;> trivial

/-- While an invocation serves, the worker waits. -/
theorem Paced.asking (hp : Paced s) {t : Task} (ht : t ∈ s.live) (hst : t.stage = .serving) :
    ∃ call w, s.worker.phase = some (call, .asking w) := by
  obtain ⟨call, w, hph, -⟩ := hp.lockstep.asks _ (hp.lockstep.turn t ht hst)
  exact ⟨call, w, hph⟩

/-- An invocation serves the call that waits. -/
theorem Paced.served (hp : Paced s) (hb : s.backends ≤ 1) {t : Task} (ht : t ∈ s.live)
    (hst : t.stage = .serving) (hq : t.pick.pending = some q) {call : Call} {w : Wait}
    (hask : s.worker.phase = some (call, .asking w)) : ⟨call.gen, call.request⟩ = q := by
  have hchan := hp.sound.ledger.chan_eq_zero (Sys.mem_calls_of_phase hask) hb
  have hcur : s.posted call.chan = some ⟨call.gen, call.request⟩ :=
    hp.sound.ledger.current_of_engaged hask rfl
  obtain ⟨q', hpend, hposted, -⟩ := (hp.sound.exchange.serving t ht hst).bound.current
  rw [hchan.trans (Sys.newest_eq_zero hb).symm, hposted, ← hpend, hq] at hcur
  exact (Option.some.inj hcur).symm

/-- A request that nobody has picked up has no messages. -/
theorem Conveying.level_of_unpicked (h : Conveying s) (hd : Dispatched s) (ht : Traced s)
    (hu : s.Unpicked) (hq : s.posted 0 = some q) : s.Level q := by
  have unpicked : ∀ p ∈ s.picks, p.pending ≠ some q := fun p hm hpend ↦
    absurd (hd.ahead hu p hm q q hpend hq) (lt_irrefl _)
  have hchunks : s.chunks q = [] := by
    refine List.filterMap_eq_nil_iff.mpr fun e he ↦ ?_
    cases e with
    | chunk p bytes => exact if_neg (unpicked p (h.chunked p bytes he))
    | _ => rfl
  have hyields : s.yields q = [] := by
    refine List.filterMap_eq_nil_iff.mpr fun e he ↦ ?_
    cases e with
    | yielded call bytes =>
        refine if_neg fun heq ↦ ?_
        obtain ⟨p, hm, hpend⟩ := ht.completed _ he call rfl
        exact unpicked p hm (heq ▸ hpend)
    | _ => rfl
  rw [Sys.Level, hchunks, hyields]

/-- A message begins. -/
theorem Sys.inHand_first {call : Call} {w : Wait} (hw : s.worker.phase = some (call, .asking w))
    (ha : (Phase.asking w).amid = false) (resp : FetchResponse) (metaBase : List (String × Json))
    (bytes : Bytes) (size : Nat) (streaming : Bool)
    (hmeta : streaming = false → metaBase = resp.metaBase) :
    s.InHand (.first resp metaBase bytes size streaming) := by
  refine ⟨call, _, { call with parts := [], firstMeta := none }, hw, ?_, ⟨rfl, fun hk _ ↦ hmeta hk,
    nofun⟩⟩
  cases w with
  | window => cases ha
  | first | chunk => rfl

/-! ## The steps of an invocation -/

theorem Task.Move.silent {c size : Nat} {st : SabState} {t t' : Task} {events : List Event}
    (h : t.Move engine c st size t' events) : t.stage = .serving ∨ events = [] := by
  cases h with
  | rejected h | timer h | buffering h _ | reading h _ _ | bodiless h _ _ | buffered h
  | unbuffered h | empty h | chunk h _ | exhausted h | broken h =>
      refine .inl ?_
      rw [Task.stage, h]
      rfl
  | _ => exact .inr rfl

/-- What an invocation has for the request behind one of its steps. -/
theorem Sys.Renders.move {c size : Nat} {t t' : Task} {events : List Event}
    (h : s.Renders q t) (ht : t.stage = .serving) (hm : t.Move engine c (s.state c) size t' events)
    (hlog : s'.log = s.log ++ events) (hph : s'.worker.phase = s.worker.phase)
    (hpend : t.pick.pending = some q) (hreads : t.pick.Reads q) (hsize : metaZone + 4 < size)
    {call : Call} {w : Wait} (hask : s.worker.phase = some (call, .asking w)) : s'.Renders q t' := by
  have hh : SameHand s s' := .of_phase hph
  unfold Sys.Renders at h
  cases hm with
  | rejected hpc | unbuffered hpc | broken hpc | bodiless hpc _ _ => trivial
  | timer hpc =>
      rw [hpc] at h
      rw [Renders, show Task.pc { t with timedOut := true } = .fetching from hpc]
      exact Clear.congr h (.of_append hlog rfl rfl) hh
  | buffering hpc hk =>
      rw [hpc] at h
      refine ⟨Clear.congr h (.of_append hlog rfl rfl) hh, ?_⟩
      rw [hlog]
      exact List.mem_append_right _ (List.mem_singleton_self _)
  | reading hpc _ _ =>
      rw [hpc] at h
      exact Clear.congr h (.of_append hlog rfl rfl) hh
  | @buffered resp body hpc =>
      rw [hpc] at h
      obtain ⟨hclear, hfetched⟩ := h
      refine ⟨Emission.inside_first .., ?_, by simp, fun _ ↦ ⟨t.pick, hpend, hreads, ?_, ?_⟩, ?_⟩
      · change (0 : Int) < (size : Int) - metaZone - 4
        omega
      · rw [hlog]
        exact List.mem_append_left _ hfetched
      · rw [hlog]
        exact List.mem_append_right _ (List.mem_singleton_self _)
      · exact Sys.inHand_first (hph.trans hask) (hclear.between call _ hask) _ _ _ _ _ fun _ ↦ rfl
  | empty hpc =>
      rw [hpc] at h
      rw [Renders, hpc]
      exact Clear.congr h (.of_append hlog rfl rfl) hh
  | @chunk resp first bytes hpc hne =>
      rw [hpc] at h
      have hclear : s.Clear q := h
      refine ⟨Emission.inside_first .., ?_, fun _ ↦ ?_, by simp, ?_⟩
      · change (0 : Int) < (size : Int) - metaZone - 4
        omega
      · rw [chunks_append hlog, yields_append hlog, ← hclear.level]
        simp [Event.chunkOf, Event.yieldOf, hpend]
      · exact Sys.inHand_first (hph.trans hask) (hclear.between call _ hask) _ _ _ _ _ (by simp)
  | exhausted hpc =>
      rw [hpc] at h
      have hclear : s.Clear q := h
      exact hclear.level.congr (.of_append hlog rfl rfl)
  | ackedWindow hpc _ | ackedRead hpc _ | ackedLeave hpc _ | quits hpc _ _ | still hpc _
  | park hpc _ | notEqual hpc _ _ | poll hpc _ | woken hpc =>
      rw [Task.stage, hpc] at ht
      cases ht

/-- An invocation that finds its ack. -/
theorem Sys.Ready.move {c size : Nat} {st : SabState} {t t' : Task} {events : List Event}
    {next : Next} (h : s.Ready q next) (ht : t.stage = .awaiting next) (ht' : t'.stage = .serving)
    (hm : t.Move engine c st size t' events) : s.Renders q t' := by
  cases hm with
  | ackedWindow hpc _ | ackedRead hpc _ =>
      rw [Task.stage, hpc] at ht
      cases ht
      exact h
  | ackedLeave hpc _ | quits hpc _ _ | still hpc _ | park hpc _ | notEqual hpc _ _ | poll hpc _
  | woken hpc => cases ht'
  | rejected hpc | timer hpc | buffering hpc _ | reading hpc _ _ | bodiless hpc _ _ | buffered hpc
  | unbuffered hpc | empty hpc | chunk hpc _ | exhausted hpc | broken hpc =>
      rw [Task.stage, hpc] at ht
      cases ht

/-- What a window or a report is to the caller of the request. -/
theorem Sys.Renders.stores {t : Task} {info : Json} {payload : Bytes} {status : Int}
    {state : SabState} {next : Next} {failed : At} (h : s.Renders q t)
    (hst : t.Stores engine info payload status state next failed) (hlog : s'.log = s.log)
    (hph : s'.worker.phase = s.worker.phase)
    (hw : s'.writer (.data (s'.backend 0).data) = some t) : s'.Offers q state := by
  unfold Renders at h
  cases hst with
  | window hpc =>
      rw [hpc] at h
      intro t0 e0 hw0 hpc0
      cases hw.symm.trans hw0
      cases hpc.symm.trans hpc0
      exact Sends.congr h (.of_log hlog) (.of_phase hph)
  | report _ => trivial

/-! ## The steps of the main thread -/

/-- An invocation stores a part of its answer. -/
theorem Sys.Conveys.part (t' : Task) (hdue : (s.state 0).answer = false) (hl' : s'.live = [t'])
    (hstate : s'.state 0 = s.state 0) (hrenders : t'.stage = .serving → s'.Renders q t')
    (hstage : ∀ next, t'.stage ≠ .awaiting next) : s'.Conveys q where
  serving t0 hm hs := by
    rw [hl', List.mem_singleton] at hm
    subst hm
    exact hrenders hs
  shown _ _ _ _ := offers_of_due (hstate ▸ hdue)
  awaiting _ t0 hm next hs := by
    rw [hl', List.mem_singleton] at hm
    subst hm
    exact absurd hs (hstage next)

/-- An invocation passes its guard. -/
theorem Conveying.pick {p : Pick} {t : Task} {pc : At} (h : Conveying s) (hp : Paced s)
    (hd : Dispatched s) (ht : Traced s) (hq : s.posted 0 = some q) (hl : s.live = [])
    (hst : s.state 0 = .reqReady) (hstarts : p.Starts engine pc) (hpc : t.pc = pc)
    (hl' : s'.live = [t]) (hlog : s'.log = s.log) (hph : s'.worker.phase = s.worker.phase)
    (hstate : s'.state 0 = s.state 0) : s'.Conveys q where
  serving t0 hm _ := by
    rw [hl', List.mem_singleton] at hm
    subst hm
    rw [Sys.Renders, hpc]
    cases hstarts with
    | fetch _ _ =>
        refine ⟨?_, fun call ph hw ↦ ?_⟩
        · have hu : s.Unpicked := .inr ⟨hst, fun t0 hm0 ↦ (by rw [hl] at hm0; cases hm0)⟩
          exact (h.level_of_unpicked hd ht hu hq).congr (.of_log hlog)
        · -- the worker waits for its first answer
          obtain ⟨call0, w, hph0, -, hexp⟩ := hp.lockstep.asks 0 (by rw [hst]; rfl)
          rw [hph, hph0] at hw
          cases hw
          rw [hst] at hexp
          cases w with
          | first => rfl
          | window | chunk => cases hexp
    | unreadable _ | null _ => trivial
  shown _ _ _ _ := by
    rw [hstate, hst]
    trivial
  awaiting _ t0 hm next hs := by
    rw [hl', List.mem_singleton] at hm
    subst hm
    rw [Task.stage, hpc, hstarts.stage] at hs
    cases hs

/-- STATE is stored behind the rest of an answer. -/
theorem Conveying.stored {c : Nat} {t : Task} {st : SabState} {next : Next} {pc : At}
    (h : Conveying s) (hp : Paced s) (hb : s.backends ≤ 1) (hq : s.posted 0 = some q)
    (hl : s.live = [t]) (ht : s.tasks = []) (hc : s.bridge.ctrl = some c)
    (hpc : t.pc = .storeState st next)
    (hpc' : next = .leave ∧ pc = .leaving ∨ next ≠ .leave ∧ pc = .awaitLoad next) :
    Sys.Conveys ((s.storeByMain t c st).runs (t.goto pc)) q := by
  have hnew := Sys.newest_eq_zero hb
  have hmem := Sys.mem_live hl
  have hstage : t.stage = .serving := by rw [Task.stage, hpc]; rfl
  have hserv := hp.sound.exchange.serving t hmem hstage
  rw [hnew] at hserv
  obtain rfl : c = 0 := Option.some.inj (hc.symm.trans hserv.bound.attached)
  have hans := (hserv.answer hpc).1
  have hrenders := (h.conveys q hq).serving t hmem hstage
  rw [Sys.Renders, hpc] at hrenders
  have hlive : Sys.live ((s.storeByMain t 0 st).runs (t.goto pc)) = [t.goto pc] :=
    Sys.live_runs _ _ ht
  have hstate : Sys.state ((s.storeByMain t 0 st).runs (t.goto pc)) 0 = st :=
    (Sys.state_storeByMain s 0 0 t st).trans (if_pos rfl)
  have hphase : ((s.storeByMain t 0 st).runs (t.goto pc)).worker.phase = s.worker.phase :=
    Worker.phase_wake 0 s.worker
  -- the worker waits, so nobody keeps a chunk
  obtain ⟨call, w, hask⟩ := hp.asking hmem hstage
  refine ⟨fun t0 hm0 hs0 ↦ ?_, fun call0 ph hw0 _ ↦ ?_, fun ho ↦ ?_⟩
  · rw [hlive, List.mem_singleton] at hm0
    subst hm0
    rcases hpc' with ⟨-, rfl⟩ | ⟨-, rfl⟩ <;> cases hs0
  · rw [hstate]
    refine Sys.Offers.congr hrenders (.of_log rfl) (.of_phase hphase) fun t0 hwr ↦ ?_
    have hdata : (((s.storeByMain t 0 st).runs (t.goto pc)).backend 0).data =
        (s.backend 0).data := Sys.data_storeByMain s 0 0 t st
    rw [hdata] at hwr
    exact (Sys.writer_storeByMain s 0 t st (by simp)).symm.trans hwr
  · rcases ho with ho | ⟨call0, hkeep, hcur0⟩
    · rw [hstate] at ho
      rw [ho] at hans
      cases hans
    · rw [Sys.Keeping, hphase] at hkeep
      rcases hkeep with hm0 | ⟨ph, hw0, hk⟩
      · have hledger := hp.sound.ledger
        have hchan := hledger.chan_eq_zero (Sys.mem_calls_of_phase hask) hb
        have hchan0 := hledger.chan_eq_zero (Sys.mem_calls_of_suspended hm0) hb
        exact absurd hcur0 (hledger.not_current_suspended hask
          (hledger.current_of_engaged hask rfl) hm0 (hchan0.trans hchan.symm))
      · rw [hask] at hw0
        cases hw0
        cases hk

theorem MainMove.conveys (hm : MainMove engine s s') (hp : Paced s) (hb : s.backends ≤ 1)
    (hd : Dispatched s) (ht : Traced s) (h : Conveying s) (hq : s'.posted 0 = some q) :
    s'.Conveys q := by
  have hq0 : s.posted 0 = some q := hm.sameGens.posted ▸ hq
  have hnew := Sys.newest_eq_zero hb
  have hs := hp.sound.shape
  have he := hp.sound.exchange
  rw [hnew] at he
  have hconv := h.conveys q hq0
  -- what an invocation that serves has, and who waits for it
  have serving : ∀ {t : Task}, s.live = [t] → t.stage = .serving →
      s.Renders q t ∧ s.Serving 0 t ∧ t.pick.pending = some q ∧ t.pick.Reads q := by
    intro t hl hst
    have hmem := Sys.mem_live hl
    have hserv := he.serving t hmem hst
    obtain ⟨q', hpend, hposted, hreads⟩ := hserv.bound.current
    cases hposted.symm.trans hq0
    exact ⟨hconv.serving t hmem hst, hserv, hpend, hreads⟩
  cases hm with
  | attach hi _ => exact hconv.same (.of_log rfl) rfl rfl rfl rfl (fun _ hm ↦ hm) fun _ ht ↦ ht
  | nudge hi _ =>
      exact hconv.same (.of_log rfl) rfl (by rw [Sys.live, Sys.live, hi]; rfl) rfl rfl
        (fun _ hm ↦ hm) fun _ ht ↦ ht
  | decline hg _ =>
      exact hconv.same (.of_log rfl) rfl (by rw [Sys.live, Sys.live, hg]; rfl) rfl rfl
        (fun _ hm ↦ hm) fun _ ht ↦ ht
  | @pick c current tasks pc hg hl _ hc hst hp' hpl =>
      obtain rfl : c = 0 := he.eq_of_mainTurn (by rw [hst]; rfl)
      exact h.pick hp hd ht hq0 hl hst hp' rfl hpl.live rfl rfl rfl
  | @task c t t' events current tasks hl hg hc hm hpl =>
      have hlive := hpl.live
      have hmem := Sys.mem_live hl
      -- the step of an invocation that waits records nothing
      have same : t.stage ≠ .serving →
          SameTransfers s { s with current, tasks, log := s.log ++ events } q := by
        intro hst
        rw [hm.silent.resolve_left hst]
        exact .of_append rfl rfl rfl
      refine ⟨fun t0 hm0 hserv ↦ ?_, fun call ph hw hengaged ↦ ?_, fun ho t0 hm0 next hstage ↦ ?_⟩
      · change t0 ∈ current.task.toList ++ tasks at hm0
        rw [hlive, List.mem_singleton] at hm0
        subst hm0
        rcases hst : t.stage with _ | next | _
        · obtain ⟨hrenders, -, hpend, hreads⟩ := serving hl hst
          obtain ⟨call, w, hask⟩ := hp.asking hmem hst
          exact hrenders.move hst hm rfl rfl hpend hreads
            (hp.sound.announced.room _ (hp.sound.announced.ctrl_lt hc).2) hask
        · have hack := hm.acked hst hserv
          obtain rfl : c = 0 := he.eq_of_mainTurn (by rw [hack]; rfl)
          refine ((hconv.awaiting (.inl hack) t hmem next hst).move hst hserv hm).congr (same ?_)
            (.of_phase rfl) fun _ ht ↦ ht
          rw [hst]
          simp
        · exact absurd hst hm.stage_ne_leaving
      · by_cases hst : t.stage = .serving
        · exact Sys.offers_of_due (serving hl hst).2.1.due
        · exact (hconv.shown call ph hw hengaged).congr (same hst) (.of_phase rfl) fun _ ht ↦ ht
      · change t0 ∈ current.task.toList ++ tasks at hm0
        rw [hlive, List.mem_singleton] at hm0
        subst hm0
        have hst := hm.awaiting hstage
        refine (hconv.awaiting (ho.back id rfl fun _ hk ↦ hk) t hmem next hst).congr (same ?_)
          (.of_phase rfl)
        rw [hst]
        simp
  | @store c off t info payload status state next failed hr htasks hc hst hw =>
      obtain ⟨hrenders, hserv, -⟩ := serving (hs.live_of_run hr) hst.stage
      obtain rfl : c = 0 := Option.some.inj (hc.symm.trans hserv.bound.attached)
      refine .part (t.goto (.storeLength off state next)) hserv.due (Sys.live_runs _ _ htasks)
        (Sys.state_stored s 0 t _ status 0)
        (fun _ ↦ hrenders.stores hst rfl rfl ?_) fun _ hstage ↦ (by cases hstage)
      have hdata := Sys.data_stored s 0 t
        (writeWindow (s.sab s.bridge.data) (metaBytes info) payload).1 status 0
      have hwriter := Sys.writer_data_stored t
        (writeWindow (s.sab s.bridge.data) (metaBytes info) payload).1 status hserv.bound.data
      rw [← hdata] at hwriter
      exact hwriter
  | @overflow c t info payload status state next failed hr htasks hc hst hw =>
      obtain ⟨-, hserv, -⟩ := serving (hs.live_of_run hr) hst.stage
      have hfailed : failed = .leaving ∨
          ∃ message kind caught, failed = .report message kind caught := by
        cases hst with
        | window _ => exact .inr ⟨_, _, _, rfl⟩
        | report _ =>
            split
            · exact .inl rfl
            · exact .inr ⟨_, _, _, rfl⟩
      refine .part (t.goto failed) hserv.due (Sys.live_runs _ _ htasks) rfl (fun _ ↦ ?_)
        fun next' hstage ↦ ?_
      · rcases hfailed with rfl | ⟨_, _, _, rfl⟩ <;> trivial
      · rcases hfailed with rfl | ⟨_, _, _, rfl⟩ <;> cases hstage
  | @storeLength c off t st next hr htasks hc hpc =>
      have hstage : t.stage = .serving := by rw [Task.stage, hpc]; rfl
      obtain ⟨hrenders, hserv, -⟩ := serving (hs.live_of_run hr) hstage
      rw [Sys.Renders, hpc] at hrenders
      have hdata := Sys.data_setCtrl s c 0 fun ctrl ↦ { ctrl with length := toInt32 off }
      refine .part (t.goto (.storeState st next)) hserv.due (Sys.live_runs _ _ htasks)
        (Sys.state_setCtrl s c 0 (fun ctrl ↦ { ctrl with length := toInt32 off }) fun _ ↦ rfl)
        (fun _ ↦ Sys.Offers.congr hrenders (.of_log rfl) (.of_phase rfl) fun t0 hw0 ↦ ?_)
        fun _ hstage ↦ (by cases hstage)
      have hne : Cell.data (s.backend 0).data ≠ .length c := by simp
      change Function.update s.writer (.length c) (some t) (.data ((s.setCtrl c fun ctrl ↦
        { ctrl with length := toInt32 off }).backend 0).data) = some t0 at hw0
      rwa [hdata, Function.update_of_ne hne] at hw0
  | @storeState c t st next pc hr htasks hc hpc hpc' =>
      exact h.stored hp hb hq0 (hs.live_of_run hr) htasks hc hpc hpc'
  | @leave c t hr htasks hc hpc =>
      have hlive : Sys.live { s with
          bridge := { s.bridge with busy := false }
          current := if s.state c = .reqReady then .guard else .idle } = [] := by
        rw [Sys.live, htasks]
        dsimp only
        split <;> rfl
      refine ⟨fun t0 hm0 _ ↦ ?_, fun call ph hw he ↦ ?_, fun _ t0 hm0 _ _ ↦ ?_⟩
      · rw [hlive] at hm0
        cases hm0
      · exact (hconv.shown call ph hw he).congr (.of_log rfl) (.of_phase rfl) fun _ ht ↦ ht
      · rw [hlive] at hm0
        cases hm0

/-! ## What the main thread records -/

/-- What a step of the main thread adds to the record. -/
structure Sys.Reads (s s' : Sys) (events : List Event) : Prop where
  log : s'.log = s.log ++ events
  yields : ∀ q, events.filterMap (Event.yieldOf q) = []
  chunks : ∀ p bytes, .chunk p bytes ∈ events → ∃ t ∈ s.live, t.stage = .serving ∧ t.pick = p
  returned : ∀ call o latest, .returned call o latest ∉ events

theorem Sys.Reads.nothing (hlog : s'.log = s.log) : s.Reads s' [] where
  log := hlog.trans (List.append_nil _).symm
  yields _ := rfl
  chunks _ _ he := absurd he List.not_mem_nil
  returned _ _ _ := List.not_mem_nil

theorem MainMove.reads (hm : MainMove engine s s') : ∃ events, s.Reads s' events := by
  cases hm with
  | @task c t t' events current tasks hl _ _ hm _ =>
      have hmem := Sys.mem_live hl
      refine ⟨events, rfl, fun q ↦ ?_, fun p bytes he ↦ ?_, fun call o latest he ↦ ?_⟩
      · cases hm <;> rfl
      · have hst := hm.silent.resolve_right (List.ne_nil_of_mem he)
        refine ⟨t, hmem, hst, ?_⟩
        cases hm with
        | chunk _ _ =>
            cases List.mem_singleton.mp he
            rfl
        | _ => simp at he
      · cases hm <;> simp at he
  | _ => exact ⟨[], .nothing rfl⟩

/-- Of a request that nobody serves nothing is recorded. -/
theorem Sys.Reads.same {events : List Event} (h : s.Reads s' events)
    (hq : ∀ t ∈ s.live, t.stage = .serving → t.pick.pending ≠ some q) : SameTransfers s s' q := by
  refine .of_append h.log (List.filterMap_eq_nil_iff.mpr fun e he ↦ ?_) (h.yields q)
  cases e with
  | chunk p bytes =>
      obtain ⟨t, hm, hst, rfl⟩ := h.chunks p bytes he
      exact if_neg (hq t hm hst)
  | _ => rfl

theorem MainMove.closing (hm : MainMove engine s s') : s'.closing = s.closing := by
  cases hm <;> rfl

theorem MainMove.retired (hm : MainMove engine s s') {call : Call} (h : s.Retired call) :
    s'.Retired call := by
  have hcall : s'.worker.call = s.worker.call := by
    rcases hm.worker with hw | ⟨c, hw⟩ <;> rw [hw]
    exact Worker.call_wake c s.worker
  have hcalls : s'.calls = s.calls := by
    rw [Sys.calls, Sys.calls, hcall, hm.closing, hm.suspended]
  refine ⟨?_, h.past.trans (hm.sameGens.gen 0).ge⟩
  rw [Sys.gens, hcalls]
  exact h.gone

/-- STATUS is stored by an invocation that serves. -/
theorem MainMove.status (hm : MainMove engine s s') (hserv : ∀ t ∈ s.live, t.stage ≠ .serving)
    (hs : Shape s) : (s'.backend 0).ctrl.status = (s.backend 0).ctrl.status := by
  cases hm with
  | store hr _ _ hst _ =>
      exact absurd hst.stage (hserv _ (hs.mem_live_of_run hr))
  | @storeLength c off t _ _ _ _ _ _ =>
      exact Sys.ctrl_setCtrl_keeps s c 0 (fun ctrl ↦ { ctrl with length := toInt32 off })
        Control.status fun _ ↦ rfl
  | @storeState c t st _ _ _ _ _ _ _ =>
      exact Sys.ctrl_storeByMain s c 0 t st Control.status fun _ ↦ rfl
  | _ => rfl

theorem Call.Begun.status {call : Call} {status status' : Int} {pc : Pc}
    (h : call.Begun status pc) (hpc : pc = .readWindow → status' = status) :
    call.Begun status' pc := by
  cases pc with
  | readWindow =>
      rw [hpc rfl]
      exact h
  | _ => exact h

theorem MainMove.begun (hm : MainMove engine s s') (hp : Paced s) (h : Conveying s) {call : Call}
    {pc : Pc} (hw : s'.worker = .run call pc) : call.Begun (s'.backend 0).ctrl.status pc := by
  have hstatus : ∀ call0, s.worker = .run call0 .readWindow →
      (s'.backend 0).ctrl.status = (s.backend 0).ctrl.status := by
    intro call0 hw0
    have hph : s.worker.phase = some (call0, .reading) := by rw [hw0]; rfl
    exact hm.status (hp.lockstep.quiet_of_not_asking hph rfl).serving hp.sound.shape
  rcases hm.worker with hw' | ⟨c, hw'⟩ <;> rw [hw'] at hw
  · exact (h.begun call pc hw).status fun hpc ↦ hstatus call (hpc ▸ hw)
  · unfold Worker.wake at hw
    split at hw
    · rename_i call0 w hw0
      split at hw <;> cases hw
      · exact h.begun call _ hw0
      · exact h.begun call _ hw0
    · exact (h.begun call pc hw).status fun hpc ↦ hstatus call (hpc ▸ hw)

/-- The main thread's steps keep the messages in their places. -/
theorem MainMove.conveying (hm : MainMove engine s s') (hp : Paced s) (hb : s.backends ≤ 1)
    (hd : Dispatched s) (ht : Traced s) (h : Conveying s) : Conveying s' := by
  obtain ⟨events, hr⟩ := hm.reads
  refine ⟨fun q ↦ ?_, fun p bytes he ↦ ?_, fun q hq ↦ hm.conveys hp hb hd ht h hq,
    fun _ _ hw ↦ hm.begun hp h hw, ?_, fun call hy ↦ ?_, fun q hq hne ↦ ?_, fun call o hw ↦ ?_,
    fun call o latest he ↦ ?_⟩
  · rw [Sys.yields_append hr.log, hr.yields, List.append_nil, Sys.chunks_append hr.log]
    exact (h.ordered q).trans (List.prefix_append ..)
  · rw [hr.log, List.mem_append] at he
    rcases he with he | he
    · exact hm.picks_subset (h.chunked p bytes he)
    · obtain ⟨t, hmem, -, rfl⟩ := hr.chunks p bytes he
      exact hm.picks_subset (ht.live t hmem)
  · rw [hm.suspended]
    exact h.held
  · rw [Sys.Yielding, hm.suspended, hm.phase] at hy
    refine (h.level call hy).congr (hr.same fun t hmem hst hpend ↦ ?_)
    obtain ⟨call0, w, hask⟩ := hp.asking hmem hst
    rcases hy with hy | hy
    · -- whom an invocation serves is not suspended
      have hchan := hp.sound.ledger.chan_eq_zero (Sys.mem_calls_of_phase hask) hb
      have hchan0 := hp.sound.ledger.chan_eq_zero (Sys.mem_calls_of_suspended hy) hb
      refine hp.sound.ledger.suspended_ne_running hask hy (Call.key_eq (hchan0.trans hchan.symm) ?_)
      exact (congrArg Posted.gen (hp.served hb hmem hst hpend hask)).symm
    · cases hask.symm.trans hy
  · rw [hm.phase] at hne
    exact (hm.sameGens.gen 0).trans (h.abreast q (hm.sameGens.posted ▸ hq) hne)
  · rw [hm.phase] at hw
    have hquiet : s.Quiet := by
      rcases hw with hw | hw <;> exact hp.lockstep.quiet_of_not_asking hw rfl
    exact (h.ending call o hw).congr (hr.same fun t hmem hst ↦ absurd hst (hquiet.serving t hmem))
      (hm.sameGens.gen call.chan)
  · rw [hr.log, List.mem_append] at he
    have hret := h.returned call o latest (he.resolve_right (hr.returned call o latest))
    refine hret.congr (hm.retired hret.retired) (hr.same fun t hmem hst hpend ↦ ?_)
      fun _ _ _ he' _ ↦ ?_
    · -- whom an invocation serves has not returned
      obtain ⟨call0, w, hask⟩ := hp.asking hmem hst
      have hgen : call0.gen = call.gen := congrArg Posted.gen (hp.served hb hmem hst hpend hask)
      exact hret.retired.gone (hgen ▸ Sys.gen_mem (Sys.mem_calls_of_phase hask))
    · rw [hr.log, List.mem_append] at he'
      exact he'.resolve_right (hr.returned _ _ _)

end

end ConnectWeb.Sab
