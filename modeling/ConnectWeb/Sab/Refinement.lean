import ConnectWeb.Sab.Serves

/-!
# The bridge refines the service

The main thread's steps, and the result: whatever the two threads do, as long as requests fit,
what one sees of them is a run of the service.
-/

namespace ConnectWeb.Sab

section
variable {engine : Engine} {s s' : Sys} {a : Service} {q : Posted} {c c' : Course}

/-! ## What is shown of a step -/

theorem Sys.observed_main {act : Action} (picks : List Pick) (events : List Event)
    (hby : act.byMain = true) (hposted : s'.posted = s.posted)
    (hpicks : s'.picks = s.picks ++ picks) (hlog : s'.log = s.log ++ events) :
    s.observed act s' = (picks.filterMap Pick.pending).map .sent ++ events.filterMap Event.op ++
      s'.current.fails := by
  have habandons : s.abandons act = [] := by
    cases act <;> first
      | rfl
      | cases hby
  simp [observed, habandons, asks, sends, records, hposted, hpicks, hlog, hby]

/-- Only an invocation that is about to store a report fails. -/
theorem Task.Placed.fails {t : Task} {current : Current} {tasks : List Task}
    (h : t.Placed current tasks) : current.fails = (Current.run t).fails := by
  rcases h with ⟨hs, rfl, -⟩ | ⟨-, rfl, -⟩
  · rcases t with ⟨pick, timedOut, pc⟩
    cases pc <;> first
      | rfl
      | cases hs
  · rfl

/-! ## Frames -/

/-- An invocation serves the request that is stored last. -/
theorem Sys.Matches.serve {t' : Task} (hl' : s'.live = [t']) (hdue : (s'.state 0).answer = false)
    (hpicked : ∃ p ∈ s'.picks, p.pending = some q)
    (hask : ∃ call w, s'.worker.phase = some (call, .asking w))
    (hstage : ∀ next, t'.stage ≠ .awaiting next) (hp : s'.Performs c t') : s'.Matches q c where
  picked := .inr hpicked
  serving t hm _ := by
    rw [hl', List.mem_singleton] at hm
    rw [hm]
    exact hp
  shown _ _ _ _ := Sys.tells_of_due hdue
  awaiting _ t hm next hs := by
    rw [hl', List.mem_singleton] at hm
    rw [hm] at hs
    exact absurd hs (hstage next)
  ending call o hw _ := by
    obtain ⟨call0, w, hph⟩ := hask
    rcases hw with hw | hw <;> cases hph.symm.trans hw

/-- The main thread takes a step for the request that is stored last. -/
theorem Serves.serve (h : Serves s a) (hph : s'.worker.phase = s.worker.phase)
    (hsus : s'.suspended = s.suspended) (hposted : s'.posted = s.posted)
    (hdue : s.state 0 ≠ .idle → s'.state 0 ≠ .idle) (hq : s.posted 0 = some q)
    (hmatches : s'.Matches q c) : Serves s' { a with latest := some (q, c) } where
  latest := by
    rw [hposted, hq]
    rfl
  begun hn := by cases hn
  running call ph hw := h.running call ph (hph.symm.trans hw)
  held call hm := h.held call (hsus ▸ hm)
  due call w hw := hdue (h.due call w (hph.symm.trans hw))
  stale call o hw hcur := by
    rw [Sys.Current, hposted] at hcur
    exact h.stale call o (hph.symm.trans hw) hcur
  course q' c' hl := by
    cases hl
    exact hmatches

/-- The main thread takes a step that the service does not see. -/
theorem Serves.hidden (h : Serves s a) (hph : s'.worker.phase = s.worker.phase)
    (hsus : s'.suspended = s.suspended) (hposted : s'.posted = s.posted)
    (hdue : s.state 0 ≠ .idle → s'.state 0 ≠ .idle)
    (hcourse : ∀ q c, s.posted 0 = some q → s.Matches q c → s'.Matches q c) : Serves s' a := by
  refine h.silent hposted (fun call ph hw ↦ h.running call ph (hph.symm.trans hw))
    (fun call hm ↦ h.held call (hsus ▸ hm)) (fun call w hw ↦ hdue (h.due call w (hph.symm.trans hw)))
    (fun call o hw hcur ↦ ?_) hcourse
  rw [Sys.Current, hposted] at hcur
  exact h.stale call o (hph.symm.trans hw) hcur

/-! ## An invocation serves -/

/-- What is known of an invocation that serves. -/
structure Sys.Busy (s : Sys) (a : Service) (t : Task) (q : Posted) (c : Course) : Prop where
  posted : s.posted 0 = some q
  pending : t.pick.pending = some q
  reads : t.pick.Reads q
  picked : t.pick ∈ s.picks
  serving : s.Serving 0 t
  asking : ∃ call w, s.worker.phase = some (call, .asking w)
  latest : a.latest = some (q, c)
  calls : q ∈ a.calls
  performs : s.Performs c t
  renders : s.Renders q t

/-- The call that waits is that of the request stored last. -/
theorem Delivering.mem_calls (hd : Delivering s) (h : Serves s a) {call : Call} {w : Wait}
    (hask : s.worker.phase = some (call, .asking w)) (hq : s.posted 0 = some q) : q ∈ a.calls := by
  have hl := hd.paced.sound.ledger
  have hcur : s.posted call.chan = some call.posted := hl.current_of_engaged hask rfl
  rw [hl.chan_eq_zero (Sys.mem_calls_of_phase hask) hd.single, hq] at hcur
  rw [Option.some.inj hcur]
  exact h.running call _ hask (by simp)

theorem Delivering.busy (hd : Delivering s) (h : Serves s a) {t : Task} (ht : t ∈ s.live)
    (hst : t.stage = .serving) : ∃ q c, s.Busy a t q c := by
  have hnew := Sys.newest_eq_zero hd.single
  have hserv := hd.paced.sound.exchange.serving t ht hst
  rw [hnew] at hserv
  obtain ⟨q, hpend, hposted, hreads⟩ := hserv.bound.current
  obtain ⟨call, w, hask⟩ := hd.paced.asking ht hst
  obtain ⟨c, hlatest, hmatches⟩ := h.exists_latest hposted
  exact ⟨q, c, hposted, hpend, hreads, hd.traced.live t ht, hserv, ⟨call, w, hask⟩, hlatest,
    hd.mem_calls h hask hposted, hmatches.serving t ht hst,
    (hd.conveying.conveys q hposted).serving t ht hst⟩

theorem Current.fails_of_ne {t : Task} (h : ∀ message kind caught, t.pc ≠ .report message kind caught) :
    (Current.run t).fails = [] := by
  unfold fails
  split
  · rename_i heq
    cases heq
    exact absurd rfl (h _ _ _)
  · rfl

theorem Current.fails_report (t : Task) (message kind : String) (caught : Bool) :
    (Current.run (t.goto (.report message kind caught))).fails =
      t.pick.pending.toList.map (.failed · message kind) := rfl

theorem kind_stream {k : Kind} (h : k ≠ .unary) : k = .serverStream := by
  cases k with
  | unary => exact absurd rfl h
  | serverStream => rfl

theorem Course.next_failed {message kind : String} (k : Kind) (hasked : c ≠ .asked)
    (hexhausted : c ≠ .exhausted) :
    c.next k (.failed q message kind) = some (.failed message kind) := by
  rcases c with _ | _ | _ | _ | ⟨resp, _ | bytes⟩ | _ | _ <;> first
    | rfl
    | exact absurd rfl hasked
    | exact absurd rfl hexhausted

namespace Sys.Busy

variable {t t' : Task} (hb : s.Busy a t q c)

include hb

theorem stays : service.run a [] = some { a with latest := some (q, c) } := by
  rw [← hb.latest]
  rfl

/-- The request fails. -/
theorem run_fails {message kind : String} (caught : Bool) (hasked : c ≠ .asked)
    (hexhausted : c ≠ .exhausted) :
    service.run a (Current.run (t.goto (.report message kind caught))).fails =
      some { a with latest := some (q, .failed message kind) } := by
  rw [Current.fails_report, hb.pending]
  exact Service.run_advance hb.latest hb.calls rfl (Course.next_failed _ hasked hexhausted)

/-- Something of the response is recorded. -/
theorem records {e : Event} (op : Op) (hop : e.op = some op) (hin : a.step op = a.advance q op)
    (hc : c.next q.request.kind op = some c') (hne : ∀ message kind caught,
      t'.pc ≠ .report message kind caught) :
    service.run a ([e].filterMap Event.op ++ (Current.run t').fails) =
      some { a with latest := some (q, c') } := by
  rw [Current.fails_of_ne hne, List.append_nil, List.filterMap_cons_some hop]
  exact Service.run_advance hb.latest hb.calls hin hc

/-- An invocation that serves takes a step of its own. -/
theorem move {size ch : Nat} {st : SabState} {events : List Event} (hst : t.stage = .serving)
    (hm : t.Move engine ch st size t' events) (hph : s'.worker.phase = s.worker.phase) :
    ∃ c', service.run a (events.filterMap Event.op ++ (Current.run t').fails) =
      some { a with latest := some (q, c') } ∧ s'.Performs c' t' := by
  have hperf := hb.performs
  have hrenders := hb.renders
  have hkind := Pick.kind_of_header hb.pending hb.reads
  rw [Pick.kind, hb.pending, Option.map_some, Option.some.injEq] at hkind
  unfold Performs at hperf
  cases hm with
  | rejected hpc =>
      obtain rfl : c = .sent := by rwa [hpc] at hperf
      exact ⟨_, hb.run_fails false (by simp) (by simp), rfl⟩
  | timer hpc =>
      refine ⟨c, ?_, ?_⟩
      · rw [Current.fails_of_ne (by simp [hpc])]
        exact hb.stays
      · unfold Performs
        rwa [hpc] at hperf ⊢
  | @buffering resp hpc hk =>
      obtain rfl : c = .sent := by rwa [hpc] at hperf
      refine ⟨.buffering resp, hb.records (.fetched q resp) (by rw [Event.op, hb.pending]; rfl) rfl
        ?_ (by simp), rfl⟩
      rw [hkind.mp hk]
      rfl
  | @reading resp hpc hk _ =>
      obtain rfl : c = .sent := by rwa [hpc] at hperf
      refine ⟨.streaming resp none, hb.records (.fetched q resp)
        (by rw [Event.op, hb.pending]; rfl) rfl ?_ (by simp), rfl⟩
      rw [kind_stream (hkind.not.mp hk)]
      rfl
  | @bodiless resp hpc hk _ =>
      obtain rfl : c = .sent := by rwa [hpc] at hperf
      refine ⟨.failed engine.typeError.text "error", ?_, rfl⟩
      have hfetched : service.run a [.fetched q resp] =
          some { a with latest := some (q, .streaming resp none) } := by
        refine Service.run_advance hb.latest hb.calls rfl ?_
        rw [kind_stream (hkind.not.mp hk)]
        rfl
      rw [List.filterMap_cons_some (b := .fetched q resp) (by rw [Event.op, hb.pending]; rfl),
        Current.fails_report, hb.pending, System.run_append, List.filterMap_nil, hfetched]
      exact Service.run_advance rfl hb.calls rfl rfl
  | @buffered resp body hpc =>
      obtain rfl : c = .buffering resp := by rwa [hpc] at hperf
      exact ⟨.whole resp body, hb.records (.buffered q body) (by rw [Event.op, hb.pending]; rfl) rfl
        rfl (by simp [Task.emit]), rfl⟩
  | unbuffered hpc =>
      rw [hpc] at hperf
      refine ⟨_, hb.run_fails true ?_ ?_, rfl⟩ <;> rw [hperf] <;> simp
  | empty hpc =>
      refine ⟨c, ?_, ?_⟩
      · rw [Current.fails_of_ne (by simp [hpc])]
        exact hb.stays
      · unfold Performs
        rwa [hpc] at hperf ⊢
  | @chunk resp first bytes hpc hne =>
      obtain rfl : c = .streaming resp none := by rwa [hpc] at hperf
      exact ⟨.streaming resp (some bytes), hb.records (.chunk q bytes)
        (by rw [Event.op, hb.pending]; rfl) rfl rfl (by simp [Task.emit]), rfl⟩
  | @exhausted resp first hpc =>
      obtain rfl : c = .streaming resp none := by rwa [hpc] at hperf
      refine ⟨.exhausted, hb.records (.exhausted q) (by rw [Event.op, hb.pending]; rfl) rfl rfl
        (by simp), rfl, ?_⟩
      rw [Renders, hpc] at hrenders
      exact Between.of_phase (s := s) hrenders.between hph
  | broken hpc =>
      rw [hpc] at hperf
      refine ⟨_, hb.run_fails false ?_ ?_, rfl⟩ <;> rw [hperf] <;> simp
  | ackedWindow hpc _ | ackedRead hpc _ | ackedLeave hpc _ | quits hpc _ _ | still hpc _
  | park hpc _ | notEqual hpc _ _ | poll hpc _ | woken hpc =>
      rw [Task.stage, hpc] at hst
      cases hst

end Sys.Busy

/-! ## The steps -/

/-- What a window or a report says of the request. -/
theorem Sys.Performs.stores {t : Task} {info : Json} {payload : Bytes} {status : Int}
    {state : SabState} {next : Next} {failed : At} (h : s.Performs c t)
    (hst : t.Stores engine info payload status state next failed)
    (hw : s'.writer (.data (s'.backend 0).data) = some t) : s'.Tells c state := by
  unfold Performs at h
  cases hst with
  | window hpc =>
      rw [hpc] at h
      intro t0 e0 hw0 hpc0
      cases hw.symm.trans hw0
      cases hpc.symm.trans hpc0
      exact h
  | report hpc =>
      rw [hpc] at h
      intro t0 message kind caught hw0 hpc0
      cases hw.symm.trans hw0
      cases hpc.symm.trans hpc0
      exact h

/-- What does not fit the data SAB leads to the report of a `RangeError`. -/
theorem Sys.Performs.overflows {t : Task} {info : Json} {payload : Bytes} {status : Int}
    {state : SabState} {next : Next} {failed : At} (h : s.Performs c t)
    (hst : t.Stores engine info payload status state next failed) (hf : failed.stage = .serving) :
    failed = .report engine.rangeError.text "error" true ∧ c ≠ .asked ∧ c ≠ .exhausted := by
  unfold Performs at h
  cases hst with
  | @window e hpc =>
      rw [hpc] at h
      have hc : c = if e.streaming then .streaming e.resp (some e.bytes) else .whole e.resp e.bytes :=
        h
      refine ⟨rfl, ?_⟩
      split at hc <;> rw [hc] <;> simp
  | @report message kind caught hpc =>
      rw [hpc] at h
      have hc : c = .failed message kind := h
      rw [hc]
      rcases caught with _ | _
      · exact ⟨rfl, by simp, by simp⟩
      · cases hf

/-- STATE is stored behind the rest of an answer. -/
theorem Sys.Busy.stored {t : Task} {st : SabState} {next : Next} {pc : At}
    (hb : s.Busy a t q c) (hd : Delivering s) (htasks : s.tasks = [])
    (hpc : t.pc = .storeState st next)
    (hpc' : next = .leave ∧ pc = .leaving ∨ next ≠ .leave ∧ pc = .awaitLoad next) :
    Sys.Matches ((s.storeByMain t 0 st).runs (t.goto pc)) q c := by
  have hl := hd.paced.sound.ledger
  have hans := (hb.serving.answer hpc).1
  have hperf := hb.performs
  rw [Sys.Performs, hpc] at hperf
  have hlive : Sys.live ((s.storeByMain t 0 st).runs (t.goto pc)) = [t.goto pc] :=
    Sys.live_runs _ _ htasks
  have hstate : Sys.state ((s.storeByMain t 0 st).runs (t.goto pc)) 0 = st :=
    (Sys.state_storeByMain s 0 0 t st).trans (if_pos rfl)
  have hphase : ((s.storeByMain t 0 st).runs (t.goto pc)).worker.phase = s.worker.phase :=
    Worker.phase_wake 0 s.worker
  -- the worker waits, so nobody keeps a chunk
  obtain ⟨call, w, hask⟩ := hb.asking
  refine ⟨.inr ⟨_, hb.picked, hb.pending⟩, fun t0 hm0 hs0 ↦ ?_, fun call0 ph hw0 _ ↦ ?_,
    fun ho ↦ ?_, fun call0 o hw0 ↦ ?_⟩
  · rw [hlive, List.mem_singleton] at hm0
    subst hm0
    rcases hpc' with ⟨-, rfl⟩ | ⟨-, rfl⟩ <;> cases hs0
  · rw [hstate]
    refine Sys.Tells.congr hperf (fun hbetween ↦ hbetween.of_phase hphase) fun t0 hwr ↦ ?_
    have hdata : (((s.storeByMain t 0 st).runs (t.goto pc)).backend 0).data =
        (s.backend 0).data := Sys.data_storeByMain s 0 0 t st
    rw [hdata] at hwr
    exact (Sys.writer_storeByMain s 0 t st (by simp)).symm.trans hwr
  · have hcur := hl.current_of_engaged hask rfl
    refine absurd ho (hd.paced.not_open hd.single hask hcur rfl rfl ?_ fun call0 ph hw0 ↦ ?_)
    · rw [hstate]
      rintro rfl
      cases hans
    · cases (hphase.symm.trans hw0).symm.trans hask
      rfl
  · rw [hphase, hask] at hw0
    rcases hw0 with hw0 | hw0 <;> cases hw0

/-- An invocation that waits for an ack takes a step of its own. -/
theorem Course.Awaits.move {t t' : Task} {size ch : Nat} {st : SabState} {events : List Event}
    {next : Next} (h : c.Awaits next) (ht : t.stage = .awaiting next) (ht' : t'.stage = .serving)
    (hm : t.Move engine ch st size t' events) : s'.Performs c t' := by
  cases hm with
  | ackedWindow hpc _ | ackedRead hpc _ =>
      rw [Task.stage, hpc] at ht
      cases ht
      exact h
  | ackedLeave hpc _ | quits hpc _ _ | still hpc _ | park hpc _ | notEqual hpc _ _ | poll hpc _
  | woken hpc => cases ht'
  | rejected hpc | timer hpc | buffering hpc _ | reading hpc _ _ | bodiless hpc _ _ | buffered hpc
  | unbuffered hpc | empty hpc | chunk hpc _ | exhausted hpc | broken hpc =>
      rw [Task.stage, hpc] at ht
      cases ht

theorem Task.Move.fails {t t' : Task} {size ch : Nat} {st : SabState} {events : List Event}
    {next : Next} (h : t.Move engine ch st size t' events) (ht : t.stage = .awaiting next) :
    (Current.run t').fails = [] := by
  cases h with
  | ackedWindow hpc _ | ackedRead hpc _ | ackedLeave hpc _ | quits hpc _ _ | still hpc _
  | park hpc _ | notEqual hpc _ _ | poll hpc _ | woken hpc => rfl
  | rejected hpc | timer hpc | buffering hpc _ | reading hpc _ _ | bodiless hpc _ _ | buffered hpc
  | unbuffered hpc | empty hpc | chunk hpc _ | exhausted hpc | broken hpc =>
      rw [Task.stage, hpc] at ht
      cases ht

theorem MainMove.serves {act : Action} (hm : MainMove engine s s') (hby : act.byMain = true)
    (hd : Delivering s) (hd' : Delivering s') (h : Serves s a) :
    ∃ a', service.run a (s.observed act s') = some a' ∧ Serves s' a' := by
  have hnew := Sys.newest_eq_zero hd.single
  have hs := hd.paced.sound.shape
  have he := hd.paced.sound.exchange
  rw [hnew] at he
  have hph := hm.phase
  have hsus := hm.suspended
  have hposted := hm.sameGens.posted
  -- a step that the service does not see
  have hidden : s'.picks = s.picks → s'.log = s.log → s'.current.fails = [] →
      (s.state 0 ≠ .idle → s'.state 0 ≠ .idle) →
      (∀ q c, s.posted 0 = some q → s.Matches q c → s'.Matches q c) →
      ∃ a', service.run a (s.observed act s') = some a' ∧ Serves s' a' := by
    intro hpicks hlog hfails hdue hcourse
    rw [Sys.observed_main [] [] hby hposted (hpicks.trans (List.append_nil _).symm)
      (hlog.trans (List.append_nil _).symm), hfails]
    exact ⟨a, rfl, h.hidden hph hsus hposted hdue hcourse⟩
  have still : s'.picks = s.picks → s'.log = s.log → s'.current.fails = [] →
      s'.live = s.live → (∀ c, s'.state c = s.state c) →
      (∀ t, s'.writer (.data (s'.backend 0).data) = some t →
        s.writer (.data (s.backend 0).data) = some t) →
      ∃ a', service.run a (s.observed act s') = some a' ∧ Serves s' a' := by
    intro hpicks hlog hfails hl hst hw
    refine hidden hpicks hlog hfails (fun hne ↦ by rwa [hst]) fun q c _ hmatches ↦ ?_
    exact hmatches.same hph hl (hst 0) hposted (hpicks ▸ fun _ hm ↦ hm)
      (fun call hm ↦ hsus ▸ hm) hw
  cases hm with
  | attach hi _ =>
      exact still rfl rfl (by rw [hi]; rfl) rfl (fun _ ↦ rfl) fun _ ht ↦ ht
  | nudge hi _ =>
      exact still rfl rfl rfl (by rw [Sys.live, Sys.live, hi]; rfl) (fun _ ↦ rfl) fun _ ht ↦ ht
  | decline hg _ =>
      exact still rfl rfl rfl (by rw [Sys.live, Sys.live, hg]; rfl) (fun _ ↦ rfl) fun _ ht ↦ ht
  | @pick ch current tasks pc hg hl _ hc hst hp hpl =>
      obtain rfl : ch = 0 := he.eq_of_mainTurn (by rw [hst]; rfl)
      obtain ⟨q, hpend, hreads⟩ := hd'.dispatched.reads (s.pickAt 0)
        (List.mem_append_right _ (List.mem_singleton_self _))
      obtain rfl : pc = .fetching := by
        cases hp with
        | fetch _ _ => rfl
        | unreadable hn | null hn =>
            rw [Pick.Reads, hn] at hreads
            cases hreads
      have hq : s.posted 0 = some q := hpend
      obtain ⟨c, hlatest, hmatches⟩ := h.exists_latest hq
      obtain rfl : c = .asked := by
        refine hmatches.picked.resolve_right ?_
        rintro ⟨p, hmem, hp⟩
        have hu : s.Unpicked := .inr ⟨hst, fun t0 hm0 ↦ (by rw [hl] at hm0; cases hm0)⟩
        exact absurd (hd.dispatched.ahead hu p hmem q q hp hq) (lt_irrefl _)
      obtain ⟨call, w, hask, -⟩ := hd.paced.lockstep.asks 0 (by rw [hst]; rfl)
      refine ⟨{ a with latest := some (q, .sent) }, ?_, ?_⟩
      · rw [Sys.observed_main [s.pickAt 0] [] hby hposted rfl (List.append_nil _).symm, hpl.fails]
        change service.run a (([s.pickAt 0].filterMap Pick.pending).map Op.sent ++ [] ++ []) = _
        rw [List.filterMap_cons_some hpend]
        exact Service.run_advance hlatest (hd.mem_calls h hask hq) rfl rfl
      · exact h.serve hph hsus hposted id hq (.serve hpl.live (by
          change (s.state 0).answer = false
          rw [hst]
          rfl) ⟨_, List.mem_append_right _ (List.mem_singleton_self _), hpend⟩ ⟨call, w, hask⟩
          (fun next hstage ↦ (by cases hstage)) rfl)
  | @task ch t t' events current tasks hl hg hc hm hpl =>
      have hmem := Sys.mem_live hl
      rcases hst : t.stage with _ | next | _
      · obtain ⟨q, c, hb⟩ := hd.busy h hmem hst
        obtain ⟨c', hrun, hperf⟩ := hb.move hst hm hph
        refine ⟨{ a with latest := some (q, c') }, ?_, ?_⟩
        · rw [Sys.observed_main [] events hby hposted (List.append_nil _).symm rfl, hpl.fails]
          exact hrun
        · refine h.serve hph hsus hposted id hb.posted (.serve hpl.live hb.serving.due
            ⟨_, hb.picked, hb.pending⟩ hb.asking (fun next hstage ↦ ?_) hperf)
          rw [hm.serving_of_serving hst] at hstage
          cases hstage
      · have hevents := hm.silent.resolve_left (by rw [hst]; simp)
        subst hevents
        refine hidden rfl (List.append_nil _) (hpl.fails.trans (hm.fails hst)) id fun q c _ hmatches ↦
          ⟨hmatches.picked, fun t0 hm0 hserv ↦ ?_, fun call ph hw he ↦ ?_,
            fun ho t0 hm0 next' hstage ↦ ?_, hmatches.ending⟩
        · change t0 ∈ current.task.toList ++ tasks at hm0
          rw [hpl.live, List.mem_singleton] at hm0
          subst hm0
          have hack := hm.acked hst hserv
          obtain rfl : ch = 0 := he.eq_of_mainTurn (by rw [hack]; rfl)
          exact (hmatches.awaiting (.inl hack) t hmem next hst).move hst hserv hm
        · exact (hmatches.shown call ph hw he).congr id fun _ ht ↦ ht
        · change t0 ∈ current.task.toList ++ tasks at hm0
          rw [hpl.live, List.mem_singleton] at hm0
          subst hm0
          exact hmatches.awaiting (ho.back id rfl fun _ hk ↦ hk) t hmem next' (hm.awaiting hstage)
      · exact absurd hst hm.stage_ne_leaving
  | @store ch off t info payload status state next failed hr htasks hc hst hw =>
      obtain ⟨q, c, hb⟩ := hd.busy h (hs.mem_live_of_run hr) hst.stage
      obtain rfl : ch = 0 := Option.some.inj (hc.symm.trans hb.serving.bound.attached)
      refine ⟨{ a with latest := some (q, c) }, ?_, ?_⟩
      · rw [Sys.observed_main [] [] hby hposted (List.append_nil _).symm (List.append_nil _).symm]
        exact hb.stays
      · have hstate := Sys.state_stored s 0 t
          (writeWindow (s.sab s.bridge.data) (metaBytes info) payload).1 status 0
        have hdata := Sys.data_stored s 0 t
          (writeWindow (s.sab s.bridge.data) (metaBytes info) payload).1 status 0
        have hwriter := Sys.writer_data_stored t
          (writeWindow (s.sab s.bridge.data) (metaBytes info) payload).1 status hb.serving.bound.data
        rw [← hdata] at hwriter
        refine h.serve hph hsus hposted (fun hne ↦ hstate ▸ hne) hb.posted
          (.serve (Sys.live_runs _ _ htasks) (hstate ▸ hb.serving.due) ⟨_, hb.picked, hb.pending⟩
            hb.asking (fun next hstage ↦ (by cases hstage)) (hb.performs.stores hst hwriter))
  | @overflow ch t info payload status state next failed hr htasks hc hst hw =>
      obtain ⟨q, c, hb⟩ := hd.busy h (hs.mem_live_of_run hr) hst.stage
      have hfailed := (hb.serving.overflow hd.paced.sound.announced hst
        (writeWindow (s.sab s.bridge.data) (metaBytes info) payload).1 hw).1
      obtain ⟨rfl, hasked, hexhausted⟩ := hb.performs.overflows hst hfailed
      refine ⟨{ a with latest := some (q, .failed engine.rangeError.text "error") }, ?_, ?_⟩
      · rw [Sys.observed_main [] [] hby hposted (List.append_nil _).symm (List.append_nil _).symm]
        exact hb.run_fails true hasked hexhausted
      · exact h.serve hph hsus hposted id hb.posted (.serve (Sys.live_runs _ _ htasks)
          hb.serving.due ⟨_, hb.picked, hb.pending⟩ hb.asking (fun next hstage ↦ (by cases hstage))
          rfl)
  | @storeLength ch off t st next hr htasks hc hpc =>
      obtain ⟨q, c, hb⟩ := hd.busy h (hs.mem_live_of_run hr) (by rw [Task.stage, hpc]; rfl)
      have hstate := Sys.state_setCtrl s ch 0 (fun ctrl ↦ { ctrl with length := toInt32 off })
        fun _ ↦ rfl
      refine ⟨{ a with latest := some (q, c) }, ?_, ?_⟩
      · rw [Sys.observed_main [] [] hby hposted (List.append_nil _).symm (List.append_nil _).symm]
        exact hb.stays
      · refine h.serve hph hsus hposted (fun hne ↦ hstate ▸ hne) hb.posted
          (.serve (Sys.live_runs _ _ htasks) (hstate ▸ hb.serving.due) ⟨_, hb.picked, hb.pending⟩
            hb.asking (fun next hstage ↦ (by cases hstage)) ?_)
        have hperf := hb.performs
        rw [Sys.Performs, hpc] at hperf
        refine Sys.Tells.congr hperf (fun hbetween ↦ hbetween.of_phase hph) fun t0 hw0 ↦ ?_
        have hdata := Sys.data_setCtrl s ch 0 fun ctrl ↦ { ctrl with length := toInt32 off }
        have hne : Cell.data (s.backend 0).data ≠ .length ch := by simp
        change Function.update s.writer (.length ch) (some t) (.data ((s.setCtrl ch fun ctrl ↦
          { ctrl with length := toInt32 off }).backend 0).data) = some t0 at hw0
        rwa [hdata, Function.update_of_ne hne] at hw0
  | @storeState ch t st next pc hr htasks hc hpc hpc' =>
      have hstage : t.stage = .serving := by rw [Task.stage, hpc]; rfl
      obtain ⟨q, c, hb⟩ := hd.busy h (hs.mem_live_of_run hr) hstage
      obtain rfl : ch = 0 := Option.some.inj (hc.symm.trans hb.serving.bound.attached)
      refine ⟨{ a with latest := some (q, c) }, ?_, ?_⟩
      · have hfails : (Current.run (t.goto pc)).fails = [] := by
          rcases hpc' with ⟨-, rfl⟩ | ⟨-, rfl⟩ <;> rfl
        rw [Sys.observed_main [] [] hby hposted (List.append_nil _).symm (List.append_nil _).symm]
        change service.run a ([] ++ [] ++ (Current.run (t.goto pc)).fails) = _
        rw [hfails]
        exact hb.stays
      · have hans := (hb.serving.answer hpc).1
        have hstate : Sys.state ((s.storeByMain t 0 st).runs (t.goto pc)) 0 = st :=
          (Sys.state_storeByMain s 0 0 t st).trans (if_pos rfl)
        refine h.serve hph hsus hposted (fun _ hidle ↦ ?_) hb.posted
          (hb.stored hd htasks hpc hpc')
        rw [hstate] at hidle
        rw [hidle] at hans
        cases hans
  | @leave ch t hr htasks hc hpc =>
      have hlive := Sys.live_leave s ch htasks
      refine hidden rfl rfl ?_ id fun q c _ hmatches ↦ ⟨hmatches.picked, fun t0 hm0 _ ↦ ?_,
        fun call ph hw hengaged ↦ ?_, fun _ t0 hm0 _ _ ↦ ?_, hmatches.ending⟩
      · dsimp only
        split <;> rfl
      · rw [hlive] at hm0
        cases hm0
      · exact (hmatches.shown call ph hw hengaged).congr id fun _ ht ↦ ht
      · rw [hlive] at hm0
        cases hm0

theorem Move.serves {act : Action} (hm : Move engine s act s') (hd : Delivering s)
    (hd' : Delivering s') (h : Serves s a) :
    ∃ a', service.run a (s.observed act s') = some a' ∧ Serves s' a' := by
  cases hm with
  | worker hm => exact hm.serves hd hd' h
  | main hby _ hm => exact hm.serves hby hd hd' h

end

theorem serves_of_observed {engine : Engine} {ops : List Op} {s : Sys}
    (h : (system engine).Observed (fun s a ↦ s.Single a ∧ s.Fitting a ∧ Sys.Counted a)
      Sys.observed ops s) : ∃ a, service.run {} ops = some a ∧ Serves s a :=
  h.simulated (R := Serves) (fun _ ↦ delivering_of_fitting) (by rintro s rfl; exact .init)
    fun _ _ _ _ hd hd' hs _ hstep ↦
      (Move.of_step hd.paced.sound.shape hstep).serves hd hd' hs

/-- While requests fit, what one sees of the bridge is a run of the service, which is about the
request that the worker stored last. -/
theorem refines_service {engine : Engine} {ops : List Op} {s : Sys}
    (h : (system engine).Observed (fun s a ↦ s.Single a ∧ s.Fitting a ∧ Sys.Counted a)
      Sys.observed ops s) :
    ∃ a, service.run {} ops = some a ∧ a.latest.map Prod.fst = s.posted 0 := by
  obtain ⟨a, hrun, hserves⟩ := serves_of_observed h
  exact ⟨a, hrun, hserves.latest⟩

/-- A run with a stream, a chunk in two windows, and a unary call. -/
theorem refines_service_deliveredRun : ∃ (ops : List Op) (s : Sys) (a : Service),
    (system v8).Observed (fun s a ↦ s.Single a ∧ s.Fitting a ∧ Sys.Counted a) Sys.observed ops s ∧
      s.hasDelivered = true ∧ service.run {} ops = some a := by
  obtain ⟨s, hr, hs⟩ := (system v8).exists_reachable
    (fun s a ↦ s.Single a ∧ s.Fitting a ∧ Sys.Counted a) deliveredRun Sys.hasDelivered rfl
    (by decide +kernel)
  obtain ⟨ops, ho⟩ := hr.observed Sys.observed
  obtain ⟨a, hrun, -⟩ := refines_service ho
  exact ⟨ops, s, a, ho, hs, hrun⟩

end ConnectWeb.Sab
