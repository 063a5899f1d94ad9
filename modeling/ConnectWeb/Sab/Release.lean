import ConnectWeb.Sab.Isolation

/-!
# How a call leaves its channel

A call whose request is up resets STATE on its way out, through `_reset_idle_if_current`,
unless a newer request owns the channel.  Two ends miss the reset: the first wait of `unary`
stands outside its `try`, so its expiry leaves REQ_READY behind, and from generation
`2 ^ 31` on GEN holds the generation modulo `2 ^ 32`, so that the comparison of
`_reset_idle_if_current` fails even for the current call.  Every other end releases the
channel, with any number of backends and under every interleaving.
-/

namespace ConnectWeb.Sab

namespace Sys

/-- The request of the call is up, or was, and the call is not over. -/
inductive Published (s : Sys) (call : Call) : Prop where
  | running {ph : Phase} (hw : s.worker.phase = some (call, ph)) (hr : ph.requests = false)
  | closing {loaded : Bool} (hc : s.closing = some ⟨call, loaded⟩)
  | suspended (hm : call ∈ s.suspended)

/-- The call that a step goes on with. -/
def acting (s : Sys) : Action → Option Call
  | .worker | .expire => s.worker.call
  | .closing => s.closing.map Closing.call
  | .resume i | .close i => s.suspended[i]?
  | _ => none

/-- A step leaves the channel of `call` as it should. -/
structure Releases (s : Sys) (a : Action) (s' : Sys) (call : Call) : Prop where
  /-- If the call ends and no newer request is stored, the worker has stored IDLE. -/
  idle : call.key ∉ s'.keys → ¬ s.Superseded call →
    s'.state call.chan = .idle ∧ s'.writer (.state call.chan) = none
  /-- If a newer request is stored, the call leaves STATE alone. -/
  spares : s.acting a = some call → s.Superseded call →
    s'.state call.chan = s.state call.chan ∧
      s'.writer (.state call.chan) = s.writer (.state call.chan)

/-- The step takes the call past the reset: the first wait of a unary call expires, or GEN
does not hold the generation of the current call. -/
def Lapses (s : Sys) (call : Call) : Action → Prop
  | .expire => s.worker = .run call (.parked .first) ∧ call.request.kind = .unary
  | .worker => (∃ o, s.worker = .run call (.resetLoad o)) ∧ s.Current call ∧ 2 ^ 31 ≤ call.gen
  | .closing => s.closing = some ⟨call, false⟩ ∧ s.Current call ∧ 2 ^ 31 ≤ call.gen
  | _ => False

/-- The ways a call ends. -/
inductive Ends (s : Sys) (call : Call) : Action → Sys → Prop where
  | unfit (hw : s.worker = .run call .marshal) :
      Ends s call .worker (s.finish call (.raised .other))
  | lapses {t : Timeout} (hw : s.worker = .run call (.parked .first))
      (hk : call.request.kind = .unary) :
      Ends s call .expire ((s.logged .expired).finish call (.raised (timedOut t)))
  | keeps {o : Outcome} (hw : s.worker = .run call (.resetLoad o))
      (hg : (s.backend call.chan).ctrl.gen ≠ call.gen) : Ends s call .worker (s.finish call o)
  | resets {o : Outcome} (hw : s.worker = .run call (.resetStore o)) :
      Ends s call .worker ((s.storeByWorker call.chan .idle).finish call o)
  | closedStale (hc : s.closing = some ⟨call, false⟩)
      (hg : (s.backend call.chan).ctrl.gen ≠ call.gen) :
      Ends s call .closing { s with closing := none }
  | closed (hc : s.closing = some ⟨call, true⟩) :
      Ends s call .closing { s.storeByWorker call.chan .idle with closing := none }

/-! ## Where a call is -/

theorem Published.mem_calls {s : Sys} {call : Call} (h : s.Published call) : call ∈ s.calls := by
  cases h with
  | running hw _ => exact mem_calls_of_phase hw
  | closing hc => exact mem_calls_of_closing hc
  | suspended hm => exact mem_calls_of_suspended hm

theorem key_mem_of_run {s : Sys} {call : Call} {pc : Pc} (hw : s.worker = .run call pc) :
    call.key ∈ s.keys := by
  have hphase : s.worker.phase = some (call, pc.phase) := by rw [hw]; rfl
  exact List.mem_map_of_mem (mem_calls_of_phase hphase)

theorem key_mem_of_closing {s : Sys} {call : Call} {loaded : Bool}
    (hc : s.closing = some ⟨call, loaded⟩) : call.key ∈ s.keys :=
  List.mem_map_of_mem (mem_calls_of_closing hc)

theorem key_mem_of_suspended {s : Sys} {call : Call} (hm : call ∈ s.suspended) :
    call.key ∈ s.keys :=
  List.mem_map_of_mem (mem_calls_of_suspended hm)

end Sys

/-! ## What is up -/

/-- The state that an invocation is about to store. -/
def At.due : At → Option SabState
  | .storeLength _ st _ | .storeState st _ => some st
  | _ => none

/-- Every invocation is about to store an answer, if anything. -/
def Answering (s : Sys) : Prop :=
  ∀ t ∈ s.live, ∀ st, t.pc.due = some st → st.answer = true

/-- As long as no newer request is stored, the channel of a published call is not idle. -/
def Up (s : Sys) : Prop :=
  ∀ call, s.Published call →
    s.Current call ∧ s.state call.chan ≠ .idle ∨ s.Superseded call

theorem Answering.of_live {s s' : Sys} (h : Answering s) (hl : s'.live = s.live) :
    Answering s' := by
  intro t ht
  rw [hl] at ht
  exact h t ht

theorem Answering.of_single {s : Sys} {t : Task} (hl : s.live = [t])
    (ht : ∀ st, t.pc.due = some st → st.answer = true) : Answering s := by
  intro t' ht'
  rw [hl, List.mem_singleton] at ht'
  exact ht' ▸ ht

theorem Answering.runs {s : Sys} {t : Task} (hs : s.tasks = [])
    (ht : ∀ st, t.pc.due = some st → st.answer = true) : Answering (s.runs t) := by
  refine .of_single ?_ ht
  rw [Sys.live]
  exact congrArg ([t] ++ ·) hs

/-- A `notify` of the worker's makes no invocation store anything. -/
theorem At.due_wake (c : Nat) (t : Task) : (t.wake c).pc.due = t.pc.due := by
  unfold Task.wake
  split
  · rename_i h
    split
    · rw [h]
      rfl
    · rfl
  · rfl

theorem Answering.storeByWorker {s : Sys} (hs : Shape s) (h : Answering s) (c : Nat)
    (st : SabState) : Answering (s.storeByWorker c st) := by
  intro t ht
  rw [hs.live_storeByWorker] at ht
  obtain ⟨t', ht', rfl⟩ := List.mem_map.mp ht
  rw [At.due_wake]
  exact h t' ht'

theorem CallMove.answering {s s' : Sys} {call : Call} {pc : Pc} (hm : CallMove s call pc s')
    (hs : Shape s) (h : Answering s) : Answering s' := by
  cases hm with
  | storeReady => exact (h.storeByWorker hs call.chan .reqReady).of_live rfl
  | ackWindow => exact (h.storeByWorker hs call.chan .chunkAck).of_live rfl
  | ackChunk => exact (h.storeByWorker hs call.chan .chunkAck).of_live rfl
  | resetStore => exact (h.storeByWorker hs call.chan .idle).of_live rfl
  | _ => exact h.of_live rfl

theorem WorkerMove.answering {s s' : Sys} {a : Action} (hm : WorkerMove s a s') (hs : Shape s)
    (h : Answering s) : Answering s' := by
  cases hm with
  | call _ _ hm => exact hm.answering hs h
  | @closingStore call _ => exact (h.storeByWorker hs call.chan .idle).of_live rfl
  | _ => exact h.of_live rfl

theorem Pick.Starts.due {engine : Engine} {p : Pick} {pc : At} (h : p.Starts engine pc) :
    pc.due = none := by
  cases h <;> rfl

/-- Of the steps that store nothing, only the end of a stream leads to a store of STATE. -/
theorem Task.Move.due {engine : Engine} {c size : Nat} {st st' : SabState} {t t' : Task}
    {events : List Event} (hm : t.Move engine c st size t' events)
    (h : t'.pc.due = some st') : st'.answer = true := by
  cases hm with
  | exhausted _ =>
      cases h
      rfl
  | timer hpc | empty hpc =>
      change t.pc.due = some st' at h
      rw [hpc] at h
      cases h
  | _ => cases h

theorem MainMove.answering {engine : Engine} {s s' : Sys} (hm : MainMove engine s s')
    (hs : Shape s) (h : Answering s) : Answering s' := by
  cases hm with
  | attach _ _ => exact h.of_live rfl
  | nudge hi _ => exact h.of_live (by simp [Sys.live, hi, Current.task])
  | decline hg _ => exact h.of_live (by simp [Sys.live, hg, Current.task])
  | pick _ _ _ _ _ hp hl' =>
      refine .of_single hl'.live fun st hst ↦ ?_
      rw [hp.due] at hst
      cases hst
  | task _ _ _ hm hl' => exact .of_single hl'.live fun st hst ↦ hm.due hst
  | store _ ht _ hst _ =>
      refine .runs ht fun st h ↦ ?_
      cases h
      cases hst <;> rfl
  | overflow _ ht _ hst _ =>
      refine .runs ht fun st h ↦ ?_
      cases hst with
      | window _ => cases h
      | @report _ _ caught _ => cases caught <;> cases h
  | @storeLength c off t state next hr ht _ hpc =>
      refine .runs ht fun st hst ↦ ?_
      cases hst
      exact h t (hs.mem_live_of_run hr) state (by rw [hpc]; rfl)
  | storeState _ ht _ _ hpc' =>
      refine .runs ht fun st hst ↦ ?_
      rcases hpc' with ⟨-, rfl⟩ | ⟨-, rfl⟩ <;> cases hst
  | @leave c t hr ht _ _ =>
      intro t' ht'
      simp only [Sys.live, ht, List.append_nil, Option.mem_toList] at ht'
      split at ht' <;> cases ht'

/-- A step that stores no request and no IDLE, and publishes no call. -/
theorem Up.of_back {s s' : Sys} (h : Up s) (hp : s'.posted = s.posted)
    (hst : ∀ c, s.state c ≠ .idle → s'.state c ≠ .idle)
    (hb : ∀ call', s'.Published call' → ∃ call, s.Published call ∧ call'.chan = call.chan ∧
      call'.gen = call.gen ∧ call'.request = call.request) : Up s' := by
  intro call' hpub
  obtain ⟨call, hpub, hchan, hgen, hreq⟩ := hb call' hpub
  rw [Sys.Current, Sys.Superseded, hp, hchan, hgen, hreq]
  exact (h call hpub).imp (fun hup ↦ ⟨hup.1, hst _ hup.2⟩) id

/-- The same, where no call changes its place. -/
theorem Up.stay {s s' : Sys} (h : Up s) (hp : s'.posted = s.posted)
    (hst : ∀ c, s.state c ≠ .idle → s'.state c ≠ .idle)
    (hph : s'.worker.phase = s.worker.phase) (hcl : s'.closing = s.closing)
    (hs : s'.suspended = s.suspended) : Up s' := by
  refine h.of_back hp hst fun call hpub ↦ ⟨call, ?_, rfl, rfl, rfl⟩
  cases hpub with
  | running hw hr => exact .running (hph ▸ hw) hr
  | closing hc => exact .closing (hcl ▸ hc)
  | suspended hm => exact .suspended (hs ▸ hm)

/-- The running call is not published, or it is over. -/
theorem Up.quiet {s s' : Sys} (h : Up s) (hp : s'.posted = s.posted)
    (hst : ∀ c, s.state c ≠ .idle → s'.state c ≠ .idle)
    (hph : ∀ call ph, s'.worker.phase = some (call, ph) → ph.requests = true)
    (hcl : s'.closing = s.closing) (hs : s'.suspended = s.suspended) : Up s' := by
  refine h.of_back hp hst fun call hpub ↦ ⟨call, ?_, rfl, rfl, rfl⟩
  cases hpub with
  | running hw hr =>
      rw [hph _ _ hw] at hr
      cases hr
  | closing hc => exact .closing (hcl ▸ hc)
  | suspended hm => exact .suspended (hs ▸ hm)

/-- No call runs any more. -/
theorem Up.over {s s' : Sys} (h : Up s) (hp : s'.posted = s.posted)
    (hst : ∀ c, s.state c ≠ .idle → s'.state c ≠ .idle) (hph : s'.worker.phase = none)
    (hcl : s'.closing = s.closing) (hs : s'.suspended = s.suspended) : Up s' := by
  refine h.quiet hp hst (fun call ph hw ↦ ?_) hcl hs
  rw [hph] at hw
  cases hw

/-- The running call goes on behind its request. -/
theorem Up.goto {s s' : Sys} {call call' : Call} {pc pc' : Pc} (h : Up s)
    (hw : s.worker = .run call pc) (hr : pc.phase.requests = false)
    (hw' : s'.worker = .run call' pc')
    (hkey : call'.chan = call.chan ∧ call'.gen = call.gen ∧ call'.request = call.request)
    (hp : s'.posted = s.posted) (hst : ∀ c, s.state c ≠ .idle → s'.state c ≠ .idle)
    (hcl : s'.closing = s.closing) (hs : s'.suspended = s.suspended) : Up s' := by
  refine h.of_back hp hst fun call0 hpub ↦ ?_
  cases hpub with
  | running hw0 _ =>
      rw [hw'] at hw0
      cases hw0
      exact ⟨call, .running (by rw [hw]; rfl) hr, hkey⟩
  | closing hc => exact ⟨call0, .closing (hcl ▸ hc), rfl, rfl, rfl⟩
  | suspended hm => exact ⟨call0, .suspended (hs ▸ hm), rfl, rfl, rfl⟩

theorem Sys.state_ne_storeByWorker {s : Sys} {c : Nat} {st : SabState} (hst : st ≠ .idle)
    (c' : Nat) (h : s.state c' ≠ .idle) : (s.storeByWorker c st).state c' ≠ .idle := by
  rw [Sys.state_storeByWorker]
  split
  · exact hst
  · exact h

/-- The current call of a channel is over, and the channel is idle. -/
theorem Up.reset {s s' : Sys} (h : Up s) (call : Call) (hp : s'.posted = s.posted)
    (hst : ∀ c, s'.state c = if c = call.chan then .idle else s.state c)
    (hb : ∀ call', s'.Published call' → s.Published call' ∧
      (call'.chan = call.chan → ¬ s.Current call')) : Up s' := by
  intro call' hpub
  obtain ⟨hpub, hno⟩ := hb call' hpub
  rw [Sys.Current, Sys.Superseded, hp, hst]
  rcases h call' hpub with ⟨hcur, hne⟩ | hsup
  · rw [if_neg fun hc ↦ hno hc hcur]
    exact .inl ⟨hcur, hne⟩
  · exact .inr hsup

theorem CallMove.up {s s' : Sys} {call : Call} {pc : Pc} (hm : CallMove s call pc s')
    (hc : s.closing = none) (hw : s.worker = .run call pc) (hl : Ledger s) (hl' : Ledger s')
    (h : Up s) : Up s' := by
  have same : call.chan = call.chan ∧ call.gen = call.gen ∧ call.request = call.request :=
    ⟨rfl, rfl, rfl⟩
  have hphase : s.worker.phase = some (call, pc.phase) := by rw [hw]; rfl
  have hrun := hl.running call pc.phase hphase
  cases hm with
  | grow _ =>
      refine h.quiet rfl (fun c hne ↦ ?_) (fun _ _ hw0 ↦ by cases hw0; rfl) rfl rfl
      exact (state_attachData s call.chan _ c).trans_ne hne
  | announce => exact h.quiet rfl (fun _ ↦ id) (fun _ _ hw0 ↦ by cases hw0; rfl) rfl rfl
  | @marshal r _ =>
      have hst : ∀ c, (s.marshalled call r).state c = s.state c := fun c ↦ by
        rw [Sys.state, Sys.backend_marshalled]
        exact Sys.state_setCtrl s call.chan c _ fun _ ↦ rfl
      have hcur : (s.marshalled call r).Current call := Function.update_self ..
      intro call' hpub
      cases hpub with
      | running hw0 hr =>
          cases hw0
          cases hr
      | closing hc' => cases hc.symm.trans hc'
      | suspended hmem =>
          by_cases hchan : call'.chan = call.chan
          · -- what is suspended on the channel is older than the request
            refine .inr ((hl'.held call' hmem).resolve_left ?_)
            have hphase' : (s.marshalled call r).worker.phase = some (call, .posting) := rfl
            exact hl'.not_current_suspended hphase' hcur hmem hchan
          · have hp : (s.marshalled call r).posted call'.chan = s.posted call'.chan :=
              Function.update_of_ne hchan ..
            rw [Sys.Current, Sys.Superseded, hp, hst]
            exact h call' (.suspended hmem)
  | unfit _ => exact h.over rfl (fun _ ↦ id) rfl rfl rfl
  | @storeLength off =>
      refine h.quiet rfl (fun c hne ↦ ?_) (fun _ _ hw0 ↦ by cases hw0; rfl) rfl rfl
      exact (Sys.state_setCtrl s call.chan c (fun ctrl ↦ { ctrl with length := toInt32 off })
        fun _ ↦ rfl).trans_ne hne
  | storeSeq =>
      refine h.quiet rfl (fun c hne ↦ ?_) (fun _ _ hw0 ↦ by cases hw0; rfl) rfl rfl
      exact (Sys.state_setCtrl s call.chan c (fun ctrl ↦ { ctrl with seq := 0 })
        fun _ ↦ rfl).trans_ne hne
  | storeReady =>
      intro call' hpub
      cases hpub with
      | running hw0 _ =>
          cases hw0
          refine .inl ⟨hrun, ?_⟩
          exact (Sys.state_storeByWorker s call.chan call.chan .reqReady).trans_ne (by simp)
      | closing hc' => cases hc.symm.trans hc'
      | suspended hmem =>
          exact (h call' (.suspended hmem)).imp (fun hup ↦
            ⟨hup.1, Sys.state_ne_storeByWorker (by simp) _ hup.2⟩) id
  | nudge => exact h.goto hw rfl rfl same rfl (fun _ ↦ id) rfl rfl
  | due _ => exact h.goto hw rfl rfl same rfl (fun _ ↦ id) rfl rfl
  | answered _ => exact h.goto hw rfl rfl (afterWait_call ..) rfl (fun _ ↦ id) rfl rfl
  | park _ => exact h.goto hw rfl rfl same rfl (fun _ ↦ id) rfl rfl
  | notEqual _ => exact h.goto hw rfl rfl same rfl (fun _ ↦ id) rfl rfl
  | loadStatus hcall =>
      subst hcall
      exact h.goto hw rfl rfl same rfl (fun _ ↦ id) rfl rfl
  | malformed _ => exact h.goto hw rfl rfl same rfl (fun _ ↦ id) rfl rfl
  | more ht => exact h.goto hw rfl rfl (takeWindow_call (.inl ht)) rfl (fun _ ↦ id) rfl rfl
  | complete _ ht => exact h.goto hw rfl rfl (takeWindow_call (.inr ht)) rfl (fun _ ↦ id) rfl rfl
  | yield _ ht =>
      refine h.of_back rfl (fun _ ↦ id) fun call0 hpub ↦ ?_
      cases hpub with
      | running hw0 _ => cases hw0
      | closing hc' => exact ⟨call0, .closing hc', rfl, rfl, rfl⟩
      | suspended hmem =>
          rcases List.mem_append.mp hmem with hmem | hmem
          · exact ⟨call0, .suspended hmem, rfl, rfl, rfl⟩
          · cases List.mem_singleton.mp hmem
            exact ⟨call, .running hphase rfl, takeWindow_call (.inr ht)⟩
  | ackWindow =>
      exact h.goto hw rfl rfl same rfl (Sys.state_ne_storeByWorker (by simp)) rfl rfl
  | current _ => exact h.goto hw rfl rfl same rfl (fun _ ↦ id) rfl rfl
  | stale _ => exact h.goto hw rfl rfl same rfl (fun _ ↦ id) rfl rfl
  | ackChunk =>
      exact h.goto hw rfl rfl same rfl (Sys.state_ne_storeByWorker (by simp)) rfl rfl
  | resets _ => exact h.goto hw rfl rfl same rfl (fun _ ↦ id) rfl rfl
  | keeps _ => exact h.over rfl (fun _ ↦ id) rfl rfl rfl
  | resetStore =>
      refine h.reset call rfl (fun c ↦ Sys.state_storeByWorker s call.chan c .idle)
        fun call' hpub ↦ ?_
      cases hpub with
      | running hw0 _ => cases hw0
      | closing hc' => cases hc.symm.trans hc'
      | suspended hmem =>
          exact ⟨.suspended hmem, hl.not_current_suspended hphase hrun hmem⟩

theorem WorkerMove.up {s s' : Sys} {a : Action} (hm : WorkerMove s a s') (hl : Ledger s)
    (hl' : Ledger s') (h : Up s) : Up s' := by
  cases hm with
  | construct _ _ =>
      refine h.over rfl (fun c hne ↦ ?_) rfl rfl rfl
      exact (state_attachData { s with backends := s.backends + 1 } s.backends _ c).trans_ne hne
  | attached _ _ => exact h.over rfl (fun _ ↦ id) rfl rfl rfl
  | @start c req pc _ _ _ hpc =>
      refine h.quiet rfl (fun c' ↦ (Sys.state_setGen s c c' _).trans_ne) ?_ rfl rfl
      · intro call ph hw
        cases hw
        rw [hpc]
        split <;> rfl
  | @resume i call _ _ hi =>
      refine h.of_back rfl (fun _ ↦ id) fun call0 hpub ↦ ⟨call0, ?_, rfl, rfl, rfl⟩
      cases hpub with
      | running hw _ =>
          cases hw
          exact .suspended (List.mem_of_getElem? hi)
      | closing hc => exact .closing hc
      | suspended hmem => exact .suspended (List.mem_of_mem_eraseIdx hmem)
  | call hc hw hm => exact hm.up hc hw hl hl' h
  | expireFirst _ _ _ => exact h.over rfl (fun _ ↦ id) rfl rfl rfl
  | expire hw _ _ => exact h.goto hw rfl rfl ⟨rfl, rfl, rfl⟩ rfl (fun _ ↦ id) rfl rfl
  | @close i call _ hi _ =>
      refine h.of_back rfl (fun _ ↦ id) fun call0 hpub ↦ ⟨call0, ?_, rfl, rfl, rfl⟩
      cases hpub with
      | running hw hr => exact .running hw hr
      | closing hc =>
          cases hc
          exact .suspended (List.mem_of_getElem? hi)
      | suspended hmem => exact .suspended (List.mem_of_mem_eraseIdx hmem)
  | closingCurrent hc _ =>
      refine h.of_back rfl (fun _ ↦ id) fun call0 hpub ↦ ⟨call0, ?_, rfl, rfl, rfl⟩
      cases hpub with
      | running hw hr => exact .running hw hr
      | closing hc' =>
          cases hc'
          exact .closing hc
      | suspended hmem => exact .suspended hmem
  | closingStale _ _ =>
      refine h.of_back rfl (fun _ ↦ id) fun call0 hpub ↦ ⟨call0, ?_, rfl, rfl, rfl⟩
      cases hpub with
      | running hw hr => exact .running hw hr
      | closing hc' => cases hc'
      | suspended hmem => exact .suspended hmem
  | @closingStore call hc =>
      have hcur : s.Current call := (hl.closing _ hc).2.2 rfl
      -- whoever else is on the channel has another generation
      have others : ∀ {call' : Call}, call'.key ≠ call.key → call'.chan = call.chan →
          ¬ s.Current call' := fun hne hchan ↦ hcur.not_of_key_ne hchan hne
      refine h.reset call rfl (fun c ↦ Sys.state_storeByWorker s call.chan c .idle)
        fun call' hpub ↦ ?_
      cases hpub with
      | running hw hr => exact ⟨.running hw hr, others (hl.closing_ne_running hw hc).symm⟩
      | closing hc' => cases hc'
      | suspended hmem => exact ⟨.suspended hmem, others (hl.suspended_ne_closing hc hmem)⟩

/-- The main thread stores answers. -/
theorem MainMove.up {engine : Engine} {s s' : Sys} (hm : MainMove engine s s') (hs : Shape s)
    (ha : Answering s) (h : Up s) : Up s' := by
  have hph := hm.phase
  cases hm with
  | @store c _ t _ _ status _ _ _ _ _ _ _ _ =>
      refine h.stay rfl (fun c' hne ↦ ?_) hph rfl rfl
      exact (Sys.state_setCtrl s c c' (fun ctrl ↦ { ctrl with status := toInt32 status })
        fun _ ↦ rfl).trans_ne hne
  | @storeLength c off _ _ _ _ _ _ _ =>
      refine h.stay rfl (fun c' hne ↦ ?_) hph rfl rfl
      exact (Sys.state_setCtrl s c c' (fun ctrl ↦ { ctrl with length := toInt32 off })
        fun _ ↦ rfl).trans_ne hne
  | @storeState c t state next pc hr _ _ hpc _ =>
      have hans : state.answer = true := ha t (hs.mem_live_of_run hr) state (by rw [hpc]; rfl)
      refine h.stay rfl (fun c' hne ↦ ?_) hph rfl rfl
      change (s.storeByMain t c state).state c' ≠ _
      rw [Sys.state_storeByMain]
      split
      · rintro rfl
        cases hans
      · exact hne
  | _ => exact h.stay rfl (fun _ ↦ id) hph rfl rfl

/-- What holds of the generations and of STATE while GEN does not come round. -/
structure Owned (s : Sys) : Prop where
  shape : Shape s
  ledger : Ledger s
  answering : Answering s
  up : Up s

theorem owned_of_reachable {engine : Engine} {s : Sys}
    (h : (system engine).Reachable Sys.Unwrapped s) : Owned s := by
  refine h.invariant ?_ ?_
  · rintro s rfl
    refine ⟨.init, .init, fun t ht ↦ ?_, fun call hpub ↦ ?_⟩
    · cases ht
    cases hpub with
    | running hw _ => cases hw
    | closing hc => cases hc
    | suspended hmem => cases hmem
  · rintro s a s' ⟨hs, hl, ha, hu⟩ hok hstep
    have hm := Move.of_step hs hstep
    have hl' := hm.ledger hok hl
    cases hm with
    | worker hm => exact ⟨hm.shape hs, hl', hm.answering hs ha, hm.up hl hl' hu⟩
    | main _ _ hm => exact ⟨hm.shape hs, hl', hm.answering hs ha, hm.up hs ha hu⟩

/-! ## Ends -/

theorem CallMove.ends {s s' : Sys} {call : Call} {pc : Pc} (hm : CallMove s call pc s')
    (hw : s.worker = .run call pc) : call.key ∈ s'.keys ∨ s.Ends call .worker s' := by
  -- the call goes on, under the same key
  have goes : ∀ {call' : Call} {pc' : Pc}, s'.worker = .run call' pc' →
      call'.chan = call.chan ∧ call'.gen = call.gen ∧ call'.request = call.request →
      call.key ∈ s'.keys := by
    rintro call' pc' hw' ⟨hchan, hgen, -⟩
    have : call'.key = call.key := Call.key_eq hchan hgen
    exact this ▸ Sys.key_mem_of_run hw'
  cases hm with
  | unfit _ => exact .inr (.unfit hw)
  | keeps hg => exact .inr (.keeps hw hg)
  | resetStore => exact .inr (.resets hw)
  | answered _ => exact .inl (goes rfl (afterWait_call ..))
  | more ht => exact .inl (goes rfl (takeWindow_call (.inl ht)))
  | complete _ ht => exact .inl (goes rfl (takeWindow_call (.inr ht)))
  | loadStatus hcall =>
      subst hcall
      exact .inl (goes rfl ⟨rfl, rfl, rfl⟩)
  | @yield call' _ ht =>
      have : call'.key = call.key := takeWindow_key (.inr ht)
      exact .inl (this ▸ Sys.key_mem_of_suspended (List.mem_append_right _ (List.mem_cons_self ..)))
  | _ => exact .inl (goes rfl ⟨rfl, rfl, rfl⟩)

theorem CallMove.suspended_subset {s s' : Sys} {call : Call} {pc : Pc}
    (hm : CallMove s call pc s') : s.suspended ⊆ s'.suspended := by
  cases hm with
  | yield _ _ => exact List.subset_append_left ..
  | _ => exact List.Subset.refl _

/-- If only the running call can end in a step, a call that ends is the running one. -/
theorem Sys.Published.running_of_over {s s' : Sys} {call : Call} (h : s.Published call)
    (hover : call.key ∉ s'.keys) (hcl : s'.closing = s.closing)
    (hs : s.suspended ⊆ s'.suspended) : ∃ ph, s.worker.phase = some (call, ph) := by
  cases h with
  | @running ph hw _ => exact ⟨ph, hw⟩
  | closing hc => exact absurd (Sys.key_mem_of_closing (hcl.trans hc)) hover
  | suspended hm => exact absurd (Sys.key_mem_of_suspended (hs hm)) hover

/-- If only the call being closed can end in a step, a call that ends is that one. -/
theorem Sys.Published.closing_of_over {s s' : Sys} {call : Call} (h : s.Published call)
    (hover : call.key ∉ s'.keys) (hw : s'.worker = s.worker)
    (hs : s'.suspended = s.suspended) : ∃ loaded, s.closing = some ⟨call, loaded⟩ := by
  cases h with
  | running hph _ =>
      rw [← hw] at hph
      exact absurd (List.mem_map_of_mem (Sys.mem_calls_of_phase hph)) hover
  | @closing loaded hc => exact ⟨loaded, hc⟩
  | suspended hm => exact absurd (Sys.key_mem_of_suspended (hs ▸ hm)) hover

theorem eq_or_mem_eraseIdx {α : Type} {l : List α} {i : Nat} {a b : α} (hi : l[i]? = some a)
    (hb : b ∈ l) : b = a ∨ b ∈ l.eraseIdx i := by
  obtain ⟨hlt, rfl⟩ := List.getElem?_eq_some_iff.mp hi
  exact List.mem_cons.mp ((List.getElem_cons_eraseIdx_perm hlt).mem_iff.mpr hb)

theorem WorkerMove.ends {s s' : Sys} {a : Action} (hm : WorkerMove s a s') {call : Call}
    (hpub : s.Published call) (hover : call.key ∉ s'.keys) : s.Ends call a s' := by
  cases hm with
  | construct _ hw | attached _ hw | start _ hw _ _ =>
      obtain ⟨ph, hph⟩ := hpub.running_of_over hover rfl (List.Subset.refl _)
      rw [hw] at hph
      cases hph
  | @resume i call0 hc hw hi =>
      -- the call is no longer suspended, but running
      cases hpub with
      | running hw' _ =>
          rw [hw] at hw'
          cases hw'
      | closing hc' => cases hc.symm.trans hc'
      | suspended hm =>
          rcases eq_or_mem_eraseIdx hi hm with rfl | hm
          · exact absurd (Sys.key_mem_of_run rfl) hover
          · exact absurd (Sys.key_mem_of_suspended hm) hover
  | @call call0 pc s' hc hw hm =>
      have hcl : s'.closing = s.closing := by cases hm <;> rfl
      obtain ⟨ph, hph⟩ := hpub.running_of_over hover hcl hm.suspended_subset
      rw [hw] at hph
      cases hph
      exact (hm.ends hw).resolve_left hover
  | expireFirst hw _ hk =>
      obtain ⟨ph, hph⟩ := hpub.running_of_over hover rfl (List.Subset.refl _)
      rw [hw] at hph
      cases hph
      exact .lapses hw hk
  | expire hw _ _ =>
      obtain ⟨ph, hph⟩ := hpub.running_of_over hover rfl (List.Subset.refl _)
      rw [hw] at hph
      cases hph
      exact absurd (Sys.key_mem_of_run rfl) hover
  | @close i call0 hc hi _ =>
      -- the call is no longer suspended, but being closed
      cases hpub with
      | running hw _ => exact (hover (List.mem_map_of_mem (Sys.mem_calls_of_phase hw))).elim
      | closing hc' => cases hc.symm.trans hc'
      | suspended hm =>
          rcases eq_or_mem_eraseIdx hi hm with rfl | hm
          · exact (hover (Sys.key_mem_of_closing rfl)).elim
          · exact absurd (Sys.key_mem_of_suspended hm) hover
  | closingCurrent hc _ =>
      obtain ⟨_, hc'⟩ := hpub.closing_of_over hover rfl rfl
      cases hc.symm.trans hc'
      exact (hover (Sys.key_mem_of_closing rfl)).elim
  | closingStale hc hg =>
      obtain ⟨_, hc'⟩ := hpub.closing_of_over hover rfl rfl
      cases hc.symm.trans hc'
      exact .closedStale hc hg
  | closingStore hc =>
      obtain ⟨_, hc'⟩ := hpub.closing_of_over hover rfl rfl
      cases hc.symm.trans hc'
      exact .closed hc

theorem MainMove.keys {engine : Engine} {s s' : Sys} (hm : MainMove engine s s') :
    s'.keys = s.keys := by
  cases hm with
  | @storeState c _ _ _ _ _ _ _ _ _ =>
      change (((s.worker.wake c).call.toList ++ _) ++ _).map Call.key = _
      rw [Worker.call_wake]
      rfl
  | _ => rfl

theorem Move.ends {engine : Engine} {s s' : Sys} {a : Action} (hm : Move engine s a s')
    {call : Call} (hpub : s.Published call) (hover : call.key ∉ s'.keys) : s.Ends call a s' := by
  cases hm with
  | worker hm => exact hm.ends hpub hover
  | main _ _ hm =>
      rw [hm.keys] at hover
      exact absurd (List.mem_map_of_mem hpub.mem_calls) hover

/-! ## Superseded calls -/

theorem Sys.not_superseded {s : Sys} {call : Call} (h : s.Current call) : ¬ s.Superseded call := by
  rintro ⟨q, hq, hlt⟩
  cases h.symm.trans hq
  exact lt_irrefl _ hlt

/-- What a superseded call has left to do stores nothing in STATE. -/
theorem CallMove.spares {s s' : Sys} {call : Call} {pc : Pc} (hm : CallMove s call pc s')
    (hl : Ledger s) (hw : s.worker = .run call pc) (hsup : s.Superseded call) :
    s'.state call.chan = s.state call.chan ∧
      s'.writer (.state call.chan) = s.writer (.state call.chan) := by
  have hrun := hl.running call pc.phase (by rw [hw]; rfl)
  have stale : ∀ {P : Prop}, s.Current call → P := fun h ↦ absurd hsup (Sys.not_superseded h)
  cases hm with
  | grow _ => exact ⟨state_attachData s call.chan _ _, rfl⟩
  | announce => exact ⟨rfl, rfl⟩
  | marshal _ | unfit _ =>
      obtain ⟨q, hq, hlt⟩ := hsup
      exact absurd (hrun.2 q hq) (not_lt.mpr hlt.le)
  | current _ | stale _ | resets _ | keeps _ => exact ⟨rfl, rfl⟩
  | _ => exact stale hrun

theorem WorkerMove.spares {s s' : Sys} {a : Action} (hm : WorkerMove s a s') (hl : Ledger s)
    {call : Call} (hact : s.acting a = some call) (hsup : s.Superseded call) :
    s'.state call.chan = s.state call.chan ∧
      s'.writer (.state call.chan) = s.writer (.state call.chan) := by
  cases hm with
  | construct _ _ | start _ _ _ _ => cases hact
  | attached _ hw =>
      rw [Sys.acting, hw] at hact
      cases hact
  | resume _ _ _ => exact ⟨rfl, rfl⟩
  | call _ hw hm =>
      rw [Sys.acting, hw] at hact
      cases hact
      exact hm.spares hl hw hsup
  | expireFirst _ _ _ | expire _ _ _ => exact ⟨rfl, rfl⟩
  | close _ _ _ => exact ⟨rfl, rfl⟩
  | closingCurrent _ _ | closingStale _ _ => exact ⟨rfl, rfl⟩
  | closingStore hc =>
      rw [Sys.acting, hc] at hact
      cases hact
      exact absurd hsup (Sys.not_superseded ((hl.closing _ hc).2.2 rfl))

theorem Move.spares {engine : Engine} {s s' : Sys} {a : Action} (hm : Move engine s a s')
    (hl : Ledger s) {call : Call} (hact : s.acting a = some call) (hsup : s.Superseded call) :
    s'.state call.chan = s.state call.chan ∧
      s'.writer (.state call.chan) = s.writer (.state call.chan) := by
  cases hm with
  | worker hm => exact hm.spares hl hact hsup
  | main hb _ _ =>
      have : s.acting a = none := by
        cases a <;> first
          | rfl
          | cases hb
      cases this.symm.trans hact

/-! ## Exactly when a call releases its channel -/

theorem toInt32_ne {n : Nat} (h : 2 ^ 31 ≤ n) : toInt32 n ≠ n := by
  have := Int.bmod_lt (x := n) (m := 2 ^ 32) (by decide)
  rw [toInt32]
  omega

namespace Sys

/-- Running or not, a published call is behind its request. -/
theorem Published.requests {s : Sys} (hl : Ledger s) {call : Call} {ph : Phase}
    (h : s.Published call) (hph : s.worker.phase = some (call, ph)) : ph.requests = false := by
  cases h with
  | running hph' hr =>
      cases hph.symm.trans hph'
      exact hr
  | closing hc => exact absurd rfl (hl.closing_ne_running hph hc)
  | suspended hm => exact absurd rfl (hl.suspended_ne_running hph hm)

/-- GEN holds the generation of the current call, as an `Int32`. -/
theorem gen_eq_iff {s : Sys} (hl : Ledger s) {call : Call} (h : s.Current call) :
    (s.backend call.chan).ctrl.gen = call.gen ↔ call.gen < 2 ^ 31 := by
  rw [(hl.word _ _ h).1]
  refine ⟨fun heq ↦ ?_, fun hlt ↦ toInt32_of_lt hlt⟩
  by_contra hge
  exact toInt32_ne (not_lt.mp hge) heq

theorem key_not_mem_finish {s t : Sys} (hl : Ledger s) {call : Call} {pc : Pc} {o : Outcome}
    (hw : s.worker = .run call pc) (hcl : t.closing = s.closing) (hs : t.suspended = s.suspended) :
    call.key ∉ (t.finish call o).keys := by
  have hk : s.keys = call.key :: (t.finish call o).keys := by
    rw [keys, keys, calls, calls, hw]
    change _ = call.key :: List.map Call.key ((t.closing.map Closing.call).toList ++ t.suspended)
    rw [hcl, hs]
    simp
  exact (List.nodup_cons.mp (hk ▸ hl.nodup)).1

theorem key_not_mem_closed {s : Sys} (hl : Ledger s) {cl : Closing} (hc : s.closing = some cl) :
    cl.call.key ∉ Sys.keys { s with closing := none } := by
  have hk : s.keys.Perm (cl.call.key :: Sys.keys { s with closing := none }) := by
    simp [keys, calls, hc]
  exact (List.nodup_cons.mp (hk.nodup_iff.mp hl.nodup)).1

/-- A call that lapses ends, and STATE stays what it was. -/
theorem Lapses.ends {engine : Engine} {s s' : Sys} {a : Action} {call : Call}
    (h : s.Lapses call a) (hl : Ledger s) (hm : Move engine s a s') :
    s.Current call ∧ call.key ∉ s'.keys ∧ s'.state call.chan = s.state call.chan := by
  cases hm with
  | main hb _ _ => cases a <;> first
      | exact h.elim
      | cases hb
  | worker hm =>
      cases hm with
      | construct _ _ | start _ _ _ _ | resume _ _ _ | close _ _ _ => cases h
      | attached _ hw =>
          obtain ⟨⟨o, hw'⟩, -⟩ := h
          cases hw.symm.trans hw'
      | call _ hw hm =>
          obtain ⟨⟨o, hw'⟩, hcur, hge⟩ := h
          cases hw.symm.trans hw'
          cases hm with
          | resets hg => exact absurd ((gen_eq_iff hl hcur).mp hg) (not_lt.mpr hge)
          | keeps _ => exact ⟨hcur, key_not_mem_finish hl hw rfl rfl, rfl⟩
      | expireFirst hw _ _ =>
          obtain ⟨hw', -⟩ := h
          cases hw.symm.trans hw'
          exact ⟨hl.running call (.asking .first) (by rw [hw]; rfl),
            key_not_mem_finish hl hw rfl rfl, rfl⟩
      | expire hw _ hk =>
          obtain ⟨hw', hk'⟩ := h
          cases hw.symm.trans hw'
          exact absurd ⟨rfl, hk'⟩ hk
      | closingCurrent hc hg =>
          obtain ⟨hc', hcur, hge⟩ := h
          cases hc.symm.trans hc'
          exact absurd ((gen_eq_iff hl hcur).mp hg) (not_lt.mpr hge)
      | closingStale hc _ =>
          obtain ⟨hc', hcur, -⟩ := h
          cases hc.symm.trans hc'
          exact ⟨hcur, key_not_mem_closed hl hc, rfl⟩
      | closingStore hc =>
          obtain ⟨hc', -⟩ := h
          cases hc.symm.trans hc'

theorem Lapses.not_releases {engine : Engine} {s s' : Sys} {a : Action} {call : Call}
    (h : s.Lapses call a) (ho : Owned s) (hm : Move engine s a s') (hpub : s.Published call) :
    ¬ s.Releases a s' call := by
  intro hr
  obtain ⟨hcur, hover, hst⟩ := h.ends ho.ledger hm
  have hsup := not_superseded hcur
  have hne := ((ho.up call hpub).resolve_right hsup).2
  exact hne (hst.symm.trans (hr.idle hover hsup).1)

/-- The other ends reset STATE. -/
theorem Ends.idle {s s' : Sys} {a : Action} {call : Call} (h : s.Ends call a s') (ho : Owned s)
    (hpub : s.Published call) (hsup : ¬ s.Superseded call) (hla : ¬ s.Lapses call a) :
    s'.state call.chan = .idle ∧ s'.writer (.state call.chan) = none := by
  have hcur := ((ho.up call hpub).resolve_right hsup).1
  -- a comparison with GEN that comes out unequal is the lapse of a late generation
  have late : (s.backend call.chan).ctrl.gen ≠ call.gen → 2 ^ 31 ≤ call.gen := fun hne ↦
    not_lt.mp fun hlt ↦ hne ((gen_eq_iff ho.ledger hcur).mpr hlt)
  have stored : (s.storeByWorker call.chan .idle).state call.chan = .idle ∧
      (s.storeByWorker call.chan .idle).writer (.state call.chan) = none := by
    refine ⟨?_, Function.update_self ..⟩
    rw [state_storeByWorker, if_pos rfl]
  cases h with
  | unfit hw =>
      have hphase : s.worker.phase = some (call, .preparing) := by rw [hw]; rfl
      cases hpub.requests ho.ledger hphase
  | lapses hw hk => exact absurd ⟨hw, hk⟩ hla
  | keeps hw hg => exact absurd ⟨⟨_, hw⟩, hcur, late hg⟩ hla
  | closedStale hc hg => exact absurd ⟨hc, hcur, late hg⟩ hla
  | resets _ => exact stored
  | closed _ => exact stored

end Sys

/-- In every run in which GEN does not come round to a suspended stream's generation, a
published call releases its channel exactly if it does not lapse. -/
theorem releases_iff {engine : Engine} {s s' : Sys} {a : Action} {call : Call}
    (hr : (system engine).Reachable Sys.Unwrapped s) (hstep : step engine s a = some s')
    (hpub : s.Published call) : s.Releases a s' call ↔ ¬ s.Lapses call a := by
  have ho := owned_of_reachable hr
  have hm := Move.of_step ho.shape hstep
  refine ⟨fun hrel hla ↦ hla.not_releases ho hm hpub hrel, fun hla ↦ ⟨?_, ?_⟩⟩
  · exact fun hover hsup ↦ (hm.ends hpub hover).idle ho hpub hsup hla
  · exact fun hact hsup ↦ hm.spares ho.ledger hact hsup

/-! ## Two ends -/

/-- The worker is about to store IDLE for its unary call. -/
def Sys.resets (s : Sys) : Bool :=
  match s.worker with
  | .run _ (.resetStore _) => s.closing.isNone
  | _ => false

/-- The worker is asleep in the first wait of a unary call with a timeout. -/
def Sys.sleepsFirst (s : Sys) : Bool :=
  match s.worker with
  | .run call (.parked .first) => call.request.kind = .unary && call.request.timeout.isSome
  | _ => false

/-- A call that raises what the bridge reported releases its channel. -/
theorem releases_failedRun : ∃ s s' : Sys, ∃ call : Call,
    (system v8).Reachable Sys.Unwrapped s ∧ step v8 s .worker = some s' ∧ s.Published call ∧
      s.Releases .worker s' call := by
  obtain ⟨s, hr, hresets⟩ := (system v8).exists_reachable Sys.Unwrapped
    (attachRun ++ requestRun "/rpc" none ++ failedRun ++ [Action.worker, .worker])
    Sys.resets rfl (by decide +kernel)
  unfold Sys.resets at hresets
  split at hresets
  swap
  · cases hresets
  rename_i call o hw
  have hphase : s.worker.phase = some (call, .resetting o) := by rw [hw]; rfl
  have hpub : s.Published call := .running hphase rfl
  have hcl := Option.isNone_iff_eq_none.mp hresets
  have hstep : step v8 s .worker = some ((s.storeByWorker call.chan .idle).finish call o) := by
    simp only [step, Sys.stepWorker, hcl, hw, Sys.stepCall]
  refine ⟨s, _, call, hr, hstep, hpub, (releases_iff hr hstep hpub).mpr ?_⟩
  rintro ⟨⟨o', hw'⟩, -⟩
  cases hw.symm.trans hw'

/-- The first wait of a unary call expires: STATE stays REQ_READY. -/
theorem not_always_releases : ¬ ∀ engine s a s' call,
    (system engine).Reachable (fun _ _ ↦ True) s → step engine s a = some s' →
      s.Published call → s.Releases a s' call := by
  intro hall
  obtain ⟨s, hr, hsleeps⟩ := (system v8).exists_reachable Sys.Unwrapped
    (attachRun ++ requestRun "/rpc" (some { mantissa := 1, scale := 0 }) ++ [Action.worker, .worker])
    Sys.sleepsFirst rfl (by decide +kernel)
  unfold Sys.sleepsFirst at hsleeps
  split at hsleeps
  swap
  · cases hsleeps
  rename_i call hw
  simp only [Bool.and_eq_true, decide_eq_true_eq, Option.isSome_iff_exists] at hsleeps
  obtain ⟨hk, t, ht⟩ := hsleeps
  have ho := owned_of_reachable hr
  have hphase : s.worker.phase = some (call, .asking .first) := by rw [hw]; rfl
  have hpub : s.Published call := .running hphase rfl
  have hstep : step v8 s .expire =
      some ((s.logged .expired).finish call (.raised (timedOut t))) := by
    simp [step, Sys.expire, hw, ht, hk]
  have hla : s.Lapses call .expire := ⟨hw, hk⟩
  exact hla.not_releases ho (Move.of_step ho.shape hstep) hpub
    (hall v8 s .expire _ call (hr.mono fun _ _ _ ↦ trivial) hstep hpub)

end ConnectWeb.Sab
