import ConnectWeb.Sab.Dispatch

/-!
# What the two threads wait for

An invocation of `handleRpc` that waits for the worker sleeps on the channel that it answered,
and the worker's next store there wakes it.  Behind an ack that the worker waits on there is
such an invocation, and behind a request there is its nudge.  The invariants are about the
newest channel; what older ones may leave behind is an announcement, or an invocation that is
still waiting on one of them.
-/

namespace ConnectWeb.Sab

/-! ## Announcements on their way -/

/-- The channel that is attached once `q` is delivered to a bridge that has `ctrl`. -/
def attachedBy : Option Nat → List Message → Option Nat
  | ctrl, [] => ctrl
  | _, .sab c _ :: q => attachedBy (some c) q
  | ctrl, .rpc :: q => attachedBy ctrl q

theorem attachedBy_eq (ctrl : Option Nat) (q : List Message) :
    attachedBy ctrl q = (ctrl.toList ++ (q.filterMap Message.announcement).map Prod.fst).getLast? := by
  induction q generalizing ctrl with
  | nil => cases ctrl <;> rfl
  | cons m q ih =>
      cases m with
      | sab c d =>
          have hq : (Message.sab c d :: q).filterMap Message.announcement =
              (c, d) :: q.filterMap Message.announcement := rfl
          rw [attachedBy, ih, hq, List.map_cons, List.getLast?_append_cons]
          rfl
      | rpc => exact ih ctrl

namespace Sys

/-- What is on its way to the bridge, or about to be. -/
def onWay (s : Sys) : List (Nat × Nat) :=
  s.queue.filterMap Message.announcement ++ s.worker.announcing.toList

/-- An invocation waits for the worker. -/
def Attended (s : Sys) : Prop := ∃ t next, s.live = [t] ∧ t.stage = .awaiting next

/-- The calls between a chunk that they have taken and the ack for it. -/
def Keeps (s : Sys) (call : Call) : Prop :=
  call ∈ s.suspended ∨ ∃ ph, s.worker.phase = some (call, ph) ∧
    (ph = .resuming ∨ ∃ w, ph = .acking w)

end Sys

/-- The phases of a request that is not answered. -/
def Phase.opens : Phase → Bool
  | .preparing | .posting | .asking .first => true
  | _ => false

/-- The worker has posted its nudge. -/
def Pc.nudged : Pc → Bool
  | .wait .first | .block .first | .parked .first => true
  | _ => false

/-! ## The invariants -/

/-- An invocation that waits for the worker. -/
structure Waits (engine : Engine) (s : Sys) (t : Task) (next : Next) : Prop where
  goes : next ≠ .leave
  known : t.pick.chan < s.backends
  shown : (s.state s.newest).answer = true → t.pick.chan = s.newest
  attached : ∀ c, s.bridge.ctrl = some c → c = t.pick.chan ∨ (s.state c).endsAwait = true
  blocks : ∀ cur next, t.pc = .awaitBlock cur next → cur.endsAwait = false
  parked : ∀ c cur next, t.pc = .parked c cur next → engine.waitAsync = true ∧ c = t.pick.chan ∧
    s.state c = cur ∧ cur.endsAwait = false
  cleared : ∀ call ph, s.worker.phase = some (call, ph) → ph.opens = true →
    engine.waitAsync = true → t.pick.chan = s.newest ∨ s.state t.pick.chan = .idle

/-- What is on its way to the bridge. -/
structure Pending (s : Sys) : Prop where
  /-- Older channels are announced late only when they were never used. -/
  older : ∀ p ∈ s.onWay, p.1 ≠ s.newest → s.state p.1 = .idle
  /-- A channel that was answered is attached. -/
  fresh : s.state s.newest ≠ .idle → s.state s.newest ≠ .reqReady → ¬ s.Requesting s.newest →
    s.bridge.ctrl = some s.newest ∧ s.bridge.data = (s.backend s.newest).data

/-- The acks that are due, and those that are up. -/
structure Attending (s : Sys) : Prop where
  kept : ∀ call, s.Keeps call → call.chan = s.newest → s.Current call →
    ¬ s.Requesting s.newest → s.Attended
  acked : ∀ call w, s.worker.phase = some (call, .asking w) → w ≠ .first →
    s.state s.newest = .chunkAck → ∃ t, s.live = [t] ∧ t.stage ≠ .leaving

/-- A request that is up is going to be seen. -/
def Nudged (s : Sys) : Prop :=
  ∀ call pc, s.worker = .run call pc → pc.nudged = true → s.state s.newest = .reqReady →
    (∃ q q', s.queue = q ++ .rpc :: q' ∧ attachedBy s.bridge.ctrl q = some s.newest) ∨
      s.bridge.ctrl = some s.newest ∧ (s.current ≠ .idle ∨ s.live ≠ [])

/-- The meta blocks that were stored fit their length words. -/
def Legibly (s : Sys) : Prop :=
  ∀ d t e, s.writer (.data d) = some t → t.pc = .window e → (metaBytes e.info).length < 2 ^ 32

/-- What the two threads wait for. -/
structure Waiting (engine : Engine) (s : Sys) : Prop where
  awaits : ∀ t ∈ s.live, ∀ next, t.stage = .awaiting next → Waits engine s t next
  pending : Pending s
  attending : Attending s
  nudged : Nudged s
  legibly : Legibly s

/-! ## What the worker stirs -/

theorem SabState.of_mainTurn {st : SabState} (h : st.mainTurn = true) :
    st.endsAwait = true ∧ st.answer = false := by
  cases st <;> first
    | exact ⟨rfl, rfl⟩
    | cases h

/-- What a step of the worker's does to the STATE words and the sleepers. -/
inductive Stirs (s s' : Sys) : Prop where
  | still (hst : ∀ c, s'.state c = s.state c) (hl : s'.live = s.live)
  | store {c : Nat} {st : SabState} (hst : ∀ c', s'.state c' = if c' = c then st else s.state c')
      (hl : s'.live = s.live.map (Task.wake c))
      (hc : st = .idle ∨ st.mainTurn = true ∧ c = s.newest)

namespace Stirs

variable {s s' : Sys} (h : Stirs s s')

include h in
theorem cases (c : Nat) : s'.state c = s.state c ∨ s'.state c = .idle ∨
    c = s.newest ∧ (s'.state c).mainTurn = true := by
  cases h with
  | still hst _ => exact .inl (hst c)
  | @store c0 st hst _ hc =>
      by_cases heq : c = c0
      · subst heq
        rw [hst, if_pos rfl]
        rcases hc with rfl | ⟨hm, rfl⟩
        · exact .inr (.inl rfl)
        · exact .inr (.inr ⟨rfl, hm⟩)
      · rw [hst, if_neg heq]
        exact .inl rfl

include h in
theorem answer {c : Nat} (ha : (s'.state c).answer = true) : s'.state c = s.state c := by
  rcases h.cases c with heq | hi | ⟨-, hm⟩
  · exact heq
  · rw [hi] at ha
    cases ha
  · rw [(SabState.of_mainTurn hm).2] at ha
    cases ha

include h in
theorem endsAwait {c : Nat} (ha : (s.state c).endsAwait = true) : (s'.state c).endsAwait = true := by
  rcases h.cases c with heq | hi | ⟨-, hm⟩
  · rw [heq]
    exact ha
  · rw [hi]
    rfl
  · exact (SabState.of_mainTurn hm).1

include h in
/-- An invocation stays where it was, unless the STATE on which it sleeps is stored. -/
theorem mem {t' : Task} (ht : t' ∈ s'.live) : ∃ t ∈ s.live, t'.pick = t.pick ∧ t'.stage = t.stage ∧
    (t' = t ∨ ∃ next, t'.pc = .woken next) ∧
      ∀ c cur next, t'.pc = .parked c cur next → s'.state c = s.state c := by
  cases h with
  | still hst hl => exact ⟨t', hl ▸ ht, rfl, rfl, .inl rfl, fun c _ _ _ ↦ hst c⟩
  | @store c0 st hst hl _ =>
      rw [hl] at ht
      obtain ⟨t, ht0, rfl⟩ := List.mem_map.mp ht
      refine ⟨t, ht0, Task.pick_wake .., Task.stage_wake .., ?_, fun c cur next hpc ↦ ?_⟩
      · unfold Task.wake
        split
        · split
          · exact .inr ⟨_, rfl⟩
          · exact .inl rfl
        · exact .inl rfl
      · rw [hst, if_neg]
        rintro rfl
        unfold Task.wake at hpc
        split at hpc
        · rename_i hpc0
          split at hpc
          · cases hpc
          · rename_i hne
            rw [hpc0] at hpc
            cases hpc
            exact hne rfl
        · rename_i hno
          exact hno _ _ _ hpc

include h in
theorem live {t : Task} (hl : s.live = [t]) : ∃ t', s'.live = [t'] ∧ t'.stage = t.stage := by
  cases h with
  | still _ hl' => exact ⟨t, hl'.trans hl, rfl⟩
  | @store c _ _ hl' _ =>
      refine ⟨t.wake c, ?_, Task.stage_wake ..⟩
      rw [hl', hl]
      rfl

include h in
theorem attended (ha : s.Attended) : s'.Attended := by
  obtain ⟨t, next, hl, hst⟩ := ha
  obtain ⟨t', hl', hst'⟩ := h.live hl
  exact ⟨t', next, hl', hst'.trans hst⟩

end Stirs

theorem Shape.stirs {s s' : Sys} (hs : Shape s) (c : Nat) (st : SabState)
    (hst : ∀ c', s'.state c' = (s.storeByWorker c st).state c')
    (hl : s'.live = (s.storeByWorker c st).live)
    (hc : st = .idle ∨ st.mainTurn = true ∧ c = s.newest) : Stirs s s' :=
  .store (fun c' ↦ (hst c').trans (Sys.state_storeByWorker s c c' st))
    (hl.trans (hs.live_storeByWorker c st)) hc

theorem CallMove.stirs {s s' : Sys} {call : Call} {pc : Pc} (hm : CallMove s call pc s')
    (hw : s.worker = .run call pc) (hs : Shape s) (hn : OnlyNewest s) : Stirs s s' := by
  have chan : pc.phase.retires = false → call.chan = s.newest :=
    hn.chan (by rw [hw]; rfl)
  cases hm with
  | @grow capacity _ => exact .still (state_attachData s call.chan capacity) rfl
  | @marshal r _ => exact .still (state_marshalled s call r) rfl
  | @storeLength off =>
      exact .still (fun c ↦ Sys.state_setCtrl s call.chan c
        (fun ctrl ↦ { ctrl with length := toInt32 off }) fun _ ↦ rfl) rfl
  | storeSeq =>
      exact .still (fun c ↦ Sys.state_setCtrl s call.chan c (fun ctrl ↦ { ctrl with seq := 0 })
        fun _ ↦ rfl) rfl
  | storeReady => exact hs.stirs call.chan .reqReady (fun _ ↦ rfl) rfl (.inr ⟨rfl, chan rfl⟩)
  | ackWindow => exact hs.stirs call.chan .chunkAck (fun _ ↦ rfl) rfl (.inr ⟨rfl, chan rfl⟩)
  | ackChunk => exact hs.stirs call.chan .chunkAck (fun _ ↦ rfl) rfl (.inr ⟨rfl, chan rfl⟩)
  | resetStore => exact hs.stirs call.chan .idle (fun _ ↦ rfl) rfl (.inl rfl)
  | _ => exact .still (fun _ ↦ rfl) rfl

theorem WorkerMove.stirs {s s' : Sys} {a : Action} (hm : WorkerMove s a s') (hs : Shape s)
    (hn : OnlyNewest s) : Stirs s s' := by
  cases hm with
  | @construct capacity _ _ =>
      exact .still (state_attachData { s with backends := s.backends + 1 } s.backends capacity) rfl
  | @start c req pc _ _ _ _ =>
      exact .still (fun c' ↦ Sys.state_setGen s c c' _) rfl
  | call _ hw hm => exact hm.stirs hw hs hn
  | @closingStore call _ => exact hs.stirs call.chan .idle (fun _ ↦ rfl) rfl (.inl rfl)
  | _ => exact .still (fun _ ↦ rfl) rfl

theorem WorkerMove.bridge {s s' : Sys} {a : Action} (hm : WorkerMove s a s') :
    s'.bridge = s.bridge ∧ s'.current = s.current := by
  cases hm with
  | call _ _ hm => cases hm <;> exact ⟨rfl, rfl⟩
  | _ => exact ⟨rfl, rfl⟩

theorem WorkerMove.backends {s s' : Sys} {a : Action} (hm : WorkerMove s a s') :
    s'.backends = s.backends ∨
      s'.backends = s.backends + 1 ∧ s.worker.phase = none ∧ s'.worker.phase = none := by
  cases hm with
  | construct _ hw => exact .inr ⟨rfl, by rw [hw]; rfl, rfl⟩
  | call _ _ hm => cases hm <;> exact .inl rfl
  | _ => exact .inl rfl

/-- A request that is not answered is one that was not, or one that is started. -/
theorem CallMove.opens {s s' : Sys} {call : Call} {pc : Pc} (hm : CallMove s call pc s')
    {call' : Call} {ph : Phase} (hw' : s'.worker.phase = some (call', ph))
    (ho : ph.opens = true) : pc.phase.opens = true := by
  cases hm with
  | @answered w _ =>
      rcases afterWait_phase call w (s.state call.chan) (s.region call.chan) with hph | ⟨o, hph⟩ <;>
        rw [Sys.goto, Worker.phase_run, hph] at hw' <;> cases hw' <;> cases ho
  | @loadStatus chunk _ _ => cases chunk <;> cases hw' <;> cases ho
  | _ => cases hw' <;> first
    | rfl
    | exact ho

theorem WorkerMove.opens {s s' : Sys} {a : Action} (hm : WorkerMove s a s') {call' : Call}
    {ph : Phase} (hw' : s'.worker.phase = some (call', ph)) (ho : ph.opens = true) :
    (∃ call0 ph0, s.worker.phase = some (call0, ph0) ∧ ph0.opens = true) ∨
      ∃ c req, a = .start c req := by
  cases hm with
  | @start c req _ _ _ _ _ => exact .inr ⟨c, req, rfl⟩
  | @call call pc _ _ hw hm =>
      exact .inl ⟨call, pc.phase, by rw [hw]; rfl, hm.opens hw' ho⟩
  | construct _ _ | attached _ _ | expireFirst _ _ _ => cases hw'
  | resume _ _ _ | expire _ _ _ =>
      cases hw'
      cases ho
  | close _ _ _ | closingCurrent _ _ | closingStale _ _ | closingStore _ =>
      exact .inl ⟨call', ph, hw', ho⟩

/-! ## The invocations that wait -/

/-- An RPC starts while no invocation waits on an older channel that shows something.  Where
there is no `waitAsync`, an invocation looks at the channel that is attached, and waits on none. -/
def Sys.Cleared (engine : Engine) (s : Sys) : Action → Prop
  | .start c _ => engine.waitAsync = true → ∀ t ∈ s.live,
      (∀ next, t.stage ≠ .awaiting next) ∨ t.pick.chan = c ∨ s.state t.pick.chan = .idle
  | _ => True

section
variable {engine : Engine} {s s' : Sys}

/-- What an invocation waits for is there after a step of the worker's. -/
theorem Waits.stirred {t t' : Task} {next : Next} (h : Waits engine s t next) (hs : Stirs s s')
    (hb : s.backends ≤ s'.backends) (hbr : s'.bridge = s.bridge) (hp : t'.pick = t.pick)
    (ht : t' = t ∨ ∃ next, t'.pc = .woken next)
    (hst : ∀ c cur next, t'.pc = .parked c cur next → s'.state c = s.state c)
    (hshown : (s'.state s'.newest).answer = true → t.pick.chan = s'.newest)
    (hcleared : ∀ call ph, s'.worker.phase = some (call, ph) → ph.opens = true →
      engine.waitAsync = true → t.pick.chan = s'.newest ∨ s'.state t.pick.chan = .idle) :
    Waits engine s' t' next := by
  refine ⟨h.goes, hp ▸ h.known.trans_le hb, hp ▸ hshown, fun c hc ↦ ?_, fun cur next' hpc ↦ ?_,
    fun c cur next' hpc ↦ ?_, hp ▸ hcleared⟩
  · rw [hbr] at hc
    rw [hp]
    exact (h.attached c hc).imp_right hs.endsAwait
  · rcases ht with rfl | ⟨next, hw⟩
    · exact h.blocks cur next' hpc
    · rw [hw] at hpc
      cases hpc
  · rcases ht with rfl | ⟨next, hw⟩
    · obtain ⟨ha, hc, hcur, he⟩ := h.parked c cur next' hpc
      exact ⟨ha, hc, (hst c cur next' hpc).trans hcur, he⟩
    · rw [hw] at hpc
      cases hpc

theorem WorkerMove.awaits {a : Action} (hm : WorkerMove s a s') (ha : s.Cleared engine a)
    (hon : s.OnNewest a) (hs : Shape s) (hn : OnlyNewest s) (he : Exchange s s.newest)
    (h : ∀ t ∈ s.live, ∀ next, t.stage = .awaiting next → Waits engine s t next) :
    ∀ t ∈ s'.live, ∀ next, t.stage = .awaiting next → Waits engine s' t next := by
  intro t' ht' next hst'
  have hstirs := hm.stirs hs hn
  obtain ⟨t, ht, hp, hst, hpc, hsame⟩ := hstirs.mem ht'
  have hw := h t ht next (hst ▸ hst')
  have hle : s.backends ≤ s'.backends := by
    rcases hm.backends with hb | ⟨hb, -, -⟩ <;> omega
  refine hw.stirred hstirs hle hm.bridge.1 hp hpc hsame (fun hans ↦ ?_) fun call ph hph ho hasync ↦ ?_
  · rw [hstirs.answer hans] at hans
    rcases hm.backends with hb | ⟨hb, -, -⟩
    · rw [Sys.newest, hb] at hans ⊢
      exact hw.shown hans
    · -- a new channel shows nothing
      rw [he.unused s'.newest (by rw [Sys.newest]; omega)] at hans
      cases hans
  · rcases hm.backends with hb | ⟨-, -, hnone⟩
    swap
    · rw [hnone] at hph
      cases hph
    have hnew : s'.newest = s.newest := by rw [Sys.newest, Sys.newest, hb]
    have hbefore : t.pick.chan = s.newest ∨ s.state t.pick.chan = .idle := by
      rcases hm.opens hph ho with ⟨call0, ph0, hph0, ho0⟩ | ⟨c, req, rfl⟩
      · exact hw.cleared call0 ph0 hph0 ho0 hasync
      · have hc : c + 1 = s.backends := hon
        refine ((ha hasync t ht).resolve_left fun hne ↦ hne next (hst ▸ hst')).imp_left fun heq ↦ ?_
        rw [heq, Sys.newest]
        omega
    rw [hnew]
    rcases hbefore with heq | hidle
    · exact .inl heq
    · rcases hstirs.cases t.pick.chan with heq | hi | ⟨heq, -⟩
      · exact .inr (heq.trans hidle)
      · exact .inr hi
      · exact .inl heq

/-! ## The announcements -/

/-- Behind an answer nothing is announced. -/
theorem Announced.onWay_eq_nil (h : Announced s) (hlt : s.newest < s.backends)
    (hf : s.bridge.ctrl = some s.newest ∧ s.bridge.data = (s.backend s.newest).data) :
    s.onWay = [] := by
  have hsil := h.silent_of_fresh (Sys.newest_add_one hlt) hf.1 hf.2
  change (s.bridge.ctrl.map fun c ↦ (c, s.bridge.data)).toList ++ s.onWay = _ at hsil
  rw [hf.1] at hsil
  exact (List.cons.inj hsil).2

/-- A step of the worker's that leaves a channel attached once it is answered. -/
theorem Pending.stirred (h : Pending s) (hs : Stirs s s') (hb : s'.backends = s.backends)
    (hbr : s'.bridge = s.bridge) (hway : ∀ p ∈ s'.onWay, p.1 ≠ s.newest → p ∈ s.onWay)
    (hfresh : s'.state s.newest ≠ .idle → s'.state s.newest ≠ .reqReady →
      ¬ s'.Requesting s.newest → s.state s.newest ≠ .idle ∧ s.state s.newest ≠ .reqReady ∧
        ¬ s.Requesting s.newest ∧ (s'.backend s.newest).data = (s.backend s.newest).data) :
    Pending s' := by
  have hnew : s'.newest = s.newest := by rw [Sys.newest, Sys.newest, hb]
  constructor
  · intro p hp hne
    rw [hnew] at hne
    rcases hs.cases p.1 with heq | hi | ⟨heq, -⟩
    · rw [heq]
      exact h.older p (hway p hp hne) hne
    · exact hi
    · exact absurd heq hne
  · rw [hnew, hbr]
    intro hi hr hn
    obtain ⟨hi, hr, hn, hd⟩ := hfresh hi hr hn
    rw [hd]
    exact h.fresh hi hr hn

theorem CallMove.pending {call : Call} {pc : Pc} (hm : CallMove s call pc s')
    (hw : s.worker = .run call pc) (hs : Shape s) (hl : Ledger s) (hn : OnlyNewest s)
    (ha : Announced s) (he : Exchange s s.newest) (h : Pending s) : Pending s' := by
  have hphase : s.worker.phase = some (call, pc.phase) := by rw [hw]; rfl
  have hstirs := hm.stirs hw hs hn
  have chan : pc.phase.retires = false → call.chan = s.newest := hn.chan hphase
  -- the request is still being written
  have requesting : s'.backends = s.backends → s'.bridge = s.bridge →
      (∀ p ∈ s'.onWay, p.1 ≠ s.newest → p ∈ s.onWay) → s'.Requesting s.newest → Pending s' :=
    fun hb hbr hway hr ↦ h.stirred hstirs hb hbr hway fun _ _ hn ↦ absurd hr hn
  -- the call goes on by itself
  have still : s'.backends = s.backends → s'.bridge = s.bridge → s'.onWay = s.onWay →
      pc.phase.requests = false → s'.state s.newest = s.state s.newest →
      (s'.backend s.newest).data = (s.backend s.newest).data → Pending s' := by
    intro hb hbr hway hph hst hd
    refine h.stirred hstirs hb hbr (fun p hp _ ↦ hway ▸ hp) fun hi hr _ ↦ ⟨hst ▸ hi, hst ▸ hr, ?_, hd⟩
    rw [Sys.requesting_iff hphase, hph]
    simp
  have way : ∀ {pc' : Pc}, s'.worker = .run call pc' → s'.queue = s.queue →
      (Worker.run call pc').announcing = (Worker.run call pc).announcing → s'.onWay = s.onWay := by
    intro pc' hw' hq han
    rw [Sys.onWay, Sys.onWay, hq, hw', hw, han]
  cases hm with
  | @grow capacity _ =>
      refine requesting rfl rfl (fun p hp hne ↦ ?_) ⟨call, _, rfl, chan rfl, rfl⟩
      rcases List.mem_append.mp hp with hp | hp
      · exact List.mem_append_left _ hp
      · cases List.mem_singleton.mp hp
        exact absurd (chan rfl) hne
  | @announce d =>
      refine requesting rfl rfl (fun p hp hne ↦ ?_) ⟨call, _, rfl, chan rfl, rfl⟩
      have hway : Sys.onWay ((s.post (.sab call.chan d)).goto call .marshal) = s.onWay := by
        simp [Sys.onWay, Sys.post, Sys.goto, Worker.announcing, hw, Message.announcement]
      exact hway ▸ hp
  | marshal _ =>
      exact requesting rfl rfl (fun p hp _ ↦ way rfl rfl rfl ▸ hp) ⟨call, _, rfl, chan rfl, rfl⟩
  | unfit hr =>
      obtain ⟨r', hr', -⟩ := writeRequest_of_fits (ha.fits call _ hw (.inl rfl))
      cases hr.symm.trans hr'
  | storeLength | storeSeq =>
      exact requesting rfl rfl (fun p hp _ ↦ way rfl rfl rfl ▸ hp) ⟨call, _, rfl, chan rfl, rfl⟩
  | storeReady =>
      refine h.stirred hstirs rfl rfl (fun p hp _ ↦ way rfl rfl rfl ▸ hp) fun _ hr _ ↦ absurd ?_ hr
      exact (Sys.state_storeByWorker s call.chan s.newest .reqReady).trans (if_pos (chan rfl).symm)
  | nudge =>
      refine still rfl rfl ?_ rfl rfl rfl
      simp [Sys.onWay, Sys.post, Sys.goto, Worker.announcing, hw, Message.announcement]
  | ackWindow | ackChunk =>
      -- the chunk that is acked is still shown
      refine h.stirred hstirs rfl rfl (fun p hp _ ↦ way rfl rfl rfl ▸ hp) fun _ _ _ ↦ ?_
      have hshown := he.holding call (.inr ⟨_, hphase, rfl⟩) (chan rfl) (hl.running call _ hphase)
      rw [hshown]
      refine ⟨by simp, by simp, ?_, Sys.data_storeByWorker ..⟩
      rw [Sys.requesting_iff hphase]
      rintro ⟨-, hr⟩
      cases hr
  | @resetStore o =>
      have hstate := Sys.state_storeByWorker s call.chan s.newest .idle
      by_cases heq : s.newest = call.chan
      · refine h.stirred hstirs rfl rfl (fun p hp _ ↦ ?_) fun hi _ _ ↦ ?_
        · rw [Sys.onWay, hw]
          exact hp
        · exact absurd (hstate.trans (if_pos heq)) hi
      · refine still rfl rfl ?_ rfl (hstate.trans (if_neg heq)) (Sys.data_storeByWorker ..)
        rw [Sys.onWay, Sys.onWay, hw]
        rfl
  | @answered w _ =>
      refine still rfl rfl ?_ rfl rfl rfl
      rw [Sys.onWay, Sys.onWay, hw]
      have := afterWait_not_preparing call w (s.state call.chan) (s.region call.chan)
      congr 2
      unfold Worker.announcing
      split
      · rename_i hrun
        cases hrun
      · rename_i d hrun
        exact absurd (Worker.run.inj hrun).2 (this.2 d)
      · rfl
  | @loadStatus chunk _ _ =>
      refine still rfl rfl ?_ rfl rfl rfl
      rw [Sys.onWay, Sys.onWay, hw]
      cases chunk <;> rfl
  | _ =>
      refine still rfl rfl ?_ rfl rfl rfl
      rw [Sys.onWay, Sys.onWay, hw]
      rfl

theorem WorkerMove.pending {a : Action} (hm : WorkerMove s a s') (hon : s.OnNewest a)
    (hs : Shape s) (hl : Ledger s) (hn : OnlyNewest s) (ha : Announced s)
    (he : Exchange s s.newest) (hq : s.worker.phase = none → s.Quiet) (h : Pending s) :
    Pending s' := by
  have hstirs := hm.stirs hs hn
  -- the worker stores no STATE, and is not writing a request
  have still : ¬ s.Requesting s.newest → s'.backends = s.backends → s'.bridge = s.bridge →
      s'.onWay = s.onWay → s'.state s.newest = s.state s.newest →
      (s'.backend s.newest).data = (s.backend s.newest).data → Pending s' := fun hnr hb hbr hway hst hd ↦
    h.stirred hstirs hb hbr (fun p hp _ ↦ hway ▸ hp) fun hi hr _ ↦ ⟨hst ▸ hi, hst ▸ hr, hnr, hd⟩
  -- a generator is being closed
  have closing : s'.backends = s.backends → s'.bridge = s.bridge → s'.onWay = s.onWay →
      s'.worker = s.worker → (s'.state s.newest ≠ .idle → s'.state s.newest = s.state s.newest) →
      (s'.backend s.newest).data = (s.backend s.newest).data → Pending s' := by
    intro hb hbr hway hw hst hd
    refine h.stirred hstirs hb hbr (fun p hp _ ↦ hway ▸ hp) fun hi hr hnr ↦ ?_
    have := hst hi
    rw [Sys.Requesting, hw] at hnr
    exact ⟨this ▸ hi, this ▸ hr, hnr, hd⟩
  cases hm with
  | @construct capacity hc hw =>
      have hquiet := hq (by rw [hw]; rfl)
      have hstate := state_attachData { s with backends := s.backends + 1 } s.backends capacity
      constructor
      · intro p hp hne
        refine (hstate p.1).trans ?_
        have hp : p ∈ s.onWay := by
          rcases List.mem_append.mp hp with hp | hp
          · exact List.mem_append_left _ hp
          · cases List.mem_singleton.mp hp
            exact absurd rfl hne
        by_cases heq : p.1 = s.newest
        · by_contra hi
          change s.state p.1 ≠ .idle at hi
          rw [heq] at hi
          have hlt : s.newest < s.backends := by
            have := (ha.below p (List.mem_append_right _ hp)).1
            omega
          have hf := h.fresh hi (SabState.ne_of_not_mainTurn (hquiet.states _)).1
            (Sys.not_requesting (by rw [hw]; rfl))
          rw [ha.onWay_eq_nil hlt hf] at hp
          cases hp
        · exact h.older p hp heq
      · intro hi
        refine absurd ((hstate _).trans ?_) hi
        exact he.unused s.backends le_rfl
  | @attached c d hc hw =>
      refine still (Sys.not_requesting (by rw [hw]; rfl)) rfl rfl ?_ rfl rfl
      simp [Sys.onWay, Sys.post, Worker.announcing, hw, Message.announcement]
  | @start c req pc hc hw hlt hpc =>
      have hc : c = s.newest := by
        have : c + 1 = s.backends := hon
        rw [Sys.newest]
        omega
      have hph : pc.phase = .preparing := by
        rw [hpc]
        split <;> rfl
      refine h.stirred hstirs rfl rfl (fun p hp _ ↦ ?_) fun _ _ hnr ↦ absurd ⟨_, _, rfl, hc, ?_⟩ hnr
      · have : Sys.onWay ((s.setBackend c fun b ↦ { b with gen := (s.backend c).gen + 1 }).goto
            { chan := c, gen := (s.backend c).gen + 1, request := req } pc) = s.onWay := by
          rw [Sys.onWay, Sys.onWay, hw, hpc]
          split <;> rfl
        exact this ▸ hp
      · rw [hph]
        rfl
  | resume hc hw hi =>
      refine still (Sys.not_requesting (by rw [hw]; rfl)) rfl rfl ?_ rfl rfl
      rw [Sys.onWay, Sys.onWay, hw]
      rfl
  | call hc hw hm => exact hm.pending hw hs hl hn ha he h
  | expireFirst hw _ _ | expire hw _ _ =>
      refine still ?_ rfl rfl ?_ rfl rfl
      · rw [Sys.requesting_iff (by rw [hw]; rfl)]
        rintro ⟨-, hr⟩
        cases hr
      · rw [Sys.onWay, Sys.onWay, hw]
        rfl
  | close _ _ _ | closingCurrent _ _ | closingStale _ _ =>
      exact closing rfl rfl rfl rfl (fun _ ↦ rfl) rfl
  | @closingStore call hc =>
      exact closing rfl rfl rfl rfl (Sys.state_storeByWorker_idle s call.chan s.newest)
        (Sys.data_storeByWorker ..)

/-! ## The acks -/

/-- The worker asks for more windows only when the bridge has announced them. -/
theorem more_of_takeWindow {call call' : Call} {d : Region} {length : Int}
    {metaBase : List (String × Json)} {more : Bool} (hm : readMeta d = some (windowMeta metaBase more))
    (h : takeWindow call d length = .more call') : more = true := by
  have hread : readWindow d length = some (windowMeta metaBase more,
      d.slice (4 + d.getU32 0 : Nat) length) := by rw [readWindow, hm, Option.map_some]
  rw [takeWindow_of_read hread] at h
  cases more with
  | true => rfl
  | false => cases h

/-- A window that more follows, or that is a chunk, has an invocation behind it. -/
theorem Sys.Answer.attended {call : Call} {p : Pick} {off : Nat} {next : Next} {c : Nat}
    (h : s.Answer c call p off next) (hst : s.state c = .respChunk)
    (hlegible : Legibly s) {call' : Call}
    (ht : takeWindow call (s.region c) (s.backend c).ctrl.length = .more call' ∨
      call.request.kind = .serverStream) : s.Attended := by
  obtain ⟨hp, -, -, hshows, -, hfollows⟩ := h
  rw [hst] at hshows
  obtain ⟨t, e, hwt, -, -, hpc, hkind, rfl, -, hholds, -⟩ := hshows
  have hmeta := readMeta_of_holds hholds (hlegible _ t e hwt hpc)
  -- what the bridge does next is not to leave
  have hnext : e.next ≠ .leave := by
    rcases ht with ht | hk
    · have : e.more = true := more_of_takeWindow hmeta.1 ht
      rw [Emission.next, if_pos this]
      simp
    · have hs : e.streaming = true := by
        rw [Pick.kind, hp, Option.map_some, Option.some.injEq, hk, Emission.kind] at hkind
        split at hkind
        · assumption
        · cases hkind
      unfold Emission.next
      rw [if_pos hs]
      split <;> simp
  cases hn : e.next with
  | leave => exact absurd hn hnext
  | window _ | read _ =>
      rw [hn] at hfollows
      obtain ⟨t, hl, -, hst⟩ := hfollows
      exact ⟨t, _, hl, hst⟩

/-- A step of the worker's that neither takes a chunk nor acks one. -/
theorem Attending.stirred (h : Attending s) (hs : Stirs s s') (hb : s'.backends = s.backends)
    (hposted : s'.posted = s.posted) (hkeep : ∀ call, s'.Keeps call → s.Keeps call)
    (hreq : s.Requesting s.newest → s'.Requesting s.newest)
    (hack : ∀ call w, s'.worker.phase = some (call, .asking w) → w ≠ .first →
      s'.state s.newest = .chunkAck →
        s.worker.phase = some (call, .asking w) ∧ s.state s.newest = .chunkAck) :
    Attending s' := by
  have hnew : s'.newest = s.newest := by rw [Sys.newest, Sys.newest, hb]
  constructor
  · intro call hk hc hcur hn
    rw [hnew] at hc hn
    rw [Sys.Current, hposted] at hcur
    exact hs.attended (h.kept call (hkeep call hk) hc hcur fun hr ↦ hn (hreq hr))
  · intro call w hph hw hst
    rw [hnew] at hst
    obtain ⟨hph, hst⟩ := hack call w hph hw hst
    obtain ⟨t, hl, hne⟩ := h.acked call w hph hw hst
    obtain ⟨t', hl', hst'⟩ := hs.live hl
    exact ⟨t', hl', hst' ▸ hne⟩

theorem CallMove.attending {call : Call} {pc : Pc} (hm : CallMove s call pc s')
    (hw : s.worker = .run call pc) (hs : Shape s) (hl : Ledger s) (hn : OnlyNewest s)
    (ha : Announced s) (he : Exchange s s.newest) (hlegible : Legibly s) (h : Attending s) :
    Attending s' := by
  have hphase : s.worker.phase = some (call, pc.phase) := by rw [hw]; rfl
  have hstirs := hm.stirs hw hs hn
  have chan : pc.phase.retires = false → call.chan = s.newest := hn.chan hphase
  have quiet : pc.phase.requests = false → ¬ s.Requesting s.newest := by
    intro hr
    rw [Sys.requesting_iff hphase, hr]
    simp
  -- a request is being written
  have requesting : s'.backends = s.backends → (∃ call' ph, s'.worker.phase = some (call', ph) ∧
      call'.chan = s.newest ∧ ph.requests = true) → Attending s' := by
    rintro hb hr
    have hnew : s'.newest = s.newest := by rw [Sys.newest, Sys.newest, hb]
    refine ⟨fun _ _ _ _ hnr ↦ absurd (hnew ▸ hr) hnr, fun call' w hph ↦ ?_⟩
    obtain ⟨call0, ph, hph0, -, hreq⟩ := hr
    rw [hph0] at hph
    cases hph
    cases hreq
  -- the call goes on, neither with a chunk nor with an ack
  have goes : s'.backends = s.backends → s'.posted = s.posted → s'.suspended = s.suspended →
      pc.phase.requests = false → (∀ call' w, s'.worker.phase = some (call', .asking w) → w ≠ .first →
        s.worker.phase = some (call', .asking w) ∧ s'.state s.newest = s.state s.newest) →
      (∀ call' ph, s'.worker.phase = some (call', ph) → (ph = .resuming ∨ ∃ w, ph = .acking w) →
        s.Keeps call') → Attending s' := by
    intro hb hposted hsus hr hack hkeep
    refine h.stirred hstirs hb hposted ?_ (fun hr' ↦ absurd hr' (quiet hr)) ?_
    · rintro call' (hm' | ⟨ph, hph, hk⟩)
      · exact .inl (hsus ▸ hm')
      · exact hkeep call' ph hph hk
    · intro call' w hph hne hst
      obtain ⟨hph0, heq⟩ := hack call' w hph hne
      exact ⟨hph0, heq ▸ hst⟩
  -- what a call takes out of the channel is its answer
  have attended : ∀ (call' : Call), pc.phase = .reading → s'.backends = s.backends →
      (takeWindow call (s.region call.chan) (s.backend call.chan).ctrl.length = .more call' ∨
        call.request.kind = .serverStream) → s.Attended := by
    intro call' hph hb ht
    rw [hph] at hphase
    have hc := hn.chan hphase rfl
    have hcur := hl.running call _ hphase
    have hshown := he.holding call (.inr ⟨_, hphase, rfl⟩) hc hcur
    obtain ⟨p, off, next, hans⟩ := he.answered call _ hphase hc rfl (by rw [hshown]; rfl)
    exact hans.attended hshown hlegible (hc ▸ ht)
  cases hm with
  | grow _ | announce | marshal _ | storeLength | storeSeq =>
      exact requesting rfl ⟨call, _, rfl, chan rfl, rfl⟩
  | unfit hr =>
      obtain ⟨r', hr', -⟩ := writeRequest_of_fits (ha.fits call _ hw (.inl rfl))
      cases hr.symm.trans hr'
  | storeReady =>
      refine ⟨?_, fun call' w hph hne ↦ ?_⟩
      · -- no other call of the channel is the current one
        rintro call0 (hm0 | ⟨ph, hph, hk⟩) hc hcur
        · exact absurd hcur (hl.not_current_suspended hphase (hl.running call _ hphase) hm0
            (hc.trans (chan rfl).symm))
        · cases hph
          rcases hk with hk | ⟨w, hk⟩ <;> cases hk
      · cases hph
        exact absurd rfl hne
  | ackWindow | ackChunk =>
      have hatt := h.kept call (.inr ⟨_, hphase, .inr ⟨_, rfl⟩⟩) (chan rfl)
        (hl.running call _ hphase) (quiet rfl)
      refine ⟨fun _ _ _ _ _ ↦ hstirs.attended hatt, fun _ _ _ _ _ ↦ ?_⟩
      obtain ⟨t, next, hl', hst⟩ := hstirs.attended hatt
      exact ⟨t, hl', by rw [hst]; simp⟩
  | more ht =>
      have hatt := attended _ rfl rfl (.inl ht)
      refine ⟨fun _ _ _ _ _ ↦ hstirs.attended hatt, fun _ _ hph ↦ ?_⟩
      cases hph
  | @yield call' hk ht =>
      have hk' : call.request.kind = .serverStream := (takeWindow_call (.inr ht)).2.2 ▸ hk
      have hatt := attended call' rfl rfl (.inr hk')
      refine ⟨fun _ _ _ _ _ ↦ hstirs.attended hatt, fun _ _ hph ↦ ?_⟩
      cases hph
  | current _ =>
      refine goes rfl rfl rfl rfl ?_ ?_
      · rintro call' w hph
        cases hph
      · rintro call' ph hph -
        cases hph
        exact .inr ⟨_, hphase, .inl rfl⟩
  | nudge =>
      refine goes rfl rfl rfl rfl ?_ ?_
      · rintro call' w hph hne
        cases hph
        exact absurd rfl hne
      · rintro call' ph hph (rfl | ⟨w, rfl⟩) <;> cases hph
  | due _ | park _ | notEqual _ =>
      refine goes rfl rfl rfl rfl ?_ ?_
      · rintro call' w hph -
        cases hph
        exact ⟨hphase, rfl⟩
      · rintro call' ph hph (rfl | ⟨w, rfl⟩) <;> cases hph
  | @answered w _ =>
      have hph := afterWait_phase call w (s.state call.chan) (s.region call.chan)
      refine goes rfl rfl rfl rfl ?_ ?_
      · rintro call' w' hph'
        rcases hph with hph | ⟨o, hph⟩ <;> rw [Sys.goto, Worker.phase_run, hph] at hph' <;> cases hph'
      · rintro call' ph' hph' (rfl | ⟨w', rfl⟩) <;> rcases hph with hph | ⟨o, hph⟩ <;>
          rw [Sys.goto, Worker.phase_run, hph] at hph' <;> cases hph'
  | @loadStatus chunk _ _ =>
      refine goes rfl rfl rfl rfl ?_ ?_
      · rintro call' w' hph'
        cases chunk <;> cases hph'
      · rintro call' ph' hph' (rfl | ⟨w', rfl⟩) <;> cases chunk <;> cases hph'
  | _ =>
      refine goes rfl rfl rfl rfl ?_ ?_
      · rintro call' w' hph'
        cases hph'
      · rintro call' ph' hph' (rfl | ⟨w', rfl⟩) <;> cases hph'

theorem WorkerMove.attending {a : Action} (hm : WorkerMove s a s') (hon : s.OnNewest a)
    (hs : Shape s) (hl : Ledger s) (hn : OnlyNewest s) (ha : Announced s)
    (he : Exchange s s.newest) (hlegible : Legibly s) (h : Attending s) : Attending s' := by
  have hstirs := hm.stirs hs hn
  -- the worker turns to or from its caller's code
  have turns : ¬ s.Requesting s.newest → s'.backends = s.backends → s'.posted = s.posted →
      (∀ call, s'.Keeps call → s.Keeps call) →
      (∀ call w, s'.worker.phase ≠ some (call, .asking w)) → Attending s' :=
    fun hnr hb hposted hkeep hph ↦ h.stirred hstirs hb hposted hkeep (fun hr ↦ absurd hr hnr)
      fun call w hph' ↦ absurd hph' (hph call w)
  -- a generator is being closed
  have closing : s'.backends = s.backends → s'.posted = s.posted → s'.worker = s.worker →
      (∀ call ∈ s'.suspended, call ∈ s.suspended) →
      (s'.state s.newest ≠ .idle → s'.state s.newest = s.state s.newest) → Attending s' := by
    intro hb hposted hw hsus hst
    refine h.stirred hstirs hb hposted (fun call hk ↦ ?_) (fun hr ↦ ?_) fun call w hph _ hack ↦ ?_
    · rw [Sys.Keeps, hw] at hk
      exact hk.imp_left (hsus call)
    · rwa [Sys.Requesting, hw]
    · rw [hw] at hph
      exact ⟨hph, hst (by rw [hack]; simp) ▸ hack⟩
  cases hm with
  | @construct capacity hc hw =>
      refine ⟨?_, fun call w hph ↦ by cases hph⟩
      rintro call (hm | ⟨ph, hph, -⟩) hchan
      · -- no call is on the new channel
        have := hl.chan_lt (Sys.mem_calls_of_suspended hm)
        have hchan : call.chan = s.backends := hchan
        omega
      · cases hph
  | attached hc hw =>
      refine turns (Sys.not_requesting (by rw [hw]; rfl)) rfl rfl ?_ (by simp)
      rintro call (hm | ⟨ph, hph, -⟩)
      · exact .inl hm
      · cases hph
  | @start c req pc hc hw hlt hpc =>
      have hc : c = s.newest := by
        have : c + 1 = s.backends := hon
        rw [Sys.newest]
        omega
      have hph : pc.phase = .preparing := by
        rw [hpc]
        split <;> rfl
      refine ⟨fun _ _ _ _ hnr ↦ absurd ⟨_, pc.phase, rfl, hc, by rw [hph]; rfl⟩ hnr,
        fun call w hph' ↦ ?_⟩
      rw [Sys.goto, Worker.phase_run, hph] at hph'
      cases hph'
  | resume hc hw hi =>
      refine turns (Sys.not_requesting (by rw [hw]; rfl)) rfl rfl ?_ fun _ _ h ↦ (by cases h)
      rintro call (hm | ⟨ph, hph, -⟩)
      · exact .inl (List.mem_of_mem_eraseIdx hm)
      · cases hph
        exact .inl (List.mem_of_getElem? hi)
  | call hc hw hm => exact hm.attending hw hs hl hn ha he hlegible h
  | expireFirst hw _ _ | expire hw _ _ =>
      refine turns ?_ rfl rfl ?_ fun _ _ h ↦ (by cases h)
      · rw [Sys.requesting_iff (by rw [hw]; rfl)]
        rintro ⟨-, hr⟩
        cases hr
      · rintro call (hm | ⟨ph, hph, hk⟩)
        · exact .inl hm
        · cases hph <;> rcases hk with hk | ⟨w, hk⟩ <;> cases hk
  | close _ _ _ =>
      exact closing rfl rfl rfl (fun _ hm ↦ List.mem_of_mem_eraseIdx hm) fun _ ↦ rfl
  | closingCurrent _ _ | closingStale _ _ => exact closing rfl rfl rfl (fun _ hm ↦ hm) fun _ ↦ rfl
  | @closingStore call hc =>
      exact closing rfl rfl rfl (fun _ hm ↦ hm) (Sys.state_storeByWorker_idle s call.chan s.newest)

/-! ## The nudge -/

theorem Pc.phase_of_nudged {pc : Pc} (h : pc.nudged = true) : pc.phase = .asking .first := by
  unfold Pc.nudged at h
  split at h <;> first
    | rfl
    | cases h

/-- Once the worker has nothing to announce, the queue ends with the newest channel. -/
theorem Announced.attachedBy_queue (h : Announced s) (hlt : s.newest < s.backends)
    (hw : s.worker.announcing = none) : attachedBy s.bridge.ctrl s.queue = some s.newest := by
  have hmap : s.bridge.ctrl.toList ++ (s.queue.filterMap Message.announcement).map Prod.fst =
      s.announcements.map Prod.fst := by
    rw [Sys.announcements, hw]
    cases s.bridge.ctrl <;> simp
  rw [attachedBy_eq, hmap, List.getLast?_map, h.latest s.newest (Sys.newest_add_one hlt)]
  rfl

/-- What was going to see a request still is. -/
theorem Nudged.stirred (h : Nudged s) (hs : Stirs s s') (hb : s'.backends = s.backends)
    (hbr : s'.bridge = s.bridge) (hcur : s'.current = s.current) (hq : s'.queue = s.queue)
    (hbefore : ∀ call pc, s'.worker = .run call pc → pc.nudged = true →
      s'.state s.newest = .reqReady →
        (∃ call0 pc0, s.worker = .run call0 pc0 ∧ pc0.nudged = true) ∧
          s.state s.newest = .reqReady) : Nudged s' := by
  have hnew : s'.newest = s.newest := by rw [Sys.newest, Sys.newest, hb]
  intro call pc hw hpc hst
  rw [hnew] at hst
  obtain ⟨⟨call0, pc0, hw0, hpc0⟩, hst0⟩ := hbefore call pc hw hpc hst
  rw [hnew, hbr, hcur, hq]
  refine (h call0 pc0 hw0 hpc0 hst0).imp_right fun hup ↦ ⟨hup.1, hup.2.imp_right fun hne ↦ ?_⟩
  cases hs with
  | still _ hl =>
      rw [hl]
      exact hne
  | store _ hl _ =>
      rw [hl, ne_eq, List.map_eq_nil_iff]
      exact hne

theorem CallMove.nudged {call : Call} {pc : Pc} (hm : CallMove s call pc s')
    (hw : s.worker = .run call pc) (hs : Shape s) (hn : OnlyNewest s) (ha : Announced s)
    (hlt : call.chan < s.backends) (h : Nudged s) : Nudged s' := by
  have hstirs := hm.stirs hw hs hn
  have ended : (∀ call' w, s'.worker.phase = some (call', .asking w) → w ≠ .first) → Nudged s' := by
    intro hne call' pc' hw' hpc
    refine absurd rfl (hne call' .first ?_)
    rw [hw', Worker.phase_run, Pc.phase_of_nudged hpc]
  -- the call goes on waiting
  have waits : ∀ {pc' : Pc}, s'.worker = .run call pc' → s'.backends = s.backends →
      s'.bridge = s.bridge → s'.current = s.current → s'.queue = s.queue →
      s'.state s.newest = s.state s.newest → (pc'.nudged = true → pc.nudged = true) →
      Nudged s' := by
    intro pc' hw' hb hbr hcur hq hst hpc
    refine h.stirred hstirs hb hbr hcur hq fun call0 pc0 hw0 hpc0 hst0 ↦ ?_
    rw [hw'] at hw0
    cases hw0
    exact ⟨⟨call, pc, hw, hpc hpc0⟩, hst ▸ hst0⟩
  cases hm with
  | nudge =>
      have hchan := hn.chan (by rw [hw]; rfl) rfl
      intro call' pc' hw' _ _
      exact .inl ⟨s.queue, [], rfl, ha.attachedBy_queue (hchan ▸ hlt) (by rw [hw]; rfl)⟩
  | storeReady =>
      intro call' pc' hw' hpc
      cases hw'
      cases hpc
  | @due w _ => exact waits rfl rfl rfl rfl rfl rfl (by cases w <;> exact id)
  | @park w _ => exact waits rfl rfl rfl rfl rfl rfl (by cases w <;> exact id)
  | @notEqual w _ => exact waits rfl rfl rfl rfl rfl rfl (by cases w <;> exact id)
  | ackWindow | ackChunk =>
      refine ended fun call' w hph ↦ ?_
      cases hph
      nofun
  | @answered w _ =>
      refine ended fun call' w' hph' ↦ ?_
      rcases afterWait_phase call w (s.state call.chan) (s.region call.chan) with hph | ⟨o, hph⟩ <;>
        rw [Sys.goto, Worker.phase_run, hph] at hph' <;> cases hph'
  | @loadStatus chunk _ _ =>
      refine ended fun call' w hph ↦ ?_
      cases chunk <;> cases hph
  | _ =>
      refine ended fun call' w hph ↦ ?_
      cases hph

theorem WorkerMove.nudged {a : Action} (hm : WorkerMove s a s') (hs : Shape s) (hl : Ledger s)
    (hn : OnlyNewest s) (ha : Announced s) (h : Nudged s) : Nudged s' := by
  have hstirs := hm.stirs hs hn
  have ended : (∀ call' w, s'.worker.phase ≠ some (call', .asking w)) → Nudged s' := by
    intro hne call' pc' hw' hpc
    refine absurd ?_ (hne call' .first)
    rw [hw', Worker.phase_run, Pc.phase_of_nudged hpc]
  have closing : s'.worker = s.worker → s'.backends = s.backends → s'.bridge = s.bridge →
      s'.current = s.current → s'.queue = s.queue →
      (s'.state s.newest ≠ .idle → s'.state s.newest = s.state s.newest) → Nudged s' := by
    intro hw hb hbr hcur hq hst
    refine h.stirred hstirs hb hbr hcur hq fun call pc hw' hpc hst' ↦ ?_
    exact ⟨⟨call, pc, hw ▸ hw', hpc⟩, hst (by rw [hst']; nofun) ▸ hst'⟩
  cases hm with
  | construct _ _ | attached _ _ | expireFirst _ _ _ => exact ended nofun
  | @start c req pc _ _ _ hpc =>
      refine ended fun call' w hph ↦ ?_
      have hprep : pc.phase = .preparing := by
        rw [hpc]
        split <;> rfl
      rw [Sys.goto, Worker.phase_run, hprep] at hph
      cases hph
  | resume _ _ _ | expire _ _ _ =>
      refine ended fun call' w hph ↦ ?_
      cases hph
  | @call call pc _ hc hw hm =>
      have hph : s.worker.phase = some (call, pc.phase) := by rw [hw]; rfl
      exact hm.nudged hw hs hn ha (hl.chan_lt (Sys.mem_calls_of_phase hph)) h
  | close _ _ _ | closingCurrent _ _ | closingStale _ _ =>
      exact closing rfl rfl rfl rfl rfl fun _ ↦ rfl
  | @closingStore call hc =>
      exact closing rfl rfl rfl rfl rfl (Sys.state_storeByWorker_idle s call.chan s.newest)

theorem WorkerMove.waiting {engine : Engine} {a : Action} (hm : WorkerMove s a s')
    (ha : s.Cleared engine a) (hon : s.OnNewest a) (hp : Paced s) (h : Waiting engine s) :
    Waiting engine s' where
  awaits := hm.awaits ha hon hp.sound.shape hp.sound.only hp.sound.exchange h.awaits
  pending := hm.pending hon hp.sound.shape hp.sound.ledger hp.sound.only hp.sound.announced
    hp.sound.exchange hp.lockstep.quiet_of_ready h.pending
  attending := hm.attending hon hp.sound.shape hp.sound.ledger hp.sound.only hp.sound.announced
    hp.sound.exchange h.legibly h.attending
  nudged := hm.nudged hp.sound.shape hp.sound.ledger hp.sound.only hp.sound.announced h.nudged
  legibly := fun d t e ht ↦ h.legibly d t e (hm.writer ht)

end

end ConnectWeb.Sab
