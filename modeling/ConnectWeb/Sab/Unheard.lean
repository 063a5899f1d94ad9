import ConnectWeb.Sab.Codec
import ConnectWeb.Sab.WireRuns

/-!
# A backend that nobody hears

A backend that is built before the harness has installed its hook speaks to a page of a kernel,
and the listener of the harness passes over what it posts.  Nothing fails: its requests are never
picked up, and a call returns when its timeout has run out, or not at all.
-/

namespace ConnectWeb.Sab

/-- The ending of a call that gets no answer. -/
def Call.Unanswered (call : Call) (o : Outcome) : Prop :=
  ∃ t, call.request.timeout = some t ∧ o = .raised (timedOut t)

/-- Where a call is that gets no answer. -/
def Sys.Unserved (s : Sys) (call : Call) : Pc → Prop
  | .grow | .announce _ | .marshal | .storeLength _ | .storeSeq | .storeReady => True
  | .nudge | .wait .first | .block .first | .parked .first => s.state call.chan = .reqReady
  | .resetLoad o | .resetStore o => call.Unanswered o
  | _ => False

theorem Sys.Unserved.of_state {s s' : Sys} {call : Call} {pc : Pc} (h : s.Unserved call pc)
    (hst : s'.state call.chan = s.state call.chan) : s'.Unserved call pc := by
  cases pc with
  | nudge => exact hst.trans h
  | wait w | block w | parked w =>
      cases w with
      | first => exact hst.trans h
      | window | chunk => exact h.elim
  | _ => exact h

/-- Being woken leads back to the load. -/
theorem Sys.Unserved.wake {s : Sys} {c : Nat} {w : Worker} {call : Call} {pc : Pc}
    (h : ∀ pc, w = .run call pc → s.Unserved call pc) (hw : w.wake c = .run call pc) :
    s.Unserved call pc := by
  rcases w with _ | _ | ⟨call', pc'⟩
  · cases hw
  · cases hw
  · cases pc' with
    | parked wait =>
        rw [Worker.wake] at hw
        split at hw
        · cases hw
          have hu := h _ rfl
          cases wait with
          | first => exact hu
          | window | chunk => exact hu.elim
        · exact h _ hw
    | _ => exact h _ hw

/-- No answer of a channel is on record. -/
def Event.Unanswered (c : Nat) : Event → Prop
  | .yielded call _ => call.chan ≠ c
  | .returned call o _ => call.chan = c → call.Unanswered o
  | .expired | .fetched _ _ | .buffered _ _ | .chunk _ _ | .exhausted _ => True

/-- The main thread does not know a channel. -/
structure Sys.Unheard (c : Nat) (s : Sys) : Prop where
  running : ∀ call pc, s.worker = .run call pc → call.chan = c → s.Unserved call pc
  held : ∀ call ∈ s.suspended, call.chan ≠ c
  closing : ∀ cl, s.closing = some cl → cl.call.chan ≠ c
  ctrl : s.bridge.ctrl ≠ some c
  picks : ∀ p ∈ s.picks, p.chan ≠ c
  log : ∀ e ∈ s.log, e.Unanswered c

namespace Sys.Unheard

variable {engine : Engine} {c : Nat} {s s' : Sys} {a : Action}

theorem init : Unheard c {} where
  running _ _ h := by cases h
  held _ h := by cases h
  closing _ h := by cases h
  ctrl h := by cases h
  picks _ h := by cases h
  log _ h := by cases h

theorem logged {log : List Event} {e e' : Event} (he : e ∈ log ++ [e'])
    (h : e'.Unanswered c) : e ∈ log ∨ e.Unanswered c := by
  rcases List.mem_append.mp he with he | he
  · exact .inl he
  · exact .inr (List.mem_singleton.mp he ▸ h)

/-- What the worker changes, the bridge apart. -/
theorem of_worker (h : Unheard c s)
    (hr : ∀ call pc, s'.worker = .run call pc → call.chan = c → s'.Unserved call pc)
    (hs : ∀ call ∈ s'.suspended, call.chan ≠ c) (hc : s'.closing = s.closing)
    (hb : s'.bridge = s.bridge) (hp : s'.picks = s.picks)
    (hl : ∀ e ∈ s'.log, e ∈ s.log ∨ e.Unanswered c) : Unheard c s' where
  running := hr
  held := hs
  closing cl hcl := h.closing cl (hc ▸ hcl)
  ctrl := hb ▸ h.ctrl
  picks := hp ▸ h.picks
  log e he := (hl e he).elim (h.log e) id

theorem call {call : Call} {pc : Pc} (h : Unheard c s) (hp : Provisioned s)
    (hw : s.worker = .run call pc) (hm : CallMove s call pc s') : Unheard c s' := by
  have hcall : call.chan = c → s.Unserved call pc := h.running call pc hw
  have goes : ∀ {t : Sys} {call' : Call} {pc' : Pc}, t.worker = .run call' pc' →
      (call'.chan = c → t.Unserved call' pc') → t.suspended = s.suspended →
      t.closing = s.closing → t.bridge = s.bridge → t.picks = s.picks → t.log = s.log →
      Unheard c t := by
    intro t call' pc' hwt hu hs hc hb hp hl
    refine h.of_worker (fun call0 pc0 hw0 hchan ↦ ?_) (hs ▸ h.held) hc hb hp fun e he ↦ .inl (hl ▸ he)
    rw [hwt] at hw0
    cases hw0
    exact hu hchan
  have ends : ∀ {t : Sys} {o : Outcome} {latest : Nat}, t.worker = .ready →
      (call.chan = c → call.Unanswered o) → t.suspended = s.suspended → t.closing = s.closing →
      t.bridge = s.bridge → t.picks = s.picks → t.log = s.log ++ [.returned call o latest] →
      Unheard c t := by
    intro t o latest hwt hu hs hc hb hp hl
    refine h.of_worker (fun call0 pc0 hw0 ↦ ?_) (hs ▸ h.held) hc hb hp fun e he ↦ ?_
    · rw [hwt] at hw0
      cases hw0
    · rw [hl] at he
      exact logged he hu
  cases hm with
  | grow _ | announce | marshal _ | storeLength | storeSeq =>
      exact goes rfl (fun _ ↦ trivial) rfl rfl rfl rfl rfl
  | unfit hr =>
      -- the request was given room before
      obtain ⟨r, hr', -⟩ := writeRequest_of_fits (hp.fits call _ hw (.inl rfl))
      cases hr.symm.trans hr'
  | storeReady =>
      refine goes rfl (fun _ ↦ ?_) rfl rfl rfl rfl rfl
      exact (s.state_storeByWorker call.chan call.chan .reqReady).trans (if_pos rfl)
  | nudge => exact goes rfl hcall rfl rfl rfl rfl rfl
  | @due w _ | @park w _ | @notEqual w _ =>
      refine goes rfl (fun hchan ↦ ?_) rfl rfl rfl rfl rfl
      cases w with
      | first => exact hcall hchan
      | window | chunk => exact (hcall hchan).elim
  | @answered w hst =>
      refine goes rfl (fun hchan ↦ ?_) rfl rfl rfl rfl rfl
      have hu := hcall ((afterWait_call ..).1.symm.trans hchan)
      cases w with
      | first => exact absurd hu hst
      | window | chunk => exact hu.elim
  | loadStatus hcall' =>
      subst hcall'
      exact goes rfl (fun hchan ↦ (hcall hchan).elim) rfl rfl rfl rfl rfl
  | more ht =>
      refine goes rfl (fun hchan ↦ ?_) rfl rfl rfl rfl rfl
      exact (hcall ((takeWindow_call (.inl ht)).1.symm.trans hchan)).elim
  | complete _ ht =>
      refine goes rfl (fun hchan ↦ ?_) rfl rfl rfl rfl rfl
      exact (hcall ((takeWindow_call (.inr ht)).1.symm.trans hchan)).elim
  | @yield call' _ ht =>
      have hchan : call'.chan ≠ c := fun hchan ↦
        (hcall ((takeWindow_call (.inr ht)).1.symm.trans hchan)).elim
      refine h.of_worker (fun _ _ hw0 ↦ (by cases hw0)) (fun call0 hm0 ↦ ?_) rfl rfl rfl fun e he ↦ ?_
      · rcases List.mem_append.mp hm0 with hm0 | hm0
        · exact h.held call0 hm0
        · exact List.mem_singleton.mp hm0 ▸ hchan
      · exact logged he hchan
  | malformed _ | ackWindow | current _ | stale _ | ackChunk =>
      exact goes rfl (fun hchan ↦ (hcall hchan).elim) rfl rfl rfl rfl rfl
  | resets _ => exact goes rfl hcall rfl rfl rfl rfl rfl
  | keeps _ | resetStore => exact ends rfl hcall rfl rfl rfl rfl rfl

theorem worker (h : Unheard c s) (hp : Provisioned s) (hm : WorkerMove s a s') :
    Unheard c s' := by
  have rest : ∀ i, ∀ call ∈ s.suspended.eraseIdx i, call.chan ≠ c := fun i call hm ↦
    h.held call (List.mem_of_mem_eraseIdx hm)
  have old : ∀ e ∈ s.log, e ∈ s.log ∨ e.Unanswered c := fun _ ↦ .inl
  cases hm with
  | construct _ _ | attached _ _ =>
      exact h.of_worker (fun _ _ hw ↦ (by cases hw)) h.held rfl rfl rfl old
  | start _ _ _ hpc =>
      refine h.of_worker (fun call pc hw _ ↦ ?_) h.held rfl rfl rfl old
      cases hw
      rw [hpc]
      split <;> trivial
  | @resume i call _ _ hi =>
      refine h.of_worker (fun call0 pc hw hchan ↦ ?_) (rest i) rfl rfl rfl old
      cases hw
      exact absurd hchan (h.held _ (List.mem_of_getElem? hi))
  | call _ hw hm => exact h.call hp hw hm
  | @expireFirst call t _ ht _ =>
      refine h.of_worker (fun _ _ hw ↦ (by cases hw)) h.held rfl rfl rfl fun e he ↦ ?_
      rcases List.mem_append.mp he with he | he
      · exact logged he trivial
      · exact .inr (List.mem_singleton.mp he ▸ fun _ ↦ ⟨t, ht, rfl⟩)
  | @expire call w t _ ht _ =>
      refine h.of_worker (fun call0 pc hw _ ↦ ?_) h.held rfl rfl rfl fun e he ↦ ?_
      · cases hw
        exact ⟨t, ht, rfl⟩
      · exact logged he trivial
  | @close i call _ hi _ =>
      refine ⟨h.running, rest i, fun cl hcl ↦ ?_, h.ctrl, h.picks, h.log⟩
      cases hcl
      exact h.held _ (List.mem_of_getElem? hi)
  | closingCurrent hc _ =>
      refine ⟨h.running, h.held, fun cl hcl ↦ ?_, h.ctrl, h.picks, h.log⟩
      cases hcl
      exact fun hchan ↦ h.closing _ hc hchan
  | closingStale _ _ => exact ⟨h.running, h.held, fun _ hcl ↦ (by cases hcl), h.ctrl, h.picks, h.log⟩
  | @closingStore closed hc =>
      refine ⟨fun call pc hw hchan ↦ ?_, h.held, fun _ hcl ↦ (by cases hcl), h.ctrl, h.picks, h.log⟩
      refine Sys.Unserved.of_state (h.running call pc hw hchan) ?_
      have hne : call.chan ≠ closed.chan := fun heq ↦ h.closing _ hc (heq ▸ hchan)
      exact (s.state_storeByWorker closed.chan call.chan .idle).trans (if_neg hne)

end Sys.Unheard

namespace MainMove

variable {engine : Engine} {c : Nat} {s s' : Sys}

/-- The main thread stores into the channel that is attached. -/
theorem state_eq (hm : MainMove engine s s') (hc : s.bridge.ctrl ≠ some c) :
    s'.state c = s.state c := by
  have hne : ∀ {c'}, s.bridge.ctrl = some c' → c ≠ c' := fun hc' heq ↦ hc (heq ▸ hc')
  cases hm with
  | @store c' _ _ _ _ status _ _ _ _ _ _ _ _ =>
      exact s.state_setCtrl c' c (fun ctrl ↦ { ctrl with status := toInt32 status }) fun _ ↦ rfl
  | @storeLength c' off _ _ _ _ _ _ _ =>
      exact s.state_setCtrl c' c (fun ctrl ↦ { ctrl with length := toInt32 off }) fun _ ↦ rfl
  | @storeState c' t state _ _ _ _ hc' _ _ =>
      exact (s.state_storeByMain c' c t state).trans (if_neg (hne hc'))
  | _ => rfl

/-- The main thread records what the network does. -/
theorem unanswered (hm : MainMove engine s s') {e : Event} (he : e ∈ s'.log) :
    e ∈ s.log ∨ e.Unanswered c := by
  obtain ⟨events, h⟩ := hm.reads
  rw [h.log] at he
  refine (List.mem_append.mp he).imp_right fun he ↦ ?_
  cases e with
  | yielded call bytes =>
      have hnone := List.filterMap_eq_nil_iff.mp (h.yields ⟨call.gen, call.request⟩) _ he
      rw [Event.yieldOf, if_pos rfl] at hnone
      cases hnone
  | returned call o latest => exact absurd he (h.returned call o latest)
  | _ => trivial

end MainMove

namespace Sys.Unheard

variable {engine : Engine} {c : Nat} {s s' : Sys} {a : Action}

theorem main (h : Unheard c s) (hm : MainMove engine s s') (hq : ∀ d, .sab c d ∉ s.queue) :
    Unheard c s' := by
  have hctrl : s'.bridge.ctrl ≠ some c := by
    cases hm with
    | @attach c' d _ _ hqueue =>
        intro heq
        cases heq
        exact hq d (hqueue ▸ List.mem_cons_self)
    | _ => exact h.ctrl
  refine ⟨fun call pc hw hchan ↦ ?_, hm.suspended ▸ h.held, hm.closing ▸ h.closing, hctrl,
    fun p hp ↦ ?_, fun e he ↦ (hm.unanswered he).elim (h.log e) id⟩
  · have hst : s'.state call.chan = s.state call.chan := by rw [hchan, hm.state_eq h.ctrl]
    rcases hm.worker with heq | ⟨c', heq⟩
    · exact Sys.Unserved.of_state (h.running call pc (heq ▸ hw) hchan) hst
    · refine Sys.Unserved.of_state (Sys.Unserved.wake (fun pc' hw' ↦ ?_) (heq ▸ hw)) hst
      exact h.running call pc' hw' hchan
  · cases hm with
    | @pick c' _ _ _ _ _ _ hc _ _ _ =>
        rcases List.mem_append.mp hp with hp | hp
        · exact h.picks p hp
        · rw [List.mem_singleton.mp hp]
          exact fun heq ↦ h.ctrl (heq ▸ hc)
    | _ => exact h.picks p hp

theorem move (h : Unheard c s) (hp : Provisioned s) (hm : Move engine s a s')
    (hq : ∀ d, .sab c d ∉ s.queue) : Unheard c s' := by
  cases hm with
  | worker hm => exact h.worker hp hm
  | main _ _ hm => exact h.main hm hq

end Sys.Unheard

namespace Wire

/-- The page passes over what a backend posts. -/
structure Unheard (page : Page) (c : Nat) (w : Wire) : Prop where
  core : w.core.Unheard c
  provisioned : Provisioned w.core
  postings : ∀ m ∈ w.postings, ∀ d, page.message m ≠ some (.sab c d)

variable {page : Page} {engine : Engine} {c : Nat} {w w' : Wire} {a : WireAction}

theorem Unheard.init : Unheard page c
    { postings := if page.transport = .standalone then [bootPosting] else [] } where
  core := .init
  provisioned := .init
  postings m hm d := by
    split at hm
    · rename_i hp
      rw [List.mem_singleton.mp hm, Page.message, Page.listen, hp]
      simp [installBridge, bootPosting]
    · cases hm

/-- Whatever is posted in a step of the two programs, the page does not hear of the backend. -/
theorem Orderly.unheard (ho : w.Orderly) (hne : w.transports[c]? ≠ some page.transport)
    {a : Action} {core : Sys} (hm : Move engine w.core a core) :
    ∀ m ∈ w.posted core.queue, ∀ d, page.message m ≠ some (.sab c d) := by
  intro m hposted d hmessage
  rcases ho.posted hm with ⟨-, hnil⟩ | ⟨c', t, ht, hsab, hmap⟩
  · rw [hnil] at hposted
    cases hposted
  · rw [hmap] at hposted
    obtain ⟨m', hm', rfl⟩ := List.mem_map.mp hposted
    rw [page.message_posting] at hmessage
    split at hmessage
    · rename_i htuned
      cases hmessage
      exact hne (by rw [hsab c d hm', ht, htuned])
    · cases hmessage

theorem Unheard.move (h : Unheard page c w) (ho : w.Orderly)
    (hne : w.transports[c]? ≠ some page.transport) (hm : WireMove page engine w a w') :
    Unheard page c w' := by
  have hcore := h.core
  have rest : ∀ {m : Posting} {postings : List Posting}, w.postings = m :: postings →
      ∀ m' ∈ postings, ∀ d, page.message m' ≠ some (.sab c d) := fun hp m' hm' ↦
    h.postings m' (hp ▸ List.mem_cons_of_mem _ hm')
  have last : ∀ {m : Posting}, page.message m = none →
      ∀ m' ∈ w.postings ++ [m], ∀ d, page.message m' ≠ some (.sab c d) := by
    intro m hm m' hm' d
    rcases List.mem_append.mp hm' with hm' | hm'
    · exact h.postings m' hm' d
    · rw [List.mem_singleton.mp hm', hm]
      simp
  cases hm with
  | @core a core _ hs =>
      have hm := Move.of_step ho.shape hs
      obtain ⟨hrunning, hheld, hclosing, hctrl, hpicks, hlog⟩ :=
        hcore.move h.provisioned hm fun d ↦ by rw [ho.queue]; exact List.not_mem_nil
      have hp' := h.provisioned.move hm
      refine ⟨⟨hrunning, hheld, hclosing, hctrl, hpicks, hlog⟩,
        hp'.same (.of_eq rfl rfl rfl rfl) rfl rfl hp'.fits, fun m hm' d ↦ ?_⟩
      rcases List.mem_append.mp hm' with hm' | hm'
      · exact h.postings m hm' d
      · exact ho.unheard hne hm m hm' d
  | @attach m postings c' d _ hp hm =>
      refine ⟨⟨hcore.running, hcore.held, hcore.closing, fun heq ↦ ?_, hcore.picks, hcore.log⟩,
        h.provisioned.same (.of_eq rfl rfl rfl rfl) rfl rfl h.provisioned.fits, rest hp⟩
      cases heq
      exact h.postings m (hp ▸ List.mem_cons_self) d hm
  | nudge _ hp _ =>
      exact ⟨⟨hcore.running, hcore.held, hcore.closing, hcore.ctrl, hcore.picks, hcore.log⟩,
        h.provisioned.same (.of_eq rfl rfl rfl rfl) rfl rfl h.provisioned.fits, rest hp⟩
  | passed hp _ => exact ⟨hcore, h.provisioned, rest hp⟩
  | foreign hm | register hm => exact ⟨hcore, h.provisioned, last hm⟩

/-- Backends keep their transports. -/
theorem transports_move {t : BackendTransport} (hm : WireMove page engine w a w')
    (h : w.transports[c]? = some t) : w'.transports[c]? = some t := by
  cases hm with
  | core _ _ =>
      dsimp only
      split
      · rw [List.getElem?_append_left (List.getElem?_eq_some_iff.mp h).1]
        exact h
      · exact h
  | _ => exact h

theorem unheard_of_reachable {ok : System.Guard Wire WireAction}
    (h : (wire page engine).Reachable ok w) (hne : w.transports[c]? ≠ some page.transport) :
    Unheard page c w := by
  induction h with
  | init hi =>
      cases hi
      exact .init
  | @step w w' a hr _ hstep ih =>
      have hm : WireMove page engine w a w' := .of_step hstep
      have hne' : w.transports[c]? ≠ some page.transport := fun heq ↦ hne (transports_move hm heq)
      exact (ih hne').move (orderly_of_reachable hr) hne' hm

end Wire

/-- A backend whose transport is not the page's: whatever the order of events, none of its
requests is picked up, its streams yield nothing, its calls end with their timeout, and a call
without one never returns. -/
theorem unanswered_of_wire {page : Page} {engine : Engine} {ok : System.Guard Wire WireAction}
    {w : Wire} {c : Nat} {t : BackendTransport} (h : (wire page engine).Reachable ok w)
    (ht : w.transports[c]? = some t) (hne : t ≠ page.transport) :
    (∀ p ∈ w.core.picks, p.chan ≠ c) ∧
      (∀ call bytes, .yielded call bytes ∈ w.core.log → call.chan ≠ c) ∧
      (∀ call o latest, .returned call o latest ∈ w.core.log → call.chan = c →
        call.Unanswered o) ∧
      ∀ call o latest, call.chan = c → call.request.timeout = none →
        .returned call o latest ∉ w.core.log := by
  have hw := (Wire.unheard_of_reachable h (c := c) fun heq ↦ hne (Option.some.inj (ht ▸ heq))).core
  refine ⟨hw.picks, fun call bytes he ↦ hw.log _ he, fun call o latest he ↦ hw.log _ he,
    fun call o latest hchan hnone he ↦ ?_⟩
  obtain ⟨t, htimeout, -⟩ := hw.log _ he hchan
  cases hnone.symm.trans htimeout

/-- A call made before the hook is there, which times out, and one behind it without a timeout. -/
def hastyRun : List WireAction :=
  let timeout : Timeout := { mantissa := 15, scale := 1 }
  List.flatten [
    [.deliver, .core (.construct 8192), .core .worker],
    [.core (.start 0 { kind := .unary, url := "/unary", timeout })],
    .replicate 5 (.core .worker), [.register, .deliver, .deliver, .deliver],
    .replicate 2 (.core .worker), [.core .expire],
    [.core (.start 0 { kind := .serverStream, url := "/stream" })],
    .replicate 7 (.core .worker), [.deliver]]

def Wire.returnsOnce (w : Wire) : Bool :=
  w.transports = [.kernel] && w.core.log.any (fun e ↦ match e with
    | .returned _ (.raised _) _ => true
    | _ => false) &&
  match w.core.worker with
  | .run _ (.parked _) => true
  | _ => false

/-- One call times out, and the next sleeps. -/
theorem unanswered_of_wire_hastyRun : ∃ w : Wire, w.returnsOnce = true ∧
    (∀ p ∈ w.core.picks, p.chan ≠ 0) ∧
    (∀ call bytes, .yielded call bytes ∈ w.core.log → call.chan ≠ 0) ∧
    (∀ call o latest, .returned call o latest ∈ w.core.log → call.chan = 0 →
      call.Unanswered o) ∧
    ∀ call o latest, call.chan = 0 → call.request.timeout = none →
      .returned call o latest ∉ w.core.log := by
  obtain ⟨w, hr, hw⟩ := (wire ⟨.standalone⟩ v8).exists_reachable (fun _ _ ↦ True) hastyRun
    Wire.returnsOnce rfl (by decide +kernel)
  have ht : w.transports = [.kernel] := by
    rw [Wire.returnsOnce, Bool.and_eq_true, Bool.and_eq_true] at hw
    exact of_decide_eq_true hw.1.1
  exact ⟨w, hw, unanswered_of_wire hr (by rw [ht]; rfl) (by decide)⟩

end ConnectWeb.Sab
