import ConnectWeb.Sab.Waiting

/-!
# The main thread's steps keep what is waited for

An invocation that waits for the worker stays until STATE has something for it, one that finds
an ack does not leave, and the guard of `handleRpc` declines a request only while another
invocation is live, whose `finally` looks at STATE again.
-/

namespace ConnectWeb.Sab

/-! ## The steps of an invocation -/

namespace Task.Move

variable {engine : Engine} {st : SabState} {size c : Nat} {t t' : Task} {events : List Event}
  (h : t.Move engine c st size t' events)

include h

theorem blocks {cur : SabState} {next : Next} (hpc : t'.pc = .awaitBlock cur next) :
    cur.endsAwait = false := by
  cases h with
  | still _ he =>
      cases hpc
      exact he
  | timer h | empty h =>
      rw [h] at hpc
      cases hpc
  | _ => cases hpc

theorem parks {c0 : Nat} {cur : SabState} {next : Next} (hpc : t'.pc = .parked c0 cur next) :
    engine.waitAsync = true ∧ c0 = c ∧ cur = st ∧ t.pc = .awaitBlock st next := by
  cases h with
  | park h hw =>
      cases hpc
      exact ⟨hw, rfl, rfl, h⟩
  | timer h | empty h =>
      rw [h] at hpc
      cases hpc
  | _ => cases hpc

/-- An invocation that finds its ack serves on, or looks at STATE once more. -/
theorem acks {next : Next} (ht : t.stage = .awaiting next) (hne : next ≠ .leave)
    (hst : st = .chunkAck) : t'.stage ≠ .leaving := by
  cases h with
  | ackedLeave h _ =>
      rw [Task.stage, h] at ht
      cases ht
      exact absurd rfl hne
  | quits _ hst' _ => exact absurd hst hst'
  | timer h | empty h =>
      rw [Task.stage, h]
      rintro ⟨⟩
  | _ => rintro ⟨⟩

end Task.Move

section
variable {engine : Engine} {s s' : Sys}

theorem SabState.answer_of_not_endsAwait {st : SabState} (h : st.endsAwait = false) :
    st.answer = true := by
  cases st <;> first
    | rfl
    | cases h

theorem MainMove.newest (hm : MainMove engine s s') : s'.newest = s.newest := by
  rw [Sys.newest, Sys.newest, hm.sameGens.backends]

/-- The invocation that runs, between its guard and its next store of STATE, serves the newest
channel. -/
theorem Paced.serving (hp : Paced s) {t : Task} (hr : s.current = .run t)
    (hst : t.stage = .serving) : s.Serving s.newest t :=
  hp.sound.exchange.serving t (hp.sound.shape.mem_live_of_run hr) hst

/-- An invocation waits on after a step of the main thread's. -/
theorem Waits.stays {t t' : Task} {next : Next} (h : Waits engine s t next)
    (hph : s'.worker.phase = s.worker.phase) (hb : s'.backends = s.backends)
    (hst : ∀ c, s'.state c = s.state c)
    (hctrl : ∀ c, s'.bridge.ctrl = some c → c = t.pick.chan ∨ (s.state c).endsAwait = true)
    (hp : t'.pick = t.pick) (hblocks : ∀ cur next, t'.pc = .awaitBlock cur next → cur.endsAwait = false)
    (hparked : ∀ c cur next, t'.pc = .parked c cur next → engine.waitAsync = true ∧
      c = t.pick.chan ∧ s.state c = cur ∧ cur.endsAwait = false) : Waits engine s' t' next := by
  have hnew : s'.newest = s.newest := by rw [Sys.newest, Sys.newest, hb]
  refine ⟨h.goes, ?_, ?_, ?_, hblocks, ?_, ?_⟩
  · rw [hp, hb]
    exact h.known
  · rw [hnew, hst, hp]
    exact h.shown
  · intro c hc
    rw [hp, hst]
    exact hctrl c hc
  · intro c cur next' hpc
    rw [hp, hst]
    exact hparked c cur next' hpc
  · rw [hph, hnew, hst, hp]
    exact h.cleared

theorem MainMove.awaits (hm : MainMove engine s s') (hp : Paced s) (hpend : Pending s)
    (h : ∀ t ∈ s.live, ∀ next, t.stage = .awaiting next → Waits engine s t next) :
    ∀ t ∈ s'.live, ∀ next, t.stage = .awaiting next → Waits engine s' t next := by
  have hph := hm.phase
  have hb := hm.sameGens.backends
  -- the invocations are where they were
  have same : s'.live = s.live → (∀ c, s'.state c = s.state c) → s'.bridge.ctrl = s.bridge.ctrl →
      ∀ t ∈ s'.live, ∀ next, t.stage = .awaiting next → Waits engine s' t next := by
    intro hl hst hctrl t ht next hstage
    have hw := h t (hl ▸ ht) next hstage
    exact hw.stays hph hb hst (fun c hc ↦ hw.attached c (hctrl ▸ hc)) rfl hw.blocks hw.parked
  -- an invocation that does not wait
  have busy : ∀ t' : Task, s'.live = [t'] → (∀ next, t'.stage ≠ .awaiting next) →
      ∀ t ∈ s'.live, ∀ next, t.stage = .awaiting next → Waits engine s' t next := by
    intro t' hl hne t ht next hstage
    rw [hl, List.mem_singleton] at ht
    exact absurd hstage (ht ▸ hne next)
  cases hm with
  | @attach c d queue hi hq =>
      intro t ht next hstage
      have hw := h t ht next hstage
      refine hw.stays rfl rfl (fun _ ↦ rfl) (fun c' hc' ↦ ?_) rfl hw.blocks hw.parked
      cases hc'
      by_cases hne : c = s.newest
      · rcases he : (s.state c).endsAwait with _ | _
        · rw [hne] at he ⊢
          exact .inl (hw.shown (SabState.answer_of_not_endsAwait he)).symm
        · exact .inr rfl
      · -- an older channel that was never used
        have hidle := hpend.older (c, d) (by rw [Sys.onWay, hq]; exact List.mem_cons_self ..) hne
        exact .inr (by rw [hidle]; rfl)
  | nudge hi _ => exact same (by rw [Sys.live, Sys.live, hi]; rfl) (fun _ ↦ rfl) rfl
  | decline hg _ => exact same (by rw [Sys.live, Sys.live, hg]; rfl) (fun _ ↦ rfl) rfl
  | @pick c _ _ pc _ _ _ _ _ hstarts hpl =>
      refine busy _ hpl.live fun next hstage ↦ ?_
      rw [Task.stage_mk, hstarts.stage] at hstage
      cases hstage
  | @task c t t' events _ _ hl _ hc hm hpl =>
      intro t0 ht0 next hstage
      have ht0 : t0 = t' := by
        have := hpl.live
        change t0 ∈ _ ++ _ at ht0
        rwa [this, List.mem_singleton] at ht0
      subst ht0
      have hw := h t (Sys.mem_live hl) next (hm.awaiting hstage)
      refine hw.stays rfl rfl (fun _ ↦ rfl) hw.attached hm.pick (fun _ _ ↦ hm.blocks) ?_
      intro c0 cur next' hpc
      obtain ⟨hasync, rfl, rfl, hblock⟩ := hm.parks hpc
      have he := hw.blocks _ _ hblock
      refine ⟨hasync, (hw.attached _ hc).resolve_right ?_, rfl, he⟩
      rw [he]
      simp
  | @store c off t _ _ _ st next _ hr ht hc _ _ =>
      exact busy (t.goto (.storeLength off st next)) (Sys.live_runs _ _ ht) fun _ h ↦ (by cases h)
  | @overflow c t _ _ _ _ _ failed hr ht hc hst _ =>
      refine busy (t.goto failed) (Sys.live_runs _ _ ht) fun next hstage ↦ ?_
      rw [Task.stage_goto] at hstage
      cases hst with
      | window _ => cases hstage
      | report _ => split at hstage <;> cases hstage
  | @storeLength c off t st next hr ht hc hpc =>
      exact busy (t.goto (.storeState st next)) (Sys.live_runs _ _ ht) fun _ h ↦ (by cases h)
  | @storeState c t st next pc hr ht hc hpc hpc' =>
      intro t0 ht0 next0 hstage
      change t0 ∈ [t.goto pc] ++ s.tasks at ht0
      rw [ht, List.append_nil, List.mem_singleton] at ht0
      subst ht0
      have hserv := hp.serving hr (by rw [Task.stage, hpc]; rfl)
      rcases hpc' with ⟨-, rfl⟩ | ⟨hne, rfl⟩
      · cases hstage
      · cases hstage
        have hnew : t.pick.chan = s.newest := hserv.bound.chan
        have hlt := (hp.sound.announced.ctrl_lt hserv.bound.attached).1
        refine ⟨hne, ?_, fun _ ↦ hnew, fun c0 hc0 ↦ .inl ?_, by simp, by simp,
          fun _ _ _ _ _ ↦ .inl hnew⟩
        · rw [Task.pick_goto, hnew]
          exact hlt
        · rw [Task.pick_goto, hnew]
          exact Option.some.inj (hc0.symm.trans hserv.bound.attached)
  | @leave c t hr ht hc hpc =>
      intro t0 ht0
      rw [Sys.live_leave s c ht] at ht0
      cases ht0

/-- A step of the main thread's that leaves STATE and the buffers where they are. -/
theorem Pending.main (h : Pending s) (hm : MainMove engine s s')
    (hst : ∀ c, s'.state c = s.state c) (hd : ∀ c, (s'.backend c).data = (s.backend c).data)
    (hbr : s'.bridge.ctrl = s.bridge.ctrl ∧ s'.bridge.data = s.bridge.data)
    (hq : s'.queue.filterMap Message.announcement = s.queue.filterMap Message.announcement) :
    Pending s' := by
  have hreq : s'.Requesting s.newest ↔ s.Requesting s.newest := by
    rw [Sys.Requesting, Sys.Requesting, hm.phase]
  have hway : s'.onWay = s.onWay := by
    rw [Sys.onWay, Sys.onWay, hq]
    rcases hm.worker with hw | ⟨c, hw⟩ <;> rw [hw]
    rw [Worker.announcing_wake]
  constructor
  · rw [hway, hm.newest]
    intro p hp hne
    rw [hst]
    exact h.older p hp hne
  · rw [hm.newest, hst, hreq, hbr.1, hbr.2, hd]
    exact h.fresh

theorem MainMove.pending (hm : MainMove engine s s') (hp : Paced s) (h : Pending s) : Pending s' := by
  have hm' := hm
  cases hm with
  | @attach c d queue hi hq =>
      refine ⟨fun p hmem ↦ ?_, fun hi hr hn ↦ ?_⟩
      · refine h.older p ?_
        rw [Sys.onWay, hq]
        exact List.mem_cons_of_mem _ hmem
      · -- an answered channel has nothing announced behind it
        have hf := h.fresh hi hr hn
        have hnil := hp.sound.announced.onWay_eq_nil (hp.sound.announced.ctrl_lt hf.1).1 hf
        rw [Sys.onWay, hq] at hnil
        cases hnil
  | nudge hi hq => exact h.main hm' (fun _ ↦ rfl) (fun _ ↦ rfl) ⟨rfl, rfl⟩ (by rw [hq]; rfl)
  | @store c off t info payload status st next failed hr ht hc hst hw =>
      refine h.main hm' ?_ ?_ ⟨rfl, rfl⟩ rfl
      · exact Sys.state_stored s _ _ _ _
      · exact fun c' ↦ Sys.data_stored s _ _ _ _ c'
  | @storeLength c off t st next hr ht hc hpc =>
      refine h.main hm' (fun c' ↦ ?_) (fun c' ↦ ?_) ⟨rfl, rfl⟩ rfl
      · exact Sys.state_setCtrl s c c' (fun ctrl ↦ { ctrl with length := toInt32 off }) fun _ ↦ rfl
      · exact Sys.data_setCtrl s c c' fun ctrl ↦ { ctrl with length := toInt32 off }
  | @storeState c t st next pc hr ht hc hpc hpc' =>
      have hserv := hp.serving hr (by rw [Task.stage, hpc]; rfl)
      cases hc.symm.trans hserv.bound.attached
      have hnew := hm'.newest
      constructor
      · rw [hnew]
        intro p hmem hne
        refine (Sys.state_storeByMain s s.newest p.1 t st).trans ?_
        rw [if_neg hne]
        refine h.older p ?_ hne
        have : Sys.onWay ((s.storeByMain t s.newest st).runs (t.goto pc)) = s.onWay := by
          change _ ++ (s.worker.wake s.newest).announcing.toList = _
          rw [Worker.announcing_wake]
          rfl
        exact this ▸ hmem
      · rw [hnew]
        refine fun _ _ _ ↦ ⟨hserv.bound.attached, ?_⟩
        exact hserv.bound.data.trans (Sys.data_storeByMain s s.newest s.newest t st).symm
  | _ => exact h.main hm' (fun _ ↦ rfl) (fun _ ↦ rfl) ⟨rfl, rfl⟩ rfl

/-- A step of the main thread's that leaves STATE; `t` goes on as `t'`. -/
theorem Attending.main (h : Attending s) (hm : MainMove engine s s')
    (hst : s'.state s.newest = s.state s.newest)
    (hposted : s'.posted = s.posted)
    (hatt : ∀ call, s.Keeps call → call.chan = s.newest → s.Current call →
      ¬ s.Requesting s.newest → s.Attended → s'.Attended)
    (hack : ∀ call w, s.worker.phase = some (call, .asking w) → s.state s.newest = .chunkAck →
      (∃ t, s.live = [t] ∧ t.stage ≠ .leaving) → ∃ t, s'.live = [t] ∧ t.stage ≠ .leaving) :
    Attending s' := by
  constructor
  · intro call hk hc hcur hn
    rw [hm.newest] at hc hn
    rw [Sys.Keeps, hm.phase, hm.suspended] at hk
    rw [Sys.Current, hposted] at hcur
    rw [Sys.Requesting, hm.phase] at hn
    exact hatt call hk hc hcur hn (h.kept call hk hc hcur hn)
  · intro call w hph hw hst'
    rw [hm.phase] at hph
    rw [hm.newest, hst] at hst'
    exact hack call w hph hst' (h.acked call w hph hw hst')

/-- The invocations between a chunk and its ack are waiting for it on the newest channel. -/
theorem Paced.shown (hp : Paced s) {call : Call} (hk : s.Keeps call)
    (hc : call.chan = s.newest) (hcur : s.Current call) : s.state s.newest = .respChunk := by
  refine hp.sound.exchange.holding call (hk.imp_right ?_) hc hcur
  rintro ⟨ph, hph, rfl | ⟨w, rfl⟩⟩
  · exact ⟨_, hph, rfl⟩
  · exact ⟨_, hph, rfl⟩

theorem MainMove.attending (hm : MainMove engine s s') (hp : Paced s)
    (haw : ∀ t ∈ s.live, ∀ next, t.stage = .awaiting next → Waits engine s t next)
    (h : Attending s) : Attending s' := by
  have hm' := hm
  have he := hp.sound.exchange
  -- the invocations are where they were
  have same : s'.live = s.live → s'.state s.newest = s.state s.newest → s'.posted = s.posted →
      Attending s' := by
    intro hl hst hposted
    refine h.main hm' hst hposted (fun _ _ _ _ _ hatt ↦ ?_) fun _ _ _ _ hack ↦ ?_
    · rwa [Sys.Attended, hl]
    · rwa [hl]
  -- an invocation that serves goes on serving
  have serving : ∀ {t t' : Task}, s.current = .run t → t.stage = .serving → s'.live = [t'] →
      t'.stage = .serving → s'.state s.newest = s.state s.newest → s'.posted = s.posted →
      Attending s' := by
    intro t t' hr hst hl hst' hstate hposted
    refine h.main hm' hstate hposted (fun _ _ _ _ _ hatt ↦ ?_) fun _ _ _ _ _ ↦ ?_
    · obtain ⟨t0, next, hl0, hst0⟩ := hatt
      rw [hp.sound.shape.live_of_run hr] at hl0
      cases hl0
      rw [hst] at hst0
      cases hst0
    · exact ⟨t', hl, by rw [hst']; simp⟩
  cases hm with
  | attach _ _ => exact same rfl rfl rfl
  | nudge hi _ => exact same (by rw [Sys.live, Sys.live, hi]; rfl) rfl rfl
  | decline hg _ => exact same (by rw [Sys.live, Sys.live, hg]; rfl) rfl rfl
  | pick _ hl _ _ _ _ _ =>
      refine h.main hm' rfl rfl (fun _ _ _ _ _ hatt ↦ ?_) fun _ _ _ _ hack ↦ ?_
      · obtain ⟨t, _, hl', -⟩ := hatt
        rw [hl] at hl'
        cases hl'
      · obtain ⟨t, hl', -⟩ := hack
        rw [hl] at hl'
        cases hl'
  | @task c t t' events _ _ hl _ hc hm hpl =>
      have hmem := Sys.mem_live hl
      refine h.main hm' rfl rfl (fun call hk hchan hcur hn hatt ↦ ?_) fun call w hph hst hack ↦ ?_
      · -- the chunk is shown, and says nothing to who waits for the ack
        have hshown := hp.shown hk hchan hcur
        obtain ⟨t0, next, hl0, hst⟩ := hatt
        rw [hl] at hl0
        cases hl0
        obtain ⟨hb, -⟩ := he.awaiting t hmem next hst (by rw [hshown]; simp)
          (by rw [hshown]; simp) hn
        cases hc.symm.trans hb.attached
        exact ⟨t', next, hpl.live, hm.stays hst (by rw [hshown]; rfl)⟩
      · obtain ⟨t0, hl0, hne⟩ := hack
        rw [hl] at hl0
        cases hl0
        refine ⟨t', hpl.live, ?_⟩
        rcases hstage : t.stage with _ | next | _
        · rw [hm.serving_of_serving hstage]
          simp
        · obtain ⟨hb, -⟩ := he.awaiting t hmem next hstage (by rw [hst]; simp)
            (by rw [hst]; simp) (by
              rw [Sys.requesting_iff hph]
              rintro ⟨-, hr⟩
              cases hr)
          cases hc.symm.trans hb.attached
          exact hm.acks hstage (haw t hmem next hstage).goes hst
        · exact absurd hstage hne
  | @store c off t info payload status st next failed hr ht hc hst hw =>
      exact serving hr hst.stage (Sys.live_runs _ _ ht) rfl (Sys.state_stored s _ _ _ _ _) rfl
  | @overflow c t info payload status st next failed hr ht hc hst hw =>
      obtain ⟨hfailed, -⟩ := (hp.serving hr hst.stage).overflow hp.sound.announced hst
        (writeWindow (s.sab s.bridge.data) (metaBytes info) payload).1 hw
      exact serving hr hst.stage (Sys.live_runs _ _ ht) hfailed rfl rfl
  | @storeLength c off t st next hr ht hc hpc =>
      refine serving hr (by rw [Task.stage, hpc]; rfl) (Sys.live_runs _ _ ht) rfl ?_ rfl
      exact Sys.state_setCtrl s c s.newest (fun ctrl ↦ { ctrl with length := toInt32 off })
        fun _ ↦ rfl
  | @storeState c t st next pc hr ht hc hpc hpc' =>
      have hserv := hp.serving hr (by rw [Task.stage, hpc]; rfl)
      have hans := (hserv.answer hpc).1
      cases hc.symm.trans hserv.bound.attached
      have hstate : Sys.state ((s.storeByMain t s.newest st).runs (t.goto pc)) s.newest = st :=
        (Sys.state_storeByMain s s.newest s.newest t st).trans (if_pos rfl)
      refine ⟨fun call hk hchan hcur hn ↦ ?_, fun call w _ _ hst' ↦ ?_⟩
      · -- before its store, an invocation serves, and nobody waits for an ack
        rw [hm'.newest] at hchan hn
        rw [Sys.Keeps, hm'.phase, hm'.suspended] at hk
        rw [Sys.Requesting, hm'.phase] at hn
        obtain ⟨t0, next0, hl0, hst0⟩ := h.kept call hk hchan hcur hn
        rw [hp.sound.shape.live_of_run hr] at hl0
        cases hl0
        rw [Task.stage, hpc] at hst0
        cases hst0
      · rw [hm'.newest, hstate] at hst'
        rw [hst'] at hans
        cases hans
  | @leave c t hr ht hc hpc =>
      have hl := hp.sound.shape.live_of_run hr
      refine h.main hm' rfl rfl (fun _ _ _ _ _ hatt ↦ ?_) fun _ _ _ _ hack ↦ ?_
      · obtain ⟨t0, next0, hl0, hst0⟩ := hatt
        rw [hl] at hl0
        cases hl0
        rw [Task.stage, hpc] at hst0
        cases hst0
      · obtain ⟨t0, hl0, hne⟩ := hack
        rw [hl] at hl0
        cases hl0
        exact absurd (by rw [Task.stage, hpc]; rfl) hne

/-- A step of the main thread's that leaves the queue. -/
theorem Nudged.main (h : Nudged s) (hm : MainMove engine s s') (hw : s'.worker = s.worker)
    (hst : s'.state s.newest = s.state s.newest) (hq : s'.queue = s.queue)
    (hctrl : s'.bridge.ctrl = s.bridge.ctrl)
    (hrun : s.state s.newest = .reqReady → s.bridge.ctrl = some s.newest →
      s.current ≠ .idle ∨ s.live ≠ [] → s'.current ≠ .idle ∨ s'.live ≠ []) : Nudged s' := by
  intro call pc hw' hpc hst'
  rw [hw] at hw'
  rw [hm.newest, hst] at hst'
  rw [hm.newest, hq, hctrl]
  exact (h call pc hw' hpc hst').imp_right fun ⟨hc, hr⟩ ↦ ⟨hc, hrun hst' hc hr⟩

theorem MainMove.nudged (hm : MainMove engine s s') (hp : Paced s) (h : Nudged s) : Nudged s' := by
  have hm' := hm
  cases hm with
  | @attach c d queue hi hq =>
      intro call pc hw hpc hst
      rcases h call pc hw hpc hst with ⟨q, q', hqq, hatt⟩ | ⟨hc, hr⟩
      · refine .inl ?_
        rw [hq] at hqq
        cases q with
        | nil => cases hqq
        | cons m q =>
            obtain ⟨rfl, htail⟩ := List.cons.inj hqq
            exact ⟨q, q', htail, hatt⟩
      · -- a newer announcement is of the same channel
        have hway : (c, d) ∈ s.onWay := by
          rw [Sys.onWay, hq]
          exact List.mem_cons_self ..
        have hle : s.newest ≤ c := by
          have horder := hp.sound.announced.order
          rw [Sys.announcements, hc] at horder
          exact (List.rel_of_pairwise_cons horder hway).1
        have hlt := (hp.sound.announced.below (c, d) (List.mem_append_right _ hway)).1
        have hcn : c = s.newest := by
          rw [Sys.newest] at hle ⊢
          omega
        exact .inr ⟨congrArg some hcn, hr⟩
  | @nudge queue hi hq =>
      intro call pc hw hpc hst
      rcases h call pc hw hpc hst with ⟨q, q', hqq, hatt⟩ | ⟨hc, -⟩
      · rw [hq] at hqq
        cases q with
        | nil => exact .inr ⟨hatt, .inl (by simp)⟩
        | cons m q =>
            obtain ⟨rfl, htail⟩ := List.cons.inj hqq
            exact .inl ⟨q, q', htail, hatt⟩
      · exact .inr ⟨hc, .inl (by simp)⟩
  | decline hg hno =>
      refine h.main hm' rfl rfl rfl rfl fun hst hc _ ↦ .inr ?_
      -- the guard declines a request only while an invocation is live
      have hlive : Sys.live { s with current := .idle } = s.live := by
        rw [Sys.live, Sys.live, hg]
        rfl
      rw [hlive]
      intro hnil
      rcases hp.sound.shape.single with ⟨-, hb⟩ | ⟨t, hl, -⟩
      · exact hno _ hb hc hst
      · rw [hl] at hnil
        cases hnil
  | pick _ _ _ _ _ _ hpl =>
      refine h.main hm' rfl rfl rfl rfl fun _ _ _ ↦ .inr ?_
      rw [Sys.live, hpl.live]
      simp
  | task _ _ _ _ hpl =>
      refine h.main hm' rfl rfl rfl rfl fun _ _ _ ↦ .inr ?_
      rw [Sys.live, hpl.live]
      simp
  | store _ _ _ _ _ =>
      exact h.main hm' rfl (Sys.state_stored s _ _ _ _ _) rfl rfl
        fun _ _ _ ↦ .inl fun h ↦ (by cases h)
  | overflow _ _ _ _ _ => exact h.main hm' rfl rfl rfl rfl fun _ _ _ ↦ .inl fun h ↦ (by cases h)
  | @storeLength c off _ _ _ _ _ _ _ =>
      refine h.main hm' rfl ?_ rfl rfl fun _ _ _ ↦ .inl fun h ↦ (by cases h)
      exact Sys.state_setCtrl s c s.newest (fun ctrl ↦ { ctrl with length := toInt32 off })
        fun _ ↦ rfl
  | @storeState c t st next pc hr ht hc hpc hpc' =>
      -- an answer is no request
      have hserv := hp.serving hr (by rw [Task.stage, hpc]; rfl)
      have hans := (hserv.answer hpc).1
      cases hc.symm.trans hserv.bound.attached
      intro call pc' _ _ hst
      have hstate : Sys.state ((s.storeByMain t s.newest st).runs (t.goto pc)) s.newest = st :=
        (Sys.state_storeByMain s s.newest s.newest t st).trans (if_pos rfl)
      rw [hm'.newest, hstate] at hst
      rw [hst] at hans
      cases hans
  | @leave c t hr ht hc hpc =>
      refine h.main hm' rfl rfl rfl rfl fun hst hcn _ ↦ .inl ?_
      -- the re-dispatch in `finally`
      cases hc.symm.trans hcn
      dsimp only
      rw [if_pos hst]
      simp

/-- The window that an invocation is about to write. -/
def At.emits : At → Option Emission
  | .window e => some e
  | _ => none

/-- The meta blocks that are written fit their length words. -/
def Sys.Legible (s : Sys) : Action → Prop
  | .main => ∀ t ∈ s.current.task, ∀ e ∈ t.pc.emits, (metaBytes e.info).length < 2 ^ 32
  | _ => True

theorem MainMove.legibly (hm : MainMove engine s s') (hs : Shape s)
    (hl : s.current ≠ .idle → s.Legible .main) (h : Legibly s) : Legibly s' := by
  intro d t e ht hpc
  rcases hm.writer hs ht with ht | ht
  · exact h d t e ht hpc
  · have hrun : s.current = .run t := by
      rcases List.mem_append.mp ht with hr | hr
      · cases hc : s.current with
        | run t' =>
            rw [hc] at hr
            cases List.mem_singleton.mp hr
            rfl
        | idle | guard =>
            rw [hc] at hr
            cases hr
      · have := hs.asleep t hr
        rw [hpc] at this
        cases this
    exact hl (by rw [hrun]; nofun) t (by rw [hrun]; rfl) e (by rw [hpc]; rfl)

/-! ## All steps -/

/-- The conditions of the caller's and the bridge's, beside the channels that are used. -/
structure Sys.Attentive (engine : Engine) (s : Sys) (a : Action) : Prop extends s.Steady a where
  cleared : s.Cleared engine a
  legible : s.Legible a

theorem Waiting.init : Waiting engine {} where
  awaits t ht := by cases ht
  pending := ⟨fun p hp ↦ (by cases hp), fun hi ↦ absurd rfl hi⟩
  attending := by
    refine ⟨?_, fun call w hph ↦ (by cases hph)⟩
    rintro call (hm | ⟨ph, hph, -⟩)
    · cases hm
    · cases hph
  nudged call pc hw := by cases hw
  legibly d t e ht := by cases ht

theorem Waiting.move {a : Action} (h : Waiting engine s) (hp : Paced s)
    (hm : Move engine s a s') (hon : s.OnNewest a) (hs : s.Attentive engine a) :
    Waiting engine s' := by
  cases hm with
  | worker hm => exact hm.waiting hs.cleared hon hp h
  | main _ hmain hm =>
      exact ⟨hm.awaits hp h.pending h.awaits, hm.pending hp h.pending,
        hm.attending hp h.awaits h.attending, hm.nudged hp h.nudged,
        hm.legibly hp.sound.shape (fun hne ↦ hmain hne ▸ hs.legible) h.legibly⟩

end

end ConnectWeb.Sab
