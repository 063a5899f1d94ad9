import ConnectWeb.Sab.Taking

/-!
# How the calls end

A generator stops behind the end of its stream, or because a newer request is stored, and a
unary call returns with the response that was fetched for it.  A call that returned does not
come back, so what holds of its messages stays.
-/

namespace ConnectWeb.Sab

section
variable {s s' : Sys} {q : Posted}

/-! ## How a call ends -/

theorem Sys.Concludes.congr {call : Call} {o : Outcome} (h : s.Concludes call o)
    (ht : SameTransfers s s' ⟨call.gen, call.request⟩)
    (hg : (s'.backend call.chan).gen = (s.backend call.chan).gen) : s'.Concludes call o := by
  cases o with
  | stop => exact Level.congr h ht
  | response resp =>
      obtain ⟨hk, fetched, body, hbuf, hresp⟩ := h
      exact ⟨hk, fetched, body, hbuf.mono ht.log, hresp⟩
  | raised e => exact hg.trans h

theorem afterWait_ending {call : Call} {w : Wait} {st : SabState} {d : Region} {o : Outcome}
    (h : (afterWait call w st d).2.phase = .ending o) :
    o = .stop ∧ st = .respEnd ∨ ∃ e, o = .raised e := by
  unfold afterWait at h
  split at h <;> cases h
  all_goals first
    | exact .inl ⟨rfl, rfl⟩
    | exact .inr ⟨_, rfl⟩

/-- What a unary call returns at its last window. -/
theorem Call.UpTo.unaryOutcome_take {call : Call} {e : Emission} (h : call.UpTo e)
    (hin : e.Inside e) (hcap : 0 < e.cap) (hk : e.streaming = false) (hmore : e.more = false)
    (hstatus : call.firstMeta = none → call.status = e.resp.status.toNat) :
    unaryOutcome (call.take e) =
      .response ⟨e.resp.status.toNat, e.resp.collected, e.bytes⟩ := by
  obtain ⟨hheaders, hstat⟩ := h.kept_take hk hstatus
  have hbody := h.flatten_take hin hcap
  rw [Emission.take_stop hmore] at hbody
  rw [unaryOutcome, hheaders]
  simp only [hstat, hbody]

/-- The response that a unary call has at its last window. -/
theorem Conveying.complete (h : Conveying s) (hp : Paced s) (hb : s.backends ≤ 1)
    (hsize : (s.region 0).size < 2 ^ 31) {call call' : Call} (hw : s.worker = .run call .readWindow)
    (hk : call'.request.kind = .unary)
    (ht : takeWindow call (s.region call.chan) (s.backend call.chan).ctrl.length = .last call') :
    s.Concludes call' (unaryOutcome call') := by
  obtain ⟨e, p, hsends, hup, hkind, hstatus, -, htake⟩ := h.finds hp hb hsize hw
  rw [ht] at htake
  rcases hmore : e.more with _ | _
  swap
  · rw [hmore] at htake
    cases htake
  rw [hmore] at htake
  cases htake
  have hunary : e.streaming = false := by
    rw [Emission.kind, show call.request.kind = .unary from hk] at hkind
    by_contra hne
    rw [if_pos (Bool.of_not_eq_false hne)] at hkind
    cases hkind
  rw [hup.unaryOutcome_take hsends.inside hsends.room hunary hmore (hstatus hunary)]
  exact ⟨hk, e.resp, e.bytes, hsends.unary hunary, rfl⟩

/-- A call whose request is the one stored last is the newest. -/
theorem Conveying.newest (h : Conveying s) {call : Call} {ph : Phase}
    (hph : s.worker.phase = some (call, ph)) (hne : ph ≠ .preparing) (hchan : call.chan = 0)
    (hcur : s.Current call) : (s.backend call.chan).gen = call.gen := by
  rw [Sys.Current, hchan] at hcur
  rw [hchan]
  refine h.abreast _ hcur fun call0 hph0 ↦ hne ?_
  cases hph.symm.trans hph0
  rfl

theorem CallMove.ending {call : Call} {pc : Pc} (hm : CallMove s call pc s')
    (hw : s.worker = .run call pc) (hp : Paced s) (hb : s.backends ≤ 1)
    (hsize : (s.region 0).size < 2 ^ 31) (h : Conveying s) {call0 : Call} {o : Outcome}
    (hw' : s'.worker.phase = some (call0, .ending o) ∨
      s'.worker.phase = some (call0, .resetting o)) : s'.Concludes call0 o := by
  have hph : s.worker.phase = some (call, pc.phase) := by rw [hw]; rfl
  have hchan := hp.sound.ledger.chan_eq_zero (Sys.mem_calls_of_phase hph) hb
  have hruns := hp.sound.ledger.running call _ hph
  cases hm with
  | @answered w _ =>
      rcases hw' with hw' | hw' <;> rw [Sys.goto, Worker.phase_run, Option.some.injEq,
        Prod.mk.injEq] at hw'
      · obtain ⟨rfl, hphase⟩ := hw'
        have hcur : s.posted call.chan = some ⟨call.gen, call.request⟩ := hruns
        have hnewest := h.newest hph (by simp [Pc.phase]) hchan hcur
        obtain ⟨hchan', hgen', hreq'⟩ :=
          afterWait_call call w (s.state call.chan) (s.region call.chan)
        rcases afterWait_ending hphase with ⟨rfl, hst⟩ | ⟨e, rfl⟩
        · rw [hchan] at hcur hst
          have hoffers := (h.conveys _ hcur).shown call _ hph rfl
          rw [hst] at hoffers
          rw [Sys.Concludes, hgen', hreq']
          exact Sys.Level.congr hoffers (.of_log rfl)
        · rw [Sys.Concludes, hchan', hgen']
          exact hnewest
      · obtain ⟨-, hphase⟩ := hw'
        rcases afterWait_phase call w (s.state call.chan) (s.region call.chan) with heq | ⟨_, heq⟩ <;>
          rw [heq] at hphase <;> cases hphase
  | loadStatus _ =>
      obtain ⟨rfl, -⟩ := h.begun call _ hw
      rcases hw' with hw' | hw' <;> cases hw'
  | malformed _ =>
      rcases hw' with hw' | hw' <;> cases hw'
      exact h.newest hph (by simp [Pc.phase]) hchan hruns
  | complete hk ht =>
      rcases hw' with hw' | hw' <;> cases hw'
      exact (h.complete hp hb hsize hw hk ht).congr (.of_log rfl) rfl
  | stale _ =>
      rcases hw' with hw' | hw' <;> cases hw'
      exact (h.level call (.inr hph)).congr (.of_log rfl)
  | resets _ =>
      rcases hw' with hw' | hw' <;> cases hw'
      exact (h.ending call _ (.inl hph)).congr (.of_log rfl) rfl
  | _ => rcases hw' with hw' | hw' <;> cases hw'

/-! ## Calls that returned -/

theorem Sys.gen_mem {call : Call} (h : call ∈ s.calls) : call.gen ∈ s.gens :=
  List.mem_map_of_mem h

/-- The generations of the running call, of the one being closed, and of the suspended ones. -/
theorem Sys.gens_subset {l : List Nat} (hw : ∀ call, s.worker.call = some call → call.gen ∈ l)
    (hc : ∀ cl, s.closing = some cl → cl.call.gen ∈ l) (hs : ∀ call ∈ s.suspended, call.gen ∈ l) :
    s.gens ⊆ l := by
  intro g hg
  obtain ⟨call, hm, rfl⟩ := List.mem_map.mp hg
  rw [calls, List.append_assoc, List.mem_append, List.mem_append] at hm
  rcases hm with hm | hm | hm
  · exact hw call (Option.mem_toList.mp hm)
  · obtain ⟨cl, hcl, rfl⟩ := Option.map_eq_some_iff.mp (Option.mem_toList.mp hm)
    exact hc cl hcl
  · exact hs call hm

theorem CallMove.gens {call : Call} {pc : Pc} (hm : CallMove s call pc s')
    (hw : s.worker = .run call pc) : s'.gens ⊆ s.gens := by
  have hph : s.worker.phase = some (call, pc.phase) := by
    rw [hw]
    rfl
  have hmem : call.gen ∈ s.gens := Sys.gen_mem (Sys.mem_calls_of_phase hph)
  have closing : ∀ cl, s.closing = some cl → cl.call.gen ∈ s.gens := fun cl hcl ↦
    Sys.gen_mem (Sys.mem_calls_of_closing hcl)
  have held : ∀ call0 ∈ s.suspended, call0.gen ∈ s.gens := fun call0 hm0 ↦
    Sys.gen_mem (Sys.mem_calls_of_suspended hm0)
  have goes : ∀ {call' : Call}, s'.worker.call = some call' → call'.gen = call.gen →
      s'.closing = s.closing → s'.suspended = s.suspended → s'.gens ⊆ s.gens := by
    intro call' hw' hg hc hs
    refine Sys.gens_subset (fun call0 h0 ↦ ?_) (hc ▸ closing) (hs ▸ held)
    rw [hw', Option.some.injEq] at h0
    rwa [← h0, hg]
  cases hm with
  | answered _ => exact goes rfl (afterWait_call ..).2.1 rfl rfl
  | loadStatus hcall' => exact goes rfl (by rw [hcall']) rfl rfl
  | more ht => exact goes rfl (takeWindow_call (.inl ht)).2.1 rfl rfl
  | complete _ ht => exact goes rfl (takeWindow_call (.inr ht)).2.1 rfl rfl
  | yield _ ht =>
      refine Sys.gens_subset nofun closing fun call0 h0 ↦ ?_
      rcases List.mem_append.mp h0 with h0 | h0
      · exact held call0 h0
      · rw [List.mem_singleton.mp h0, (takeWindow_call (.inr ht)).2.1]
        exact hmem
  | unfit _ | keeps _ | resetStore => exact Sys.gens_subset nofun closing held
  | _ => exact goes rfl rfl rfl rfl

/-- The calls keep their generations, and a new one has the next. -/
theorem WorkerMove.gens {a : Action} (hm : WorkerMove s a s') (hb : s.backends ≤ 1) :
    (∀ g ∈ s'.gens, g ∈ s.gens ∨ (s.backend 0).gen < g) ∧
      (s.backend 0).gen ≤ (s'.backend 0).gen := by
  have running : ∀ call, s.worker.call = some call → call.gen ∈ s.gens := fun call hw ↦
    Sys.gen_mem (by simp [Sys.calls, hw])
  have closing : ∀ cl, s.closing = some cl → cl.call.gen ∈ s.gens := fun cl hcl ↦
    Sys.gen_mem (Sys.mem_calls_of_closing hcl)
  have held : ∀ call ∈ s.suspended, call.gen ∈ s.gens := fun call hm ↦
    Sys.gen_mem (Sys.mem_calls_of_suspended hm)
  have old : s'.gens ⊆ s.gens → (s'.backend 0).gen = (s.backend 0).gen →
      (∀ g ∈ s'.gens, g ∈ s.gens ∨ (s.backend 0).gen < g) ∧
        (s.backend 0).gen ≤ (s'.backend 0).gen := fun hg hgen ↦
    ⟨fun g hm ↦ .inl (hg hm), hgen.ge⟩
  cases hm with
  | @construct capacity hc hw =>
      refine old (Sys.gens_subset (by simp) closing held) ?_
      exact (SameGens.attachData { s with backends := s.backends + 1 } s.backends capacity).gen 0
  | attached _ _ => exact old (Sys.gens_subset (by simp) closing held) rfl
  | @start c req pc _ _ hlt _ =>
      obtain rfl : c = 0 := by omega
      have hgen : ((s.setBackend 0 fun b ↦ { b with gen := (s.backend 0).gen + 1 }).backend 0).gen =
          (s.backend 0).gen + 1 := by
        simp [Sys.setBackend]
      refine ⟨fun g hg ↦ ?_, (Nat.le_succ _).trans hgen.ge⟩
      have hsub : Sys.gens ((s.setBackend 0 fun b ↦ { b with gen := (s.backend 0).gen + 1 }).goto
          { chan := 0, gen := (s.backend 0).gen + 1, request := req } pc) ⊆
          ((s.backend 0).gen + 1) :: s.gens := by
        refine Sys.gens_subset (fun call hw ↦ ?_)
          (fun cl hcl ↦ List.mem_cons_of_mem _ (closing cl hcl))
          fun call hm ↦ List.mem_cons_of_mem _ (held call hm)
        cases hw
        exact List.mem_cons_self
      rcases List.mem_cons.mp (hsub hg) with rfl | hmem
      · exact .inr (Nat.lt_succ_self _)
      · exact .inl hmem
  | @resume i call _ _ hi =>
      refine old (Sys.gens_subset (fun call0 hw ↦ ?_) closing fun call0 hm ↦
        held call0 (List.mem_of_mem_eraseIdx hm)) rfl
      cases hw
      exact held call (List.mem_of_getElem? hi)
  | call _ hw hm =>
      refine old (hm.gens hw) ?_
      cases hm with
      | @grow capacity _ => exact (SameGens.attachData s _ capacity).gen 0
      | marshal _ =>
          rw [Sys.backend_marshalled]
          exact Sys.gen_setCtrl s _ 0 _
      | @storeLength off =>
          exact Sys.gen_setCtrl s _ 0 fun ctrl ↦ { ctrl with length := toInt32 off }
      | storeSeq => exact Sys.gen_setCtrl s _ 0 fun ctrl ↦ { ctrl with seq := 0 }
      | storeReady | ackWindow | ackChunk | resetStore =>
          exact (SameGens.storeByWorker s _ _).gen 0
      | _ => rfl
  | expireFirst _ _ _ => exact old (Sys.gens_subset (fun _ h ↦ (by cases h)) closing held) rfl
  | expire hw _ _ =>
      refine old (Sys.gens_subset (fun call0 hw' ↦ ?_) closing held) rfl
      cases hw'
      exact running _ (by rw [hw]; rfl)
  | close _ hi _ =>
      refine old (Sys.gens_subset running (fun cl hcl ↦ ?_) fun call0 hm ↦
        held call0 (List.mem_of_mem_eraseIdx hm)) rfl
      cases hcl
      exact held _ (List.mem_of_getElem? hi)
  | closingCurrent hc _ =>
      refine old (Sys.gens_subset running (fun cl hcl ↦ ?_) held) rfl
      have hmem := closing _ hc
      cases hcl
      exact hmem
  | closingStale _ _ => exact old (Sys.gens_subset running (by simp) held) rfl
  | @closingStore call _ =>
      exact old (Sys.gens_subset running (by simp) held)
        ((SameGens.storeByWorker s call.chan .idle).gen 0)

theorem WorkerMove.retired {a : Action} (hm : WorkerMove s a s') (hb : s.backends ≤ 1)
    {call : Call} (h : s.Retired call) : s'.Retired call := by
  obtain ⟨hgens, hgen⟩ := hm.gens hb
  refine ⟨fun hmem ↦ ?_, h.past.trans hgen⟩
  rcases hgens _ hmem with hmem | hlt
  · exact h.gone hmem
  · exact absurd h.past (by omega)

theorem Sys.Returned.congr {call : Call} {o : Outcome} {latest : Nat}
    (h : s.Returned call o latest) (hr : s'.Retired call)
    (ht : SameTransfers s s' ⟨call.gen, call.request⟩)
    (hlog : ∀ call' o' latest', .returned call' o' latest' ∈ s'.log → call'.gen = call.gen →
      .returned call' o' latest' ∈ s.log) : s'.Returned call o latest where
  retired := hr
  stop ho := (h.stop ho).congr ht
  response resp ho := by
    have hc := h.response resp ho
    rw [ho] at hc ⊢
    obtain ⟨hk, fetched, body, hbuf, hresp⟩ := hc
    exact ⟨hk, fetched, body, hbuf.mono ht.log, hresp⟩
  raised := h.raised
  once call' o' latest' he hg := h.once call' o' latest' (hlog _ _ _ he hg) hg

/-! ## The steps -/

/-- What the record says of the chunks yielded and of the calls that are over. -/
structure Sys.Recorded (s : Sys) : Prop where
  ordered : ∀ q, s.yields q <+: s.chunks q
  returned : ∀ call o latest, .returned call o latest ∈ s.log → s.Returned call o latest

/-- A step of the worker's that yields nothing and ends no call. -/
theorem Conveying.silent {a : Action} (h : Conveying s) (hm : WorkerMove s a s')
    (hb : s.backends ≤ 1) (hlog : s'.log = s.log) : s'.Recorded := by
  refine ⟨fun q ↦ ?_, fun call o latest he ↦ ?_⟩
  · have ht : SameTransfers s s' q := .of_log hlog
    rw [ht.yields, ht.chunks]
    exact h.ordered q
  · rw [hlog] at he
    have hret := h.returned call o latest he
    exact hret.congr (hm.retired hb hret.retired) (.of_log hlog) fun _ _ _ he _ ↦ hlog ▸ he

/-- A call ends. -/
theorem Conveying.finish {a : Action} {call : Call} {pc : Pc} {o : Outcome} {latest : Nat}
    (h : Conveying s) (hm : WorkerMove s a s') (hb : s.backends ≤ 1) (hl : Ledger s)
    (hw : s.worker = .run call pc) (hw' : s'.worker.call = none) (hc' : s'.closing = none)
    (hs' : s'.suspended = s.suspended) (hlog : s'.log = s.log ++ [Event.returned call o latest])
    (hlatest : latest = (s.backend call.chan).gen) (hends : s.Concludes call o) :
    s'.Recorded := by
  have hph : s.worker.phase = some (call, pc.phase) := by rw [hw]; rfl
  have ht : ∀ q, SameTransfers s s' q := fun q ↦ .of_append hlog rfl rfl
  have hmem : call.gen ∈ s.gens := Sys.gen_mem (Sys.mem_calls_of_phase hph)
  refine ⟨fun q ↦ ?_, fun call0 o0 latest0 he ↦ ?_⟩
  · rw [(ht q).yields, (ht q).chunks]
    exact h.ordered q
  · rw [hlog, List.mem_append, List.mem_singleton] at he
    rcases he with he | he
    · have hret := h.returned call0 o0 latest0 he
      refine hret.congr (hm.retired hb hret.retired) (ht _) fun call' o' latest' he' hg ↦ ?_
      rw [hlog, List.mem_append, List.mem_singleton] at he'
      refine he'.resolve_right fun heq ↦ hret.retired.gone ?_
      cases heq
      exact hg ▸ hmem
    · cases he
      refine ⟨⟨fun hmem' ↦ ?_, ?_⟩, fun ho ↦ ?_, fun resp ho ↦ ?_, fun e ho ↦ ?_,
        fun call' o' latest' he' hg ↦ ?_⟩
      · have hsub : s'.gens ⊆ s.suspended.map Call.gen := by
          refine Sys.gens_subset (fun call0 hw0 ↦ ?_) (fun cl hcl ↦ ?_) fun call0 hm0 ↦
            List.mem_map_of_mem (hs' ▸ hm0)
          · cases hw'.symm.trans hw0
          · cases hc'.symm.trans hcl
        obtain ⟨call0, hm0, hg⟩ := List.mem_map.mp (hsub hmem')
        have hchan := hl.chan_eq_zero (Sys.mem_calls_of_phase hph) hb
        have hchan0 := hl.chan_eq_zero (Sys.mem_calls_of_suspended hm0) hb
        exact hl.suspended_ne_running hph hm0 (Call.key_eq (hchan0.trans hchan.symm) hg)
      · have hle := hl.gen_le (Sys.mem_calls_of_phase hph)
        rw [hl.chan_eq_zero (Sys.mem_calls_of_phase hph) hb] at hle
        exact hle.trans (hm.gens hb).2
      · subst ho
        exact Sys.Level.congr hends (ht _)
      · subst ho
        obtain ⟨hk, fetched, body, hbuf, heq⟩ := hends
        exact ⟨hk, fetched, body, hbuf.mono (ht ⟨call.gen, call.request⟩).log, heq⟩
      · subst ho
        exact hlatest.trans hends
      · rw [hlog, List.mem_append, List.mem_singleton] at he'
        rcases he' with he' | heq
        · exact absurd (hg ▸ hmem) (h.returned call' o' latest' he').retired.gone
        · cases heq
          exact ⟨rfl, rfl⟩

/-- A chunk is yielded. -/
theorem Conveying.yields {a : Action} {call call' : Call} (h : Conveying s) (hm : WorkerMove s a s')
    (hp : Paced s) (hb : s.backends ≤ 1) (hsize : (s.region 0).size < 2 ^ 31)
    (hw : s.worker = .run call .readWindow) (hk : call'.request.kind = .serverStream)
    (ht : takeWindow call (s.region call.chan) (s.backend call.chan).ctrl.length = .last call')
    (hlog : s'.log = s.log ++ [Event.yielded call' call'.parts.flatten]) : s'.Recorded := by
  have hph : s.worker.phase = some (call, .reading) := by rw [hw]; rfl
  obtain ⟨-, hgen, hreq⟩ := takeWindow_call (.inr ht)
  have other : ∀ q, q ≠ ⟨call.gen, call.request⟩ → SameTransfers s s' q := by
    intro q hne
    refine .of_append hlog rfl ?_
    simp [Event.yieldOf, hgen, hreq, hne.symm]
  refine ⟨fun q ↦ ?_, fun call0 o latest he ↦ ?_⟩
  · by_cases hq : q = ⟨call.gen, call.request⟩
    · subst hq
      have hlevel := (h.yielded hp hb hsize hw hk ht hlog).1
      exact ⟨[], (List.append_nil _).trans hlevel⟩
    · rw [(other q hq).yields, (other q hq).chunks]
      exact h.ordered q
  · rw [hlog, List.mem_append, List.mem_singleton] at he
    have hret := h.returned call0 o latest (he.resolve_right (by simp))
    refine hret.congr (hm.retired hb hret.retired) (other _ fun heq ↦ hret.retired.gone ?_)
      fun _ _ _ he' _ ↦ ?_
    · rw [Posted.mk.injEq] at heq
      rw [heq.1]
      exact Sys.gen_mem (Sys.mem_calls_of_phase hph)
    · rw [hlog, List.mem_append, List.mem_singleton] at he'
      exact he'.resolve_right (by simp)

theorem CallMove.records {call : Call} {pc : Pc} (hm : CallMove s call pc s')
    (hw : s.worker = .run call pc) (hc : s.closing = none) (hp : Paced s) (hb : s.backends ≤ 1)
    (hsize : (s.region 0).size < 2 ^ 31) (h : Conveying s) : s'.Recorded := by
  have hwm : WorkerMove s .worker s' := .call hc hw hm
  have hl := hp.sound.ledger
  have hph : s.worker.phase = some (call, pc.phase) := by rw [hw]; rfl
  cases hm with
  | yield hk ht => exact h.yields hwm hp hb hsize hw hk ht rfl
  | unfit hr =>
      obtain ⟨r, hr', -⟩ := writeRequest_of_fits (hp.sound.announced.fits call _ hw (.inl rfl))
      cases hr.symm.trans hr'
  | keeps _ => exact h.finish hwm hb hl hw rfl hc rfl rfl rfl (h.ending call _ (.inl hph))
  | @resetStore o =>
      refine h.finish hwm hb hl hw rfl hc rfl rfl ?_ (h.ending call _ (.inr hph))
      exact (SameGens.storeByWorker s call.chan .idle).gen call.chan
  | _ => exact h.silent hwm hb rfl

/-- The worker reads no chunk. -/
theorem WorkerMove.chunked {a : Action} (hm : WorkerMove s a s') {p : Pick} {bytes : Bytes}
    (h : .chunk p bytes ∈ s'.log) : .chunk p bytes ∈ s.log := by
  cases hm with
  | call _ _ hm =>
      cases hm with
      | unfit _ | yield _ _ | keeps _ | resetStore =>
          exact (List.mem_append.mp h).resolve_right (by simp)
      | _ => exact h
  | expireFirst _ _ _ =>
      have h := (List.mem_append.mp h).resolve_right (by simp)
      exact (List.mem_append.mp h).resolve_right (by simp)
  | expire _ _ _ => exact (List.mem_append.mp h).resolve_right (by simp)
  | _ => exact h

theorem WorkerMove.records {a : Action} (hm : WorkerMove s a s') (hp : Paced s)
    (hb : s.backends ≤ 1) (hsize : (s.region 0).size < 2 ^ 31) (h : Conveying s) : s'.Recorded := by
  have hwm := hm
  cases hm with
  | call hc hw hm => exact hm.records hw hc hp hb hsize h
  | expireFirst hw ht _ | expire hw ht _ =>
      exact (hp.lockstep.patient.not_timed hw ht).elim
  | _ => exact h.silent hwm hb rfl

theorem WorkerMove.ending {a : Action} (hm : WorkerMove s a s') (hp : Paced s)
    (hb : s.backends ≤ 1) (hsize : (s.region 0).size < 2 ^ 31) (h : Conveying s) {call : Call}
    {o : Outcome}
    (hw' : s'.worker.phase = some (call, .ending o) ∨
      s'.worker.phase = some (call, .resetting o)) : s'.Concludes call o := by
  cases hm with
  | construct _ _ | attached _ _ | resume _ _ _ => rcases hw' with hw' | hw' <;> cases hw'
  | start _ _ _ hpc =>
      subst hpc
      rcases hw' with hw' | hw' <;> rw [Sys.goto] at hw' <;> split at hw' <;> cases hw'
  | call _ hw hm => exact hm.ending hw hp hb hsize h hw'
  | expireFirst hw ht _ | expire hw ht _ =>
      exact (hp.lockstep.patient.not_timed hw ht).elim
  | close _ _ _ | closingCurrent _ _ | closingStale _ _ =>
      exact (h.ending call o hw').congr (.of_log rfl) rfl
  | @closingStore call0 _ =>
      exact (h.ending call o hw').congr (.of_log rfl)
        ((SameGens.storeByWorker s call0.chan .idle).gen call.chan)

/-! ## Generators at a `yield` -/

theorem CallMove.level {call : Call} {pc : Pc} (hm : CallMove s call pc s')
    (hw : s.worker = .run call pc) (hp : Paced s) (hb : s.backends ≤ 1)
    (hsize : (s.region 0).size < 2 ^ 31) (h : Conveying s) {call0 : Call}
    (hy : s'.Yielding call0) : s'.Level ⟨call0.gen, call0.request⟩ := by
  have hph : s.worker.phase = some (call, pc.phase) := by rw [hw]; rfl
  have hl := hp.sound.ledger
  have held : s'.worker.phase = none → s'.suspended = s.suspended → call0 ∈ s.suspended := by
    intro hw' hs'
    refine hs' ▸ hy.resolve_right fun hph' ↦ ?_
    cases hw'.symm.trans hph'
  have goes : s'.log = s.log → s'.suspended = s.suspended →
      s'.worker.phase ≠ some (call0, .resuming) → s'.Level ⟨call0.gen, call0.request⟩ := by
    intro hlog hs' hne
    exact (h.level call0 (.inl (hs' ▸ hy.resolve_right hne))).congr (.of_log hlog)
  cases hm with
  | @yield call' hk ht =>
      have hm0 := hy.resolve_right (by rintro ⟨⟩)
      have hlog : Sys.log ({ s with worker := .ready, suspended := s.suspended ++ [call'] }.logged
          (.yielded call' call'.parts.flatten)) = s.log ++ [.yielded call' call'.parts.flatten] := rfl
      have hlevel := (h.yielded hp hb hsize hw hk ht hlog).1
      obtain ⟨-, hgen, hreq⟩ := takeWindow_call (.inr ht)
      rcases List.mem_append.mp hm0 with hm0 | hm0
      · refine (h.level call0 (.inl hm0)).congr (.of_append rfl rfl ?_)
        have hchan := hl.chan_eq_zero (Sys.mem_calls_of_phase hph) hb
        have hchan0 := hl.chan_eq_zero (Sys.mem_calls_of_suspended hm0) hb
        have hne : call'.gen ≠ call0.gen := fun heq ↦ hl.suspended_ne_running hph hm0
          (Call.key_eq (hchan0.trans hchan.symm) (heq.symm.trans hgen))
        simp [Event.yieldOf, hne]
      · rw [List.mem_singleton.mp hm0, hgen, hreq]
        exact hlevel
  | unfit _ | keeps _ | resetStore =>
      exact (h.level call0 (.inl (held rfl rfl))).congr (.of_append rfl rfl rfl)
  | @answered w _ =>
      refine goes rfl rfl fun hph' ↦ ?_
      rw [Sys.goto, Worker.phase_run, Option.some.injEq, Prod.mk.injEq] at hph'
      rcases afterWait_phase call w (s.state call.chan) (s.region call.chan) with heq | ⟨_, heq⟩ <;>
        cases heq.symm.trans hph'.2
  | @loadStatus chunk _ _ => exact goes rfl rfl (by cases chunk <;> rintro ⟨⟩)
  | _ => exact goes rfl rfl (by rintro ⟨⟩)

theorem WorkerMove.level {a : Action} (hm : WorkerMove s a s') (hp : Paced s)
    (hb : s.backends ≤ 1) (hsize : (s.region 0).size < 2 ^ 31) (h : Conveying s) {call : Call}
    (hy : s'.Yielding call) : s'.Level ⟨call.gen, call.request⟩ := by
  cases hm with
  | construct _ _ | attached _ _ =>
      exact (h.level call (.inl (hy.resolve_right (by rintro ⟨⟩)))).congr (.of_log rfl)
  | start _ _ _ hpc =>
      refine (h.level call (.inl (hy.resolve_right fun hph ↦ ?_))).congr (.of_log rfl)
      subst hpc
      rw [Sys.goto] at hph
      split at hph <;> cases hph
  | @resume i call0 _ _ hi =>
      have hmem : call ∈ s.suspended := by
        rcases hy with hm | hph
        · exact List.mem_of_mem_eraseIdx hm
        · cases hph
          exact List.mem_of_getElem? hi
      exact (h.level call (.inl hmem)).congr (.of_log rfl)
  | call _ hw hm => exact hm.level hw hp hb hsize h hy
  | expireFirst hw ht _ | expire hw ht _ =>
      exact (hp.lockstep.patient.not_timed hw ht).elim
  | close _ _ _ =>
      exact (h.level call (hy.imp_left List.mem_of_mem_eraseIdx)).congr (.of_log rfl)
  | closingCurrent _ _ | closingStale _ _ | closingStore _ =>
      exact (h.level call hy).congr (.of_log rfl)

/-! ## The newest RPC -/

theorem CallMove.abreast {call : Call} {pc : Pc} (hm : CallMove s call pc s')
    (hw : s.worker = .run call pc) (hp : Paced s) (hb : s.backends ≤ 1) (h : Conveying s)
    (hq : s'.posted 0 = some q) (hne : ∀ call, s'.worker.phase ≠ some (call, .preparing)) :
    (s'.backend 0).gen = q.gen := by
  have hph : s.worker.phase = some (call, pc.phase) := by rw [hw]; rfl
  have hchan := hp.sound.ledger.chan_eq_zero (Sys.mem_calls_of_phase hph) hb
  have same : SameGens s s' → pc.phase ≠ .preparing → (s'.backend 0).gen = q.gen := by
    intro hg hpc
    refine (hg.gen 0).trans (h.abreast q (hg.posted ▸ hq) fun call0 hph0 ↦ hpc ?_)
    exact (Prod.mk.inj (Option.some.inj (hph.symm.trans hph0))).2
  cases hm with
  | grow _ | announce => exact absurd rfl (hne call)
  | marshal _ =>
      have hruns := (hp.sound.ledger.running call _ hph).1
      rw [hchan] at hruns
      have hposted : q = ⟨call.gen, call.request⟩ := by
        change Function.update s.posted call.chan (some ⟨call.gen, call.request⟩) 0 = some q at hq
        rw [hchan, Function.update_self] at hq
        exact (Option.some.inj hq).symm
      rw [hposted, Sys.backend_marshalled]
      exact (Sys.gen_setCtrl ..).trans hruns.symm
  | unfit hr =>
      obtain ⟨r, hr', -⟩ := writeRequest_of_fits (hp.sound.announced.fits call _ hw (.inl rfl))
      cases hr.symm.trans hr'
  | storeReady | ackWindow | ackChunk | resetStore =>
      exact same (.congr (.storeByWorker s call.chan _) rfl rfl rfl) (by rintro ⟨⟩)
  | @storeLength off =>
      refine same (.congr (.setCtrl s call.chan (fun ctrl ↦ { ctrl with length := toInt32 off })
        fun _ ↦ rfl) rfl rfl rfl) (by rintro ⟨⟩)
  | storeSeq =>
      refine same (.congr (.setCtrl s call.chan (fun ctrl ↦ { ctrl with seq := 0 })
        fun _ ↦ rfl) rfl rfl rfl) (by rintro ⟨⟩)
  | _ => exact same (.of_eq rfl rfl rfl) (by rintro ⟨⟩)

theorem WorkerMove.abreast {a : Action} (hm : WorkerMove s a s') (ha : s.OneBackend a)
    (hp : Paced s) (hb : s.backends ≤ 1) (h : Conveying s) (hq : s'.posted 0 = some q)
    (hne : ∀ call, s'.worker.phase ≠ some (call, .preparing)) : (s'.backend 0).gen = q.gen := by
  cases hm with
  | construct _ _ =>
      have hzero : s.backends = 0 := ha
      cases (hp.sound.ledger.unused 0 hzero.le).symm.trans hq
  | @start c req pc hc hw hlt hpc =>
      refine absurd ?_ (hne { chan := c, gen := (s.backend c).gen + 1, request := req })
      rw [Sys.goto, Worker.phase_run, hpc]
      split <;> rfl
  | attached _ hw => exact h.abreast q hq fun call hph ↦ (by rw [hw] at hph; cases hph)
  | resume _ hw _ => exact h.abreast q hq fun call hph ↦ (by rw [hw] at hph; cases hph)
  | call _ hw hm => exact hm.abreast hw hp hb h hq hne
  | expireFirst hw ht _ | expire hw ht _ =>
      exact (hp.lockstep.patient.not_timed hw ht).elim
  | close _ _ _ | closingCurrent _ _ | closingStale _ _ => exact h.abreast q hq hne
  | @closingStore call _ =>
      exact ((SameGens.storeByWorker s call.chan .idle).gen 0).trans (h.abreast q hq hne)

/-- The worker's steps keep the messages in their places. -/
theorem WorkerMove.conveying {a : Action} (hm : WorkerMove s a s') (ha : s.OneBackend a)
    (hp : Paced s) (hb : s.backends ≤ 1) (hsize : (s.region 0).size < 2 ^ 31) (h : Conveying s) :
    Conveying s' where
  ordered := (hm.records hp hb hsize h).ordered
  chunked p bytes he := by
    rw [hm.picks]
    exact h.chunked p bytes (hm.chunked he)
  conveys q hq := hm.conveys ha hp hb hsize h hq
  begun := (hm.begun hp hb h).1
  held := (hm.begun hp hb h).2
  level _ hy := hm.level hp hb hsize h hy
  abreast _ hq hne := hm.abreast ha hp hb h hq hne
  ending _ _ hw' := hm.ending hp hb hsize h hw'
  returned := (hm.records hp hb hsize h).returned

end

end ConnectWeb.Sab
