import ConnectWeb.Sab.Moves
import Mathlib.Data.List.Perm.Subperm

/-!
# Generations

Each call that is not over knows how its generation compares with the one in GEN, which is
the generation of the request stored last.  The comparisons of the code are between `Int32`
readings, so they tell two generations apart only while less than `2 ^ 32` requests lie
between them: `NoWrap`.
-/

namespace ConnectWeb.Sab

def Call.key (call : Call) : Nat × Nat := (call.chan, call.gen)

theorem Call.key_eq {call call' : Call} (hchan : call'.chan = call.chan)
    (hgen : call'.gen = call.gen) : call'.key = call.key := by
  rw [Call.key, Call.key, hchan, hgen]

theorem takeWindow_key {call call' : Call} {d : Region} {length : Int}
    (h : takeWindow call d length = .more call' ∨ takeWindow call d length = .last call') :
    call'.key = call.key := by
  obtain ⟨hchan, hgen, -⟩ := takeWindow_call h
  exact Call.key_eq hchan hgen

namespace Sys

/-- The calls that are not over, as channel and generation. -/
def keys (s : Sys) : List (Nat × Nat) := s.calls.map Call.key

/-- The request stored last is the call's own. -/
def Current (s : Sys) (call : Call) : Prop :=
  s.posted call.chan = some ⟨call.gen, call.request⟩

/-- A newer request has been stored. -/
def Superseded (s : Sys) (call : Call) : Prop :=
  ∃ q, s.posted call.chan = some q ∧ call.gen < q.gen

/-- GEN has not come round to the call's generation again. -/
def NoWrap (s : Sys) (call : Call) : Prop :=
  ∀ q, s.posted call.chan = some q → q.gen < call.gen + 2 ^ 32

/-- How the generation of a running call compares. -/
def Runs (s : Sys) (call : Call) : Phase → Prop
  | .preparing =>
      call.gen = (s.backend call.chan).gen ∧ ∀ q, s.posted call.chan = some q → q.gen < call.gen
  | .resuming => (s.Current call ∨ s.Superseded call) ∧ s.NoWrap call
  | .ending _ => s.Current call ∨ (s.backend call.chan).ctrl.gen ≠ call.gen
  | _ => s.Current call

end Sys

/-- The state of the generations. -/
structure Ledger (s : Sys) : Prop where
  unused : ∀ c, s.backends ≤ c → s.posted c = none
  bounds : ∀ k ∈ s.keys, k.1 < s.backends ∧ k.2 ≤ (s.backend k.1).gen
  nodup : s.keys.Nodup
  word : ∀ c q, s.posted c = some q →
    (s.backend c).ctrl.gen = toInt32 q.gen ∧ q.gen ≤ (s.backend c).gen
  running : ∀ call ph, s.worker.phase = some (call, ph) → s.Runs call ph
  held : ∀ call ∈ s.suspended, s.Current call ∨ s.Superseded call
  closing : ∀ cl, s.closing = some cl → (s.Current cl.call ∨ s.Superseded cl.call) ∧
    s.NoWrap cl.call ∧ (cl.loaded = true → s.Current cl.call)

/-- What a step leaves that only the worker's own requests change. -/
structure SameGens (s s' : Sys) : Prop where
  backends : s'.backends = s.backends
  gen : ∀ c, (s'.backend c).gen = (s.backend c).gen
  word : ∀ c, (s'.backend c).ctrl.gen = (s.backend c).ctrl.gen
  posted : s'.posted = s.posted

theorem SameGens.congr {s s1 s2 : Sys} (h : SameGens s s1) (hb : s2.backends = s1.backends)
    (hg : s2.backend = s1.backend) (hp : s2.posted = s1.posted) : SameGens s s2 := by
  refine ⟨hb.trans h.backends, fun c ↦ ?_, fun c ↦ ?_, hp.trans h.posted⟩
  · rw [hg]
    exact h.gen c
  · rw [hg]
    exact h.word c

theorem SameGens.of_eq {s s' : Sys} (hb : s'.backends = s.backends) (hg : s'.backend = s.backend)
    (hp : s'.posted = s.posted) : SameGens s s' :=
  SameGens.congr ⟨rfl, fun _ ↦ rfl, fun _ ↦ rfl, rfl⟩ hb hg hp

theorem SameGens.setCtrl (s : Sys) (c : Nat) (f : Control → Control)
    (h : ∀ x, (f x).gen = x.gen) : SameGens s (s.setCtrl c f) :=
  ⟨rfl, fun c' ↦ Sys.gen_setCtrl s c c' f, fun c' ↦ Sys.ctrl_setCtrl_keeps s c c' f Control.gen h,
    rfl⟩

theorem SameGens.storeByWorker (s : Sys) (c : Nat) (st : SabState) :
    SameGens s (s.storeByWorker c st) :=
  (SameGens.setCtrl s c (fun ctrl ↦ { ctrl with state := st }) fun _ ↦ rfl).congr rfl rfl rfl

theorem SameGens.attachData (s : Sys) (c capacity : Nat) : SameGens s (s.attachData c capacity) := by
  refine ⟨rfl, fun c' ↦ ?_, fun c' ↦ ?_, rfl⟩
  all_goals
    by_cases h : c' = c
    · subst h
      simp [Sys.attachData, Sys.setBackend]
    · simp [Sys.attachData, Sys.setBackend, h]

theorem SameGens.runs {s s' : Sys} (h : SameGens s s') {call : Call} {ph : Phase}
    (hr : s.Runs call ph) : s'.Runs call ph := by
  cases ph <;>
    simpa only [Sys.Runs, Sys.Current, Sys.Superseded, Sys.NoWrap, h.gen, h.word, h.posted] using hr

/-! ## Comparisons -/

/-- A call whose own request is the last one stored is the only one of its channel. -/
theorem Sys.Current.not_of_key_ne {s : Sys} {call call' : Call} (hc : s.Current call)
    (hchan : call'.chan = call.chan) (hne : call'.key ≠ call.key) : ¬ s.Current call' := by
  intro hc'
  rw [Sys.Current, hchan, hc, Option.some.injEq, Posted.mk.injEq] at hc'
  exact hne (Call.key_eq hchan hc'.1.symm)

namespace Ledger

variable {s : Sys} (h : Ledger s)

include h in
/-- A comparison with GEN that comes out equal is right. -/
theorem current_of_word {call : Call} (hh : s.Current call ∨ s.Superseded call)
    (hw : s.NoWrap call) (hg : (s.backend call.chan).ctrl.gen = call.gen) : s.Current call := by
  rcases hh with hh | ⟨q, hq, hlt⟩
  · exact hh
  · have hword := (h.word _ q hq).1
    rw [hg] at hword
    have := eq_of_toInt32_eq hword.symm hlt.le (hw q hq)
    omega

include h in
theorem current_of_ending {call : Call} {o : Outcome}
    (hw : s.worker.phase = some (call, .ending o))
    (hg : (s.backend call.chan).ctrl.gen = call.gen) : s.Current call := by
  rcases h.running _ _ hw with hc | hne
  · exact hc
  · exact absurd hg hne

include h in
theorem chan_lt {call : Call} (hm : call ∈ s.calls) : call.chan < s.backends :=
  (h.bounds _ (List.mem_map_of_mem hm)).1

include h in
/-- With one backend there is one channel. -/
theorem chan_eq_zero {call : Call} (hm : call ∈ s.calls) (hb : s.backends ≤ 1) : call.chan = 0 := by
  have := h.chan_lt hm
  omega

include h in
theorem gen_le {call : Call} (hm : call ∈ s.calls) : call.gen ≤ (s.backend call.chan).gen :=
  (h.bounds _ (List.mem_map_of_mem hm)).2

/-- Two calls that are not over differ in channel or generation. -/
theorem key_ne_of_split {call call' : Call} {l : List Call} (h : (l.map Call.key).Nodup)
    (hl : ∃ l1 l2, l = l1 ++ call :: l2 ∧ (call' ∈ l1 ∨ call' ∈ l2)) : call'.key ≠ call.key := by
  obtain ⟨l1, l2, rfl, hm⟩ := hl
  rw [List.map_append, List.map_cons, List.nodup_append, List.nodup_cons] at h
  obtain ⟨-, ⟨hnot, -⟩, hdisj⟩ := h
  rintro heq
  rcases hm with hm | hm
  · exact hdisj _ (List.mem_map_of_mem hm) _ (List.mem_cons_self ..) heq
  · exact hnot (heq ▸ List.mem_map_of_mem hm)

include h in
theorem closing_ne_running {call : Call} {ph : Phase} {cl : Closing}
    (hw : s.worker.phase = some (call, ph)) (hc : s.closing = some cl) :
    cl.call.key ≠ call.key := by
  refine key_ne_of_split (l := s.calls) h.nodup ⟨[], cl.call :: s.suspended, ?_, .inr ?_⟩
  · rw [Sys.calls, Worker.call_of_phase hw, hc]
    rfl
  · exact List.mem_cons_self ..

include h in
theorem suspended_ne_running {call call' : Call} {ph : Phase}
    (hw : s.worker.phase = some (call, ph)) (hs : call' ∈ s.suspended) :
    call'.key ≠ call.key := by
  refine key_ne_of_split (l := s.calls) h.nodup
    ⟨[], (s.closing.map Closing.call).toList ++ s.suspended, ?_, .inr ?_⟩
  · rw [Sys.calls, Worker.call_of_phase hw]
    simp
  · exact List.mem_append_right _ hs

include h in
theorem suspended_ne_closing {call : Call} {cl : Closing} (hc : s.closing = some cl)
    (hs : call ∈ s.suspended) : call.key ≠ cl.call.key := by
  refine key_ne_of_split (l := s.calls) h.nodup
    ⟨s.worker.call.toList, s.suspended, ?_, .inr hs⟩
  rw [Sys.calls, hc]
  simp

end Ledger

/-! ## Steps -/

theorem Ledger.init : Ledger {} where
  unused _ _ := rfl
  bounds k hk := by simp [Sys.keys, Sys.calls, Worker.call] at hk
  nodup := by simp [Sys.keys, Sys.calls, Worker.call]
  word c q hq := by cases hq
  running call ph hw := by cases hw
  held call hm := by cases hm
  closing cl hc := by cases hc

/-- A step that stores no request: calls go on, change their place, or end. -/
theorem Ledger.moved {s s' : Sys} (h : Ledger s) (hg : SameGens s s')
    (hk : s'.keys.Subperm s.keys)
    (hr : ∀ call ph, s'.worker.phase = some (call, ph) → s.Runs call ph)
    (hs : ∀ call ∈ s'.suspended, s.Current call ∨ s.Superseded call)
    (hc : ∀ cl, s'.closing = some cl → (s.Current cl.call ∨ s.Superseded cl.call) ∧
      s.NoWrap cl.call ∧ (cl.loaded = true → s.Current cl.call)) : Ledger s' := by
  refine ⟨?_, ?_, ?_, ?_, ?_, ?_, ?_⟩
  · rw [hg.backends, hg.posted]
    exact h.unused
  · intro k hk'
    rw [hg.backends, hg.gen]
    exact h.bounds k (hk.subset hk')
  · obtain ⟨l, hp, hsub⟩ := hk
    exact hp.nodup_iff.mp (hsub.nodup h.nodup)
  · intro c q hq
    rw [hg.posted] at hq
    rw [hg.gen, hg.word]
    exact h.word c q hq
  · intro call ph hw
    exact hg.runs (hr call ph hw)
  · simpa only [Sys.Current, Sys.Superseded, hg.posted] using hs
  · simpa only [Sys.Current, Sys.Superseded, Sys.NoWrap, hg.posted] using hc

/-- A step that leaves the calls alone. -/
theorem Ledger.same {s s' : Sys} (h : Ledger s) (hg : SameGens s s')
    (hp : s'.worker.phase = s.worker.phase) (hc : s'.worker.call = s.worker.call)
    (hcl : s'.closing = s.closing) (hs : s'.suspended = s.suspended) : Ledger s' := by
  refine h.moved hg ?_ ?_ ?_ ?_
  · rw [Sys.keys, Sys.calls, hc, hcl, hs]
    exact List.Subperm.refl _
  · rw [hp]
    exact h.running
  · rw [hs]
    exact h.held
  · rw [hcl]
    exact h.closing

/-- The running call goes on. -/
theorem Ledger.goto {s s' : Sys} {call call' : Call} {pc pc' : Pc} (h : Ledger s)
    (hg : SameGens s s') (hw : s.worker = .run call pc) (hw' : s'.worker = .run call' pc')
    (hkey : call'.chan = call.chan ∧ call'.gen = call.gen ∧ call'.request = call.request)
    (hcl : s'.closing = s.closing) (hs : s'.suspended = s.suspended)
    (hr : s.Runs call pc.phase → s.Runs call pc'.phase) : Ledger s' := by
  refine h.moved hg ?_ ?_ ?_ ?_
  · have hk : s'.keys = s.keys := by
      rw [Sys.keys, Sys.keys, Sys.calls, Sys.calls, hw, hw', hcl, hs]
      simp [Call.key, hkey.1, hkey.2.1]
    exact hk ▸ List.Subperm.refl _
  · intro call0 ph hw0
    rw [hw'] at hw0
    cases hw0
    have := hr (h.running call pc.phase (by rw [hw]; rfl))
    cases hph : pc'.phase <;> rw [hph] at this <;>
      simpa only [Sys.Runs, Sys.Current, Sys.Superseded, Sys.NoWrap, hkey] using this
  · rw [hs]
    exact h.held
  · rw [hcl]
    exact h.closing

/-- The running call is over. -/
theorem Ledger.finish {s s' : Sys} (h : Ledger s) (hg : SameGens s s')
    (hw' : s'.worker = .ready) (hcl : s'.closing = s.closing) (hs : s'.suspended = s.suspended) :
    Ledger s' := by
  refine h.moved hg ?_ ?_ ?_ ?_
  · rw [Sys.keys, Sys.keys, Sys.calls, Sys.calls, hw', hcl, hs, Worker.call_ready]
    refine (List.Sublist.map _ (List.Sublist.append_right ?_ _)).subperm
    exact List.sublist_append_right ..
  · intro call ph hw
    rw [hw'] at hw
    cases hw
  · rw [hs]
    exact h.held
  · rw [hcl]
    exact h.closing

theorem afterWait_phase (call : Call) (w : Wait) (st : SabState) (d : Region) :
    (afterWait call w st d).2.phase = .reading ∨
      ∃ o, (afterWait call w st d).2.phase = .ending o := by
  unfold afterWait
  split
  all_goals first
    | exact .inl rfl
    | exact .inr ⟨_, rfl⟩

theorem Sys.backend_marshalled (s : Sys) (call : Call) (r : Region) :
    (s.marshalled call r).backend =
      (s.setCtrl call.chan fun ctrl ↦ { ctrl with gen := toInt32 call.gen }).backend :=
  rfl

/-- The request is stored. -/
theorem Ledger.marshalled {s : Sys} (h : Ledger s) {call : Call} (hc : s.closing = none)
    (hw : s.worker = .run call .marshal) (r : Region) : Ledger (s.marshalled call r) := by
  have hrun : s.Runs call .preparing := h.running call _ (by rw [hw]; rfl)
  obtain ⟨hgen, hold⟩ := hrun
  have hmem : call ∈ s.calls := Sys.mem_calls_of_phase (by rw [hw]; rfl)
  have hposted : ∀ c, (s.marshalled call r).posted c =
      if c = call.chan then some ⟨call.gen, call.request⟩ else s.posted c := by
    intro c
    change Function.update s.posted call.chan (some ⟨call.gen, call.request⟩) c = _
    rw [Function.update_apply]
  have hctrl : ∀ c, ((s.marshalled call r).backend c).ctrl.gen =
      if c = call.chan then toInt32 call.gen else (s.backend c).ctrl.gen := by
    intro c
    rw [Sys.backend_marshalled, Sys.ctrl_setCtrl]
    split <;> rfl
  have hgen' : ∀ c, ((s.marshalled call r).backend c).gen = (s.backend c).gen := by
    intro c
    rw [Sys.backend_marshalled, Sys.gen_setCtrl]
  have hkeys : (s.marshalled call r).keys = s.keys := by
    rw [Sys.keys, Sys.keys, Sys.calls, Sys.calls, hw]
    rfl
  -- what is suspended on the channel is older than the request
  have older : ∀ call' ∈ s.suspended, call'.chan = call.chan → call'.gen < call.gen := by
    intro call' hm hchan
    have hle := h.gen_le (Sys.mem_calls_of_suspended hm)
    have hne := h.suspended_ne_running (show s.worker.phase = some (call, .preparing) by rw [hw]; rfl) hm
    rw [hchan, ← hgen] at hle
    exact lt_of_le_of_ne hle fun heq ↦ hne (Call.key_eq hchan heq)
  refine ⟨?_, ?_, ?_, ?_, ?_, ?_, ?_⟩
  · intro c hle
    rw [hposted, if_neg]
    · exact h.unused c hle
    · rintro rfl
      exact absurd (h.chan_lt hmem) (not_lt.mpr hle)
  · intro k hk
    rw [hgen']
    exact h.bounds k (hkeys ▸ hk)
  · rw [hkeys]
    exact h.nodup
  · intro c q hq
    rw [hposted] at hq
    rw [hctrl, hgen']
    split at hq
    · rename_i heq
      cases hq
      rw [if_pos heq, heq, hgen]
      exact ⟨rfl, le_rfl⟩
    · rename_i hne
      rw [if_neg hne]
      exact h.word c q hq
  · intro call' ph hw'
    cases hw'
    change (s.marshalled call r).posted call.chan = _
    rw [hposted, if_pos rfl]
  · intro call' hm
    change call' ∈ s.suspended at hm
    by_cases hchan : call'.chan = call.chan
    · refine .inr ⟨⟨call.gen, call.request⟩, ?_, older call' hm hchan⟩
      rw [hposted, if_pos hchan]
    · rw [Sys.Current, Sys.Superseded, hposted, if_neg hchan]
      exact h.held call' hm
  · intro cl hcl
    change s.closing = some cl at hcl
    rw [hc] at hcl
    cases hcl

theorem CallMove.ledger {s s' : Sys} {call : Call} {pc : Pc} (hm : CallMove s call pc s')
    (hc : s.closing = none) (hw : s.worker = .run call pc) (h : Ledger s) : Ledger s' := by
  have same : call.chan = call.chan ∧ call.gen = call.gen ∧ call.request = call.request :=
    ⟨rfl, rfl, rfl⟩
  cases hm with
  | grow _ =>
      have hg := SameGens.attachData s call.chan ‹_›
      exact h.goto (hg.congr rfl rfl rfl) hw rfl same rfl rfl id
  | announce => exact h.goto (.of_eq rfl rfl rfl) hw rfl same rfl rfl id
  | marshal _ => exact h.marshalled hc hw _
  | unfit _ => exact h.finish (.of_eq rfl rfl rfl) rfl rfl rfl
  | @storeLength off =>
      have hg := SameGens.setCtrl s call.chan (fun ctrl ↦ { ctrl with length := toInt32 off })
        fun _ ↦ rfl
      exact h.goto (hg.congr rfl rfl rfl) hw rfl same rfl rfl id
  | storeSeq =>
      have hg := SameGens.setCtrl s call.chan (fun ctrl ↦ { ctrl with seq := 0 }) fun _ ↦ rfl
      exact h.goto (hg.congr rfl rfl rfl) hw rfl same rfl rfl id
  | storeReady =>
      have hg := SameGens.storeByWorker s call.chan .reqReady
      exact h.goto (hg.congr rfl rfl rfl) hw rfl same rfl rfl id
  | nudge => exact h.goto (.of_eq rfl rfl rfl) hw rfl same rfl rfl id
  | due _ => exact h.goto (.of_eq rfl rfl rfl) hw rfl same rfl rfl id
  | @answered w _ =>
      refine h.goto (.of_eq rfl rfl rfl) hw rfl (afterWait_call ..) rfl rfl fun hr ↦ ?_
      rcases afterWait_phase call w (s.state call.chan) (s.region call.chan) with hph | ⟨o, hph⟩ <;>
        rw [hph]
      · exact hr
      · exact .inl hr
  | park _ => exact h.goto (.of_eq rfl rfl rfl) hw rfl same rfl rfl id
  | notEqual _ => exact h.goto (.of_eq rfl rfl rfl) hw rfl same rfl rfl id
  | @loadStatus chunk call' hcall =>
      subst hcall
      refine h.goto (.of_eq rfl rfl rfl) hw rfl same rfl rfl fun hr ↦ ?_
      cases chunk with
      | true => exact hr
      | false => exact .inl hr
  | malformed _ => exact h.goto (.of_eq rfl rfl rfl) hw rfl same rfl rfl .inl
  | more ht => exact h.goto (.of_eq rfl rfl rfl) hw rfl (takeWindow_call (.inl ht)) rfl rfl id
  | complete _ ht => exact h.goto (.of_eq rfl rfl rfl) hw rfl (takeWindow_call (.inr ht)) rfl rfl .inl
  | @yield call' _ ht =>
      have hkey := takeWindow_call (.inr ht)
      refine h.moved (.of_eq rfl rfl rfl) ?_ ?_ ?_ h.closing
      · refine List.Perm.subperm ?_
        have : call'.key = call.key := takeWindow_key (.inr ht)
        simp [Sys.keys, Sys.calls, Sys.logged, hw, hc, this]
      · intro call0 ph hw0
        cases hw0
      · intro call0 hm
        rcases List.mem_append.mp hm with hm | hm
        · exact h.held call0 hm
        · cases List.mem_singleton.mp hm
          refine .inl ?_
          have hcur : s.Current call := h.running call .reading (by rw [hw]; rfl)
          rw [Sys.Current, hkey.1, hkey.2.1, hkey.2.2]
          exact hcur
  | ackWindow =>
      have hg := SameGens.storeByWorker s call.chan .chunkAck
      exact h.goto (hg.congr rfl rfl rfl) hw rfl same rfl rfl id
  | current hgen =>
      exact h.goto (.of_eq rfl rfl rfl) hw rfl same rfl rfl fun hr ↦ h.current_of_word hr.1 hr.2 hgen
  | stale hgen => exact h.goto (.of_eq rfl rfl rfl) hw rfl same rfl rfl fun _ ↦ .inr hgen
  | ackChunk =>
      have hg := SameGens.storeByWorker s call.chan .chunkAck
      exact h.goto (hg.congr rfl rfl rfl) hw rfl same rfl rfl id
  | resets hgen =>
      exact h.goto (.of_eq rfl rfl rfl) hw rfl same rfl rfl fun _ ↦
        h.current_of_ending (by rw [hw]; rfl) hgen
  | keeps _ => exact h.finish (.of_eq rfl rfl rfl) rfl rfl rfl
  | resetStore =>
      have hg := SameGens.storeByWorker s call.chan .idle
      exact h.finish (hg.congr rfl rfl rfl) rfl rfl rfl

/-- GEN does not come round to a suspended call's generation before the call goes on. -/
def Sys.Unwrapped (s : Sys) : Action → Prop
  | .resume i | .close i => ∀ call, s.suspended[i]? = some call → s.NoWrap call
  | _ => True

theorem WorkerMove.ledger {s s' : Sys} {a : Action} (hm : WorkerMove s a s')
    (ha : s.Unwrapped a) (h : Ledger s) : Ledger s' := by
  cases hm with
  | construct hc hw =>
      have hg := SameGens.attachData { s with backends := s.backends + 1 } s.backends ‹_›
      refine ⟨?_, ?_, ?_, ?_, ?_, h.held, h.closing⟩
      · exact fun c hle ↦ h.unused c (Nat.le_of_succ_le hle)
      · intro k hk
        have hk' : k ∈ s.keys := by
          simpa [Sys.keys, Sys.calls, Sys.attachData, Sys.setBackend, hw, hc] using hk
        exact ⟨Nat.lt_succ_of_lt (h.bounds k hk').1, le_of_le_of_eq (h.bounds k hk').2 (hg.gen _).symm⟩
      · have := h.nodup
        simpa [Sys.keys, Sys.calls, Sys.attachData, Sys.setBackend, hw, hc] using this
      · intro c q hq
        obtain ⟨hword, hle⟩ := h.word c q hq
        exact ⟨(hg.word c).trans hword, hle.trans_eq (hg.gen c).symm⟩
      · intro call ph hw'
        cases hw'
  | attached hc hw =>
      exact h.finish (.of_eq rfl rfl rfl) rfl rfl rfl
  | @start c req pc hc hw hlt hpc =>
      have hgen : ∀ c', ((s.setBackend c fun b ↦ { b with gen := (s.backend c).gen + 1 }).backend c').gen
          = if c' = c then (s.backend c).gen + 1 else (s.backend c').gen := by
        intro c'
        by_cases heq : c' = c
        · subst heq
          simp [Sys.setBackend]
        · simp [Sys.setBackend, heq]
      have hle : ∀ c', (s.backend c').gen ≤
          ((s.setBackend c fun b ↦ { b with gen := (s.backend c).gen + 1 }).backend c').gen := by
        intro c'
        rw [hgen]
        split
        · rename_i heq
          rw [heq]
          exact Nat.le_succ _
        · exact le_rfl
      have hkeys : Sys.keys ((s.setBackend c fun b ↦ { b with gen := (s.backend c).gen + 1 }).goto
          { chan := c, gen := (s.backend c).gen + 1, request := req } pc) =
          (c, (s.backend c).gen + 1) :: s.keys := by
        simp [Sys.keys, Sys.calls, Sys.goto, Sys.setBackend, hw, hc, Call.key]
      refine ⟨h.unused, ?_, ?_, ?_, ?_, h.held, h.closing⟩
      · intro k hk
        rw [hkeys] at hk
        rcases List.mem_cons.mp hk with rfl | hk
        · refine ⟨hlt, le_of_eq ?_⟩
          exact ((hgen c).trans (if_pos rfl)).symm
        · exact ⟨(h.bounds k hk).1, (h.bounds k hk).2.trans (hle k.1)⟩
      · rw [hkeys, List.nodup_cons]
        refine ⟨fun hmem ↦ ?_, h.nodup⟩
        have := (h.bounds _ hmem).2
        simp only at this
        omega
      · intro c' q hq
        obtain ⟨hq1, hq2⟩ := h.word c' q hq
        exact ⟨(congrArg Control.gen (Sys.ctrl_setGen s c c' _)).trans hq1, hq2.trans (hle c')⟩
      · intro call ph hw'
        cases hw'
        have hph : pc.phase = .preparing := by
          rw [hpc]
          split <;> rfl
        rw [hph]
        refine ⟨((hgen c).trans (if_pos rfl)).symm, fun q hq ↦ ?_⟩
        exact Nat.lt_succ_of_le (h.word c q hq).2
  | @resume i call hc hw hi =>
      have hmem := List.mem_of_getElem? hi
      refine h.moved (.of_eq rfl rfl rfl) ?_ ?_ ?_ h.closing
      · refine List.Perm.subperm ?_
        have hlt := (List.getElem?_eq_some_iff.mp hi).1
        have heq := (List.getElem?_eq_some_iff.mp hi).2
        have := (List.getElem_cons_eraseIdx_perm hlt).map Call.key
        rw [heq] at this
        simpa [Sys.keys, Sys.calls, Sys.goto, hw, hc] using this
      · intro call' ph hw'
        cases hw'
        exact ⟨h.held call hmem, ha call hi⟩
      · exact fun call' hm ↦ h.held call' (List.mem_of_mem_eraseIdx hm)
  | call hc hw hm => exact hm.ledger hc hw h
  | expireFirst hw _ _ => exact h.finish (.of_eq rfl rfl rfl) rfl rfl rfl
  | expire hw _ _ => exact h.goto (.of_eq rfl rfl rfl) hw rfl ⟨rfl, rfl, rfl⟩ rfl rfl .inl
  | @close i call hc hi _ =>
      have hmem := List.mem_of_getElem? hi
      refine h.moved (.of_eq rfl rfl rfl) ?_ h.running ?_ ?_
      · refine List.Perm.subperm ?_
        have hlt := (List.getElem?_eq_some_iff.mp hi).1
        have heq := (List.getElem?_eq_some_iff.mp hi).2
        have := ((List.getElem_cons_eraseIdx_perm hlt).map Call.key).append_left
          (s.worker.call.toList.map Call.key)
        rw [heq] at this
        simpa [Sys.keys, Sys.calls, hc] using this
      · exact fun call' hm ↦ h.held call' (List.mem_of_mem_eraseIdx hm)
      · rintro cl hcl
        cases hcl
        exact ⟨h.held call hmem, ha call hi, by simp⟩
  | @closingCurrent call hc hgen =>
      obtain ⟨hh, hn, -⟩ := h.closing _ hc
      refine h.moved (.of_eq rfl rfl rfl) ?_ h.running h.held ?_
      · refine List.Perm.subperm ?_
        simp [Sys.keys, Sys.calls, hc]
      · rintro cl hcl
        cases hcl
        exact ⟨hh, hn, fun _ ↦ h.current_of_word hh hn hgen⟩
  | closingStale hc _ =>
      refine h.moved (.of_eq rfl rfl rfl) ?_ h.running h.held (by simp)
      refine List.Sublist.subperm (List.Sublist.map _ ?_)
      simp [Sys.calls]
  | @closingStore call hc =>
      have hg := SameGens.storeByWorker s call.chan .idle
      refine h.moved (hg.congr rfl rfl rfl) ?_ h.running h.held (by simp)
      refine List.Sublist.subperm (List.Sublist.map _ ?_)
      simp [Sys.calls, Sys.storeByWorker, Sys.wrote, Sys.setCtrl, Sys.setBackend]

/-- The main thread stores no generation. -/
theorem MainMove.ledger {engine : Engine} {s s' : Sys} (hm : MainMove engine s s')
    (h : Ledger s) : Ledger s' := by
  cases hm with
  | @store c _ t _ _ status _ _ _ _ _ _ _ _ =>
      have hg := SameGens.setCtrl s c (fun ctrl ↦ { ctrl with status := toInt32 status })
        fun _ ↦ rfl
      exact h.same (hg.congr rfl rfl rfl) rfl rfl rfl rfl
  | @storeLength c off _ _ _ _ _ _ _ =>
      have hg := SameGens.setCtrl s c (fun ctrl ↦ { ctrl with length := toInt32 off })
        fun _ ↦ rfl
      exact h.same (hg.congr rfl rfl rfl) rfl rfl rfl rfl
  | @storeState c _ state _ _ _ _ _ _ _ =>
      have hg := SameGens.setCtrl s c (fun ctrl ↦ { ctrl with state }) fun _ ↦ rfl
      exact h.same (hg.congr rfl rfl rfl) (Worker.phase_wake ..) (Worker.call_wake ..) rfl rfl
  | _ => exact h.same (.of_eq rfl rfl rfl) rfl rfl rfl rfl

theorem Move.ledger {engine : Engine} {s s' : Sys} {a : Action} (hm : Move engine s a s')
    (ha : s.Unwrapped a) (h : Ledger s) : Ledger s' := by
  cases hm with
  | worker hm => exact hm.ledger ha h
  | main _ _ hm => exact hm.ledger h

end ConnectWeb.Sab
