import ConnectWeb.Sab.Capacity
import ConnectWeb.Sab.Ledger

/-!
# Announcements of data SABs

Data SABs are numbered in the order of their allocation, and the announcements are taken in
the order in which they are posted.  So what the bridge has attached, what is on its way and
what is about to be posted is one increasing sequence, and it ends with the buffer of the
newest channel: once the bridge has that one, no announcement is left.

Everything from here on is about runs in which only the newest channel is used.
-/

namespace ConnectWeb.Sab

/-- The phases in which a call of an older channel finds that it is over. -/
def Phase.retires : Phase → Bool
  | .resuming | .ending _ => true
  | _ => false

theorem Phase.not_retires_of_engaged {ph : Phase} (h : ph.engaged = true) : ph.retires = false := by
  cases ph <;> first
    | rfl
    | cases h

def Message.announcement : Message → Option (Nat × Nat)
  | .sab c d => some (c, d)
  | .rpc => none

/-- The announcement that the worker is about to post. -/
def Worker.announcing : Worker → Option (Nat × Nat)
  | .attaching c d => some (c, d)
  | .run call (.announce d) => some (call.chan, d)
  | _ => none

theorem Worker.announcing_wake (c : Nat) (w : Worker) : (w.wake c).announcing = w.announcing := by
  unfold Worker.wake
  split
  · split <;> rfl
  · rfl

namespace Sys

/-- What is attached, then what is on its way. -/
def announcements (s : Sys) : List (Nat × Nat) :=
  (s.bridge.ctrl.map fun c ↦ (c, s.bridge.data)).toList ++
    (s.queue.filterMap Message.announcement ++ s.worker.announcing.toList)

/-- RPCs are started on the newest channel, and streams of older ones are not resumed unless
they are superseded. -/
def OnNewest (s : Sys) : Action → Prop
  | .start c _ => c + 1 = s.backends
  | .resume i => ∀ call, s.suspended[i]? = some call →
      call.chan + 1 = s.backends ∨ (s.backend call.chan).ctrl.gen ≠ call.gen
  | _ => True

/-- Data SABs hold more than the meta zone, and so a report of the outer `catch` of `handleRpc`
fits.  One that does not fit leaves its request up behind a damaged header, and `finally` takes
it again. -/
def Roomy : Action → Prop
  | .construct capacity => metaZone + 4 < capacity
  | _ => True

end Sys

/-! ## The newest channel -/

/-- The running call is on the newest channel, or finds that it is over. -/
def OnlyNewest (s : Sys) : Prop :=
  ∀ call ph, s.worker.phase = some (call, ph) →
    call.chan + 1 = s.backends ∨
      ph.retires = true ∧ (s.backend call.chan).ctrl.gen ≠ call.gen

/-- The running call goes on. -/
theorem OnlyNewest.goto {s s' : Sys} {call call' : Call} {pc pc' : Pc} (h : OnlyNewest s)
    (hg : SameGens s s') (hw : s.worker = .run call pc) (hw' : s'.worker = .run call' pc')
    (hkey : call'.chan = call.chan ∧ call'.gen = call.gen)
    (hr : pc.phase.retires = true → (s.backend call.chan).ctrl.gen ≠ call.gen →
      pc'.phase.retires = true) : OnlyNewest s' := by
  intro call0 ph0 hw0
  rw [hw'] at hw0
  cases hw0
  rw [hg.backends, hg.word, hkey.1, hkey.2]
  rcases h call pc.phase (by rw [hw]; rfl) with hn | ⟨hph, hne⟩
  · exact .inl hn
  · exact .inr ⟨hr hph hne, hne⟩

theorem OnlyNewest.ready {s : Sys} (hw : s.worker.phase = none) : OnlyNewest s := by
  intro call ph h
  rw [hw] at h
  cases h

theorem OnlyNewest.same {s s' : Sys} (h : OnlyNewest s) (hg : SameGens s s')
    (hp : s'.worker.phase = s.worker.phase) : OnlyNewest s' := by
  intro call ph hw
  rw [hp] at hw
  rw [hg.backends, hg.word]
  exact h call ph hw

theorem CallMove.onlyNewest {s s' : Sys} {call : Call} {pc : Pc} (hm : CallMove s call pc s')
    (hw : s.worker = .run call pc) (h : OnlyNewest s) : OnlyNewest s' := by
  -- a call of an older channel is at its load of GEN
  have newest : pc.phase.retires = false → call.chan + 1 = s.backends := by
    intro hph
    rcases h call pc.phase (by rw [hw]; rfl) with hn | ⟨hph', -⟩
    · exact hn
    · rw [hph] at hph'
      cases hph'
  -- the steps of a call of the newest channel
  have stays : ∀ {t : Sys} {call' : Call} {pc' : Pc}, pc.phase.retires = false →
      t.backends = s.backends → t.worker = .run call' pc' → call'.chan = call.chan →
      OnlyNewest t := by
    intro t call' pc' hph hb hwt hchan call0 ph0 hw0
    rw [hwt] at hw0
    cases hw0
    rw [hb, hchan]
    exact .inl (newest hph)
  cases hm with
  | grow _ => exact stays rfl rfl rfl rfl
  | announce => exact stays rfl rfl rfl rfl
  | marshal _ => exact stays rfl rfl rfl rfl
  | unfit _ => exact .ready rfl
  | storeLength => exact stays rfl rfl rfl rfl
  | storeSeq => exact stays rfl rfl rfl rfl
  | storeReady => exact stays rfl rfl rfl rfl
  | nudge => exact stays rfl rfl rfl rfl
  | due _ => exact stays rfl rfl rfl rfl
  | answered _ => exact stays rfl rfl rfl (afterWait_call ..).1
  | park _ => exact stays rfl rfl rfl rfl
  | notEqual _ => exact stays rfl rfl rfl rfl
  | loadStatus hcall =>
      subst hcall
      exact stays rfl rfl rfl rfl
  | malformed _ => exact stays rfl rfl rfl rfl
  | more ht => exact stays rfl rfl rfl (takeWindow_call (.inl ht)).1
  | complete _ ht => exact stays rfl rfl rfl (takeWindow_call (.inr ht)).1
  | yield _ _ => exact .ready rfl
  | ackWindow => exact stays rfl rfl rfl rfl
  | current hg =>
      exact h.goto (.of_eq rfl rfl rfl) hw rfl ⟨rfl, rfl⟩ fun _ hne ↦ absurd hg hne
  | stale _ => exact h.goto (.of_eq rfl rfl rfl) hw rfl ⟨rfl, rfl⟩ fun _ _ ↦ rfl
  | ackChunk => exact stays rfl rfl rfl rfl
  | resets hg =>
      exact h.goto (.of_eq rfl rfl rfl) hw rfl ⟨rfl, rfl⟩ fun _ hne ↦ absurd hg hne
  | keeps _ => exact .ready rfl
  | resetStore => exact .ready rfl

theorem WorkerMove.onlyNewest {s s' : Sys} {a : Action} (hm : WorkerMove s a s')
    (ha : s.OnNewest a) (h : OnlyNewest s) : OnlyNewest s' := by
  cases hm with
  | construct _ _ => exact .ready rfl
  | attached _ _ => exact .ready rfl
  | start _ _ _ _ =>
      intro call ph hw
      cases hw
      exact .inl ha
  | resume _ _ hi =>
      intro call ph hw
      cases hw
      rcases ha _ hi with hn | hne
      · exact .inl hn
      · exact .inr ⟨rfl, hne⟩
  | call _ hw hm => exact hm.onlyNewest hw h
  | expireFirst _ _ _ => exact .ready rfl
  | expire hw _ _ => exact h.goto (.of_eq rfl rfl rfl) hw rfl ⟨rfl, rfl⟩ fun _ _ ↦ rfl
  | close _ _ _ => exact h
  | closingCurrent _ _ => exact h
  | closingStale _ _ => exact h
  | @closingStore call _ =>
      exact h.same ((SameGens.storeByWorker s call.chan .idle).congr rfl rfl rfl) rfl

theorem MainMove.sameGens {engine : Engine} {s s' : Sys} (hm : MainMove engine s s') :
    SameGens s s' := by
  cases hm with
  | @store c _ t _ _ status _ _ _ _ _ _ _ _ =>
      have hg := SameGens.setCtrl s c (fun ctrl ↦ { ctrl with status := toInt32 status })
        fun _ ↦ rfl
      exact hg.congr rfl rfl rfl
  | @storeLength c off _ _ _ _ _ _ _ =>
      have hg := SameGens.setCtrl s c (fun ctrl ↦ { ctrl with length := toInt32 off })
        fun _ ↦ rfl
      exact hg.congr rfl rfl rfl
  | @storeState c _ state _ _ _ _ _ _ _ =>
      have hg := SameGens.setCtrl s c (fun ctrl ↦ { ctrl with state }) fun _ ↦ rfl
      exact hg.congr rfl rfl rfl
  | _ => exact .of_eq rfl rfl rfl

/-- The worker as the other thread leaves it. -/
theorem MainMove.worker {engine : Engine} {s s' : Sys} (hm : MainMove engine s s') :
    s'.worker = s.worker ∨ ∃ c, s'.worker = s.worker.wake c := by
  cases hm with
  | @storeState c => exact .inr ⟨c, rfl⟩
  | _ => exact .inl rfl

theorem MainMove.phase {engine : Engine} {s s' : Sys} (hm : MainMove engine s s') :
    s'.worker.phase = s.worker.phase := by
  rcases hm.worker with h | ⟨c, h⟩ <;> rw [h]
  exact Worker.phase_wake ..

theorem Move.onlyNewest {engine : Engine} {s s' : Sys} {a : Action} (hm : Move engine s a s')
    (ha : s.OnNewest a) (h : OnlyNewest s) : OnlyNewest s' := by
  cases hm with
  | worker hm => exact hm.onlyNewest ha h
  | main _ _ hm => exact h.same hm.sameGens hm.phase

/-! ## The announcements -/

/-- The state of the announcements. -/
structure Announced (s : Sys) : Prop where
  room : ∀ d, d < s.sabs → metaZone + 4 < (s.sab d).size
  known : ∀ c, c < s.backends → (s.backend c).data < s.sabs
  below : ∀ p ∈ s.announcements, p.1 < s.backends ∧ p.2 < s.sabs
  order : s.announcements.Pairwise fun p q ↦ p.1 ≤ q.1 ∧ p.2 < q.2
  latest : ∀ c, c + 1 = s.backends → s.announcements.getLast? = some (c, (s.backend c).data)
  attached : s.bridge.ctrl = none → s.queue.head? ≠ some .rpc ∧ s.current ≠ .guard
  fits : ∀ call pc, s.worker = .run call pc → (pc = .marshal ∨ ∃ d, pc = .announce d) →
    neededBytes call.request call.gen ≤ (s.region call.chan).size

namespace Announced

variable {s : Sys} (h : Announced s)

include h in
theorem ctrl_lt {c : Nat} (hc : s.bridge.ctrl = some c) : c < s.backends ∧ s.bridge.data < s.sabs := by
  refine h.below (c, s.bridge.data) ?_
  rw [Sys.announcements, hc]
  simp

include h in
/-- Once the bridge has the buffer of the newest channel, nothing else is announced. -/
theorem silent_of_fresh {c : Nat} (hc : c + 1 = s.backends) (hb : s.bridge.ctrl = some c)
    (hd : s.bridge.data = (s.backend c).data) :
    s.announcements = [(c, s.bridge.data)] := by
  have horder := h.order
  have hlatest := h.latest c hc
  rw [Sys.announcements, hb] at horder hlatest ⊢
  simp only [Option.map_some, Option.toList_some, List.singleton_append] at horder hlatest ⊢
  rcases hrest : s.queue.filterMap Message.announcement ++ s.worker.announcing.toList with _ | ⟨p, l⟩
  · rfl
  · rw [hrest] at horder hlatest
    rw [List.getLast?_cons_cons] at hlatest
    have hmem := List.mem_of_getLast? hlatest
    have hlt := (List.rel_of_pairwise_cons horder hmem).2
    exact absurd hlt (by simp [hd])

end Announced

/-! ## Steps -/

theorem Announced.init : Announced {} where
  room _ h := absurd h (Nat.not_lt_zero _)
  known _ h := absurd h (Nat.not_lt_zero _)
  below p hp := by simp [Sys.announcements, Worker.announcing] at hp
  order := by simp [Sys.announcements, Worker.announcing]
  latest _ h := absurd h (Nat.succ_ne_zero _)
  attached _ := ⟨by simp, nofun⟩
  fits call pc hw := by cases hw

/-- What a step leaves that only an allocation changes. -/
structure SameSabs (s s' : Sys) : Prop where
  backends : s'.backends = s.backends
  sabs : s'.sabs = s.sabs
  data : ∀ c, (s'.backend c).data = (s.backend c).data
  size : ∀ d, (s'.sab d).size = (s.sab d).size

theorem SameSabs.of_eq {s s' : Sys} (hb : s'.backends = s.backends) (hn : s'.sabs = s.sabs)
    (hg : s'.backend = s.backend) (hs : s'.sab = s.sab) : SameSabs s s' :=
  ⟨hb, hn, fun _ ↦ by rw [hg], fun _ ↦ by rw [hs]⟩

/-- Bytes are stored into a data SAB. -/
theorem SameSabs.of_update {s s' : Sys} {d : Nat} {r : Region} (hb : s'.backends = s.backends)
    (hn : s'.sabs = s.sabs) (hd : ∀ c, (s'.backend c).data = (s.backend c).data)
    (hs : s'.sab = Function.update s.sab d r) (hr : r.size = (s.sab d).size) : SameSabs s s' := by
  refine ⟨hb, hn, hd, fun d' ↦ ?_⟩
  rw [hs, Function.update_apply]
  split
  · rename_i heq
    rw [heq, hr]
  · rfl

theorem SameSabs.setCtrl {s s' : Sys} {c : Nat} {f : Control → Control}
    (hb : s'.backends = s.backends) (hn : s'.sabs = s.sabs)
    (hg : s'.backend = (s.setCtrl c f).backend) (hs : s'.sab = s.sab) : SameSabs s s' := by
  refine ⟨hb, hn, fun c' ↦ ?_, fun d ↦ by rw [hs]⟩
  rw [hg, Sys.data_setCtrl]

/-- A step that allocates nothing, and announces nothing new. -/
theorem Announced.same {s s' : Sys} (h : Announced s) (hk : SameSabs s s')
    (ha : s'.announcements = s.announcements)
    (hatt : s'.bridge.ctrl = none → s'.queue.head? ≠ some .rpc ∧ s'.current ≠ .guard)
    (hfits : ∀ call pc, s'.worker = .run call pc → (pc = .marshal ∨ ∃ d, pc = .announce d) →
      neededBytes call.request call.gen ≤ (s.region call.chan).size) : Announced s' := by
  refine ⟨?_, ?_, ?_, ?_, ?_, hatt, ?_⟩
  · intro d hd
    rw [hk.sabs] at hd
    rw [hk.size]
    exact h.room d hd
  · intro c hc
    rw [hk.backends] at hc
    rw [hk.sabs, hk.data]
    exact h.known c hc
  · rw [ha, hk.backends, hk.sabs]
    exact h.below
  · rw [ha]
    exact h.order
  · intro c hc
    rw [hk.backends] at hc
    rw [ha, hk.data]
    exact h.latest c hc
  · intro call pc hw hpc
    rw [Sys.region, hk.data, hk.size]
    exact hfits call pc hw hpc

/-- The running call goes on without an announcement. -/
theorem Announced.goto {s s' : Sys} {call call' : Call} {pc pc' : Pc} (h : Announced s)
    (hk : SameSabs s s') (hw : s.worker = .run call pc) (hw' : s'.worker = .run call' pc')
    (hb : s'.bridge = s.bridge) (hq : s'.queue = s.queue) (hc : s'.current = s.current)
    (hpc : (Worker.run call pc).announcing = none)
    (hpc' : pc' ≠ .marshal ∧ ∀ d, pc' ≠ .announce d) : Announced s' := by
  have ha' : (Worker.run call' pc').announcing = none := by
    unfold Worker.announcing
    split
    · rename_i hrun
      cases hrun
    · rename_i d hrun
      cases hrun
      exact absurd rfl (hpc'.2 d)
    · rfl
  refine h.same hk ?_ ?_ ?_
  · rw [Sys.announcements, Sys.announcements, hb, hq, hw, hw', hpc, ha']
  · rw [hb, hq, hc]
    exact h.attached
  · intro call0 pc0 hw0 hpc0
    rw [hw'] at hw0
    cases hw0
    rcases hpc0 with rfl | ⟨d, rfl⟩
    · exact absurd rfl hpc'.1
    · exact absurd rfl (hpc'.2 d)

/-- The running call is over, or suspended. -/
theorem Announced.ready {s s' : Sys} {call : Call} {pc : Pc} (h : Announced s)
    (hk : SameSabs s s') (hw : s.worker = .run call pc) (hw' : s'.worker = .ready)
    (hb : s'.bridge = s.bridge) (hq : s'.queue = s.queue) (hc : s'.current = s.current)
    (hpc : (Worker.run call pc).announcing = none) : Announced s' := by
  refine h.same hk ?_ ?_ ?_
  · rw [Sys.announcements, Sys.announcements, hb, hq, hw, hw', hpc]
    rfl
  · rw [hb, hq, hc]
    exact h.attached
  · intro call0 pc0 hw0
    rw [hw'] at hw0
    cases hw0

theorem afterWait_not_preparing (call : Call) (w : Wait) (st : SabState) (d : Region) :
    (afterWait call w st d).2 ≠ .marshal ∧ ∀ d', (afterWait call w st d).2 ≠ .announce d' := by
  rcases afterWait_phase call w st d with h | ⟨o, h⟩
  all_goals
    refine ⟨fun heq ↦ ?_, fun d' heq ↦ ?_⟩ <;> rw [heq] at h <;> cases h

theorem sab_attachData (s : Sys) (c capacity d : Nat) :
    ((s.attachData c capacity).sab d) = if d = s.sabs then .zeros capacity else s.sab d :=
  Function.update_apply ..

theorem data_attachData (s : Sys) (c capacity c' : Nat) :
    ((s.attachData c capacity).backend c').data = if c' = c then s.sabs else (s.backend c').data := by
  by_cases h : c' = c
  · subst h
    simp [Sys.attachData, Sys.setBackend]
  · simp [Sys.attachData, Sys.setBackend, h]

/-- A data SAB is allocated for the newest channel, and its announcement is due. -/
theorem Announced.allocate {s s' : Sys} {c capacity : Nat} (h : Announced s)
    (hc : c + 1 = s'.backends) (hle : s.backends ≤ s'.backends)
    (hother : ∀ c', c' < s'.backends → c' ≠ c → c' < s.backends)
    (hroom : metaZone + 4 < capacity) (hn : s'.sabs = s.sabs + 1)
    (hs : s'.sab = (s.attachData c capacity).sab)
    (hd : ∀ c', (s'.backend c').data = if c' = c then s.sabs else (s.backend c').data)
    (ha : s'.announcements = s.announcements ++ [(c, s.sabs)])
    (hatt : s'.bridge.ctrl = none → s'.queue.head? ≠ some .rpc ∧ s'.current ≠ .guard)
    (hfits : ∀ call pc, s'.worker = .run call pc → (pc = .marshal ∨ ∃ d, pc = .announce d) →
      call.chan = c ∧ neededBytes call.request call.gen ≤ capacity) : Announced s' := by
  refine ⟨?_, ?_, ?_, ?_, ?_, hatt, ?_⟩
  · intro d hd'
    rw [hs, sab_attachData]
    split
    · exact hroom
    · exact h.room d (by omega)
  · intro c' hc'
    rw [hd, hn]
    split
    · exact Nat.lt_succ_self _
    · rename_i hne
      exact Nat.lt_succ_of_lt (h.known c' (hother c' hc' hne))
  · intro p hp
    rw [ha, List.mem_append, List.mem_singleton] at hp
    rw [hn]
    rcases hp with hp | rfl
    · exact ⟨lt_of_lt_of_le (h.below p hp).1 hle, Nat.lt_succ_of_lt (h.below p hp).2⟩
    · exact ⟨hc ▸ Nat.lt_succ_self c, Nat.lt_succ_self _⟩
  · rw [ha, List.pairwise_append]
    refine ⟨h.order, List.pairwise_singleton .., fun p hp q hq ↦ ?_⟩
    cases List.mem_singleton.mp hq
    have := (h.below p hp).1
    exact ⟨by omega, (h.below p hp).2⟩
  · intro c' hc'
    have : c' = c := by omega
    subst this
    rw [ha, hd, if_pos rfl, List.getLast?_append]
    rfl
  · intro call pc hw hpc
    obtain ⟨hchan, hle'⟩ := hfits call pc hw hpc
    rw [Sys.region, hd, if_pos hchan, hs, sab_attachData, if_pos rfl]
    exact hle'

theorem CallMove.announced {s s' : Sys} {call : Call} {pc : Pc} (hm : CallMove s call pc s')
    (hw : s.worker = .run call pc) (hn : OnlyNewest s) (h : Announced s) : Announced s' := by
  have newest : pc.phase.retires = false → call.chan + 1 = s.backends := by
    intro hph
    rcases hn call pc.phase (by rw [hw]; rfl) with hn | ⟨hph', -⟩
    · exact hn
    · rw [hph] at hph'
      cases hph'
  have store : ∀ (st : SabState), SameSabs s (s.storeByWorker call.chan st) := fun st ↦
    .setCtrl (f := fun ctrl ↦ { ctrl with state := st }) rfl rfl rfl rfl
  cases hm with
  | @grow capacity hg =>
      obtain ⟨hle, hneeded⟩ := grownCapacity_le hg
      have hc := newest rfl
      have hroom : metaZone + 4 < (s.region call.chan).size :=
        h.room _ (h.known _ (hc ▸ Nat.lt_succ_self _))
      refine h.allocate hc le_rfl (fun _ h _ ↦ h) (lt_of_lt_of_le hroom hle) rfl rfl
        (data_attachData s call.chan capacity) ?_ h.attached ?_
      · simp [Sys.announcements, Sys.attachData, Sys.goto, Sys.setBackend, Worker.announcing, hw]
      · intro call0 pc0 hw0 _
        cases hw0
        exact ⟨rfl, hneeded⟩
  | @announce d =>
      refine h.same (.of_eq rfl rfl rfl rfl) ?_ ?_ ?_
      · simp [Sys.announcements, Sys.post, Sys.goto, Worker.announcing, hw, Message.announcement]
      · intro hb
        refine ⟨?_, (h.attached hb).2⟩
        change (s.queue ++ [Message.sab call.chan d]).head? ≠ some .rpc
        rcases hq : s.queue with _ | ⟨m, q⟩
        · simp
        · have := (h.attached hb).1
          rwa [hq] at this
      · intro call0 pc0 hw0 _
        cases hw0
        exact h.fits call _ hw (.inr ⟨d, rfl⟩)
  | marshal hr =>
      refine h.goto ?_ hw rfl rfl rfl rfl rfl (by simp)
      refine .of_update rfl rfl (fun c' ↦ ?_) rfl (size_of_writeRequest hr)
      rw [Sys.backend_marshalled, Sys.data_setCtrl]
  | unfit _ => exact h.ready (.of_eq rfl rfl rfl rfl) hw rfl rfl rfl rfl rfl
  | storeLength =>
      exact h.goto (.setCtrl (f := fun ctrl ↦ { ctrl with length := _ }) rfl rfl rfl rfl) hw rfl rfl
        rfl rfl rfl (by simp)
  | storeSeq =>
      exact h.goto (.setCtrl (f := fun ctrl ↦ { ctrl with seq := 0 }) rfl rfl rfl rfl) hw rfl rfl
        rfl rfl rfl (by simp)
  | storeReady =>
      have hk := store .reqReady
      exact h.goto ⟨hk.backends, hk.sabs, hk.data, hk.size⟩ hw rfl rfl rfl rfl rfl (by simp)
  | nudge =>
      refine h.same (.of_eq rfl rfl rfl rfl) ?_ ?_ ?_
      · simp [Sys.announcements, Sys.post, Sys.goto, Worker.announcing, hw, Message.announcement]
      · intro hb
        refine ⟨?_, (h.attached hb).2⟩
        change (s.queue ++ [Message.rpc]).head? ≠ some .rpc
        rcases hq : s.queue with _ | ⟨m, q⟩
        · -- the announcement of the channel lies before its nudge
          have := h.latest call.chan (newest rfl)
          change s.bridge.ctrl = none at hb
          rw [Sys.announcements, hb, hq, hw] at this
          cases this
        · have := (h.attached hb).1
          rwa [hq] at this
      · intro call0 pc0 hw0 hpc
        cases hw0
        rcases hpc with hpc | ⟨d, hpc⟩ <;> cases hpc
  | due _ =>
      exact h.goto (.of_eq rfl rfl rfl rfl) hw rfl rfl rfl rfl rfl (by simp)
  | answered _ =>
      exact h.goto (.of_eq rfl rfl rfl rfl) hw rfl rfl rfl rfl rfl
        (afterWait_not_preparing ..)
  | park _ =>
      exact h.goto (.of_eq rfl rfl rfl rfl) hw rfl rfl rfl rfl rfl (by simp)
  | notEqual _ =>
      exact h.goto (.of_eq rfl rfl rfl rfl) hw rfl rfl rfl rfl rfl (by simp)
  | @loadStatus chunk call' _ =>
      refine h.goto (.of_eq rfl rfl rfl rfl) hw rfl rfl rfl rfl rfl ?_
      cases chunk <;> simp
  | malformed _ =>
      exact h.goto (.of_eq rfl rfl rfl rfl) hw rfl rfl rfl rfl rfl (by simp)
  | more _ =>
      exact h.goto (.of_eq rfl rfl rfl rfl) hw rfl rfl rfl rfl rfl (by simp)
  | complete _ _ =>
      exact h.goto (.of_eq rfl rfl rfl rfl) hw rfl rfl rfl rfl rfl (by simp)
  | yield _ _ => exact h.ready (.of_eq rfl rfl rfl rfl) hw rfl rfl rfl rfl rfl
  | ackWindow =>
      have hk := store .chunkAck
      exact h.goto ⟨hk.backends, hk.sabs, hk.data, hk.size⟩ hw rfl rfl rfl rfl rfl (by simp)
  | current _ =>
      exact h.goto (.of_eq rfl rfl rfl rfl) hw rfl rfl rfl rfl rfl (by simp)
  | stale _ =>
      exact h.goto (.of_eq rfl rfl rfl rfl) hw rfl rfl rfl rfl rfl (by simp)
  | ackChunk =>
      have hk := store .chunkAck
      exact h.goto ⟨hk.backends, hk.sabs, hk.data, hk.size⟩ hw rfl rfl rfl rfl rfl (by simp)
  | resets _ =>
      exact h.goto (.of_eq rfl rfl rfl rfl) hw rfl rfl rfl rfl rfl (by simp)
  | keeps _ => exact h.ready (.of_eq rfl rfl rfl rfl) hw rfl rfl rfl rfl rfl
  | resetStore =>
      have hk := store .idle
      exact h.ready ⟨hk.backends, hk.sabs, hk.data, hk.size⟩ hw rfl rfl rfl rfl rfl

theorem WorkerMove.announced {s s' : Sys} {a : Action} (hm : WorkerMove s a s')
    (hr : Sys.Roomy a) (hn : OnlyNewest s) (h : Announced s) : Announced s' := by
  cases hm with
  | @construct capacity hc hw =>
      refine h.allocate (c := s.backends) rfl (Nat.le_succ _) (fun c' hlt hne ↦ ?_) hr rfl rfl
        (data_attachData { s with backends := s.backends + 1 } s.backends capacity) ?_ h.attached ?_
      · change c' < s.backends + 1 at hlt
        omega
      · simp [Sys.announcements, Sys.attachData, Sys.setBackend, Worker.announcing, hw]
      · intro call0 pc0 hw0
        cases hw0
  | @attached c d hc hw =>
      refine h.same (.of_eq rfl rfl rfl rfl) ?_ ?_ ?_
      · simp [Sys.announcements, Sys.post, Worker.announcing, hw, Message.announcement]
      · intro hb
        refine ⟨?_, (h.attached hb).2⟩
        change (s.queue ++ [Message.sab c d]).head? ≠ some .rpc
        rcases hq : s.queue with _ | ⟨m, q⟩
        · simp
        · have := (h.attached hb).1
          rwa [hq] at this
      · intro call0 pc0 hw0
        cases hw0
  | @start c req pc hc hw hlt hpc =>
      refine h.same ⟨rfl, rfl, fun c' ↦ Sys.data_setGen s c c' _, fun _ ↦ rfl⟩ ?_ h.attached ?_
      · rw [Sys.announcements, Sys.announcements, hw]
        subst hpc
        split <;> rfl
      · intro call0 pc0 hw0 hpc0
        cases hw0
        subst hpc
        split at hpc0
        · rcases hpc0 with hpc0 | ⟨d, hpc0⟩ <;> cases hpc0
        · rename_i hge
          exact not_lt.mp hge
  | resume hc hw hi =>
      refine h.same (.of_eq rfl rfl rfl rfl) ?_ h.attached ?_
      · rw [Sys.announcements, Sys.announcements, hw]
        rfl
      · intro call0 pc0 hw0 hpc0
        cases hw0
        rcases hpc0 with hpc0 | ⟨d, hpc0⟩ <;> cases hpc0
  | call hc hw hm => exact hm.announced hw hn h
  | expireFirst hw _ _ => exact h.ready (.of_eq rfl rfl rfl rfl) hw rfl rfl rfl rfl rfl
  | expire hw _ _ =>
      exact h.goto (.of_eq rfl rfl rfl rfl) hw rfl rfl rfl rfl rfl (by simp)
  | close _ _ _ => exact h.same (.of_eq rfl rfl rfl rfl) rfl h.attached h.fits
  | closingCurrent _ _ => exact h.same (.of_eq rfl rfl rfl rfl) rfl h.attached h.fits
  | closingStale _ _ => exact h.same (.of_eq rfl rfl rfl rfl) rfl h.attached h.fits
  | @closingStore call _ =>
      refine h.same ?_ rfl h.attached h.fits
      exact .setCtrl (c := call.chan) (f := fun ctrl ↦ { ctrl with state := .idle }) rfl rfl rfl rfl

theorem Announced.fits_wake {s : Sys} (h : Announced s) (c : Nat) (call : Call) (pc : Pc)
    (hw : s.worker.wake c = .run call pc) (hpc : pc = .marshal ∨ ∃ d, pc = .announce d) :
    neededBytes call.request call.gen ≤ (s.region call.chan).size := by
  unfold Worker.wake at hw
  split at hw
  · split at hw <;> cases hw <;> rcases hpc with hpc | ⟨d, hpc⟩ <;> cases hpc
  · exact h.fits call pc hw hpc

/-- The main thread allocates nothing. -/
theorem MainMove.sameSabs {engine : Engine} {s s' : Sys} (hm : MainMove engine s s') :
    SameSabs s s' := by
  cases hm with
  | @store c _ t _ _ status _ _ _ _ _ _ _ _ =>
      refine .of_update rfl rfl (fun c' ↦ ?_) rfl (size_writeWindow ..)
      exact Sys.data_setCtrl s c c' fun ctrl ↦ { ctrl with status := toInt32 status }
  | overflow _ _ _ _ _ => exact .of_update rfl rfl (fun c' ↦ rfl) rfl (size_writeWindow ..)
  | @storeLength c off _ _ _ _ _ _ _ =>
      exact .setCtrl (c := c) (f := fun ctrl ↦ { ctrl with length := toInt32 off }) rfl rfl rfl rfl
  | @storeState c _ state _ _ _ _ _ _ _ =>
      exact .setCtrl (c := c) (f := fun ctrl ↦ { ctrl with state }) rfl rfl rfl rfl
  | _ => exact .of_eq rfl rfl rfl rfl

theorem MainMove.announced {engine : Engine} {s s' : Sys} (hm : MainMove engine s s')
    (h : Announced s) : Announced s' := by
  have hk := hm.sameSabs
  cases hm with
  | @attach c d queue hi hq =>
      have ha : s.announcements = (s.bridge.ctrl.map fun c ↦ (c, s.bridge.data)).toList ++
          ((c, d) :: (queue.filterMap Message.announcement ++ s.worker.announcing.toList)) := by
        rw [Sys.announcements, hq]
        rfl
      have horder := h.order
      have hbelow := h.below
      rw [ha] at horder hbelow
      refine ⟨h.room, h.known, ?_, ?_, ?_, nofun, h.fits⟩
      · exact fun p hp ↦ hbelow p (List.mem_append_right _ hp)
      · exact (List.pairwise_append.mp horder).2.1
      · intro c' hc'
        have hlatest := h.latest c' hc'
        rw [ha, List.getLast?_append, List.getLast?_cons] at hlatest
        rw [← hlatest]
        exact List.getLast?_cons
  | @nudge queue hi hq =>
      refine h.same hk ?_ ?_ h.fits
      · rw [Sys.announcements, Sys.announcements, hq]
        rfl
      · intro hb
        exact absurd (by rw [hq]; rfl) (h.attached hb).1
  | decline hg hno =>
      refine h.same hk rfl (fun hb ↦ ?_) h.fits
      exact absurd hg (h.attached hb).2
  | pick hg hl hb hc hst hp hl' =>
      refine h.same hk rfl (fun hb ↦ ?_) h.fits
      rw [hc] at hb
      cases hb
  | task hl hg hc hm hl' =>
      refine h.same hk rfl (fun hb ↦ ?_) h.fits
      rw [hc] at hb
      cases hb
  | store hr ht hc hs hw =>
      refine h.same hk rfl (fun hb ↦ ?_) h.fits
      exact absurd (hc.symm.trans hb) nofun
  | overflow hr ht hc hs hw =>
      refine h.same hk rfl (fun hb ↦ ?_) h.fits
      exact absurd (hc.symm.trans hb) nofun
  | storeLength hr ht hc hpc =>
      refine h.same hk rfl (fun hb ↦ ?_) h.fits
      exact absurd (hc.symm.trans hb) nofun
  | @storeState c _ state _ _ hr ht hc hpc hpc' =>
      refine h.same hk ?_ (fun hb ↦ ?_) (h.fits_wake c)
      · change _ ++ (_ ++ (s.worker.wake c).announcing.toList) = _
        rw [Worker.announcing_wake]
        rfl
      · exact absurd (hc.symm.trans hb) nofun
  | leave hr ht hc hpc =>
      refine h.same hk rfl (fun hb ↦ ?_) h.fits
      exact absurd (hc.symm.trans hb) nofun

theorem Move.announced {engine : Engine} {s s' : Sys} {a : Action} (hm : Move engine s a s')
    (hr : Sys.Roomy a) (hn : OnlyNewest s) (h : Announced s) : Announced s' := by
  cases hm with
  | worker hm => exact hm.announced hr hn h
  | main _ _ hm => exact hm.announced h

end ConnectWeb.Sab
