import ConnectWeb.Sab.Announce

/-!
# The request codec

`_write_request` grows the data SAB where the request does not fit, stores the request, and
`_readRequest` reads it back.  Every store of bytes lies inside the region, which is the one that
the backend announced last, and what is read is what was written, whatever else the region holds.
-/

namespace ConnectWeb.Sab

/-! ## What a backend has announced -/

/-- The data SAB that channel `c` is known by after a message, where it was `last` before. -/
def Message.announces (c : Nat) (last : Option Nat) : Message → Option Nat
  | .sab c' d => if c' = c then some d else last
  | .rpc => last

namespace Sys

/-- The data SAB that channel `c` announced last. -/
def lastAnnounced (s : Sys) (c : Nat) : Option Nat := s.sent.foldl (Message.announces c) none

theorem lastAnnounced_goto (s : Sys) (call : Call) (pc : Pc) (c : Nat) :
    (s.goto call pc).lastAnnounced c = s.lastAnnounced c := rfl

theorem lastAnnounced_post (s : Sys) (m : Message) (c : Nat) :
    (s.post m).lastAnnounced c = m.announces c (s.lastAnnounced c) := by
  rw [lastAnnounced, lastAnnounced, post, List.foldl_append]
  rfl

end Sys

/-- The worker is about to announce a data SAB, or to store a request. -/
def Worker.prepares : Worker → Bool
  | .attaching _ _ | .run _ (.announce _) | .run _ .marshal => true
  | _ => false

theorem Worker.announcing_of_not_prepares {w : Worker} (h : w.prepares = false) :
    w.announcing = none := by
  unfold announcing
  split
  · cases h
  · cases h
  · rfl

theorem Worker.prepares_run {call : Call} {pc : Pc}
    (h : pc ≠ .marshal ∧ ∀ d, pc ≠ .announce d) : (Worker.run call pc).prepares = false := by
  cases pc with
  | marshal => exact absurd rfl h.1
  | announce d => exact absurd rfl (h.2 d)
  | _ => rfl

theorem Worker.prepares_wake (c : Nat) (w : Worker) : (w.wake c).prepares = w.prepares := by
  unfold wake
  split
  · split <;> rfl
  · rfl

/-- Every backend is bound to the data SAB that it announced last, or is about to announce; and a
request that is about to be stored fits. -/
structure Provisioned (s : Sys) : Prop where
  due : ∀ c d, s.worker.announcing = some (c, d) → d = (s.backend c).data
  announced : ∀ c, c < s.backends → (∀ d, s.worker.announcing ≠ some (c, d)) →
    s.lastAnnounced c = some (s.backend c).data
  fits : ∀ call pc, s.worker = .run call pc → (pc = .marshal ∨ ∃ d, pc = .announce d) →
    neededBytes call.request call.gen ≤ (s.region call.chan).size

namespace Provisioned

variable {engine : Engine} {s s' : Sys} {a : Action}

theorem init : Provisioned {} where
  due _ _ h := by cases h
  announced _ h := absurd h (Nat.not_lt_zero _)
  fits _ _ h := by cases h

/-- A step that allocates and announces nothing. -/
theorem same (h : Provisioned s) (hk : SameSabs s s') (hs : s'.sent = s.sent)
    (ha : s'.worker.announcing = s.worker.announcing)
    (hfits : ∀ call pc, s'.worker = .run call pc → (pc = .marshal ∨ ∃ d, pc = .announce d) →
      neededBytes call.request call.gen ≤ (s.region call.chan).size) : Provisioned s' where
  due c d hw := by
    rw [hk.data]
    exact h.due c d (ha ▸ hw)
  announced c hc hw := by
    rw [Sys.lastAnnounced, hs, hk.data]
    exact h.announced c (hk.backends ▸ hc) (ha ▸ hw)
  fits call pc hw hpc := by
    rw [Sys.region, hk.data, hk.size]
    exact hfits call pc hw hpc

/-- A step of a worker that prepares no request. -/
theorem goes (h : Provisioned s) (hk : SameSabs s s') (hs : s'.sent = s.sent)
    (hw : s.worker.announcing = none) (hw' : s'.worker.prepares = false) : Provisioned s' := by
  refine h.same hk hs ((Worker.announcing_of_not_prepares hw').trans hw.symm) fun call pc hrun hpc ↦ ?_
  rw [hrun] at hw'
  rcases hpc with rfl | ⟨d, rfl⟩ <;> cases hw'

/-- An announcement is posted. -/
theorem posts (h : Provisioned s) {c d : Nat} (ha : s.worker.announcing = some (c, d))
    (hk : SameSabs s s') (hs : s'.sent = s.sent ++ [.sab c d]) (hw : s'.worker.announcing = none)
    (hfits : ∀ call pc, s'.worker = .run call pc → pc = .marshal →
      neededBytes call.request call.gen ≤ (s.region call.chan).size) : Provisioned s' where
  due c' d' hw' := by
    rw [hw] at hw'
    cases hw'
  announced c' hc' _ := by
    have hlast : s'.lastAnnounced c' = Message.announces c' (s.lastAnnounced c') (.sab c d) := by
      rw [Sys.lastAnnounced, hs, List.foldl_append]
      rfl
    rw [hlast, hk.data, Message.announces]
    by_cases heq : c = c'
    · subst heq
      rw [if_pos rfl, h.due c d ha]
    · rw [if_neg heq]
      refine h.announced c' (hk.backends ▸ hc') fun d' hd' ↦ heq ?_
      rw [ha] at hd'
      cases hd'
      rfl
  fits call pc hrun hpc := by
    rw [Sys.region, hk.data, hk.size]
    refine hfits call pc hrun (hpc.resolve_right ?_)
    rintro ⟨d', rfl⟩
    rw [hrun] at hw
    cases hw

/-- A data SAB is allocated, and its announcement is due. -/
theorem allocate (h : Provisioned s) {c capacity : Nat} (hquiet : s.worker.announcing = none)
    (ha : s'.worker.announcing = some (c, s.sabs)) (hs : s'.sent = s.sent)
    (hother : ∀ c', c' < s'.backends → c' ≠ c → c' < s.backends)
    (hsab : s'.sab = (s.attachData c capacity).sab)
    (hd : ∀ c', (s'.backend c').data = if c' = c then s.sabs else (s.backend c').data)
    (hfits : ∀ call pc, s'.worker = .run call pc → (pc = .marshal ∨ ∃ d, pc = .announce d) →
      call.chan = c ∧ neededBytes call.request call.gen ≤ capacity) : Provisioned s' where
  due c' d' hw' := by
    rw [ha] at hw'
    cases hw'
    rw [hd, if_pos rfl]
  announced c' hc' hw' := by
    have hne : c' ≠ c := fun heq ↦ hw' s.sabs (heq ▸ ha)
    rw [Sys.lastAnnounced, hs, hd, if_neg hne]
    refine h.announced c' (hother c' hc' hne) fun d' ↦ ?_
    rw [hquiet]
    nofun
  fits call pc hw hpc := by
    obtain ⟨hchan, hle⟩ := hfits call pc hw hpc
    rw [Sys.region, hd, if_pos hchan, hsab, sab_attachData, if_pos rfl]
    exact hle

theorem call {call : Call} {pc : Pc} (h : Provisioned s) (hw : s.worker = .run call pc)
    (hm : CallMove s call pc s') : Provisioned s' := by
  have quiet : ∀ {pc'}, pc = pc' → (∀ d, pc' ≠ .announce d) → s.worker.announcing = none := by
    rintro pc' rfl hne
    rw [hw]
    unfold Worker.announcing
    split
    · rename_i heq
      cases heq
    · rename_i d heq
      cases heq
      exact absurd rfl (hne d)
    · rfl
  have store : ∀ st : SabState, SameSabs s (s.storeByWorker call.chan st) := fun st ↦
    .setCtrl (f := fun ctrl ↦ { ctrl with state := st }) rfl rfl rfl rfl
  cases hm with
  | @grow capacity hg =>
      refine h.allocate (c := call.chan) (quiet rfl nofun) rfl rfl (fun _ hc _ ↦ hc) rfl
        (data_attachData s call.chan capacity) fun call0 pc0 hw0 _ ↦ ?_
      cases hw0
      exact ⟨rfl, (grownCapacity_le hg).2⟩
  | @announce d =>
      refine h.posts (c := call.chan) (d := d) (by rw [hw]; rfl) (.of_eq rfl rfl rfl rfl) rfl rfl
        fun call0 pc0 hw0 _ ↦ ?_
      cases hw0
      exact h.fits call _ hw (.inr ⟨d, rfl⟩)
  | marshal hr =>
      refine h.goes (.of_update rfl rfl (fun c' ↦ ?_) rfl (size_of_writeRequest hr)) rfl
        (quiet rfl nofun) rfl
      rw [Sys.backend_marshalled, Sys.data_setCtrl]
  | storeLength =>
      exact h.goes (.setCtrl (f := fun ctrl ↦ { ctrl with length := _ }) rfl rfl rfl rfl) rfl
        (quiet rfl nofun) rfl
  | storeSeq =>
      exact h.goes (.setCtrl (f := fun ctrl ↦ { ctrl with seq := 0 }) rfl rfl rfl rfl) rfl
        (quiet rfl nofun) rfl
  | storeReady =>
      have hk := store .reqReady
      exact h.goes ⟨hk.backends, hk.sabs, hk.data, hk.size⟩ rfl (quiet rfl nofun) rfl
  | ackWindow | ackChunk =>
      have hk := store .chunkAck
      exact h.goes ⟨hk.backends, hk.sabs, hk.data, hk.size⟩ rfl (quiet rfl nofun) rfl
  | resetStore =>
      have hk := store .idle
      exact h.goes ⟨hk.backends, hk.sabs, hk.data, hk.size⟩ rfl (quiet rfl nofun) rfl
  | nudge =>
      have hsent : ∀ c, (s.post .rpc).lastAnnounced c = s.lastAnnounced c :=
        s.lastAnnounced_post .rpc
      refine ⟨fun c d hd ↦ (by cases hd), fun c hc _ ↦ ?_, fun call0 pc0 hw0 hpc ↦ ?_⟩
      · refine (hsent c).trans (h.announced c hc fun d ↦ ?_)
        rw [quiet rfl nofun]
        nofun
      · cases hw0
        rcases hpc with hpc | ⟨d, hpc⟩ <;> cases hpc
  | @answered w _ =>
      exact h.goes (.of_eq rfl rfl rfl rfl) rfl (quiet rfl nofun)
        (Worker.prepares_run (afterWait_not_preparing ..))
  | @loadStatus chunk _ _ =>
      refine h.goes (.of_eq rfl rfl rfl rfl) rfl (quiet rfl nofun) ?_
      cases chunk <;> rfl
  | _ => exact h.goes (.of_eq rfl rfl rfl rfl) rfl (quiet rfl nofun) rfl

theorem worker (h : Provisioned s) (hm : WorkerMove s a s') : Provisioned s' := by
  have ready : s.worker = .ready → s.worker.announcing = none := fun hw ↦ by
    rw [hw]
    rfl
  cases hm with
  | @construct capacity _ hw =>
      refine h.allocate (c := s.backends) (ready hw) rfl rfl (fun c' hlt hne ↦ ?_) rfl
        (data_attachData { s with backends := s.backends + 1 } s.backends capacity)
        fun call0 pc0 hw0 ↦ ?_
      · change c' < s.backends + 1 at hlt
        omega
      · cases hw0
  | @attached c d _ hw =>
      refine h.posts (c := c) (d := d) (by rw [hw]; rfl) (.of_eq rfl rfl rfl rfl) rfl rfl
        fun call0 pc0 hw0 ↦ ?_
      cases hw0
  | @start c req pc _ hw _ hpc =>
      refine h.same ⟨rfl, rfl, fun c' ↦ Sys.data_setGen s c c' _, fun _ ↦ rfl⟩ rfl ?_
        fun call0 pc0 hw0 hpc0 ↦ ?_
      · rw [ready hw, hpc]
        split <;> rfl
      · cases hw0
        subst hpc
        split at hpc0
        · rcases hpc0 with hpc0 | ⟨d, hpc0⟩ <;> cases hpc0
        · rename_i hge
          exact not_lt.mp hge
  | resume _ hw _ => exact h.goes (.of_eq rfl rfl rfl rfl) rfl (ready hw) rfl
  | call _ hw hm => exact h.call hw hm
  | expireFirst hw _ _ | expire hw _ _ =>
      exact h.goes (.of_eq rfl rfl rfl rfl) rfl (by rw [hw]; rfl) rfl
  | close _ _ _ | closingCurrent _ _ | closingStale _ _ =>
      exact h.same (.of_eq rfl rfl rfl rfl) rfl rfl h.fits
  | @closingStore call _ =>
      refine h.same ?_ rfl rfl h.fits
      exact .setCtrl (c := call.chan) (f := fun ctrl ↦ { ctrl with state := .idle }) rfl rfl rfl rfl

theorem main (h : Provisioned s) (hm : MainMove engine s s') : Provisioned s' := by
  have hsent : s'.sent = s.sent := by cases hm <;> rfl
  rcases hm.worker with hw | ⟨c, hw⟩
  · exact h.same hm.sameSabs hsent (by rw [hw]) fun call pc hrun ↦ h.fits call pc (hw ▸ hrun)
  · refine h.same hm.sameSabs hsent (by rw [hw, Worker.announcing_wake]) fun call pc hrun hpc ↦ ?_
    rw [hw] at hrun
    have hprep : (s.worker.wake c).prepares = true := by
      rw [hrun]
      rcases hpc with rfl | ⟨d, rfl⟩ <;> rfl
    rw [Worker.prepares_wake] at hprep
    -- a worker that prepares a request is not asleep
    unfold Worker.wake at hrun
    split at hrun
    · rename_i hparked
      rw [hparked] at hprep
      cases hprep
    · exact h.fits call pc hrun hpc

theorem move (h : Provisioned s) (hm : Move engine s a s') : Provisioned s' := by
  cases hm with
  | worker hm => exact h.worker hm
  | main _ _ hm => exact h.main hm

end Provisioned

theorem provisioned_of_reachable {engine : Engine} {ok : System.Guard Sys Action} {s : Sys}
    (h : (system engine).Reachable ok s) : Provisioned s := by
  refine System.Reachable.invariant_of (fun _ ↦ shape_of_reachable) ?_ ?_ h
  · rintro s rfl
    exact .init
  · rintro s a s' hs - hp - hstep
    exact hp.move (.of_step hs hstep)

/-! ## The steps of `_write_request` -/

theorem Sys.stepWorker_call {s : Sys} {call : Call} {pc : Pc} (hclosing : s.closing = none)
    (hworker : s.worker = .run call pc) : s.stepWorker = s.stepCall call pc := by
  rw [stepWorker, hclosing, hworker]

/-- The request is stored, and everything is done up to the nudge. -/
def Sys.requested (s : Sys) (call : Call) (r : Region) : Sys :=
  let off := (requestStores (headerBytes call.request call.gen) call.request.body).off
  let s := (((s.marshalled call r).setCtrl call.chan fun ctrl ↦ { ctrl with
    length := toInt32 off }).wrote (.length call.chan) none).goto call .storeSeq
  let s := (s.setCtrl call.chan fun ctrl ↦ { ctrl with seq := 0 }).goto call .storeReady
  (((s.storeByWorker call.chan .reqReady).goto call .nudge).post .rpc).goto call (.wait .first)

theorem runWhile_marshal (engine : Engine) {s : Sys} {call : Call} {r : Region}
    (hclosing : s.closing = none) (hworker : s.worker = .run call .marshal)
    (hr : writeRequest (s.region call.chan) (headerBytes call.request call.gen)
      call.request.body = some r) :
    (system engine).runWhile (fun _ _ ↦ True) s (List.replicate 5 .worker) =
      some (s.requested call r) := by
  let s₁ := s.marshalled call r
  let s₂ := ((s₁.setCtrl call.chan fun ctrl ↦ { ctrl with
    length := toInt32 (requestStores (headerBytes call.request call.gen) call.request.body).off
    }).wrote (.length call.chan) none).goto call .storeSeq
  let s₃ := (s₂.setCtrl call.chan fun ctrl ↦ { ctrl with seq := 0 }).goto call .storeReady
  let s₄ := (s₃.storeByWorker call.chan .reqReady).goto call .nudge
  have h₁ : s.stepWorker = some s₁ := by
    rw [Sys.region] at hr
    rw [Sys.stepWorker_call hclosing hworker]
    simp only [Sys.stepCall, hr]
    rfl
  have h₂ : s₁.stepWorker = some s₂ := @Sys.stepWorker_call s₁ call _ hclosing rfl
  have h₃ : s₂.stepWorker = some s₃ := @Sys.stepWorker_call s₂ call _ hclosing rfl
  have h₄ : s₃.stepWorker = some s₄ := @Sys.stepWorker_call s₃ call _ hclosing rfl
  have h₅ : s₄.stepWorker = some (s.requested call r) :=
    @Sys.stepWorker_call s₄ call _ hclosing rfl
  simp only [System.runWhile, List.replicate_succ, List.replicate_zero, if_true, system, step,
    Option.bind_some, h₁, h₂, h₃, h₄, h₅]

namespace Sys

variable (s : Sys) (call : Call) (r : Region)

theorem data_requested (c : Nat) : ((s.requested call r).backend c).data = (s.backend c).data := by
  simp [requested, goto, post, marshalled, wrote, setSab]

theorem sab_requested :
    (s.requested call r).sab = Function.update s.sab (s.backend call.chan).data r := rfl

theorem sent_requested :
    (s.requested call r).queue = s.queue ++ [.rpc] ∧ (s.requested call r).sent = s.sent ++ [.rpc] :=
  ⟨rfl, rfl⟩

theorem lastAnnounced_requested (c : Nat) :
    (s.requested call r).lastAnnounced c = s.lastAnnounced c := by
  rw [lastAnnounced, (s.sent_requested call r).2, List.foldl_append]
  rfl

theorem words_requested : (s.requested call r).state call.chan = .reqReady ∧
    ((s.requested call r).backend call.chan).ctrl.length =
      toInt32 (requestStores (headerBytes call.request call.gen) call.request.body).off ∧
    ((s.requested call r).backend call.chan).ctrl.seq = 0 ∧
    ((s.requested call r).backend call.chan).ctrl.gen = toInt32 call.gen := by
  simp [state, requested, goto, post, storeByWorker, marshalled, wrote, setSab, setCtrl, setBackend]

end Sys


/-! ## A request written and read back -/

/-- `s'` is the state behind `_write_request` for the request `req` of generation `gen`, which
found the state `s`. -/
structure Written (s : Sys) (c : Nat) (req : Request) (gen : Nat) (s' : Sys) : Prop where
  worker : s'.worker = .run { chan := c, gen, request := req } (.wait .first)
  words : s'.state c = .reqReady ∧
    (s'.backend c).ctrl.length = toInt32 (requestStores (headerBytes req gen) req.body).off ∧
    (s'.backend c).ctrl.seq = 0 ∧ (s'.backend c).ctrl.gen = toInt32 gen
  /-- The announcement of a new data SAB, if there is one, and the nudge. -/
  posted : ∃ messages, s'.queue = s.queue ++ messages ∧ s'.sent = s.sent ++ messages ∧
    messages = (if (s.region c).size < neededBytes req gen then [.sab c (s'.backend c).data]
      else []) ++ [.rpc]
  announced : s'.lastAnnounced c = some (s'.backend c).data
  capacity : SmallestFit (s.region c).size (neededBytes req gen) (s'.region c).size
  /-- The stores, into the region as it was or a new one, and each of them inside. -/
  stores : (if (s.region c).size < neededBytes req gen then .zeros (s'.region c).size
    else s.region c).perform (requestStores (headerBytes req gen) req.body).stores =
      some (s'.region c)
  inside : ∀ st ∈ (requestStores (headerBytes req gen) req.body).stores,
    st.Inside (s'.region c).size
  others : ∀ d, d ≠ (s'.backend c).data → s'.sab d = s.sab d
  /-- `_readRequest` gets the request back. -/
  reads : readRequest (s'.region c) = some (header req gen, req.body)

/-- `s₁` is the state in which the same call is about to store its request: in the region that it
found, or in a new one, already announced. -/
structure Prepared (s : Sys) (c : Nat) (req : Request) (gen : Nat) (s₁ : Sys) : Prop where
  worker : s₁.worker = .run { chan := c, gen, request := req } .marshal
  closing : s₁.closing = none
  posted : ∃ messages, s₁.queue = s.queue ++ messages ∧ s₁.sent = s.sent ++ messages ∧
    messages = if (s.region c).size < neededBytes req gen then [.sab c (s₁.backend c).data] else []
  announced : s₁.lastAnnounced c = some (s₁.backend c).data
  capacity : SmallestFit (s.region c).size (neededBytes req gen) (s₁.region c).size
  region : s₁.region c =
    if (s.region c).size < neededBytes req gen then .zeros (s₁.region c).size else s.region c
  others : ∀ d, d ≠ (s₁.backend c).data → s₁.sab d = s.sab d

/-- The stores of a call that is prepared. -/
theorem Prepared.written {s s₁ : Sys} {c gen : Nat} {req : Request} {r : Region}
    (h : Prepared s c req gen s₁)
    (hr : writeRequest (s₁.region c) (headerBytes req gen) req.body = some r)
    (hheader : (headerBytes req gen).length < 2 ^ 32) (hbody : req.body.length < 2 ^ 32) :
    Written s c req gen (s₁.requested { chan := c, gen, request := req } r) := by
  have hdata : ((s₁.requested { chan := c, gen, request := req } r).backend c).data =
      (s₁.backend c).data := s₁.data_requested _ r c
  have hreg : (s₁.requested { chan := c, gen, request := req } r).region c = r := by
    rw [Sys.region, hdata, Sys.sab_requested]
    exact Function.update_self ..
  have hsize : r.size = (s₁.region c).size := size_of_writeRequest hr
  obtain ⟨-, -, hfits, -⟩ := h.capacity
  obtain ⟨r', hr', -, hholds⟩ := writeRequest_of_fits hfits
  obtain rfl : r' = r := Option.some.inj (hr'.symm.trans hr)
  obtain ⟨hq, hs⟩ := s₁.sent_requested { chan := c, gen, request := req } r'
  obtain ⟨messages, hqueue, hsent, hmessages⟩ := h.posted
  refine ⟨rfl, s₁.words_requested _ r', ⟨messages ++ [.rpc], ?_, ?_, ?_⟩, ?_, ?_, ?_, ?_,
    fun d hd ↦ ?_, ?_⟩
  · rw [hq, hqueue, List.append_assoc]
  · rw [hs, hsent, List.append_assoc]
  · rw [hdata, hmessages]
  · rw [hdata, ← h.announced, Sys.lastAnnounced_requested]
  · rw [hreg, hsize]
    exact h.capacity
  · rw [hreg, hsize, ← h.region]
    exact hr
  · rw [hreg, hsize]
    exact inside_requestStores hfits
  · rw [hdata] at hd
    rw [← h.others d hd]
    exact Function.update_of_ne hd ..
  · rw [hreg]
    exact readRequest_of_holds hholds hheader hbody

/-! ### Up to the stores -/

namespace Sys

variable (s : Sys) (c : Nat) (req : Request)

/-- The next RPC on the channel has its generation. -/
def numbered : Sys := s.setBackend c fun b ↦ { b with gen := (s.backend c).gen + 1 }

/-- The call that starts. -/
def calling : Call := { chan := c, gen := (s.backend c).gen + 1, request := req }

theorem data_numbered : ((s.numbered c).backend c).data = (s.backend c).data :=
  s.data_setGen c c _

theorem region_numbered : (s.numbered c).region c = s.region c := by
  rw [region, data_numbered]
  rfl

variable {s c}

theorem start_eq (hclosing : s.closing = none) (hworker : s.worker = .ready)
    (hc : c < s.backends) : s.start c req = some ((s.numbered c).goto (s.calling c req)
      (if (s.region c).size < neededBytes req ((s.backend c).gen + 1) then .grow else .marshal)) := by
  rw [← s.region_numbered c, start, hclosing, hworker]
  simp only [if_pos hc]
  rfl

end Sys

section

variable {s : Sys} {c : Nat} {req : Request}

/-- A request that fits is stored into the region as it is. -/
theorem prepared_of_fits (hclosing : s.closing = none)
    (hlast : s.lastAnnounced c = some (s.backend c).data)
    (hfits : neededBytes req ((s.backend c).gen + 1) ≤ (s.region c).size) :
    Prepared s c req ((s.backend c).gen + 1) ((s.numbered c).goto (s.calling c req) .marshal) := by
  have hsmall : ¬ (s.region c).size < neededBytes req ((s.backend c).gen + 1) := not_lt.mpr hfits
  refine ⟨rfl, hclosing, ⟨[], (List.append_nil _).symm, (List.append_nil _).symm, ?_⟩,
    hlast.trans (congrArg some (s.data_numbered c).symm), ?_, ?_, fun _ _ ↦ rfl⟩
  · exact (if_neg hsmall).symm
  · change SmallestFit _ _ ((s.numbered c).region c).size
    rw [s.region_numbered c]
    exact .of_le hfits
  · exact (s.region_numbered c).trans (if_neg hsmall).symm

/-- For a request that does not fit, a new region is allocated and announced. -/
theorem prepared_of_grown (hclosing : s.closing = none) {capacity : Nat}
    (hsmall : (s.region c).size < neededBytes req ((s.backend c).gen + 1))
    (hfit : SmallestFit (s.region c).size (neededBytes req ((s.backend c).gen + 1)) capacity) :
    Prepared s c req ((s.backend c).gen + 1)
      (((((s.numbered c).attachData c capacity).goto (s.calling c req) (.announce s.sabs)).post
        (.sab c s.sabs)).goto (s.calling c req) .marshal) := by
  let s₂ := ((s.numbered c).attachData c capacity).goto (s.calling c req) (.announce s.sabs)
  have hdata : (s₂.backend c).data = s.sabs :=
    (data_attachData (s.numbered c) c capacity c).trans (if_pos rfl)
  have hregion : s₂.region c = .zeros capacity := by
    rw [Sys.region, hdata]
    exact (sab_attachData (s.numbered c) c capacity s.sabs).trans (if_pos rfl)
  refine ⟨rfl, hclosing, ⟨[.sab c s.sabs], rfl, rfl, ?_⟩, ?_, ?_, ?_, fun d hd ↦ ?_⟩
  · exact (congrArg (fun d ↦ [Message.sab c d]) hdata.symm).trans (if_pos hsmall).symm
  · rw [Sys.lastAnnounced_goto, Sys.lastAnnounced_post, Message.announces, if_pos rfl]
    exact congrArg some hdata.symm
  · change SmallestFit _ _ (s₂.region c).size
    rw [hregion]
    exact hfit
  · change s₂.region c = if _ then .zeros (s₂.region c).size else _
    rw [hregion]
    exact (if_pos hsmall).symm
  · exact (sab_attachData (s.numbered c) c capacity d).trans
      (if_neg fun heq ↦ hd (heq.trans hdata.symm))

/-- A call that starts gets to its stores. -/
theorem exists_prepared (engine : Engine) (hclosing : s.closing = none)
    (hworker : s.worker = .ready) (hc : c < s.backends)
    (hlast : s.lastAnnounced c = some (s.backend c).data) (hcap : 1 ≤ (s.region c).size) :
    ∃ n s₁, (system engine).runWhile (fun _ _ ↦ True) s
        (.start c req :: List.replicate n .worker) = some s₁ ∧
      Prepared s c req ((s.backend c).gen + 1) s₁ := by
  have hstart := Sys.start_eq req hclosing hworker hc
  by_cases hsmall : (s.region c).size < neededBytes req ((s.backend c).gen + 1)
  · rw [if_pos hsmall] at hstart
    obtain ⟨capacity, hgrown, hfit⟩ :=
      exists_grownCapacity hcap (neededBytes req ((s.backend c).gen + 1))
    let s₁ := (s.numbered c).goto (s.calling c req) .grow
    let s₂ := ((s.numbered c).attachData c capacity).goto (s.calling c req) (.announce s.sabs)
    let s₃ := (s₂.post (.sab c s.sabs)).goto (s.calling c req) .marshal
    have h₂ : s₁.stepWorker = some s₂ := by
      rw [@Sys.stepWorker_call s₁ _ .grow hclosing rfl, Sys.stepCall,
        show s₁.region (s.calling c req).chan = s.region c from s.region_numbered c,
        show grownCapacity _ (neededBytes (s.calling c req).request (s.calling c req).gen) =
          some capacity from hgrown]
      rfl
    have h₃ : s₂.stepWorker = some s₃ := @Sys.stepWorker_call s₂ _ _ hclosing rfl
    refine ⟨2, s₃, ?_, prepared_of_grown hclosing hsmall hfit⟩
    rw [System.runWhile_cons _ trivial hstart, List.replicate_succ, List.replicate_succ,
      System.runWhile_cons _ trivial h₂, System.runWhile_cons _ trivial h₃, List.replicate_zero,
      System.runWhile]
  · rw [if_neg hsmall] at hstart
    refine ⟨0, _, ?_, prepared_of_fits hclosing hlast (not_lt.mp hsmall)⟩
    rw [System.runWhile_cons _ trivial hstart, List.replicate_zero, System.runWhile]

end

/-- The request codec: whatever the data region holds and however small it is, an RPC that
starts stores its request, inside the region that its channel announced last and grown no further
than it has to be, and the bridge reads the same request back. -/
theorem request_codec {engine : Engine} {ok : System.Guard Sys Action} {s : Sys} {c : Nat}
    {req : Request} {d : Region} (hs : (system engine).Reachable ok s)
    (hclosing : s.closing = none) (hworker : s.worker = .ready) (hc : c < s.backends)
    (hcap : 1 ≤ d.size)
    (hheader : (headerBytes req ((s.backend c).gen + 1)).length < 2 ^ 32)
    (hbody : req.body.length < 2 ^ 32) :
    ∃ n s', (system engine).runWhile (fun _ _ ↦ True) (s.setSab (s.backend c).data d)
        (.start c req :: List.replicate n .worker) = some s' ∧
      Written (s.setSab (s.backend c).data d) c req ((s.backend c).gen + 1) s' := by
  have hlast : s.lastAnnounced c = some (s.backend c).data := by
    refine (provisioned_of_reachable hs).announced c hc fun d' ↦ ?_
    rw [hworker]
    rintro ⟨⟩
  let s₀ := s.setSab (s.backend c).data d
  have hd : s₀.region c = d := Function.update_self ..
  obtain ⟨n, s₁, hrun, hprepared⟩ := @exists_prepared s₀ c req engine hclosing hworker hc hlast
    (hd.symm ▸ hcap)
  obtain ⟨-, -, hfits, -⟩ := hprepared.capacity
  obtain ⟨r, hr, -⟩ := writeRequest_of_fits hfits
  refine ⟨n + 5, _, ?_, hprepared.written hr hheader hbody⟩
  rw [List.replicate_add, ← List.cons_append, System.runWhile_append _ hrun]
  exact runWhile_marshal engine hprepared.closing hprepared.worker hr

/-- A data SAB of one byte, just announced. -/
def oneByte : Sys where
  backend := Function.update (fun _ ↦ {}) 0 { data := 0, ctrl := { cap := toInt32 1 } }
  backends := 1
  sab := Function.update (fun _ ↦ .zeros 0) 0 (.zeros 1)
  sabs := 1
  queue := [.sab 0 0]
  sent := [.sab 0 0]

theorem reachable_oneByte : (system v8).Reachable (fun _ _ ↦ True) oneByte :=
  @System.Reachable.runWhile _ _ _ _ _ _ _ [.construct 1, .worker] (.init rfl) rfl

/-- A request with a timeout that has an exponent, and a stale byte. -/
theorem request_codec_one_byte :
    let req : Request := {
      kind := .unary, url := "/", body := [1, 2, 3]
      timeout := some { mantissa := 1, scale := 0, exponent := some (-7) } }
    let s := oneByte.setSab 0 ⟨1, fun _ ↦ 7⟩
    ∃ n s', (system v8).runWhile (fun _ _ ↦ True) s (.start 0 req :: List.replicate n .worker) =
      some s' ∧ Written s 0 req 1 s' :=
  @request_codec v8 _ oneByte 0 _ ⟨1, fun _ ↦ 7⟩ reachable_oneByte rfl rfl (by decide) le_rfl
    (by decide +kernel) (by decide)

end ConnectWeb.Sab
