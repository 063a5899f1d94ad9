import ConnectWeb.Foundation.Amortized
import ConnectWeb.Sab.Unblocked

/-!
# What the two threads may still do

Between two events from outside (the caller starts, resumes or closes something, the network
answers, a timer fires) the two threads exchange a bounded number of steps.  The *potential* of
a state bounds them: every window that is still to be written pays for the turn of the worker
that it causes, and every store of the worker's for the invocation that it wakes.
-/

namespace ConnectWeb.Sab

/-! ## The potential -/

/-- What a call may do before the next event from outside, where its channel shows `st`. -/
def Pc.potential (st : SabState) : Pc → Nat
  | .grow => 17
  | .announce _ => 16
  | .marshal => 14
  | .storeLength _ => 13
  | .storeSeq => 12
  | .storeReady => 11
  | .nudge => if st = .reqReady then 5 else 14
  | .block w => if st = w.expect then 1 else 12
  | .wait w => if st = w.expect then 2 else 11
  | .parked _ => 0
  | .loadStatus _ => 10
  | .readWindow | .resume => 9
  | .ackWindow | .ackChunk => 8
  | .resetLoad _ => 7
  | .resetStore _ => 6

def Worker.potential (state : Nat → SabState) : Worker → Nat
  | ready => 0
  | attaching _ _ => 2
  | run call pc => pc.potential (state call.chan)

@[simp] theorem Worker.potential_run (state : Nat → SabState) (call : Call) (pc : Pc) :
    (Worker.run call pc).potential state = pc.potential (state call.chan) := rfl

def Closing.potential (cl : Closing) : Nat := if cl.loaded then 17 else 18

def Message.potential : Message → Nat
  | sab _ _ => 1
  | rpc => 2

namespace Emission

/-- The bytes that are not sent yet. -/
def left (e : Emission) : Nat := (e.bytes.length - e.sent).toNat

end Emission

/-- A bound for the stores of STATE that are still to come; the caller of `window` is one step
ahead of it. -/
def Next.stores : Next → Nat
  | window e => 2 * e.left + 3
  | read _ | leave => 0

def At.stores : At → Nat
  | window e => 2 * e.left + 2
  | report _ _ _ => 1
  | storeLength _ _ next | storeState _ next => 1 + next.stores
  | awaitLoad next | awaitBlock _ next | parked _ _ next | woken next => next.stores
  | fetching | buffering _ | reading _ _ | leaving => 0

/-- The steps up to the next store or the next sleep, where the channel attached shows `st`. -/
def At.steps (engine : Engine) (st : SabState) : At → Nat
  | window _ => 10
  | report _ _ caught => if caught then 8 else 9
  | storeLength _ _ _ => 7
  | storeState _ _ => 6
  | awaitLoad _ => 4
  | awaitBlock cur _ => if engine.waitAsync = true ∧ st ≠ cur then 5 else 3
  | woken _ => if engine.waitAsync = true then 5 else 0
  | leaving => 2
  | fetching | buffering _ | reading _ _ | parked _ _ _ => 0

def At.potential (engine : Engine) (st : SabState) (pc : At) : Nat :=
  11 * pc.stores + pc.steps engine st

namespace Sys

/-- The STATE word of the channel attached. -/
def attached (s : Sys) : SabState := (s.bridge.ctrl.map s.state).getD .idle

/-- What the main thread may do. -/
def mainPotential (engine : Engine) (s : Sys) : Nat :=
  (s.live.map fun t ↦ t.pc.potential engine s.attached).sum +
    match s.current with
    | .guard => 1
    | .idle | .run _ => 0

def potential (engine : Engine) (s : Sys) : Nat :=
  s.worker.potential s.state + (s.closing.map Closing.potential).getD 0 +
    (s.queue.map Message.potential).sum + s.mainPotential engine

end Sys

/-! ## Stores of STATE -/

theorem Pc.potential_le (st st' : SabState) (pc : Pc) :
    pc.potential st' ≤ pc.potential st + 11 := by
  cases pc with
  | nudge | block _ | wait _ =>
      simp only [potential]
      split <;> split <;> omega
  | _ => exact Nat.le_add_right _ _

theorem Worker.potential_le (state state' : Nat → SabState) (w : Worker) :
    w.potential state' ≤ w.potential state + 11 := by
  cases w with
  | run call pc => exact pc.potential_le _ _
  | ready | attaching _ _ => exact Nat.le_add_right _ _

/-- Whatever the main thread stores, it stirs the worker only so much. -/
theorem Worker.potential_wake_le (state state' : Nat → SabState) (c : Nat) (w : Worker) :
    (w.wake c).potential state' ≤ w.potential state + 11 := by
  unfold wake
  split
  · split
    · simp only [potential, Pc.potential]
      split <;> omega
    · exact Nat.zero_le _
  · exact w.potential_le _ _

/-- Whatever the worker stores, it stirs an invocation only so much. -/
theorem Task.potential_wake_le (engine : Engine) (st st' : SabState) (c : Nat) (t : Task) :
    (t.wake c).pc.potential engine st' ≤ t.pc.potential engine st + 5 := by
  have moved : t.pc.potential engine st' ≤ t.pc.potential engine st + 5 := by
    cases hpc : t.pc with
    | awaitBlock cur next =>
        simp only [At.potential, At.stores, At.steps]
        split <;> split <;> omega
    | _ => exact Nat.le_add_right _ _
  unfold wake
  split
  · rename_i hpc
    split
    · rw [hpc]
      simp only [At.potential, At.stores, At.steps]
      split <;> omega
    · exact moved
  · exact moved

namespace Sys

variable {engine : Engine} {s s' : Sys}

theorem mainPotential_of_still (hst : ∀ c, s'.state c = s.state c) (hl : s'.live = s.live)
    (hb : s'.bridge = s.bridge) (hc : s'.current = s.current) :
    s'.mainPotential engine = s.mainPotential engine := by
  have hattached : s'.attached = s.attached := by
    rw [attached, attached, hb]
    cases s.bridge.ctrl with
    | none => rfl
    | some c => exact hst c
  rw [mainPotential, mainPotential, hl, hc, hattached]

theorem mainPotential_of_wake {c : Nat} (hs : Shape s) (hl : s'.live = s.live.map (Task.wake c))
    (hc : s'.current = s.current) : s'.mainPotential engine ≤ s.mainPotential engine + 5 := by
  rw [mainPotential, mainPotential, hl, hc]
  rcases hs.single with ⟨h0, -⟩ | ⟨t, h1, -⟩
  · rw [h0]
    exact Nat.le_add_right _ _
  · rw [h1]
    have hwake := t.potential_wake_le engine s.attached s'.attached c
    simp only [List.map_cons, List.map_nil, List.sum_cons, List.sum_nil]
    omega

/-- What the worker, a generator that is closed, and the messages on their way may still do. -/
def workerPotential (s : Sys) : Nat :=
  s.worker.potential s.state + (s.closing.map Closing.potential).getD 0 +
    (s.queue.map Message.potential).sum

/-- A step of the worker's that stores no STATE. -/
theorem potential_lt_of_still (hst : ∀ c, s'.state c = s.state c) (hl : s'.live = s.live)
    (hb : s'.bridge = s.bridge) (hc : s'.current = s.current)
    (h : s'.workerPotential < s.workerPotential) : s'.potential engine < s.potential engine := by
  have hmain : s'.mainPotential engine = s.mainPotential engine :=
    mainPotential_of_still hst hl hb hc
  rw [potential, potential, hmain]
  exact Nat.add_lt_add_right h _

/-- A step of the worker's that stores STATE. -/
theorem potential_lt_of_wake {c : Nat} (hs : Shape s) (hl : s'.live = s.live.map (Task.wake c))
    (hc : s'.current = s.current) (h : s'.workerPotential + 5 < s.workerPotential) :
    s'.potential engine < s.potential engine := by
  have hmain : s'.mainPotential engine ≤ s.mainPotential engine + 5 :=
    mainPotential_of_wake hs hl hc
  rw [potential, potential]
  rw [workerPotential, workerPotential] at h
  omega

end Sys

/-! ## The worker's steps -/

theorem afterWait_potential (call : Call) (w : Wait) (st : SabState) (d : Region) :
    (afterWait call w st d).2.potential st ≤ 10 := by
  unfold afterWait
  split <;> simp [Pc.potential]

section
variable {engine : Engine} {s s' : Sys} {call : Call} {pc : Pc}

namespace Sys

/-- A message is posted. -/
theorem potential_lt_of_post {m : Message} (hst : ∀ c, s'.state c = s.state c)
    (hl : s'.live = s.live) (hb : s'.bridge = s.bridge) (hc : s'.current = s.current)
    (hcl : s'.closing = s.closing) (hq : s'.queue = s.queue ++ [m])
    (h : s'.worker.potential s.state + m.potential < s.worker.potential s.state) :
    s'.potential engine < s.potential engine := by
  have hqueue : (s'.queue.map Message.potential).sum =
      (s.queue.map Message.potential).sum + m.potential := by simp [hq]
  refine potential_lt_of_still hst hl hb hc ?_
  rw [workerPotential, workerPotential, show s'.state = s.state from funext hst, hcl, hqueue]
  omega

section
variable (hw : s.worker = .run call pc)

include hw

/-- The running call goes on to `w` without a store of STATE. -/
theorem potential_lt_of_quiet {w : Worker} (hw' : s'.worker = w)
    (hst : ∀ c, s'.state c = s.state c) (hl : s'.live = s.live) (hb : s'.bridge = s.bridge)
    (hc : s'.current = s.current) (hcl : s'.closing = s.closing) (hq : s'.queue = s.queue)
    (h : w.potential s.state < pc.potential (s.state call.chan)) :
    s'.potential engine < s.potential engine := by
  refine potential_lt_of_still hst hl hb hc ?_
  rw [workerPotential, workerPotential, hw, hw', hcl, hq, show s'.state = s.state from funext hst]
  exact Nat.add_lt_add_right (Nat.add_lt_add_right h _) _

theorem potential_goto_lt {call' : Call} {pc' : Pc} (hchan : call'.chan = call.chan)
    (h : pc'.potential (s.state call.chan) < pc.potential (s.state call.chan)) :
    (s.goto call' pc').potential engine < s.potential engine :=
  potential_lt_of_quiet hw rfl (fun _ ↦ rfl) rfl rfl rfl rfl rfl (hchan ▸ h)

theorem potential_post_lt {m : Message} {pc' : Pc}
    (h : pc'.potential (s.state call.chan) + m.potential < pc.potential (s.state call.chan)) :
    ((s.post m).goto call pc').potential engine < s.potential engine := by
  refine potential_lt_of_post (fun _ ↦ rfl) rfl rfl rfl rfl rfl ?_
  rw [hw]
  exact h

/-- The running call stores STATE and goes on to `w`. -/
theorem potential_lt_of_store {st : SabState} {w : Worker} (hs : Shape s) (hw' : s'.worker = w)
    (hst : s'.state = (s.storeByWorker call.chan st).state)
    (hl : s'.live = (s.storeByWorker call.chan st).live) (hc : s'.current = s.current)
    (hcl : s'.closing = s.closing) (hq : s'.queue = s.queue)
    (h : ∀ state : Nat → SabState, state call.chan = st →
      w.potential state + 5 < pc.potential (s.state call.chan)) :
    s'.potential engine < s.potential engine := by
  have hlt := h s'.state (by rw [hst, state_storeByWorker, if_pos rfl])
  refine potential_lt_of_wake hs (hl.trans (hs.live_storeByWorker _ _)) hc ?_
  rw [workerPotential, workerPotential, hw, hw', hcl, hq, Worker.potential_run]
  omega

theorem potential_store_lt {st : SabState} {pc' : Pc} (hs : Shape s)
    (h : pc'.potential st + 5 < pc.potential (s.state call.chan)) :
    ((s.storeByWorker call.chan st).goto call pc').potential engine < s.potential engine := by
  refine potential_lt_of_store hw hs rfl rfl rfl rfl rfl rfl fun state hst ↦ ?_
  rw [← hst] at h
  exact h

end

end Sys

theorem CallMove.potential_lt (hm : CallMove s call pc s') (hw : s.worker = .run call pc)
    (hs : Shape s) : s'.potential engine < s.potential engine := by
  cases hm with
  | @grow capacity _ =>
      exact Sys.potential_lt_of_quiet hw rfl (state_attachData s call.chan capacity) rfl rfl rfl rfl
        rfl (by decide : 16 < 17)
  | announce => exact Sys.potential_post_lt hw (by decide : 14 + 1 < 16)
  | @marshal r _ =>
      exact Sys.potential_lt_of_quiet hw rfl (state_marshalled s call r) rfl rfl rfl rfl rfl
        (by decide : 13 < 14)
  | unfit _ =>
      exact Sys.potential_lt_of_quiet hw rfl (fun _ ↦ rfl) rfl rfl rfl rfl rfl (by decide : 0 < 14)
  | @storeLength off =>
      refine Sys.potential_lt_of_quiet hw rfl (fun c ↦ ?_) rfl rfl rfl rfl rfl (by decide : 12 < 13)
      exact Sys.state_setCtrl s call.chan c (fun ctrl ↦ { ctrl with length := toInt32 off })
        fun _ ↦ rfl
  | storeSeq =>
      refine Sys.potential_lt_of_quiet hw rfl (fun c ↦ ?_) rfl rfl rfl rfl rfl (by decide : 11 < 12)
      exact Sys.state_setCtrl s call.chan c (fun ctrl ↦ { ctrl with seq := 0 }) fun _ ↦ rfl
  | storeReady => exact Sys.potential_store_lt hw hs (by decide : 5 + 5 < 11)
  | nudge =>
      refine Sys.potential_post_lt hw ?_
      by_cases hst : s.state call.chan = .reqReady
      · simp [Pc.potential, Wait.expect, Message.potential, hst]
      · simp [Pc.potential, Wait.expect, Message.potential, hst]
  | due h =>
      refine Sys.potential_goto_lt hw rfl ?_
      simp only [Pc.potential, if_pos h]
      omega
  | @answered w h =>
      refine Sys.potential_goto_lt hw (afterWait_call call w _ _).1 ?_
      rw [Pc.potential, if_neg h]
      exact Nat.lt_succ_of_le (afterWait_potential call w _ _)
  | park h =>
      refine Sys.potential_goto_lt hw rfl ?_
      simp only [Pc.potential, if_pos h]
      omega
  | notEqual h =>
      refine Sys.potential_goto_lt hw rfl ?_
      simp only [Pc.potential, if_neg h]
      omega
  | @loadStatus chunk call' h =>
      subst h
      cases chunk with
      | false => exact Sys.potential_goto_lt hw rfl (by decide : 7 < 10)
      | true => exact Sys.potential_goto_lt hw rfl (by decide : 9 < 10)
  | malformed _ => exact Sys.potential_goto_lt hw rfl (by decide : 7 < 9)
  | more h => exact Sys.potential_goto_lt hw (takeWindow_call (.inl h)).1 (by decide : 8 < 9)
  | complete _ h => exact Sys.potential_goto_lt hw (takeWindow_call (.inr h)).1 (by decide : 7 < 9)
  | yield _ _ =>
      exact Sys.potential_lt_of_quiet hw rfl (fun _ ↦ rfl) rfl rfl rfl rfl rfl (by decide : 0 < 9)
  | ackWindow | ackChunk => exact Sys.potential_store_lt hw hs (by decide : 2 + 5 < 8)
  | current _ => exact Sys.potential_goto_lt hw rfl (by decide : 8 < 9)
  | stale _ => exact Sys.potential_goto_lt hw rfl (by decide : 7 < 9)
  | resets _ => exact Sys.potential_goto_lt hw rfl (by decide : 6 < 7)
  | keeps _ =>
      exact Sys.potential_lt_of_quiet hw rfl (fun _ ↦ rfl) rfl rfl rfl rfl rfl (by decide : 0 < 7)
  | resetStore =>
      exact Sys.potential_lt_of_store hw hs rfl rfl rfl rfl rfl rfl fun _ _ ↦
        (by decide : 0 + 5 < 6)

/-- The worker, or a generator that is closed, takes a step. -/
theorem WorkerMove.potential_lt {a : Action} (hm : WorkerMove s a s')
    (ha : a = .worker ∨ a = .closing) (hs : Shape s) :
    s'.potential engine < s.potential engine := by
  cases hm with
  | @attached c d hc hw =>
      refine Sys.potential_lt_of_post (fun _ ↦ rfl) rfl rfl rfl rfl rfl ?_
      rw [hw]
      exact (by decide : 0 + 1 < 2)
  | call _ hw hm => exact hm.potential_lt hw hs
  | closingCurrent hc _ =>
      refine Sys.potential_lt_of_still (fun _ ↦ rfl) rfl rfl rfl ?_
      rw [Sys.workerPotential, Sys.workerPotential, hc]
      exact Nat.add_lt_add_right (Nat.add_lt_add_left (by decide : 17 < 18) _) _
  | closingStale hc _ =>
      refine Sys.potential_lt_of_still (fun _ ↦ rfl) rfl rfl rfl ?_
      rw [Sys.workerPotential, Sys.workerPotential, hc]
      exact Nat.add_lt_add_right (Nat.add_lt_add_left (by decide : 0 < 18) _) _
  | @closingStore call hc =>
      refine Sys.potential_lt_of_wake hs (hs.live_storeByWorker call.chan .idle) rfl ?_
      have hw := s.worker.potential_le s.state (s.storeByWorker call.chan .idle).state
      rw [Sys.workerPotential, Sys.workerPotential, hc]
      change s.worker.potential (s.storeByWorker call.chan .idle).state + 0 +
        (s.queue.map Message.potential).sum + 5 < _ + 17 + _
      omega
  | construct _ _ | start _ _ _ _ | resume _ _ _ | expireFirst _ _ _ | expire _ _ _ | close _ _ _ =>
      rcases ha with ha | ha <;> cases ha

end

/-! ## The main thread's steps -/

/-- The windows that come next have room for a byte. -/
def Next.Advances : Next → Prop
  | window e => 0 < e.cap
  | read _ | leave => True

def At.Advances : At → Prop
  | window e => 0 < e.cap
  | storeLength _ _ next | storeState _ next | awaitLoad next | awaitBlock _ next
    | parked _ _ next | woken next => next.Advances
  | fetching | buffering _ | reading _ _ | report _ _ _ | leaving => True

theorem Emission.advances_next {e : Emission} (h : 0 < e.cap) : e.next.Advances := by
  rw [next]
  split
  · exact h
  · split <;> trivial

/-- What follows a window has fewer bytes to send. -/
theorem Emission.stores_next {e : Emission} (h : 0 < e.cap) :
    1 + e.next.stores ≤ 2 * e.left + 2 := by
  rw [next]
  split
  · rename_i hmore
    have hstop : e.stop < e.bytes.length := by simpa [more] using hmore
    simp only [Next.stores, left]
    rw [stop] at hstop ⊢
    omega
  · split <;> exact Nat.le_add_left _ _

theorem Task.advances_wake {c : Nat} {t : Task} (h : t.pc.Advances) : (t.wake c).pc.Advances := by
  unfold wake
  split
  · rename_i hpc
    rw [hpc] at h
    split
    · exact h
    · rw [hpc]
      exact h
  · exact h

/-- No invocation is stuck with a window that takes no bytes. -/
def Sys.Advances (s : Sys) : Prop := ∀ t ∈ s.live, t.pc.Advances

section
variable {engine : Engine} {s s' : Sys}

theorem WorkerMove.advances {a : Action} (hm : WorkerMove s a s') (hs : Shape s)
    (hn : OnlyNewest s) (h : s.Advances) : s'.Advances := by
  cases hm.stirs hs hn with
  | still _ hl =>
      intro t ht
      exact h t (hl ▸ ht)
  | store _ hl _ =>
      intro t ht
      rw [hl] at ht
      obtain ⟨t0, ht0, rfl⟩ := List.mem_map.mp ht
      exact Task.advances_wake (h t0 ht0)

theorem Task.Move.advances {c size : Nat} {st : SabState} {t t' : Task} {events : List Event}
    (hm : t.Move engine c st size t' events) (hsize : metaZone + 4 < size)
    (h : t.pc.Advances) : t'.pc.Advances := by
  have hcap : 0 < (size : Int) - metaZone - 4 := by omega
  cases hm with
  | buffered _ | chunk _ _ => exact hcap
  | timer _ | empty _ => exact h
  | ackedWindow hpc _ | still hpc _ | park hpc _ | notEqual hpc _ _ | poll hpc _ | woken hpc =>
      rw [hpc] at h
      exact h
  | _ => trivial

theorem MainMove.advances (hm : MainMove engine s s') (hs : Shape s) (ha : Announced s)
    (h : s.Advances) : s'.Advances := by
  have single : ∀ {t : Task} {s'' : Sys}, s''.live = [t] → t.pc.Advances → s''.Advances := by
    intro t s'' hl ht t' ht'
    rw [hl, List.mem_singleton] at ht'
    exact ht' ▸ ht
  cases hm with
  | attach _ _ => exact h
  | nudge hi _ =>
      intro t ht
      refine h t ?_
      rwa [Sys.live, hi]
  | decline hg _ =>
      intro t ht
      refine h t ?_
      rwa [Sys.live, hg]
  | pick _ _ _ _ _ hp hl' =>
      refine single hl'.live ?_
      cases hp <;> trivial
  | @task c t t' events _ _ hl _ hc hm hl' =>
      refine single hl'.live (hm.advances ?_ (h t (Sys.mem_live hl)))
      exact ha.room _ (ha.ctrl_lt hc).2
  | @store c off t _ _ _ _ next _ hr ht hc hst hw =>
      refine single (Sys.live_runs _ _ ht) ?_
      have := h t (hs.mem_live_of_run hr)
      cases hst with
      | window hpc =>
          rw [hpc] at this
          exact Emission.advances_next this
      | report _ => trivial
  | @overflow c t _ _ _ _ _ failed hr ht hc hst hw =>
      refine single (Sys.live_runs _ _ ht) ?_
      cases hst with
      | window _ => trivial
      | @report _ _ caught _ => cases caught <;> trivial
  | @storeLength c off t _ _ hr ht hc hpc =>
      refine single (Sys.live_runs _ _ ht) ?_
      have := h t (hs.mem_live_of_run hr)
      rw [hpc] at this
      exact this
  | @storeState c t _ next pc hr ht hc hpc hpc' =>
      refine single (Sys.live_runs _ _ ht) ?_
      have := h t (hs.mem_live_of_run hr)
      rw [hpc] at this
      rcases hpc' with ⟨-, rfl⟩ | ⟨-, rfl⟩
      · trivial
      · exact this
  | @leave c t hr ht hc hpc =>
      intro t' ht'
      rw [Sys.live_leave s c ht] at ht'
      cases ht'

/-- An invocation that runs comes closer to its next store or sleep. -/
theorem Task.Move.potential_lt {c size : Nat} {st : SabState} {t t' : Task} {events : List Event}
    (hm : t.Move engine c st size t' events) (ha : t.pc.sleeps = false) :
    t'.pc.potential engine st < t.pc.potential engine st := by
  cases hm with
  | ackedWindow hpc _ =>
      simp only [At.potential, pc_goto, hpc, At.stores, At.steps, Next.stores]
      omega
  | ackedRead hpc _ | ackedLeave hpc _ | quits hpc _ _ =>
      simp only [At.potential, pc_goto, hpc, At.stores, At.steps]
      omega
  | still hpc _ => simp [At.potential, hpc, At.stores, At.steps]
  | park hpc _ => simp [At.potential, hpc, At.stores, At.steps]
  | notEqual hpc hw hst => simp [At.potential, hpc, At.stores, At.steps, hw, hst]
  | poll hpc hw => simp [At.potential, hpc, At.stores, At.steps, hw]
  | rejected hpc | timer hpc | buffering hpc _ | reading hpc _ _ | bodiless hpc _ _ | buffered hpc
    | unbuffered hpc | empty hpc | chunk hpc _ | exhausted hpc | broken hpc | woken hpc =>
      rw [hpc] at ha
      cases ha

/-- The bytes of a window or a report are stored, or do not fit. -/
theorem Task.Stores.potential_lt {t : Task} {info : Json} {payload : Bytes} {status : Int}
    {state : SabState} {next : Next} {failed : At}
    (hm : t.Stores engine info payload status state next failed) (ha : t.pc.Advances)
    (st : SabState) :
    (∀ off, (At.storeLength off state next).potential engine st < t.pc.potential engine st) ∧
      failed.potential engine st < t.pc.potential engine st := by
  cases hm with
  | window hpc =>
      rw [hpc] at ha
      have := Emission.stores_next ha
      simp only [At.potential, hpc, At.stores, At.steps]
      exact ⟨fun _ ↦ by omega, by simp; omega⟩
  | @report _ _ caught hpc =>
      cases caught <;> simp [At.potential, hpc, At.stores, At.steps, Next.stores]

namespace Sys

theorem mainPotential_of_live {t : Task} (hl : s.live = [t]) (hg : s.current ≠ .guard) :
    s.mainPotential engine = t.pc.potential engine s.attached := by
  rw [mainPotential, hl]
  cases hc : s.current with
  | guard => exact absurd hc hg
  | idle | run _ => exact Nat.add_zero _

theorem ne_guard_of_run {t : Task} (hr : s.current = .run t) : s.current ≠ .guard := by
  intro hg
  cases hr.symm.trans hg

/-- A step of the main thread's that stores no STATE and takes no message. -/
theorem potential_lt_of_main (hw : s'.worker = s.worker) (hst : ∀ c, s'.state c = s.state c)
    (hcl : s'.closing = s.closing) (hq : s'.queue = s.queue)
    (h : s'.mainPotential engine < s.mainPotential engine) :
    s'.potential engine < s.potential engine := by
  rw [potential, potential, hw, hcl, hq, show s'.state = s.state from funext hst]
  exact Nat.add_lt_add_left h _

/-- The invocation that runs goes on as `t'` without a store of STATE. -/
theorem potential_lt_of_run {c : Nat} {t t' : Task} (hs : Shape s) (hr : s.current = .run t)
    (hctrl : s.bridge.ctrl = some c) (hl : s'.live = [t']) (hg : s'.current ≠ .guard)
    (hb : s'.bridge = s.bridge) (hw : s'.worker = s.worker) (hst : ∀ c, s'.state c = s.state c)
    (hcl : s'.closing = s.closing) (hq : s'.queue = s.queue)
    (h : t'.pc.potential engine (s.state c) < t.pc.potential engine (s.state c)) :
    s'.potential engine < s.potential engine := by
  refine potential_lt_of_main hw hst hcl hq ?_
  rw [mainPotential_of_live hl hg, mainPotential_of_live (hs.live_of_run hr) (ne_guard_of_run hr),
    attached, attached, hb, hctrl]
  change t'.pc.potential engine (s'.state c) < t.pc.potential engine (s.state c)
  rwa [hst]

end Sys

theorem MainMove.potential_lt (hm : MainMove engine s s') (hne : s.current ≠ .idle) (hs : Shape s)
    (ha : s.Advances) (hd : Dispatched s') : s'.potential engine < s.potential engine := by
  cases hm with
  | attach hi _ => exact absurd hi hne
  | nudge hi _ => exact absurd hi hne
  | decline hg _ =>
      refine Sys.potential_lt_of_main rfl (fun _ ↦ rfl) rfl rfl ?_
      rw [Sys.mainPotential, Sys.mainPotential, Sys.live, Sys.live, hg]
      exact Nat.lt_succ_self _
  | @pick c current tasks pc hg hl _ hc _ hp hl' =>
      refine Sys.potential_lt_of_main rfl (fun _ ↦ rfl) rfl rfl ?_
      have hmem : s.pickAt c ∈ s.picks ++ [s.pickAt c] :=
        List.mem_append_right _ (List.mem_singleton_self _)
      obtain ⟨q, -, hr⟩ := hd.reads (s.pickAt c) hmem
      -- the request that is up can be read
      have hpc : pc = .fetching := by
        cases hp with
        | fetch _ _ => rfl
        | unreadable hn | null hn =>
            rw [Pick.Reads, hn] at hr
            cases hr
      subst hpc
      rcases hl' with ⟨-, rfl, rfl⟩ | ⟨hs, -, -⟩
      · rw [Sys.mainPotential, Sys.mainPotential, hl, hg]
        exact Nat.zero_lt_one
      · cases hs
  | @task c t t' events current tasks hl hg hc hm hl' =>
      have hr : s.current = .run t := by
        cases hcur : s.current with
        | idle => exact absurd hcur hne
        | guard => exact absurd hcur hg
        | run t0 =>
            have := hs.live_of_run hcur
            rw [hl] at this
            cases this
            rfl
      refine Sys.potential_lt_of_run hs hr hc hl'.live ?_ rfl rfl (fun _ ↦ rfl) rfl rfl
        (hm.potential_lt (hs.awake t hr))
      rcases hl' with ⟨-, rfl, -⟩ | ⟨-, rfl, -⟩ <;> exact fun h ↦ by cases h
  | @store c off t info payload status _ next _ hr ht hc hst hw =>
      refine Sys.potential_lt_of_run hs hr hc (Sys.live_runs _ _ ht) (fun h ↦ by cases h) rfl rfl
        (fun c' ↦ ?_) rfl rfl ((hst.potential_lt (ha t (hs.mem_live_of_run hr)) _).1 off)
      exact Sys.state_stored s c t _ status c'
  | @overflow c t _ _ _ _ _ failed hr ht hc hst hw =>
      exact Sys.potential_lt_of_run hs hr hc (Sys.live_runs _ _ ht) (fun h ↦ by cases h) rfl rfl
        (fun _ ↦ rfl) rfl rfl (hst.potential_lt (ha t (hs.mem_live_of_run hr)) _).2
  | @storeLength c off t st next hr ht hc hpc =>
      refine Sys.potential_lt_of_run hs hr hc (Sys.live_runs _ _ ht) (fun h ↦ by cases h) rfl rfl
        (fun c' ↦ ?_) rfl rfl ?_
      · exact Sys.state_setCtrl s c c' (fun ctrl ↦ { ctrl with length := toInt32 off }) fun _ ↦ rfl
      · simp [At.potential, hpc, At.stores, At.steps]
  | @storeState c t st next pc hr ht hc hpc hpc' =>
      have hl : Sys.live ((s.storeByMain t c st).runs (t.goto pc)) = [t.goto pc] :=
        Sys.live_runs _ _ ht
      have hmain : Sys.mainPotential engine ((s.storeByMain t c st).runs (t.goto pc)) + 13 ≤
          s.mainPotential engine := by
        rw [Sys.mainPotential_of_live (hs.live_of_run hr) (Sys.ne_guard_of_run hr),
          Sys.mainPotential_of_live hl fun h ↦ by cases h]
        rcases hpc' with ⟨rfl, rfl⟩ | ⟨-, rfl⟩ <;>
          simp only [At.potential, Task.pc_goto, hpc, At.stores, At.steps, Next.stores] <;> omega
      have hw := s.worker.potential_wake_le s.state (s.storeByMain t c st).state c
      rw [Sys.potential, Sys.potential]
      change (s.worker.wake c).potential (s.storeByMain t c st).state + _ + _ + _ < _
      change _ + (s.closing.map Closing.potential).getD 0 + (s.queue.map Message.potential).sum + _ <
        _
      omega
  | @leave c t hr ht hc hpc =>
      refine Sys.potential_lt_of_main rfl (fun _ ↦ rfl) rfl rfl ?_
      rw [Sys.mainPotential_of_live (hs.live_of_run hr) (Sys.ne_guard_of_run hr), Sys.mainPotential,
        Sys.live_leave s c ht]
      simp only [At.potential, hpc, At.stores, At.steps]
      split <;> simp

end

end ConnectWeb.Sab
