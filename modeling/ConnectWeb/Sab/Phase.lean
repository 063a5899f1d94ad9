import ConnectWeb.Sab.System

/-!
# Phases of the two threads

The program counters of `Sab.State` are finer than what the threads know of each other.
A call is in a *phase* of its exchange with the bridge, and an invocation of `handleRpc`
in a *stage*; a `notify`, which moves a sleeper, changes neither.
-/

namespace ConnectWeb.Sab

/-! ## The worker -/

/-- Where a call stands in its exchange. -/
inductive Phase where
  /-- in `_write_request`, before the store of GEN -/
  | preparing
  /-- in `_write_request`, behind the store of GEN -/
  | posting
  /-- waiting for STATE to leave `w.expect` -/
  | asking (w : Wait)
  /-- taking an answer out of the channel -/
  | reading
  /-- about to store CHUNK_ACK and to wait for `w` -/
  | acking (w : Wait)
  /-- behind a `yield`, before the load of GEN -/
  | resuming
  /-- in `_reset_idle_if_current`, before the load of GEN -/
  | ending (o : Outcome)
  /-- in `_reset_idle_if_current`, behind the load of GEN -/
  | resetting (o : Outcome)

def Pc.phase : Pc → Phase
  | .grow | .announce _ | .marshal => .preparing
  | .storeLength _ | .storeSeq | .storeReady => .posting
  | .nudge => .asking .first
  | .wait w | .block w | .parked w => .asking w
  | .loadStatus _ | .readWindow => .reading
  | .ackWindow => .acking .window
  | .resume => .resuming
  | .ackChunk => .acking .chunk
  | .resetLoad o => .ending o
  | .resetStore o => .resetting o

/-- The call is inside `_write_request`, before the store of STATE. -/
def Phase.requests : Phase → Bool
  | .preparing | .posting => true
  | _ => false

/-- The call is waiting for STATE to change. -/
def Phase.asks : Phase → Bool
  | .asking _ => true
  | _ => false

/-- The call is waiting for an answer, or taking one. -/
def Phase.engaged : Phase → Bool
  | .asking _ | .reading => true
  | _ => false

theorem Phase.requests_of_engaged {ph : Phase} (h : ph.engaged = true) : ph.requests = false := by
  cases ph <;> first
    | rfl
    | cases h

def Worker.phase : Worker → Option (Call × Phase)
  | .run call pc => some (call, pc.phase)
  | _ => none

def Worker.call : Worker → Option Call
  | .run call _ => some call
  | _ => none

@[simp] theorem Worker.phase_ready : Worker.phase .ready = none := rfl
@[simp] theorem Worker.phase_attaching (c d : Nat) : Worker.phase (.attaching c d) = none := rfl
@[simp] theorem Worker.phase_run (call : Call) (pc : Pc) :
    Worker.phase (.run call pc) = some (call, pc.phase) := rfl
@[simp] theorem Worker.call_ready : Worker.call .ready = none := rfl
@[simp] theorem Worker.call_attaching (c d : Nat) : Worker.call (.attaching c d) = none := rfl
@[simp] theorem Worker.call_run (call : Call) (pc : Pc) :
    Worker.call (.run call pc) = some call := rfl

@[simp] theorem Worker.phase_wake (c : Nat) (w : Worker) : (w.wake c).phase = w.phase := by
  unfold Worker.wake
  split
  · split <;> rfl
  · rfl

@[simp] theorem Worker.call_wake (c : Nat) (w : Worker) : (w.wake c).call = w.call := by
  unfold Worker.wake
  split
  · split <;> rfl
  · rfl

theorem Worker.call_of_phase {w : Worker} {call : Call} {ph : Phase}
    (h : w.phase = some (call, ph)) : w.call = some call := by
  cases w with
  | run _ _ =>
      cases h
      rfl
  | ready | attaching _ _ => cases h

theorem afterWait_call (call : Call) (w : Wait) (st : SabState) (d : Region) :
    (afterWait call w st d).1.chan = call.chan ∧ (afterWait call w st d).1.gen = call.gen ∧
      (afterWait call w st d).1.request = call.request := by
  unfold afterWait
  split <;> exact ⟨rfl, rfl, rfl⟩

/-- What the caller of `_read_window` makes of a window. -/
theorem takeWindow_of_read {call : Call} {d : Region} {length : Int}
    {metaBase : List (String × Json)} {more : Bool} {payload : Bytes}
    (h : readWindow d length = some (windowMeta metaBase more, payload)) :
    takeWindow call d length = (if more then WindowStep.more else .last) { call with
      firstMeta := some (call.firstMeta.getD (windowMeta metaBase more))
      parts := call.parts ++ [payload] } := by
  have hmore := get?_more metaBase more
  rw [windowMeta, Json.get?] at hmore
  rw [takeWindow, h, windowMeta]
  simp only [hmore, truthy]
  cases more <;> rfl

theorem takeWindow_call {call call' : Call} {d : Region} {length : Int}
    (h : takeWindow call d length = .more call' ∨ takeWindow call d length = .last call') :
    call'.chan = call.chan ∧ call'.gen = call.gen ∧ call'.request = call.request := by
  unfold takeWindow at h
  split at h
  · split at h
    · split at h
      · rcases h with h | h
        · cases h
          exact ⟨rfl, rfl, rfl⟩
        · cases h
      · rcases h with h | h
        · cases h
        · cases h
          exact ⟨rfl, rfl, rfl⟩
    · rcases h with h | h
      · cases h
      · cases h
        exact ⟨rfl, rfl, rfl⟩
  · rcases h with h | h <;> cases h

/-! ## The main thread -/

/-- Where an invocation of `handleRpc` stands. -/
inductive Stage where
  /-- between its guard or an ack and the next store of STATE -/
  | serving
  /-- in `_awaitWorker` -/
  | awaiting (next : Next)
  /-- in `finally` -/
  | leaving

namespace At

def stage : At → Stage
  | .fetching | .buffering _ | .reading _ _ | .window _ | .report .. | .storeLength ..
  | .storeState .. => .serving
  | .awaitLoad next | .awaitBlock _ next | .parked _ _ next | .woken next => .awaiting next
  | .leaving => .leaving

/-- The invocation is suspended at an `await`. -/
def sleeps : At → Bool
  | .fetching | .buffering _ | .reading _ _ | .parked .. | .woken _ => true
  | _ => false

end At

def Task.stage (t : Task) : Stage := t.pc.stage

def Task.Serves (t : Task) : Prop := t.stage = .serving

@[simp] theorem Task.stage_mk (p : Pick) (b : Bool) (pc : At) :
    Task.stage ⟨p, b, pc⟩ = pc.stage := rfl

@[simp] theorem Task.pick_goto (t : Task) (pc : At) : (t.goto pc).pick = t.pick := rfl
@[simp] theorem Task.stage_goto (t : Task) (pc : At) : (t.goto pc).stage = pc.stage := rfl
@[simp] theorem Task.pc_goto (t : Task) (pc : At) : (t.goto pc).pc = pc := rfl

@[simp] theorem Task.pick_wake (c : Nat) (t : Task) : (t.wake c).pick = t.pick := by
  unfold Task.wake
  split
  · split <;> rfl
  · rfl

@[simp] theorem Task.stage_wake (c : Nat) (t : Task) : (t.wake c).stage = t.stage := by
  unfold Task.wake
  split
  · rename_i h
    split
    · rw [Task.stage, Task.stage, h]
      rfl
    · rfl
  · rfl

theorem Task.sleeps_wake (c : Nat) (t : Task) : (t.wake c).pc.sleeps = t.pc.sleeps := by
  unfold Task.wake
  split
  · rename_i h
    split
    · rw [h]
      rfl
    · rfl
  · rfl

/-- Only a sleeper is moved by a `notify`. -/
theorem Task.wake_eq_self {c : Nat} {t : Task} (h : ∀ cur next, t.pc ≠ .parked c cur next) :
    t.wake c = t := by
  unfold Task.wake
  split
  · rename_i c' cur next hpc
    split
    · rename_i hc
      exact absurd (hc ▸ hpc) (h cur next)
    · rfl
  · rfl

namespace Sys

/-- The invocations that passed their guard and are not over. -/
def live (s : Sys) : List Task := s.current.task.toList ++ s.tasks

/-- The calls that are not over: the running one, the one being closed, the suspended. -/
def calls (s : Sys) : List Call :=
  s.worker.call.toList ++ (s.closing.map Closing.call).toList ++ s.suspended

theorem mem_live {s : Sys} {t : Task} (h : s.live = [t]) : t ∈ s.live := by
  rw [h]
  exact List.mem_singleton_self t

theorem mem_calls_of_phase {s : Sys} {call : Call} {ph : Phase}
    (h : s.worker.phase = some (call, ph)) : call ∈ s.calls := by
  rw [calls, Worker.call_of_phase h]
  simp

theorem mem_calls_of_closing {s : Sys} {cl : Closing} (h : s.closing = some cl) :
    cl.call ∈ s.calls := by
  rw [calls, h]
  simp

theorem mem_calls_of_suspended {s : Sys} {call : Call} (h : call ∈ s.suspended) :
    call ∈ s.calls :=
  List.mem_append_right _ h

/-! ## What the setters keep -/

section
variable (s : Sys) (c c' : Nat) (f : Control → Control)

/-- A field of a backend that an update does not touch. -/
theorem setBackend_keeps {α : Type} (f : Backend → Backend) (g : Backend → α)
    (h : ∀ b, g (f b) = g b) : g ((s.setBackend c f).backend c') = g (s.backend c') := by
  by_cases heq : c' = c
  · subst heq
    simp [setBackend, h]
  · simp [setBackend, heq]

theorem ctrl_setGen (gen : Nat) :
    ((s.setBackend c fun b ↦ { b with gen }).backend c').ctrl = (s.backend c').ctrl :=
  s.setBackend_keeps c c' (fun b ↦ { b with gen }) Backend.ctrl fun _ ↦ rfl

theorem data_setGen (gen : Nat) :
    ((s.setBackend c fun b ↦ { b with gen }).backend c').data = (s.backend c').data :=
  s.setBackend_keeps c c' (fun b ↦ { b with gen }) Backend.data fun _ ↦ rfl

theorem state_setGen (gen : Nat) :
    (s.setBackend c fun b ↦ { b with gen }).state c' = s.state c' :=
  congrArg Control.state (s.ctrl_setGen c c' gen)

@[simp] theorem data_setCtrl : ((s.setCtrl c f).backend c').data = (s.backend c').data :=
  s.setBackend_keeps c c' (fun b ↦ { b with ctrl := f b.ctrl }) Backend.data fun _ ↦ rfl

@[simp] theorem gen_setCtrl : ((s.setCtrl c f).backend c').gen = (s.backend c').gen :=
  s.setBackend_keeps c c' (fun b ↦ { b with ctrl := f b.ctrl }) Backend.gen fun _ ↦ rfl

theorem ctrl_setCtrl :
    ((s.setCtrl c f).backend c').ctrl =
      if c' = c then f (s.backend c').ctrl else (s.backend c').ctrl := by
  by_cases h : c' = c
  · subst h
    simp [setCtrl, setBackend]
  · simp [setCtrl, setBackend, h]

@[simp] theorem ctrl_setCtrl_self : ((s.setCtrl c f).backend c).ctrl = f (s.backend c).ctrl := by
  rw [ctrl_setCtrl, if_pos rfl]

/-- A field of the control words that a store does not touch. -/
theorem ctrl_setCtrl_keeps {α : Type} (g : Control → α) (h : ∀ x, g (f x) = g x) :
    g ((s.setCtrl c f).backend c').ctrl = g (s.backend c').ctrl := by
  rw [ctrl_setCtrl]
  split
  · exact h _
  · rfl

theorem state_setCtrl (h : ∀ x, (f x).state = x.state) :
    (s.setCtrl c f).state c' = s.state c' :=
  ctrl_setCtrl_keeps s c c' f Control.state h

theorem state_storeByWorker (st : SabState) :
    (s.storeByWorker c st).state c' = if c' = c then st else s.state c' := by
  change ((s.setCtrl c fun ctrl ↦ { ctrl with state := st }).backend c').ctrl.state = _
  rw [ctrl_setCtrl]
  split <;> rfl

/-- A store of IDLE that leaves a channel busy was made elsewhere. -/
theorem state_storeByWorker_idle (h : (s.storeByWorker c .idle).state c' ≠ .idle) :
    (s.storeByWorker c .idle).state c' = s.state c' := by
  have hstate := s.state_storeByWorker c c' .idle
  by_cases heq : c' = c
  · exact absurd (hstate.trans (if_pos heq)) h
  · exact hstate.trans (if_neg heq)

@[simp] theorem data_storeByWorker (st : SabState) :
    ((s.storeByWorker c st).backend c').data = (s.backend c').data :=
  data_setCtrl s c c' fun ctrl ↦ { ctrl with state := st }

@[simp] theorem data_storeByMain (t : Task) (st : SabState) :
    ((s.storeByMain t c st).backend c').data = (s.backend c').data :=
  data_setCtrl s c c' fun ctrl ↦ { ctrl with state := st }

/-- A store of STATE leaves the other words. -/
theorem ctrl_storeByWorker {α : Type} (st : SabState) (g : Control → α)
    (h : ∀ x, g { x with state := st } = g x) :
    g ((s.storeByWorker c st).backend c').ctrl = g (s.backend c').ctrl :=
  ctrl_setCtrl_keeps s c c' (fun ctrl ↦ { ctrl with state := st }) g h

theorem ctrl_storeByMain {α : Type} (t : Task) (st : SabState) (g : Control → α)
    (h : ∀ x, g { x with state := st } = g x) :
    g ((s.storeByMain t c st).backend c').ctrl = g (s.backend c').ctrl :=
  ctrl_setCtrl_keeps s c c' (fun ctrl ↦ { ctrl with state := st }) g h

theorem writer_storeByWorker (st : SabState) {cell : Cell} (h : cell ≠ .state c) :
    (s.storeByWorker c st).writer cell = s.writer cell := by
  change Function.update s.writer (.state c) none cell = _
  rw [Function.update_of_ne h]

theorem writer_storeByMain (t : Task) (st : SabState) {cell : Cell} (h : cell ≠ .state c) :
    (s.storeByMain t c st).writer cell = s.writer cell := by
  change Function.update s.writer (.state c) (some t) cell = _
  rw [Function.update_of_ne h]

theorem state_storeByMain (t : Task) (st : SabState) :
    (s.storeByMain t c st).state c' = if c' = c then st else s.state c' := by
  change ((s.setCtrl c fun ctrl ↦ { ctrl with state := st }).backend c').ctrl.state = _
  rw [ctrl_setCtrl]
  split <;> rfl

end

end Sys

end ConnectWeb.Sab
