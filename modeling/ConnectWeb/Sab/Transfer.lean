import ConnectWeb.Sab.Sending

/-!
# Exact delivery

Runs of one backend without timeouts in which every request fits the data SAB as it is, and a
control word counts its bytes.  A stream yields what the reader returned, chunk by chunk, and a
unary call returns the response that was fetched for it, however the windows are cut.
-/

namespace ConnectWeb.Sab

/-! ## Requests that fit -/

/-- Data SABs hold more than the meta zone, a request fits the one that is there, and there are
fewer RPCs than generations. -/
def Sys.Fitting (s : Sys) : Action → Prop
  | .construct capacity => metaZone + 4 < capacity
  | .start c req => neededBytes req ((s.backend c).gen + 1) ≤ (s.region c).size ∧
      (s.backend c).gen + 1 < 2 ^ 31
  | _ => True

/-- The length of a window reads back from its control word. -/
def Sys.Counted : Action → Prop
  | .construct capacity => capacity < 2 ^ 31
  | _ => True

/-- The data SAB is never replaced. -/
structure Settled (s : Sys) : Prop where
  sabs : s.sabs = s.backends
  sizes : ∀ d, (s.sab d).size < 2 ^ 31
  gen : (s.backend 0).gen < 2 ^ 31
  still : ∀ call, s.worker ≠ .run call .grow
  sized : ∀ q, s.posted 0 = some q → q.Sized

/-- A call grows its data SAB as it begins, and not again. -/
theorem CallMove.not_grow {s s' : Sys} {call : Call} {pc : Pc} (hm : CallMove s call pc s')
    (call0 : Call) : s'.worker ≠ .run call0 .grow := by
  intro hw0
  cases hm with
  | @answered w _ =>
      have hphase := congrArg Worker.phase hw0
      rw [Sys.goto, Worker.phase_run, Worker.phase_run, Option.some.injEq, Prod.mk.injEq] at hphase
      rcases afterWait_phase call w (s.state call.chan) (s.region call.chan) with heq | ⟨_, heq⟩ <;>
        cases heq.symm.trans hphase.2
  | @loadStatus chunk _ _ => cases chunk <;> cases hw0
  | _ => cases hw0

namespace Settled

variable {s s' : Sys}

theorem init : Settled {} where
  sabs := rfl
  sizes _ := Nat.two_pow_pos 31
  gen := Nat.two_pow_pos 31
  still _ := nofun
  sized _ h := by cases h

theorem same (h : Settled s) (hk : SameSabs s s') (hg : (s'.backend 0).gen = (s.backend 0).gen)
    (hw : ∀ call, s'.worker ≠ .run call .grow) (hp : s'.posted = s.posted) : Settled s' where
  sabs := hk.sabs.trans (h.sabs.trans hk.backends.symm)
  sizes d := hk.size d ▸ h.sizes d
  gen := hg ▸ h.gen
  still := hw
  sized q hq := h.sized q (hp ▸ hq)

/-- A control word is stored. -/
theorem word {c : Nat} (h : Settled s) (f : Control → Control) (hb : s'.backends = s.backends)
    (hn : s'.sabs = s.sabs) (hg : s'.backend = (s.setCtrl c f).backend) (hs : s'.sab = s.sab)
    (hw : ∀ call, s'.worker ≠ .run call .grow) (hp : s'.posted = s.posted) : Settled s' := by
  refine h.same (.setCtrl hb hn hg hs) ?_ hw hp
  rw [hg, Sys.gen_setCtrl]

/-- A request that fits is stored. -/
theorem marshalled {call : Call} {r : Region} (h : Settled s) (hc : call.chan = 0)
    (hfits : neededBytes call.request call.gen ≤ (s.region call.chan).size)
    (hr : r.size = (s.region call.chan).size) : Settled (s.marshalled call r) where
  sabs := h.sabs
  sizes d := by
    change (Function.update s.sab (s.backend call.chan).data r d).size < 2 ^ 31
    by_cases hd : d = (s.backend call.chan).data
    · rw [hd, Function.update_self, hr]
      exact h.sizes _
    · rw [Function.update_of_ne hd]
      exact h.sizes d
  gen := by
    rw [Sys.backend_marshalled, Sys.gen_setCtrl]
    exact h.gen
  still _ := nofun
  sized q hq := by
    have hposted : (s.marshalled call r).posted call.chan = some ⟨call.gen, call.request⟩ :=
      Function.update_self ..
    rw [hc, hq, Option.some.injEq] at hposted
    have hsize := h.sizes (s.backend call.chan).data
    rw [Sys.region, neededBytes] at hfits
    rw [hposted]
    have hheader : (headerBytes call.request call.gen).length < 2 ^ 32 := by omega
    have hbody : call.request.body.length < 2 ^ 32 := by omega
    exact ⟨hheader, hbody⟩

theorem call {call : Call} {pc : Pc} (h : Settled s) (hm : CallMove s call pc s')
    (hw : s.worker = .run call pc) (hp : Paced s) (hb : s.backends ≤ 1) : Settled s' := by
  have hph : s.worker.phase = some (call, pc.phase) := by rw [hw]; rfl
  have hchan := hp.sound.ledger.chan_eq_zero (Sys.mem_calls_of_phase hph) hb
  have still := hm.not_grow
  cases hm with
  | grow _ => exact absurd hw (h.still call)
  | marshal hr =>
      exact h.marshalled hchan (hp.sound.announced.fits call _ hw (.inl rfl))
        (size_of_writeRequest hr)
  | @storeLength off =>
      exact h.word (fun ctrl ↦ { ctrl with length := toInt32 off }) rfl rfl rfl rfl still rfl
  | storeSeq => exact h.word (fun ctrl ↦ { ctrl with seq := 0 }) rfl rfl rfl rfl still rfl
  | storeReady =>
      exact h.word (fun ctrl ↦ { ctrl with state := .reqReady }) rfl rfl rfl rfl still rfl
  | ackWindow | ackChunk =>
      exact h.word (fun ctrl ↦ { ctrl with state := .chunkAck }) rfl rfl rfl rfl still rfl
  | resetStore =>
      exact h.word (fun ctrl ↦ { ctrl with state := .idle }) rfl rfl rfl rfl still rfl
  | _ => exact h.same (.of_eq rfl rfl rfl rfl) rfl still rfl

theorem worker {a : Action} (h : Settled s) (hm : WorkerMove s a s') (ha : s.Fitting a)
    (hc : Sys.Counted a) (ho : s.OneBackend a) (hp : Paced s) (hb : s.backends ≤ 1) :
    Settled s' := by
  cases hm with
  | @construct capacity _ _ =>
      have h0 : s.backends = 0 := ho
      have hgens := SameGens.attachData { s with backends := s.backends + 1 } s.backends capacity
      refine ⟨?_, fun d ↦ ?_, (hgens.gen 0).trans_lt h.gen, by simp, h.sized⟩
      · change s.sabs + 1 = s.backends + 1
        rw [h.sabs]
      · change (Function.update s.sab s.sabs (.zeros capacity) d).size < 2 ^ 31
        by_cases hd : d = s.sabs
        · rw [hd, Function.update_self]
          exact hc
        · rw [Function.update_of_ne hd]
          exact h.sizes d
  | attached _ _ => exact h.same (.of_eq rfl rfl rfl rfl) rfl (by simp) rfl
  | @start c req pc _ _ hlt hpc =>
      obtain ⟨hfits, hgen⟩ := ha
      obtain rfl : c = 0 := by omega
      rw [if_neg (by omega)] at hpc
      subst hpc
      refine ⟨h.sabs, h.sizes, ?_, fun _ h ↦ (by cases h), h.sized⟩
      simpa [Sys.goto, Sys.setBackend] using hgen
  | resume _ _ _ => exact h.same (.of_eq rfl rfl rfl rfl) rfl (fun _ h ↦ (by cases h)) rfl
  | call _ hw hm => exact h.call hm hw hp hb
  | expireFirst hw ht _ | expire hw ht _ =>
      exact (hp.lockstep.patient.not_timed hw ht).elim
  | close _ _ _ | closingCurrent _ _ | closingStale _ _ =>
      exact h.same (.of_eq rfl rfl rfl rfl) rfl h.still rfl
  | @closingStore call _ =>
      exact h.word (fun ctrl ↦ { ctrl with state := .idle }) rfl rfl rfl rfl h.still rfl

theorem main {engine : Engine} (h : Settled s) (hm : MainMove engine s s') : Settled s' := by
  refine h.same hm.sameSabs (hm.sameGens.gen 0) (fun call hw' ↦ ?_) hm.sameGens.posted
  rcases hm.worker with hw | ⟨c, hw⟩ <;> rw [hw] at hw'
  · exact h.still call hw'
  · unfold Worker.wake at hw'
    split at hw'
    · split at hw' <;> cases hw'
    · exact h.still call hw'

theorem steady {a : Action} (h : Settled s) (hp : Paced s) (hb : s.backends ≤ 1)
    (ha : s.Fitting a) : s.Steady a where
  roomy := by
    cases a with
    | construct capacity => exact ha
    | _ => trivial
  unwrapped := by
    have unwrapped : ∀ call ∈ s.suspended, s.NoWrap call := by
      intro call hm q hq
      have hchan := hp.sound.ledger.chan_eq_zero (Sys.mem_calls_of_suspended hm) hb
      have hle := (hp.sound.ledger.word _ q hq).2
      have hgen := h.gen
      rw [hchan] at hle
      omega
    cases a with
    | resume i | close i => exact fun call hi ↦ unwrapped call (List.mem_of_getElem? hi)
    | _ => trivial
  fresh := by
    cases a with
    | main =>
        intro _ c _ hc _
        obtain ⟨hlt, hdata⟩ := hp.sound.announced.ctrl_lt hc
        have hknown := hp.sound.announced.known c hlt
        rw [h.sabs] at hdata hknown
        obtain rfl : c = 0 := by omega
        exact ⟨by omega, h.sized⟩
    | _ => trivial

end Settled

theorem settled_of_fitting {engine : Engine} {s : Sys}
    (h : (system engine).Reachable (fun s a ↦ s.Single a ∧ s.Fitting a ∧ Sys.Counted a) s) :
    Settled s ∧ Paced s ∧ s.backends ≤ 1 := by
  refine @System.Reachable.invariant _ _ (system engine) _
    (fun s ↦ Settled s ∧ Paced s ∧ s.backends ≤ 1) ?_ ?_ s h
  · rintro s rfl
    exact ⟨.init, .init, Nat.zero_le _⟩
  · rintro s a s' ⟨hset, hp, hb⟩ ⟨hone, hfit, hcount⟩ hstep
    have hm := Move.of_step hp.sound.shape hstep
    refine ⟨?_, hp.move hm hone.untimed (hm.onNewest hb hp.sound.ledger) (hset.steady hp hb hfit),
      hm.backends_le_one hone.one hb⟩
    cases hm with
    | worker hm => exact hset.worker hm hfit hcount hone.one hp hb
    | main _ _ hm => exact hset.main hm

/-- Requests that fit are read from the buffer that the worker is bound to. -/
theorem steady_of_fitting {engine : Engine} {s : Sys}
    (h : (system engine).Reachable (fun s a ↦ s.Single a ∧ s.Fitting a ∧ Sys.Counted a) s) :
    (system engine).Reachable (fun s a ↦ s.Single a ∧ s.Steady a) s :=
  h.guard_of (fun _ ↦ settled_of_fitting) fun _ _ ⟨hset, hp, hb⟩ ⟨hone, hfit, _⟩ ↦
    ⟨hone, hset.steady hp hb hfit⟩

/-! ## Delivery -/

theorem conveying_of_fitting {engine : Engine} {s : Sys}
    (h : (system engine).Reachable (fun s a ↦ s.Single a ∧ s.Fitting a ∧ Sys.Counted a) s) :
    Conveying s := by
  have base : ∀ s, (system engine).Reachable
      (fun s a ↦ s.Single a ∧ s.Fitting a ∧ Sys.Counted a) s →
      (Settled s ∧ Paced s ∧ s.backends ≤ 1) ∧ Dispatched s ∧ Traced s := fun s h ↦
    ⟨settled_of_fitting h, dispatched_of_steady (steady_of_fitting h),
      traced_of_steady (steady_of_fitting h)⟩
  refine System.Reachable.invariant_of base ?_ ?_ h
  · rintro s rfl
    exact .init
  · rintro s a s' ⟨⟨hset, hp, hb⟩, hd, ht⟩ - hconv ⟨hone, -, -⟩ hstep
    cases Move.of_step hp.sound.shape hstep with
    | worker hm => exact hm.conveying hone.one hp hb (hset.sizes _) hconv
    | main _ _ hm => exact hm.conveying hp hb hd ht hconv

/-- Delivery is exact: the chunks that a stream yields are a prefix of those that were read for
its request, and all of them when it stops without a newer request; a unary call that returns
has the status, the headers and the whole body of the response fetched for it. -/
structure Sys.Delivered (s : Sys) : Prop where
  reads : ∀ p ∈ s.picks, ∃ q, p.pending = some q ∧ p.Reads q
  ordered : ∀ q, s.yields q <+: s.chunks q
  complete : ∀ call, .returned call .stop call.gen ∈ s.log →
    s.yields ⟨call.gen, call.request⟩ = s.chunks ⟨call.gen, call.request⟩
  whole : ∀ call resp latest, .returned call (.response resp) latest ∈ s.log →
    ∃ fetched body, s.Buffered ⟨call.gen, call.request⟩ fetched body ∧
      resp = ⟨fetched.status.toNat, fetched.collected, body⟩

/-- While requests fit and the lengths of windows are counted, delivery is exact. -/
theorem delivered_of_fitting {engine : Engine} {s : Sys}
    (h : (system engine).Reachable (fun s a ↦ s.Single a ∧ s.Fitting a ∧ Sys.Counted a) s) :
    s.Delivered where
  reads := (dispatched_of_steady (steady_of_fitting h)).reads
  ordered := (conveying_of_fitting h).ordered
  complete call he := ((conveying_of_fitting h).returned call _ _ he).stop rfl
  whole call _ _ he := (((conveying_of_fitting h).returned call _ _ he).response _ rfl).2

instance (a : Action) : Decidable (Sys.Counted a) :=
  match a with
  | .construct capacity => inferInstanceAs (Decidable (capacity < 2 ^ 31))
  | .start _ _ | .resume _ | .close _ | .worker | .closing | .expire | .deliver | .main
    | .fetchDone _ _ | .timer _ | .bufferDone _ _ | .readDone _ _ | .wake _ => isTrue trivial

instance (s : Sys) (a : Action) : Decidable (s.Fitting a) :=
  match a with
  | .construct capacity => inferInstanceAs (Decidable (metaZone + 4 < capacity))
  | .start _ _ => inferInstanceAs (Decidable (_ ∧ _))
  | .resume _ | .close _ | .worker | .closing | .expire | .deliver | .main | .fetchDone _ _
    | .timer _ | .bufferDone _ _ | .readDone _ _ | .wake _ => isTrue trivial

/-- A stream up to the first `reader.read()` of its response; its caller is about to wait. -/
def openingRun (capacity : Nat) : List Action :=
  List.flatten [
    [.construct capacity, .worker, .deliver, .start 0 { kind := .serverStream, url := "/stream" }],
    .replicate 5 .worker, [.deliver, .main, .fetchDone 0 (.resolved { status := 200 })]]

/-- One chunk in two windows, the end of the stream, and a unary call. -/
def deliveredRun : List Action :=
  List.flatten [openingRun 4102,
    [.readDone 0 (.value [1, 2, 3])], .replicate 5 .main, .replicate 3 .worker,
    [.wake 0], .replicate 6 .main, .replicate 2 .worker,
    [.resume 0], .replicate 2 .worker, [.wake 0, .main, .readDone 0 .done],
    .replicate 3 .main, .replicate 3 .worker,
    [.start 0 { kind := .unary, url := "/unary" }], .replicate 5 .worker,
    [.deliver, .main, .fetchDone 0 (.resolved { status := 401, headers := [("x", "y")] })],
    [.bufferDone 0 (.resolved [4, 5, 6])], .replicate 5 .main, .replicate 4 .worker,
    [.wake 0], .replicate 5 .main, .replicate 4 .worker]

/-- The stream has stopped and the unary call has returned. -/
def Sys.hasDelivered (s : Sys) : Bool :=
  s.yields ⟨1, { kind := .serverStream, url := "/stream" }⟩ = [[1, 2, 3]] &&
    (s.log.any fun e ↦ match e with
      | .returned _ .stop 1 => true
      | _ => false) &&
    s.log.any fun e ↦ match e with
      | .returned _ (.response resp) 2 => resp = ⟨401, [("x", "y")], [4, 5, 6]⟩
      | _ => false

theorem delivered_deliveredRun : ∃ s : Sys,
    (system v8).Reachable (fun s a ↦ s.Single a ∧ s.Fitting a ∧ Sys.Counted a) s ∧
      s.hasDelivered = true ∧ s.Delivered := by
  obtain ⟨s, hr, hs⟩ := (system v8).exists_reachable
    (fun s a ↦ s.Single a ∧ s.Fitting a ∧ Sys.Counted a) deliveredRun Sys.hasDelivered rfl
    (by decide +kernel)
  exact ⟨s, hr, hs, delivered_of_fitting hr⟩

/-! ## A window that its length word does not count -/

/-- A window that fits is up after three steps of the main thread. -/
theorem Sys.exists_shown {engine : Engine} {ok : System.Guard Sys Action} {s : Sys} {t : Task}
    {e : Emission} {c : Nat} (hr : (system engine).Reachable ok s) (hok : ∀ s, ok s .main)
    (hrun : s.current = .run t) (hpc : t.pc = .window e) (hc : s.bridge.ctrl = some c)
    (hfits : 4 + (metaBytes e.info).length + e.window.length ≤ (s.sab s.bridge.data).size) :
    ∃ s' : Sys, (system engine).Reachable ok s' ∧ s'.log = s.log ∧ s'.closing = s.closing ∧
      s'.worker = s.worker.wake c ∧ s'.state c = .respChunk ∧
      (s'.backend c).data = (s.backend c).data ∧
      (s'.backend c).ctrl.length =
        toInt32 (4 + (metaBytes e.info).length + e.window.length : Nat) ∧
      (s'.sab s.bridge.data).size = (s.sab s.bridge.data).size ∧
      (s'.sab s.bridge.data).Holds 0 (windowBytes (metaBytes e.info) e.window) := by
  have hw := writeWindow_eq_some.mpr ⟨rfl, hfits⟩
  have hholds := writeWindow_holds hw
  set off := 4 + (metaBytes e.info).length + e.window.length
  set r := (writeWindow (s.sab s.bridge.data) (metaBytes e.info) e.window).1
  let t1 := t.goto (.storeLength off .respChunk e.next)
  let t2 := t.goto (.storeState .respChunk e.next)
  let s1 := (s.stored c t r e.resp.status.toNat).runs t1
  have h1 : step engine s .main = some s1 := by
    simp only [step, stepMain, hrun, hc, stepTask, hpc, storeWindow, hw]
    rfl
  have hc1 : s1.bridge.ctrl = some c := hc
  let s2 := ((s1.setCtrl c fun ctrl ↦ { ctrl with length := toInt32 off }).wrote (.length c)
    (some t1)).runs t2
  have h2 : step engine s1 .main = some s2 := by
    simp only [step, stepMain, hc1]
    rfl
  have hc2 : s2.bridge.ctrl = some c := hc
  obtain ⟨pc, h3⟩ : ∃ pc, step engine s2 .main =
      some ((s2.storeByMain t2 c .respChunk).runs (t.goto pc)) := by
    simp only [step, stepMain, hc2]
    change ∃ pc, s2.stepTask engine c t2 = _
    simp only [stepTask, t2, Task.goto]
    rcases e.next with _ | _ | _ <;> exact ⟨_, rfl⟩
  refine ⟨_, ((hr.step (hok s) h1).step (hok s1) h2).step (hok s2) h3, rfl, rfl, rfl, ?_⟩
  simp [Sys.state, storeByMain, runs, setCtrl, setBackend, wrote, s2, s1, stored, setSab, r, hholds]

/-- A stream yields its first message after two steps of the worker, if that is one window. -/
theorem Sys.exists_yielded {engine : Engine} {ok : System.Guard Sys Action} {s : Sys}
    {call call' : Call} (hr : (system engine).Reachable ok s) (hok : ∀ s, ok s .worker)
    (hclosing : s.closing = none) (hw : s.worker = .run call (.wait .first))
    (hk : call.request.kind = .serverStream) (hst : s.state call.chan = .respChunk)
    (htake : takeWindow { call with parts := [], firstMeta := none } (s.region call.chan)
      (s.backend call.chan).ctrl.length = .last call') (hk' : call'.request = call.request) :
    ∃ s' : Sys, (system engine).Reachable ok s' ∧
      s'.log = s.log ++ [Event.yielded call' call'.parts.flatten] := by
  let call1 : Call := { call with parts := [], firstMeta := none }
  let s1 := s.goto call1 .readWindow
  have h1 : step engine s .worker = some s1 := by
    simp only [step, stepWorker, hclosing, hw, stepCall, hst, afterWait, hk]
    rfl
  have hclosing1 : s1.closing = none := hclosing
  have hw1 : s1.worker = .run call1 .readWindow := rfl
  have htake1 : takeWindow call1 (s1.region call1.chan) (s1.backend call1.chan).ctrl.length =
    .last call' := htake
  have h2 : step engine s1 .worker =
      some ({ s1 with worker := .ready, suspended := s1.suspended ++ [call'] }.logged
        (.yielded call' call'.parts.flatten)) := by
    simp only [step, stepWorker, hclosing1, hw1, stepCall, htake1, hk', hk]
  exact ⟨_, (hr.step (hok s) h1).step (hok s1) h2, rfl⟩

/-- The first `reader.read()` of a stream's response is out, and its caller is about to wait. -/
structure Sys.Opening (s : Sys) (t : Task) (call : Call) (resp : FetchResponse) : Prop where
  current : s.current = .idle
  tasks : s.tasks = [t]
  pc : t.pc = .reading resp true
  ctrl : s.bridge.ctrl = some call.chan
  data : s.bridge.data = (s.backend call.chan).data
  closing : s.closing = none
  worker : s.worker = .run call (.wait .first)
  kind : call.request.kind = .serverStream
  pending : t.pick.pending = some ⟨call.gen, call.request⟩
  chunks : s.chunks ⟨call.gen, call.request⟩ = []
  yields : s.yields ⟨call.gen, call.request⟩ = []
  fits : (metaBytes (windowMeta resp.metaBase false)).length ≤ metaZone

/-- A first chunk that fits beside the meta zone is yielded as its length word cuts it. -/
theorem Sys.Opening.exists_cut {engine : Engine} {ok : System.Guard Sys Action} {s : Sys}
    {t : Task} {call : Call} {resp : FetchResponse} {chunk : Bytes} (h : s.Opening t call resp)
    (hr : (system engine).Reachable ok s) (hmain : ∀ s, ok s .main) (hworker : ∀ s, ok s .worker)
    (hread : ∀ s, ok s (.readDone 0 (.value chunk))) (hne : chunk ≠ [])
    (hone : metaZone + 4 + chunk.length ≤ (s.sab s.bridge.data).size) :
    ∃ (s' : Sys) (r : Region) (off : Nat), (system engine).Reachable ok s' ∧
      r.size = (s.sab s.bridge.data).size ∧ off ≤ metaZone + 4 ∧
      s'.chunks ⟨call.gen, call.request⟩ = [chunk] ∧
      s'.yields ⟨call.gen, call.request⟩ = [r.slice off (toInt32 (off + chunk.length : Nat))] := by
  obtain ⟨b, bs, rfl⟩ := List.exists_cons_of_ne_nil hne
  have hpos : 0 < (b :: bs).length := Nat.succ_pos _
  have hzone := h.fits
  obtain ⟨hmore, hwindow⟩ :=
    Emission.first_whole resp resp.metaBase true (by omega) hone
  set e := Emission.first resp resp.metaBase (b :: bs) (s.sab s.bridge.data).size true
  have hinfo : e.info = windowMeta resp.metaBase false := by
    rw [Emission.info, hmore]
    rfl
  -- the chunk arrives
  let s1 := ((s.without 0).logged (.chunk t.pick (b :: bs))).runs (t.goto (.window e))
  have h1 : step engine s (.readDone 0 (.value (b :: bs))) = some s1 := by
    simp only [step, Sys.readDone, Sys.awaiting, h.current, h.tasks, h.pc, List.getElem?_cons_zero]
    rfl
  have hr1 := hr.step (hread s) h1
  -- its window is put up
  obtain ⟨s2, hr2, hlog, hclosing, hw, hst, hdata, hlen, hsize, hholds⟩ :=
    @Sys.exists_shown engine ok s1 (t.goto (.window e)) e call.chan hr1 hmain rfl rfl h.ctrl (by
      rw [hinfo, hwindow]
      change _ ≤ (s.sab s.bridge.data).size
      omega)
  rw [hinfo, hwindow] at hlen hholds
  have hw2 : s2.worker = .run call (.wait .first) := by
    rw [hw]
    change s.worker.wake call.chan = _
    rw [h.worker]
    rfl
  have hregion : s2.region call.chan = s2.sab s.bridge.data := by
    rw [Sys.region, hdata]
    exact congrArg s2.sab h.data.symm
  -- and is taken
  have htake := @takeWindow_of_holds { call with parts := [], firstMeta := none } _ _ _ _ hholds
    (hzone.trans_lt (by decide)) (s2.backend call.chan).ctrl.length
  change takeWindow _ (s2.sab s.bridge.data) _ = _ at htake
  rw [← hregion] at htake
  obtain ⟨s3, hr3, hlog3⟩ :=
    Sys.exists_yielded hr2 hworker (hclosing.trans h.closing) hw2 h.kind hst htake rfl
  refine ⟨s3, s2.region call.chan, 4 + (metaBytes (windowMeta resp.metaBase false)).length, hr3,
    hregion ▸ hsize, by omega, ?_, ?_⟩
  · rw [Sys.chunks, hlog3, hlog]
    change (s.log ++ _ ++ _).filterMap _ = _
    rw [List.filterMap_append, List.filterMap_append, ← Sys.chunks, h.chunks]
    simp [Event.chunkOf, h.pending]
  · rw [Sys.yields, hlog3, hlog]
    change (s.log ++ _ ++ _).filterMap _ = _
    rw [List.filterMap_append, List.filterMap_append, ← Sys.yields, h.yields, ← hlen, hregion]
    simp only [List.filterMap_cons, List.filterMap_nil, Event.yieldOf, if_true, List.nil_append,
      List.flatten_singleton]
    rfl

/-- `2 ^ 31` bytes beside two meta zones. -/
def longCapacity : Nat := 2 ^ 31 + 2 * metaZone

/-- A stream on such a data SAB is about to receive its first chunk. -/
def Sys.opensLong (s : Sys) : Bool :=
  match s.current, s.tasks, s.worker, s.closing, s.bridge.ctrl with
  | .idle, [⟨pick, _, .reading resp true⟩], .run call (.wait .first), none, some c =>
      call.request.kind = .serverStream && pick.pending = some ⟨call.gen, call.request⟩ &&
        c = call.chan && s.bridge.data = (s.backend c).data &&
        (s.chunks ⟨call.gen, call.request⟩).isEmpty &&
        (s.yields ⟨call.gen, call.request⟩).isEmpty &&
        (metaBytes (windowMeta resp.metaBase false)).length ≤ metaZone &&
        (s.sab s.bridge.data).size = longCapacity
  | _, _, _, _, _ => false

theorem Sys.opensLong_elim {s : Sys} (h : s.opensLong = true) :
    (∃ t call resp, s.Opening t call resp) ∧ (s.sab s.bridge.data).size = longCapacity := by
  unfold opensLong at h
  split at h
  · rename_i pick _ resp call c hcur htasks hw hcl hc
    simp only [Bool.and_eq_true, decide_eq_true_eq, List.isEmpty_iff] at h
    obtain ⟨⟨⟨⟨⟨⟨⟨hk, hp⟩, rfl⟩, hd⟩, hchunks⟩, hyields⟩, hzone⟩, hsize⟩ := h
    exact ⟨⟨_, call, resp, hcur, htasks, rfl, hc, hd, hcl, hw, hk, hp, hchunks, hyields, hzone⟩,
      hsize⟩
  · cases h

/-- On a data SAB of more than `2 ^ 31` bytes a chunk of `2 ^ 31` bytes is one window, whose
length word is negative. -/
theorem not_always_delivered : ¬ ∀ engine s,
    (system engine).Reachable (fun s a ↦ s.Single a ∧ s.Fitting a) s → s.Delivered := by
  intro hall
  obtain ⟨s, hr, hs⟩ := (system v8).exists_reachable (fun s a ↦ s.Single a ∧ s.Fitting a)
    (openingRun longCapacity) Sys.opensLong rfl (by decide +kernel)
  obtain ⟨⟨t, call, resp, ho⟩, hsize⟩ := Sys.opensLong_elim hs
  obtain ⟨chunk, hchunk⟩ : ∃ chunk : Bytes, chunk.length = 2 ^ 31 :=
    ⟨.replicate _ 0, List.length_replicate⟩
  have hcap : longCapacity = 2 ^ 31 + 8192 := rfl
  have hzone : metaZone = 4096 := rfl
  have hne : chunk ≠ [] := by
    rintro rfl
    cases hchunk
  obtain ⟨s', r, off, hr', hsize', hoff, hchunks, hyields⟩ := ho.exists_cut hr
    (fun _ ↦ ⟨⟨trivial, trivial⟩, trivial⟩) (fun _ ↦ ⟨⟨trivial, trivial⟩, trivial⟩)
    (fun _ ↦ ⟨⟨trivial, trivial⟩, trivial⟩) hne (by omega)
  have horder := (hall v8 s' hr').ordered ⟨call.gen, call.request⟩
  rw [hchunks, hyields, List.cons_prefix_cons] at horder
  have hlength := congrArg List.length horder.1
  rw [toInt32_of_ge (by omega) (by omega), Region.slice, List.length_map, List.length_range,
    Region.clamp, Region.clamp] at hlength
  split at hlength <;> omega

end ConnectWeb.Sab
