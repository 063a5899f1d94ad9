import ConnectWeb.Sab.Announce

/-!
# The exchange on a channel

What holds between the worker and an invocation of `handleRpc` while they take turns on the
STATE word of one channel: whose request the invocation serves, what lies in the data SAB at
each turn, and who wrote it.  The invariant is about the newest channel; timeouts are
allowed, as long as the discipline of `Sys.Orderly` is kept.
-/

namespace ConnectWeb.Sab

/-! ## Phases of interest -/

/-- The phases between a chunk that has been seen and the ack for it. -/
def Phase.holds : Phase → Bool
  | .reading | .acking _ | .resuming => true
  | _ => false

/-- The kind of the request that an invocation serves. -/
def Pick.kind (p : Pick) : Option Kind := p.pending.map fun q ↦ q.request.kind

def Emission.kind (e : Emission) : Kind := if e.streaming then .serverStream else .unary

/-- What may come next in serving a request. -/
def Pick.Allows (p : Pick) : Next → Prop
  | .window e => p.kind = some e.kind
  | .read _ => p.kind = some .serverStream
  | .leave => True

/-- What an invocation may be doing in serving its request. -/
def Pick.Suits (p : Pick) : At → Prop
  | .buffering _ => p.kind = some .unary
  | .reading _ _ => p.kind = some .serverStream
  | .window e => p.kind = some e.kind
  | .report message kind caught =>
      caught = true → (metaBytes (errorMeta message kind)).length ≤ metaZone
  | _ => True

/-- The lengths of a request fit the `u32` words in front of its parts. -/
def Posted.Sized (q : Posted) : Prop :=
  (headerBytes q.request q.gen).length < 2 ^ 32 ∧ q.request.body.length < 2 ^ 32

namespace Sys

/-- The newest channel, once there is one. -/
def newest (s : Sys) : Nat := s.backends - 1

/-- A request is being written into channel `c`. -/
def Requesting (s : Sys) (c : Nat) : Prop :=
  ∃ call ph, s.worker.phase = some (call, ph) ∧ call.chan = c ∧ ph.requests = true

/-- No invocation is going to store an answer into channel `c`. -/
def Calm (s : Sys) (c : Nat) : Prop :=
  ∀ t ∈ s.live, t.stage ≠ .serving ∧
    (s.state c = .chunkAck → ∀ next, t.stage ≠ .awaiting next)

/-- The calls that have seen a chunk and not acked it. -/
def Holding (s : Sys) (call : Call) : Prop :=
  call ∈ s.suspended ∨ ∃ ph, s.worker.phase = some (call, ph) ∧ ph.holds = true

/-- The channel shows an answer of `p` with the STATE `st`, of length `off`; `next` is what
`p` does about the ack. -/
def Shows (s : Sys) (c : Nat) (p : Pick) (off : Nat) : SabState → Next → Prop
  | .respChunk, next => ∃ t e,
      s.writer (.data (s.backend c).data) = some t ∧ s.writer (.status c) = some t ∧
        t.pick = p ∧ t.pc = .window e ∧ p.kind = some e.kind ∧ next = e.next ∧
        off = 4 + (metaBytes e.info).length + e.window.length ∧
        (s.region c).Holds 0 (windowBytes (metaBytes e.info) e.window) ∧
        (s.backend c).ctrl.status = toInt32 e.resp.status.toNat
  | .respError, next => next = .leave ∧ ∃ t message kind caught,
      s.writer (.data (s.backend c).data) = some t ∧ t.pick = p ∧
        t.pc = .report message kind caught ∧
        (s.region c).Holds 0 (windowBytes (metaBytes (errorMeta message kind)) [])
  | .respEnd, next => next = .leave ∧ off = 0 ∧ p.kind = some .serverStream
  | _, _ => False

/-- The length of an answer of `p` is stored. -/
def Measures (s : Sys) (c : Nat) (p : Pick) (off : Nat) : Prop :=
  (s.backend c).ctrl.length = toInt32 off ∧ ∃ t, s.writer (.length c) = some t ∧ t.pick = p

/-- What the invocation that answered is doing. -/
def Follows (s : Sys) (p : Pick) : Next → Prop
  | .leave => ∀ t ∈ s.live, t.stage = .leaving
  | next => ∃ t, s.live = [t] ∧ t.pick = p ∧ t.stage = .awaiting next

/-- The invocation serves the request that is stored in channel `c`, through the buffers of
that channel. -/
structure Bound (s : Sys) (c : Nat) (p : Pick) : Prop where
  attached : s.bridge.ctrl = some c
  chan : p.chan = c
  data : s.bridge.data = (s.backend c).data
  current : ∃ q, p.pending = some q ∧ s.posted c = some q ∧ p.Reads q

/-- What of an answer an invocation has stored. -/
def Progress (s : Sys) (c : Nat) (p : Pick) : At → Prop
  | .storeLength off st next => s.Shows c p off st next
  | .storeState st next => ∃ off, s.Shows c p off st next ∧ s.Measures c p off
  | _ => True

/-- An invocation that is going to answer. -/
structure Serving (s : Sys) (c : Nat) (t : Task) : Prop where
  bound : s.Bound c t.pick
  suits : t.pick.Suits t.pc
  due : (s.state c).answer = false
  progress : s.Progress c t.pick t.pc

/-- The answer that channel `c` shows to a call. -/
def Answer (s : Sys) (c : Nat) (call : Call) (p : Pick) (off : Nat) (next : Next) : Prop :=
  p.pending = some ⟨call.gen, call.request⟩ ∧ p.Reads ⟨call.gen, call.request⟩ ∧
    (∃ t, s.writer (.state c) = some t ∧ t.pick = p) ∧
    s.Shows c p off (s.state c) next ∧ s.Measures c p off ∧ s.Follows p next

/-- A request lies in the data SAB of channel `c`. -/
def Carries (s : Sys) (c : Nat) (q : Posted) : Prop :=
  (s.region c).Holds 0 (requestBytes (headerBytes q.request q.gen) q.request.body)

end Sys

/-- An invocation that passes its guard finds the request that the worker posted: the worker is
not writing another one, and the bridge has the data SAB that it lies in. -/
structure Sys.Pickable (s : Sys) (c : Nat) : Prop where
  posted : ¬ s.Requesting c
  fresh : s.bridge.data = (s.backend c).data
  sized : ∀ q, s.posted c = some q → q.Sized

/-- The discipline of the exchange: the channel is quiet when another one is constructed, no
invocation can still answer when an RPC starts, and requests are picked up as they are. -/
def Sys.Orderly (s : Sys) : Action → Prop
  | .construct _ => (∀ t ∈ s.live, t.stage ≠ .serving) ∧
      ∀ c, c + 1 = s.backends → (s.state c).mainTurn = false
  | .start c _ => s.Calm c
  | .main => s.current = .guard → ∀ c, s.bridge.busy = false → s.bridge.ctrl = some c →
      s.state c = .reqReady → s.Pickable c
  | _ => True

/-- The exchange on channel `c`. -/
structure Exchange (s : Sys) (c : Nat) : Prop where
  unused : ∀ c', s.backends ≤ c' → s.state c' = .idle
  old : ∀ c', c' ≠ c → (s.state c').mainTurn = false
  calm : s.Requesting c → s.Calm c
  serving : ∀ t ∈ s.live, t.stage = .serving → s.Serving c t
  awaiting : ∀ t ∈ s.live, ∀ next, t.stage = .awaiting next → s.state c ≠ .idle →
    s.state c ≠ .reqReady → ¬ s.Requesting c → s.Bound c t.pick ∧ t.pick.Allows next
  holding : ∀ call, s.Holding call → call.chan = c → s.Current call → s.state c = .respChunk
  answered : ∀ call ph, s.worker.phase = some (call, ph) → call.chan = c → ph.engaged = true →
    (s.state c).answer = true → ∃ p off next, s.Answer c call p off next
  request : s.state c = .reqReady → ¬ s.Requesting c →
    (∃ t ∈ s.live, t.stage = .serving) ∨ ∃ q, s.posted c = some q ∧ s.Carries c q
  posting : ∀ call, s.worker.phase = some (call, .posting) → call.chan = c →
    s.Carries c ⟨call.gen, call.request⟩

/-! ## Frames -/

/-- What an answer consists of, beside STATE and LENGTH. -/
theorem Sys.shows_congr {s s' : Sys} {c off : Nat} {p : Pick} {st : SabState} {next : Next}
    (hd : (s'.backend c).data = (s.backend c).data)
    (hst : (s'.backend c).ctrl.status = (s.backend c).ctrl.status) (hs : s'.sab = s.sab)
    (hwd : s'.writer (.data (s.backend c).data) = s.writer (.data (s.backend c).data))
    (hws : s'.writer (.status c) = s.writer (.status c)) :
    s'.Shows c p off st next ↔ s.Shows c p off st next := by
  cases st <;> simp only [Shows, region, hd, hst, hs, hwd, hws]

/-- What a step leaves that touches no shared memory. -/
structure SameMemory (s s' : Sys) : Prop where
  backends : s'.backends = s.backends
  words : ∀ c, (s'.backend c).ctrl = (s.backend c).ctrl
  buffer : ∀ c, (s'.backend c).data = (s.backend c).data
  sab : s'.sab = s.sab
  writer : s'.writer = s.writer

theorem SameMemory.of_eq {s s' : Sys} (hb : s'.backends = s.backends)
    (hg : s'.backend = s.backend) (hs : s'.sab = s.sab) (hw : s'.writer = s.writer) :
    SameMemory s s' :=
  ⟨hb, fun _ ↦ by rw [hg], fun _ ↦ by rw [hg], hs, hw⟩

namespace SameMemory

variable {s s' : Sys} (h : SameMemory s s')

include h in
theorem state (c : Nat) : s'.state c = s.state c := by rw [Sys.state, Sys.state, h.words]

include h in
theorem shows {c off : Nat} {p : Pick} {st : SabState} {next : Next} :
    s'.Shows c p off st next ↔ s.Shows c p off st next :=
  Sys.shows_congr (h.buffer c) (by rw [h.words]) h.sab (by rw [h.writer]) (by rw [h.writer])

include h in
theorem measures {c off : Nat} {p : Pick} : s'.Measures c p off ↔ s.Measures c p off := by
  simp only [Sys.Measures, h.writer, h.words]

include h in
theorem progress {c : Nat} {p : Pick} {pc : At} : s'.Progress c p pc ↔ s.Progress c p pc := by
  cases pc <;> simp only [Sys.Progress, h.shows, h.measures]

include h in
theorem carries {c : Nat} {q : Posted} : s'.Carries c q ↔ s.Carries c q := by
  simp only [Sys.Carries, Sys.region, h.buffer, h.sab]

end SameMemory

theorem Sys.Follows.of_live {s s' : Sys} (hl : s'.live = s.live) {p : Pick} {next : Next} :
    s'.Follows p next ↔ s.Follows p next := by
  cases next <;> simp only [Sys.Follows, hl]

/-- What a step leaves that touches neither shared memory nor the invocations. -/
structure SameShared (s s' : Sys) : Prop extends SameMemory s s' where
  posted : s'.posted = s.posted
  live : s'.live = s.live
  ctrl : s'.bridge.ctrl = s.bridge.ctrl
  data : s'.bridge.data = s.bridge.data

theorem SameShared.of_eq {s s' : Sys} (hb : s'.backends = s.backends)
    (hg : s'.backend = s.backend) (hs : s'.sab = s.sab) (hw : s'.writer = s.writer)
    (hp : s'.posted = s.posted) (hl : s'.live = s.live) (hbr : s'.bridge = s.bridge) :
    SameShared s s' :=
  ⟨.of_eq hb hg hs hw, hp, hl, by rw [hbr], by rw [hbr]⟩

namespace SameShared

variable {s s' : Sys} (h : SameShared s s')

include h in
theorem bound {c : Nat} {p : Pick} (hb : s.Bound c p) : s'.Bound c p := by
  refine ⟨?_, hb.chan, ?_, ?_⟩
  · rw [h.ctrl]
    exact hb.attached
  · rw [h.data, h.buffer]
    exact hb.data
  · rw [h.posted]
    exact hb.current

include h in
theorem serving {c : Nat} {t : Task} (hs : s.Serving c t) : s'.Serving c t :=
  ⟨h.bound hs.bound, hs.suits, by rw [h.state]; exact hs.due, h.progress.mpr hs.progress⟩

include h in
theorem answer {c off : Nat} {call : Call} {p : Pick} {next : Next} :
    s'.Answer c call p off next ↔ s.Answer c call p off next := by
  simp only [Sys.Answer, h.shows, h.measures, Sys.Follows.of_live h.live, h.writer, h.state]

include h in
theorem calm {c : Nat} : s'.Calm c ↔ s.Calm c := by
  simp only [Sys.Calm, h.live, h.state]

end SameShared

theorem Sys.Answer.congr {s : Sys} {c off : Nat} {call call' : Call} {p : Pick} {next : Next}
    (h : s.Answer c call p off next) (hg : call'.gen = call.gen)
    (hr : call'.request = call.request) : s.Answer c call' p off next := by
  rw [Sys.Answer, hg, hr]
  exact h

/-- The worker goes on by itself. -/
theorem Exchange.private {s s' : Sys} {c : Nat} (h : Exchange s c) (hk : SameShared s s')
    (hreq : s'.Requesting c ↔ s.Requesting c)
    (hhold : ∀ call, s'.Holding call → call.chan = c → s.Current call → s.state c = .respChunk)
    (hans : ∀ call ph, s'.worker.phase = some (call, ph) → call.chan = c → ph.engaged = true →
      ∃ call0 ph0, s.worker.phase = some (call0, ph0) ∧ call0.chan = c ∧ ph0.engaged = true ∧
        call.gen = call0.gen ∧ call.request = call0.request)
    (hpost : ∀ call, s'.worker.phase = some (call, .posting) → call.chan = c →
      s.worker.phase = some (call, .posting)) : Exchange s' c := by
  refine ⟨?_, ?_, ?_, ?_, ?_, ?_, ?_, ?_, ?_⟩
  · intro c' hle
    rw [hk.state]
    exact h.unused c' (hk.backends ▸ hle)
  · intro c' hne
    rw [hk.state]
    exact h.old c' hne
  · rw [hreq, hk.calm]
    exact h.calm
  · intro t ht hst
    rw [hk.live] at ht
    exact hk.serving (h.serving t ht hst)
  · intro t ht next hst hi hr hn
    rw [hk.live] at ht
    rw [hk.state] at hi hr
    obtain ⟨hb, hal⟩ := h.awaiting t ht next hst hi hr fun hn' ↦ hn (hreq.mpr hn')
    exact ⟨hk.bound hb, hal⟩
  · intro call hh hc hcur
    rw [hk.state]
    refine hhold call hh hc ?_
    rwa [Sys.Current, hk.posted] at hcur
  · intro call ph hw hc he ha
    rw [hk.state] at ha
    obtain ⟨call0, ph0, hw0, hc0, he0, hg, hr⟩ := hans call ph hw hc he
    obtain ⟨p, off, next, hans'⟩ := h.answered call0 ph0 hw0 hc0 he0 ha
    exact ⟨p, off, next, hk.answer.mpr (hans'.congr hg hr)⟩
  · intro hst hn
    rw [hk.state] at hst
    rcases h.request hst fun hn' ↦ hn (hreq.mpr hn') with hs | ⟨q, hq, hcar⟩
    · rw [hk.live]
      exact .inl hs
    · rw [hk.posted]
      exact .inr ⟨q, hq, hk.carries.mpr hcar⟩
  · intro call hw hc
    exact hk.carries.mpr (h.posting call (hpost call hw hc) hc)

theorem Sys.requesting_iff {s : Sys} {c : Nat} {call : Call} {ph : Phase}
    (hw : s.worker.phase = some (call, ph)) :
    s.Requesting c ↔ call.chan = c ∧ ph.requests = true := by
  constructor
  · rintro ⟨call', ph', hw', hc, hr⟩
    rw [hw] at hw'
    cases hw'
    exact ⟨hc, hr⟩
  · rintro ⟨hc, hr⟩
    exact ⟨call, ph, hw, hc, hr⟩

theorem Sys.not_requesting {s : Sys} {c : Nat} (hw : s.worker.phase = none) : ¬ s.Requesting c := by
  rintro ⟨call, ph, hw', -⟩
  rw [hw] at hw'
  cases hw'

/-- The running call goes on by itself. -/
theorem Exchange.goto {s s' : Sys} {c : Nat} {call call' : Call} {pc pc' : Pc} (h : Exchange s c)
    (hk : SameShared s s') (hw : s.worker = .run call pc) (hw' : s'.worker = .run call' pc')
    (hkey : call'.chan = call.chan ∧ call'.gen = call.gen ∧ call'.request = call.request)
    (hs : s'.suspended = s.suspended) (hr : pc.phase.requests = false)
    (hr' : pc'.phase.requests = false)
    (hhold : pc'.phase.holds = true → call.chan = c → s.Current call → s.state c = .respChunk)
    (hans : pc'.phase.engaged = true → pc.phase.engaged = true) : Exchange s' c := by
  have hph : s.worker.phase = some (call, pc.phase) := by rw [hw]; rfl
  have hph' : s'.worker.phase = some (call', pc'.phase) := by rw [hw']; rfl
  refine h.private hk ?_ ?_ ?_ ?_
  · rw [Sys.requesting_iff hph, Sys.requesting_iff hph', hr, hr']
    simp
  · rintro call0 (hm | ⟨ph, hw0, hph0⟩) hc hcur
    · exact h.holding call0 (.inl (hs ▸ hm)) hc hcur
    · rw [hph'] at hw0
      cases hw0
      refine hhold hph0 (hkey.1 ▸ hc) ?_
      rwa [Sys.Current, hkey.1, hkey.2.1, hkey.2.2] at hcur
  · intro call0 ph hw0 hc he
    rw [hph'] at hw0
    cases hw0
    exact ⟨call, pc.phase, hph, hkey.1 ▸ hc, hans he, hkey.2.1, hkey.2.2⟩
  · intro call0 hw0 _
    rw [hph', Option.some.injEq, Prod.mk.injEq] at hw0
    rw [hw0.2] at hr'
    cases hr'

/-- No call runs any more. -/
theorem Exchange.ready {s s' : Sys} {c : Nat} (h : Exchange s c) (hk : SameShared s s')
    (hn : ¬ s.Requesting c) (hw' : s'.worker.phase = none)
    (hhold : ∀ call ∈ s'.suspended, call.chan = c → s.Current call → s.state c = .respChunk) :
    Exchange s' c := by
  refine h.private hk ?_ ?_ ?_ ?_
  · exact iff_of_false (Sys.not_requesting hw') hn
  · rintro call (hm | ⟨ph, hw, -⟩) hc hcur
    · exact hhold call hm hc hcur
    · rw [hw'] at hw
      cases hw
  · intro call ph hw
    rw [hw'] at hw
    cases hw
  · intro call hw
    rw [hw'] at hw
    cases hw

/-- The worker is in `_write_request`, before and behind the step. -/
theorem Exchange.requesting {s s' : Sys} {c : Nat} (h : Exchange s c)
    (hb : s'.backends = s.backends) (hstate : ∀ c', s'.state c' = s.state c')
    (hlive : s'.live = s.live) (hr : s.Requesting c) (hr' : s'.Requesting c)
    (hhold : ∀ call, s'.Holding call → call.chan = c → s'.Current call →
      s.Holding call ∧ s.Current call)
    (hpost : ∀ call, s'.worker.phase = some (call, .posting) → call.chan = c →
      s'.Carries c ⟨call.gen, call.request⟩) : Exchange s' c := by
  have hcalm := h.calm hr
  refine ⟨?_, ?_, fun _ ↦ ?_, ?_, ?_, ?_, ?_, ?_, hpost⟩
  · intro c' hle
    rw [hstate]
    exact h.unused c' (hb ▸ hle)
  · intro c' hne
    rw [hstate]
    exact h.old c' hne
  · intro t ht
    rw [hlive] at ht
    rw [hstate]
    exact hcalm t ht
  · intro t ht hst
    rw [hlive] at ht
    exact absurd hst (hcalm t ht).1
  · exact fun _ _ _ _ _ _ hn ↦ absurd hr' hn
  · intro call hh hc hcur
    rw [hstate]
    obtain ⟨hh, hcur⟩ := hhold call hh hc hcur
    exact h.holding call hh hc hcur
  · intro call ph hw hc he
    obtain ⟨call', ph', hw', -, hreq⟩ := hr'
    rw [hw] at hw'
    cases hw'
    rw [Phase.requests_of_engaged he] at hreq
    cases hreq
  · exact fun _ hn ↦ absurd hr' hn

/-- A call is started. -/
theorem Exchange.start {s s' : Sys} {c : Nat} {call : Call} {pc : Pc} (h : Exchange s c)
    (hk : SameShared s s') (hw' : s'.worker = .run call pc) (hph : pc.phase = .preparing)
    (hc : call.chan = c) (hs : s'.suspended = s.suspended) (hcalm : s.Calm c) : Exchange s' c := by
  have hphase : s'.worker.phase = some (call, .preparing) := by rw [hw', ← hph]; rfl
  have hr' : s'.Requesting c := ⟨call, _, hphase, hc, rfl⟩
  refine ⟨?_, ?_, fun _ ↦ hk.calm.mpr hcalm, ?_, ?_, ?_, ?_, ?_, ?_⟩
  · intro c' hle
    rw [hk.state]
    exact h.unused c' (hk.backends ▸ hle)
  · intro c' hne
    rw [hk.state]
    exact h.old c' hne
  · intro t ht hst
    rw [hk.live] at ht
    exact absurd hst (hcalm t ht).1
  · exact fun _ _ _ _ _ _ hn ↦ absurd hr' hn
  · rintro call0 (hm | ⟨ph, hw0, hph0⟩) hc0 hcur
    · rw [hk.state]
      refine h.holding call0 (.inl (hs ▸ hm)) hc0 ?_
      rwa [Sys.Current, hk.posted] at hcur
    · rw [hphase] at hw0
      cases hw0
      cases hph0
  · intro call0 ph hw0 _ he
    rw [hphase] at hw0
    cases hw0
    cases he
  · exact fun _ hn ↦ absurd hr' hn
  · intro call0 hw0
    rw [hphase] at hw0
    cases hw0

/-! ## A store of STATE by the worker -/

namespace Sys

variable (s : Sys) (c0 : Nat) (st0 : SabState)

theorem shows_storeByWorker {c off : Nat} {p : Pick} {st : SabState} {next : Next} :
    (s.storeByWorker c0 st0).Shows c p off st next ↔ s.Shows c p off st next :=
  shows_congr (data_storeByWorker ..) (ctrl_storeByWorker s c0 c st0 Control.status fun _ ↦ rfl) rfl
    (writer_storeByWorker s c0 st0 nofun) (writer_storeByWorker s c0 st0 nofun)

theorem measures_storeByWorker {c off : Nat} {p : Pick} :
    (s.storeByWorker c0 st0).Measures c p off ↔ s.Measures c p off := by
  have hs : ((s.storeByWorker c0 st0).backend c).ctrl.length = (s.backend c).ctrl.length :=
    ctrl_storeByWorker s c0 c st0 Control.length fun _ ↦ rfl
  simp only [Measures, hs, writer_storeByWorker s c0 st0 (show Cell.length c ≠ .state c0 from nofun)]

theorem carries_storeByWorker {c : Nat} {q : Posted} :
    (s.storeByWorker c0 st0).Carries c q ↔ s.Carries c q := by
  rw [Carries, Carries, region, region, data_storeByWorker]
  rfl

theorem Bound.storeByWorker {c : Nat} {p : Pick} (h : s.Bound c p) :
    (s.storeByWorker c0 st0).Bound c p := by
  refine ⟨h.attached, h.chan, ?_, h.current⟩
  rw [data_storeByWorker]
  exact h.data

theorem Progress.storeByWorker {c : Nat} {p : Pick} {pc : At} (h : s.Progress c p pc) :
    (s.storeByWorker c0 st0).Progress c p pc := by
  cases pc with
  | storeLength off st next => exact (shows_storeByWorker s c0 st0).mpr h
  | storeState st next =>
      obtain ⟨off, h1, h2⟩ := h
      exact ⟨off, (shows_storeByWorker s c0 st0).mpr h1, (measures_storeByWorker s c0 st0).mpr h2⟩
  | _ => trivial

theorem Follows.storeByWorker {p : Pick} {next : Next} (hs : Shape s) (h : s.Follows p next) :
    (s.storeByWorker c0 st0).Follows p next := by
  have hl := hs.live_storeByWorker c0 st0
  cases next with
  | leave =>
      intro t ht
      rw [hl] at ht
      obtain ⟨t', ht', rfl⟩ := List.mem_map.mp ht
      rw [Task.stage_wake]
      exact h t' ht'
  | window e =>
      obtain ⟨t, h1, h2, h3⟩ := h
      exact ⟨t.wake c0, by rw [hl, h1]; rfl, by rw [Task.pick_wake, h2],
        by rw [Task.stage_wake, h3]⟩
  | read resp =>
      obtain ⟨t, h1, h2, h3⟩ := h
      exact ⟨t.wake c0, by rw [hl, h1]; rfl, by rw [Task.pick_wake, h2],
        by rw [Task.stage_wake, h3]⟩

end Sys

end ConnectWeb.Sab
