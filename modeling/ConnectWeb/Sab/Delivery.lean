import ConnectWeb.Sab.Waiting
import ConnectWeb.Sab.Windows

/-!
# The windows of a message on their way

What a call has of a message, while the message is handed over window by window: the bytes up
to the next window, and for a unary response the headers and the status.  A message is in one
place at a time: an invocation emits it, the data SAB shows its next window, or the worker has
put the last window to the others.
-/

namespace ConnectWeb.Sab

/-! ## What is recorded of an RPC -/

/-- A chunk that the reader returned for the request. -/
def Event.chunkOf (q : Posted) : Event → Option Bytes
  | .chunk p bytes => if p.pending = some q then some bytes else none
  | _ => none

/-- A chunk that the stream yielded for the request. -/
def Event.yieldOf (q : Posted) : Event → Option Bytes
  | .yielded call bytes => if ⟨call.gen, call.request⟩ = q then some bytes else none
  | _ => none

namespace Sys

/-- The non-empty chunks that `reader.read()` returned for a request. -/
def chunks (s : Sys) (q : Posted) : List Bytes := s.log.filterMap (Event.chunkOf q)

/-- The chunks that `server_stream` yielded for a request. -/
def yields (s : Sys) (q : Posted) : List Bytes := s.log.filterMap (Event.yieldOf q)

/-- Every chunk that was read is yielded. -/
def Level (s : Sys) (q : Posted) : Prop := s.yields q = s.chunks q

/-- The response to a request was fetched, and its body read as a whole. -/
def Buffered (s : Sys) (q : Posted) (resp : FetchResponse) (body : Bytes) : Prop :=
  ∃ p : Pick, p.pending = some q ∧ p.Reads q ∧ .fetched p resp ∈ s.log ∧ .buffered p body ∈ s.log

end Sys

/-- What a call ends with is what was sent to it. -/
def Sys.Concludes (s : Sys) (call : Call) : Outcome → Prop
  | .stop => s.Level ⟨call.gen, call.request⟩
  | .response resp => call.request.kind = .unary ∧
      ∃ fetched body, s.Buffered ⟨call.gen, call.request⟩ fetched body ∧
        resp = ⟨fetched.status.toNat, fetched.collected, body⟩
  | .raised _ => (s.backend call.chan).gen = call.gen

/-! ## One message -/

/-- What a call has of a message, before the window `e`. -/
structure Call.UpTo (call : Call) (e : Emission) : Prop where
  parts : call.parts.flatten = e.bytes.take e.sent.toNat
  first : e.streaming = false → call.firstMeta = none → e.metaBase = e.resp.metaBase
  later : e.streaming = false → ∀ m, call.firstMeta = some m →
    headersOf (some m) = some e.resp.collected ∧ call.status = e.resp.status.toNat

/-- The call behind the window `e`. -/
def Call.take (call : Call) (e : Emission) : Call :=
  { call with
    firstMeta := some (call.firstMeta.getD e.info)
    parts := call.parts ++ [e.window] }

/-- The call as it takes its next window, while it is in an exchange. -/
def Phase.taking : Phase → Call → Option Call
  | .asking .window, call | .acking .window, call | .reading, call => some call
  | .asking _, call => some { call with parts := [], firstMeta := none }
  | _, _ => none

/-- The worker is between two windows. -/
def Phase.amid : Phase → Bool
  | .asking .window | .acking .window => true
  | _ => false

/-- A chunk has been taken and not acked. -/
def Phase.keeps : Phase → Bool
  | .acking _ | .resuming => true
  | _ => false

namespace Sys

/-- The window `e` is the one that the worker takes next. -/
def InHand (s : Sys) (e : Emission) : Prop :=
  ∃ call ph call', s.worker.phase = some (call, ph) ∧ ph.taking call = some call' ∧ call'.UpTo e

/-- The window `e` is the next one of a message to the caller of the request. -/
structure Sends (s : Sys) (q : Posted) (e : Emission) : Prop where
  inside : e.Inside e
  room : 0 < e.cap
  stream : e.streaming = true → s.chunks q = s.yields q ++ [e.bytes]
  unary : e.streaming = false → s.Buffered q e.resp e.bytes
  inHand : s.InHand e

/-- No message is under way. -/
structure Clear (s : Sys) (q : Posted) : Prop where
  level : s.Level q
  between : ∀ call ph, s.worker.phase = some (call, ph) → ph.amid = false

/-- What STATE tells the caller of the request. -/
def Offers (s : Sys) (q : Posted) : SabState → Prop
  | .respChunk => ∀ t e, s.writer (.data (s.backend 0).data) = some t → t.pc = .window e →
      s.Sends q e
  | .respEnd => s.Level q
  | _ => True

/-- What an ack may lead to. -/
def Ready (s : Sys) (q : Posted) : Next → Prop
  | .window e => s.Sends q e
  | .read _ => s.Clear q
  | .leave => True

/-- What an invocation is about to do for the request. -/
def Renders (s : Sys) (q : Posted) (t : Task) : Prop :=
  match t.pc with
  | .fetching | .reading _ _ => s.Clear q
  | .buffering resp => s.Clear q ∧ .fetched t.pick resp ∈ s.log
  | .window e => s.Sends q e
  | .storeLength _ st _ | .storeState st _ => s.Offers q st
  | _ => True

/-- The calls that have taken a chunk and not acked it. -/
def Keeping (s : Sys) (call : Call) : Prop :=
  call ∈ s.suspended ∨ ∃ ph, s.worker.phase = some (call, ph) ∧ ph.keeps = true

/-- A chunk is acked, or may be. -/
def Open (s : Sys) : Prop := s.state 0 = .chunkAck ∨ ∃ call, s.Keeping call ∧ s.Current call

/-- The messages of the request that is stored last. -/
structure Conveys (s : Sys) (q : Posted) : Prop where
  serving : ∀ t ∈ s.live, t.stage = .serving → s.Renders q t
  shown : ∀ call ph, s.worker.phase = some (call, ph) → ph.engaged = true →
    s.Offers q (s.state 0)
  awaiting : s.Open → ∀ t ∈ s.live, ∀ next, t.stage = .awaiting next → s.Ready q next

end Sys

/-- What a call has in its own variables, and which calls get there. -/
def Call.Within (call : Call) : Phase → Prop
  | .asking .window | .acking .window => call.firstMeta ≠ none
  | .asking .chunk | .acking .chunk | .resuming => call.request.kind = .serverStream
  | _ => True

/-- Up to the first window of a unary response a call has the status in the place of the
meta. -/
def Call.Begun (call : Call) (status : Int) : Pc → Prop
  | .loadStatus chunk => chunk = true ∧ call.firstMeta = none
  | .readWindow => call.request.kind = .unary → call.firstMeta = none → call.status = status
  | pc => call.Within pc.phase

/-- The generations of the calls that are not over. -/
def Sys.gens (s : Sys) : List Nat := s.calls.map Call.gen

/-- A call that returned does not come back. -/
structure Sys.Retired (s : Sys) (call : Call) : Prop where
  gone : call.gen ∉ s.gens
  past : call.gen ≤ (s.backend 0).gen

/-- What is recorded of a call that returned. -/
structure Sys.Returned (s : Sys) (call : Call) (o : Outcome) (latest : Nat) : Prop where
  retired : s.Retired call
  stop : o = .stop → s.Level ⟨call.gen, call.request⟩
  response : ∀ resp, o = .response resp → s.Concludes call o
  /-- Only a call before any newer RPC raises. -/
  raised : ∀ e, o = .raised e → latest = call.gen
  /-- A call returns once. -/
  once : ∀ call' o' latest', .returned call' o' latest' ∈ s.log → call'.gen = call.gen →
    o' = o ∧ latest' = latest

/-- A generator is at a `yield`, or just behind it. -/
def Sys.Yielding (s : Sys) (call : Call) : Prop :=
  call ∈ s.suspended ∨ s.worker.phase = some (call, .resuming)

/-- The messages of one channel. -/
structure Conveying (s : Sys) : Prop where
  ordered : ∀ q, s.yields q <+: s.chunks q
  chunked : ∀ p bytes, .chunk p bytes ∈ s.log → p ∈ s.picks
  conveys : ∀ q, s.posted 0 = some q → s.Conveys q
  begun : ∀ call pc, s.worker = .run call pc → call.Begun (s.backend 0).ctrl.status pc
  held : ∀ call ∈ s.suspended, call.request.kind = .serverStream
  level : ∀ call, s.Yielding call → s.Level ⟨call.gen, call.request⟩
  /-- Outside `_write_request`, the request stored last is that of the newest RPC. -/
  abreast : ∀ q, s.posted 0 = some q → (∀ call, s.worker.phase ≠ some (call, .preparing)) →
    (s.backend 0).gen = q.gen
  ending : ∀ call o, s.worker.phase = some (call, .ending o) ∨
    s.worker.phase = some (call, .resetting o) → s.Concludes call o
  returned : ∀ call o latest, .returned call o latest ∈ s.log → s.Returned call o latest

theorem Conveying.init : Conveying {} where
  ordered _ := List.nil_prefix
  chunked _ _ h := by cases h
  conveys _ h := by cases h
  begun _ _ h := by cases h
  held _ h := by cases h
  level _ h := by
    rcases h with h | h <;> cases h
  abreast _ h := by cases h
  ending _ _ h := by
    rcases h with h | h <;> cases h
  returned _ _ _ h := by cases h

/-! ## The windows of a message -/

namespace Emission

variable {e e' : Emission}

/-- The bytes up to a window, and the window. -/
theorem take_window (h : e.Inside e) (hcap : 0 < e.cap) :
    e.bytes.take e.sent.toNat ++ e.window = e.bytes.take e.stop.toNat := by
  have hnonneg := h.nonneg
  have hle := h.le
  have hstop : e.sent ≤ e.stop ∧ e.stop ≤ e.bytes.length := by
    rw [stop]
    omega
  rw [window, subarray, Region.clamp_of_le hnonneg hle, Region.clamp_of_le (by omega) hstop.2]
  have : e.bytes.take e.sent.toNat = (e.bytes.take e.stop.toNat).take e.sent.toNat := by
    rw [List.take_take]
    congr 1
    omega
  rw [this, List.take_append_drop]

/-- The last window completes the message. -/
theorem take_stop (hmore : e.more = false) : e.bytes.take e.stop.toNat = e.bytes := by
  refine List.take_of_length_le ?_
  have : ¬ e.stop < e.bytes.length := by simpa [more] using hmore
  omega

theorem inside_next (h : e.Inside e) (hcap : 0 < e.cap) (hnext : e.next = .window e') :
    e'.Inside e' ∧ 0 < e'.cap := by
  obtain ⟨hin, -, hlt⟩ := h.next hcap hnext
  refine ⟨⟨rfl, rfl, hin.nonneg, ?_, .inl rfl⟩, by rw [hin.cap]; exact hcap⟩
  rw [hin.bytes]
  omega

/-- A fresh message. -/
theorem inside_first (resp : FetchResponse) (metaBase : List (String × Json)) (bytes : Bytes)
    (size : Nat) (streaming : Bool) :
    (first resp metaBase bytes size streaming).Inside (first resp metaBase bytes size streaming) :=
  ⟨rfl, rfl, le_rfl, Int.natCast_nonneg _, .inl rfl⟩

/-- A message that fits beside the meta zone is one window. -/
theorem first_whole (resp : FetchResponse) (metaBase : List (String × Json)) {bytes : Bytes}
    {size : Nat} (streaming : Bool) (hsize : metaZone + 4 < size)
    (hone : metaZone + 4 + bytes.length ≤ size) :
    (first resp metaBase bytes size streaming).more = false ∧
      (first resp metaBase bytes size streaming).window = bytes := by
  have hmore : (first resp metaBase bytes size streaming).more = false := by
    rw [more, decide_eq_false_iff_not, stop]
    change ¬ min ((0 : Int) + ((size : Int) - metaZone - 4)) bytes.length < bytes.length
    omega
  have hcap : 0 < (first resp metaBase bytes size streaming).cap := by
    change 0 < (size : Int) - metaZone - 4
    omega
  have hwindow := take_window (inside_first resp metaBase bytes size streaming) hcap
  rw [take_stop hmore] at hwindow
  exact ⟨hmore, hwindow⟩

end Emission

/-- The headers of the first window of a response. -/
theorem headersOf_windowMeta (resp : FetchResponse) (more : Bool) :
    headersOf (some (windowMeta resp.metaBase more)) = some resp.collected := by
  have : (windowMeta resp.metaBase more).get? "headers" = some (.ofStrings resp.collected) := by
    simp [windowMeta, FetchResponse.metaBase, Json.get?, Json.Members.ofList, Json.Members.get?]
  rw [headersOf, Option.bind_some, this]
  simp [Json.ofStrings]

/-- What `_read_window` and its caller make of a window under some length word. -/
theorem takeWindow_of_holds {call : Call} {d : Region} {metaBase : List (String × Json)}
    {more : Bool} {payload : Bytes}
    (h : d.Holds 0 (windowBytes (metaBytes (windowMeta metaBase more)) payload))
    (hmeta : (metaBytes (windowMeta metaBase more)).length < 2 ^ 32) (length : Int) :
    takeWindow call d length = (if more then WindowStep.more else .last) { call with
      firstMeta := some (call.firstMeta.getD (windowMeta metaBase more))
      parts := call.parts ++
        [d.slice (4 + (metaBytes (windowMeta metaBase more)).length : Nat) length] } := by
  obtain ⟨hread, hlen⟩ := readMeta_of_holds h hmeta
  refine takeWindow_of_read ?_
  rw [readWindow, hread, hlen, Option.map_some]

/-- A window that is stored as a whole is taken as a whole. -/
theorem takeWindow_eq {call : Call} {d : Region} {e : Emission}
    (h : d.Holds 0 (windowBytes (metaBytes e.info) e.window))
    (hmeta : (metaBytes e.info).length < 2 ^ 32) :
    takeWindow call d (4 + (metaBytes e.info).length + e.window.length : Nat) =
      if e.more then .more (call.take e) else .last (call.take e) := by
  have hread : readWindow d (4 + (metaBytes e.info).length + e.window.length : Nat) =
      some (windowMeta e.metaBase e.more, e.window) := readWindow_of_holds h hmeta
  rw [takeWindow_of_read hread, ← Emission.info]
  rcases e.more <;> rfl

namespace Call.UpTo

variable {call : Call} {e e' : Emission}

theorem flatten_take (h : call.UpTo e) (hin : e.Inside e) (hcap : 0 < e.cap) :
    (call.take e).parts.flatten = e.bytes.take e.stop.toNat := by
  rw [take, List.flatten_append, List.flatten_singleton, h.parts, Emission.take_window hin hcap]

/-- The first meta is that of the response. -/
theorem kept_take (h : call.UpTo e) (hk : e.streaming = false)
    (hstatus : call.firstMeta = none → call.status = e.resp.status.toNat) :
    headersOf (call.take e).firstMeta = some e.resp.collected ∧
      (call.take e).status = e.resp.status.toNat := by
  rcases hm : call.firstMeta with _ | m
  · rw [take, hm, Option.getD_none, Emission.info, h.first hk hm]
    exact ⟨headersOf_windowMeta e.resp e.more, hstatus hm⟩
  · rw [take, hm, Option.getD_some]
    exact h.later hk m hm

/-- Behind a window the call is before the next one. -/
theorem next (h : call.UpTo e) (hin : e.Inside e) (hcap : 0 < e.cap)
    (hnext : e.next = .window e')
    (hstatus : e.streaming = false → call.firstMeta = none → call.status = e.resp.status.toNat) :
    (call.take e).UpTo e' := by
  obtain ⟨-, rfl⟩ := Emission.next_eq_window hnext
  refine ⟨h.flatten_take hin hcap, fun _ hm ↦ ?_, fun hk m hm ↦ ?_⟩
  · cases hm
  · have := h.kept_take hk (hstatus hk)
    rwa [hm] at this

end Call.UpTo

end ConnectWeb.Sab
