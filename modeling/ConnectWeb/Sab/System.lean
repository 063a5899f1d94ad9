import ConnectWeb.Foundation.Transition
import ConnectWeb.Sab.State
import Mathlib.Logic.Function.Basic

/-!
# The steps of the blocking bridge

`step` is one step of either thread or of its surroundings: an Atomics operation together
with the private work up to the next one, a `postMessage`, the delivery of a message, or
the completion of an await.  A store of STATE and the `notify` behind it are one step, and
so are the stores of bytes into the data SAB and the Atomics operation that follows them.
-/

namespace ConnectWeb.Sab

open Transport (HttpResponse)

/-! ## Shared memory -/

namespace Sys

def setBackend (s : Sys) (c : Nat) (f : Backend → Backend) : Sys :=
  { s with backend := Function.update s.backend c (f (s.backend c)) }

def setCtrl (s : Sys) (c : Nat) (f : Control → Control) : Sys :=
  s.setBackend c fun b ↦ { b with ctrl := f b.ctrl }

def setSab (s : Sys) (d : Nat) (r : Region) : Sys :=
  { s with sab := Function.update s.sab d r }

def wrote (s : Sys) (cell : Cell) (t : Option Task) : Sys :=
  { s with writer := Function.update s.writer cell t }

def logged (s : Sys) (e : Event) : Sys := { s with log := s.log ++ [e] }

def post (s : Sys) (m : Message) : Sys :=
  { s with queue := s.queue ++ [m], sent := s.sent ++ [m] }

/-- The STATE word of a channel. -/
def state (s : Sys) (c : Nat) : SabState := (s.backend c).ctrl.state

/-- The data SAB that a backend's views are bound to. -/
def region (s : Sys) (c : Nat) : Region := s.sab (s.backend c).data

end Sys

/-- `notify` wakes the worker out of `Atomics.wait`. -/
def Worker.wake (c : Nat) : Worker → Worker
  | run call (.parked w) => if call.chan = c then run call (.wait w) else run call (.parked w)
  | w => w

/-- `notify` resolves the promise of `waitAsync`. -/
def Task.wake (c : Nat) (t : Task) : Task :=
  match t.pc with
  | .parked c' _ next => if c' = c then { t with pc := .woken next } else t
  | _ => t

/-- The bridge stores STATE and notifies. -/
def Sys.storeByMain (s : Sys) (t : Task) (c : Nat) (st : SabState) : Sys :=
  let s := (s.setCtrl c fun ctrl ↦ { ctrl with state := st }).wrote (.state c) (some t)
  { s with worker := s.worker.wake c }

/-- The worker stores STATE and notifies. -/
def Sys.storeByWorker (s : Sys) (c : Nat) (st : SabState) : Sys :=
  let s := (s.setCtrl c fun ctrl ↦ { ctrl with state := st }).wrote (.state c) none
  { s with tasks := s.tasks.map (Task.wake c) }

/-! ## The worker -/

/-- The doubling loop of `_grow_data_sab`; `fuel` bounds the rounds. -/
def growLoop : Nat → Nat → Nat → Nat
  | 0, newCap, _ => newCap
  | fuel + 1, newCap, minBytes =>
      if newCap < minBytes then growLoop fuel (newCap * 2) minBytes else newCap

/-- The capacity that `_grow_data_sab` allocates; from zero it doubles forever. -/
def grownCapacity (capacity minBytes : Nat) : Option Nat :=
  if capacity = 0 ∧ 0 < minBytes then none else some (growLoop minBytes capacity minBytes)

/-- `str(x)`; the bridge only sends strings. -/
def pyStr : Json → String
  | .str s => s
  | v => .ofList (v.print .ascii)

/-- `_error_from_meta` -/
def errorFromMeta (d : Region) : WorkerExc :=
  match readMeta d with
  | none => .transport (.plain "transport error (and failed to read error detail from SAB)")
  | some (.obj members) =>
      let message := match members.get? "message" with
        | some v => pyStr v
        | none => "transport error"
      match members.get? "kind" with
      | some (.str "timeout") => .transport (.timeout message)
      | some (.str "abort") => .transport (.aborted message)
      | _ => .transport (.plain message)
  | some _ => .other

/-- Python's truth value of a JSON value. -/
def truthy : Json → Bool
  | .null => false
  | .bool b => b
  | .num mantissa _ _ => mantissa ≠ 0
  | .str s => s ≠ ""
  | .arr .nil => false
  | .arr (.cons ..) => true
  | .obj .nil => false
  | .obj (.cons ..) => true

def unexpectedState (st : SabState) (doing : String) : WorkerExc :=
  .transport (.plain s!"unexpected SAB state {st.code} {doing}")

/-- `str(timeout)` -/
def Timeout.text (t : Timeout) : String :=
  .ofList (Json.printNumber t.mantissa t.scale t.exponent)

def timedOut (t : Timeout) : WorkerExc :=
  .transport (.timeout s!"blocking transport timed out after {t.text}s")

/-- What a call does with the state that ended its wait; `d` is the data SAB. -/
def afterWait (call : Call) (w : Wait) (st : SabState) (d : Region) : Call × Pc :=
  match w, call.request.kind, st with
  | _, _, .respError => (call, .resetLoad (.raised (errorFromMeta d)))
  | .first, .unary, .respChunk => ({ call with parts := [], firstMeta := none }, .loadStatus true)
  | .first, .unary, .respEnd => (call, .loadStatus false)
  | .first, .unary, st => (call, .resetLoad (.raised (unexpectedState st "for unary")))
  | .window, _, .respChunk => (call, .readWindow)
  | .window, _, st => (call, .resetLoad (.raised (unexpectedState st "while reassembling windows")))
  | _, _, .respEnd => (call, .resetLoad .stop)
  | _, _, .respChunk => ({ call with parts := [], firstMeta := none }, .readWindow)
  | _, _, st => (call, .resetLoad (.raised (unexpectedState st "in stream")))

/-- What `_reassemble_windows` finds in a window. -/
inductive WindowStep where
  /-- more windows follow -/
  | more (call : Call)
  /-- the message is complete -/
  | last (call : Call)
  /-- the window is malformed -/
  | malformed

def takeWindow (call : Call) (d : Region) (length : Int) : WindowStep :=
  match readWindow d length with
  | some (.obj members, payload) =>
      let call := { call with
        firstMeta := some (call.firstMeta.getD (.obj members))
        parts := call.parts ++ [payload] }
      match members.get? "more" with
      | some v => if truthy v then .more call else .last call
      | none => .last call
  | _ => .malformed

/-- `dict(meta_first.get("headers") or {})`; `none` when it is neither falsy nor a mapping. -/
def headersOf (firstMeta : Option Json) : Option (Dict String String) :=
  match firstMeta.bind (Json.get? "headers") with
  | some (.obj members) => some members.strings
  | some v => if truthy v then none else some []
  | none => some []

/-- What `unary` returns when its message is complete. -/
def unaryOutcome (call : Call) : Outcome :=
  match headersOf call.firstMeta with
  | some headers => .response ⟨call.status, headers, call.parts.flatten⟩
  | none => .raised .other

namespace Sys

/-- A call ends. -/
def finish (s : Sys) (call : Call) (o : Outcome) : Sys :=
  { s with worker := .ready }.logged (.returned call o (s.backend call.chan).gen)

/-- The worker goes on at `pc`. -/
def goto (s : Sys) (call : Call) (pc : Pc) : Sys := { s with worker := .run call pc }

/-- `_attach_data` up to its announcement. -/
def attachData (s : Sys) (c : Nat) (capacity : Nat) : Sys :=
  { s.setBackend c fun b ↦ { b with
      data := s.sabs
      ctrl := { b.ctrl with cap := toInt32 capacity } } with
    sab := Function.update s.sab s.sabs (.zeros capacity)
    sabs := s.sabs + 1 }

/-- The next step of a running call. -/
def stepCall (s : Sys) (call : Call) : Pc → Option Sys
  | .grow =>
      (grownCapacity (s.region call.chan).size (neededBytes call.request call.gen)).map
        fun capacity ↦ (s.attachData call.chan capacity).goto call (.announce s.sabs)
  | .announce d => some ((s.post (.sab call.chan d)).goto call .marshal)
  | .marshal =>
      let hb := headerBytes call.request call.gen
      let d := (s.backend call.chan).data
      match writeRequest (s.sab d) hb call.request.body with
      | none => some (s.finish call (.raised .other))
      | some r =>
          let s := (s.setSab d r).wrote (.data d) none
          let s := s.setCtrl call.chan fun ctrl ↦ { ctrl with gen := toInt32 call.gen }
          some ({ s with
            posted := Function.update s.posted call.chan (some ⟨call.gen, call.request⟩) }.goto
              call (.storeLength (requestStores hb call.request.body).off))
  | .storeLength off =>
      let s := s.setCtrl call.chan fun ctrl ↦ { ctrl with length := toInt32 off }
      some ((s.wrote (.length call.chan) none).goto call .storeSeq)
  | .storeSeq => some ((s.setCtrl call.chan fun ctrl ↦ { ctrl with seq := 0 }).goto call .storeReady)
  | .storeReady => some ((s.storeByWorker call.chan .reqReady).goto call .nudge)
  | .nudge => some ((s.post .rpc).goto call (.wait .first))
  | .wait w =>
      let st := s.state call.chan
      if st = w.expect then some (s.goto call (.block w))
      else
        let next := afterWait call w st (s.region call.chan)
        some (s.goto next.1 next.2)
  | .block w =>
      some (s.goto call (if s.state call.chan = w.expect then .parked w else .wait w))
  | .parked _ => none
  | .loadStatus chunk =>
      let call := { call with status := (s.backend call.chan).ctrl.status }
      some (s.goto call (if chunk then .readWindow else .resetLoad (.response ⟨call.status, [], []⟩)))
  | .readWindow =>
      match takeWindow call (s.region call.chan) (s.backend call.chan).ctrl.length with
      | .malformed => some (s.goto call (.resetLoad (.raised .other)))
      | .more call => some (s.goto call .ackWindow)
      | .last call =>
          match call.request.kind with
          | .unary => some (s.goto call (.resetLoad (unaryOutcome call)))
          | .serverStream =>
              some ({ s with worker := .ready, suspended := s.suspended ++ [call] }.logged
                (.yielded call call.parts.flatten))
  | .ackWindow => some ((s.storeByWorker call.chan .chunkAck).goto call (.wait .window))
  | .resume =>
      some (s.goto call
        (if (s.backend call.chan).ctrl.gen = call.gen then .ackChunk else .resetLoad .stop))
  | .ackChunk => some ((s.storeByWorker call.chan .chunkAck).goto call (.wait .chunk))
  | .resetLoad o =>
      if (s.backend call.chan).ctrl.gen = call.gen then some (s.goto call (.resetStore o))
      else some (s.finish call o)
  | .resetStore o => some ((s.storeByWorker call.chan .idle).finish call o)

def stepWorker (s : Sys) : Option Sys :=
  match s.closing, s.worker with
  | none, .attaching c d => some { s.post (.sab c d) with worker := .ready }
  | none, .run call pc => s.stepCall call pc
  | _, _ => none

/-- `_AtomicsBackend.__init__` up to its announcement. -/
def construct (s : Sys) (capacity : Nat) : Option Sys :=
  match s.closing, s.worker with
  | none, .ready =>
      some { { s with backends := s.backends + 1 }.attachData s.backends capacity with
        worker := .attaching s.backends s.sabs }
  | _, _ => none

/-- The caller starts an RPC: `unary`, or the first `next` of a `server_stream`. -/
def start (s : Sys) (c : Nat) (req : Request) : Option Sys :=
  match s.closing, s.worker with
  | none, .ready =>
      if c < s.backends then
        let gen := (s.backend c).gen + 1
        let s := s.setBackend c fun b ↦ { b with gen }
        some (s.goto { chan := c, gen, request := req }
          (if (s.region c).size < neededBytes req gen then .grow else .marshal))
      else none
  | _, _ => none

/-- The caller asks generator `i` for its next chunk. -/
def resume (s : Sys) (i : Nat) : Option Sys :=
  match s.closing, s.worker, s.suspended[i]? with
  | none, .ready, some call =>
      some ({ s with suspended := s.suspended.eraseIdx i }.goto call .resume)
  | _, _, _ => none

/-- The worker runs: it is not asleep in `Atomics.wait`. -/
def awake (s : Sys) : Bool :=
  match s.worker with
  | .run _ (.parked _) => false
  | _ => true

/-- Generator `i` is closed: by the caller, or by the garbage collector at any time the
worker runs. -/
def close (s : Sys) (i : Nat) : Option Sys :=
  match s.closing, s.suspended[i]? with
  | none, some call =>
      if s.awake then
        some { s with closing := some ⟨call, false⟩, suspended := s.suspended.eraseIdx i }
      else none
  | _, _ => none

/-- The next step of closing a generator: `_reset_idle_if_current`. -/
def stepClosing (s : Sys) : Option Sys :=
  match s.closing with
  | none => none
  | some ⟨call, false⟩ =>
      if (s.backend call.chan).ctrl.gen = call.gen then
        some { s with closing := some ⟨call, true⟩ }
      else some { s with closing := none }
  | some ⟨call, true⟩ => some { s.storeByWorker call.chan .idle with closing := none }

/-- `Atomics.wait` returns `timed-out`. -/
def expire (s : Sys) : Option Sys :=
  match s.worker with
  | .run call (.parked w) =>
      match call.request.timeout with
      | none => none
      | some t =>
          let s := s.logged .expired
          -- the first wait of `unary` stands outside its `try`
          if w = .first ∧ call.request.kind = .unary then
            some (s.finish call (.raised (timedOut t)))
          else some (s.goto call (.resetLoad (.raised (timedOut t))))
  | _ => none

end Sys

/-! ## The main thread -/

/-- `${x}` of a number.  Its digits are the shortest ones of the double, as `repr` writes them,
or those of an integer below `2 ^ 53`; `n` is where the point stands among them. -/
def jsNumber (mantissa : Int) (scale : Nat) (exponent : Option Int) : List Char :=
  let written := Nat.toDigits 10 mantissa.natAbs
  let digits := written.rdropWhile (· = '0')
  let n : Int := written.length - scale + exponent.getD 0
  if digits = [] then ['0']
  else
    (if mantissa < 0 then ['-'] else []) ++
      if digits.length ≤ n ∧ n ≤ 21 then digits ++ List.replicate (n - digits.length).toNat '0'
      else if 0 < n ∧ n ≤ 21 then digits.take n.toNat ++ '.' :: digits.drop n.toNat
      else if -6 < n ∧ n ≤ 0 then '0' :: '.' :: List.replicate (-n).toNat '0' ++ digits
      else
        digits.take 1 ++ (if digits.length = 1 then [] else '.' :: digits.drop 1) ++
          'e' :: (if n - 1 < 0 then '-' else '+') :: Nat.toDigits 10 (n - 1).natAbs

/-- `${x}` of a property; the worker sends strings and numbers. -/
def jsText : Option Json → String
  | none => "undefined"
  | some (.str s) => s
  | some (.num mantissa scale exponent) => .ofList (jsNumber mantissa scale exponent)
  | some v => .ofList (v.print .compact)

/-- `x != null` -/
def jsPresent : Option Json → Bool
  | none | some .null => false
  | _ => true

/-- `bs.subarray(a, b)` -/
def subarray (bs : Bytes) (a b : Int) : Bytes :=
  (bs.take (Region.clamp bs.length b)).drop (Region.clamp bs.length a)

namespace Emission

/-- `end` -/
def stop (e : Emission) : Int := min (e.sent + e.cap) e.bytes.length

def more (e : Emission) : Bool := e.stop < e.bytes.length

def window (e : Emission) : Bytes := subarray e.bytes e.sent e.stop

def info (e : Emission) : Json := windowMeta e.metaBase e.more

/-- What follows the window. -/
def next (e : Emission) : Next :=
  if e.more then .window { e with metaBase := [], sent := e.stop }
  else if e.streaming then .read e.resp
  else .leave

end Emission

namespace Task

def goto (t : Task) (pc : At) : Task := { t with pc }

/-- `_emitMessage`, with the capacity of the data SAB attached now. -/
def emit (t : Task) (resp : FetchResponse) (metaBase : List (String × Json)) (bytes : Bytes)
    (size : Nat) (streaming : Bool) : Task :=
  t.goto (.window {
    resp, metaBase, bytes, streaming
    cap := (size : Int) - metaZone - 4
    sent := 0 })

end Task

namespace Sys

/-- The main thread goes on with `t`. -/
def runs (s : Sys) (t : Task) : Sys := { s with current := .run t }

/-- The main thread suspends `t` and turns to its next event. -/
def suspends (s : Sys) (t : Task) : Sys := { s with current := .idle, tasks := s.tasks ++ [t] }

/-- `handleRpc` at its guard. -/
def stepGuard (engine : Engine) (s : Sys) : Sys :=
  match s.bridge.busy, s.bridge.ctrl with
  | false, some c =>
      if s.state c = .reqReady then
        let pick : Pick := {
          id := s.picks.length
          chan := c
          data := s.bridge.data
          pending := s.posted c
          read := readRequest (s.sab s.bridge.data) }
        let s := { s with
          bridge := { s.bridge with busy := true }
          picks := s.picks ++ [pick] }
        match pick.read with
        | none => s.runs { pick, pc := .report engine.syntaxError.text "error" true }
        | some (.null, _) => s.runs { pick, pc := .report engine.typeError.text "error" true }
        | some _ => s.suspends { pick, pc := .fetching }
      else { s with current := .idle }
  | _, _ => { s with current := .idle }

/-- A window or an error report is stored, with STATUS, and LENGTH and STATE are due; or the
copy raised `RangeError`, and control is at `failed`. -/
def storeWindow (s : Sys) (t : Task) (c : Nat) (info : Json) (payload : Bytes) (status : Int)
    (state : SabState) (next : Next) (failed : At) : Sys :=
  let d := s.bridge.data
  let w := writeWindow (s.sab d) (metaBytes info) payload
  let s := (s.setSab d w.1).wrote (.data d) (some t)
  match w.2 with
  | none => s.runs (t.goto failed)
  | some off =>
      let s := s.setCtrl c fun ctrl ↦ { ctrl with status := toInt32 status }
      (s.wrote (.status c) (some t)).runs (t.goto (.storeLength off state next))

/-- The next step of the invocation that runs. -/
def stepTask (engine : Engine) (s : Sys) (c : Nat) (t : Task) : Option Sys :=
  match t.pc with
  | .window e =>
      some (s.storeWindow t c e.info e.window e.resp.status.toNat .respChunk e.next
        (.report engine.rangeError.text "error" true))
  | .report message kind caught =>
      some (s.storeWindow t c (errorMeta message kind) [] 0 .respError .leave
        (if caught then .leaving else .report engine.rangeError.text "error" true))
  | .storeLength off state next =>
      let s := s.setCtrl c fun ctrl ↦ { ctrl with length := toInt32 off }
      some ((s.wrote (.length c) (some t)).runs (t.goto (.storeState state next)))
  | .storeState state next =>
      let s := s.storeByMain t c state
      match next with
      | .leave => some (s.runs (t.goto .leaving))
      | next => some (s.runs (t.goto (.awaitLoad next)))
  | .awaitLoad next =>
      let cur := s.state c
      if cur = .chunkAck then
        match next with
        | .window e => some (s.runs (t.goto (.window e)))
        | .read resp => some (s.suspends (t.goto (.reading resp false)))
        | .leave => some (s.runs (t.goto .leaving))
      else if cur.endsAwait then some (s.runs (t.goto .leaving))
      else some (s.runs (t.goto (.awaitBlock cur next)))
  | .awaitBlock cur next =>
      if engine.waitAsync then
        if s.state c = cur then some (s.suspends (t.goto (.parked c cur next)))
        else some (s.runs (t.goto (.awaitLoad next)))
      else some (s.suspends (t.goto (.woken next)))
  | .leaving =>
      some { s with
        bridge := { s.bridge with busy := false }
        current := if s.state c = .reqReady then .guard else .idle }
  | _ => none

def stepMain (engine : Engine) (s : Sys) : Option Sys :=
  match s.current, s.bridge.ctrl with
  | .guard, _ => some (s.stepGuard engine)
  | .run t, some c => s.stepTask engine c t
  | _, _ => none

/-- The message listener takes the oldest message. -/
def deliver (s : Sys) : Option Sys :=
  match s.current, s.queue with
  | .idle, .sab c d :: queue =>
      some { s with queue, bridge := { s.bridge with ctrl := some c, data := d } }
  | .idle, .rpc :: queue => some { s with queue, current := .guard }
  | _, _ => none

/-- The main thread is idle and invocation `i` is at an `await`. -/
def awaiting (s : Sys) (i : Nat) : Option Task :=
  match s.current with
  | .idle => s.tasks[i]?
  | _ => none

def without (s : Sys) (i : Nat) : Sys := { s with tasks := s.tasks.eraseIdx i }

/-- `fetch` settles. -/
def fetchDone (engine : Engine) (s : Sys) (i : Nat) (r : FetchResult) : Option Sys :=
  match s.awaiting i with
  | some t =>
      match t.pc with
      | .fetching =>
          let header := t.pick.header
          let s := s.without i
          match r with
          | .rejected isAbort text =>
              let kind := if t.timedOut then "timeout" else if isAbort then "abort" else "error"
              let timeout := jsText (header.get? "timeout")
              let url := jsText (header.get? "url")
              let msg :=
                if t.timedOut then s!"fetch timed out after {timeout}s"
                else s!"fetch failed for {url}: {text}"
              some (s.runs (t.goto (.report msg kind false)))
          | .resolved resp =>
              let s := s.logged (.fetched t.pick resp)
              if jsText (header.get? "kind") = "unary" then
                some (s.suspends (t.goto (.buffering resp)))
              else if resp.hasBody then some (s.suspends (t.goto (.reading resp true)))
              else some (s.runs (t.goto (.report engine.typeError.text "error" true)))
      | _ => none
  | none => none

/-- The timer of an invocation aborts its fetch. -/
def timer (s : Sys) (i : Nat) : Option Sys :=
  match s.awaiting i with
  | some t =>
      match t.pc with
      | .fetching =>
          if jsPresent (t.pick.header.get? "timeout") then
            some { s with tasks := s.tasks.set i { t with timedOut := true } }
          else none
      | _ => none
  | none => none

/-- `resp.arrayBuffer()` settles. -/
def bufferDone (s : Sys) (i : Nat) (r : BufferResult) : Option Sys :=
  match s.awaiting i with
  | some t =>
      match t.pc with
      | .buffering resp =>
          let s := s.without i
          match r with
          | .resolved body =>
              some ((s.logged (.buffered t.pick body)).runs
                (t.emit resp resp.metaBase body (s.sab s.bridge.data).size false))
          | .rejected e => some (s.runs (t.goto (.report e.text "error" true)))
      | _ => none
  | none => none

/-- `reader.read()` settles. -/
def readDone (s : Sys) (i : Nat) (r : ReadResult) : Option Sys :=
  match s.awaiting i with
  | some t =>
      match t.pc with
      | .reading resp first =>
          match r with
          | .value [] => some s
          | .value (b :: bs) =>
              let s := (s.without i).logged (.chunk t.pick (b :: bs))
              some (s.runs (t.emit resp (if first then resp.metaBase else []) (b :: bs)
                (s.sab s.bridge.data).size true))
          | .done =>
              some (((s.without i).logged (.exhausted t.pick)).runs
                (t.goto (.storeLength 0 .respEnd .leave)))
          | .rejected isAbort text =>
              let kind := if t.timedOut then "timeout" else if isAbort then "abort" else "error"
              some ((s.without i).runs (t.goto (.report s!"stream read failed: {text}" kind false)))
      | _ => none
  | none => none

/-- `_awaitWorker` runs on. -/
def wake (s : Sys) (i : Nat) : Option Sys :=
  match s.awaiting i with
  | some t =>
      match t.pc with
      | .woken next => some ((s.without i).runs (t.goto (.awaitLoad next)))
      | _ => none
  | none => none

end Sys

/-! ## The system -/

inductive Action where
  | construct (capacity : Nat)
  | start (chan : Nat) (req : Request)
  | resume (i : Nat)
  | close (i : Nat)
  | worker
  | closing
  | expire
  | deliver
  | main
  | fetchDone (i : Nat) (r : FetchResult)
  | timer (i : Nat)
  | bufferDone (i : Nat) (r : BufferResult)
  | readDone (i : Nat) (r : ReadResult)
  | wake (i : Nat)

def step (engine : Engine) (s : Sys) : Action → Option Sys
  | .construct capacity => s.construct capacity
  | .start c req => s.start c req
  | .resume i => s.resume i
  | .close i => s.close i
  | .worker => s.stepWorker
  | .closing => s.stepClosing
  | .expire => s.expire
  | .deliver => s.deliver
  | .main => s.stepMain engine
  | .fetchDone i r => s.fetchDone engine i r
  | .timer i => s.timer i
  | .bufferDone i r => s.bufferDone i r
  | .readDone i r => s.readDone i r
  | .wake i => s.wake i

/-- The worker and the main thread over one engine. -/
def system (engine : Engine) : System Sys Action where
  init := fun s ↦ s = {}
  step := step engine

end ConnectWeb.Sab
