import ConnectWeb.Foundation.Simulation
import ConnectWeb.Sab.Moves

/-!
# What goes over `postMessage`

A worker of the standalone harness announces its buffers through the hook of
`worker_bootstrap.js`, a worker of a JupyterLite kernel in an envelope of its own; the page
listens for the one (`installBridge`) or the other (`PcwWorker`), between all that the kernel and
the harness post over the same channel.  Which of the two a backend speaks is settled when it is
built: by the hook, which is there when the harness has finished booting.
-/

namespace ConnectWeb.Sab

/-! ## Messages -/

/-- `"standalone"` or `"kernel"` -/
inductive BackendTransport where
  | standalone | kernel
deriving DecidableEq, Repr

/-- A control SAB: a backend's, or the one that the harness allocates at boot. -/
inductive ControlSab where
  | backend (chan : Nat)
  | boot
deriving DecidableEq, Repr

inductive DataSab where
  | sab (d : Nat)
  | boot
deriving DecidableEq, Repr

/-- The members of a message, or of its `__pcw__`, that a listener looks at. -/
structure Members where
  type : Option String := none
  control : Option ControlSab := none
  data : Option DataSab := none
deriving DecidableEq, Repr

/-- `ev.data`, as far as a listener looks into it. -/
structure Posting extends Members where
  /-- `__pcw__` -/
  pcw : Option Members := none
deriving DecidableEq, Repr

/-- What `_attach_data` and `_write_request` post. -/
def BackendTransport.posting : BackendTransport → Message → Posting
  | kernel, .sab c d =>
      { pcw := some { type := "sab", control := some (.backend c), data := some (.sab d) } }
  | kernel, .rpc => { pcw := some { type := "rpc" } }
  | standalone, .sab c d =>
      { type := "pcw_sab", control := some (.backend c), data := some (.sab d) }
  | standalone, .rpc => { type := "pcw_rpc" }

/-- What a listener makes of a message. -/
inductive Heard where
  /-- `bridge.attach(control, data)` -/
  | attach (control : Option ControlSab) (data : Option DataSab)
  /-- `bridge.handleRpc()` -/
  | rpc
deriving DecidableEq, Repr

/-- The listener of `installBridge`. -/
def installBridge (m : Posting) : Option Heard :=
  if m.type = some "pcw_sab" then some (.attach m.control m.data)
  else if m.type = some "pcw_rpc" then some .rpc
  else none

/-- The listener of `PcwWorker`. -/
def pcwWorker (m : Posting) : Option Heard :=
  match m.pcw with
  | none => none
  | some env =>
      if env.type = some "sab" then some (.attach env.control env.data)
      else if env.type = some "rpc" then some .rpc
      else none

/-! ## The page and the worker -/

/-- A page with its worker. -/
structure Page where
  /-- What the page listens for. -/
  transport : BackendTransport

def Page.listen (page : Page) : Posting → Option Heard :=
  match page.transport with
  | .standalone => installBridge
  | .kernel => pcwWorker

/-- `boot()` announces a pair of its own. -/
def bootPosting : Posting := { type := "pcw_sab", control := some .boot, data := some .boot }

structure Wire where
  /-- The two programs, without messages on the way. -/
  core : Sys := {}
  /-- The messages on the way, oldest first. -/
  postings : List Posting := []
  /-- `js.__pcw_register_sab` is there. -/
  hook : Bool := false
  /-- The transport of each backend, in the order of construction. -/
  transports : List BackendTransport := []

/-- The backend whose code the worker runs. -/
def Worker.chan : Worker → Option Nat
  | ready => none
  | attaching c _ => some c
  | run call _ => some call.chan

namespace Wire

/-- `transport == "auto"` -/
def auto (w : Wire) : BackendTransport := if w.hook then .standalone else .kernel

/-- What the worker posted, in the words of the backend that posts. -/
def posted (w : Wire) (messages : List Message) : List Posting :=
  match w.core.worker.chan.bind (w.transports[·]?) with
  | none => []
  | some transport => messages.map transport.posting

end Wire

inductive WireAction where
  /-- a step of the two programs, other than the delivery of a message -/
  | core (a : Action)
  | deliver
  /-- The worker posts something that is not for the bridge. -/
  | foreign (m : Posting)
  /-- `boot()` ends: the hook, and `pcw_ready` -/
  | register

/-- The delivery of a message is not a step of the programs alone. -/
def Action.local : Action → Bool
  | .deliver => false
  | _ => true

namespace Wire

/-- The listener of the page takes the oldest message. -/
def deliver (page : Page) (w : Wire) : Option Wire :=
  match w.core.current, w.postings with
  | .idle, m :: postings =>
      match page.listen m with
      | none => some { w with postings }
      | some .rpc => some { w with postings, core := { w.core with current := .guard } }
      | some (.attach (some (.backend c)) (some (.sab d))) =>
          some { w with postings, core := { w.core with
            bridge := { w.core.bridge with ctrl := some c, data := d } } }
      | some (.attach (some .boot) (some .boot)) =>
          -- no request is ever up in this pair, and it is announced before any other
          if w.core.bridge.ctrl = none then some { w with postings } else none
      | some (.attach _ _) => none
  | _, _ => none

def step (page : Page) (engine : Engine) (w : Wire) : WireAction → Option Wire
  | .core a =>
      if a.local then
        (Sab.step engine w.core a).map fun core ↦ { w with
          core := { core with queue := [] }
          postings := w.postings ++ w.posted core.queue
          transports := if w.core.backends < core.backends then w.transports ++ [w.auto]
            else w.transports }
      else none
  | .deliver => w.deliver page
  | .foreign m =>
      if page.listen m = none then some { w with postings := w.postings ++ [m] } else none
  | .register =>
      if page.transport = .standalone ∧ w.hook = false then
        some { w with hook := true, postings := w.postings ++ [{ type := "pcw_ready" }] }
      else none

end Wire

/-- The page and the worker, with everything that goes between them. -/
def wire (page : Page) (engine : Engine) : System Wire WireAction where
  init := fun w ↦ w = { postings := if page.transport = .standalone then [bootPosting] else [] }
  step := Wire.step page engine

end ConnectWeb.Sab
