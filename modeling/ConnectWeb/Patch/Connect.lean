import ConnectWeb.Foundation.Unwinding
import ConnectWeb.Patch.Lifecycle
import ConnectWeb.Patch.WebUrl
import ConnectWeb.Sab.Client

/-!
# Connecting (`patch.py`)

What runs behind `DefaultChannelBuilder(url)`, `toChannel()` and `SparkConnectServiceStub(channel)`
while the patch is installed and uninstalled and its factories are set.  PySpark's own functions
are a parameter; `Any` stands for the objects that PySpark and the callers bring along.
-/

namespace ConnectWeb.Patch

open Sab (SabSyncChannel TransportError)
open Transport (Metadata)

/-! ## Objects -/

/-- What is raised. -/
inductive Raised (Any : Type) where
  | object (e : Any)
  /-- by `install` or `uninstall` -/
  | patch (e : Exc)
  | transport (e : TransportError)
  /-- `RuntimeError` -/
  | runtime (message : String)
  /-- `IndexError` -/
  | index
  /-- `TypeError`: the object is called as what it is not. -/
  | type
  /-- `NameError` -/
  | unbound

/-- A first argument of `DefaultChannelBuilder`. -/
inductive Url (Any : Type) where
  | str (url : List Char)
  | other (x : Any)

/-- What PySpark's own `__init__` leaves, as far as `toChannel` reads it. -/
structure Parsed where
  host : String
  /-- `_port` -/
  port : Nat
  secure : Bool
  /-- `_params` -/
  params : Dict String String
  /-- what `metadata()` lists -/
  metadata : Metadata
deriving DecidableEq, Repr

/-- A `DefaultChannelBuilder`. -/
structure Builder where
  parsed : Parsed
  /-- `_pcw_web`, if it is set -/
  pcwWeb : Option Bool := none
deriving DecidableEq, Repr

/-- `getattr(self, "_pcw_web", False)` -/
def Builder.web (b : Builder) : Bool := b.pcwWeb.getD false

structure WebEndpoint where
  host : String
  port : Nat
  secure : Bool
  params : Dict String String := []
deriving DecidableEq, Repr

/-- `base_url` of an endpoint and of a channel -/
def baseUrl (host : String) (port : Nat) (secure : Bool) : String :=
  let scheme := if secure then "https" else "http"
  s!"{scheme}://{host}:{port}"

def WebEndpoint.baseUrl (e : WebEndpoint) : String := Patch.baseUrl e.host e.port e.secure

/-- A `SyncChannel`: the project's own, or one that a factory made. -/
inductive Sync (Any : Type) where
  | sab (channel : SabSyncChannel)
  | other (x : Any)

structure WebChannel (Any : Type) where
  host : String
  port : Nat
  secure : Bool
  channel : Sync Any
  params : Dict String String := []

/-- What `toChannel` returns. -/
inductive Channel (Any : Type) where
  | grpc (channel : Any)
  | web (channel : WebChannel Any)

/-- What `SparkConnectServiceStub(channel)` returns. -/
inductive Stub (Any : Type) where
  | other (stub : Any)
  /-- `GrpcWebStub(channel, metadata)` -/
  | grpcWeb (channel : Sync Any) (metadata : Metadata)

abbrev ChannelFactory (Any : Type) := WebEndpoint → Except (Raised Any) (Sync Any)
abbrev StubFactory (Any : Type) := WebChannel Any → Except (Raised Any) (Stub Any)

/-! ## What is not the patch's -/

variable {Stock Any : Type}

/-- PySpark's own functions. -/
structure Library (Stock Any : Type) where
  init : Stock → Url Any → (channelOptions : Option Any) → Except (Raised Any) Parsed
  toChannel : Stock → Parsed → Except (Raised Any) Any
  stub : Stock → Channel Any → (args : List Any) → Except (Raised Any) Any
  /-- `str.isalnum` of the characters beyond ASCII -/
  alnum : Char → Bool

/-- A call of one of these functions. -/
inductive LibCall (Stock Any : Type) where
  | init (o : Stock) (url : Url Any) (channelOptions : Option Any)
  | toChannel (o : Stock) (parsed : Parsed)
  | stub (o : Stock) (channel : Channel Any) (args : List Any)

/-- A result, and the calls of PySpark's own functions that were made for it. -/
structure Traced (Stock Any α : Type) where
  result : Except (Raised Any) α
  calls : List (LibCall Stock Any) := []

/-- The calls of `x` come behind others. -/
def Traced.after {α : Type} (calls : List (LibCall Stock Any)) (x : Traced Stock Any α) :
    Traced Stock Any α :=
  { x with calls := calls ++ x.calls }

instance : Monad (Traced Stock Any) where
  pure x := { result := .ok x }
  map f x := { x with result := x.result.map f }
  bind x f :=
    match x.result with
    | .error e => { x with result := .error e }
    | .ok a => (f a).after x.calls

namespace Library

variable (lib : Library Stock Any)

def callInit (o : Stock) (url : Url Any) (options : Option Any) : Traced Stock Any Parsed :=
  ⟨lib.init o url options, [.init o url options]⟩

def callToChannel (o : Stock) (parsed : Parsed) : Traced Stock Any Any :=
  ⟨lib.toChannel o parsed, [.toChannel o parsed]⟩

def callStub (o : Stock) (channel : Channel Any) (args : List Any) : Traced Stock Any Any :=
  ⟨lib.stub o channel args, [.stub o channel args]⟩

end Library

/-- Where the program runs. -/
structure Env where
  /-- `is_pyodide()` -/
  pyodide : Bool
  crossOriginIsolated : Bool
  /-- `.worker` can be imported. -/
  worker : Bool := true
  /-- `.transport` can be imported. -/
  transport : Bool := true

/-! ## The default factories -/

/-- `SabSyncChannel(base_url)`, with the checks of its backend -/
def Env.sabSyncChannel (env : Env) (baseUrl : String) : Except (Raised Any) SabSyncChannel :=
  if !env.pyodide then
    .error (.transport (.plain "SabSyncChannel has no backend: not running under Pyodide and no SyncBackend was injected. Local/test callers must pass a backend (see tests/test_sab_channel.py)."))
  else if !env.crossOriginIsolated then
    .error (.transport (.plain "crossOriginIsolated is false: the page must be served with COOP: same-origin and COEP: credentialless for SharedArrayBuffer. See ."))
  else .ok (.ofUrl baseUrl)

def defaultChannelFactory (env : Env) : ChannelFactory Any := fun endpoint ↦
  if !env.worker then
    .error (.runtime "pyspark-connect-web: no SyncChannel available. The default transport is the worker.SabSyncChannel, which is not importable here. Install the components, run in Pyodide, or inject one via pyspark_connect_web.patch.set_channel_factory(...).")
  else (env.sabSyncChannel endpoint.baseUrl).map .sab

def defaultStubFactory (env : Env) : StubFactory Any := fun channel ↦
  if !env.transport then
    .error (.runtime "pyspark-connect-web: the transport.GrpcWebStub is not importable. Install the or inject a stub via pyspark_connect_web.patch.set_stub_factory(...).")
  else .ok (.grpcWeb channel.channel channel.params)

/-! ## The calls -/

/-- `_channel_factory` and `_stub_factory` -/
structure Factories (Any : Type) where
  channel : Option (ChannelFactory Any) := none
  stub : Option (StubFactory Any) := none

namespace Factories

def getChannelFactory (factories : Factories Any) (env : Env) : ChannelFactory Any :=
  factories.channel.getD (defaultChannelFactory env)

def getStubFactory (factories : Factories Any) (env : Env) : StubFactory Any :=
  factories.stub.getD (defaultStubFactory env)

end Factories

namespace Obj

/-- `DefaultChannelBuilder(url, channelOptions)`, where `__init__` is this -/
def callInit (lib : Library Stock Any) : Obj Stock → Url Any → Option Any →
    Traced Stock Any Builder
  | stock o, url, options => (fun parsed ↦ { parsed }) <$> lib.callInit o url options
  | patchedInit orig, .str url, options =>
      if isWebUrl lib.alnum url then
        match normalizeWebUrl url with
        | none => { result := .error .index }
        | some normalized =>
            ({ · with pcwWeb := some true }) <$> orig.callInit lib (.str normalized) options
      else ({ · with pcwWeb := some false }) <$> orig.callInit lib (.str url) options
  | patchedInit orig, url, options =>
      ({ · with pcwWeb := some false }) <$> orig.callInit lib url options
  | _, _, _ => { result := .error .type }

/-- `builder.toChannel()`, where `toChannel` is this -/
def callToChannel (lib : Library Stock Any) (env : Env) (factories : Factories Any) :
    Obj Stock → Builder → Traced Stock Any (Channel Any)
  | stock o, b => .grpc <$> lib.callToChannel o b.parsed
  | patchedToChannel orig, b =>
      if !b.web then orig.callToChannel lib env factories b
      else do
        let p := b.parsed
        let endpoint : WebEndpoint := ⟨p.host, p.port, p.secure, p.params⟩
        let syncChannel ← { result := factories.getChannelFactory env endpoint }
        return .web ⟨endpoint.host, endpoint.port, endpoint.secure, syncChannel,
          Dict.ofPairs p.metadata⟩
  | _, _ => { result := .error .type }

/-- `SparkConnectServiceStub(channel, *args)`, where that is this -/
def callStub (lib : Library Stock Any) (env : Env) (factories : Factories Any) :
    Obj Stock → Channel Any → List Any → Traced Stock Any (Stub Any)
  | stock o, channel, args => .other <$> lib.callStub o channel args
  | patchedStubFactory _, .web channel, _ => { result := factories.getStubFactory env channel }
  | patchedStubFactory orig, channel, args => orig.callStub lib env factories channel args
  | _, _, _ => { result := .error .type }

end Obj

/-! ## A session -/

/-- The module, PySpark's classes, and the variables of the caller. -/
structure Session (Stock Any : Type) where
  world : World Stock
  factories : Factories Any := {}
  builders : String → Option Builder := fun _ ↦ none
  channels : String → Option (Channel Any) := fun _ ↦ none

/-- Nothing is patched, and no variable is bound. -/
def Start.session (start : Start Stock) : Session Stock Any := { world := start.world }

/-- What the caller does. -/
inductive Step (Any : Type) where
  /-- `install()` or `uninstall()` -/
  | call (c : Call)
  | setChannelFactory (factory : Option (ChannelFactory Any))
  | setStubFactory (factory : Option (StubFactory Any))
  /-- `builder = DefaultChannelBuilder(url, options)` -/
  | build (builder : String) (url : Url Any) (options : Option Any)
  /-- `channel = builder.toChannel()` -/
  | toChannel (builder channel : String)
  /-- `SparkConnectServiceStub(channel, *args)` -/
  | stub (channel : String) (args : List Any)

inductive Value (Any : Type) where
  | none
  | builder (parsed : Parsed)
  | channel (channel : Channel Any)
  | stub (stub : Stub Any)

/-- An answer, with the calls of PySpark's own functions that were made for it. -/
structure Reply (Stock Any : Type) where
  answer : Except (Raised Any) (Value Any)
  calls : List (LibCall Stock Any) := []

/-- A call that binds what it returns. -/
def Traced.reply {σ α : Type} (x : Traced Stock Any α) (s : σ) (value : α → Value Any)
    (set : α → σ) : Reply Stock Any × σ :=
  match x.result with
  | .error e => (⟨.error e, x.calls⟩, s)
  | .ok a => (⟨.ok (value a), x.calls⟩, set a)

/-- A variable of the caller's. -/
def lookup {α : Type} (x : Option α) : Traced Stock Any α :=
  { result := x.elim (.error .unbound) .ok }

theorem lookup_some_bind {α β : Type} (x : α) (f : α → Traced Stock Any β) :
    lookup (some x) >>= f = f x := rfl

namespace Session

def step (lib : Library Stock Any) (env : Env) (s : Session Stock Any) :
    Step Any → Reply Stock Any × Session Stock Any
  | .call c =>
      let result := c.run s.world
      ({ answer := (result.1.mapError .patch).map fun _ ↦ .none }, { s with world := result.2 })
  | .setChannelFactory factory =>
      ({ answer := .ok .none }, { s with factories := { s.factories with channel := factory } })
  | .setStubFactory factory =>
      ({ answer := .ok .none }, { s with factories := { s.factories with stub := factory } })
  | .build builder url options =>
      (s.world.pyspark.init.get.callInit lib url options).reply s (.builder ·.parsed) fun b ↦
        { s with builders := Function.update s.builders builder (some b) }
  | .toChannel builder channel =>
      (lookup (s.builders builder) >>=
        s.world.pyspark.toChannel.get.callToChannel lib env s.factories).reply s .channel fun c ↦
          { s with channels := Function.update s.channels channel (some c) }
  | .stub channel args =>
      (lookup (s.channels channel) >>= fun channel ↦
        s.world.pyspark.stub.callStub lib env s.factories channel args).reply s .stub fun _ ↦ s

/-- What PySpark's client does with a URL: `DefaultChannelBuilder(url, options)`, `toChannel()` and
`SparkConnectServiceStub(channel)`. -/
def connect (lib : Library Stock Any) (env : Env) (s : Session Stock Any) (url : Url Any)
    (options : Option Any) : Traced Stock Any (Stub Any) := do
  let builder ← s.world.pyspark.init.get.callInit lib url options
  let channel ← s.world.pyspark.toChannel.get.callToChannel lib env s.factories builder
  s.world.pyspark.stub.callStub lib env s.factories channel []

end Session

/-- The patched program. -/
def patched (lib : Library Stock Any) (env : Env) :
    Machine (Session Stock Any) (Step Any) (Reply Stock Any) where
  step := Session.step lib env

/-! ## PySpark without the patch -/

/-- The variables of a caller of PySpark. -/
structure StockSession (Any : Type) where
  builders : String → Option Parsed := fun _ ↦ none
  channels : String → Option Any := fun _ ↦ none

/-- What a caller of PySpark does. -/
inductive StockStep (Any : Type) where
  | build (builder : String) (url : Url Any) (options : Option Any)
  | toChannel (builder channel : String)
  | stub (channel : String) (args : List Any)
  /-- The channel is an object that the caller brings. -/
  | stubOf (channel : Channel Any) (args : List Any)

/-- The objects that PySpark brings. -/
structure Stocks (Stock : Type) where
  init : Stock
  toChannel : Stock
  stub : Stock

def StockSession.step (lib : Library Stock Any) (o : Stocks Stock) (t : StockSession Any) :
    StockStep Any → Reply Stock Any × StockSession Any
  | .build builder url options =>
      (lib.callInit o.init url options).reply t .builder fun parsed ↦
        { t with builders := Function.update t.builders builder (some parsed) }
  | .toChannel builder channel =>
      (lookup (t.builders builder) >>= lib.callToChannel o.toChannel).reply t
        (fun c ↦ .channel (.grpc c)) fun c ↦
          { t with channels := Function.update t.channels channel (some c) }
  | .stub channel args =>
      (lookup (t.channels channel) >>= fun c ↦ lib.callStub o.stub (.grpc c) args).reply t
        (fun stub ↦ .stub (.other stub)) fun _ ↦ t
  | .stubOf channel args =>
      (lib.callStub o.stub channel args).reply t (fun stub ↦ .stub (.other stub)) fun _ ↦ t

/-- PySpark as it is. -/
def unpatched (lib : Library Stock Any) (o : Stocks Stock) :
    Machine (StockSession Any) (StockStep Any) (Reply Stock Any) where
  step := StockSession.step lib o

end ConnectWeb.Patch
