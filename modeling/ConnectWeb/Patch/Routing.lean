import ConnectWeb.Patch.Transparent

/-!
# Where a URL leads

A connection depends on the moment only: on whether the patch is installed and which factories
are set, whatever was called before.  With the default factories a shorthand URL leads to the
origin that it names, and so does every `fetch` of the stub.
-/

namespace ConnectWeb.Patch

open Sab (SabSyncChannel Client Rpc)
open Transport (Metadata grpcPath)

variable {Stock Any : Type} {lib : Library Stock Any} {env : Env} {o : Stocks Stock}
  {s : Session Stock Any}

/-! ## One connection -/

/-- A connection that is PySpark's own. -/
def Library.connect (lib : Library Stock Any) (o : Stocks Stock) (url : Url Any)
    (options : Option Any) : Traced Stock Any (Stub Any) := do
  let parsed ← lib.callInit o.init url options
  let channel ← lib.callToChannel o.toChannel parsed
  .other <$> lib.callStub o.stub (.grpc channel) []

/-- A connection over the web transport. -/
def Library.connectWeb (lib : Library Stock Any) (env : Env) (o : Stocks Stock)
    (factories : Factories Any) (url : Url Any) (options : Option Any) :
    Traced Stock Any (Stub Any) := do
  let parsed ← lib.callInit o.init url options
  let endpoint : WebEndpoint := ⟨parsed.host, parsed.port, parsed.secure, parsed.params⟩
  let channel ← { result := factories.getChannelFactory env endpoint }
  let webChannel : WebChannel Any :=
    ⟨parsed.host, parsed.port, parsed.secure, channel, Dict.ofPairs parsed.metadata⟩
  { result := factories.getStubFactory env webChannel }

namespace Session

theorem connect_eq (h : s.world.Holds o) (url : Url Any) (options : Option Any) :
    s.connect lib env url options =
      if s.world.installed && url.web lib then
        lib.connectWeb env o s.factories (s.passes lib url) options
      else lib.connect o url options := by
  rw [connect, callInit_eq h]
  cases hweb : s.world.installed && url.web lib with
  | true =>
      obtain ⟨hi, hurl⟩ := (Bool.and_eq_true ..).mp hweb
      rw [if_pos rfl, hi, if_pos rfl, hurl, Library.connectWeb, Library.callInit]
      rcases lib.init o.init (s.passes lib url) options with e | parsed
      · rfl
      · refine congrArg (Traced.after _) ?_
        dsimp only
        rw [callToChannel_web h hi rfl]
        rcases s.factories.getChannelFactory env _ with e | channel
        · rfl
        · exact congrArg (Traced.after []) (callStub_web h hi ..)
  | false =>
      rw [if_neg Bool.false_ne_true, passes_eq hweb, Library.connect, Library.callInit]
      rcases lib.init o.init url options with e | parsed
      · rfl
      · refine congrArg (Traced.after _) ?_
        have hmark : (s.world.installed && Builder.web
            ⟨parsed, if s.world.installed then some (url.web lib) else none⟩) = false := by
          cases hi : s.world.installed with
          | false => rfl
          | true =>
              rw [hi] at hweb
              exact hweb
        dsimp only
        rw [callToChannel_eq h hmark, Library.callToChannel]
        rcases lib.toChannel o.toChannel parsed with e | channel
        · rfl
        · exact congrArg (Traced.after _) (callStub_eq h (.inr ⟨channel, rfl⟩) [])

end Session

/-! ## Any moment of a run -/

/-- In any run, a URL of the web transport leads to the factories that are set while the patch is
installed, and any other connection is PySpark's own, whatever was called before. -/
theorem routed (lib : Library Stock Any) (env : Env) (start : Start Stock) :
    ∃ o : Stocks Stock, start.pyspark.Is o ∧ ∀ (steps : List (Step Any)) url options,
      let s := (patched lib env).after start.session steps
      s.connect lib env url options =
        if s.world.installed && url.web lib then
          lib.connectWeb env o s.factories (s.passes lib url) options
        else lib.connect o url options := by
  obtain ⟨o, ho⟩ := start.exists_is
  refine ⟨o, ho, fun steps url options ↦ Session.connect_eq ?_ url options⟩
  exact ((unwinds lib env o).related (.start ho) steps).world

/-! ## The origin of an endpoint -/

/-- A name or an IPv4 address that `urlparse` leaves as it is. -/
def Host.Plain : Host → Prop
  | .name cs _ _ => ∀ c ∈ cs, c.isAlphanum = true ∨ c ∈ ['-', '.', '_']
  | .ipv6 .. => False

theorem Host.bracketed_of_plain {host : Host} (h : host.Plain) : host.bracketed = false := by
  cases host with
  | name _ _ _ => rfl
  | ipv6 _ _ _ => cases h

/-- PySpark reads the endpoint off a canonical URL. -/
structure Library.Reads (lib : Library Stock Any) (o : Stock) : Prop where
  canonical : ∀ (e : Endpoint) (secure : Bool) (options : Option Any), e.host.Plain →
    ∃ parsed, lib.init o (.str (canonical e.host.text (e.portText secure) secure)) options =
        .ok parsed ∧
      parsed.host = .ofList e.host.text ∧
      parsed.port = Nat.ofDigitChars 10 (e.portText secure) 0 ∧ parsed.secure = secure

/-- `scheme://host:port` -/
def Endpoint.origin (e : Endpoint) (secure : Bool) : String :=
  baseUrl (.ofList e.host.text) (Nat.ofDigitChars 10 (e.portText secure) 0) secure

/-- There is no slash to strip at the end of an origin. -/
theorem ofUrl_baseUrl (host : String) (port : Nat) (secure : Bool) :
    SabSyncChannel.ofUrl (baseUrl host port secure) = ⟨baseUrl host port secure⟩ := by
  have hlast : ∀ c ∈ (baseUrl host port secure).toList.getLast?, c ≠ '/' := by
    have htext : (baseUrl host port secure).toList = ((if secure then "https" else "http") ++ "://" ++
        host ++ ":").toList ++ Nat.toDigits 10 port := by
      rw [baseUrl, String.toList_append, show (toString port).toList = Nat.toDigits 10 port from
        String.toList_ofList]
      rfl
    intro c hc
    rw [htext, List.getLast?_append_of_ne_nil _ Nat.toDigits_ne_nil] at hc
    have hdigit := Nat.isDigit_of_mem_toDigits (by decide : 0 < 10) (by decide)
      (List.mem_of_getLast? hc)
    rintro rfl
    cases hdigit
  have hstrip := Text.rstrip_append_replicate hlast 0
  rw [List.replicate_zero, List.append_nil] at hstrip
  rw [SabSyncChannel.ofUrl, hstrip, String.ofList_toList]

/-- The default factories, in a worker that can use them. -/
structure Env.Ready (env : Env) : Prop where
  pyodide : env.pyodide = true
  isolated : env.crossOriginIsolated = true
  worker : env.worker = true
  transport : env.transport = true

/-- Whenever the patch is installed and the factories are the default ones, a shorthand URL leads
to a stub whose every `fetch` goes to the endpoint that the URL names. -/
theorem connect_endpoint {lib : Library Stock Any} {env : Env} (henv : env.Ready)
    {start : Start Stock} {o : Stocks Stock} (ho : start.pyspark.Is o) (hlib : lib.Reads o.init)
    {steps : List (Step Any)} {s : Session Stock Any}
    (hs : s = (patched lib env).after start.session steps) (hi : s.world.installed = true)
    (hf : s.factories = {}) (e : Endpoint) (he : e.host.Plain) (secure : Bool) (slashes : Nat)
    (options : Option Any) :
    ∃ client : Client,
      (s.connect lib env (.str (e.url secure slashes)) options).result =
        .ok (.grpcWeb (.sab client.channel) client.defaultMetadata) ∧
      ∀ rpc : Rpc, (client.fetch rpc).url = e.origin secure ++ grpcPath rpc.call.method := by
  have hheld : s.world.Holds o := hs ▸ ((unwinds lib env o).related (.start ho) steps).world
  obtain ⟨parsed, hinit, hhost, hport, hsecure⟩ := hlib.canonical e secure options he
  have hweb : isWebUrl lib.alnum (e.url secure slashes) = true := by cases secure <;> rfl
  have hnormal : normalizeWebUrl (e.url secure slashes) =
      some (canonical e.host.text (e.portText secure) secure) := by
    rw [e.normalizeWebUrl_url, e.hostPort_eq secure fun hb ↦ ?_]
    rw [Host.bracketed_of_plain he] at hb
    cases hb
  have hpasses : s.passes lib (.str (e.url secure slashes)) =
      .str (canonical e.host.text (e.portText secure) secure) := by
    rw [Session.passes, hi, hweb, hnormal]
    rfl
  refine ⟨⟨⟨e.origin secure⟩, Dict.ofPairs parsed.metadata⟩, ?_, fun _ ↦ rfl⟩
  rw [Session.connect_eq hheld, hi, Url.web, hweb, hpasses, hf]
  have hchannel : ({} : Factories Any).getChannelFactory env
      ⟨parsed.host, parsed.port, parsed.secure, parsed.params⟩ = .ok (.sab ⟨e.origin secure⟩) := by
    change defaultChannelFactory env _ = _
    rw [defaultChannelFactory, henv.worker, Env.sabSyncChannel, henv.pyodide, henv.isolated,
      WebEndpoint.baseUrl, ofUrl_baseUrl, hhost, hport, hsecure]
    rfl
  have hstub : ∀ c : WebChannel Any, defaultStubFactory env c =
      .ok (.grpcWeb c.channel c.params) := by
    intro c
    rw [defaultStubFactory, henv.transport]
    rfl
  rw [Bool.and_self, if_pos rfl, Library.connectWeb, Library.callInit, hinit]
  change (({ result := ({} : Factories Any).getChannelFactory env _ } : Traced Stock Any _) >>=
    fun channel ↦ { result := defaultStubFactory env _ }).result = _
  rw [hchannel]
  exact hstub _

/-- A PySpark that reads canonical URLs only. -/
def urlparseLibrary : Library String String where
  init _ url _ :=
    match url with
    | .other _ => .error .type
    | .str url =>
        let read := readAuthority (authority url).1
        let params := (readParams url).map fun p ↦
          (String.ofList (Text.partition '=' p).1, String.ofList (Text.partition '=' p).2)
        .ok {
          host := .ofList read.1
          port := Nat.ofDigitChars 10 (read.2.getD []) 0
          secure := "use_ssl=true".toList ∈ readParams url
          params
          metadata := params.filter fun p ↦ p.1 ≠ "use_ssl" }
  toChannel _ parsed := .ok parsed.host
  stub _ _ _ := .ok "stub"
  alnum _ := false

theorem urlparseLibrary_reads (o : String) : urlparseLibrary.Reads o where
  canonical e secure options he := by
    have hslash : '/' ∉ e.host.text ++ ':' :: e.portText secure := by
      rw [List.mem_append, List.mem_cons]
      rintro (hm | hm | hm)
      · exact e.host.slash_not_mem hm
      · cases hm
      · exact e.portText_not_mem secure rfl hm
    have hread : readAuthority (authority (canonical e.host.text (e.portText secure) secure)).1 =
        (e.host.text, some (e.portText secure)) := by
      rw [authority_canonical secure hslash]
      exact readAuthority_append _ (e.portText_not_mem secure rfl) (e.portText_not_mem secure rfl)
    refine ⟨_, rfl, ?_, ?_, ?_⟩
    · rw [hread]
    · rw [hread]
      rfl
    · exact Bool.eq_iff_iff.mpr (by rw [decide_eq_true_iff, readParams_canonical secure hslash])

/-- PySpark in a worker, where the iterator cannot be imported. -/
def freshStart : Start String where
  emscripten := true
  pyspark := {
    init := ⟨some (.stock "__init__"), .stock "object.__init__"⟩
    toChannel := ⟨some (.stock "toChannel"), .stock "ChannelBuilder.toChannel"⟩
    stub := .stock "SparkConnectServiceStub"
    reattachCls := none }
  stock := by simp [PySpark.objects, Obj.IsStock]

def localhost : Endpoint where
  host := .name "localhost".toList (by decide) (by simp)
  port := none

/-- `https://localhost/`, behind an `install()` -/
theorem connect_endpoint_localhost : ∃ client : Client,
    (((patched urlparseLibrary ⟨true, true, true, true⟩).after freshStart.session
      [.call (.install (some "4.1.2"))]).connect urlparseLibrary ⟨true, true, true, true⟩
        (.str "https://localhost/".toList) none).result =
      .ok (.grpcWeb (.sab client.channel) client.defaultMetadata) ∧
    ∀ rpc : Rpc, (client.fetch rpc).url = "https://localhost:443" ++ grpcPath rpc.call.method := by
  have horigin : localhost.origin true = "https://localhost:443" := by decide +kernel
  have hplain : "localhost".toList.all Char.isAlphanum = true := by decide +kernel
  have h := @connect_endpoint String String urlparseLibrary ⟨true, true, true, true⟩
    ⟨rfl, rfl, rfl, rfl⟩ freshStart ⟨"__init__", "toChannel", "SparkConnectServiceStub"⟩
    ⟨rfl, rfl, rfl⟩ (urlparseLibrary_reads _) [.call (.install (some "4.1.2"))] _ rfl
    (by decide +kernel) rfl localhost (fun c hc ↦ .inl (List.all_eq_true.mp hplain c hc)) true 1 none
  rw [horigin] at h
  exact h

end ConnectWeb.Patch
