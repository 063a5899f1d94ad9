import ConnectWeb.Patch.Connect

/-!
# What the patch leaves alone

Whoever installs or uninstalls the patch and sets its factories, and whatever is connected to over
it: the calls that reach PySpark's own functions are those of a run of PySpark as it is, with the
answers that it gives there.  A web URL reaches them in its normal form, and any other argument as
it stands.
-/

namespace ConnectWeb.Patch

variable {Stock Any : Type}

/-! ## The patched attributes -/

/-- The attributes are PySpark's own. -/
structure PySpark.Is (p : PySpark Stock) (o : Stocks Stock) : Prop where
  init : p.init.get = .stock o.init
  toChannel : p.toChannel.get = .stock o.toChannel
  stub : p.stub = .stock o.stub

/-- The attributes are patched, around PySpark's own. -/
structure PySpark.Wraps (p : PySpark Stock) (o : Stocks Stock) : Prop where
  init : p.init.get = .patchedInit (.stock o.init)
  toChannel : p.toChannel.get = .patchedToChannel (.stock o.toChannel)
  stub : p.stub = .patchedStubFactory (.stock o.stub)

/-- What `uninstall` puts back is PySpark's own. -/
structure Orig.Has (orig : Orig Stock) (o : Stocks Stock) : Prop where
  init : orig.dcbInit = some (.stock o.init)
  toChannel : orig.dcbToChannel = some (.stock o.toChannel)
  stub : orig.stubCls = some (.stock o.stub)
  grpcLib : orig.grpcLib = true
  defaultChannelBuilder : orig.defaultChannelBuilder = true

/-- The attributes are PySpark's own, or patched around these. -/
structure World.Holds (w : World Stock) (o : Stocks Stock) : Prop where
  stock : w.installed = false → w.pyspark.Is o
  patched : w.installed = true → w.pyspark.Wraps o ∧ w.orig.Has o

namespace World.Holds

variable {w : World Stock} {o : Stocks Stock}

theorem run_install (h : w.Holds o) (version : Option String) :
    ((Call.install version).run w).2.Holds o := by
  cases hi : w.installed with
  | true =>
      rw [run_install_of_installed hi]
      exact h
  | false =>
      cases hcheck : checkPysparkVersion version with
      | error e =>
          rw [run_install_of_error hi hcheck]
          exact h
      | ok mm =>
          obtain ⟨hinit, htoChannel, hstub⟩ := h.stock hi
          obtain ⟨emscripten, ⟨init, toChannel, stub, reattachCls⟩, installed, orig⟩ := w
          obtain rfl : installed = false := hi
          obtain rfl : stub = .stock o.stub := hstub
          rw [Call.run, install, hcheck]
          have wraps : ∀ r, PySpark.Wraps ⟨init.set (.patchedInit init.get),
              toChannel.set (.patchedToChannel toChannel.get), .patchedStubFactory (.stock o.stub),
              r⟩ o := fun r ↦ ⟨congrArg _ hinit, congrArg _ htoChannel, rfl⟩
          have has : ∀ r a, Orig.Has
              ⟨some init.get, some toChannel.get, some (.stock o.stub), true, true, r, a⟩ o :=
            fun r a ↦ ⟨congrArg _ hinit, congrArg _ htoChannel, rfl, rfl, rfl⟩
          cases emscripten with
          | false => exact ⟨fun h ↦ (by cases h), fun _ ↦ ⟨wraps _, has _ _⟩⟩
          | true =>
              cases reattachCls with
              | none => exact ⟨fun h ↦ (by cases h), fun _ ↦ ⟨wraps _, has _ _⟩⟩
              | some cls => exact ⟨fun h ↦ (by cases h), fun _ ↦ ⟨wraps _, has _ _⟩⟩

theorem run_uninstall (h : w.Holds o) : (Call.uninstall.run w).2.Holds o := by
  cases hi : w.installed with
  | false =>
      rw [run_uninstall_of_not_installed hi]
      exact h
  | true =>
      obtain ⟨-, hinit, htoChannel, hstub, hlib, hbuilder⟩ := h.patched hi
      obtain ⟨emscripten, ⟨init, toChannel, stub, reattachCls⟩, installed,
        ⟨dcbInit, dcbToChannel, stubCls, grpcLib, defaultChannelBuilder, reattach, attr⟩⟩ := w
      obtain rfl : installed = true := hi
      obtain rfl : dcbInit = some (.stock o.init) := hinit
      obtain rfl : dcbToChannel = some (.stock o.toChannel) := htoChannel
      obtain rfl : stubCls = some (.stock o.stub) := hstub
      obtain rfl : grpcLib = true := hlib
      obtain rfl : defaultChannelBuilder = true := hbuilder
      cases reattach with
      | false => exact ⟨fun _ ↦ ⟨rfl, rfl, rfl⟩, fun h ↦ (by cases h)⟩
      | true => exact ⟨fun _ ↦ ⟨rfl, rfl, rfl⟩, fun h ↦ (by cases h)⟩

/-- A call leaves PySpark's own functions where they are, or wraps them once. -/
theorem run (h : w.Holds o) (call : Call) : (call.run w).2.Holds o := by
  cases call with
  | install version => exact h.run_install version
  | uninstall => exact h.run_uninstall

end World.Holds

theorem Obj.IsStock.exists_eq {o : Obj Stock} (h : o.IsStock) : ∃ x, o = .stock x := by
  cases o with
  | stock x => exact ⟨x, rfl⟩
  | _ => cases h

/-- Nothing is patched in the beginning. -/
theorem Start.exists_is (start : Start Stock) : ∃ o, start.pyspark.Is o := by
  obtain ⟨init, hinit⟩ := start.saves.init.exists_eq
  obtain ⟨toChannel, htoChannel⟩ := start.saves.toChannel.exists_eq
  obtain ⟨stub, hstub⟩ := start.saves.stub.exists_eq
  exact ⟨⟨init, toChannel, stub⟩, hinit, htoChannel, hstub⟩

/-! ## What reaches PySpark -/

/-- A URL that selects the web transport. -/
def Url.web (lib : Library Stock Any) : Url Any → Bool
  | .str url => isWebUrl lib.alnum url
  | .other _ => false

/-- What PySpark's `__init__` gets as its first argument. -/
def Session.passes (lib : Library Stock Any) (s : Session Stock Any) : Url Any → Url Any
  | .str url =>
      if s.world.installed && isWebUrl lib.alnum url then
        (normalizeWebUrl url).elim (.str url) .str
      else .str url
  | .other x => .other x

/-- Any other argument is passed as it stands. -/
theorem Session.passes_eq {lib : Library Stock Any} {s : Session Stock Any} {url : Url Any}
    (h : (s.world.installed && url.web lib) = false) : s.passes lib url = url := by
  cases url with
  | other x => rfl
  | str url => exact if_neg (by rw [show isWebUrl lib.alnum url = (Url.str url).web lib from rfl, h]; simp)

/-- What a step is to PySpark: nothing, where it is about the patch, or about a web channel while
the patch is installed.  Once it is not, such a channel is an object of the caller's. -/
def Session.view (lib : Library Stock Any) (s : Session Stock Any) :
    Step Any → Option (StockStep Any)
  | .call _ | .setChannelFactory _ | .setStubFactory _ => none
  | .build builder url options => some (.build builder (s.passes lib url) options)
  | .toChannel builder channel =>
      if s.world.installed && (s.builders builder).any Builder.web then none
      else some (.toChannel builder channel)
  | .stub channel args =>
      match s.channels channel with
      | some (.web c) => if s.world.installed then none else some (.stubOf (.web c) args)
      | _ => some (.stub channel args)

/-- A caller of PySpark as it is has the same builders, and the same channels of PySpark's own. -/
structure Session.Agrees (o : Stocks Stock) (s : Session Stock Any) (t : StockSession Any) :
    Prop where
  world : s.world.Holds o
  builders : ∀ n, t.builders n = (s.builders n).map Builder.parsed
  grpc : ∀ n c, s.channels n = some (.grpc c) → t.channels n = some c
  unbound : ∀ n, s.channels n = none → t.channels n = none

/-! ## The calls -/

theorem normalizeWebUrl_isSome {alnum : Char → Bool} {url : List Char}
    (h : isWebUrl alnum url = true) : (normalizeWebUrl url).isSome = true := by
  rw [normalizeWebUrl]
  split
  · rfl
  · rename_i hsc
    rw [isWebUrl] at h
    split at h
    · rename_i hprefix
      have hmarker : "://".toList <:+: url := by
        rcases (Bool.or_eq_true ..).mp hprefix with hp | hp
        · exact (by decide : "://".toList <:+: "https://".toList).trans
            (List.isPrefixOf_iff_prefix.mp hp).isInfix
        · exact (by decide : "://".toList <:+: "http://".toList).trans
            (List.isPrefixOf_iff_prefix.mp hp).isInfix
      rw [Option.isSome_map]
      exact Text.isSome_after hmarker
    · cases h

section
variable {lib : Library Stock Any} {env : Env} {o : Stocks Stock} {s : Session Stock Any}

/-- The builder is marked if the patch has seen a URL of the web transport. -/
theorem Session.callInit_eq (h : s.world.Holds o) (url : Url Any) (options : Option Any) :
    s.world.pyspark.init.get.callInit lib url options =
      (fun parsed ↦ ⟨parsed, if s.world.installed then some (url.web lib) else none⟩) <$>
        lib.callInit o.init (s.passes lib url) options := by
  have marked : ∀ url' web, (fun b : Builder ↦ { b with pcwWeb := web }) <$>
      (Obj.stock o.init).callInit lib url' options =
        (⟨·, web⟩) <$> lib.callInit o.init url' options := by
    intro url' web
    rw [Obj.callInit, Library.callInit]
    rcases lib.init o.init url' options with e | parsed <;> rfl
  cases hi : s.world.installed with
  | false =>
      rw [(h.stock hi).init]
      cases url with
      | other x => rfl
      | str url =>
          rw [passes, hi, Bool.false_and]
          rfl
  | true =>
      rw [(h.patched hi).1.init]
      cases url with
      | other x => exact marked _ _
      | str url =>
          rw [Obj.callInit, passes, hi, Bool.true_and, Url.web]
          split
          · rename_i hweb
            obtain ⟨normalized, hn⟩ := Option.isSome_iff_exists.mp (normalizeWebUrl_isSome hweb)
            rw [hn, hweb]
            exact marked _ _
          · rename_i hweb
            rw [Bool.not_eq_true] at hweb
            rw [hweb]
            exact marked _ _

/-- PySpark's `toChannel` is called for a builder that is not the patch's. -/
theorem Session.callToChannel_eq (h : s.world.Holds o) {b : Builder}
    (hb : (s.world.installed && b.web) = false) :
    s.world.pyspark.toChannel.get.callToChannel lib env s.factories b =
      .grpc <$> lib.callToChannel o.toChannel b.parsed := by
  cases hi : s.world.installed with
  | false =>
      rw [(h.stock hi).toChannel]
      rfl
  | true =>
      rw [hi, Bool.true_and] at hb
      rw [(h.patched hi).1.toChannel, Obj.callToChannel, hb]
      rfl

/-- And else a factory. -/
theorem Session.callToChannel_web (h : s.world.Holds o) (hi : s.world.installed = true)
    {b : Builder} (hb : b.web = true) :
    s.world.pyspark.toChannel.get.callToChannel lib env s.factories b =
      { result := (s.factories.getChannelFactory env
          ⟨b.parsed.host, b.parsed.port, b.parsed.secure, b.parsed.params⟩).map fun syncChannel ↦
            .web ⟨b.parsed.host, b.parsed.port, b.parsed.secure, syncChannel,
              Dict.ofPairs b.parsed.metadata⟩ } := by
  rw [(h.patched hi).1.toChannel, Obj.callToChannel, hb, Bool.not_true, if_neg Bool.false_ne_true]
  dsimp only
  rcases s.factories.getChannelFactory env _ with e | syncChannel <;> rfl

/-- And a factory makes the stub for a channel of the patch's. -/
theorem Session.callStub_web (h : s.world.Holds o) (hi : s.world.installed = true)
    (c : WebChannel Any) (args : List Any) :
    s.world.pyspark.stub.callStub lib env s.factories (.web c) args =
      { result := s.factories.getStubFactory env c } := by
  rw [(h.patched hi).1.stub]
  rfl

/-- PySpark's stub is made for any other channel, and for every one where nothing is patched. -/
theorem Session.callStub_eq (h : s.world.Holds o) {channel : Channel Any}
    (hc : s.world.installed = false ∨ ∃ c, channel = .grpc c) (args : List Any) :
    s.world.pyspark.stub.callStub lib env s.factories channel args =
      .other <$> lib.callStub o.stub channel args := by
  cases hi : s.world.installed with
  | false =>
      rw [(h.stock hi).stub]
      rfl
  | true =>
      obtain ⟨c, rfl⟩ := hc.resolve_left (by rw [hi]; exact Bool.noConfusion)
      rw [(h.patched hi).1.stub]
      rfl

/-! ## Noninterference -/

namespace Session.Agrees

variable {t : StockSession Any}

theorem start {start : Start Stock} (h : start.pyspark.Is o) :
    (start.session : Session Stock Any).Agrees o {} :=
  ⟨⟨fun _ ↦ h, fun h ↦ (by cases h)⟩, fun _ ↦ rfl, fun _ _ h ↦ (by cases h), fun _ _ ↦ rfl⟩

/-- A channel is bound. -/
theorem channel (h : s.Agrees o t) {channel : String} (x : Channel Any)
    {channels : String → Option Any} (hne : ∀ n, n ≠ channel → channels n = t.channels n)
    (hx : ∀ c, x = .grpc c → channels channel = some c) :
    Agrees o { s with channels := Function.update s.channels channel (some x) }
      { t with channels } := by
  refine ⟨h.world, h.builders, fun n c hn ↦ ?_, fun n hn ↦ ?_⟩
  · change Function.update s.channels channel _ n = _ at hn
    rw [Function.update_apply] at hn
    split at hn
    · rename_i heq
      rw [heq]
      exact hx c (Option.some.inj hn)
    · exact (hne n ‹_›).trans (h.grpc n c hn)
  · change Function.update s.channels channel _ n = _ at hn
    rw [Function.update_apply] at hn
    split at hn
    · cases hn
    · exact (hne n ‹_›).trans (h.unbound n hn)

/-- What is not in view reaches nothing of PySpark's. -/
theorem hidden (h : s.Agrees o t) {a : Step Any} (hv : s.view lib a = none) :
    (s.step lib env a).2.Agrees o t ∧ (s.step lib env a).1.calls = [] := by
  cases a with
  | call c => exact ⟨⟨h.world.run c, h.builders, h.grpc, h.unbound⟩, rfl⟩
  | setChannelFactory factory | setStubFactory factory =>
      exact ⟨⟨h.world, h.builders, h.grpc, h.unbound⟩, rfl⟩
  | build builder url options => cases hv
  | toChannel builder channel =>
      rw [view] at hv
      split at hv
      · rename_i hweb
        obtain ⟨hi, hany⟩ := (Bool.and_eq_true ..).mp hweb
        rcases hb : s.builders builder with _ | b
        · rw [hb] at hany
          cases hany
        · rw [hb] at hany
          have hmarked : b.web = true := hany
          rw [step, hb, lookup_some_bind, callToChannel_web h.world hi hmarked]
          rcases s.factories.getChannelFactory env _ with e | syncChannel
          · exact ⟨h, rfl⟩
          · exact ⟨h.channel _ (fun _ _ ↦ rfl) fun _ hc ↦ (by cases hc), rfl⟩
      · cases hv
  | stub channel args =>
      rw [view] at hv
      split at hv
      · rename_i w hc
        split at hv
        · rename_i hi
          rw [step, hc, lookup_some_bind, callStub_web h.world hi]
          rcases s.factories.getStubFactory env w with e | stub <;> exact ⟨h, rfl⟩
        · cases hv
      · cases hv

theorem visible (h : s.Agrees o t) {a : Step Any} {b : StockStep Any}
    (hv : s.view lib a = some b) :
    (s.step lib env a).1 = (t.step lib o b).1 ∧ (s.step lib env a).2.Agrees o (t.step lib o b).2 := by
  cases a with
  | call c | setChannelFactory factory | setStubFactory factory => cases hv
  | build builder url options =>
      cases hv
      rw [step, StockSession.step, callInit_eq h.world, Library.callInit]
      rcases lib.init o.init (s.passes lib url) options with e | parsed
      · exact ⟨rfl, h⟩
      · refine ⟨rfl, h.world, fun n ↦ ?_, h.grpc, h.unbound⟩
        change Function.update t.builders builder _ n =
          (Function.update s.builders builder _ n).map Builder.parsed
        rw [Function.update_apply, Function.update_apply]
        split
        · rfl
        · exact h.builders n
  | toChannel builder channel =>
      rw [view] at hv
      split at hv
      · cases hv
      · rename_i hweb
        cases hv
        rw [step, StockSession.step, h.builders]
        rcases hb : s.builders builder with _ | b
        · exact ⟨rfl, h⟩
        · have hb' : (s.world.installed && b.web) = false := by
            rw [hb] at hweb
            exact Bool.not_eq_true _ ▸ hweb
          rw [Option.map_some, lookup_some_bind, lookup_some_bind, callToChannel_eq h.world hb',
            Library.callToChannel]
          rcases lib.toChannel o.toChannel b.parsed with e | c
          · exact ⟨rfl, h⟩
          · refine ⟨rfl, h.channel _ (fun n hn ↦ Function.update_of_ne hn ..) fun c' hc ↦ ?_⟩
            cases hc
            exact Function.update_self ..
  | stub channel args =>
      rw [view] at hv
      rw [step]
      rcases hc : s.channels channel with _ | c | w
      · rw [hc] at hv
        cases hv
        rw [StockSession.step, h.unbound channel hc]
        exact ⟨rfl, h⟩
      · rw [hc] at hv
        cases hv
        rw [StockSession.step, h.grpc channel c hc, lookup_some_bind, lookup_some_bind,
          callStub_eq h.world (.inr ⟨c, rfl⟩), Library.callStub]
        rcases lib.stub o.stub (.grpc c) args with e | stub <;> exact ⟨rfl, h⟩
      · -- a channel of the patch's, once it is uninstalled
        rw [hc] at hv
        dsimp only at hv
        split at hv
        · cases hv
        · rename_i hi
          cases hv
          rw [StockSession.step, lookup_some_bind,
            callStub_eq h.world (.inl (Bool.not_eq_true _ ▸ hi)), Library.callStub]
          rcases lib.stub o.stub (.web w) args with e | stub <;> exact ⟨rfl, h⟩

end Session.Agrees

end

theorem unwinds (lib : Library Stock Any) (env : Env) (o : Stocks Stock) :
    (patched lib env).Unwinds (unpatched lib o) (Session.view lib) (Session.Agrees o) where
  hidden h hv := (h.hidden hv).1
  visible h hv := h.visible hv

/-- Whatever is done with the patch in between: what the caller sees of PySpark is a run of PySpark
as it is, with the answers that it gives there, and the calls that reach PySpark's own functions
are those of that run. -/
theorem transparent (lib : Library Stock Any) (env : Env) (start : Start Stock) :
    ∃ o : Stocks Stock, start.pyspark.Is o ∧ ∀ steps : List (Step Any),
      let seen := (patched lib env).seen (Session.view lib) start.session steps
      let stock := (unpatched lib o).trace {} (seen.map Prod.fst)
      seen = stock ∧ ((patched lib env).trace start.session steps).flatMap (·.2.calls) =
        stock.flatMap (·.2.calls) := by
  obtain ⟨o, ho⟩ := start.exists_is
  refine ⟨o, ho, fun steps ↦ ⟨(unwinds lib env o).seen_eq (.start ho) steps, ?_⟩⟩
  exact (unwinds lib env o).record_eq Reply.calls (fun h hv ↦ (h.hidden hv).2) (.start ho) steps

end ConnectWeb.Patch
