import ConnectWeb.Foundation.Text

/-!
# Installing the patch (`patch.py`)

`install` puts wrappers in the place of five attributes of three PySpark objects and keeps
what stood there in `_ORIG`; `uninstall` puts it back.  The state is what these attributes
hold and what the module keeps about them.  A call is a computation over that state which
may raise with the changes made so far kept.
-/

namespace ConnectWeb.Patch

/-- What the module raises. -/
inductive Exc where
  /-- `UnsupportedPySparkError` -/
  | unsupportedPySpark (message : String)
  /-- `KeyError` -/
  | key (name : String)
deriving DecidableEq, Repr

/-! ## The version guard -/

def supportedPysparkMin : Nat × Nat := (4, 0)
def supportedPysparkRange : String := ">=4.0"

/-- The groups of `^\s*(\d+)\.(\d+)`.  Of the decimal digits only the ASCII ones appear in a
version. -/
def matchMajorMinor (version : List Char) : Option (List Char × List Char) :=
  let rest := version.dropWhile Text.isSpace
  match rest.takeWhile Char.isDigit, rest.dropWhile Char.isDigit with
  | c :: major, '.' :: rest =>
      match rest.takeWhile Char.isDigit with
      | [] => none
      | d :: minor => some (c :: major, d :: minor)
  | _, _ => none

/-- `_parse_major_minor` on a version without quotes or backslashes -/
def parseMajorMinor (version : String) : Except Exc (Nat × Nat) :=
  match matchMajorMinor version.toList with
  | none =>
      .error (.unsupportedPySpark s!"could not parse pyspark version '{version}'; pyspark-connect-web supports pyspark {supportedPysparkRange}.")
  | some (major, minor) => .ok (Nat.ofDigitChars 10 major 0, Nat.ofDigitChars 10 minor 0)

/-- `check_pyspark_version()`: `version` is `pyspark.__version__`, or `none` when `pyspark`
cannot be imported. -/
def checkPysparkVersion : Option String → Except Exc (Nat × Nat)
  | none =>
      .error (.unsupportedPySpark s!"pyspark is not importable; pyspark-connect-web requires pyspark {supportedPysparkRange}.")
  | some version => do
      let mm ← parseMajorMinor version
      if mm.1 < supportedPysparkMin.1 ∨
          mm.1 = supportedPysparkMin.1 ∧ mm.2 < supportedPysparkMin.2 then
        .error (.unsupportedPySpark s!"pyspark {version} is not supported by pyspark-connect-web (requires {supportedPysparkRange}). The patch depends on the Spark Connect client seam introduced in 4.0.")
      else .ok mm

/-! ## The state -/

/-- What the patched attributes hold: an object of PySpark's own, or one that `install` made
around what it had saved. -/
inductive Obj (Stock : Type) where
  | stock (o : Stock)
  | patchedInit (orig : Obj Stock)
  | patchedToChannel (orig : Obj Stock)
  | patchedStubFactory (orig : Obj Stock)
  /-- `classmethod(_sync_pool)` -/
  | syncPool
deriving DecidableEq, Repr

variable {Stock : Type}

/-- An attribute of a class: its entry in the `__dict__` of the class, if there is one, and
what the class inherits. -/
structure Attribute (Stock : Type) where
  own : Option (Obj Stock)
  inherited : Obj Stock
deriving DecidableEq, Repr

namespace Attribute

def get (a : Attribute Stock) : Obj Stock := a.own.getD a.inherited
def set (a : Attribute Stock) (o : Obj Stock) : Attribute Stock := { a with own := some o }

end Attribute

/-- `ExecutePlanResponseReattachableIterator`, as far as the patch reads it. -/
structure ReattachCls (Stock : Type) where
  /-- The entry of `_get_or_create_release_thread_pool` in the `__dict__` of the class. -/
  getOrCreateReleaseThreadPool : Option (Obj Stock)
  releaseThreadPoolInstance : Option (Obj Stock)
deriving DecidableEq, Repr

/-- The PySpark objects that are patched.  The iterator is missing where it cannot be
imported. -/
structure PySpark (Stock : Type) where
  /-- `DefaultChannelBuilder.__init__` -/
  init : Attribute Stock
  /-- `DefaultChannelBuilder.toChannel` -/
  toChannel : Attribute Stock
  /-- `base_pb2_grpc.SparkConnectServiceStub` -/
  stub : Obj Stock
  reattachCls : Option (ReattachCls Stock)
deriving DecidableEq, Repr

/-- `_ORIG`.  A flag says that the entry refers to the one object it can refer to. -/
structure Orig (Stock : Type) where
  dcbInit : Option (Obj Stock) := none
  dcbToChannel : Option (Obj Stock) := none
  stubCls : Option (Obj Stock) := none
  grpcLib : Bool := false
  defaultChannelBuilder : Bool := false
  reattachCls : Bool := false
  reattachPoolAttr : Option (Option (Obj Stock)) := none
deriving DecidableEq, Repr

structure World (Stock : Type) where
  /-- `sys.platform == "emscripten"` -/
  emscripten : Bool
  pyspark : PySpark Stock
  /-- `_INSTALLED` -/
  installed : Bool := false
  orig : Orig Stock := {}
deriving DecidableEq, Repr

/-! ## The calls -/

/-- A computation that keeps its changes when it raises. -/
abbrev Py (Stock : Type) := ExceptT Exc (StateM (World Stock))

/-- `_ORIG[name]` -/
def item {α : Type} (name : String) : Option α → Py Stock α
  | none => throw (.key name)
  | some x => pure x

def flag (name : String) : Bool → Py Stock Unit
  | false => throw (.key name)
  | true => pure ()

def modifyOrig (f : Orig Stock → Orig Stock) : Py Stock Unit :=
  modify fun w ↦ { w with orig := f w.orig }

def modifyPyspark (f : PySpark Stock → PySpark Stock) : Py Stock Unit :=
  modify fun w ↦ { w with pyspark := f w.pyspark }

def patchReattachPool : Py Stock Unit := do
  match (← get).pyspark.reattachCls with
  -- the import raises, and what it raises is dropped
  | none => pure ()
  | some cls =>
      modifyOrig fun o ↦ { o with
        reattachCls := true, reattachPoolAttr := some cls.getOrCreateReleaseThreadPool }
      modifyPyspark fun p ↦ { p with
        reattachCls := some ⟨some .syncPool, none⟩ }

def install (version : Option String) : Py Stock Unit := do
  if (← get).installed then return
  discard (checkPysparkVersion version)
  let p := (← get).pyspark
  modifyOrig fun o ↦ { o with
    dcbInit := some p.init.get
    dcbToChannel := some p.toChannel.get
    stubCls := some p.stub
    grpcLib := true
    defaultChannelBuilder := true }
  modifyPyspark fun q ↦ { q with
    init := q.init.set (.patchedInit p.init.get)
    toChannel := q.toChannel.set (.patchedToChannel p.toChannel.get)
    stub := .patchedStubFactory p.stub }
  if (← get).emscripten then patchReattachPool
  modify fun w ↦ { w with installed := true }

def uninstall : Py Stock Unit := do
  if !(← get).installed then return
  let orig := (← get).orig
  flag "DefaultChannelBuilder" orig.defaultChannelBuilder
  let init ← item "DCB_init" orig.dcbInit
  modifyPyspark fun p ↦ { p with init := p.init.set init }
  let toChannel ← item "DCB_toChannel" orig.dcbToChannel
  modifyPyspark fun p ↦ { p with toChannel := p.toChannel.set toChannel }
  flag "grpc_lib" orig.grpcLib
  let stub ← item "stub_cls" orig.stubCls
  modifyPyspark fun p ↦ { p with stub }
  if orig.reattachCls then
    modifyPyspark fun p ↦ { p with
      reattachCls := p.reattachCls.map fun cls ↦
        { getOrCreateReleaseThreadPool :=
            orig.reattachPoolAttr.join.or cls.getOrCreateReleaseThreadPool
          releaseThreadPoolInstance := none } }
  modify fun w ↦ { w with orig := {}, installed := false }

inductive Call where
  | install (version : Option String)
  | uninstall
deriving DecidableEq, Repr

/-- One call: what it raises, if it does, and the state behind it. -/
def Call.run (w : World Stock) : Call → Except Exc Unit × World Stock
  | .install version => (Patch.install version).run.run w
  | .uninstall => Patch.uninstall.run.run w

/-- The state behind some calls, whatever they raised. -/
def runAll (w : World Stock) (calls : List Call) : World Stock :=
  calls.foldl (fun w call ↦ (call.run w).2) w

end ConnectWeb.Patch
