import ConnectWeb.Patch.Install

/-!
# Any sequence of calls

From a state of PySpark in which nothing is patched, the calls move between two states: that
one, and the one in which everything is patched and the originals are saved.  Only an
`uninstall` of an installed patch can leave the two: it puts back what was saved, which is
what stood there if the state is `Restorable`.
-/

namespace ConnectWeb.Patch

variable {Stock : Type}

/-! ## What is patched -/

def Obj.IsStock : Obj Stock → Prop
  | .stock _ => True
  | _ => False

/-- An object of PySpark's own or a patch around one. -/
def Obj.WrapsStock : Obj Stock → Prop
  | .stock _ | .syncPool => True
  | .patchedInit orig | .patchedToChannel orig | .patchedStubFactory orig => orig.IsStock

/-- All that the patched attributes hold. -/
def PySpark.objects (p : PySpark Stock) : List (Obj Stock) :=
  p.init.own.toList ++ p.toChannel.own.toList ++
    [p.init.inherited, p.toChannel.inherited, p.stub] ++
    p.reattachCls.toList.flatMap fun cls ↦
      cls.getOrCreateReleaseThreadPool.toList ++ cls.releaseThreadPoolInstance.toList

/-- All that was saved. -/
def Orig.objects (o : Orig Stock) : List (Obj Stock) :=
  o.dcbInit.toList ++ o.dcbToChannel.toList ++ o.stubCls.toList ++
    o.reattachPoolAttr.join.toList

/-- Every patch stands in its place. -/
structure World.InPlace (w : World Stock) : Prop where
  init : ∃ orig, w.pyspark.init.get = .patchedInit orig
  toChannel : ∃ orig, w.pyspark.toChannel.get = .patchedToChannel orig
  stub : ∃ orig, w.pyspark.stub = .patchedStubFactory orig
  pool : w.emscripten = true → ∀ cls, w.pyspark.reattachCls = some cls →
    cls.getOrCreateReleaseThreadPool = some .syncPool

/-- The patches are in place if and only if they are installed, and nothing patched is
wrapped or saved. -/
structure World.Sound (w : World Stock) : Prop where
  installed : w.installed = true → w.InPlace
  notInstalled : w.installed = false → ∀ o ∈ w.pyspark.objects, o.IsStock
  wraps : ∀ o ∈ w.pyspark.objects, o.WrapsStock
  saves : ∀ o ∈ w.orig.objects, o.IsStock

/-- What is asked of a sequence of calls. -/
structure Faithful (w₀ : World Stock) (calls : List Call) : Prop where
  sound : ∀ cs, cs <+: calls → (runAll w₀ cs).Sound
  failed : ∀ cs call e, cs ++ [call] <+: calls → (call.run (runAll w₀ cs)).1 = .error e →
    runAll w₀ (cs ++ [call]) = runAll w₀ cs
  restored : ∀ cs, cs ++ [.uninstall] <+: calls →
    (runAll w₀ (cs ++ [.uninstall])).pyspark = w₀.pyspark

/-- PySpark before the first call. -/
structure Start (Stock : Type) where
  /-- `sys.platform == "emscripten"` -/
  emscripten : Bool
  pyspark : PySpark Stock
  stock : ∀ o ∈ pyspark.objects, o.IsStock

namespace Start

variable (start : Start Stock)

def world : World Stock where
  emscripten := start.emscripten
  pyspark := start.pyspark

/-- `uninstall` can put everything back. -/
structure Restorable : Prop where
  init : start.pyspark.init.own ≠ none
  toChannel : start.pyspark.toChannel.own ≠ none
  /-- Where the pool is patched, the class has a factory of its own and no live pool. -/
  pool : start.emscripten = true → ∀ cls, start.pyspark.reattachCls = some cls →
    cls.getOrCreateReleaseThreadPool ≠ none ∧ cls.releaseThreadPoolInstance = none

end Start

/-- Some `uninstall` comes behind an `install` that passes its guard. -/
def Undoes (calls : List Call) : Prop :=
  ∃ version mm, checkPysparkVersion version = .ok mm ∧
    List.Sublist [.install version, .uninstall] calls

/-! ## The states behind the calls -/

namespace Start

variable (start : Start Stock)

/-- Everything patched and saved. -/
def patched : World Stock where
  emscripten := start.emscripten
  pyspark := {
    init := start.pyspark.init.set (.patchedInit start.pyspark.init.get)
    toChannel := start.pyspark.toChannel.set (.patchedToChannel start.pyspark.toChannel.get)
    stub := .patchedStubFactory start.pyspark.stub
    reattachCls :=
      if start.emscripten then start.pyspark.reattachCls.map fun _ ↦ ⟨some .syncPool, none⟩
      else start.pyspark.reattachCls }
  installed := true
  orig := {
    dcbInit := some start.pyspark.init.get
    dcbToChannel := some start.pyspark.toChannel.get
    stubCls := some start.pyspark.stub
    grpcLib := true
    defaultChannelBuilder := true
    reattachCls := start.emscripten && start.pyspark.reattachCls.isSome
    reattachPoolAttr :=
      if start.emscripten then start.pyspark.reattachCls.map (·.getOrCreateReleaseThreadPool)
      else none }

/-- What `uninstall` leaves behind. -/
def restored : PySpark Stock where
  init := start.pyspark.init.set start.pyspark.init.get
  toChannel := start.pyspark.toChannel.set start.pyspark.toChannel.get
  stub := start.pyspark.stub
  reattachCls :=
    if start.emscripten then start.pyspark.reattachCls.map fun cls ↦
      ⟨cls.getOrCreateReleaseThreadPool.or (some .syncPool), none⟩
    else start.pyspark.reattachCls

end Start

theorem run_install_of_installed {w : World Stock} (h : w.installed = true)
    (version : Option String) : (Call.install version).run w = (.ok (), w) := by
  rcases w with ⟨emscripten, pyspark, installed, orig⟩
  obtain rfl : installed = true := h
  rfl

theorem run_install_of_error {w : World Stock} {version : Option String} {e : Exc}
    (h : w.installed = false) (hcheck : checkPysparkVersion version = .error e) :
    (Call.install version).run w = (.error e, w) := by
  rcases w with ⟨emscripten, pyspark, installed, orig⟩
  obtain rfl : installed = false := h
  rw [Call.run, install, hcheck]
  rfl

theorem run_uninstall_of_not_installed {w : World Stock} (h : w.installed = false) :
    Call.uninstall.run w = (.ok (), w) := by
  rcases w with ⟨emscripten, pyspark, installed, orig⟩
  obtain rfl : installed = false := h
  rfl

namespace Start

variable (start : Start Stock)

theorem run_install_world {version : Option String} {mm : Nat × Nat}
    (h : checkPysparkVersion version = .ok mm) :
    (Call.install version).run start.world = (.ok (), start.patched) := by
  rcases start with ⟨emscripten, ⟨init, toChannel, stub, reattachCls⟩, hstock⟩
  rw [Call.run, install, h]
  rcases emscripten <;> rcases reattachCls with _ | cls <;> rfl

theorem run_uninstall_patched :
    Call.uninstall.run start.patched =
      (.ok (), { start.world with pyspark := start.restored }) := by
  rcases start with ⟨emscripten, ⟨init, toChannel, stub, reattachCls⟩, hstock⟩
  rcases emscripten <;> rcases reattachCls with _ | ⟨_ | factory, pool⟩ <;> rfl

/-! ## The two states are sound -/

theorem wrapsStock_of_isStock {o : Obj Stock} (h : o.IsStock) : o.WrapsStock := by
  cases o <;> trivial

theorem world_sound : start.world.Sound := by
  exact ⟨nofun, fun _ ↦ start.stock, fun o ho ↦ wrapsStock_of_isStock (start.stock o ho), nofun⟩

theorem get_stock {a : Attribute Stock} (hown : ∀ o, a.own = some o → o.IsStock)
    (hinherited : a.inherited.IsStock) : a.get.IsStock := by
  rcases a with ⟨_ | own, inherited⟩
  · exact hinherited
  · exact hown own rfl

/-- What `install` saves is stock. -/
structure Saves : Prop where
  init : start.pyspark.init.get.IsStock
  toChannel : start.pyspark.toChannel.get.IsStock
  stub : start.pyspark.stub.IsStock
  initInherited : start.pyspark.init.inherited.IsStock
  toChannelInherited : start.pyspark.toChannel.inherited.IsStock
  pool : ∀ cls, start.pyspark.reattachCls = some cls →
    (∀ o ∈ cls.getOrCreateReleaseThreadPool, o.IsStock) ∧
      ∀ o ∈ cls.releaseThreadPoolInstance, o.IsStock

theorem saves : start.Saves := by
  have hstock := start.stock
  simp only [PySpark.objects, List.mem_append, List.mem_cons, List.mem_flatMap, Option.mem_toList,
    List.not_mem_nil, or_false] at hstock
  refine ⟨get_stock (fun o ho ↦ hstock o (.inl (.inl (.inl ho)))) (hstock _ (by simp)),
    get_stock (fun o ho ↦ hstock o (.inl (.inl (.inr ho)))) (hstock _ (by simp)),
    hstock _ (by simp), hstock _ (by simp), hstock _ (by simp), fun cls hcls ↦ ⟨?_, ?_⟩⟩
  · exact fun o ho ↦ hstock o (.inr ⟨cls, hcls, .inl ho⟩)
  · exact fun o ho ↦ hstock o (.inr ⟨cls, hcls, .inr ho⟩)

theorem patched_sound : start.patched.Sound := by
  have h := start.saves
  refine ⟨fun _ ↦ ⟨⟨_, rfl⟩, ⟨_, rfl⟩, ⟨_, rfl⟩, fun he cls hcls ↦ ?_⟩, nofun, fun o ho ↦ ?_,
    fun o ho ↦ ?_⟩
  · have hemscripten : start.emscripten = true := he
    simp only [patched, hemscripten, if_true, Option.map_eq_some_iff] at hcls
    obtain ⟨_, -, rfl⟩ := hcls
    rfl
  · simp only [patched, PySpark.objects, Attribute.set, Option.toList_some, List.mem_append,
      List.mem_cons, List.not_mem_nil, or_false, List.mem_flatMap, Option.mem_toList] at ho
    obtain ((rfl | rfl) | rfl | rfl | rfl) | ⟨cls, hcls, ho⟩ := ho
    · exact h.init
    · exact h.toChannel
    · exact wrapsStock_of_isStock h.initInherited
    · exact wrapsStock_of_isStock h.toChannelInherited
    · exact h.stub
    · split at hcls
      · obtain ⟨_, -, rfl⟩ := Option.map_eq_some_iff.mp hcls
        obtain rfl : Obj.syncPool = o := by simpa using ho
        trivial
      · exact wrapsStock_of_isStock (ho.elim ((h.pool cls hcls).1 o) ((h.pool cls hcls).2 o))
  · simp only [patched, Orig.objects, Option.toList_some, List.mem_append, List.mem_cons,
      List.not_mem_nil, or_false, Option.mem_toList] at ho
    obtain ((rfl | rfl) | rfl) | ho := ho
    · exact h.init
    · exact h.toChannel
    · exact h.stub
    · split at ho
      · rcases hcls : start.pyspark.reattachCls with _ | cls
        · simp [hcls] at ho
        · exact (h.pool cls hcls).1 o (by simpa [hcls] using ho)
      · cases ho

/-- `uninstall` puts everything back if and only if the state is restorable. -/
theorem restored_eq_iff : start.restored = start.pyspark ↔ start.Restorable := by
  rcases start with ⟨emscripten, ⟨⟨own, inherited⟩, ⟨own', inherited'⟩, stub, reattachCls⟩, hstock⟩
  constructor
  · intro h
    simp only [restored, PySpark.mk.injEq, Attribute.set, Attribute.mk.injEq, and_true,
      true_and] at h
    obtain ⟨hinit, htoChannel, hreattach⟩ := h
    refine ⟨?_, ?_, fun he cls hcls ↦ ?_⟩
    · rintro rfl
      cases hinit
    · rintro rfl
      cases htoChannel
    · obtain rfl : emscripten = true := he
      obtain rfl : reattachCls = some cls := hcls
      rcases cls with ⟨_ | factory, pool⟩
      · simp at hreattach
      · simp only [if_true, Option.map_some, Option.some.injEq, ReattachCls.mk.injEq] at hreattach
        exact ⟨nofun, hreattach.2.symm⟩
  · rintro ⟨hinit, htoChannel, hpool⟩
    rcases own with _ | own
    · exact absurd rfl hinit
    rcases own' with _ | own'
    · exact absurd rfl htoChannel
    rcases emscripten
    · rfl
    rcases reattachCls with _ | cls
    · rfl
    obtain ⟨hfactory, hnone⟩ := hpool rfl cls rfl
    rcases cls with ⟨_ | factory, _ | pool⟩
    · exact absurd rfl hfactory
    · exact absurd rfl hfactory
    · rfl
    · cases hnone

/-! ## Runs -/

end Start

theorem runAll_append (w : World Stock) (cs cs' : List Call) :
    runAll w (cs ++ cs') = runAll (runAll w cs) cs' :=
  List.foldl_append

theorem runAll_snoc (w : World Stock) (cs : List Call) (call : Call) :
    runAll w (cs ++ [call]) = (call.run (runAll w cs)).2 :=
  runAll_append w cs [call]

namespace Start

variable (start : Start Stock)

/-- The state is one of the two, and the patched one only behind an `install` that passes. -/
def Between (cs : List Call) (w : World Stock) : Prop :=
  w = start.world ∨
    w = start.patched ∧ ∃ version mm, checkPysparkVersion version = .ok mm ∧
      Call.install version ∈ cs

theorem Between.snoc {start : Start Stock} {cs : List Call} {call : Call} {w : World Stock}
    (h : start.Between cs w) (hundo : start.Restorable ∨ ¬Undoes (cs ++ [call])) :
    start.Between (cs ++ [call]) (call.run w).2 := by
  rcases h with rfl | ⟨rfl, version, mm, hcheck, hmem⟩
  · rcases call with version | _
    · rcases hcheck : checkPysparkVersion version with e | mm
      · rw [run_install_of_error rfl hcheck]
        exact .inl rfl
      · rw [start.run_install_world hcheck]
        exact .inr ⟨rfl, version, mm, hcheck, by simp⟩
    · rw [run_uninstall_of_not_installed rfl]
      exact .inl rfl
  · rcases call with version' | _
    · rw [run_install_of_installed rfl]
      exact .inr ⟨rfl, version, mm, hcheck, List.mem_append_left _ hmem⟩
    · rw [start.run_uninstall_patched]
      rcases hundo with hrestorable | hundo
      · rw [start.restored_eq_iff.mpr hrestorable]
        exact .inl rfl
      · exact absurd ⟨version, mm, hcheck, (List.singleton_sublist.mpr hmem).append (.refl _)⟩ hundo

theorem between_runAll {calls cs : List Call} (hundo : start.Restorable ∨ ¬Undoes calls)
    (hcs : cs <+: calls) : start.Between cs (runAll start.world cs) := by
  induction cs using List.reverseRecOn with
  | nil => exact .inl rfl
  | append_singleton cs call ih =>
      rw [runAll_snoc]
      refine (ih ((List.prefix_append _ _).trans hcs)).snoc (hundo.imp_right ?_)
      rintro hnot ⟨version, mm, hcheck, hsub⟩
      exact hnot ⟨version, mm, hcheck, hsub.trans hcs.sublist⟩

theorem Between.sound {start : Start Stock} {cs : List Call} {w : World Stock}
    (h : start.Between cs w) : w.Sound := by
  rcases h with rfl | ⟨rfl, -⟩
  · exact start.world_sound
  · exact start.patched_sound

/-- Of the two states, a call that raises changes neither. -/
theorem Between.eq_of_error {start : Start Stock} {cs : List Call} {w : World Stock}
    (h : start.Between cs w) {call : Call} {e : Exc} (herr : (call.run w).1 = .error e) :
    (call.run w).2 = w := by
  rcases h with rfl | ⟨rfl, -⟩
  · rcases call with version | _
    · rcases hcheck : checkPysparkVersion version with e' | mm
      · rw [run_install_of_error rfl hcheck]
      · rw [start.run_install_world hcheck] at herr
        cases herr
    · rw [run_uninstall_of_not_installed rfl]
  · rcases call with version | _
    · rw [run_install_of_installed rfl]
    · rw [start.run_uninstall_patched] at herr
      cases herr

/-- Calls that undo an installation reach an `uninstall` of the patched state. -/
theorem exists_uninstall {calls : List Call} {w : World Stock}
    (h : w = start.world ∧ Undoes calls ∨ w = start.patched ∧ Call.uninstall ∈ calls) :
    ∃ cs, cs ++ [.uninstall] <+: calls ∧ runAll w cs = start.patched := by
  induction calls generalizing w with
  | nil =>
      rcases h with ⟨-, version, mm, -, hsub⟩ | ⟨-, hmem⟩
      · cases hsub
      · cases hmem
  | cons call calls ih =>
      have step : ∀ w', (call.run w).2 = w' →
          (w' = start.world ∧ Undoes calls ∨ w' = start.patched ∧ Call.uninstall ∈ calls) →
          ∃ cs, cs ++ [.uninstall] <+: call :: calls ∧ runAll w cs = start.patched := by
        rintro w' rfl hw'
        obtain ⟨cs, hcs, hrun⟩ := ih hw'
        exact ⟨call :: cs, (List.prefix_cons_inj call).mpr hcs, hrun⟩
      rcases h with ⟨rfl, version, mm, hcheck, hsub⟩ | ⟨rfl, hmem⟩
      · rcases call with version' | _
        · rcases hcheck' : checkPysparkVersion version' with e | mm'
          · -- this `install` fails, so it is another one that is undone
            refine step start.world (by rw [run_install_of_error rfl hcheck']) (.inl ⟨rfl, ?_⟩)
            rcases List.sublist_cons_iff.mp hsub with hsub | ⟨rest, heq, hsub⟩
            · exact ⟨version, mm, hcheck, hsub⟩
            · cases heq
              rw [hcheck] at hcheck'
              cases hcheck'
          · refine step start.patched (by rw [start.run_install_world hcheck']) (.inr ⟨rfl, ?_⟩)
            have : Call.uninstall ∈ Call.install version' :: calls :=
              hsub.subset (List.mem_cons_of_mem _ List.mem_cons_self)
            simpa using this
        · refine step start.world (by rw [run_uninstall_of_not_installed rfl]) (.inl ⟨rfl, ?_⟩)
          rcases List.sublist_cons_iff.mp hsub with hsub | ⟨rest, heq, -⟩
          · exact ⟨version, mm, hcheck, hsub⟩
          · cases heq
      · rcases call with version | _
        · refine step start.patched (by rw [run_install_of_installed rfl]) (.inr ⟨rfl, ?_⟩)
          simpa using hmem
        · exact ⟨[], ⟨calls, rfl⟩, rfl⟩

end Start

/-- The calls are a faithful patch machine if and only if PySpark can be restored or no
installation is undone. -/
theorem faithful_iff (start : Start Stock) (calls : List Call) :
    Faithful start.world calls ↔ start.Restorable ∨ ¬Undoes calls := by
  constructor
  · intro h
    by_contra hnot
    rw [not_or, not_not] at hnot
    obtain ⟨cs, hcs, hrun⟩ := start.exists_uninstall (.inl ⟨rfl, hnot.2⟩)
    have hrestored := h.restored cs hcs
    rw [runAll_snoc, hrun, start.run_uninstall_patched] at hrestored
    exact hnot.1 (start.restored_eq_iff.mp hrestored)
  · intro hundo
    refine ⟨fun cs hcs ↦ ?_, fun cs call e hcs herr ↦ ?_, fun cs hcs ↦ ?_⟩
    · exact (start.between_runAll hundo hcs).sound
    · rw [runAll_snoc]
      exact (start.between_runAll hundo ((List.prefix_append _ _).trans hcs)).eq_of_error herr
    · have hbefore := start.between_runAll hundo ((List.prefix_append cs _).trans hcs)
      rcases start.between_runAll hundo hcs with hw | ⟨hw, -⟩
      · rw [hw]
      · -- an `uninstall` does not end in the patched state
        rw [runAll_snoc] at hw
        have hinstalled := congrArg World.installed hw
        rcases hbefore with hb | ⟨hb, -⟩
        · rw [hb, run_uninstall_of_not_installed rfl] at hinstalled
          cases hinstalled
        · rw [hb, start.run_uninstall_patched] at hinstalled
          cases hinstalled

/-- On Emscripten, with a live release pool: `uninstall` leaves no pool. -/
theorem not_faithful_live_pool :
    let init : Attribute String := ⟨some (.stock "__init__"), .stock "object.__init__"⟩
    let toChannel : Attribute String := ⟨some (.stock "toChannel"), .stock "ChannelBuilder.toChannel"⟩
    let cls : ReattachCls String := ⟨some (.stock "classmethod"), some (.stock "ThreadPoolExecutor")⟩
    ¬Faithful { emscripten := true, pyspark := ⟨init, toChannel, .stock "Stub", some cls⟩ }
      [.install (some "4.0.0"), .uninstall] := by
  intro init toChannel cls h
  have := h.restored [.install (some "4.0.0")] (List.prefix_refl _)
  revert this
  decide +kernel

end ConnectWeb.Patch
