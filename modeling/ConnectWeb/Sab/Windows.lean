import ConnectWeb.Sab.System

/-!
# The windows of a message

`_emitMessage` cuts a message into windows that leave `META_ZONE` bytes for the meta of
each.  The meta of a later window is a flag, which fits; that of the first one has the
response headers, which need not.
-/

namespace ConnectWeb.Sab

namespace Emission

/-- The message as `_emitMessage` begins with it, on a data SAB of `size` bytes. -/
def first (resp : FetchResponse) (metaBase : List (String × Json)) (bytes : Bytes) (size : Nat)
    (streaming : Bool) : Emission where
  resp := resp
  metaBase := metaBase
  bytes := bytes
  cap := (size : Int) - metaZone - 4
  sent := 0
  streaming := streaming

/-- The windows of a message whose windows are acked, from a first one on. -/
inductive Window (e₀ : Emission) : Emission → Prop
  | first : Window e₀ e₀
  | next {e e' : Emission} (h : Window e₀ e) (hnext : e.next = .window e') : Window e₀ e'

end Emission

/-- Every window of the message is stored as a whole, wherever `_emitMessage` runs, and the
windows come to an end. -/
structure Delivers (engine : Engine) (size : Nat) (e₀ : Emission) : Prop where
  stores : ∀ e, e₀.Window e → ∀ (s : Sys) (c : Nat) (t : Task), t.pc = .window e →
    (s.sab s.bridge.data).size = size →
      ∃ off s', off ≤ size ∧ s.stepTask engine c t = some s' ∧
        s'.current = .run (t.goto (.storeLength off .respChunk e.next))
  progress : ∀ e e', e₀.Window e → e.next = .window e' →
    e.sent < e'.sent ∧ e'.sent < e₀.bytes.length
  ends : ∃ e, e₀.Window e ∧ ∀ e', e.next ≠ .window e'

/-- The meta of the first window fits: in what the body leaves of the data SAB if the body is
one window, in the meta zone if it is more. -/
def MetaFits (size : Nat) (metaBase : List (String × Json)) (bytes : Bytes) : Prop :=
  if metaZone + 4 + bytes.length ≤ size then
    4 + (metaBytes (windowMeta metaBase false)).length + bytes.length ≤ size
  else (metaBytes (windowMeta metaBase true)).length ≤ metaZone

instance (size : Nat) (metaBase : List (String × Json)) (bytes : Bytes) :
    Decidable (MetaFits size metaBase bytes) := by
  unfold MetaFits
  infer_instance

/-! ## One window -/

/-- The stores of a window stay inside the data SAB if and only if it fits. -/
theorem stepTask_window_iff {engine : Engine} {s : Sys} {c : Nat} {t : Task} {e : Emission}
    (ht : t.pc = .window e) :
    (∃ off s', off ≤ (s.sab s.bridge.data).size ∧ s.stepTask engine c t = some s' ∧
        s'.current = .run (t.goto (.storeLength off .respChunk e.next))) ↔
      4 + (metaBytes e.info).length + e.window.length ≤ (s.sab s.bridge.data).size := by
  rw [Sys.stepTask, ht]
  simp only [Sys.storeWindow]
  rcases hw : (writeWindow (s.sab s.bridge.data) (metaBytes e.info) e.window).2 with _ | off
  · constructor
    · rintro ⟨off, s', -, hs, hcurrent⟩
      rw [Option.some.injEq] at hs
      subst hs
      simp [Sys.runs, Task.goto] at hcurrent
    · intro hfits
      have := (writeWindow_eq_some (d := s.sab s.bridge.data)).mpr ⟨rfl, hfits⟩
      rw [hw] at this
      cases this
  · obtain ⟨hoff, hle⟩ := writeWindow_eq_some.mp hw
    rw [hoff] at hle
    exact ⟨fun _ ↦ hle, fun _ ↦ ⟨off, _, hoff ▸ hle, rfl, rfl⟩⟩

theorem length_metaBytes_flag (more : Bool) :
    (metaBytes (windowMeta [] more)).length ≤ metaZone := by
  rcases more <;> decide +kernel

/-! ## The loop -/

namespace Emission

/-- What the loop of `_emitMessage` keeps. -/
structure Inside (e₀ e : Emission) : Prop where
  bytes : e.bytes = e₀.bytes
  cap : e.cap = e₀.cap
  nonneg : 0 ≤ e.sent
  le : e.sent ≤ e₀.bytes.length
  /-- Only the first window has more meta than the flag. -/
  metaBase : e = e₀ ∨ e.metaBase = []

theorem next_eq_window {e e' : Emission} (h : e.next = .window e') :
    e.more = true ∧ e' = { e with metaBase := [], sent := e.stop } := by
  rw [next] at h
  split at h
  · rename_i hmore
    cases h
    exact ⟨hmore, rfl⟩
  · split at h <;> cases h

theorem Inside.next {e₀ e e' : Emission} (h : e₀.Inside e) (hcap : 0 < e₀.cap)
    (hnext : e.next = .window e') :
    e₀.Inside e' ∧ e.sent < e'.sent ∧ e'.sent < e₀.bytes.length := by
  obtain ⟨hmore, rfl⟩ := next_eq_window hnext
  have hstop : e.stop < e.bytes.length := by simpa [more] using hmore
  have hcap' := h.cap
  have hnonneg := h.nonneg
  rw [stop, h.bytes] at hstop
  simp only [stop, h.bytes]
  refine ⟨⟨rfl, h.cap, ?_, ?_, .inr rfl⟩, ?_, ?_⟩
  · simp only
    omega
  · simp only
    omega
  · omega
  · omega

theorem Window.inside {e₀ e : Emission} (h : e₀.Window e) (hsent : e₀.sent = 0)
    (hcap : 0 < e₀.cap) : e₀.Inside e := by
  induction h with
  | first => exact ⟨rfl, rfl, hsent.ge, by omega, .inl rfl⟩
  | next _ hnext ih => exact (ih.next hcap hnext).1

/-- A window has at most `cap` bytes, and the last one what is left. -/
theorem Inside.length_window {e₀ e : Emission} (h : e₀.Inside e) (hcap : 0 < e₀.cap) :
    (e.window.length : Int) = min e₀.cap (e₀.bytes.length - e.sent) := by
  have hcap' := h.cap
  have hnonneg := h.nonneg
  have hle := h.le
  have hsent : Region.clamp e.bytes.length e.sent = e.sent.toNat :=
    Region.clamp_of_le hnonneg (h.bytes ▸ hle)
  have hstop : Region.clamp e.bytes.length e.stop = e.stop.toNat :=
    Region.clamp_of_le (by rw [stop]; omega) (by rw [stop]; omega)
  rw [window, subarray, List.length_drop, List.length_take, hsent, hstop, stop, h.bytes]
  omega

/-- The windows come to an end: less of the message is left at each. -/
theorem Window.exists_last {e₀ e : Emission} (h : e₀.Window e) (hsent : e₀.sent = 0)
    (hcap : 0 < e₀.cap) : ∃ e', e₀.Window e' ∧ ∀ e'', e'.next ≠ .window e'' := by
  by_cases hlast : ∃ e', e.next = .window e'
  · obtain ⟨e', hnext⟩ := hlast
    have hprogress := (h.inside hsent hcap).next hcap hnext
    exact (h.next hnext).exists_last hsent hcap
  · exact ⟨e, h, fun e' he' ↦ hlast ⟨e', he'⟩⟩
termination_by (e₀.bytes.length - e.sent).toNat
decreasing_by omega

end Emission

/-! ## The message -/

/-- Behind the first window every window fits. -/
theorem Emission.Inside.fits {e₀ e : Emission} (h : e₀.Inside e) (hne : e ≠ e₀)
    {size : Nat} (hsize : metaZone + 4 < size) (hcap : e₀.cap = (size : Int) - metaZone - 4) :
    4 + (metaBytes e.info).length + e.window.length ≤ size := by
  have hlen := h.length_window (by omega)
  have hmeta := length_metaBytes_flag e.more
  rw [Emission.info, h.metaBase.resolve_left hne]
  omega

/-- The first window fits if and only if its meta does. -/
theorem Emission.first_fits_iff (resp : FetchResponse) (metaBase : List (String × Json))
    (bytes : Bytes) (streaming : Bool) {size : Nat} (hsize : metaZone + 4 < size) :
    let e₀ := Emission.first resp metaBase bytes size streaming
    4 + (metaBytes e₀.info).length + e₀.window.length ≤ size ↔ MetaFits size metaBase bytes := by
  intro e₀
  have hinside : e₀.Inside e₀ := ⟨rfl, rfl, le_rfl, Int.natCast_nonneg _, .inl rfl⟩
  have hcap : e₀.cap = (size : Int) - metaZone - 4 := rfl
  have hlen := hinside.length_window (by omega)
  have hsent : e₀.sent = 0 := rfl
  have hbytes : e₀.bytes.length = bytes.length := rfl
  have hmore : e₀.more = decide (¬metaZone + 4 + bytes.length ≤ size) := by
    rw [Emission.more, Emission.stop, hcap, hsent, hbytes, decide_eq_decide]
    omega
  rw [Emission.info, hmore, MetaFits]
  split
  · rename_i hone
    simp only [hone, not_true_eq_false, decide_false]
    change 4 + (metaBytes (windowMeta metaBase false)).length + _ ≤ _ ↔ _
    omega
  · rename_i hone
    simp only [hone, not_false_eq_true, decide_true]
    change 4 + (metaBytes (windowMeta metaBase true)).length + _ ≤ _ ↔ _
    omega

/-- A message that is delivered has a first window that fits. -/
theorem Delivers.first_fits {engine : Engine} {size : Nat} {e₀ : Emission}
    (h : Delivers engine size e₀) : 4 + (metaBytes e₀.info).length + e₀.window.length ≤ size := by
  let s : Sys := { sab := fun _ ↦ .zeros size }
  let t : Task := { pick := ⟨0, 0, 0, none, none⟩, pc := .window e₀ }
  exact (stepTask_window_iff (s := s) (t := t) rfl).mp (h.stores e₀ .first s 0 t rfl rfl)

/-- A message is delivered window by window if and only if the meta of its first window fits;
`headers` says whether that has the headers, as it has for a unary body and for the first
chunk of a stream. -/
theorem delivers_iff (engine : Engine) (resp : FetchResponse) (headers : Bool) (bytes : Bytes)
    (streaming : Bool) {size : Nat} (hsize : metaZone + 4 < size) :
    let metaBase := if headers then resp.metaBase else []
    Delivers engine size (.first resp metaBase bytes size streaming) ↔
      MetaFits size metaBase bytes := by
  intro metaBase
  refine Iff.trans ?_ (Emission.first_fits_iff resp metaBase bytes streaming hsize)
  let e₀ := Emission.first resp metaBase bytes size streaming
  have hcap : e₀.cap = (size : Int) - metaZone - 4 := rfl
  have hpos : 0 < e₀.cap := by omega
  constructor
  · exact Delivers.first_fits
  · intro hfirst
    refine ⟨fun e he s c t ht hs ↦ ?_, fun e e' he hnext ↦ ?_,
      Emission.Window.first.exists_last rfl hpos⟩
    · subst hs
      refine (stepTask_window_iff ht).mpr ?_
      by_cases hne : e = e₀
      · rw [hne]
        exact hfirst
      · exact (he.inside rfl hpos).fits hne hsize hcap
    · exact ((he.inside rfl hpos).next hpos hnext).2

/-- A response with headers and a body of three windows. -/
theorem delivers_three_windows :
    let resp : FetchResponse :=
      ⟨200, [("content-type", "application/grpc-web+proto"), ("x", "y")], true⟩
    Delivers v8 4101 (.first resp resp.metaBase [1, 2, 3] 4101 false) :=
  (delivers_iff v8 ⟨200, [("content-type", "application/grpc-web+proto"), ("x", "y")], true⟩ true
    [1, 2, 3] false (by decide)).mpr (by decide +kernel)

/-! ## Headers that do not fit -/

/-- The meta of a response with one header is longer than the value of the header. -/
theorem length_le_metaBytes_header (value : String) (more : Bool) :
    value.toList.length <
      (metaBytes (windowMeta (FetchResponse.metaBase ⟨200, [("x", value)], true⟩) more)).length := by
  let headers : List (String × Json) := [("x", .str value)]
  let members : List (String × Json) :=
    [("ok", .bool true), ("headers", .obj (.ofList headers)), ("more", .bool more)]
  have hmembers : windowMeta (FetchResponse.metaBase ⟨200, [("x", value)], true⟩) more =
      .obj (.ofList members) := by
    have hcollected : FetchResponse.collected ⟨200, [("x", value)], true⟩ = [("x", value)] := by
      have hname : FetchResponse.arrayIndex "x" = none := by decide +kernel
      simp [FetchResponse.collected, Dict.ofPairs, Dict.set, hname]
    rw [windowMeta, FetchResponse.metaBase, hcollected]
    rfl
  have hvalue := Json.Style.length_le_flatMap_escape .compact value.toList
  have hstring : value.toList.length ≤ (Json.print .compact (.str value)).length := by
    rw [Json.print, Json.printString, List.length_append, List.length_cons]
    omega
  have hheader : (Json.print .compact (.str value)).length <
      (Json.print .compact (.obj (.ofList headers))).length :=
    @Json.length_print_lt .compact headers ("x", .str value) List.mem_cons_self
  have hheaders : (Json.print .compact (.obj (.ofList headers))).length <
      (Json.print .compact (.obj (.ofList members))).length :=
    @Json.length_print_lt .compact members ("headers", .obj (.ofList headers))
      (List.mem_cons_of_mem _ List.mem_cons_self)
  rw [hmembers]
  exact (hstring.trans_lt (hheader.trans hheaders)).trans_le (Utf8.length_le_encode _)

/-- A response whose one header has 4096 characters, with a body of one byte, on a data SAB
of 4101 bytes. -/
theorem not_delivers_long_header :
    let resp : FetchResponse := ⟨200, [("x", .ofList (.replicate 4096 'a'))], true⟩
    ¬Delivers v8 4101 (.first resp resp.metaBase [0] 4101 false) := by
  intro resp h
  have hfits : 4 + (metaBytes (windowMeta resp.metaBase false)).length + 1 ≤ 4101 := h.first_fits
  have hlong := length_le_metaBytes_header (.ofList (.replicate 4096 'a')) false
  rw [String.toList_ofList, List.length_replicate] at hlong
  change 4 + (metaBytes (windowMeta (FetchResponse.metaBase ⟨200, [("x", .ofList (.replicate 4096 'a'))], true⟩) false)).length + 1 ≤ 4101 at hfits
  omega

end ConnectWeb.Sab
