import ConnectWeb.Sab.WorkerTurn

/-!
# The main thread's steps keep the exchange

An invocation that serves a request is the only one that stores anything, and STATE shows no
answer until it has stored one.  An invocation that waits for an ack goes on only when it
finds the ack of its own channel.
-/

namespace ConnectWeb.Sab

/-! ## The steps of an invocation -/

/-- The `kind` that the bridge reads is that of the request. -/
theorem Pick.kind_of_header {p : Pick} {q : Posted} (hp : p.pending = some q) (hr : p.Reads q) :
    (jsText (p.header.get? "kind") = "unary" ↔ p.kind = some .unary) := by
  have hh : p.header = Sab.header q.request q.gen := by rw [Pick.header, hr]
  have hk : (Sab.header q.request q.gen).get? "kind" = some (.str q.request.kind.text) := rfl
  rw [hh, hk, Pick.kind, hp, Option.map_some, jsText]
  cases q.request.kind <;> simp [Kind.text]

namespace Task.Move

variable {engine : Engine} {st : SabState} {size c : Nat} {t t' : Task} {events : List Event}
  (h : t.Move engine c st size t' events)

include h

theorem pick : t'.pick = t.pick := by cases h <;> rfl

theorem stage_ne_leaving : t.stage ≠ .leaving := by
  intro hl
  rw [Task.stage] at hl
  cases h <;> simp_all [At.stage]

/-- An invocation waits for an ack as before, or it was storing. -/
theorem awaiting {next : Next} (ht : t'.stage = .awaiting next) : t.stage = .awaiting next := by
  cases h <;> simp_all [Task.stage, At.stage, Task.emit, Task.goto]

theorem serving_of_serving (ht : t.stage = .serving) : t'.stage = .serving := by
  cases h <;> simp_all [Task.stage, At.stage, Task.emit, Task.goto]

/-- An invocation that starts to serve again has found the ack. -/
theorem acked {next : Next} (ht : t.stage = .awaiting next) (ht' : t'.stage = .serving) :
    st = .chunkAck := by
  cases h <;> simp_all [Task.stage, At.stage, Task.goto]

/-- While STATE says nothing to an invocation, it stays. -/
theorem stays {next : Next} (ht : t.stage = .awaiting next) (hst : st.endsAwait = false) :
    t'.stage = .awaiting next := by
  cases h <;> simp_all [Task.stage, At.stage, Task.goto, SabState.endsAwait]

end Task.Move

namespace Sys

variable {engine : Engine} {s : Sys} {c c0 size : Nat} {st : SabState} {t t' : Task}
  {events : List Event}

/-- An invocation goes on serving. -/
theorem Serving.move (hs : s.Serving c t) (ht : t.stage = .serving)
    (hm : t.Move engine c0 st size t' events) : s.Serving c t' := by
  obtain ⟨hb, hsuits, hdue, hprog⟩ := hs
  obtain ⟨q, hp, -, hr⟩ := hb.current
  have hkind := Pick.kind_of_header hp hr
  have hkind' : jsText (t.pick.header.get? "kind") ≠ "unary" → t.pick.kind = some .serverStream := by
    rw [Ne, hkind, Pick.kind, hp, Option.map_some]
    cases q.request.kind <;> simp
  cases hm with
  | rejected _ => exact ⟨hb, fun h ↦ (by cases h), hdue, trivial⟩
  | timer h => exact ⟨hb, hsuits, hdue, hprog⟩
  | buffering _ hk => exact ⟨hb, hkind.mp hk, hdue, trivial⟩
  | reading _ hk _ => exact ⟨hb, hkind' hk, hdue, trivial⟩
  | bodiless _ _ _ => exact ⟨hb, fun _ ↦ engine.typeError.fits, hdue, trivial⟩
  | buffered h =>
      rw [h] at hsuits
      exact ⟨hb, hsuits, hdue, trivial⟩
  | @unbuffered _ e h => exact ⟨hb, fun _ ↦ e.fits, hdue, trivial⟩
  | empty _ => exact ⟨hb, hsuits, hdue, hprog⟩
  | chunk h _ =>
      rw [h] at hsuits
      exact ⟨hb, hsuits, hdue, trivial⟩
  | exhausted h =>
      rw [h] at hsuits
      exact ⟨hb, trivial, hdue, rfl, rfl, hsuits⟩
  | broken h => exact ⟨hb, fun h ↦ (by cases h), hdue, trivial⟩
  | ackedWindow h _ | ackedRead h _ | ackedLeave h _ | quits h _ _ | still h _ | park h _
  | notEqual h _ _ | poll h _ | woken h =>
      rw [Task.stage, h] at ht
      cases ht

/-- An invocation that found its ack serves on. -/
theorem Serving.of_ack {next : Next} (hb : s.Bound c t.pick) (ha : t.pick.Allows next)
    (hdue : (s.state c).answer = false) (ht : t.stage = .awaiting next)
    (ht' : t'.stage = .serving) (hm : t.Move engine c0 st size t' events) : s.Serving c t' := by
  cases hm with
  | ackedWindow h _ =>
      rw [Task.stage, h] at ht
      cases ht
      exact ⟨hb, ha, hdue, trivial⟩
  | ackedRead h _ =>
      rw [Task.stage, h] at ht
      cases ht
      exact ⟨hb, ha, hdue, trivial⟩
  | rejected h | timer h | buffering h _ | reading h _ _ | bodiless h _ _ | buffered h
  | unbuffered h | empty h | chunk h _ | exhausted h | broken h =>
      rw [Task.stage, h] at ht
      cases ht
  | ackedLeave _ _ | quits _ _ _ | still _ _ | park _ _ | notEqual _ _ _ | poll _ _ | woken _ =>
      cases ht'

end Sys

/-! ## The steps of the main thread -/

namespace Exchange

variable {s s' : Sys} {c : Nat}

/-- A step of the main thread that stores no STATE. -/
theorem main (h : Exchange s c) (hb : s'.backends = s.backends)
    (hstate : ∀ c', s'.state c' = s.state c') (hphase : s'.worker.phase = s.worker.phase)
    (hsus : s'.suspended = s.suspended) (hposted : s'.posted = s.posted)
    (hcalm : s.Requesting c → s.Calm c → s'.Calm c)
    (hserving : ∀ t ∈ s'.live, t.stage = .serving → s'.Serving c t)
    (hawaiting : ∀ t ∈ s'.live, ∀ next, t.stage = .awaiting next → s.state c ≠ .idle →
      s.state c ≠ .reqReady → ¬ s.Requesting c → s'.Bound c t.pick ∧ t.pick.Allows next)
    (hans : ∀ call p off next, (s.state c).answer = true → ¬ s.Requesting c →
      s.Answer c call p off next → s'.Answer c call p off next)
    (hreq : s.state c = .reqReady → (∃ t ∈ s.live, t.stage = .serving) →
      ∃ t ∈ s'.live, t.stage = .serving)
    (hcar : ∀ q, (∀ t ∈ s.live, t.stage ≠ .serving) → s.Carries c q → s'.Carries c q) :
    Exchange s' c := by
  have hrq : s'.Requesting c ↔ s.Requesting c := by rw [Sys.Requesting, Sys.Requesting, hphase]
  have hhold : ∀ call, s'.Holding call ↔ s.Holding call := fun call ↦ by
    rw [Sys.Holding, Sys.Holding, hphase, hsus]
  refine ⟨?_, ?_, ?_, hserving, ?_, ?_, ?_, ?_, ?_⟩
  · intro c' hle
    rw [hstate]
    exact h.unused c' (hb ▸ hle)
  · intro c' hne
    rw [hstate]
    exact h.old c' hne
  · exact fun hr ↦ hcalm (hrq.mp hr) (h.calm (hrq.mp hr))
  · intro t ht next hst hi hr hn
    rw [hstate] at hi hr
    exact hawaiting t ht next hst hi hr fun hn' ↦ hn (hrq.mpr hn')
  · intro call hh hc hcur
    rw [hstate]
    refine h.holding call ((hhold call).mp hh) hc ?_
    rwa [Sys.Current, hposted] at hcur
  · intro call ph hw hc he ha
    rw [hphase] at hw
    rw [hstate] at ha
    obtain ⟨p, off, next, hans'⟩ := h.answered call ph hw hc he ha
    refine ⟨p, off, next, hans call p off next ha (fun hr ↦ ?_) hans'⟩
    have := ((Sys.requesting_iff hw).mp hr).2
    rw [Phase.requests_of_engaged he] at this
    cases this
  · intro hst hn
    rw [hstate] at hst
    by_cases hserv : ∃ t ∈ s.live, t.stage = .serving
    · exact .inl (hreq hst hserv)
    · rcases h.request hst fun hn' ↦ hn (hrq.mpr hn') with hs | ⟨q, hq, hcar'⟩
      · exact absurd hs hserv
      · refine .inr ⟨q, by rw [hposted]; exact hq, hcar q (fun t ht hst' ↦ ?_) hcar'⟩
        exact hserv ⟨t, ht, hst'⟩
  · intro call hw hc
    rw [hphase] at hw
    have hr : s.Requesting c := ⟨call, _, hw, hc, rfl⟩
    exact hcar _ (fun t ht ↦ (h.calm hr t ht).1) (h.posting call hw hc)

/-- While STATE shows an answer, nobody serves. -/
theorem not_serving_of_answer (h : Exchange s c) (ha : (s.state c).answer = true) {t : Task}
    (ht : t ∈ s.live) : t.stage ≠ .serving := by
  intro hst
  have := (h.serving t ht hst).due
  rw [ha] at this
  cases this

end Exchange

/-- An announcement that is still on its way is one for which no invocation waits. -/
theorem Announced.not_bound {s : Sys} (ha : Announced s) {c c0 d : Nat} {queue : List Message}
    {p : Pick} (hc : c = s.newest) (hq : s.queue = .sab c0 d :: queue) : ¬ s.Bound c p := by
  intro hb
  have hlt := (ha.ctrl_lt hb.attached).1
  have hnew : c + 1 = s.backends := by
    rw [hc, Sys.newest_add_one hlt]
  have hsil := ha.silent_of_fresh hnew hb.attached hb.data
  rw [Sys.announcements, hb.attached, hq] at hsil
  cases hsil

namespace Exchange

variable {engine : Engine} {s s' : Sys} {c : Nat}

/-- An invocation takes a step that stores nothing. -/
theorem task {c0 size : Nat} {t t' : Task} {events : List Event} (h : Exchange s c)
    (hm : t.Move engine c0 (s.state c0) size t' events) (hl : s.live = [t])
    (hc0 : s.bridge.ctrl = some c0) (hk : SameMemory s s')
    (hworker : s'.worker = s.worker) (hsus : s'.suspended = s.suspended)
    (hposted : s'.posted = s.posted) (hbr : s'.bridge = s.bridge) (hl' : s'.live = [t']) :
    Exchange s' c := by
  have hmem := Sys.mem_live hl
  have bound : ∀ {p : Pick}, s.Bound c p → s'.Bound c p := by
    intro p hb
    refine ⟨by rw [hbr]; exact hb.attached, hb.chan, ?_, by rw [hposted]; exact hb.current⟩
    rw [hbr, hk.buffer]
    exact hb.data
  have serving : ∀ {t0 : Task}, s.Serving c t0 → s'.Serving c t0 := fun hs ↦
    ⟨bound hs.bound, hs.suits, by rw [hk.state]; exact hs.due, hk.progress.mpr hs.progress⟩
  -- an ack that an invocation finds is one of its own channel
  have acked : ∀ {next : Next}, t.stage = .awaiting next → t'.stage = .serving →
      s.state c = .chunkAck := by
    intro next hst hst'
    have hack := hm.acked hst hst'
    by_cases hc : c0 = c
    · rw [← hc]
      exact hack
    · have := h.old c0 hc
      rw [hack] at this
      cases this
  refine h.main hk.backends hk.state (by rw [hworker]) hsus hposted ?_ ?_ ?_ ?_ ?_ ?_
  · intro _ hcalm t0 ht0
    rw [hl', List.mem_singleton] at ht0
    subst ht0
    obtain ⟨hns, hna⟩ := hcalm t hmem
    refine ⟨fun hst' ↦ ?_, fun hst next hst' ↦ ?_⟩
    · rcases hst : t.stage with _ | next | _
      · exact hns hst
      · exact hna (acked hst hst') next hst
      · exact hm.stage_ne_leaving hst
    · rw [hk.state] at hst
      exact hna hst next (hm.awaiting hst')
  · intro t0 ht0 hst'
    rw [hl', List.mem_singleton] at ht0
    subst ht0
    rcases hst : t.stage with _ | next | _
    · exact serving ((h.serving t hmem hst).move hst hm)
    · have hack := acked hst hst'
      have hn : ¬ s.Requesting c := fun hr ↦ (h.calm hr t hmem).2 hack next hst
      obtain ⟨hb, hal⟩ := h.awaiting t hmem next hst (by rw [hack]; nofun) (by rw [hack]; nofun) hn
      exact serving (.of_ack hb hal (by rw [hack]; rfl) hst hst' hm)
    · exact absurd hst hm.stage_ne_leaving
  · intro t0 ht0 next hst' hi hr hn
    rw [hl', List.mem_singleton] at ht0
    subst ht0
    obtain ⟨hb, hal⟩ := h.awaiting t hmem next (hm.awaiting hst') hi hr hn
    rw [hm.pick]
    exact ⟨bound hb, hal⟩
  · rintro call p off next ha hn ⟨h1, h2, h3, h4, h5, h6⟩
    refine ⟨h1, h2, ?_, ?_, hk.measures.mpr h5, ?_⟩
    · rw [hk.writer]
      exact h3
    · rw [hk.state]
      exact hk.shows.mpr h4
    · have hnotserv := h.not_serving_of_answer ha hmem
      -- the invocation waits, and STATE has nothing for it
      have stays : ∀ {next : Next}, t.stage = .awaiting next → t'.stage = .awaiting next := by
        intro next hst
        obtain ⟨hb, -⟩ := h.awaiting t hmem next hst (by intro h0; rw [h0] at ha; cases ha)
          (by intro h0; rw [h0] at ha; cases ha) hn
        cases hc0.symm.trans hb.attached
        refine hm.stays hst ?_
        cases hst0 : s.state c <;> rw [hst0] at ha <;> first
          | rfl
          | cases ha
      cases next with
      | leave => exact absurd (h6 t hmem) hm.stage_ne_leaving
      | window e =>
          obtain ⟨t0, ht0, hp, hst⟩ := h6
          rw [hl] at ht0
          cases ht0
          exact ⟨t', hl', hm.pick.trans hp, stays hst⟩
      | read resp =>
          obtain ⟨t0, ht0, hp, hst⟩ := h6
          rw [hl] at ht0
          cases ht0
          exact ⟨t', hl', hm.pick.trans hp, stays hst⟩
  · rintro _ ⟨t0, ht0, hst⟩
    rw [hl, List.mem_singleton] at ht0
    subst ht0
    exact ⟨t', by rw [hl']; simp, hm.serving_of_serving hst⟩
  · exact fun q _ hcar ↦ hk.carries.mpr hcar

/-- An invocation stores a part of its answer. -/
theorem part {t t' : Task} (h : Exchange s c) (hl : s.live = [t]) (hst : t.stage = .serving)
    (hb : s'.backends = s.backends) (hstate : ∀ c', s'.state c' = s.state c')
    (hworker : s'.worker = s.worker) (hsus : s'.suspended = s.suspended)
    (hposted : s'.posted = s.posted) (hl' : s'.live = [t']) (hst' : t'.stage = .serving)
    (hserving : s.Serving c t → s'.Serving c t') : Exchange s' c := by
  have hmem := Sys.mem_live hl
  refine h.main hb hstate (by rw [hworker]) hsus hposted ?_ ?_ ?_ ?_ ?_ ?_
  · exact fun _ hcalm ↦ absurd hst (hcalm t hmem).1
  · intro t0 ht0 _
    rw [hl', List.mem_singleton] at ht0
    subst ht0
    exact hserving (h.serving t hmem hst)
  · intro t0 ht0 next hst0
    rw [hl', List.mem_singleton] at ht0
    subst ht0
    rw [hst'] at hst0
    cases hst0
  · exact fun _ _ _ _ ha ↦ absurd hst (h.not_serving_of_answer ha hmem)
  · exact fun _ _ ↦ ⟨t', by rw [hl']; simp, hst'⟩
  · exact fun q hns ↦ absurd hst (hns t hmem)

end Exchange

/-! ## The parts of an answer -/

namespace Sys

variable (s : Sys) (c : Nat) (t : Task) (r : Region) (status : Int)

@[simp] theorem data_stored (c' : Nat) :
    ((s.stored c t r status).backend c').data = (s.backend c').data :=
  data_setCtrl s c c' fun ctrl ↦ { ctrl with status := toInt32 status }

theorem state_stored (c' : Nat) : (s.stored c t r status).state c' = s.state c' :=
  state_setCtrl s c c' (fun ctrl ↦ { ctrl with status := toInt32 status }) fun _ ↦ rfl

theorem status_stored : ((s.stored c t r status).backend c).ctrl.status = toInt32 status := by
  change ((s.setCtrl c fun ctrl ↦ { ctrl with status := toInt32 status }).backend c).ctrl.status = _
  rw [ctrl_setCtrl_self]

theorem writer_status_stored : (s.stored c t r status).writer (.status c) = some t :=
  Function.update_self ..

variable {s c}

theorem region_stored (h : s.bridge.data = (s.backend c).data) :
    (s.stored c t r status).region c = r := by
  rw [region, data_stored, ← h]
  exact Function.update_self ..

theorem writer_data_stored (h : s.bridge.data = (s.backend c).data) :
    (s.stored c t r status).writer (.data (s.backend c).data) = some t := by
  change Function.update (Function.update s.writer (.data s.bridge.data) (some t)) (.status c)
    (some t) (.data (s.backend c).data) = some t
  have hne : Cell.data (s.backend c).data ≠ .status c := nofun
  rw [Function.update_of_ne hne, h, Function.update_self]

end Sys

section
variable {engine : Engine} {s : Sys} {c off : Nat} {t : Task} {info : Json} {payload : Bytes}
  {status : Int} {st : SabState} {next : Next} {failed : At}

theorem Task.Stores.stage (h : t.Stores engine info payload status st next failed) :
    t.stage = .serving := by
  cases h with
  | window h => rw [Task.stage, h]; rfl
  | report h => rw [Task.stage, h]; rfl

/-- A window or a report is stored as a whole. -/
theorem Sys.Serving.stored (hs : s.Serving c t)
    (hm : t.Stores engine info payload status st next failed)
    (hw : (writeWindow (s.sab s.bridge.data) (metaBytes info) payload).2 = some off) :
    Sys.Serving ((s.stored c t (writeWindow (s.sab s.bridge.data) (metaBytes info) payload).1
      status).runs (t.goto (.storeLength off st next))) c (t.goto (.storeLength off st next)) := by
  obtain ⟨hb, hsuits, hdue, -⟩ := hs
  have hholds := writeWindow_holds hw
  have hoff := (writeWindow_eq_some.mp hw).1
  set r := (writeWindow (s.sab s.bridge.data) (metaBytes info) payload).1
  have hd : ((s.stored c t r status).backend c).data = (s.backend c).data :=
    Sys.data_stored s c t r status c
  have hreg := Sys.region_stored t r status hb.data
  have hwd := Sys.writer_data_stored t r status hb.data
  refine ⟨⟨hb.attached, hb.chan, hb.data.trans hd.symm, hb.current⟩, trivial, ?_, ?_⟩
  · exact (congrArg SabState.answer (Sys.state_stored s c t r status c)).trans hdue
  · cases hm with
    | @window e h =>
        rw [h] at hsuits
        refine ⟨t, e, ?_, Sys.writer_status_stored s c t r _, rfl, h, hsuits, rfl, hoff, ?_,
          Sys.status_stored s c t r _⟩
        · exact (congrArg _ (congrArg Cell.data hd)).trans hwd
        · exact (congrArg (fun d : Region ↦ d.Holds 0 _) hreg).mpr hholds
    | @report message kind caught h =>
        refine ⟨rfl, t, message, kind, caught, ?_, rfl, h, ?_⟩
        · exact (congrArg _ (congrArg Cell.data hd)).trans hwd
        · exact (congrArg (fun d : Region ↦ d.Holds 0 _) hreg).mpr hholds

/-- The copy raised `RangeError`, and the report of that is due. -/
theorem Sys.Serving.overflow (ha : Announced s) (hs : s.Serving c t)
    (hm : t.Stores engine info payload status st next failed) (r : Region)
    (hw : (writeWindow (s.sab s.bridge.data) (metaBytes info) payload).2 = none) :
    failed.stage = .serving ∧ Sys.Serving
      (((s.setSab s.bridge.data r).wrote (.data s.bridge.data) (some t)).runs (t.goto failed)) c
      (t.goto failed) := by
  obtain ⟨hb, hsuits, hdue, -⟩ := hs
  have hfailed : failed = .report engine.rangeError.text "error" true := by
    cases hm with
    | window h => rfl
    | @report message kind caught h =>
        rw [h] at hsuits
        rcases caught with _ | _
        · rfl
        · -- a report of the outer `catch` always fits
          have hroom := ha.room _ (ha.ctrl_lt hb.attached).2
          have hfits := hsuits rfl
          have hsome : (writeWindow (s.sab s.bridge.data)
              (metaBytes (errorMeta message kind)) []).2 =
              some (4 + (metaBytes (errorMeta message kind)).length + 0) := by
            refine writeWindow_eq_some.mpr ⟨rfl, ?_⟩
            omega
          rw [hw] at hsome
          cases hsome
  subst hfailed
  exact ⟨rfl, ⟨hb.attached, hb.chan, hb.data, hb.current⟩, fun _ ↦ engine.rangeError.fits, hdue,
    trivial⟩

/-- The length of the answer is stored. -/
theorem Sys.Serving.storeLength (hs : s.Serving c t) (hpc : t.pc = .storeLength off st next) :
    Sys.Serving (((s.setCtrl c fun ctrl ↦ { ctrl with length := toInt32 off }).wrote (.length c)
      (some t)).runs (t.goto (.storeState st next))) c (t.goto (.storeState st next)) := by
  obtain ⟨hb, -, hdue, hprog⟩ := hs
  rw [hpc] at hprog
  have hd : ((s.setCtrl c fun ctrl ↦ { ctrl with length := toInt32 off }).backend c).data =
      (s.backend c).data := Sys.data_setCtrl ..
  have hstate : (s.setCtrl c fun ctrl ↦ { ctrl with length := toInt32 off }).state c = s.state c :=
    Sys.state_setCtrl s c c _ fun _ ↦ rfl
  have hstatus : ((s.setCtrl c fun ctrl ↦ { ctrl with length := toInt32 off }).backend
      c).ctrl.status = (s.backend c).ctrl.status :=
    Sys.ctrl_setCtrl_keeps s c c _ Control.status fun _ ↦ rfl
  have hlength : ((s.setCtrl c fun ctrl ↦ { ctrl with length := toInt32 off }).backend
      c).ctrl.length = toInt32 off := by
    rw [Sys.ctrl_setCtrl_self]
  have hw : ∀ cell, cell ≠ .length c → Function.update s.writer (.length c) (some t) cell =
      s.writer cell := fun cell hne ↦ Function.update_of_ne hne ..
  refine ⟨⟨hb.attached, hb.chan, hb.data.trans hd.symm, hb.current⟩, trivial, ?_, off, ?_, ?_, t,
    ?_, rfl⟩
  · exact (congrArg SabState.answer hstate).trans hdue
  · exact (Sys.shows_congr hd hstatus rfl (hw (.data (s.backend c).data) nofun)
      (hw (.status c) nofun)).mpr hprog
  · exact hlength
  · exact Function.update_self ..

end

/-! ## The answer -/

theorem Emission.allows_next {p : Pick} {e : Emission} (h : p.kind = some e.kind) :
    p.Allows e.next := by
  rw [Emission.next]
  split
  · exact h
  · split
    · rename_i hs
      rw [Emission.kind, hs] at h
      exact h
    · trivial

/-- The invocation that stores STATE has an answer. -/
theorem Sys.Shows.answer {s : Sys} {c off : Nat} {p : Pick} {st : SabState} {next : Next}
    (h : s.Shows c p off st next) : st.answer = true ∧ p.Allows next := by
  cases st with
  | respChunk =>
      obtain ⟨t, e, -, -, -, -, hk, rfl, -⟩ := h
      exact ⟨rfl, Emission.allows_next hk⟩
  | respError =>
      obtain ⟨rfl, -⟩ := h
      exact ⟨rfl, trivial⟩
  | respEnd =>
      obtain ⟨rfl, -⟩ := h
      exact ⟨rfl, trivial⟩
  | idle | reqReady | chunkAck => exact h.elim

theorem Sys.Serving.answer {s : Sys} {c : Nat} {t : Task} {st : SabState} {next : Next}
    (h : s.Serving c t) (hpc : t.pc = .storeState st next) :
    st.answer = true ∧ t.pick.Allows next := by
  have hprog := h.progress
  rw [hpc] at hprog
  obtain ⟨off, hshows, -⟩ := hprog
  exact hshows.answer

theorem Ledger.current_of_engaged {s : Sys} (hl : Ledger s) {call : Call} {ph : Phase}
    (hw : s.worker.phase = some (call, ph)) (he : ph.engaged = true) : s.Current call := by
  have hrun := hl.running call ph hw
  cases ph <;> first
    | exact hrun
    | cases he

/-- The invocation stores STATE. -/
theorem Exchange.answer {s : Sys} {c : Nat} {t : Task} {st : SabState} {next : Next} {pc : At}
    (h : Exchange s c) (hl : Ledger s) (ha : Announced s) (hlive : s.live = [t])
    (ht : s.tasks = []) (hpc : t.pc = .storeState st next)
    (hpc' : next = .leave ∧ pc = .leaving ∨ next ≠ .leave ∧ pc = .awaitLoad next) :
    Exchange ((s.storeByMain t c st).runs (t.goto pc)) c := by
  have hmem := Sys.mem_live hlive
  have hstage : t.stage = .serving := by rw [Task.stage, hpc]; rfl
  obtain ⟨hb, -, hdue, hprog⟩ := h.serving t hmem hstage
  rw [hpc] at hprog
  obtain ⟨off, hshows, hmeasures⟩ := hprog
  obtain ⟨hans, hallows⟩ := hshows.answer
  set s' := (s.storeByMain t c st).runs (t.goto pc)
  have hstate : ∀ c', s'.state c' = if c' = c then st else s.state c' :=
    fun c' ↦ Sys.state_storeByMain s c c' t st
  have hself : s'.state c = st := (hstate c).trans (if_pos rfl)
  have hphase : s'.worker.phase = s.worker.phase := Worker.phase_wake ..
  have hlive' : s'.live = [t.goto pc] := Sys.live_runs _ _ ht
  have hpcStage : pc.stage ≠ .serving := by
    rcases hpc' with ⟨-, rfl⟩ | ⟨-, rfl⟩ <;> rintro ⟨⟩
  have hnotreq : ¬ s.Requesting c := fun hr ↦ (h.calm hr t hmem).1 hstage
  have hnotreq' : ¬ s'.Requesting c := by
    rwa [Sys.Requesting, hphase]
  have hbound : s'.Bound c t.pick := by
    refine ⟨hb.attached, hb.chan, hb.data.trans ?_, hb.current⟩
    exact (Sys.data_storeByMain s c c t st).symm
  refine ⟨?_, ?_, fun hr ↦ absurd hr hnotreq', ?_, ?_, ?_, ?_, ?_, ?_⟩
  · intro c' hle
    have hle' : s.backends ≤ c' := hle
    have := (ha.ctrl_lt hb.attached).1
    rw [hstate, if_neg (by omega)]
    exact h.unused c' hle'
  · intro c' hne
    rw [hstate, if_neg hne]
    exact h.old c' hne
  · intro t0 ht0 hst
    rw [hlive', List.mem_singleton] at ht0
    subst ht0
    exact absurd hst hpcStage
  · intro t0 ht0 next' hst _ _ _
    rw [hlive', List.mem_singleton] at ht0
    subst ht0
    refine ⟨hbound, ?_⟩
    rcases hpc' with ⟨-, rfl⟩ | ⟨-, rfl⟩
    · cases hst
    · cases hst
      exact hallows
  · intro call hh hc hcur
    have hh' : s.Holding call := by
      rcases hh with hm | ⟨ph, hw, hph⟩
      · exact .inl hm
      · rw [hphase] at hw
        exact .inr ⟨ph, hw, hph⟩
    have hshown := h.holding call hh' hc hcur
    rw [hshown] at hdue
    cases hdue
  · intro call ph hw hc he _
    rw [hphase] at hw
    obtain ⟨q, hp, hq, hr⟩ := hb.current
    have hcur := hl.current_of_engaged hw he
    rw [Sys.Current, hc, hq, Option.some.injEq] at hcur
    subst hcur
    refine ⟨t.pick, off, next, hp, hr, ⟨t, ?_, rfl⟩, ?_, ?_, ?_⟩
    · exact Function.update_self ..
    · rw [hself]
      refine (Sys.shows_congr (Sys.data_storeByMain s c c t st) ?_ rfl
        (Sys.writer_storeByMain s c t st (by simp))
        (Sys.writer_storeByMain s c t st (by simp))).mpr hshows
      exact Sys.ctrl_storeByMain s c c t st Control.status fun _ ↦ rfl
    · obtain ⟨hlen, t0, ht0, hpick⟩ := hmeasures
      have hne : Cell.length c ≠ .state c := by simp
      refine ⟨?_, t0, (Sys.writer_storeByMain s c t st hne).trans ht0, hpick⟩
      exact (Sys.ctrl_storeByMain s c c t st Control.length fun _ ↦ rfl).trans hlen
    · rcases hpc' with ⟨rfl, rfl⟩ | ⟨hne, rfl⟩
      · intro t0 ht0
        rw [hlive', List.mem_singleton] at ht0
        subst ht0
        rfl
      · cases next with
        | leave => exact absurd rfl hne
        | window e => exact ⟨_, hlive', rfl, rfl⟩
        | read resp => exact ⟨_, hlive', rfl, rfl⟩
  · intro hst _
    rw [hself] at hst
    rw [hst] at hans
    cases hans
  · intro call hw hc
    rw [hphase] at hw
    exact absurd ⟨call, _, hw, hc, rfl⟩ hnotreq

/-! ## The guard -/

/-- What an invocation reads at its guard is the request that is up. -/
theorem Exchange.reads {s : Sys} {c : Nat} (h : Exchange s c) (hlive : s.live = [])
    (hst : s.state c = .reqReady) (hp : s.Pickable c) :
    ∃ q, s.posted c = some q ∧ (s.pickAt c).Reads q := by
  rcases h.request hst hp.posted with ⟨t, ht, -⟩ | ⟨q, hq, hcar⟩
  · rw [hlive] at ht
    cases ht
  · obtain ⟨hh, hb⟩ := hp.sized q hq
    refine ⟨q, hq, ?_⟩
    have := readRequest_of_holds hcar hh hb
    rwa [Sys.region, ← hp.fresh] at this

/-- An invocation passes its guard. -/
theorem Exchange.pick {engine : Engine} {s s' : Sys} {c : Nat} {pc : At} (h : Exchange s c)
    (hlive : s.live = []) (hc : s.bridge.ctrl = some c) (hst : s.state c = .reqReady)
    (hp : s.Pickable c) (hstarts : (s.pickAt c).Starts engine pc) (hk : SameMemory s s')
    (hworker : s'.worker = s.worker) (hsus : s'.suspended = s.suspended)
    (hposted : s'.posted = s.posted) (hctrl : s'.bridge.ctrl = s.bridge.ctrl)
    (hdata : s'.bridge.data = s.bridge.data) (hlive' : s'.live = [⟨s.pickAt c, false, pc⟩]) :
    Exchange s' c := by
  obtain ⟨q, hq, hr⟩ := h.reads hlive hst hp
  have hpc : pc = .fetching := by
    cases hstarts with
    | fetch _ _ => rfl
    | unreadable hn =>
        rw [Pick.Reads, hn] at hr
        cases hr
    | null hn =>
        rw [Pick.Reads, hn] at hr
        cases hr
  subst hpc
  refine h.main hk.backends hk.state (by rw [hworker]) hsus hposted ?_ ?_ ?_ ?_ ?_ ?_
  · exact fun hr ↦ absurd hr hp.posted
  · intro t ht _
    rw [hlive', List.mem_singleton] at ht
    subst ht
    refine ⟨⟨hctrl.trans hc, rfl, ?_, q, hq, ?_, hr⟩, trivial, ?_, trivial⟩
    · rw [hdata, hk.buffer]
      exact hp.fresh
    · rw [hposted]
      exact hq
    · rw [hk.state, hst]
      rfl
  · intro t ht next hst'
    rw [hlive', List.mem_singleton] at ht
    subst ht
    cases hst'
  · intro _ _ _ _ ha
    rw [hst] at ha
    cases ha
  · exact fun _ _ ↦ ⟨_, by rw [hlive']; exact List.mem_singleton.mpr rfl, rfl⟩
  · exact fun q _ hcar ↦ hk.carries.mpr hcar

/-! ## All steps of the main thread -/

theorem MainMove.exchange {engine : Engine} {s s' : Sys} (hm : MainMove engine s s')
    (ho : s.current ≠ .idle → s.Orderly .main) (hs : Shape s) (hl : Ledger s) (ha : Announced s)
    (h : Exchange s s.newest) : Exchange s' s'.newest := by
  cases hm with
  | @attach c d queue hi hq =>
      -- whoever is bound has the newest buffer, and nothing is announced any more
      have hno : ∀ p, ¬ s.Bound s.newest p := fun p ↦ ha.not_bound rfl hq
      refine h.main rfl (fun _ ↦ rfl) rfl rfl rfl (fun _ hcalm ↦ hcalm) ?_ ?_ ?_ (fun _ hs ↦ hs)
        fun _ _ hcar ↦ hcar
      · exact fun t ht hst ↦ absurd (h.serving t ht hst).bound (hno _)
      · exact fun t ht next hst h1 h2 h3 ↦ absurd (h.awaiting t ht next hst h1 h2 h3).1 (hno _)
      · rintro call p off next - - ⟨h1, h2, h3, h4, h5, h6⟩
        have hk : SameMemory s { s with
            queue, bridge := { s.bridge with ctrl := some c, data := d } } := .of_eq rfl rfl rfl rfl
        exact ⟨h1, h2, h3, hk.shows.mpr h4, hk.measures.mpr h5, (Sys.Follows.of_live rfl).mpr h6⟩
  | nudge hi hq =>
      have hlive : ∀ q : List Message, Sys.live { s with queue := q, current := .guard } = s.live :=
        fun q ↦ by rw [Sys.live, Sys.live, hi]; rfl
      exact h.private (.of_eq rfl rfl rfl rfl rfl (hlive _) rfl) Iff.rfl h.holding
        (fun call0 ph hw hc0 he ↦ ⟨call0, ph, hw, hc0, he, rfl, rfl⟩) fun _ hw _ ↦ hw
  | decline hg _ =>
      have hlive : Sys.live { s with current := .idle } = s.live := by
        rw [Sys.live, Sys.live, hg]
        rfl
      exact h.private (.of_eq rfl rfl rfl rfl rfl hlive rfl) Iff.rfl h.holding
        (fun call0 ph hw hc0 he ↦ ⟨call0, ph, hw, hc0, he, rfl, rfl⟩) fun _ hw _ ↦ hw
  | @pick c current tasks pc hg hlive hb hc hst hp hplaced =>
      have hnew : c = s.newest := by
        by_contra hne
        have := h.old c hne
        rw [hst] at this
        cases this
      have hpick : s.Pickable c := ho (by rw [hg]; simp) hg c hb hc hst
      change Exchange _ s.newest
      rw [← hnew] at h ⊢
      exact h.pick hlive hc hst hpick hp (.of_eq rfl rfl rfl rfl) rfl rfl rfl rfl rfl hplaced.live
  | task hlive hg hc hm hplaced =>
      exact h.task hm hlive hc (.of_eq rfl rfl rfl rfl) rfl rfl rfl rfl hplaced.live
  | @store c off t info payload status st next failed hr ht hc hm hw =>
      have hlive := hs.live_of_run hr
      have hserv := h.serving t (Sys.mem_live hlive) hm.stage
      cases hc.symm.trans hserv.bound.attached
      exact h.part hlive hm.stage rfl (Sys.state_stored s _ t _ status) rfl rfl rfl
        (Sys.live_runs _ _ ht) rfl fun _ ↦ hserv.stored hm hw
  | @overflow c t info payload status st next failed hr ht hc hm hw =>
      have hlive := hs.live_of_run hr
      have hserv := h.serving t (Sys.mem_live hlive) hm.stage
      cases hc.symm.trans hserv.bound.attached
      obtain ⟨hfailed, hserv'⟩ := hserv.overflow ha hm
        (writeWindow (s.sab s.bridge.data) (metaBytes info) payload).1 hw
      exact h.part hlive hm.stage rfl (fun _ ↦ rfl) rfl rfl rfl (Sys.live_runs _ _ ht)
        (show (t.goto failed).stage = _ from hfailed) fun _ ↦ hserv'
  | @storeLength c off t st next hr ht hc hpc =>
      have hlive := hs.live_of_run hr
      have hstage : t.stage = .serving := by rw [Task.stage, hpc]; rfl
      have hserv := h.serving t (Sys.mem_live hlive) hstage
      cases hc.symm.trans hserv.bound.attached
      refine h.part hlive hstage rfl (fun c' ↦ ?_) rfl rfl rfl (Sys.live_runs _ _ ht) rfl
        fun _ ↦ hserv.storeLength hpc
      exact Sys.state_setCtrl s s.newest c' (fun ctrl ↦ { ctrl with length := toInt32 off })
        fun _ ↦ rfl
  | @storeState c t st next pc hr ht hc hpc hpc' =>
      have hlive := hs.live_of_run hr
      have hstage : t.stage = .serving := by rw [Task.stage, hpc]; rfl
      have hserv := h.serving t (Sys.mem_live hlive) hstage
      cases hc.symm.trans hserv.bound.attached
      exact h.answer hl ha hlive ht hpc hpc'
  | @leave c t hr ht hc hpc =>
      have hlive := hs.live_of_run hr
      have hmem := Sys.mem_live hlive
      have hstage : t.stage = .leaving := by rw [Task.stage, hpc]; rfl
      have hlive' := Sys.live_leave s c ht
      refine h.main rfl (fun _ ↦ rfl) rfl rfl rfl ?_ ?_ ?_ ?_ ?_ fun _ _ hcar ↦ hcar
      · intro _ _ t0 ht0
        rw [hlive'] at ht0
        cases ht0
      · intro t0 ht0
        rw [hlive'] at ht0
        cases ht0
      · intro t0 ht0
        rw [hlive'] at ht0
        cases ht0
      · rintro call p off next - - ⟨h1, h2, h3, h4, h5, h6⟩
        have hk : SameMemory s { s with
            bridge := { s.bridge with busy := false }
            current := if s.state c = .reqReady then .guard else .idle } := .of_eq rfl rfl rfl rfl
        refine ⟨h1, h2, h3, hk.shows.mpr h4, hk.measures.mpr h5, ?_⟩
        have follows : next = .leave := by
          cases next with
          | leave => rfl
          | window e | read resp =>
              obtain ⟨t0, ht0, -, hst⟩ := h6
              rw [hlive] at ht0
              cases ht0
              rw [hstage] at hst
              cases hst
        subst follows
        intro t0 ht0
        rw [hlive'] at ht0
        cases ht0
      · rintro _ ⟨t0, ht0, hst⟩
        rw [hlive, List.mem_singleton] at ht0
        subst ht0
        rw [hstage] at hst
        cases hst

theorem Move.exchange {engine : Engine} {s s' : Sys} {a : Action} (hm : Move engine s a s')
    (ho : s.Orderly a) (hr : s.OnNewest a) (hs : Shape s) (hl : Ledger s) (hn : OnlyNewest s)
    (ha : Announced s) (h : Exchange s s.newest) : Exchange s' s'.newest := by
  cases hm with
  | worker hm => exact hm.exchange ho hr hs hl hn ha h
  | main _ hmain hm => exact hm.exchange (fun hne ↦ hmain hne ▸ ho) hs hl ha h

end ConnectWeb.Sab
