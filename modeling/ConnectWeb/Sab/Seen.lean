import Mathlib.Data.List.Infix
import ConnectWeb.Sab.Contract
import ConnectWeb.Sab.Refinement

/-!
# What one sees of a run

The history of a run as the service shows it, against the record that a state carries.  The one
has the other in it, so that what the service says of a call holds of what is recorded of it.
-/

namespace ConnectWeb.Sab

/-! ## The history and the record -/

/-- What a state records, too. -/
def Op.recorded : Op → Bool
  | .fetched _ _ | .buffered _ _ | .chunk _ _ | .exhausted _ | .yielded _ _ | .returned _ _ => true
  | .asked _ | .sent _ | .failed _ _ _ | .abandoned _ => false

section
variable {engine : Engine} {s s' : Sys} {ops : History} {q : Posted}

theorem Event.op_recorded {e : Event} {op : Op} (h : e.op = some op) : op.recorded = true := by
  cases e with
  | expired => cases h
  | fetched p _ | buffered p _ | chunk p _ | exhausted p =>
      obtain ⟨q, -, rfl⟩ := Option.map_eq_some_iff.mp h
      rfl
  | yielded _ _ | returned _ _ _ =>
      cases h
      rfl

theorem CallMove.log {call : Call} {pc : Pc} (hm : CallMove s call pc s') : s.log <+: s'.log := by
  cases hm with
  | unfit _ | yield _ _ | keeps _ | resetStore => exact List.prefix_append _ _
  | _ => exact List.prefix_rfl

/-- What is recorded stays. -/
theorem Move.log {a : Action} (hm : Move engine s a s') : s.log <+: s'.log := by
  cases hm with
  | main _ _ hm =>
      obtain ⟨events, h⟩ := hm.reads
      exact ⟨events, h.log.symm⟩
  | worker hm =>
      cases hm with
      | call _ _ hm => exact hm.log
      | expireFirst _ _ _ => exact (List.prefix_append _ _).trans (List.prefix_append _ _)
      | expire _ _ _ => exact List.prefix_append _ _
      | _ => exact List.prefix_rfl

/-- Of what a step shows, the record has what was recorded. -/
theorem Sys.observed_recorded (s : Sys) (a : Action) (s' : Sys) :
    (s.observed a s').filter Op.recorded = s.records s' := by
  have habandons : (s.abandons a).filter Op.recorded = [] := by
    refine List.filter_eq_nil_iff.mpr fun op hop ↦ ?_
    unfold abandons at hop
    split at hop
    · obtain ⟨call, -, rfl⟩ := List.mem_map.mp hop
      exact Bool.false_ne_true
    · cases hop
  have hasks : (s.asks s').filter Op.recorded = [] := by
    refine List.filter_eq_nil_iff.mpr fun op hop ↦ ?_
    unfold asks at hop
    split at hop
    · cases hop
    · obtain ⟨q, -, rfl⟩ := List.mem_map.mp hop
      exact Bool.false_ne_true
  have hsends : (s.sends s').filter Op.recorded = [] := by
    refine List.filter_eq_nil_iff.mpr fun op hop ↦ ?_
    obtain ⟨q, -, rfl⟩ := List.mem_map.mp hop
    exact Bool.false_ne_true
  have hfails : (if a.byMain then s'.current.fails else []).filter Op.recorded = [] := by
    refine List.filter_eq_nil_iff.mpr fun op hop ↦ ?_
    split at hop
    · unfold Current.fails at hop
      split at hop
      · obtain ⟨q, -, rfl⟩ := List.mem_map.mp hop
        exact Bool.false_ne_true
      · cases hop
    · cases hop
  have hrecords : (s.records s').filter Op.recorded = s.records s' := by
    refine List.filter_eq_self.mpr fun op hop ↦ ?_
    obtain ⟨e, -, he⟩ := List.mem_filterMap.mp hop
    exact e.op_recorded he
  rw [observed, List.filter_append, List.filter_append, List.filter_append, List.filter_append,
    habandons, hasks, hsends, hfails, hrecords, List.append_nil]
  rfl

/-- The history has what was recorded, in order. -/
theorem recorded_of_observed {ok : System.Guard Sys Action}
    (h : (system engine).Observed ok Sys.observed ops s) :
    ops.filter Op.recorded = s.log.filterMap Event.op := by
  induction h with
  | init hi =>
      obtain rfl := hi
      rfl
  | @step ops s s' a hs hok hstep ih =>
      obtain ⟨events, hlog⟩ := (Move.of_step (shape_of_reachable hs.reachable) hstep).log
      rw [List.filter_append, ih, Sys.observed_recorded, Sys.records, ← hlog, List.drop_left,
        List.filterMap_append]

theorem mem_of_recorded (h : ops.filter Op.recorded = s.log.filterMap Event.op) {e : Event}
    {op : Op} (he : e ∈ s.log) (hop : e.op = some op) : op ∈ ops := by
  have hmem : op ∈ ops.filter Op.recorded := by
    rw [h]
    exact List.mem_filterMap.mpr ⟨e, he, hop⟩
  exact List.mem_of_mem_filter hmem

theorem exists_recorded (h : ops.filter Op.recorded = s.log.filterMap Event.op) {op : Op}
    (hmem : op ∈ ops) (hop : op.recorded = true) : ∃ e ∈ s.log, e.op = some op := by
  have hmem' := List.mem_filter.mpr ⟨hmem, hop⟩
  rw [h] at hmem'
  exact List.mem_filterMap.mp hmem'

/-- The reader of the response to a request has come to its end. -/
def Sys.Exhausted (s : Sys) (q : Posted) : Prop := ∃ p, p.pending = some q ∧ .exhausted p ∈ s.log

theorem exhausted_iff_of_recorded (h : ops.filter Op.recorded = s.log.filterMap Event.op) :
    s.Exhausted q ↔ .exhausted q ∈ ops := by
  constructor
  · rintro ⟨p, hpend, hmem⟩
    exact mem_of_recorded h hmem (congrArg (Option.map Op.exhausted) hpend)
  · intro hex
    obtain ⟨e, hmem, hop⟩ := exists_recorded h hex rfl
    cases e with
    | exhausted p =>
        obtain ⟨q', hpend, heq⟩ := Option.map_eq_some_iff.mp hop
        cases heq
        exact ⟨p, hpend, hmem⟩
    | expired => cases hop
    | fetched p _ | buffered p _ | chunk p _ =>
        obtain ⟨q', -, heq⟩ := Option.map_eq_some_iff.mp hop
        cases heq
    | yielded _ _ | returned _ _ _ => cases hop

/-! ## Ends of streams -/

/-- A call that returns does so as of the generation of its backend. -/
theorem WorkerMove.returned {a : Action} (hm : WorkerMove s a s') {call : Call} {o : Outcome}
    {latest : Nat} (h : .returned call o latest ∈ s'.log) :
    .returned call o latest ∈ s.log ∨ (∃ ph, s.worker.phase = some (call, ph)) ∧
      latest = (s'.backend call.chan).gen := by
  have ends : ∀ {t : Sys} {call0 : Call} {pc : Pc} {o0 : Outcome}, s.worker = .run call0 pc →
      .returned call o latest ∈ (t.finish call0 o0).log →
      .returned call o latest ∈ t.log ∨ (∃ ph, s.worker.phase = some (call, ph)) ∧
        latest = ((t.finish call0 o0).backend call.chan).gen := by
    intro t call0 pc o0 hw hmem
    refine (List.mem_append.mp hmem).imp_right fun heq ↦ ?_
    cases List.mem_singleton.mp heq
    exact ⟨⟨pc.phase, by rw [hw]; rfl⟩, rfl⟩
  cases hm with
  | call _ hw hm =>
      cases hm with
      | unfit _ | keeps _ | resetStore => exact ends hw h
      | yield _ _ => exact .inl ((List.mem_append.mp h).resolve_right (by simp))
      | _ => exact .inl h
  | expireFirst hw _ _ =>
      refine (ends hw h).imp_left fun hmem ↦ ?_
      exact (List.mem_append.mp hmem).resolve_right (by simp)
  | expire _ _ _ => exact .inl ((List.mem_append.mp h).resolve_right (by simp))
  | _ => exact .inl h

/-- What one sees of a run in which requests fit. -/
abbrev Seen (engine : Engine) : History → Sys → Prop :=
  (system engine).Observed (fun s a ↦ s.Single a ∧ s.Fitting a ∧ Sys.Counted a) Sys.observed

theorem Seen.delivering (h : Seen engine ops s) : Delivering s :=
  delivering_of_fitting (System.Observed.reachable h)

theorem Seen.keeps (h : Seen engine ops s) :
    ∃ a, Service.Keeps ops a ∧ a.latest.map Prod.fst = s.posted 0 := by
  obtain ⟨a, hrun, hserves⟩ := serves_of_observed h
  exact ⟨a, Service.Keeps.init.run hrun, hserves.latest⟩

/-- A generator that stops before a newer request is exhausted. -/
theorem Seen.exhausted (h : Seen engine ops s) {call : Call}
    (he : .returned call .stop call.gen ∈ s.log) : s.Exhausted call.posted := by
  induction h with
  | init hi =>
      obtain rfl := hi
      cases he
  | @step ops s s' a hs hok hstep ih =>
      have hs' : Seen engine _ s' := .step hs hok hstep
      have hm := Move.of_step (shape_of_reachable hs.reachable) hstep
      have old : .returned call .stop call.gen ∈ s.log → s'.Exhausted call.posted := fun he ↦
        (ih he).imp fun _ hp ↦ ⟨hp.1, hm.log.subset hp.2⟩
      cases hm with
      | main _ _ hmain =>
          obtain ⟨events, hreads⟩ := hmain.reads
          rw [hreads.log, List.mem_append] at he
          exact old (he.resolve_right (hreads.returned _ _ _))
      | worker hworker =>
          rcases hworker.returned he with he' | ⟨⟨ph, hcall⟩, hlatest⟩
          · exact old he'
          have hd := Seen.delivering hs
          have hd' := hs'.delivering
          have hzero : call.chan = 0 :=
            hd.paced.sound.ledger.chan_eq_zero (Sys.mem_calls_of_phase hcall) hd.single
          have hrecorded := recorded_of_observed hs'
          obtain ⟨a', hkeeps, hposted⟩ := hs'.keeps
          rcases (hkeeps.earned _ _ (mem_of_recorded hrecorded he rfl)).2 with
            ⟨hex, -⟩ | ⟨q', hasked, hlt⟩
          · exact (exhausted_iff_of_recorded hrecorded).mpr hex
          · -- the newest request is not newer than the newest call
            obtain ⟨l, hl, hle⟩ := hkeeps.bound _ hasked
            rw [hl] at hposted
            have hgen := (hd'.paced.sound.ledger.word 0 l.1 hposted.symm).2
            have hnewer : q'.gen ≤ l.1.gen := by
              rcases hle with heq | hlt'
              · exact (congrArg Posted.gen heq).le
              · exact hlt'.le
            rw [hzero] at hlatest
            have hlt' : call.gen < q'.gen := hlt
            omega

/-- A generator that raises is not exhausted. -/
theorem Seen.not_exhausted (h : Seen engine ops s) {call : Call} {e : WorkerExc} {latest : Nat}
    (he : .returned call (.raised e) latest ∈ s.log) : ¬ s.Exhausted call.posted := by
  have hrecorded := recorded_of_observed h
  obtain ⟨a, hkeeps, -⟩ := h.keeps
  rw [exhausted_iff_of_recorded hrecorded]
  exact hkeeps.raised _ e (mem_of_recorded hrecorded he rfl)

end

end ConnectWeb.Sab
