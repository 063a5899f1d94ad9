import ConnectWeb.Foundation.Transition

/-!
# What an observer sees of a run

Each step of a system shows an observer a list of labels.  When these are the labels of a
second system, the first one *implements* the second if everything that is seen of a guarded run
is a run of the second system.  The rule for it is a forward simulation, on top of whatever is
known of the states that guarded runs reach.
-/

namespace ConnectWeb

universe u v

namespace System

variable {σ τ : Type u} {α β : Type v}

/-- The state behind a list of steps. -/
def run (T : System τ β) (t : τ) (bs : List β) : Option τ := bs.foldlM T.step t

section
variable (T : System τ β) (t : τ)

@[simp] theorem run_nil : T.run t [] = some t := rfl

@[simp] theorem run_cons (b : β) (bs : List β) :
    T.run t (b :: bs) = (T.step t b).bind fun t' ↦ T.run t' bs := rfl

theorem run_append (bs cs : List β) :
    T.run t (bs ++ cs) = (T.run t bs).bind fun t' ↦ T.run t' cs := List.foldlM_append

theorem run_singleton (b : β) : T.run t [b] = T.step t b :=
  Option.bind_fun_some _

end

/-- What is seen of a step. -/
abbrev Observation (σ : Type u) (α β : Type v) := σ → α → σ → List β

/-- The guarded runs, with what is seen of them. -/
inductive Observed (S : System σ α) (ok : Guard σ α) (obs : Observation σ α β) :
    List β → σ → Prop
  /-- Nothing is seen of an initial state. -/
  | init {s : σ} : S.init s → Observed S ok obs [] s
  /-- A guarded step is seen behind the run up to it. -/
  | step {bs : List β} {s s' : σ} {a : α} : Observed S ok obs bs s → ok s a →
      S.step s a = some s' → Observed S ok obs (bs ++ obs s a s') s'

variable {S : System σ α} {T : System τ β} {ok : Guard σ α} {obs : Observation σ α β}

theorem Observed.reachable {bs : List β} {s : σ} (h : S.Observed ok obs bs s) :
    S.Reachable ok s := by
  induction h with
  | init hi => exact .init hi
  | step _ hok hstep ih => exact .step ih hok hstep

theorem Reachable.observed (obs : Observation σ α β) {s : σ} (h : S.Reachable ok s) :
    ∃ bs, S.Observed ok obs bs s := by
  induction h with
  | init hi => exact ⟨[], .init hi⟩
  | step _ hok hstep ih =>
      obtain ⟨bs, hbs⟩ := ih
      exact ⟨_, .step hbs hok hstep⟩

/-- The simulation rule: what is seen of a step is a run between related states. -/
theorem Observed.simulated {Base : σ → Prop} {R : σ → τ → Prop} {t0 : τ}
    (hbase : ∀ s, S.Reachable ok s → Base s) (hinit : ∀ s, S.init s → R s t0)
    (hstep : ∀ s a s' t, Base s → Base s' → R s t → ok s a → S.step s a = some s' →
      ∃ t', T.run t (obs s a s') = some t' ∧ R s' t')
    {bs : List β} {s : σ} (h : S.Observed ok obs bs s) :
    ∃ t, T.run t0 bs = some t ∧ R s t := by
  induction h with
  | init hi => exact ⟨t0, rfl, hinit _ hi⟩
  | @step bs s s' a hs hok hstep' ih =>
      obtain ⟨t, hrun, hr⟩ := ih
      have hreach := hs.reachable
      obtain ⟨t', hrun', hr'⟩ := hstep s a s' t (hbase s hreach)
        (hbase s' (.step hreach hok hstep')) hr hok hstep'
      refine ⟨t', ?_, hr'⟩
      rw [run_append, hrun]
      exact hrun'

/-- The rule for a refinement mapping: each step is one step of the second system, or none. -/
theorem Reachable.mapped {S : System σ α} {T : System τ β} {ok : Guard σ α} {ok' : Guard τ β}
    {Inv : σ → Prop} (abs : σ → τ) (hinit : ∀ s, S.init s → Inv s ∧ T.init (abs s))
    (hstep : ∀ s a s', Inv s → T.Reachable ok' (abs s) → ok s a → S.step s a = some s' →
      Inv s' ∧ (abs s' = abs s ∨ ∃ b, ok' (abs s) b ∧ T.step (abs s) b = some (abs s')))
    {s : σ} (h : S.Reachable ok s) : Inv s ∧ T.Reachable ok' (abs s) := by
  induction h with
  | init hi => exact ⟨(hinit _ hi).1, .init (hinit _ hi).2⟩
  | step _ hok hs ih =>
      obtain ⟨hinv, hreach⟩ := ih
      obtain ⟨hinv', heq | ⟨b, hok', hb⟩⟩ := hstep _ _ _ hinv hreach hok hs
      · exact ⟨hinv', heq ▸ hreach⟩
      · exact ⟨hinv', .step hreach hok' hb⟩

end System

end ConnectWeb
