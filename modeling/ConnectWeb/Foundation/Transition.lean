import Mathlib.Order.Basic

/-!
# Guarded runs of a labelled transition system

A system steps by labelled actions.  A *guard* is a condition on the state before
a step and on its label; a run is *guarded* when every step meets it.  Results
about all runs of a system use the trivial guard, results about the runs that keep
a discipline use the discipline as the guard, and `Reachable.mono` moves between
them.
-/

namespace ConnectWeb

universe u v

/-- A labelled transition system with deterministic labels: the label resolves
every choice, so a step is a partial function. -/
structure System (σ : Type u) (α : Type v) where
  /-- The initial states. -/
  init : σ → Prop
  /-- One step. -/
  step : σ → α → Option σ

namespace System

variable {σ : Type u} {α : Type v} (S : System σ α)

/-- A condition on the state before a step and on the step's label. -/
abbrev Guard (σ : Type u) (α : Type v) := σ → α → Prop

/-- The states reached by runs all of whose steps meet the guard. -/
inductive Reachable (ok : Guard σ α) : σ → Prop
  /-- Every initial state is reached. -/
  | init {s : σ} : S.init s → Reachable ok s
  /-- A guarded step from a reached state reaches its successor. -/
  | step {s s' : σ} {a : α} : Reachable ok s → ok s a → S.step s a = some s' → Reachable ok s'

variable {S} {ok ok' : Guard σ α}

/-- Weakening the guard keeps every reached state. -/
theorem Reachable.mono (h : ∀ s a, ok s a → ok' s a) {s : σ} (hs : S.Reachable ok s) :
    S.Reachable ok' s := by
  induction hs with
  | init hi => exact .init hi
  | step _ ha hstep ih => exact .step ih (h _ _ ha) hstep

/-- The invariant rule: what holds initially and is kept by every guarded step
holds of every reached state. -/
theorem Reachable.invariant {Inv : σ → Prop} (hinit : ∀ s, S.init s → Inv s)
    (hstep : ∀ s a s', Inv s → ok s a → S.step s a = some s' → Inv s') {s : σ}
    (hs : S.Reachable ok s) : Inv s := by
  induction hs with
  | init hi => exact hinit _ hi
  | step _ ha hstep' ih => exact hstep _ _ _ ih ha hstep'

/-- The invariant rule on top of an invariant that is already established. -/
theorem Reachable.invariant_of {Base Inv : σ → Prop}
    (hbase : ∀ s, S.Reachable ok s → Base s) (hinit : ∀ s, S.init s → Inv s)
    (hstep : ∀ s a s', Base s → Base s' → Inv s → ok s a → S.step s a = some s' → Inv s')
    {s : σ} (hs : S.Reachable ok s) : Inv s := by
  induction hs with
  | init hi => exact hinit _ hi
  | step hr ha hstep' ih =>
      exact hstep _ _ _ (hbase _ hr) (hbase _ (.step hr ha hstep')) ih ha hstep'

/-- A guard may be strengthened by whatever holds of the states it reaches. -/
theorem Reachable.guard_of {Inv : σ → Prop} (hinv : ∀ s, S.Reachable ok s → Inv s)
    (h : ∀ s a, Inv s → ok s a → ok' s a) {s : σ} (hs : S.Reachable ok s) :
    S.Reachable ok' s := by
  induction hs with
  | init hi => exact .init hi
  | step hr ha hstep ih => exact .step ih (h _ _ (hinv _ hr) ha) hstep

/-- Run a list of labels as long as a decidable guard is met. -/
def runWhile (S : System σ α) (ok : Guard σ α) [∀ s a, Decidable (ok s a)] :
    σ → List α → Option σ
  | s, [] => some s
  | s, a :: as => if ok s a then (S.step s a).bind fun s' => S.runWhile ok s' as else none

/-- The first step of a run. -/
theorem runWhile_cons [∀ s a, Decidable (ok s a)] {s s' : σ} {a : α} (as : List α) (hok : ok s a)
    (h : S.step s a = some s') : S.runWhile ok s (a :: as) = S.runWhile ok s' as := by
  rw [System.runWhile, if_pos hok, h]
  rfl

theorem runWhile_append [∀ s a, Decidable (ok s a)] {s s' : σ} {as : List α} (bs : List α)
    (h : S.runWhile ok s as = some s') : S.runWhile ok s (as ++ bs) = S.runWhile ok s' bs := by
  induction as generalizing s with
  | nil =>
      cases h
      rfl
  | cons a as ih =>
      rw [System.runWhile] at h
      split at h
      · rename_i hok
        obtain ⟨t, ht, hrun⟩ := Option.bind_eq_some_iff.mp h
        rw [List.cons_append, System.runWhile_cons _ hok ht]
        exact ih hrun
      · cases h

/-- Guarded runs can be computed. -/
theorem Reachable.runWhile [∀ s a, Decidable (ok s a)] {s s' : σ} {as : List α}
    (hs : S.Reachable ok s) (h : S.runWhile ok s as = some s') : S.Reachable ok s' := by
  induction as generalizing s with
  | nil =>
      cases h
      exact hs
  | cons a as ih =>
      rw [System.runWhile] at h
      split at h
      · rename_i hok
        obtain ⟨t, ht, hrun⟩ := Option.bind_eq_some_iff.mp h
        exact ih (.step hs hok ht) hrun
      · cases h

/-- A computed run that ends in a state that passes a test. -/
theorem exists_reachable (S : System σ α) (ok : Guard σ α) [∀ s a, Decidable (ok s a)] {s : σ}
    (as : List α) (p : σ → Bool) (hs : S.init s) (h : (S.runWhile ok s as).any p = true) :
    ∃ s', S.Reachable ok s' ∧ p s' = true := by
  cases hrun : S.runWhile ok s as with
  | none =>
      rw [hrun] at h
      cases h
  | some s' =>
      rw [hrun] at h
      exact ⟨s', Reachable.runWhile (.init hs) hrun, h⟩

end System

end ConnectWeb
