import Mathlib.Algebra.GroupWithZero.Nat
import ConnectWeb.Foundation.Transition

/-!
# Amortized runs

What a run costs, step by step, is paid by what its labels bring in and by a *potential* of the
state that it starts from: a step may take out of the potential, but not more than is there.
With the steps that the system takes by itself as the cost, and an income only where something
comes from outside, this bounds how long a system goes on without its surroundings.
-/

namespace ConnectWeb

universe u v

namespace System

variable {σ : Type u} {α : Type v} (S : System σ α)

/-- A guarded run from one state to another. -/
inductive Path (ok : Guard σ α) : σ → List α → σ → Prop
  | nil {s : σ} : Path ok s [] s
  | cons {s s' s'' : σ} {a : α} {as : List α} (hok : ok s a) (h : S.step s a = some s')
      (hp : Path ok s' as s'') : Path ok s (a :: as) s''

/-- None of some labels is enabled. -/
def AtRest (own : α → Bool) (s : σ) : Prop := ∀ a, own a = true → S.step s a = none

variable {S} {ok : Guard σ α} {s s' : σ} {as : List α}

theorem Path.reachable (hs : S.Reachable ok s) (h : S.Path ok s as s') : S.Reachable ok s' := by
  induction h with
  | nil => exact hs
  | cons hok hstep _ ih => exact ih (.step hs hok hstep)

/-- The potential rule, where the cost is the number of steps by a system's own labels. -/
theorem Path.countP_add_le (own : α → Bool) (income : α → Nat) (potential : σ → Nat)
    (hstep : ∀ s a s', S.Reachable ok s → ok s a → S.step s a = some s' →
      (if own a then 1 else 0) + potential s' ≤ potential s + income a)
    (hs : S.Reachable ok s) (h : S.Path ok s as s') :
    as.countP own + potential s' ≤ potential s + (as.map income).sum := by
  induction h with
  | nil => exact Nat.le_of_eq (Nat.zero_add _)
  | @cons s s1 s2 a as hok hst _ ih =>
      have hfirst := hstep s a s1 hs hok hst
      have hrest := ih (.step hs hok hst)
      rw [List.countP_cons, List.map_cons, List.sum_cons]
      omega

end System

end ConnectWeb
