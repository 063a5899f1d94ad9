/-!
# What one party sees of a machine

A machine answers every input.  A *view* says which inputs are someone's, and what they are to
that party.  If a smaller machine keeps up with the large one on these inputs, and the others do
not matter to it, then the party cannot tell the two machines apart: this is the unwinding
theorem of noninterference, with a view that may depend on the state.
-/

namespace ConnectWeb

universe u v w

/-- A machine that answers every input. -/
structure Machine (σ : Type u) (α : Type v) (ω : Type w) where
  step : σ → α → ω × σ

namespace Machine

variable {σ τ : Type u} {α β : Type v} {ω : Type w}

/-- The state behind some inputs. -/
def after (M : Machine σ α ω) (s : σ) (as : List α) : σ := as.foldl (fun s a ↦ (M.step s a).2) s

/-- Each input with its answer. -/
def trace (M : Machine σ α ω) : σ → List α → List (α × ω)
  | _, [] => []
  | s, a :: as => (a, (M.step s a).1) :: M.trace (M.step s a).2 as

/-- The inputs in view, with their answers. -/
def seen (M : Machine σ α ω) (view : σ → α → Option β) : σ → List α → List (β × ω)
  | _, [] => []
  | s, a :: as =>
      (view s a).toList.map (·, (M.step s a).1) ++ M.seen view (M.step s a).2 as

@[simp] theorem after_cons (M : Machine σ α ω) (s : σ) (a : α) (as : List α) :
    M.after s (a :: as) = M.after (M.step s a).2 as := rfl

/-- The smaller machine keeps up on what is in view, and what is not in view leaves it. -/
structure Unwinds (M : Machine σ α ω) (N : Machine τ β ω) (view : σ → α → Option β)
    (R : σ → τ → Prop) : Prop where
  hidden : ∀ {s t a}, R s t → view s a = none → R (M.step s a).2 t
  visible : ∀ {s t a b}, R s t → view s a = some b →
    (M.step s a).1 = (N.step t b).1 ∧ R (M.step s a).2 (N.step t b).2

namespace Unwinds

variable {M : Machine σ α ω} {N : Machine τ β ω} {view : σ → α → Option β} {R : σ → τ → Prop}
  {s : σ} {t : τ}

/-- What is seen of the large machine is a run of the smaller one. -/
theorem seen_eq (h : Unwinds M N view R) (hR : R s t) (as : List α) :
    M.seen view s as = N.trace t ((M.seen view s as).map Prod.fst) := by
  induction as generalizing s t with
  | nil => rfl
  | cons a as ih =>
      cases hv : view s a with
      | none =>
          rw [seen, hv]
          exact ih (h.hidden hR hv)
      | some b =>
          obtain ⟨hout, hR'⟩ := h.visible hR hv
          rw [seen, hv, hout]
          exact congrArg _ (ih hR')

/-- Where inputs that are not in view leave nothing on record, what the large machine has on record
is what the smaller one has. -/
theorem record_eq (h : Unwinds M N view R) {γ : Type w} (record : ω → List γ)
    (hsilent : ∀ {s t a}, R s t → view s a = none → record (M.step s a).1 = []) (hR : R s t)
    (as : List α) :
    (M.trace s as).flatMap (record ·.2) =
      (N.trace t ((M.seen view s as).map Prod.fst)).flatMap (record ·.2) := by
  induction as generalizing s t with
  | nil => rfl
  | cons a as ih =>
      rw [trace, List.flatMap_cons]
      cases hv : view s a with
      | none =>
          rw [seen, hv, hsilent hR hv]
          exact ih (h.hidden hR hv)
      | some b =>
          obtain ⟨hout, hR'⟩ := h.visible hR hv
          rw [seen, hv, ih hR', hout]
          rfl

/-- The states keep up, too. -/
theorem related (h : Unwinds M N view R) (hR : R s t) (as : List α) :
    R (M.after s as) (N.after t ((M.seen view s as).map Prod.fst)) := by
  induction as generalizing s t with
  | nil => exact hR
  | cons a as ih =>
      cases hv : view s a with
      | none =>
          rw [seen, hv]
          exact ih (h.hidden hR hv)
      | some b =>
          rw [seen, hv]
          exact ih (h.visible hR hv).2

end Unwinds

end Machine

end ConnectWeb
