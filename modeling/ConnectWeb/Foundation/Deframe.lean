import Mathlib.Data.List.Basic

/-!
# Popping tokens off a growing buffer

A `Popper` is a recogniser of one token at the front of its input.  The two laws
it carries say that a popped token consumes something, and that input arriving
later does not change a token that is already complete.  They are exactly what
makes *incremental* recognition (take a piece, pop what is whole, keep the rest)
agree with recognition of the joined input: `drain_append`.
-/

namespace ConnectWeb

universe u v

/-- A recogniser of one token at the front of a list. -/
structure Popper (α : Type u) (β : Type v) where
  /-- Pop the first whole token, if the input starts with one. -/
  pop : List α → Option (β × List α)
  /-- A popped token consumes input. -/
  length_lt : ∀ {l x r}, pop l = some (x, r) → r.length < l.length
  /-- More input leaves a whole token as it is. -/
  pop_append : ∀ {l x r} (m : List α), pop l = some (x, r) → pop (l ++ m) = some (x, r ++ m)

namespace Popper

variable {α : Type u} {β : Type v} (P : Popper α β)

/-- Pop tokens until none is left: the tokens of the longest prefix made of whole
tokens, and what follows that prefix. -/
def drain (l : List α) : List β × List α :=
  match _h : P.pop l with
  | none => ([], l)
  | some (x, r) => (x :: (drain r).1, (drain r).2)
termination_by l.length
decreasing_by all_goals exact P.length_lt _h

theorem drain_of_none {l : List α} (h : P.pop l = none) : P.drain l = ([], l) := by
  rw [drain]
  split
  · rfl
  · simp_all

theorem drain_of_some {l r : List α} {x : β} (h : P.pop l = some (x, r)) :
    P.drain l = (x :: (P.drain r).1, (P.drain r).2) := by
  rw [drain]
  split
  · simp_all
  · rename_i y s hs
    rw [h] at hs
    cases hs
    rfl

/-- Induction along the tokens popped. -/
theorem drain_induction {motive : List α → Prop}
    (none : ∀ l, P.pop l = none → motive l)
    (some : ∀ l x r, P.pop l = some (x, r) → motive r → motive l) (l : List α) :
    motive l :=
  match h : P.pop l with
  | .none => none l h
  | .some (x, r) => some l x r h (drain_induction none some r)
termination_by l.length
decreasing_by exact P.length_lt h

/-- What is left after draining starts with no whole token. -/
theorem pop_drain_rest (l : List α) : P.pop (P.drain l).2 = none := by
  induction l using P.drain_induction with
  | none l h => rwa [P.drain_of_none h]
  | some l x r h ih => rwa [P.drain_of_some h]

/-- Draining a first piece, then what it left together with a second piece, is
draining the two pieces joined. -/
theorem drain_append (a b : List α) :
    P.drain (a ++ b) =
      ((P.drain a).1 ++ (P.drain ((P.drain a).2 ++ b)).1, (P.drain ((P.drain a).2 ++ b)).2) := by
  induction a using P.drain_induction with
  | none a h => simp [P.drain_of_none h]
  | some a x r h ih => simp [P.drain_of_some h, P.drain_of_some (P.pop_append b h), ih]

/-- A piece at the front drains to tokens at the front. -/
theorem drain_prefix {a b : List α} (h : a <+: b) : (P.drain a).1 <+: (P.drain b).1 := by
  obtain ⟨rest, rfl⟩ := h
  rw [P.drain_append]
  exact List.prefix_append _ _

/-- The tokens and the rest decide each other: input that is some tokens followed by `r`
drains to these tokens and the draining of `r`. -/
theorem drain_flatMap (encode : β → List α) {xs : List β}
    (h : ∀ x ∈ xs, ∀ r, P.pop (encode x ++ r) = some (x, r)) (r : List α) :
    P.drain (xs.flatMap encode ++ r) = (xs ++ (P.drain r).1, (P.drain r).2) := by
  induction xs with
  | nil => simp
  | cons x xs ih =>
      rw [List.flatMap_cons, List.append_assoc, P.drain_of_some (h x List.mem_cons_self _),
        ih fun y hy ↦ h y (List.mem_cons_of_mem _ hy), List.cons_append]

end Popper

end ConnectWeb
