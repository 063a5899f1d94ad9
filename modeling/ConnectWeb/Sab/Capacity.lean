import ConnectWeb.Sab.System

/-!
# The capacity of a data SAB

`_grow_data_sab` doubles the capacity until a request fits, and allocates that much.  The loop
ends at the smallest capacity of its kind.  Nothing else changes the size of a data SAB.
-/

namespace ConnectWeb.Sab

/-- The loop ends at the first of the capacities `newCap * 2 ^ k` that is large enough. -/
theorem growLoop_eq {fuel newCap minBytes : Nat} (hpos : 0 < newCap)
    (hfuel : minBytes ≤ fuel + newCap) :
    ∃ k, growLoop fuel newCap minBytes = newCap * 2 ^ k ∧ minBytes ≤ newCap * 2 ^ k ∧
      ∀ j, minBytes ≤ newCap * 2 ^ j → k ≤ j := by
  induction fuel generalizing newCap with
  | zero =>
      rw [Nat.zero_add] at hfuel
      exact ⟨0, by rw [growLoop, pow_zero, Nat.mul_one], by rwa [pow_zero, Nat.mul_one],
        fun j _ ↦ Nat.zero_le j⟩
  | succ fuel ih =>
      rw [growLoop]
      by_cases hlt : newCap < minBytes
      · obtain ⟨k, heq, hle, hleast⟩ := @ih (newCap * 2) (by omega) (by omega)
        have hpow : ∀ j, newCap * 2 * 2 ^ j = newCap * 2 ^ (j + 1) := by
          intro j
          rw [Nat.pow_succ', Nat.mul_assoc]
        rw [if_pos hlt]
        refine ⟨k + 1, heq.trans (hpow k), (hpow k) ▸ hle, fun j hj ↦ ?_⟩
        rcases j with _ | j
        · rw [pow_zero, Nat.mul_one] at hj
          omega
        · exact Nat.succ_le_succ (hleast j (by rwa [hpow]))
      · rw [if_neg hlt]
        exact ⟨0, by rw [pow_zero, Nat.mul_one], by rw [pow_zero, Nat.mul_one]; omega,
          fun j _ ↦ Nat.zero_le j⟩

/-- `size` is the smallest power-of-two multiple of `start` that holds `needed` bytes. -/
def SmallestFit (start needed size : Nat) : Prop :=
  ∃ k, size = start * 2 ^ k ∧ needed ≤ size ∧ ∀ j, needed ≤ start * 2 ^ j → k ≤ j

theorem SmallestFit.of_le {start needed : Nat} (h : needed ≤ start) :
    SmallestFit start needed start :=
  ⟨0, by rw [pow_zero, Nat.mul_one], h, fun j _ ↦ Nat.zero_le j⟩

/-- From a capacity above zero the loop ends. -/
theorem exists_grownCapacity {capacity : Nat} (hpos : 0 < capacity) (minBytes : Nat) :
    ∃ newCap, grownCapacity capacity minBytes = some newCap ∧
      SmallestFit capacity minBytes newCap := by
  obtain ⟨k, heq, hle, hleast⟩ := growLoop_eq hpos (Nat.le_add_right minBytes capacity)
  refine ⟨growLoop minBytes capacity minBytes, ?_, k, heq, heq ▸ hle, hleast⟩
  rw [grownCapacity, if_neg fun h ↦ absurd h.1 hpos.ne']

theorem grownCapacity_le {capacity minBytes newCap : Nat}
    (h : grownCapacity capacity minBytes = some newCap) : capacity ≤ newCap ∧ minBytes ≤ newCap := by
  rcases Nat.eq_zero_or_pos capacity with rfl | hpos
  · rcases Nat.eq_zero_or_pos minBytes with rfl | hmin
    · exact ⟨Nat.zero_le _, Nat.zero_le _⟩
    · rw [grownCapacity, if_pos ⟨rfl, hmin⟩] at h
      cases h
  · obtain ⟨newCap', heq, k, hk, hle, -⟩ := exists_grownCapacity hpos minBytes
    obtain rfl : newCap' = newCap := Option.some.inj (heq.symm.trans h)
    exact ⟨hk ▸ Nat.le_mul_of_pos_right capacity (Nat.two_pow_pos k), hle⟩

theorem size_of_writeRequest {d r : Region} {headerBytes body : Bytes}
    (h : writeRequest d headerBytes body = some r) : r.size = d.size := by
  simp only [writeRequest_eq, Option.bind_eq_bind, Option.bind_eq_some_iff] at h
  obtain ⟨d1, h1, h2⟩ := h
  rw [Region.size_set h2, Region.size_putU32, Region.size_set h1, Region.size_putU32]

end ConnectWeb.Sab
