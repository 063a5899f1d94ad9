import Mathlib.Data.List.Induction

/-!
# Insertion-ordered dictionaries

The mapping that Python's `dict` and a plain JavaScript object both are: keys keep
the position of their first insertion, a later value replaces an earlier one.
-/

namespace ConnectWeb

universe u v

abbrev Dict (κ : Type u) (ν : Type v) := List (κ × ν)

namespace Dict

variable {κ : Type u} {ν : Type v} [BEq κ]

/-- `d[k] = v` -/
def set : Dict κ ν → κ → ν → Dict κ ν
  | [], k, v => [(k, v)]
  | (k', v') :: d, k, v => if k' == k then (k', v) :: d else (k', v') :: set d k v

/-- `d.get(k)` -/
def get? (d : Dict κ ν) (k : κ) : Option ν := List.lookup k d

/-- `d.delete(k)` -/
def delete (d : Dict κ ν) (k : κ) : Dict κ ν := d.filter fun p ↦ !(p.1 == k)

/-- A dictionary built from `(key, value)` pairs, the last one of a key winning. -/
def ofPairs (ps : List (κ × ν)) : Dict κ ν := ps.foldl (fun d p ↦ d.set p.1 p.2) []

@[simp] theorem get?_nil (k : κ) : get? ([] : Dict κ ν) k = none := rfl

@[simp] theorem get?_set_self [LawfulBEq κ] (d : Dict κ ν) (k : κ) (v : ν) :
    (d.set k v).get? k = some v := by
  induction d with
  | nil => simp [set, get?]
  | cons p d ih =>
      simp only [set]
      split
      · rename_i h
        have hk : p.1 = k := eq_of_beq h
        simp [get?, ← hk]
      · rename_i h
        have hk : (k == p.1) = false := by
          rw [beq_eq_false_iff_ne]
          rintro rfl
          exact h (beq_self_eq_true _)
        simpa only [get?, List.lookup_cons, hk, cond_false] using ih

theorem get?_set_of_ne [LawfulBEq κ] (d : Dict κ ν) {k k' : κ} (h : k' ≠ k) (v : ν) :
    (d.set k v).get? k' = d.get? k' := by
  induction d with
  | nil => simp [set, get?, List.lookup_cons, beq_eq_false_iff_ne.mpr h]
  | cons p d ih =>
      obtain ⟨k₀, v₀⟩ := p
      simp only [set]
      split
      · rename_i hp
        have hk : k₀ = k := eq_of_beq hp
        simp [get?, List.lookup_cons, beq_eq_false_iff_ne.mpr h, hk]
      · simp only [get?, List.lookup_cons] at ih ⊢
        split <;> simp_all

theorem get?_cons (k k' : κ) (v : ν) (d : Dict κ ν) :
    get? ((k, v) :: d) k' = if k' == k then some v else get? d k' := by
  rw [get?, List.lookup_cons]
  split
  · rename_i h
    rw [h, if_pos rfl]
  · rename_i h
    rw [h, if_neg Bool.false_ne_true]
    rfl

/-- A key is set. -/
theorem mem_keys_set [LawfulBEq κ] {d : Dict κ ν} {k k' : κ} {v : ν} :
    k' ∈ (d.set k v).map Prod.fst ↔ k' = k ∨ k' ∈ d.map Prod.fst := by
  induction d with
  | nil => simp [set]
  | cons p d ih =>
      rw [set]
      split
      · rename_i h
        have hk : p.1 = k := eq_of_beq h
        simp [hk]
      · rw [List.map_cons, List.map_cons, List.mem_cons, List.mem_cons, ih]
        exact or_left_comm

/-- Keys stay distinct. -/
theorem nodup_set [LawfulBEq κ] {d : Dict κ ν} (h : (d.map Prod.fst).Nodup) (k : κ) (v : ν) :
    ((d.set k v).map Prod.fst).Nodup := by
  induction d with
  | nil => exact List.nodup_cons.mpr ⟨List.not_mem_nil, .nil⟩
  | cons p d ih =>
      obtain ⟨hp, hd⟩ := List.nodup_cons.mp h
      rw [set]
      split
      · exact h
      · rename_i hk
        refine List.nodup_cons.mpr ⟨fun hm ↦ ?_, ih hd⟩
        rcases mem_keys_set.mp hm with heq | hm
        · exact hk (beq_iff_eq.mpr heq)
        · exact hp hm

/-- `d[k] = v` for each of some pairs, in order -/
def setAll (d : Dict κ ν) (ps : List (κ × ν)) : Dict κ ν := ps.foldl (fun d p ↦ d.set p.1 p.2) d

theorem nodup_setAll [LawfulBEq κ] {d : Dict κ ν} (h : (d.map Prod.fst).Nodup)
    (ps : List (κ × ν)) : ((d.setAll ps).map Prod.fst).Nodup := by
  induction ps generalizing d with
  | nil => exact h
  | cons p ps ih => exact ih (nodup_set h p.1 p.2)

theorem mem_keys_setAll [LawfulBEq κ] {d : Dict κ ν} {ps : List (κ × ν)} {k : κ} :
    k ∈ (d.setAll ps).map Prod.fst ↔ k ∈ ps.map Prod.fst ∨ k ∈ d.map Prod.fst := by
  induction ps generalizing d with
  | nil => simp [setAll]
  | cons p ps ih =>
      have h := @ih (d.set p.1 p.2)
      rw [mem_keys_set] at h
      rw [List.map_cons, List.mem_cons, or_assoc, or_left_comm]
      exact h

/-- The last of the pairs of a key wins over the others, and over what was there. -/
theorem get?_setAll [LawfulBEq κ] (d : Dict κ ν) (ps : List (κ × ν)) (k : κ) :
    (d.setAll ps).get? k = (get? ps.reverse k).or (d.get? k) := by
  induction ps using List.reverseRecOn with
  | nil => rfl
  | append_singleton ps p ih =>
      have hset : d.setAll (ps ++ [p]) = (d.setAll ps).set p.1 p.2 := List.foldl_append
      rw [hset, List.reverse_append]
      change _ = (get? ((p.1, p.2) :: ps.reverse) k).or _
      rw [get?_cons]
      by_cases hk : k = p.1
      · rw [hk, get?_set_self, if_pos (beq_self_eq_true _)]
        rfl
      · rw [get?_set_of_ne _ hk, if_neg (by simpa using hk), ih]

theorem get?_delete [LawfulBEq κ] (d : Dict κ ν) (k k' : κ) :
    (d.delete k).get? k' = if k' == k then none else d.get? k' := by
  induction d with
  | nil => simp [delete]
  | cons p d ih =>
      obtain ⟨kp, v⟩ := p
      rw [get?_cons]
      rw [delete] at ih ⊢
      by_cases hp : kp = k
      · rw [List.filter_cons_of_neg (by simp [hp]), ih, hp]
        split <;> rfl
      · rw [List.filter_cons_of_pos (by simp [hp]), get?_cons, ih]
        by_cases hk : k' = kp
        · simp [hk, hp]
        · simp [hk]

/-- The value of a key is that of one of its pairs. -/
theorem mem_of_get?_ofPairs [LawfulBEq κ] {ps : List (κ × ν)} {k : κ} {v : ν}
    (h : (ofPairs ps).get? k = some v) : (k, v) ∈ ps := by
  induction ps using List.reverseRecOn with
  | nil => cases h
  | append_singleton ps p ih =>
      have hset : ofPairs (ps ++ [p]) = (ofPairs ps).set p.1 p.2 := by
        rw [ofPairs, List.foldl_append]
        rfl
      rw [hset] at h
      by_cases hk : k = p.1
      · subst hk
        rw [get?_set_self, Option.some.injEq] at h
        subst h
        exact List.mem_append_right _ (List.mem_singleton.mpr rfl)
      · rw [get?_set_of_ne _ hk] at h
        exact List.mem_append_left _ (ih h)

end Dict

end ConnectWeb
