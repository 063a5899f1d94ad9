import ConnectWeb.Harness.RunPython
import Mathlib.Data.List.Nodup
import Mathlib.Data.List.Perm.Basic

/-!
# Who is answered with what

Replies find their promise in every run: each id is in exactly one place, from the call to
the settled promise.  What a reply carries is another matter.  The captured text goes where
the handler points that was installed last, and any handler that ends takes it away, so a
snippet's output is its own only if it prints while its own handler is installed.  Runs that
do not overlap at the `await` are of that kind.
-/

namespace ConnectWeb.Harness

namespace Sys

/-- The ids of the calls that are not answered yet. -/
def underway (s : Sys) : List Nat :=
  s.inbox.map Prod.fst ++ s.handlers.map Handler.id ++ s.outbox.map Reply.id

/-- What a promise was settled by. -/
def settlements (s : Sys) (p : Nat) : List Reply :=
  (s.settled.filter fun x ↦ x.1 = p).map Prod.snd

/-- What a snippet delivered to standard output. -/
def output (s : Sys) (id : Nat) : String :=
  .join ((s.delivered.filter fun d ↦ d.1 = id).map Prod.snd)

/-- Every call is answered once, with the output of its own snippet. -/
structure Answered (s : Sys) : Prop where
  /-- A promise is not settled and the call is underway, in one place; or it was settled once,
  by the reply with the call's own id. -/
  once : ∀ p id, s.promises[p]? = some id →
    s.settlements p = [] ∧ s.underway.count id = 1 ∨
      ∃ r, s.settlements p = [r] ∧ r.id = id ∧ s.underway.count id = 0
  /-- What is underway can go on: a message is taken, a snippet ends, or a reply is taken. -/
  moves : s.underway ≠ [] → (∀ text, (s.receive text).isSome) ∨
    (∃ id, ∀ raised, (s.finish id raised).isSome) ∨ s.deliver.isSome
  /-- A resolved value is the output of the call's own snippet. -/
  value : ∀ p id id' out, s.promises[p]? = some id → .result id' out ∈ s.settlements p →
    out = s.output id

/-- A snippet prints while its own handler is installed: since its message was taken, no other
was, and no other snippet ended. -/
def OwnHandler (s : Sys) : Action → Prop
  | .print id text => text ≠ "" → s.stdout = some id
  | _ => True

/-! ## Ids -/

/-- Every id that was given out, and where it is. -/
structure Ids (s : Sys) : Prop where
  promises : s.promises = (List.range s.seq).map (· + 1)
  /-- No id is lost, and none is in two places. -/
  places : (s.underway ++ s.settled.map fun x ↦ x.2.id).Perm s.promises
  own : ∀ x ∈ s.settled, x.2.id = x.1 + 1
  pending : ∀ id, s.pending.get? id =
    if id ∈ s.underway then some (id - 1) else none
  started : ∀ id ∈ s.started, id ≤ s.seq ∧ id ∉ s.inbox.map Prod.fst
  installed : ∀ id, s.stdout = some id → id ∈ s.handlers.map Handler.id

namespace Ids

variable {s : Sys} (h : s.Ids)

include h in
theorem nodup : (s.underway ++ s.settled.map fun x ↦ x.2.id).Nodup := by
  rw [h.places.nodup_iff, h.promises]
  exact List.Nodup.map (fun _ _ ↦ Nat.succ.inj) List.nodup_range

include h in
theorem mem_places (id : Nat) :
    id ∈ s.underway ∨ id ∈ s.settled.map (fun x ↦ x.2.id) ↔ ∃ p < s.seq, p + 1 = id := by
  rw [← List.mem_append, h.places.mem_iff, h.promises]
  simp

include h in
theorem nodup_underway : s.underway.Nodup := (List.nodup_append.mp h.nodup).1

end Ids

theorem mem_underway {s : Sys} {id : Nat} : id ∈ s.underway ↔
    id ∈ s.inbox.map Prod.fst ∨ id ∈ s.handlers.map Handler.id ∨ id ∈ s.outbox.map Reply.id := by
  rw [underway, List.mem_append, List.mem_append, or_assoc]

theorem Ids.init : Sys.Ids {} where
  promises := rfl
  places := .refl _
  own := by simp
  pending id := by simp [underway]
  started := by simp
  installed := by simp

/-- A call that is underway moves on. -/
theorem Ids.moved {s s' : Sys} (h : s.Ids) (hq : s'.seq = s.seq)
    (hp : s'.promises = s.promises) (hpend : s'.pending = s.pending)
    (hset : s'.settled = s.settled) (hu : s'.underway.Perm s.underway)
    (hst : ∀ id ∈ s'.started, id ≤ s'.seq ∧ id ∉ s'.inbox.map Prod.fst)
    (hin : ∀ id, s'.stdout = some id → id ∈ s'.handlers.map Handler.id) : s'.Ids where
  promises := by rw [hp, hq, h.promises]
  places := by
    rw [hset, hp]
    exact (hu.append_right _).trans h.places
  own := by
    rw [hset]
    exact h.own
  pending id := by
    rw [hpend, h.pending]
    simp only [hu.mem_iff]
  started := hst
  installed := hin

theorem Ids.call {s : Sys} (h : s.Ids) (src : String) : (s.call src).Ids := by
  have hu : (s.call src).underway.Perm (s.underway ++ [s.seq + 1]) := by
    simp only [underway, Sys.call, List.map_append, List.map_cons, List.map_nil, List.append_assoc]
    refine List.Perm.append_left _ ?_
    rw [← List.append_assoc (s.handlers.map _)]
    exact List.perm_append_comm
  have hlen : s.promises.length = s.seq := by simp [h.promises]
  refine ⟨?_, ?_, h.own, fun id ↦ ?_, fun id hid ↦ ?_, h.installed⟩
  · change s.promises ++ [s.seq + 1] = _
    rw [h.promises, Sys.call, List.range_succ, List.map_append]
    rfl
  · refine (hu.append_right _).trans ?_
    rw [List.append_assoc]
    refine (List.Perm.append_left _ List.perm_append_comm).trans ?_
    rw [← List.append_assoc]
    exact h.places.append_right _
  · change (s.pending.set (s.seq + 1) s.promises.length).get? id = _
    simp only [hu.mem_iff, List.mem_append, List.mem_singleton]
    by_cases hid : id = s.seq + 1
    · subst hid
      rw [Dict.get?_set_self, hlen]
      simp
    · rw [Dict.get?_set_of_ne _ hid, h.pending]
      simp [hid]
  · obtain ⟨hle, hno⟩ := h.started id hid
    refine ⟨Nat.le_succ_of_le hle, ?_⟩
    change id ∉ (s.inbox ++ [(s.seq + 1, src)]).map Prod.fst
    rw [List.map_append, List.mem_append, not_or]
    refine ⟨hno, fun hm ↦ ?_⟩
    cases List.mem_singleton.mp hm
    exact absurd hle (Nat.not_succ_le_self _)

theorem Ids.receive {s s' : Sys} (h : s.Ids) {text : String} (hr : s.receive text = some s') :
    s'.Ids := by
  unfold Sys.receive at hr
  split at hr
  · cases hr
  rename_i id src inbox hi
  have hmem : id ∈ s.underway := mem_underway.mpr (.inl (by rw [hi]; exact List.mem_cons_self ..))
  have hnot : id ∉ inbox.map Prod.fst := by
    have := h.nodup_underway
    rw [underway, hi, List.append_assoc, List.map_cons, List.cons_append, List.nodup_cons,
      List.mem_append, not_or] at this
    exact this.1.1
  have older : ∀ id' ∈ s.started, id' ≤ s.seq ∧ id' ∉ inbox.map Prod.fst := fun id' hid ↦ by
    obtain ⟨hle, hno⟩ := h.started id' hid
    rw [hi, List.map_cons, List.mem_cons, not_or] at hno
    exact ⟨hle, hno.2⟩
  split at hr
  · cases hr
    refine h.moved rfl rfl rfl rfl ?_ ?_ ?_
    · have := @List.perm_middle _ id (inbox.map Prod.fst ++ s.handlers.map Handler.id)
        (s.outbox.map Reply.id)
      simpa only [underway, hi, List.map_append, List.map_cons, List.map_nil, List.append_assoc,
        List.cons_append, List.nil_append] using this
    · intro id' hid
      rcases List.mem_append.mp hid with hid | hid
      · exact older id' hid
      · cases List.mem_singleton.mp hid
        obtain ⟨p, hp, heq⟩ := (h.mem_places id).mp (.inl hmem)
        exact ⟨heq ▸ hp, hnot⟩
    · intro id' hid
      cases hid
      simp
  · cases hr
    refine h.moved rfl rfl rfl rfl ?_ older h.installed
    simp only [underway, hi, List.map_append, List.map_cons, List.map_nil]
    rw [← List.append_assoc, List.cons_append, List.cons_append]
    exact List.perm_append_comm

theorem Ids.print {s s' : Sys} (h : s.Ids) {id : Nat} {text : String}
    (hp : s.print id text = some s') : s'.Ids := by
  unfold Sys.print at hp
  split at hp
  swap
  · cases hp
  cases hp
  have hids : ∀ hs : List Handler, (hs.map fun h ↦
      if s.stdout = some h.id then { h with out := h.out ++ text } else h).map Handler.id =
        hs.map Handler.id := by
    intro hs
    rw [List.map_map]
    refine List.map_congr_left fun x _ ↦ ?_
    simp only [Function.comp_apply]
    split <;> rfl
  refine h.moved rfl rfl rfl rfl ?_ h.started ?_
  · rw [underway, underway, hids]
  · rw [hids]
    exact h.installed

theorem Ids.finish {s s' : Sys} (h : s.Ids) {id : Nat} {raised : Option String}
    (hf : s.finish id raised = some s') : s'.Ids := by
  unfold Sys.finish at hf
  split at hf
  · cases hf
  rename_i x hx
  cases hf
  have hmem := List.mem_of_find?_eq_some hx
  refine h.moved rfl rfl rfl rfl ?_ h.started nofun
  have hp := (List.perm_cons_erase hmem).map Handler.id
  simp only [underway, List.map_append, List.map_cons, List.map_nil, Handler.id_reply]
  rw [List.append_assoc, List.append_assoc, ← List.append_assoc (List.map _ (s.handlers.erase x))]
  exact List.Perm.append_left _ ((List.perm_append_singleton ..).trans (hp.symm.append_right _))

theorem Ids.deliver {s s' : Sys} (h : s.Ids) (hd : s.deliver = some s') : s'.Ids := by
  unfold Sys.deliver at hd
  split at hd
  · cases hd
  rename_i r outbox ho
  have hmem : r.id ∈ s.underway :=
    mem_underway.mpr (.inr (.inr (by rw [ho]; exact List.mem_cons_self ..)))
  rw [h.pending, if_pos hmem] at hd
  cases hd
  obtain ⟨p, hp, heq⟩ := (h.mem_places r.id).mp (.inl hmem)
  have hu : s.underway.Perm (r.id :: ((s.inbox.map Prod.fst ++ s.handlers.map Handler.id) ++
      outbox.map Reply.id)) := by
    rw [underway, ho, List.map_cons]
    exact List.perm_middle
  have hnd := hu.nodup_iff.mp h.nodup_underway
  refine ⟨h.promises, ?_, ?_, fun id ↦ ?_, h.started, h.installed⟩
  · refine List.Perm.trans ?_ h.places
    rw [List.map_append]
    refine List.Perm.trans ?_ (hu.append_right _).symm
    rw [← List.append_assoc]
    exact List.perm_append_comm
  · intro x hx
    rcases List.mem_append.mp hx with hx | hx
    · exact h.own x hx
    · cases List.mem_singleton.mp hx
      change r.id = r.id - 1 + 1
      omega
  · change (s.pending.delete r.id).get? id = if id ∈ _ then _ else _
    rw [Dict.get?_delete, h.pending]
    simp only [hu.mem_iff, List.mem_cons]
    by_cases hid : id = r.id
    · subst hid
      rw [if_pos (beq_self_eq_true _), if_neg]
      exact (List.nodup_cons.mp hnd).1
    · simp only [beq_iff_eq, hid, if_false, false_or]
      rfl

theorem Ids.step {s s' : Sys} {a : Action} (h : s.Ids) (hs : step s a = some s') : s'.Ids := by
  cases a with
  | call src =>
      cases hs
      exact h.call src
  | load =>
      simp only [Harness.step, Sys.load] at hs
      split at hs
      · cases hs
      · cases hs
        exact h.moved rfl rfl rfl rfl (.refl _) h.started h.installed
  | receive text => exact h.receive hs
  | print id text => exact h.print hs
  | finish id raised => exact h.finish hs
  | deliver => exact h.deliver hs

theorem ids_of_reachable {ok : System.Guard Sys Action} {s : Sys}
    (h : system.Reachable ok s) : s.Ids := by
  refine h.invariant ?_ fun s a s' hi _ hs ↦ hi.step hs
  rintro s rfl
  exact .init

/-! ## Every call is answered once -/

theorem Ids.promise {s : Sys} (h : s.Ids) {p id : Nat} (hp : s.promises[p]? = some id) :
    id = p + 1 ∧ p < s.seq := by
  rw [h.promises, List.getElem?_map] at hp
  obtain ⟨q, hq, rfl⟩ := Option.map_eq_some_iff.mp hp
  obtain ⟨hlt, rfl⟩ := List.getElem?_eq_some_iff.mp hq
  rw [List.length_range] at hlt
  simpa using hlt

/-- The replies that settled a promise are those with the id of its call. -/
theorem Ids.length_settlements {s : Sys} (h : s.Ids) (p : Nat) :
    (s.settlements p).length = (s.settled.map fun x ↦ x.2.id).count (p + 1) := by
  rw [settlements, List.length_map, List.count_eq_countP, List.countP_map,
    ← List.countP_eq_length_filter]
  refine List.countP_congr fun x hx ↦ ?_
  simp [h.own x hx]

theorem Ids.mem_settlements {s : Sys} (h : s.Ids) {p : Nat} {r : Reply}
    (hr : r ∈ s.settlements p) : (p, r) ∈ s.settled ∧ r.id = p + 1 := by
  rw [settlements, List.mem_map] at hr
  obtain ⟨⟨q, r'⟩, hx, rfl⟩ := hr
  rw [List.mem_filter, decide_eq_true_eq] at hx
  obtain ⟨hx, rfl⟩ := hx
  exact ⟨hx, h.own _ hx⟩

theorem Ids.once {s : Sys} (h : s.Ids) {p id : Nat} (hp : s.promises[p]? = some id) :
    s.settlements p = [] ∧ s.underway.count id = 1 ∨
      ∃ r, s.settlements p = [r] ∧ r.id = id ∧ s.underway.count id = 0 := by
  obtain ⟨rfl, hlt⟩ := h.promise hp
  have hmem : p + 1 ∈ s.underway ++ s.settled.map fun x ↦ x.2.id :=
    List.mem_append.mpr ((h.mem_places (p + 1)).mpr ⟨p, hlt, rfl⟩)
  -- the id is in one place
  have hone := List.count_eq_one_of_mem h.nodup hmem
  rw [List.count_append, ← h.length_settlements] at hone
  rcases hl : s.settlements p with _ | ⟨r, _ | ⟨r', rs⟩⟩
  · rw [hl] at hone
    exact .inl ⟨rfl, hone⟩
  · rw [hl, List.length_singleton] at hone
    refine .inr ⟨r, rfl, (h.mem_settlements (by rw [hl]; exact List.mem_cons_self ..)).2, ?_⟩
    omega
  · rw [hl, List.length_cons, List.length_cons] at hone
    omega

theorem moves {s : Sys} (h : s.underway ≠ []) : (∀ text, (s.receive text).isSome) ∨
    (∃ id, ∀ raised, (s.finish id raised).isSome) ∨ s.deliver.isSome := by
  obtain ⟨id, hid⟩ := List.exists_mem_of_ne_nil _ h
  rcases mem_underway.mp hid with hm | hm | hm
  · refine .inl fun text ↦ ?_
    unfold Sys.receive
    split
    · rename_i hi
      rw [hi] at hm
      cases hm
    · split <;> rfl
  · refine .inr (.inl ⟨id, fun raised ↦ ?_⟩)
    obtain ⟨x, hx, rfl⟩ := List.mem_map.mp hm
    unfold Sys.finish
    split
    · rename_i hf
      exact absurd (List.find?_eq_none.mp hf x hx) (by simp)
    · rfl
  · refine .inr (.inr ?_)
    unfold Sys.deliver
    split
    · rename_i ho
      rw [ho] at hm
      cases hm
    · split <;> rfl

/-! ## What is captured -/

/-- What is captured, or was, is the snippet's own output. -/
structure Tracks (s : Sys) : Prop where
  held : ∀ x ∈ s.handlers, x.out = s.output x.id
  posted : ∀ id out, .result id out ∈ s.outbox → out = s.output id
  settled : ∀ p id out, (p, .result id out) ∈ s.settled → out = s.output id
  quiet : ∀ d ∈ s.delivered, d.1 ∈ s.started

theorem output_print (s : Sys) (hs : List Handler) (id id' : Nat) (text : String) :
    Sys.output { s with handlers := hs, delivered := s.delivered ++ [(id, text)] } id' =
      s.output id' ++ if id = id' then text else "" := by
  rw [output, output, List.filter_append, List.map_append, String.join_append]
  congr 1
  by_cases h : id = id' <;> simp [h, String.join_cons, String.join_nil]

theorem output_of_quiet {s : Sys} {id : Nat} (h : ∀ d ∈ s.delivered, d.1 ≠ id) :
    s.output id = "" := by
  have : (s.delivered.filter fun d ↦ d.1 = id) = [] := by
    rw [List.filter_eq_nil_iff]
    simpa using h
  rw [output, this]
  rfl

theorem Tracks.init : Sys.Tracks {} where
  held := by simp
  posted := by simp
  settled := by simp
  quiet := by simp

/-- A handler starts with nothing captured, before its snippet prints. -/
theorem Tracks.receive {s s' : Sys} (hi : s.Ids) (h : s.Tracks) {text : String}
    (hr : s.receive text = some s') : s'.Tracks := by
  unfold Sys.receive at hr
  split at hr
  · cases hr
  rename_i id src inbox hin
  split at hr
  · cases hr
    refine ⟨fun x hx ↦ ?_, h.posted, h.settled, fun d hd ↦ List.mem_append_left _ (h.quiet d hd)⟩
    rcases List.mem_append.mp hx with hx | hx
    · exact h.held x hx
    · cases List.mem_singleton.mp hx
      refine (output_of_quiet fun d hd heq ↦ ?_).symm
      refine (hi.started _ (h.quiet d hd)).2 ?_
      rw [hin, heq]
      exact List.mem_cons_self ..
  · cases hr
    refine ⟨h.held, fun id' out hm ↦ ?_, h.settled, h.quiet⟩
    rcases List.mem_append.mp hm with hm | hm
    · exact h.posted id' out hm
    · cases List.mem_singleton.mp hm

/-- A text goes to the handler of the snippet that prints it. -/
theorem Tracks.print {s s' : Sys} (hi : s.Ids) (h : s.Tracks) {id : Nat} {text : String}
    (hok : text ≠ "" → s.stdout = some id) (hp : s.print id text = some s') : s'.Tracks := by
  unfold Sys.print at hp
  split at hp
  swap
  · cases hp
  rename_i hst
  cases hp
  have hquiet : ∀ d ∈ s.delivered ++ [(id, text)], d.1 ∈ s.started := fun d hd ↦ by
    rcases List.mem_append.mp hd with hd | hd
    · exact h.quiet d hd
    · cases List.mem_singleton.mp hd
      exact hst
  by_cases ht : text = ""
  · -- nothing changes
    subst ht
    have hsame : ∀ y : Handler,
        (if s.stdout = some y.id then { y with out := y.out ++ "" } else y) = y := by
      intro y
      rw [String.append_empty]
      split <;> rfl
    refine ⟨fun x hx ↦ ?_, fun id' out hm ↦ ?_, fun p id' out hm ↦ ?_, hquiet⟩
    · obtain ⟨y, hy, rfl⟩ := List.mem_map.mp hx
      rw [hsame, output_print, ite_self, String.append_empty]
      exact h.held y hy
    · rw [output_print, ite_self, String.append_empty]
      exact h.posted id' out hm
    · rw [output_print, ite_self, String.append_empty]
      exact h.settled p id' out hm
  · have hins := hok ht
    -- the snippet is awaited, so no reply carries its id
    have hhand := hi.installed id hins
    have hnd := hi.nodup
    have hother : ∀ id', id' ∈ s.outbox.map Reply.id ∨ id' ∈ s.settled.map (fun x ↦ x.2.id) →
        id ≠ id' := by
      rintro id' hm rfl
      rw [underway, List.append_assoc, List.nodup_append] at hnd
      refine hnd.2.2 id (List.mem_append_right _ hhand) id ?_ rfl
      exact List.mem_append.mpr hm
    refine ⟨fun x hx ↦ ?_, fun id' out hm ↦ ?_, fun p id' out hm ↦ ?_, hquiet⟩
    · obtain ⟨y, hy, rfl⟩ := List.mem_map.mp hx
      rw [output_print, hins]
      by_cases hid : id = y.id
      · rw [if_pos (congrArg some hid), if_pos hid, h.held y hy]
      · rw [if_neg fun heq ↦ hid (Option.some.inj heq), if_neg hid, String.append_empty]
        exact h.held y hy
    · rw [output_print, if_neg (hother id' (.inl (List.mem_map_of_mem (f := Reply.id) hm))),
        String.append_empty]
      exact h.posted id' out hm
    · have := List.mem_map_of_mem (f := fun x : Nat × Reply ↦ x.2.id) hm
      rw [output_print, if_neg (hother id' (.inr this)), String.append_empty]
      exact h.settled p id' out hm

theorem Tracks.step {s s' : Sys} {a : Action} (hi : s.Ids) (h : s.Tracks) (hok : s.OwnHandler a)
    (hs : step s a = some s') : s'.Tracks := by
  cases a with
  | call src =>
      cases hs
      exact ⟨h.held, h.posted, h.settled, h.quiet⟩
  | load =>
      simp only [Harness.step, Sys.load] at hs
      split at hs
      · cases hs
      · cases hs
        exact ⟨h.held, h.posted, h.settled, h.quiet⟩
  | receive text => exact h.receive hi hs
  | print id text => exact h.print hi hok hs
  | finish id raised =>
      simp only [Harness.step, Sys.finish] at hs
      split at hs
      · cases hs
      rename_i x hx
      cases hs
      have hmem := List.mem_of_find?_eq_some hx
      refine ⟨fun y hy ↦ h.held y (List.mem_of_mem_erase hy), fun id' out hm ↦ ?_, h.settled,
        h.quiet⟩
      rcases List.mem_append.mp hm with hm | hm
      · exact h.posted id' out hm
      · cases raised with
        | none =>
            cases List.mem_singleton.mp hm
            exact h.held x hmem
        | some message => cases List.mem_singleton.mp hm
  | deliver =>
      simp only [Harness.step, Sys.deliver] at hs
      split at hs
      · cases hs
      rename_i r outbox ho
      have hposted : ∀ id' out, .result id' out ∈ outbox → out = s.output id' := fun id' out hm ↦
        h.posted id' out (by rw [ho]; exact List.mem_cons_of_mem _ hm)
      split at hs
      · cases hs
        exact ⟨h.held, hposted, h.settled, h.quiet⟩
      · cases hs
        refine ⟨h.held, hposted, fun p id' out hm ↦ ?_, h.quiet⟩
        rcases List.mem_append.mp hm with hm | hm
        · exact h.settled p id' out hm
        · cases List.mem_singleton.mp hm
          exact h.posted id' out (by rw [ho]; exact List.mem_cons_self ..)

theorem tracks_of_reachable {s : Sys} (h : system.Reachable Sys.OwnHandler s) : s.Tracks := by
  refine h.invariant_of (fun _ hr ↦ ids_of_reachable hr) ?_
    fun s a s' hi _ ht hok hs ↦ ht.step hi hok hs
  rintro s rfl
  exact .init

theorem Ids.answered {s : Sys} (hi : s.Ids) (ht : s.Tracks) : s.Answered where
  once _ _ hp := hi.once hp
  moves h := Sys.moves h
  value p id id' out hp hm := by
    obtain ⟨hm, hid⟩ := hi.mem_settlements hm
    obtain ⟨rfl, -⟩ := hi.promise hp
    rw [ht.settled p id' out hm]
    exact congrArg s.output hid

end Sys

/-- In every run in which snippets print while their own handler is installed, every call is
answered once, with the output of its own snippet. -/
theorem answered_of_ownHandler {s : Sys} (h : system.Reachable Sys.OwnHandler s) : s.Answered :=
  (Sys.ids_of_reachable h).answered (Sys.tracks_of_reachable h)

/-! ## Runs that do not overlap -/

/-- A message is taken only while no snippet is awaited, and only that snippet prints. -/
def Sys.Serial (s : Sys) : Action → Prop
  | .receive _ => s.handlers = []
  | .print id _ => id ∈ s.handlers.map Handler.id
  | _ => True

/-- At most one snippet is awaited, and its handler is the one installed. -/
def Sys.Alone (s : Sys) : Prop :=
  s.handlers = [] ∨ ∃ x, s.handlers = [x] ∧ s.stdout = some x.id

theorem Sys.Alone.step {s s' : Sys} {a : Action} (h : s.Alone) (hok : s.Serial a)
    (hs : Harness.step s a = some s') : s'.Alone := by
  cases a with
  | call src =>
      cases hs
      exact h
  | load =>
      simp only [Harness.step, Sys.load] at hs
      split at hs
      · cases hs
      · cases hs
        exact h
  | receive text =>
      simp only [Harness.step, Sys.receive] at hs
      split at hs
      · cases hs
      split at hs
      · cases hs
        exact .inr ⟨_, by rw [show s.handlers = [] from hok]; rfl, rfl⟩
      · cases hs
        exact h
  | print id text =>
      simp only [Harness.step, Sys.print] at hs
      split at hs
      · cases hs
        rcases h with h | ⟨x, h, hin⟩
        · exact .inl (by rw [h]; rfl)
        · refine .inr ⟨{ x with out := x.out ++ text }, ?_, hin⟩
          rw [h, List.map_singleton, if_pos hin]
      · cases hs
  | finish id raised =>
      simp only [Harness.step, Sys.finish] at hs
      split at hs
      · cases hs
      rename_i x hx
      cases hs
      have hmem := List.mem_of_find?_eq_some hx
      rcases h with h | ⟨y, h, -⟩
      · rw [h] at hmem
        cases hmem
      · rw [h] at hmem
        cases List.mem_singleton.mp hmem
        exact .inl (by simp [h])
  | deliver =>
      simp only [Harness.step, Sys.deliver] at hs
      split at hs
      · cases hs
      split at hs
      · cases hs
        exact h
      · cases hs
        exact h

theorem alone_of_serial {s : Sys} (h : system.Reachable Sys.Serial s) : s.Alone := by
  refine h.invariant ?_ fun s a s' ha hok hs ↦ ha.step hok hs
  rintro s rfl
  exact .inl rfl

theorem ownHandler_of_serial {s : Sys} (h : system.Reachable Sys.Serial s) :
    system.Reachable Sys.OwnHandler s := by
  refine h.guard_of (fun s hr ↦ alone_of_serial hr) fun s a ha hok ↦ ?_
  cases a with
  | print id text =>
      intro _
      obtain ⟨x, hx, rfl⟩ := List.mem_map.mp hok
      rcases ha with h0 | ⟨y, hy, hin⟩
      · rw [h0] at hx
        cases hx
      · rw [hy] at hx
        cases List.mem_singleton.mp hx
        exact hin
  | _ => trivial

/-! ## A text that goes elsewhere -/

/-- A text that is printed while another handler is installed, or none, is missing from the
reply of the snippet. -/
theorem Sys.Tracks.misses {s s' : Sys} (h : s.Tracks) {id : Nat} {text : String}
    (hp : s.print id text = some s') (hne : text ≠ "") (hins : s.stdout ≠ some id) :
    ∀ x ∈ s'.handlers, x.id = id → x.reply none ≠ .result id (s'.output id) := by
  unfold Sys.print at hp
  split at hp
  swap
  · cases hp
  cases hp
  intro x hx hid heq
  obtain ⟨y, hy, rfl⟩ := List.mem_map.mp hx
  have hy' : s.stdout ≠ some y.id := by
    split at hid <;> exact hid ▸ hins
  rw [if_neg hy'] at hid heq
  subst hid
  rw [Sys.output_print, if_pos rfl, ← h.held y hy] at heq
  have hlen := congrArg String.length (Reply.result.inj heq).2
  rw [String.length_append] at hlen
  refine hne (String.length_eq_zero_iff.mp ?_)
  omega

/-! ## Two schedules -/

instance (s : Sys) (a : Action) : Decidable (s.OwnHandler a) := by
  cases a with
  | print id text => exact inferInstanceAs (Decidable (text ≠ "" → s.stdout = some id))
  | _ => exact isTrue trivial

/-- The second message is taken while the first snippet is awaited, which prints nothing from then
on. -/
theorem answered_while_awaited : ∃ s : Sys, system.Reachable Sys.OwnHandler s ∧
    s.settled = [(0, .result 1 "one"), (1, .result 2 "two")] ∧ s.Answered := by
  obtain ⟨s, hr, hs⟩ := system.exists_reachable Sys.OwnHandler
    [.call "print('one')", .call "print('two')", .load,
      .receive "", .print 1 "one", .receive "", .print 2 "two", .finish 1 none, .finish 2 none,
      .deliver, .deliver]
    (fun s ↦ s.settled = [(0, .result 1 "one"), (1, .result 2 "two")]) rfl (by decide +kernel)
  exact ⟨s, hr, of_decide_eq_true hs, answered_of_ownHandler hr⟩

/-- A second message is taken while the first snippet is awaited: what the first prints from
then on is captured for the second. -/
theorem not_always_answered :
    ¬ ∀ s : Sys, system.Reachable (fun _ _ ↦ True) s → s.Answered := by
  intro hall
  obtain ⟨s, hr, hs⟩ := system.exists_reachable (fun _ _ ↦ True)
    [.call "await f(); print('one')", .call "await g()", .load, .receive "", .receive "",
      .print 1 "one", .finish 1 none, .deliver]
    (fun s ↦ s.promises = [1, 2] ∧ s.settlements 0 = [.result 1 ""] ∧ s.output 1 = "one") rfl
    (by decide +kernel)
  obtain ⟨hp, hset, hout⟩ := of_decide_eq_true hs
  have := (hall s hr).value 0 1 1 "" (by rw [hp]; rfl) (by rw [hset]; exact List.mem_cons_self ..)
  rw [hout] at this
  exact absurd this (by decide)

end ConnectWeb.Harness
