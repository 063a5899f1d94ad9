import ConnectWeb.Sab.Service

/-!
# What a run of the service comes to

A history is what one sees of a run.  Request by request it says what the network gave and what
the caller got, and in a run of the service the second follows from the first.
-/

namespace ConnectWeb.Sab

/-! ## Histories -/

/-- The request that something happens to. -/
def Op.request : Op → Posted
  | .asked q | .sent q | .fetched q _ | .buffered q _ | .chunk q _ | .exhausted q | .failed q _ _
  | .yielded q _ | .returned q _ | .abandoned q => q

def Op.chunkOf (q : Posted) : Op → Option Bytes
  | .chunk q' bytes => if q' = q then some bytes else none
  | _ => none

def Op.yieldOf (q : Posted) : Op → Option Bytes
  | .yielded q' bytes => if q' = q then some bytes else none
  | _ => none

/-- What one sees of a run, oldest first. -/
abbrev History := List Op

namespace History

/-- The chunks that were read for a request. -/
def chunks (ops : History) (q : Posted) : List Bytes := ops.filterMap (Op.chunkOf q)

/-- The chunks that the caller got. -/
def yields (ops : History) (q : Posted) : List Bytes := ops.filterMap (Op.yieldOf q)

/-- What the call for a request may end with. -/
def Earns (ops : History) (q : Posted) : Outcome → Prop
  | .response resp => q.request.kind = .unary ∧ ∃ fetched body, .fetched q fetched ∈ ops ∧
      .buffered q body ∈ ops ∧ resp = ⟨fetched.status.toNat, fetched.collected, body⟩
  | .stop => q.request.kind = .serverStream ∧
      (.exhausted q ∈ ops ∧ ops.yields q = ops.chunks q ∨ ∃ q', .asked q' ∈ ops ∧ q.gen < q'.gen)
  | .raised e => ∃ message kind, .failed q message kind ∈ ops ∧ e = failure message kind

/-- A request is as far as its course says. -/
def Tells (ops : History) (q : Posted) : Course → Prop
  | .asked | .sent => ops.yields q = ops.chunks q
  | .buffering resp => ops.yields q = ops.chunks q ∧ q.request.kind = .unary ∧
      .fetched q resp ∈ ops
  | .whole resp body => ops.yields q = ops.chunks q ∧ q.request.kind = .unary ∧
      .fetched q resp ∈ ops ∧ .buffered q body ∈ ops
  | .streaming _ none => ops.yields q = ops.chunks q ∧ q.request.kind = .serverStream
  | .streaming _ (some bytes) => ops.yields q ++ [bytes] = ops.chunks q ∧
      q.request.kind = .serverStream
  | .exhausted => ops.yields q = ops.chunks q ∧ q.request.kind = .serverStream ∧
      .exhausted q ∈ ops
  | .failed message kind => ops.yields q <+: ops.chunks q ∧ .failed q message kind ∈ ops

section
variable (ops : History) (q : Posted) (op : Op)

theorem chunks_append : chunks (ops ++ [op]) q = ops.chunks q ++ (op.chunkOf q).toList := by
  rw [chunks, List.filterMap_append]
  cases h : op.chunkOf q <;> simp [h, chunks]

theorem yields_append : yields (ops ++ [op]) q = ops.yields q ++ (op.yieldOf q).toList := by
  rw [yields, List.filterMap_append]
  cases h : op.yieldOf q <;> simp [h, yields]

theorem chunks_chunk (bytes : Bytes) :
    chunks (ops ++ [.chunk q bytes]) q = ops.chunks q ++ [bytes] := by
  rw [chunks_append, Op.chunkOf, if_pos rfl]
  rfl

theorem yields_yielded (bytes : Bytes) :
    yields (ops ++ [.yielded q bytes]) q = ops.yields q ++ [bytes] := by
  rw [yields_append, Op.yieldOf, if_pos rfl]
  rfl

end

end History

/-! ## The steps of the service -/

/-- What a step of the service does. -/
inductive Service.Move (a : Service) : Op → Service → Prop where
  | asked {q : Posted} (h : ∀ l ∈ a.latest, l.1.gen < q.gen) :
      Move a (.asked q) ⟨q :: a.calls, some (q, .asked)⟩
  | returned {q : Posted} {o : Outcome} (hm : q ∈ a.calls) (h : a.Ends q o) :
      Move a (.returned q o) (a.settle q)
  | abandoned {q : Posted} (hm : q ∈ a.calls) (hk : q.request.kind = .serverStream) :
      Move a (.abandoned q) (a.settle q)
  | advance {op : Op} {q : Posted} {c c' : Course} (hl : a.latest = some (q, c))
      (hm : q ∈ a.calls) (hq : op.request = q) (hc : c.next q.request.kind op = some c') :
      Move a op { a with latest := some (q, c') }

theorem Service.advance_move {a a' : Service} {op : Op} (h : a.advance op.request op = some a') :
    a.Move op a' := by
  rcases hl : a.latest with _ | ⟨q, c⟩
  · rw [advance, hl] at h
    cases h
  · rw [advance, hl] at h
    simp only at h
    split at h
    · rename_i hq
      obtain ⟨c', hc, rfl⟩ := Option.map_eq_some_iff.mp h
      obtain ⟨rfl, hm⟩ := hq
      exact .advance hl hm rfl hc
    · cases h

theorem Service.Move.of_step {a a' : Service} {op : Op} (h : a.step op = some a') :
    a.Move op a' := by
  cases op with
  | asked q =>
      simp only [step] at h
      split at h
      · rename_i hgen
        cases h
        exact .asked hgen
      · cases h
  | returned q o =>
      simp only [step] at h
      split at h
      · rename_i hend
        cases h
        exact .returned hend.1 hend.2
      · cases h
  | abandoned q =>
      simp only [step] at h
      split at h
      · rename_i hk
        cases h
        exact .abandoned hk.1 hk.2
      · cases h
  | _ => exact advance_move h

/-! ## What a step adds -/

namespace Op

variable {op : Op} {q : Posted}

theorem chunkOf_of_ne (h : op.request ≠ q) : op.chunkOf q = none := by
  cases op <;> first
    | rfl
    | exact if_neg h

theorem yieldOf_of_ne (h : op.request ≠ q) : op.yieldOf q = none := by
  cases op <;> first
    | rfl
    | exact if_neg h

end Op

namespace History

variable {ops : History} {q : Posted} {op : Op}

theorem chunks_of_none (h : op.chunkOf q = none) : chunks (ops ++ [op]) q = ops.chunks q := by
  rw [chunks_append, h]
  exact List.append_nil _

theorem yields_of_none (h : op.yieldOf q = none) : yields (ops ++ [op]) q = ops.yields q := by
  rw [yields_append, h]
  exact List.append_nil _

/-- Whatever its course, what the caller got was read. -/
theorem Tells.ordered {c : Course} (h : ops.Tells q c) : ops.yields q <+: ops.chunks q := by
  rcases c with _ | _ | _ | _ | ⟨_, _ | bytes⟩ | _ | _
  · exact h ▸ List.prefix_rfl
  · exact h ▸ List.prefix_rfl
  · exact h.1 ▸ List.prefix_rfl
  · exact h.1 ▸ List.prefix_rfl
  · exact h.1 ▸ List.prefix_rfl
  · exact ⟨[bytes], h.1⟩
  · exact h.1 ▸ List.prefix_rfl
  · exact h.1

/-- A request goes on by one step of its course. -/
theorem Tells.next {c c' : Course} (h : ops.Tells q c) (hq : op.request = q)
    (hc : c.next q.request.kind op = some c') : Tells (ops ++ [op]) q c' := by
  have hnew : op ∈ ops ++ [op] := List.mem_append_right _ (List.mem_singleton_self op)
  have still : op.chunkOf q = none → op.yieldOf q = none → ops.yields q = ops.chunks q →
      yields (ops ++ [op]) q = chunks (ops ++ [op]) q := by
    intro hchunk hyield hlevel
    rw [chunks_of_none hchunk, yields_of_none hyield, hlevel]
  have hordered := h.ordered
  unfold Course.next at hc
  split at hc
  · cases hc
    exact still rfl rfl h
  · subst hq
    split at hc
    · rename_i hk
      cases hc
      exact ⟨still rfl rfl h, hk, hnew⟩
    · rename_i hk
      cases hc
      exact ⟨still rfl rfl h, hk⟩
  · subst hq
    cases hc
    exact ⟨still rfl rfl h.1, h.2.1, List.mem_append_left _ h.2.2, hnew⟩
  · rename_i bytes
    subst hq
    cases hc
    refine ⟨?_, h.2⟩
    exact (congrArg (· ++ [bytes]) ((yields_of_none rfl).trans h.1)).trans (chunks_chunk ..).symm
  · rename_i bytes'
    split at hc
    · rename_i heq
      subst heq hq
      cases hc
      exact ⟨(yields_yielded ..).trans (h.1.trans (chunks_of_none rfl).symm), h.2⟩
    · cases hc
  · subst hq
    cases hc
    exact ⟨still rfl rfl h.1, h.2, hnew⟩
  · cases hc
  · cases hc
  · subst hq
    cases hc
    refine ⟨?_, hnew⟩
    rw [chunks_of_none rfl, yields_of_none rfl]
    exact hordered
  · cases hc

/-- A step that neither reads nor yields leaves the course. -/
theorem Tells.append {c : Course} (h : ops.Tells q c) (hchunk : op.chunkOf q = none)
    (hyield : op.yieldOf q = none) : Tells (ops ++ [op]) q c := by
  have old : ∀ {op'}, op' ∈ ops → op' ∈ ops ++ [op] := fun hop ↦ List.mem_append_left _ hop
  rcases c with _ | _ | _ | _ | ⟨_, _ | bytes⟩ | _ | _
  all_goals simp only [Tells, chunks_of_none hchunk, yields_of_none hyield] at h ⊢
  · exact h
  · exact h
  · exact ⟨h.1, h.2.1, old h.2.2⟩
  · exact ⟨h.1, h.2.1, old h.2.2.1, old h.2.2.2⟩
  · exact h
  · exact h
  · exact ⟨h.1, h.2.1, old h.2.2⟩
  · exact ⟨h.1, old h.2⟩

/-- Nor does it take back what was earned. -/
theorem Earns.append {o : Outcome} (h : ops.Earns q o) (hchunk : op.chunkOf q = none)
    (hyield : op.yieldOf q = none) : Earns (ops ++ [op]) q o := by
  cases o with
  | response resp =>
      obtain ⟨hk, fetched, body, hf, hb, rfl⟩ := h
      exact ⟨hk, fetched, body, List.mem_append_left _ hf, List.mem_append_left _ hb, rfl⟩
  | stop =>
      refine ⟨h.1, h.2.imp (fun h ↦ ⟨List.mem_append_left _ h.1, ?_⟩) fun h ↦ h.imp fun _ h ↦
        ⟨List.mem_append_left _ h.1, h.2⟩⟩
      rw [chunks_of_none hchunk, yields_of_none hyield]
      exact h.2
  | raised e =>
      obtain ⟨message, kind, hf, rfl⟩ := h
      exact ⟨message, kind, List.mem_append_left _ hf, rfl⟩

/-- A call that ends with what its request led to has earned it. -/
theorem Tells.earns {c : Course} {o : Outcome} (h : ops.Tells q c) (ho : c.outcome = some o) :
    ops.Earns q o := by
  cases c with
  | whole resp body =>
      cases ho
      exact ⟨h.2.1, resp, body, h.2.2.1, h.2.2.2, rfl⟩
  | exhausted =>
      cases ho
      exact ⟨h.2.1, .inl ⟨h.2.2, h.1⟩⟩
  | failed message kind =>
      cases ho
      exact ⟨message, kind, h.2, rfl⟩
  | _ => cases ho

end History

/-! ## Runs of the service -/

/-- A run of the service with its history. -/
structure Service.Keeps (ops : History) (a : Service) : Prop where
  latest : ∀ q c, a.latest = some (q, c) → .asked q ∈ ops ∧ ops.Tells q c
  calls : ∀ q ∈ a.calls, .asked q ∈ ops
  bound : ∀ op ∈ ops, ∃ l ∈ a.latest, op.request = l.1 ∨ op.request.gen < l.1.gen
  ordered : ∀ q, ops.yields q <+: ops.chunks q
  streams : ∀ q bytes, .yielded q bytes ∈ ops → q.request.kind = .serverStream
  gone : ∀ q o, .returned q o ∈ ops → q ∉ a.calls
  earned : ∀ q o, .returned q o ∈ ops → ops.Earns q o
  spent : ∀ q c, a.latest = some (q, c) → .exhausted q ∈ ops → c = .exhausted
  raised : ∀ q e, .returned q (.raised e) ∈ ops → .exhausted q ∉ ops

namespace Service

variable {ops : History} {a a' : Service} {q : Posted} {op : Op}

theorem Keeps.init : Keeps [] {} where
  latest _ _ h := by cases h
  calls _ h := by cases h
  bound _ h := by cases h
  ordered _ := List.prefix_rfl
  streams _ _ h := by cases h
  gone _ _ h := by cases h
  earned _ _ h := by cases h
  spent _ _ h := by cases h
  raised _ _ h := by cases h

/-- A step is about a call that is not over, or about a request newer than all others. -/
theorem Move.request (hm : a.Move op a') :
    op.request ∈ a.calls ∨ op = .asked op.request ∧ ∀ l ∈ a.latest, l.1.gen < op.request.gen := by
  cases hm with
  | asked h => exact .inr ⟨rfl, h⟩
  | returned hm _ | abandoned hm _ => exact .inl hm
  | advance _ hm hq _ => exact .inl (hq ▸ hm)

/-- Nothing happens to a request behind the end of its call. -/
theorem Keeps.request_ne (h : Keeps ops a) (hm : a.Move op a') {o : Outcome}
    (hret : .returned q o ∈ ops) : op.request ≠ q := by
  rintro rfl
  rcases hm.request with hmem | ⟨-, hgen⟩
  · exact h.gone _ o hret hmem
  · obtain ⟨l, hl, hle⟩ := h.bound _ hret
    have hlt := hgen l hl
    rcases hle with heq | hlt'
    · exact absurd (congrArg Posted.gen heq) hlt.ne'
    · exact absurd hlt' hlt.le.not_gt

/-- What ends a call is earned. -/
theorem Keeps.earns (h : Keeps ops a) {o : Outcome} (hm : q ∈ a.calls) (hend : a.Ends q o) :
    ops.Earns q o := by
  obtain ⟨⟨q', c⟩, hl, hend⟩ := hend
  obtain ⟨hasked, htells⟩ := h.latest q' c hl
  simp only at hend
  split at hend
  · rename_i heq
    subst heq
    exact htells.earns hend
  · rename_i hne
    obtain ⟨rfl, hk⟩ := hend
    obtain ⟨l, hl', hle⟩ := h.bound _ (h.calls q hm)
    cases hl.symm.trans hl'
    exact ⟨hk, .inr ⟨q', hasked, hle.resolve_left fun heq ↦ hne heq.symm⟩⟩

/-- A call that raises was not at the end of its stream. -/
theorem Keeps.not_exhausted (h : Keeps ops a) {e : WorkerExc} (hend : a.Ends q (.raised e)) :
    .exhausted q ∉ ops := by
  intro hex
  obtain ⟨⟨q', c⟩, hl, hend⟩ := hend
  simp only at hend
  split at hend
  · rename_i heq
    subst heq
    rw [h.spent q' c hl hex] at hend
    cases hend
  · cases hend.1

/-- A step leaves the requests that it is not about. -/
theorem Keeps.ordered_append (h : Keeps ops a)
    (ho : History.yields (ops ++ [op]) op.request <+: History.chunks (ops ++ [op]) op.request)
    (q : Posted) : History.yields (ops ++ [op]) q <+: History.chunks (ops ++ [op]) q := by
  by_cases heq : op.request = q
  · exact heq ▸ ho
  · rw [History.chunks_of_none (Op.chunkOf_of_ne heq),
      History.yields_of_none (Op.yieldOf_of_ne heq)]
    exact h.ordered q

/-- What was earned stays so. -/
theorem Keeps.earned_append (h : Keeps ops a) (hm : a.Move op a') {o : Outcome}
    (hret : .returned q o ∈ ops) : History.Earns (ops ++ [op]) q o :=
  have hne := h.request_ne hm hret
  (h.earned q o hret).append (Op.chunkOf_of_ne hne) (Op.yieldOf_of_ne hne)

/-- A new request. -/
theorem Keeps.ask (h : Keeps ops a) (hgen : ∀ l ∈ a.latest, l.1.gen < q.gen) :
    Keeps (ops ++ [.asked q]) ⟨q :: a.calls, some (q, .asked)⟩ := by
  have hnew : Op.asked q ∈ ops ++ [.asked q] :=
    List.mem_append_right _ (List.mem_singleton_self _)
  have old : ∀ {op'}, op' ∈ ops ++ [.asked q] → op' ∈ ops ∨ op' = .asked q := by
    intro op' hop
    exact (List.mem_append.mp hop).imp_right List.mem_singleton.mp
  have lower : ∀ op' ∈ ops, op'.request.gen < q.gen := by
    intro op' hop
    obtain ⟨l, hl, hle⟩ := h.bound op' hop
    rcases hle with heq | hlt
    · rw [heq]
      exact hgen l hl
    · exact hlt.trans (hgen l hl)
  have fresh : ∀ op' ∈ ops, op'.request ≠ q := by
    rintro op' hop rfl
    exact lt_irrefl _ (lower op' hop)
  have hlevel : History.yields (ops ++ [.asked q]) q = History.chunks (ops ++ [.asked q]) q := by
    rw [History.chunks_of_none rfl, History.yields_of_none rfl, History.chunks, History.yields,
      List.filterMap_eq_nil_iff.mpr fun op' hop ↦ Op.chunkOf_of_ne (fresh op' hop),
      List.filterMap_eq_nil_iff.mpr fun op' hop ↦ Op.yieldOf_of_ne (fresh op' hop)]
  refine ⟨?_, ?_, ?_, h.ordered_append (hlevel ▸ List.prefix_rfl), fun q' bytes hy ↦
    h.streams q' bytes ((old hy).resolve_right (by simp)), ?_, ?_, ?_, ?_⟩
  · rintro q' c hl
    cases hl
    exact ⟨hnew, hlevel⟩
  · intro q' hq'
    rcases List.mem_cons.mp hq' with rfl | hq'
    · exact hnew
    · exact List.mem_append_left _ (h.calls q' hq')
  · intro op' hop
    refine ⟨(q, .asked), rfl, ?_⟩
    rcases old hop with hop | rfl
    · exact .inr (lower op' hop)
    · exact .inl rfl
  · intro q' o hret hmem
    have hret' := (old hret).resolve_right (by simp)
    rcases List.mem_cons.mp hmem with rfl | hmem
    · exact fresh _ hret' rfl
    · exact h.gone q' o hret' hmem
  · exact fun q' o hret ↦ h.earned_append (.asked hgen) ((old hret).resolve_right (by simp))
  · rintro q' c hl hex
    cases hl
    exact absurd rfl (fresh _ ((old hex).resolve_right (by simp)))
  · exact fun q' e hret hex ↦ h.raised q' e ((old hret).resolve_right (by simp))
      ((old hex).resolve_right (by simp))

/-- A call is over: it returns, or its generator is closed. -/
theorem Keeps.settle (h : Keeps ops a) (hm : a.Move op (a.settle op.request))
    (hmem : op.request ∈ a.calls) (hchunk : ∀ q, op.chunkOf q = none)
    (hyield : ∀ q, op.yieldOf q = none)
    (hret : ∀ q o, op = .returned q o → History.Earns (ops ++ [op]) q o)
    (hraised : ∀ q e, op = .returned q (.raised e) → .exhausted q ∉ ops)
    (hex : ∀ q, op ≠ .exhausted q) : Keeps (ops ++ [op]) (a.settle op.request) := by
  have keep : ∀ {op'}, op' ∈ ops → op' ∈ ops ++ [op] := fun hop ↦ List.mem_append_left _ hop
  have old : ∀ {op'}, op' ∈ ops ++ [op] → op' ∈ ops ∨ op' = op := by
    intro op' hop
    exact (List.mem_append.mp hop).imp_right List.mem_singleton.mp
  refine ⟨?_, fun q' hq' ↦ keep (h.calls q' (List.mem_of_mem_filter hq')), ?_,
    h.ordered_append ?_, ?_, ?_, ?_, fun q' c hl hex' ↦ ?_, fun q' e ho hex' ↦ ?_⟩
  · intro q' c hl
    obtain ⟨hasked, htells⟩ := h.latest q' c hl
    exact ⟨keep hasked, htells.append (hchunk q') (hyield q')⟩
  · intro op' hop
    rcases old hop with hop | rfl
    · exact h.bound op' hop
    · exact h.bound (.asked _) (h.calls _ hmem)
  · rw [History.chunks_of_none (hchunk _), History.yields_of_none (hyield _)]
    exact h.ordered _
  · intro q' bytes hy
    rcases old hy with hy | rfl
    · exact h.streams q' bytes hy
    · exact absurd (hyield q') (by simp [Op.yieldOf])
  · intro q' o ho hmem'
    obtain ⟨hmem', hne⟩ := List.mem_filter.mp hmem'
    rcases old ho with ho | rfl
    · exact h.gone q' o ho hmem'
    · exact of_decide_eq_true hne rfl
  · intro q' o ho
    rcases old ho with ho | heq
    · exact h.earned_append hm ho
    · exact hret q' o heq.symm
  · exact h.spent q' c hl ((old hex').resolve_right (hex q').symm)
  · have hex0 := (old hex').resolve_right (hex q').symm
    rcases old ho with ho | heq
    · exact h.raised q' e ho hex0
    · exact hraised q' e heq.symm hex0

/-- The last request goes on. -/
theorem Keeps.advance {c c' : Course} (h : Keeps ops a)
    (hm : a.Move op { a with latest := some (q, c') }) (hl : a.latest = some (q, c)) (hop : op.request = q)
    (hc : c.next q.request.kind op = some c') :
    Keeps (ops ++ [op]) { a with latest := some (q, c') } := by
  have keep : ∀ {op'}, op' ∈ ops → op' ∈ ops ++ [op] := fun hop ↦ List.mem_append_left _ hop
  have old : ∀ {op'}, op' ∈ ops ++ [op] → op' ∈ ops ∨ op' = op := by
    intro op' hop
    exact (List.mem_append.mp hop).imp_right List.mem_singleton.mp
  obtain ⟨hasked, htells⟩ := h.latest q c hl
  have hnext := htells.next hop hc
  have hret : ∀ q' o, .returned q' o ∈ ops ++ [op] → .returned q' o ∈ ops := by
    intro q' o hret
    refine (old hret).resolve_right ?_
    rintro rfl
    rcases c with _ | _ | _ | _ | ⟨_, _ | _⟩ | _ | _ <;> cases hc
  refine ⟨?_, fun q' hq' ↦ keep (h.calls q' hq'), ?_, h.ordered_append (hop ▸ hnext.ordered),
    ?_, fun q' o ho ↦ h.gone q' o (hret q' o ho),
    fun q' o ho ↦ h.earned_append hm (hret q' o ho), ?_, fun q' e ho hex ↦ ?_⟩
  · rintro q' c0 hl'
    cases hl'
    exact ⟨keep hasked, hnext⟩
  · intro op' hop'
    refine ⟨(q, c'), rfl, ?_⟩
    rcases old hop' with hop' | rfl
    · obtain ⟨l, hl', hle⟩ := h.bound op' hop'
      cases hl.symm.trans hl'
      exact hle
    · exact .inl hop
  · intro q' bytes hy
    rcases old hy with hy | rfl
    · exact h.streams q' bytes hy
    · cases hop
      rcases c with _ | _ | _ | _ | ⟨_, _ | _⟩ | _ | _ <;> first
        | cases hc
        | exact htells.2
  · rintro q' c0 hl' hex
    cases hl'
    rcases old hex with hex | rfl
    · rw [h.spent q c hl hex] at hc
      cases op <;> cases hc
    · rcases c with _ | _ | _ | _ | ⟨_, _ | _⟩ | _ | _ <;> cases hc
      rfl
  · rcases old hex with hex | rfl
    · exact h.raised q' e (hret q' _ ho) hex
    · exact h.request_ne hm (hret q' _ ho) rfl

theorem Keeps.step (h : Keeps ops a) (hm : a.Move op a') : Keeps (ops ++ [op]) a' := by
  have hm' := hm
  cases hm with
  | asked hgen => exact h.ask hgen
  | returned hq hend =>
      refine h.settle hm' hq (fun _ ↦ rfl) (fun _ ↦ rfl) (fun q o heq ↦ ?_) (fun q e heq ↦ ?_) nofun
      · cases heq
        exact (h.earns hq hend).append rfl rfl
      · cases heq
        exact h.not_exhausted hend
  | abandoned hq _ =>
      exact h.settle hm' hq (fun _ ↦ rfl) (fun _ ↦ rfl) (fun _ _ heq ↦ (by cases heq))
        (fun _ _ heq ↦ (by cases heq)) nofun
  | advance hl _ hop hc => exact h.advance hm' hl hop hc

/-- In a run of the service, everyone gets what the network gave. -/
theorem Keeps.run (h : Keeps ops a) {later : History} (hrun : service.run a later = some a') :
    Keeps (ops ++ later) a' := by
  induction later generalizing ops a with
  | nil =>
      cases hrun
      rwa [List.append_nil]
  | cons op later ih =>
      obtain ⟨a1, hstep, hrest⟩ := Option.bind_eq_some_iff.mp
        ((System.run_cons service a op later).symm.trans hrun)
      have hkeeps := ih (h.step (.of_step hstep)) hrest
      rwa [List.append_assoc] at hkeeps

end Service

end ConnectWeb.Sab
