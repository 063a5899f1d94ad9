import ConnectWeb.Foundation.Unwinding
import Mathlib.Data.List.DropRight

/-!
# Snippets in a kernel (`installRunPythonForJupyterLite`)

In JupyterLite the kernel runs the snippets, and each call of `__pcwRunPython` listens to the
future of its own request.  However the messages of several calls are interleaved, a promise is
settled by what its own future said, and by the first of it that settles.
-/

namespace ConnectWeb.Harness

/-! ## Messages -/

/-- `text.trim()` -/
def trim (text : String) : String :=
  let blank := fun c : Char ↦
    let n := c.toNat
    (9 ≤ n && n ≤ 13) || n == 0x20 || n == 0xA0 || n == 0x1680 || (0x2000 ≤ n && n ≤ 0x200A) ||
      n == 0x2028 || n == 0x2029 || n == 0x202F || n == 0x205F || n == 0x3000 || n == 0xFEFF
  .ofList ((text.toList.dropWhile blank).rdropWhile blank)

/-- A message on the IOPub channel; `none` is a member that is missing. -/
structure IOPub where
  /-- `msg.header.msg_type` -/
  msgType : Option String := none
  /-- `msg.content.data["text/plain"]` -/
  plain : Option String := none
  text : Option String := none
  ename : Option String := none
  evalue : Option String := none
deriving DecidableEq, Repr

namespace IOPub

variable (m : IOPub)

/-- The text of a result, which takes the place of what came before. -/
def shows : Option String :=
  if m.msgType = some "execute_result" then m.plain.filter (· ≠ "") else none

/-- A text that is added to what came before. -/
def prints : Option String :=
  if m.msgType = some "stream" then m.text.filter (· ≠ "") else none

/-- The message of an error. -/
def fails : Option String :=
  if m.msgType = some "error" then some (trim (m.ename.getD "" ++ ": " ++ m.evalue.getD ""))
  else none

end IOPub

/-- How a promise is settled. -/
inductive Settlement where
  | resolved (out : String)
  | rejected (message : String)
deriving DecidableEq, Repr

/-! ## The page -/

/-- A call of `__pcwRunPython`: the variable of its closures, and its promise. -/
structure Execution where
  out : String := ""
  settled : Option Settlement := none
deriving DecidableEq, Repr

namespace Execution

/-- `resolve` or `reject`: a promise is settled once. -/
def settle (e : Execution) (x : Settlement) : Execution :=
  { e with settled := e.settled.or (some x) }

/-- `requestExecute`, which may throw. -/
def request (e : Execution) : (thrown : Option String) → Execution
  | none => e
  | some message => e.settle (.rejected message)

/-- `future.onIOPub` -/
def onIOPub (e : Execution) (m : IOPub) : Execution :=
  match m.shows, m.prints, m.fails with
  | some out, _, _ => { e with out }
  | none, some text, _ => { e with out := e.out ++ text }
  | none, none, some message => e.settle (.rejected message)
  | none, none, none => e

/-- The reactions to `future.done`. -/
def done (e : Execution) : Except String Unit → Execution
  | .ok () => e.settle (.resolved e.out)
  | .error message => e.settle (.rejected message)

end Execution

inductive PageInput where
  /-- `__pcwRunPython(src)`, and what `requestExecute` throws -/
  | call (src : String) (thrown : Option String)
  /-- A message to the future of call `i`. -/
  | iopub (i : Nat) (m : IOPub)
  | done (i : Nat) (r : Except String Unit)

/-- The page; what it answers is the code that it requests of the kernel. -/
def page : Machine (List Execution) PageInput (Option String) where
  step executions
    | .call src thrown => (some src, executions ++ [({} : Execution).request thrown])
    | .iopub i m => (none, executions.modify i (·.onIOPub m))
    | .done i r => (none, executions.modify i (·.done r))

/-! ## One call -/

/-- What happens to one call. -/
inductive CallEvent where
  | request (src : String) (thrown : Option String)
  | iopub (m : IOPub)
  | done (r : Except String Unit)

namespace CallEvent

/-- The messages of an event. -/
def messages : CallEvent → List IOPub
  | iopub m => [m]
  | request _ _ | done _ => []

/-- What an event does to the promise, behind some messages. -/
def settlement (output : String) : CallEvent → Option Settlement
  | request _ thrown => thrown.map .rejected
  | iopub m => m.fails.map .rejected
  | done (.ok ()) => some (.resolved output)
  | done (.error message) => some (.rejected message)

end CallEvent

/-- The last result, and what was printed behind it. -/
def output (messages : List IOPub) : String :=
  (messages.filterMap IOPub.shows).getLast?.getD "" ++
    .join ((messages.rtakeWhile fun m ↦ m.shows = none).filterMap IOPub.prints)

/-- The first event that settles says how. -/
def verdict (before : List IOPub) : List CallEvent → Option Settlement
  | [] => none
  | event :: events =>
      (event.settlement (output before)).or (verdict (before ++ event.messages) events)

/-- What the events do to a call of its own. -/
def Execution.handle (e : Execution) : CallEvent → Execution
  | .request _ thrown => e.request thrown
  | .iopub m => e.onIOPub m
  | .done r => e.done r

def CallEvent.code : CallEvent → Option String
  | request src _ => some src
  | iopub _ | done _ => none

/-- A page with one call. -/
def alone : Machine Execution CallEvent (Option String) where
  step e event := (event.code, e.handle event)

/-- What concerns call `i`. -/
def concerning (i : Nat) (executions : List Execution) : PageInput → Option CallEvent
  | .call src thrown => if executions.length = i then some (.request src thrown) else none
  | .iopub j m => if j = i ∧ i < executions.length then some (.iopub m) else none
  | .done j r => if j = i ∧ i < executions.length then some (.done r) else none

/-! ## One call alone -/

theorem output_snoc (messages : List IOPub) (m : IOPub) : output (messages ++ [m]) =
    m.shows.getD (output messages ++ m.prints.getD "") := by
  have hshows : (messages ++ [m]).filterMap IOPub.shows =
      messages.filterMap IOPub.shows ++ m.shows.toList := by
    rw [List.filterMap_append, List.filterMap_cons]
    cases m.shows <;> rfl
  rw [output, hshows]
  cases hs : m.shows with
  | some out =>
      rw [List.rtakeWhile_concat_neg _ _ _ (by simp [hs])]
      simp
  | none =>
      rw [List.rtakeWhile_concat_pos _ _ _ (by simp [hs]), List.filterMap_append, output]
      cases hp : m.prints with
      | none =>
          rw [List.filterMap_cons_none hp]
          simp
      | some text =>
          rw [List.filterMap_cons_some hp]
          simp [String.append_assoc]

theorem IOPub.plain_of_fails {m : IOPub} {message : String} (h : m.fails = some message) :
    m.shows = none ∧ m.prints = none := by
  rw [fails] at h
  split at h
  · rename_i ht
    simp [shows, prints, ht]
  · cases h

namespace Execution

variable (e : Execution)

/-- An event settles the promise, if nothing did before. -/
theorem settled_handle {output : String} (ho : e.out = output) (event : CallEvent) :
    (e.handle event).settled = e.settled.or (event.settlement output) := by
  subst ho
  rcases event with ⟨src, _ | message⟩ | m | ⟨_ | message⟩
  · exact (Option.or_none).symm
  · rfl
  · rw [handle, onIOPub, CallEvent.settlement]
    cases hf : m.fails with
    | none =>
        cases m.shows with
        | some out => exact Option.or_none.symm
        | none => cases m.prints <;> exact Option.or_none.symm
    | some message =>
        obtain ⟨hs, hp⟩ := IOPub.plain_of_fails hf
        rw [hs, hp]
        rfl
  · rfl
  · rfl

/-- The output is that of the messages so far. -/
theorem out_handle {messages : List IOPub} (ho : e.out = output messages) (event : CallEvent) :
    (e.handle event).out = output (messages ++ event.messages) := by
  rcases event with ⟨src, _ | message⟩ | m | ⟨_ | message⟩
  · exact ho.trans (congrArg output (List.append_nil _).symm)
  · exact ho.trans (congrArg output (List.append_nil _).symm)
  · rw [CallEvent.messages, output_snoc, handle, onIOPub, ← ho]
    cases m.shows with
    | some out => rfl
    | none =>
        cases m.prints with
        | some text => rfl
        | none =>
            rw [Option.getD_none, Option.getD_none, String.append_empty]
            cases m.fails <;> rfl
  · exact ho.trans (congrArg output (List.append_nil _).symm)
  · exact ho.trans (congrArg output (List.append_nil _).symm)

end Execution

/-- A call that is alone is settled by the first event that settles. -/
theorem settled_alone (events : List CallEvent) (e : Execution) {before : List IOPub}
    (ho : e.out = output before) :
    (alone.after e events).settled = e.settled.or (verdict before events) := by
  induction events generalizing e before with
  | nil => exact Option.or_none.symm
  | cons event events ih =>
      rw [Machine.after_cons]
      refine (ih (e.handle event) (e.out_handle ho event)).trans ?_
      rw [e.settled_handle ho, verdict, Option.or_assoc]

/-! ## Calls side by side -/

/-- The page does to a call what happens to it alone. -/
theorem page_unwinds (i : Nat) :
    page.Unwinds alone (concerning i) (fun executions e ↦ executions[i]?.getD {} = e) where
  hidden := by
    rintro executions e a rfl hv
    have other : ∀ {j : Nat} (f : Execution → Execution), ¬(j = i ∧ i < executions.length) →
        (executions.modify j f)[i]?.getD {} = executions[i]?.getD {} := by
      intro j f hne
      by_cases hji : j = i
      · have hge : executions.length ≤ i := Nat.le_of_not_lt fun hlt ↦ hne ⟨hji, hlt⟩
        rw [List.getElem?_eq_none hge, List.getElem?_eq_none (by rwa [List.length_modify])]
      · rw [List.getElem?_modify_ne _ _ hji]
    cases a with
    | call src thrown =>
        rw [concerning] at hv
        split at hv
        · cases hv
        · rename_i hlen
          change (executions ++ [_])[i]?.getD ({} : Execution) = _
          rw [List.getElem?_append]
          split
          · rfl
          · rename_i hge
            rw [List.getElem?_eq_none (Nat.le_of_not_lt hge), List.getElem?_eq_none]
            rw [List.length_singleton]
            omega
    | iopub j _ | done j _ =>
        rw [concerning] at hv
        split at hv
        · cases hv
        · exact other _ ‹_›
  visible := by
    rintro executions e a event rfl hv
    have own : ∀ (f : Execution → Execution), i < executions.length →
        (executions.modify i f)[i]?.getD {} = f (executions[i]?.getD {}) := by
      intro f hlt
      rw [List.getElem?_modify_eq, List.getElem?_eq_getElem hlt]
      rfl
    cases a with
    | call src thrown =>
        rw [concerning] at hv
        split at hv
        · rename_i hlen
          cases hv
          refine ⟨rfl, ?_⟩
          change (executions ++ [_])[i]?.getD ({} : Execution) =
            Execution.request (executions[i]?.getD {}) thrown
          rw [← hlen, List.getElem?_concat_length, List.getElem?_eq_none le_rfl]
          rfl
        · cases hv
    | iopub j _ | done j _ =>
        rw [concerning] at hv
        split at hv
        · rename_i h
          obtain ⟨rfl, hlt⟩ := h
          cases hv
          exact ⟨rfl, own _ hlt⟩
        · cases hv

/-- However the calls of `__pcwRunPython` are interleaved, each promise is settled by the first
event of its own call that settles, with the output of that call so far. -/
theorem settled_of_concerning (inputs : List PageInput) (i : Nat) :
    ((page.after [] inputs)[i]?.getD {}).settled =
      verdict [] ((page.seen (concerning i) [] inputs).map Prod.fst) := by
  have hout : (([] : List Execution)[i]?.getD {}).out = output [] := rfl
  rw [(page_unwinds i).related rfl inputs, settled_alone _ _ hout]
  rfl

end ConnectWeb.Harness
