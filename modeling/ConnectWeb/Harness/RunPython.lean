import ConnectWeb.Foundation.Dict
import ConnectWeb.Foundation.Transition

/-!
# Running snippets (`worker_bootstrap.js`, `run_python_bridge.js`)

`__pcwRunPython` posts a snippet to the worker under an id of its own and keeps a promise
for the reply.  The worker's message handler is an `async` function: it captures standard
output through the one handler that Pyodide has, awaits the snippet, and posts what it
captured.  The handlers of several messages may be at that `await` at the same time.

A step is what runs without giving up the thread: a call on the page, a handler up to its
`await` or behind it, the delivery of a reply, or a text that a snippet prints.  The fields
under *history* are read by no program.
-/

namespace ConnectWeb.Harness

/-- What the worker posts back. -/
inductive Reply where
  /-- `pcw_result` -/
  | result (id : Nat) (result : String)
  /-- `pcw_run_error` -/
  | runError (id : Nat) (message : String)
deriving DecidableEq, Repr

def Reply.id : Reply → Nat
  | result id _ | runError id _ => id

/-- A handler of `pcw_run` at its `await`: the id of its message, and its `out`. -/
structure Handler where
  id : Nat
  out : String := ""
deriving DecidableEq, Repr

/-- What a handler posts; `raised` is the text of what its snippet raised. -/
def Handler.reply (h : Handler) : Option String → Reply
  | none => .result h.id h.out
  | some message => .runError h.id message

@[simp] theorem Handler.id_reply (h : Handler) (raised : Option String) :
    (h.reply raised).id = h.id := by
  cases raised <;> rfl

structure Sys where
  /-- The page: the last id that was given out. -/
  seq : Nat := 0
  /-- The page: the promise that waits for the reply to an id. -/
  pending : Dict Nat Nat := []
  /-- The messages to the worker, oldest first. -/
  inbox : List (Nat × String) := []
  /-- The worker: `pyodide` is not `null`. -/
  pyodide : Bool := false
  /-- The worker: the handler whose `out` Pyodide's standard output goes to, if it does not go
  to the default. -/
  stdout : Option Nat := none
  /-- The worker: the handlers at their `await`. -/
  handlers : List Handler := []
  /-- The messages to the page, oldest first. -/
  outbox : List Reply := []
  /-- History: the id that each promise was created for. -/
  promises : List Nat := []
  /-- History: the promises that were settled, and by what. -/
  settled : List (Nat × Reply) := []
  /-- History: the snippets that were started. -/
  started : List Nat := []
  /-- History: what the snippets delivered to standard output. -/
  delivered : List (Nat × String) := []
deriving DecidableEq

namespace Sys

/-- `__pcwRunPython(src)` -/
def call (s : Sys) (src : String) : Sys :=
  let id := s.seq + 1
  { s with
    seq := id
    pending := s.pending.set id s.promises.length
    inbox := s.inbox ++ [(id, src)]
    promises := s.promises ++ [id] }

/-- `pyodide` is assigned. -/
def load (s : Sys) : Option Sys := if s.pyodide then none else some { s with pyodide := true }

/-- The worker takes a message; `nullError` is the engine's text for a property of `null`. -/
def receive (s : Sys) (nullError : String) : Option Sys :=
  match s.inbox with
  | [] => none
  | (id, _) :: inbox =>
      if s.pyodide then
        some { s with
          inbox
          stdout := some id
          handlers := s.handlers ++ [⟨id, ""⟩]
          started := s.started ++ [id] }
      else
        -- the reset in `finally` raises as well, behind the reply
        some { s with inbox, outbox := s.outbox ++ [.runError id nullError] }

/-- A snippet prints: while it is awaited, or from a task that it left behind. -/
def print (s : Sys) (id : Nat) (text : String) : Option Sys :=
  if id ∈ s.started then
    some { s with
      handlers := s.handlers.map fun h ↦
        if s.stdout = some h.id then { h with out := h.out ++ text } else h
      delivered := s.delivered ++ [(id, text)] }
  else none

/-- `runPythonAsync` settles. -/
def finish (s : Sys) (id : Nat) (raised : Option String) : Option Sys :=
  match s.handlers.find? fun h ↦ h.id = id with
  | none => none
  | some h =>
      some { s with
        handlers := s.handlers.erase h
        outbox := s.outbox ++ [h.reply raised]
        stdout := none }

/-- The page takes a reply. -/
def deliver (s : Sys) : Option Sys :=
  match s.outbox with
  | [] => none
  | r :: outbox =>
      match s.pending.get? r.id with
      | none => some { s with outbox }
      | some p =>
          some { s with
            outbox
            pending := s.pending.delete r.id
            settled := s.settled ++ [(p, r)] }

end Sys

inductive Action where
  | call (src : String)
  | load
  | receive (nullError : String)
  | print (id : Nat) (text : String)
  | finish (id : Nat) (raised : Option String)
  | deliver

def step (s : Sys) : Action → Option Sys
  | .call src => some (s.call src)
  | .load => s.load
  | .receive nullError => s.receive nullError
  | .print id text => s.print id text
  | .finish id raised => s.finish id raised
  | .deliver => s.deliver

/-- The page and one worker. -/
def system : System Sys Action where
  init := fun s ↦ s = {}
  step := step

end ConnectWeb.Harness
