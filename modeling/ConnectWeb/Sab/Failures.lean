import ConnectWeb.Sab.Seen
import ConnectWeb.Transport.Unary

/-!
# Failures of streaming calls

A failure that the server reports is in the last trailer frame of the body, or in the headers
and the HTTP status of a response without one.  `server_stream` hands on the chunks of the body
alone, so `_stream_responses` sees the former and not the latter.
-/

namespace ConnectWeb

namespace Transport

section

variable (resp : HttpResponse) (fs : List Frame)

variable {Msg : Type} (fromString : Bytes → Except Exc Msg)

end

section

variable {Msg : Type} (fromString : Bytes → Except Exc Msg) (path : String)

/-- What the transport raises is raised. -/
theorem streamResponses_ne_ok (chunks : List Bytes) (text : String) :
    (streamResponses fromString path chunks (some text)).2 ≠ .ok () := by
  rcases streamFrom_spoiled fromString path chunks [] none rfl with ⟨-, e, he⟩ | ⟨-, hend⟩
  · rw [streamResponses, he]
    simp
  · rw [streamResponses, hend, streamEnding]
    split <;> simp

end

end Transport

namespace Sab

open Transport

/-- `str(e)` -/
def TransportError.message : TransportError → String
  | plain m | timeout m | aborted m => m

/-- How `server_stream` ends for its caller: without a text it is exhausted, else it raises an
error of that text. -/
inductive Outcome.Ends : Outcome → Option String → Prop
  | stop : Ends .stop none
  | transport (e : TransportError) : Ends (.raised (.transport e)) (some e.message)
  | other (text : String) : Ends (.raised .other) (some text)

/-- How iterating a streaming call to its end comes out. -/
inductive Sys.Iterated {Msg : Type} (s : Sys) (fromString : Bytes → Except Exc Msg)
    (path : String) (call : Call) : Except Exc Unit → Prop
  /-- `_stream_responses` raises on a chunk, however `server_stream` would end. -/
  | spoiled {e : Exc} (he : ∀ ending,
      (streamResponses fromString path (s.yields ⟨call.gen, call.request⟩) ending).2 = .error e) :
      Iterated s fromString path call (.error e)
  /-- `server_stream` ends, and `_stream_responses` behind it. -/
  | ended {o : Outcome} {latest : Nat} {ending : Option String}
      (he : .returned call o latest ∈ s.log) (ho : o.Ends ending) :
      Iterated s fromString path call
        (streamResponses fromString path (s.yields ⟨call.gen, call.request⟩) ending).2

section

variable {Msg : Type} {fromString : Bytes → Except Exc Msg} {path : String} {s : Sys} {call : Call}

/-- Only behind a `server_stream` that is exhausted does the iteration end without an error. -/
theorem Sys.Iterated.stop (h : s.Iterated fromString path call (.ok ())) :
    (∃ latest, .returned call .stop latest ∈ s.log) ∧
      (streamResponses fromString path (s.yields ⟨call.gen, call.request⟩) none).2 = .ok () := by
  generalize hr : Except.ok () = result at h
  cases h with
  | spoiled _ => cases hr
  | ended he ho =>
      cases ho with
      | stop => exact ⟨⟨_, he⟩, rfl⟩
      | transport _ | other _ => exact absurd hr.symm (streamResponses_ne_ok fromString path _ _)

end

end Sab

end ConnectWeb
