import ConnectWeb.Arrow.Cut
import ConnectWeb.Sab.Remote

/-!
# The rows of a query

The result of a query is cut three times: into chunks of its IPC streams by the server, into
chunks of the response body by the network, and into windows by the bridge.  What the caller
reassembles from the responses of its iterator is what the server sent, or a front of it.
-/

namespace ConnectWeb.Sab

open Transport (Answer)
open Arrow (Decoder IpcStream Response CarriesAll CutAt reassemble truncated)

variable {Schema RecordBatch : Type} {decoder : Decoder Schema RecordBatch} {f : Bytes → Response}
  {a : Answer} {streams : List (IpcStream decoder)}

/-- The messages of an answer carry the IPC streams of a result, among other responses. -/
def AnswersQuery (decoder : Decoder Schema RecordBatch) (f : Bytes → Response) (a : Answer)
    (streams : List (IpcStream decoder)) : Prop :=
  CarriesAll 0 streams ((a.messages.map f).filterMap (·.arrowBatch))

/-- What is reassembled has the record batches of some of the streams, from the first on, or it is
not complete and says so. -/
def ReassemblesFront (decoder : Decoder Schema RecordBatch) (streams : List (IpcStream decoder))
    (responses : List Response) : Prop :=
  (∃ front, front <+: streams ∧
    reassemble decoder responses = .ok (front.flatMap (·.batches), front.head?.map (·.schema))) ∨
  ∃ n, reassemble decoder responses = .error (truncated n)

theorem AnswersQuery.reassemble_eq (h : AnswersQuery decoder f a streams) :
    reassemble decoder (a.messages.map f) =
      .ok (streams.flatMap (·.batches), streams.head?.map (·.schema)) := by
  obtain ⟨bs, hbs, hflat, rfl⟩ := CarriesAll.exists_inRow h
  have hcut : CutAt (·.chunks) bs ((a.messages.map f).filterMap (·.arrowBatch)) bs [] :=
    ⟨by rw [hflat, List.append_nil], List.prefix_rfl, fun hne ↦ absurd rfl hne⟩
  rw [Arrow.reassemble_cut hbs hcut, if_pos rfl, List.flatMap_map, List.head?_map, Option.map_map]
  rfl

theorem AnswersQuery.reassemblesFront (h : AnswersQuery decoder f a streams)
    {responses : List Response} (hfront : responses <+: a.messages.map f) :
    ReassemblesFront decoder streams responses := by
  obtain ⟨bs, hbs, hflat, rfl⟩ := CarriesAll.exists_inRow h
  have habs : responses.filterMap (·.arrowBatch) <+: bs.flatMap (·.chunks) :=
    hflat ▸ hfront.filterMap Response.arrowBatch
  obtain ⟨whole, piece, hcut⟩ := Arrow.exists_cutAt habs
  have hrun := Arrow.reassemble_cut hbs hcut
  by_cases hnil : piece = []
  · rw [if_pos hnil] at hrun
    refine .inl ⟨whole.map (·.stream), hcut.isFront.map _, ?_⟩
    rw [hrun, List.flatMap_map, List.head?_map, Option.map_map]
    rfl
  · rw [if_neg hnil] at hrun
    exact .inr ⟨piece.length, hrun⟩

/-- What the caller of a query gets. -/
structure Client.Collects (client : Client) (decoder : Decoder Schema RecordBatch)
    (f : Bytes → Response) (answer : Pick → Answer) (s : Sys) : Prop where
  /-- An iterator that ends before a newer request has given the whole result. -/
  whole : ∀ call, .returned call .stop call.gen ∈ s.log →
    ∃ p rpc responses, client.Carried s call p rpc ∧
      client.perform f rpc (streaming (s.yields call.posted) none) =
        .stream (.ok (responses, (answer p).ending rpc.call.path)) ∧
      ∀ streams, AnswersQuery decoder f (answer p) streams →
        reassemble decoder responses =
          .ok (streams.flatMap (·.batches), streams.head?.map (·.schema))
  /-- Whatever ends an iterator, and at any time before. -/
  front : ∀ call bytes, .yielded call bytes ∈ s.log →
    ∃ p rpc, client.Carried s call p rpc ∧ ∀ ending, ∃ responses last,
      client.perform f rpc (streaming (s.yields call.posted) ending) =
        .stream (.ok (responses, last)) ∧
      ∀ streams, AnswersQuery decoder f (answer p) streams →
        ReassemblesFront decoder streams responses

/-- Where every RPC is a call of one stub and the server answers what is fetched, the record
batches that a caller has reassembled are at any time those of the first IPC streams that the
server sent for its query, and when the iterator has come to its end, those of all. -/
theorem collects_of_asking {engine : Engine} {client : Client} {s : Sys}
    (decoder : Decoder Schema RecordBatch) (f : Bytes → Response) {answer : Pick → Answer}
    (h : (system engine).Reachable
      (fun s a ↦ (s.Single a ∧ s.Fitting a ∧ Sys.Counted a) ∧ client.Asks a) s)
    (ha : s.AnsweredBy answer) : client.Collects decoder f answer s := by
  refine ⟨fun call he ↦ ?_, fun call bytes he ↦ ?_⟩
  · obtain ⟨p, rpc, hc, hstreams, hbody⟩ := client.exists_stopped h ha he
    refine ⟨p, rpc, (answer p).messages.map f, hc, ?_, fun streams hq ↦ hq.reassemble_eq⟩
    rw [client.perform_streaming f hstreams, (answer p).streamResponses_whole f _ hbody]
  · obtain ⟨p, rpc, hc, hstreams, hfront⟩ := client.exists_yielded h ha he
    refine ⟨p, rpc, hc, fun ending ↦ ⟨_, _, client.perform_streaming f hstreams _ ending, ?_⟩⟩
    exact fun streams hq ↦
      hq.reassemblesFront ((answer p).streamResponses_front f _ hfront ending)

/-- A query for the rows of one message: every byte is a row. -/
theorem collects_of_asking_remoteRun : ∃ s : Sys, s.hasReceived = true ∧
    namedClient.Collects Arrow.byteDecoder (fun bytes ↦ ⟨some { data := bytes }⟩)
      (fun _ ↦ okAnswer) s := by
  obtain ⟨s, hr, hs⟩ := exists_hasReceived
  exact ⟨s, hs, collects_of_asking _ _ hr (Sys.hasReceived_iff.mp hs).2.1⟩

end ConnectWeb.Sab
