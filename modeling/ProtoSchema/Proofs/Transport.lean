import Mathlib.Algebra.Group.Nat.Defs
import ProtoSchema.CommandLine
import ProtoSchema.Proofs.Plugin.ReadBack

/-!
# Delivered responses

A response is written in whole, or the delivery says why not. No byte is written before there is a
response, so that a request that cannot be read, decoded or answered leaves the output empty. What
was delivered in whole is decoded to the response, since the files of a response hold no further
messages.

Key results:
* `decode_encode_response` — a response is decoded from its bytes
* `Sink.write_carries` — what a delivery has written, and with which result
* `CommandLine.output_run` — what a run of the program leaves in its output
* `transport_delivers` — every source, responder and sink, and every run of the program
-/

namespace ProtoSchema

open Plugin Wire

/-! ## Responses -/

/-- Single values hold no messages. -/
theorem heightAll_scalarRecords {α : Type} {kind : Scalar α} (h : kind.IsFaithful) (number : Nat)
    (value : Option α) : Record.heightAll (kind.records number value) = 0 := by
  cases value with
  | none => rfl
  | some v => exact (Record.heightAll_singleton _).trans (h.height_record number v)

/-- Embedded messages of a list are one level deeper. -/
theorem heightAll_listRecords_le {σ : Type} [Message σ] (number : Nat) {ms : List σ} {n : Nat}
    (h : ∀ m ∈ ms, Message.height m ≤ n) : Record.heightAll (listRecords number ms) ≤ n + 1 := by
  induction ms with
  | nil => exact Nat.zero_le _
  | cons m ms ih =>
    obtain ⟨hm, hms⟩ := List.forall_mem_cons.1 h
    exact Nat.max_le.2 ⟨Nat.succ_le_succ hm, ih hms⟩

/-- Files hold no messages. -/
theorem height_outputFile (file : OutputFile) : Message.height file = 0 := by
  have hrecords : Message.height file = Record.heightAll (Scalar.text.records 1 file.name
      ++ Scalar.text.records 2 file.insertionPoint ++ Scalar.text.records 15 file.content) := rfl
  simp only [hrecords, Record.heightAll_append, heightAll_scalarRecords Scalar.isFaithful_text,
    Nat.max_self]

/-- Only the files of a response are embedded messages. -/
theorem height_response_le (response : Response) : Message.height response ≤ 1 := by
  have hrecords : Message.height response = Record.heightAll (Scalar.text.records 1 response.error
      ++ Scalar.uint64.records 2 response.supportedFeatures ++ listRecords 15 response.files) := rfl
  have hfiles := heightAll_listRecords_le 15 fun file (_ : file ∈ response.files) =>
    Nat.le_of_eq (height_outputFile file)
  simp only [hrecords, Record.heightAll_append, heightAll_scalarRecords Scalar.isFaithful_text,
    heightAll_scalarRecords Scalar.isFaithful_uint64]
  omega

/-- A response is decoded from its bytes. -/
theorem decode_encode_response {response : Response}
    (h : (Message.encode response).length < 2 ^ 64) :
    Message.decode Response (Message.encode response) = .ok response := by
  rw [Message.length_encode] at h
  exact decode_encode_of_height_le (isReadBack_response response) h
    (Nat.le_trans (height_response_le response) (by decide))

/-! ## Deliveries -/

/-- What a delivery of a response to a stream is like. Either the stream had room for all bytes, and
the result is that of flushing it, or it took as many as it has room for. -/
structure Delivery.Carries (d : Delivery) (response : Response) (sink : Sink) : Prop where
  isPrefixOf : d.written <+: Message.encode response
  ok_iff : d.result = .ok () ↔ d.written = Message.encode response ∧ sink.flushFailure = none
  roomy : (∀ n ∈ sink.limit, (Message.encode response).length ≤ n) →
    d.written = Message.encode response
    ∧ ∀ text ∈ sink.flushFailure, d.result = .error (.io text)
  cut : ∀ n ∈ sink.limit, n < (Message.encode response).length →
    d.written = (Message.encode response).take n
    ∧ d.result = .error (.io "failed to write whole buffer")
  decoded : d.result = .ok () → d.written.length < 2 ^ 64 →
    Message.decode Response d.written = .ok response

/-- A stream without room for an output takes a part of it. -/
theorem Sink.write_of_lt {sink : Sink} {output : List UInt8} {n : Nat} (hn : sink.limit = some n)
    (h : n < output.length) :
    sink.write output = ⟨output.take n, .error (.io "failed to write whole buffer")⟩ := by
  rw [write, hn, Option.any_some, decide_eq_true h, if_pos rfl, Option.getD_some]

/-- A stream with room for an output takes it, and is flushed. -/
theorem Sink.write_of_le {sink : Sink} {output : List UInt8}
    (h : ∀ n ∈ sink.limit, output.length ≤ n) :
    sink.write output
      = ⟨output, sink.flushFailure.elim (.ok ()) fun text => .error (.io text)⟩ := by
  have hroom : sink.limit.any (· < output.length) = false := by
    cases hlimit : sink.limit with
    | none => rfl
    | some n => exact decide_eq_false (Nat.not_lt.2 (h n hlimit))
  rw [write, hroom, if_neg Bool.false_ne_true]
  cases sink.flushFailure <;> rfl

/-- Writing a response delivers it. -/
theorem Sink.write_carries (sink : Sink) (response : Response) :
    (sink.write (Message.encode response)).Carries response sink := by
  have hroomy := @write_of_le sink (Message.encode response)
  have hcut := @write_of_lt sink (Message.encode response)
  have hok : (sink.write (Message.encode response)).result = .ok () ↔
      (sink.write (Message.encode response)).written = Message.encode response
        ∧ sink.flushFailure = none := by
    rw [write_eq_ok_iff]
    -- Where the sink has no room, what it takes is too short to be the whole encoding.
    refine and_congr_left fun _ => ⟨fun h => by rw [hroomy h], fun h n hn => ?_⟩
    refine Nat.not_lt.1 fun hlt => ?_
    rw [hcut hn hlt] at h
    have hlength := congrArg List.length h
    rw [List.length_take] at hlength
    omega
  refine ⟨sink.written_isPrefixOf _, hok, fun h => ?_, fun n hn hlt => ?_, fun h hlength => ?_⟩
  · rw [hroomy h]
    refine ⟨rfl, fun text htext => ?_⟩
    rw [Option.mem_def.1 htext, Option.elim_some]
  · rw [hcut hn hlt]
    exact ⟨rfl, rfl⟩
  · have hwhole := (hok.1 h).1
    rw [hwhole] at hlength ⊢
    exact decode_encode_response hlength

/-! ## Transport -/

section Transport

variable (respond : Responder) {source : Source} (sink : Sink) {input : List UInt8}
  {request : Request}

/-- A source that cannot be read to its end leaves the output empty. -/
theorem transport_of_unread {error : Error} (h : source.readAll = .error error) :
    (transport respond source sink).value = ⟨[], .error error⟩ := by
  rw [transport, h]
  rfl

/-- An input that is no request leaves the output empty. -/
theorem transport_of_undecoded {error : DecodeError} (hread : source.readAll = .ok input)
    (h : Message.decode Request input = .error error) :
    (transport respond source sink).value = ⟨[], .error (.decode error)⟩ := by
  rw [transport, hread]
  dsimp only
  rw [h]
  rfl

/-- A request that is decoded is answered, and then there is an error or a response to write. -/
theorem transport_of_decoded (hread : source.readAll = .ok input)
    (h : Message.decode Request input = .ok request) :
    (transport respond source sink).value = match (respond request).value with
      | .error error => ⟨[], .error error⟩
      | .ok response => sink.write (Message.encode response) := by
  rw [transport, hread]
  dsimp only
  rw [h]
  dsimp only
  rw [Logged.value_bind]
  cases (respond request).value <;> rfl

end Transport

/-! ## Runs of the program -/

namespace CommandLine

/-- The program answers with the response that was generated, or with the error alone. -/
theorem value_respond (request : Request) :
    (respond request).value = .ok (match (generate request).value with
      | .ok response => response
      | .error error => { error := some error.message }) := by
  rw [respond, Logged.value_bind]
  cases (generate request).value <;> rfl

/-- An input that is no request makes the program fail with an empty output. -/
theorem run_of_undecoded (setting : Option String) {input : List UInt8} {error : DecodeError}
    (h : Message.decode Request input = .error error) :
    (run setting input).exitCode = 1 ∧ (run setting input).output = [] := by
  have hread : Source.readAll { bytes := input } = .ok input := rfl
  have hvalue := transport_of_undecoded respond {} hread h
  simp only [run, Result.ofDelivery, hvalue]
  exact ⟨trivial, trivial⟩

/-- A request makes the program succeed with the answer in its output. -/
theorem run_of_decoded (setting : Option String) {input : List UInt8} {request : Request}
    {response : Response} (h : Message.decode Request input = .ok request)
    (hresponse : (respond request).value = .ok response) :
    (run setting input).exitCode = 0 ∧ (run setting input).output = Message.encode response := by
  have hread : Source.readAll { bytes := input } = .ok input := rfl
  have hvalue := transport_of_decoded respond {} hread h
  rw [hresponse] at hvalue
  simp only [run, Result.ofDelivery, hvalue]
  exact ⟨rfl, rfl⟩

end CommandLine

/-- For every source, responder and sink: where reading, decoding or answering fails, that error is
the result and the output is empty; otherwise the delivery carries the response. A run of the
program succeeds exactly where its input is a request, and has then written the generated response
or one with the error alone; otherwise it fails with an empty output. An output is decoded again
where its bytes can be counted with 64 bits. -/
theorem transport_delivers :
    (∀ (respond : Responder) (source : Source) (sink : Sink),
      (∀ error, source.readAll = .error error →
        (transport respond source sink).value = ⟨[], .error error⟩)
      ∧ ∀ input, source.readAll = .ok input →
        (∀ error, Message.decode Request input = .error error →
          (transport respond source sink).value = ⟨[], .error (.decode error)⟩)
        ∧ ∀ request, Message.decode Request input = .ok request →
          (∀ error, (respond request).value = .error error →
            (transport respond source sink).value = ⟨[], .error error⟩)
          ∧ ∀ response, (respond request).value = .ok response →
            (transport respond source sink).value.Carries response sink)
    ∧ ∀ (setting : Option String) (input : List UInt8),
      ((CommandLine.run setting input).exitCode = 0 ↔
        ∃ request, Message.decode Request input = .ok request)
      ∧ ((CommandLine.run setting input).exitCode ≠ 0 →
        (CommandLine.run setting input).exitCode = 1 ∧ (CommandLine.run setting input).output = [])
      ∧ ∀ request, Message.decode Request input = .ok request →
        ∃ response : Response,
          ((generate request).value = .ok response
            ∨ ∃ error, (generate request).value = .error error
              ∧ response = { error := some error.message })
          ∧ (CommandLine.run setting input).output = Message.encode response
          ∧ ((CommandLine.run setting input).output.length < 2 ^ 64 →
            Message.decode Response (CommandLine.run setting input).output = .ok response) := by
  constructor
  · refine fun respond source sink => ⟨fun _ => transport_of_unread respond sink,
      fun input hread => ⟨fun _ => transport_of_undecoded respond sink hread,
        fun request hdecode => ?_⟩⟩
    have hvalue := transport_of_decoded respond sink hread hdecode
    refine ⟨fun error herror => ?_, fun response hresponse => ?_⟩
    · rw [hvalue, herror]
    · rw [hvalue, hresponse]
      exact sink.write_carries response
  · intro setting input
    -- Only an undecoded request ends with code 1; a generator error is carried in the response.
    cases hdecode : Message.decode Request input with
    | error error =>
      obtain ⟨hcode, houtput⟩ := CommandLine.run_of_undecoded setting hdecode
      refine ⟨?_, fun _ => ⟨hcode, houtput⟩, fun request h => nomatch h⟩
      rw [hcode]
      exact iff_of_false (by decide) fun ⟨_, h⟩ => nomatch h
    | ok request =>
      obtain ⟨hcode, houtput⟩ :=
        CommandLine.run_of_decoded setting hdecode (CommandLine.value_respond request)
      refine ⟨iff_of_true hcode ⟨request, rfl⟩, fun h => absurd hcode h, fun request' h => ?_⟩
      obtain rfl := Except.ok.inj h
      refine ⟨_, ?_, houtput, fun hlength => ?_⟩
      · cases hgenerate : (generate request).value with
        | error error => exact .inr ⟨error, rfl, rfl⟩
        | ok response => exact .inl rfl
      -- The output is the encoding of the response, so it is read back.
      · rw [houtput] at hlength ⊢
        exact decode_encode_response hlength

/-- A source that fails, an input that is no request, a responder that fails, a sink that takes two
bytes, and runs on an input that is no request and on an empty one. -/
theorem transport_delivers_small :
    (transport CommandLine.respond { bytes := [10], failsAt := some 1, failure := "lost" } {}).value
      = ⟨[], .error (.io "lost")⟩
    ∧ (transport CommandLine.respond { bytes := [255] } {}).value
      = ⟨[], .error (.decode ⟨.invalidVarint, []⟩)⟩
    ∧ (transport (fun _ => pure (.error (.io "busy"))) { bytes := [] } {}).value
      = ⟨[], .error (.io "busy")⟩
    ∧ (transport (fun _ => pure (.ok { error := some "late" })) { bytes := [] }
        { limit := some 2 }).value.Carries { error := some "late" } { limit := some 2 }
    ∧ ((CommandLine.run none [255]).exitCode = 1 ∧ (CommandLine.run none [255]).output = [])
    ∧ Message.decode Response (CommandLine.run none []).output
      = .ok { supportedFeatures := some 1 } := by
  have hempty : Message.decode Request [] = .ok {} := rfl
  have hwrong : Message.decode Request [255] = .error ⟨.invalidVarint, []⟩ := rfl
  have hnone : (generate {}).value = .ok { supportedFeatures := some 1 } := rfl
  refine ⟨(transport_delivers.1 _ _ _).1 _ rfl,
    ((transport_delivers.1 _ _ _).2 [255] rfl).1 _ hwrong,
    (((transport_delivers.1 _ _ _).2 [] rfl).2 {} hempty).1 _ rfl,
    (((transport_delivers.1 _ _ _).2 [] rfl).2 {} hempty).2 _ rfl,
    (transport_delivers.2 none [255]).2.1 ?_, ?_⟩
  · intro hcode
    obtain ⟨request, hrequest⟩ := (transport_delivers.2 none [255]).1.1 hcode
    rw [hwrong] at hrequest
    cases hrequest
  · obtain ⟨response, hresponse, houtput, hdecoded⟩ :=
      (transport_delivers.2 none []).2.2 {} hempty
    rcases hresponse with hresponse | ⟨error, herror, -⟩
    · rw [hnone] at hresponse
      obtain rfl := Except.ok.inj hresponse
      exact hdecoded (by rw [houtput]; decide +kernel)
    · rw [hnone] at herror
      cases herror

end ProtoSchema
