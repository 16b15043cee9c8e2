import ProtoSchema.Generation.Response

/-!
# Transport

A request comes in as bytes from a stream that may fail, and the response goes out to a stream that
may take only some of its bytes.

Key results:
* `Sink.write_eq_ok_iff` — exactly when a whole output is delivered
* `Sink.written_isPrefixOf` — what was written is the front of the output
-/

namespace ProtoSchema

open Plugin Wire

/-- The bytes of a message for a buffer, which grows unless it is of limited size. -/
def encodeWithin {σ : Type} [Message σ] (capacity : Option Nat) (m : σ) :
    Except Error (List UInt8) :=
  match capacity with
  | none => .ok (Message.encode m)
  | some n =>
    if n < Message.encodedLength m then .error (.encode (Message.encodedLength m) n)
    else .ok (Message.encode m)

/-- A buffer that grows has room for every message. -/
@[simp] theorem encodeWithin_none {σ : Type} [Message σ] (m : σ) :
    encodeWithin none m = .ok (Message.encode m) :=
  rfl

/-- A stream of bytes to read from. It may fail once a number of bytes is read, the end of the
stream included. -/
structure Source where
  bytes : List UInt8
  failsAt : Option Nat := none
  /-- The words of the system for the failure. -/
  failure : String := ""
deriving DecidableEq, Repr, Inhabited

/-- Reads a stream to its end. -/
def Source.readAll (s : Source) : Except Error (List UInt8) :=
  if s.failsAt.any (· ≤ s.bytes.length) then .error (.io s.failure) else .ok s.bytes

/-- A stream to write to. It may take a limited number of bytes only, and fail to flush. -/
structure Sink where
  limit : Option Nat := none
  flushFailure : Option String := none
deriving DecidableEq, Repr, Inhabited

/-- What became of an output: the bytes that were taken, and the error, if any. -/
structure Delivery where
  written : List UInt8 := []
  result : Except Error Unit
deriving Repr, Inhabited

namespace Sink

/-- Writes an output and flushes the stream. -/
def write (s : Sink) (output : List UInt8) : Delivery :=
  if s.limit.any (· < output.length) then
    ⟨output.take (s.limit.getD 0), .error (.io "failed to write whole buffer")⟩
  else
    match s.flushFailure with
    | some text => ⟨output, .error (.io text)⟩
    | none => ⟨output, .ok ()⟩

/-- A whole output is delivered when the stream has room for it and is flushed. -/
theorem write_eq_ok_iff {s : Sink} {output : List UInt8} :
    (s.write output).result = .ok () ↔
      (∀ n, s.limit = some n → output.length ≤ n) ∧ s.flushFailure = none := by
  obtain ⟨limit, flushFailure⟩ := s
  cases limit with
  | none => cases flushFailure <;> simp [write]
  | some n =>
    -- A stream that fills up reports that, whether or not it could be flushed.
    by_cases h : n < output.length
    · simp [write, h, Nat.not_le.2 h]
    · cases flushFailure <;> simp [write, h, Nat.not_lt.1 h]

/-- What was written is the front of the output. -/
theorem written_isPrefixOf (s : Sink) (output : List UInt8) :
    (s.write output).written <+: output := by
  unfold write
  split
  · exact List.take_prefix _ _
  · split <;> exact List.prefix_refl _

end Sink

/-- How a request is answered. -/
abbrev Responder := Request → Logged (Except Error Response)

/-- Reads a request, answers it and writes the response. Nothing is written before there is a
response, and all its bytes are in a buffer that grows. -/
def transport (respond : Responder) (source : Source) (sink : Sink) : Logged Delivery :=
  match source.readAll with
  | .error error => pure ⟨[], .error error⟩
  | .ok input =>
    match Message.decode Request input with
    | .error error => pure ⟨[], .error (.decode error)⟩
    | .ok request => do
      match ← respond request with
      | .error error => return ⟨[], .error error⟩
      | .ok response =>
        match encodeWithin none response with
        | .error error => return ⟨[], .error error⟩
        | .ok output => return sink.write output

end ProtoSchema
