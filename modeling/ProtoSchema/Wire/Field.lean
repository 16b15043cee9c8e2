import ProtoSchema.Wire.Record

/-!
# Fields of a message

A message is read field by field. A known field has its number, its name for error texts, the wire
type it must have, and the way its value changes the message read so far.

Key results:
* `Scalar` — the five kinds of single values, each read from the record it is written as
* `mergeWithin` — the fields of a message of a known length
-/

namespace ProtoSchema.Wire

/-- A kind of single value: how it is read, and the record it is written as. -/
structure Scalar (α : Type) where
  wireType : WireType
  read : ByteReader α
  record : (number : Nat) → α → Record

namespace Scalar

/-- Reads a length and that many bytes. -/
def readBytes : ByteReader (List UInt8) := do
  let length ← Varint.read
  Reader.take length ⟨.bufferUnderflow, []⟩

/-- The UTF-8 bytes of a text. -/
def bytesOfText (s : String) : List UInt8 :=
  s.toUTF8.data.toList

/-- The text that bytes in UTF-8 stand for. -/
def textOfBytes? (payload : List UInt8) : Option String :=
  String.fromUTF8? ⟨payload.toArray⟩

/-- Signed numbers of 32 bits, written in 64 bits of two's complement; of what is read only the low
32 bits count. -/
def int32 : Scalar Int32 where
  wireType := .varint
  read := return Int32.ofNat (← Varint.read)
  record number value := .varint number value.toInt64.toUInt64.toNat

/-- Unsigned numbers of 64 bits. -/
def uint64 : Scalar UInt64 where
  wireType := .varint
  read := return UInt64.ofNat (← Varint.read)
  record number value := .varint number value.toNat

/-- Truth values; every number but zero is true. -/
def bool : Scalar Bool where
  wireType := .varint
  read := return (← Varint.read) != 0
  record number value := .varint number value.toNat

/-- Runs of bytes. -/
def bytes : Scalar (List UInt8) where
  wireType := .lengthDelimited
  read := readBytes
  record := .bytes

/-- Text in UTF-8. -/
def text : Scalar String where
  wireType := .lengthDelimited
  read := do
    match textOfBytes? (← readBytes) with
    | some s => pure s
    | none => fault .invalidText
  record number value := .bytes number (bytesOfText value)

/-- The record of a value that is present. -/
def records {α : Type} (kind : Scalar α) (number : Nat) (value : Option α) : List Record :=
  (value.map (kind.record number)).toList

/-- Every text is read back from its bytes. -/
theorem textOfBytes?_bytesOfText (s : String) : textOfBytes? (bytesOfText s) = some s := by
  simp [textOfBytes?, bytesOfText, String.fromUTF8?, String.fromUTF8, s.isValidUTF8]

end Scalar

/-- Reads a value into what was read before. -/
abbrev Merge (σ : Type) := σ → ByteReader σ

/-- A known field of a message. -/
structure Field (σ : Type) where
  number : Nat
  name : String
  wireType : WireType
  merge : Merge σ

namespace Field

variable {σ τ α : Type}

/-- A field with single values, each put into the message as `put` says: the last one stays, or all
are listed. -/
def scalar (number : Nat) (name : String) (kind : Scalar α) (put : α → σ → σ) : Field σ where
  number := number
  name := name
  wireType := kind.wireType
  merge s := return put (← kind.read) s

/-- A field with embedded messages: each is read into `start` of the message so far, and the result
put back. -/
def message (number : Nat) (name : String) (inner : Merge τ) (start : σ → τ) (put : τ → σ → σ) :
    Field σ where
  number := number
  name := name
  wireType := .lengthDelimited
  merge s := return put (← inner (start s)) s

end Field

variable {σ : Type}

/-- Reads one field of the message `name` into `s`, at a remaining depth. A fault in a known field
is reported with its place, one in a field that is skipped is not. -/
def mergeField (name : String) (fields : List (Field σ)) (depth : Nat) : Merge σ := fun s => do
  let key ← Key.read
  match fields.find? (·.number == key.number) with
  | none =>
    skip depth key
    pure s
  | some field =>
    -- The place is added to whatever the reader of the value reports.
    Reader.mapError (DecodeError.within ⟨name, field.name⟩) do
      if key.wireType = field.wireType then field.merge s
      else fault (.unexpectedWireType key.wireType field.wireType)

/-- Reads fields until `length` bytes are taken. A field may not end after them. -/
def mergeWithin (name : String) (fields : List (Field σ)) (depth length : Nat) : Merge σ :=
  fun s => do
    let (_, s) ← Reader.iterate (fun (left, s) => do
      if left = 0 then pure none
      else
        let (s, taken) ← Reader.counted (mergeField name fields depth s)
        if left < taken then fault .lengthExceeded else pure (some (left - taken, s))) (length, s)
    pure s

/-- Reads a length and the fields within it. -/
def mergeDelimited (name : String) (fields : List (Field σ)) (depth : Nat) : Merge σ :=
  fun s => do
    let length ← Varint.read
    -- The length is compared with all that is left, not with what the message around it still has.
    if (← get).length < length then fault .bufferUnderflow
    else mergeWithin name fields depth length s

end ProtoSchema.Wire
