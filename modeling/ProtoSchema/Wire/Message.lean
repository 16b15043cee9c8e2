import ProtoSchema.Wire.Field

/-!
# Message types

A type of messages has a name, an empty value, the fields it knows at each remaining depth and the
records it is written as. Encoding and decoding follow from these.

Key results:
* `length_encode` — `encodedLength` counts the bytes of `encode`
* `embedded_zero` — no message is entered once the depth is used up
-/

namespace ProtoSchema.Wire

/-- A type of messages. -/
class Message (σ : Type) where
  name : String
  empty : σ
  fields : (depth : Nat) → List (Field σ)
  records : σ → List Record

namespace Message

variable {σ : Type} [Message σ]

/-- How deep messages may be nested. -/
def depthLimit : Nat := 100

/-- Reads an embedded message at a remaining depth, which it lowers by one. -/
def embedded (σ : Type) [Message σ] : (depth : Nat) → Merge σ
  | 0 => fun _ => fault .depthReached
  | depth + 1 => mergeDelimited (name σ) (fields depth) depth

/-- Reads a whole input as one message. -/
def decode (σ : Type) [Message σ] (input : List UInt8) : Except DecodeError σ :=
  (mergeWithin (name σ) (fields depthLimit) depthLimit input.length empty input).map Prod.fst

/-- The bytes of a message. -/
def encode (m : σ) : List UInt8 :=
  Record.encodeAll (records m)

/-- The number of bytes of a message. -/
def encodedLength (m : σ) : Nat :=
  Record.sizeAll (records m)

/-- The longest chain of messages embedded in a message. -/
def height (m : σ) : Nat :=
  Record.heightAll (records m)

/-- `encodedLength` counts the bytes of `encode`. -/
theorem length_encode (m : σ) : (encode m).length = encodedLength m :=
  Record.length_encodeAll (records m)

/-- No message is entered once the depth is used up. -/
@[simp] theorem embedded_zero (s : σ) : embedded σ 0 s = fault .depthReached := rfl

end Message

end ProtoSchema.Wire
