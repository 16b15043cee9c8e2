/-!
# Decoding errors

What can be wrong with an encoded message, and where: the fault itself, and the known fields that
were being read, from the innermost to the outermost.
-/

namespace ProtoSchema.Wire

/-- How the value of a field is delimited on the wire. -/
inductive WireType where
  | varint
  | sixtyFourBit
  | lengthDelimited
  | startGroup
  | endGroup
  | thirtyTwoBit
deriving DecidableEq, Repr, Inhabited

namespace WireType

/-- The name used in error texts. -/
def label : WireType → String
  | varint => "Varint"
  | sixtyFourBit => "SixtyFourBit"
  | lengthDelimited => "LengthDelimited"
  | startGroup => "StartGroup"
  | endGroup => "EndGroup"
  | thirtyTwoBit => "ThirtyTwoBit"

/-- The three low bits of a key. -/
def code : WireType → Nat
  | varint => 0
  | sixtyFourBit => 1
  | lengthDelimited => 2
  | startGroup => 3
  | endGroup => 4
  | thirtyTwoBit => 5

/-- The wire type of a code; 6 and 7 are not assigned. -/
def ofCode? : Nat → Option WireType
  | 0 => some varint
  | 1 => some sixtyFourBit
  | 2 => some lengthDelimited
  | 3 => some startGroup
  | 4 => some endGroup
  | 5 => some thirtyTwoBit
  | _ => none

/-- Every wire type is read back from its code. -/
@[simp] theorem ofCode?_code (w : WireType) : ofCode? w.code = some w := by
  cases w <;> rfl

/-- A code is a number below eight. -/
theorem code_lt (w : WireType) : w.code < 8 := by
  cases w <;> decide

end WireType

/-- What is wrong with the bytes. -/
inductive DecodeFault where
  /-- A varint that ends early, or has more than 64 bits. -/
  | invalidVarint
  /-- A key of more than 32 bits. -/
  | invalidKey (value : Nat)
  /-- A key with a wire type that is not assigned. -/
  | invalidWireType (code : Nat)
  /-- A key with the field number zero. -/
  | zeroTag
  /-- A known field with the wire type of another kind of field. -/
  | unexpectedWireType (actual expected : WireType)
  /-- Text that is not UTF-8. -/
  | invalidText
  /-- A length beyond the end of the input. -/
  | bufferUnderflow
  /-- A message whose last field ends after the message. -/
  | lengthExceeded
  /-- A message or an unknown field nested too deeply. -/
  | depthReached
  /-- The end of a group that is not the innermost open one. -/
  | unexpectedEndGroup
deriving DecidableEq, Repr, Inhabited

/-- The text of a fault. -/
def DecodeFault.message : DecodeFault → String
  | invalidVarint => "invalid varint"
  | invalidKey value => "invalid key value: " ++ toString value
  | invalidWireType code => "invalid wire type value: " ++ toString code
  | zeroTag => "invalid tag value: 0"
  | unexpectedWireType actual expected =>
    "invalid wire type: " ++ actual.label ++ " (expected " ++ expected.label ++ ")"
  | invalidText => "invalid string value: data is not UTF-8 encoded"
  | bufferUnderflow => "buffer underflow"
  | lengthExceeded => "delimited length exceeded"
  | depthReached => "recursion limit reached"
  | unexpectedEndGroup => "unexpected end group tag"

/-- A known field of a message, by their names. -/
structure Place where
  message : String
  field : String
deriving DecidableEq, Repr, Inhabited

/-- A fault and the fields around it, the innermost first. -/
structure DecodeError where
  fault : DecodeFault
  path : List Place := []
deriving DecidableEq, Repr, Inhabited

namespace DecodeError

/-- The same error seen from the field around it. -/
def within (place : Place) (e : DecodeError) : DecodeError :=
  { e with path := e.path ++ [place] }

/-- The text of an error: every field on the path, then the fault. -/
def message (e : DecodeError) : String :=
  "failed to decode Protobuf message: "
    ++ String.join (e.path.map fun place => place.message ++ "." ++ place.field ++ ": ")
    ++ e.fault.message

/-- Moving outwards keeps the fault. -/
@[simp] theorem fault_within (place : Place) (e : DecodeError) :
    (e.within place).fault = e.fault := rfl

end DecodeError

end ProtoSchema.Wire
