import ProtoSchema.Wire.Varint

/-!
# Keys and unknown fields

Every field starts with a key: the field number shifted left by three, and the wire type in the
three low bits. A field that is not known is skipped by its wire type alone.

Key results:
* `Key.read_encode` — a key is read back from its encoding
* `run_skip_zero` — nothing is skipped once the depth is used up
-/

namespace ProtoSchema.Wire

/-- The start of a field: its number and its wire type. -/
structure Key where
  number : Nat
  wireType : WireType
deriving DecidableEq, Repr, Inhabited

namespace Key

/-- The number that stands for a key. -/
def value (key : Key) : Nat :=
  key.number * 8 + key.wireType.code

/-- The bytes of a key. -/
def encode (key : Key) : List UInt8 :=
  Varint.encode key.value

/-- The key that a number stands for, or what is wrong with that number. -/
def ofValue (value : Nat) : Except DecodeFault Key :=
  -- The bound is tested first, then the wire type, and the field number last.
  if UInt32.size ≤ value then .error (.invalidKey value)
  else
    match WireType.ofCode? (value % 8) with
    | none => .error (.invalidWireType (value % 8))
    | some wireType => if value / 8 = 0 then .error .zeroTag else .ok ⟨value / 8, wireType⟩

/-- Reads a key. -/
def read : ByteReader Key := do
  match ofValue (← Varint.read) with
  | .ok key => pure key
  | .error f => fault f

/-- Field numbers have 29 bits. -/
def numberBound : Nat := UInt32.size / 8

/-- The number of a key with a valid field number stands for that key. -/
theorem ofValue_value {key : Key} (hpos : 0 < key.number) (hlt : key.number < numberBound) :
    ofValue key.value = .ok key := by
  obtain ⟨number, wireType⟩ := key
  have hc := wireType.code_lt
  -- The wire type is the remainder by 8, and the number the quotient.
  have hmod : (number * 8 + wireType.code) % 8 = wireType.code := by omega
  have hdiv : (number * 8 + wireType.code) / 8 = number := by omega
  have hsmall : ¬UInt32.size ≤ number * 8 + wireType.code := by
    simp only [numberBound, UInt32.size] at hlt ⊢
    omega
  have hne : number ≠ 0 := Nat.ne_of_gt hpos
  simp only [ofValue, value, hmod, hdiv, if_neg hsmall, if_neg hne, WireType.ofCode?_code]

/-- A key with a valid field number is read back from its encoding, whatever follows. -/
theorem read_encode {key : Key} (hpos : 0 < key.number) (hlt : key.number < numberBound)
    (rest : List UInt8) : read.run (key.encode ++ rest) = .ok (key, rest) := by
  -- A valid number leaves the value of the key far below 64 bits.
  have hv : key.value < UInt64.size := by
    have := key.wireType.code_lt
    simp only [value, numberBound, UInt32.size, UInt64.size] at hlt ⊢
    omega
  rw [read, encode, Reader.run_bind_of_ok (Varint.read_encode hv rest), ofValue_value hpos hlt]
  rfl

end Key

/-- The fields of an open group up to its end, each skipped by `skipField`. -/
def skipGroup (number : Nat) (skipField : Key → ByteReader Unit) : ByteReader Unit :=
  Reader.iterate (fun _ => do
    let key ← Key.read
    if key.wireType = .endGroup then
      -- The end of another group may not stand here.
      if key.number = number then pure none else fault .unexpectedEndGroup
    else
      skipField key
      pure (some ())) ()

/-- Skips the rest of a field whose key was read, at a remaining depth. A group is skipped with
all that it holds, one level deeper. -/
def skip : (depth : Nat) → Key → ByteReader Unit
  | 0, _ => fault .depthReached
  | depth + 1, key =>
    match key.wireType with
    | .varint => discard Varint.read
    | .sixtyFourBit => discard (Reader.take 8 ⟨.bufferUnderflow, []⟩)
    | .thirtyTwoBit => discard (Reader.take 4 ⟨.bufferUnderflow, []⟩)
    | .lengthDelimited => do
      let length ← Varint.read
      discard (Reader.take length ⟨.bufferUnderflow, []⟩)
    | .startGroup => skipGroup key.number (skip depth)
    | .endGroup => fault .unexpectedEndGroup

/-- Nothing is skipped once the depth is used up. -/
@[simp] theorem run_skip_zero (key : Key) (input : List UInt8) :
    (skip 0 key).run input = .error ⟨.depthReached, []⟩ := rfl

end ProtoSchema.Wire
