import ProtoSchema.Wire.Key

/-!
# Records

A message in its written form is a list of records, each a field number with a number, a run of
bytes or the records of an embedded message. The bytes, their count and the nesting are functions
of the records.

Key results:
* `length_encodeAll` — `sizeAll` counts the bytes of `encodeAll`
* `encodeAll_append`, `sizeAll_append` — records are written one after the other
-/

namespace ProtoSchema.Wire

/-- One field of a message as it is written. -/
inductive Record where
  | varint (number value : Nat)
  | bytes (number : Nat) (payload : List UInt8)
  | message (number : Nat) (records : List Record)
deriving Repr, Inhabited

namespace Record

/-- The key of a record. -/
def key : Record → Key
  | varint number _ => ⟨number, .varint⟩
  | bytes number _ => ⟨number, .lengthDelimited⟩
  | message number _ => ⟨number, .lengthDelimited⟩

mutual

/-- The bytes of a record: its key, then its value, with the length in front unless it is a
number. -/
def encode : Record → List UInt8
  | varint number value => Key.encode ⟨number, .varint⟩ ++ Varint.encode value
  | bytes number payload =>
    Key.encode ⟨number, .lengthDelimited⟩ ++ (Varint.encode payload.length ++ payload)
  | message number records =>
    Key.encode ⟨number, .lengthDelimited⟩
      ++ (Varint.encode (sizeAll records) ++ encodeAll records)

/-- The bytes of several records, in order. -/
def encodeAll : List Record → List UInt8
  | [] => []
  | r :: rs => r.encode ++ encodeAll rs

/-- The number of bytes of a record. -/
def size : Record → Nat
  | varint number value => Varint.size (Key.value ⟨number, .varint⟩) + Varint.size value
  | bytes number payload =>
    Varint.size (Key.value ⟨number, .lengthDelimited⟩)
      + (Varint.size payload.length + payload.length)
  | message number records =>
    Varint.size (Key.value ⟨number, .lengthDelimited⟩)
      + (Varint.size (sizeAll records) + sizeAll records)

/-- The number of bytes of several records. -/
def sizeAll : List Record → Nat
  | [] => 0
  | r :: rs => r.size + sizeAll rs

end

mutual

/-- How many messages are nested inside a record, the record's own message included. -/
def height : Record → Nat
  | varint _ _ => 0
  | bytes _ _ => 0
  | message _ records => heightAll records + 1

/-- The longest chain of embedded messages below several records. -/
def heightAll : List Record → Nat
  | [] => 0
  | r :: rs => max r.height (heightAll rs)

end

mutual

/-- `size` counts the bytes of a record. -/
theorem length_encode : (r : Record) → r.encode.length = r.size
  | varint _ _ => by simp [encode, size, Key.encode, Varint.length_encode]
  | bytes _ _ => by simp [encode, size, Key.encode, Varint.length_encode]
  | message _ records => by
    simp [encode, size, Key.encode, Varint.length_encode, length_encodeAll records]

/-- `sizeAll` counts the bytes of several records. -/
theorem length_encodeAll : (rs : List Record) → (encodeAll rs).length = sizeAll rs
  | [] => rfl
  | r :: rs => by simp [encodeAll, sizeAll, length_encode r, length_encodeAll rs]

end

/-- Records are written one after the other. -/
@[simp] theorem encodeAll_append (rs ss : List Record) :
    encodeAll (rs ++ ss) = encodeAll rs ++ encodeAll ss := by
  induction rs with
  | nil => rfl
  | cons r rs ih => simp [encodeAll, ih]

/-- The sizes of records add up. -/
@[simp] theorem sizeAll_append (rs ss : List Record) :
    sizeAll (rs ++ ss) = sizeAll rs + sizeAll ss := by
  rw [← length_encodeAll, encodeAll_append, List.length_append, length_encodeAll,
    length_encodeAll]

end Record

end ProtoSchema.Wire
