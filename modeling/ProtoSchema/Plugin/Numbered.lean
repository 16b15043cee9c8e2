/-!
# Enumerations of the protocol

The closed enumerations of the plugin protocol: field kinds, field labels and generator features.
On the wire each value is a number, in texts it has a name; numbers and names that belong to no
value are not an error.

Key results:
* `FieldKind.ofNumber?_number`, `FieldKind.ofLabel?_label` — a kind is found by its number and by
  its name
-/

namespace ProtoSchema.Plugin

/-- An enumeration whose values have numbers and names. -/
class Numbered (α : Type) where
  all : List α
  number : α → Int32
  label : α → String

namespace Numbered

variable {α : Type} [Numbered α]

/-- The value with a number. -/
def ofNumber? (α : Type) [Numbered α] (n : Int32) : Option α :=
  all.find? fun a => number a == n

/-- The value with a name. -/
def ofLabel? (α : Type) [Numbered α] (name : String) : Option α :=
  all.find? fun a => label a == name

end Numbered

/-- The kind of a field: how its values are encoded, or what sort of type it refers to. -/
inductive FieldKind where
  | double
  | float
  | int64
  | uint64
  | int32
  | fixed64
  | fixed32
  | bool
  | string
  | group
  | message
  | bytes
  | uint32
  | enum
  | sfixed32
  | sfixed64
  | sint32
  | sint64
deriving DecidableEq, Repr, Inhabited

instance : Numbered FieldKind where
  all := [.double, .float, .int64, .uint64, .int32, .fixed64, .fixed32, .bool, .string, .group,
    .message, .bytes, .uint32, .enum, .sfixed32, .sfixed64, .sint32, .sint64]
  number
    | .double => 1
    | .float => 2
    | .int64 => 3
    | .uint64 => 4
    | .int32 => 5
    | .fixed64 => 6
    | .fixed32 => 7
    | .bool => 8
    | .string => 9
    | .group => 10
    | .message => 11
    | .bytes => 12
    | .uint32 => 13
    | .enum => 14
    | .sfixed32 => 15
    | .sfixed64 => 16
    | .sint32 => 17
    | .sint64 => 18
  label
    | .double => "TYPE_DOUBLE"
    | .float => "TYPE_FLOAT"
    | .int64 => "TYPE_INT64"
    | .uint64 => "TYPE_UINT64"
    | .int32 => "TYPE_INT32"
    | .fixed64 => "TYPE_FIXED64"
    | .fixed32 => "TYPE_FIXED32"
    | .bool => "TYPE_BOOL"
    | .string => "TYPE_STRING"
    | .group => "TYPE_GROUP"
    | .message => "TYPE_MESSAGE"
    | .bytes => "TYPE_BYTES"
    | .uint32 => "TYPE_UINT32"
    | .enum => "TYPE_ENUM"
    | .sfixed32 => "TYPE_SFIXED32"
    | .sfixed64 => "TYPE_SFIXED64"
    | .sint32 => "TYPE_SINT32"
    | .sint64 => "TYPE_SINT64"

/-- How often a field may occur. -/
inductive FieldLabel where
  | optional
  | required
  | repeated
deriving DecidableEq, Repr, Inhabited

instance : Numbered FieldLabel where
  all := [.optional, .required, .repeated]
  number
    | .optional => 1
    | .required => 2
    | .repeated => 3
  label
    | .optional => "LABEL_OPTIONAL"
    | .required => "LABEL_REQUIRED"
    | .repeated => "LABEL_REPEATED"

/-- What a generator may announce that it supports. -/
inductive Feature where
  | none
  | proto3Optional
  | supportsEditions
deriving DecidableEq, Repr, Inhabited

instance : Numbered Feature where
  all := [.none, .proto3Optional, .supportsEditions]
  number
    | .none => 0
    | .proto3Optional => 1
    | .supportsEditions => 2
  label
    | .none => "FEATURE_NONE"
    | .proto3Optional => "FEATURE_PROTO3_OPTIONAL"
    | .supportsEditions => "FEATURE_SUPPORTS_EDITIONS"

/-- A kind is found by its number. -/
theorem FieldKind.ofNumber?_number (k : FieldKind) :
    Numbered.ofNumber? FieldKind (Numbered.number k) = some k := by
  cases k <;> decide

/-- A kind is found by its name. -/
theorem FieldKind.ofLabel?_label (k : FieldKind) :
    Numbered.ofLabel? FieldKind (Numbered.label k) = some k := by
  cases k <;> decide

end ProtoSchema.Plugin
