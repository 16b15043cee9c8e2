import ProtoSchema.Plugin.Types
import ProtoSchema.Wire.Message

/-!
# Message types of the compiler plugin protocol

The wire form of every type of `ProtoSchema.Plugin.Types`: field numbers, names and kinds for
reading, and the records for writing, in the order of the field numbers.

Key results:
* `MessageDescriptor.knownFields_eq` — a message inside a message is an embedded message like others
* `MessageType` — the message types, with their carriers, for what holds of all of them
-/

namespace ProtoSchema.Plugin

open ProtoSchema.Wire

/-- The records of an optional embedded message. -/
def embeddedRecords {σ : Type} [Message σ] (number : Nat) (m : Option σ) : List Record :=
  (m.map fun m => Record.message number (Message.records m)).toList

/-- The records of a list of embedded messages. -/
def listRecords {σ : Type} [Message σ] (number : Nat) (ms : List σ) : List Record :=
  ms.map fun m => Record.message number (Message.records m)

instance : Message Version where
  name := "Version"
  empty := {}
  fields _ := [
    .scalar 1 "major" .int32 fun v s => { s with major := some v },
    .scalar 2 "minor" .int32 fun v s => { s with minor := some v },
    .scalar 3 "patch" .int32 fun v s => { s with patch := some v },
    .scalar 4 "suffix" .text fun v s => { s with suffix := some v }]
  records m :=
    Scalar.int32.records 1 m.major ++ Scalar.int32.records 2 m.minor
      ++ Scalar.int32.records 3 m.patch ++ Scalar.text.records 4 m.suffix

instance : Message EnumValue where
  name := "EnumValueDescriptorProto"
  empty := {}
  fields _ := [
    .scalar 1 "name" .text fun v s => { s with name := some v },
    .scalar 2 "number" .int32 fun v s => { s with number := some v }]
  records m := Scalar.text.records 1 m.name ++ Scalar.int32.records 2 m.number

instance : Message EnumDescriptor where
  name := "EnumDescriptorProto"
  empty := {}
  fields depth := [
    .scalar 1 "name" .text fun v s => { s with name := some v },
    .message 2 "value" (Message.embedded EnumValue depth) (fun _ => {})
      fun v s => { s with values := s.values ++ [v] }]
  records m := Scalar.text.records 1 m.name ++ listRecords 2 m.values

instance : Message MessageOptions where
  name := "MessageOptions"
  empty := {}
  fields _ := [.scalar 7 "map_entry" .bool fun v s => { s with mapEntry := some v }]
  records m := Scalar.bool.records 7 m.mapEntry

instance : Message FieldOptions where
  name := "FieldOptions"
  empty := {}
  fields _ := [
    .scalar 1159 "validate_field" .bytes fun v s => { s with validation := some v },
    .scalar 50001 "sqlc_field" .bytes fun v s => { s with relational := some v }]
  records m := Scalar.bytes.records 1159 m.validation ++ Scalar.bytes.records 50001 m.relational

instance : Message FieldDescriptor where
  name := "FieldDescriptorProto"
  empty := {}
  fields depth := [
    .scalar 1 "name" .text fun v s => { s with name := some v },
    .scalar 3 "number" .int32 fun v s => { s with number := some v },
    .scalar 4 "label" .int32 fun v s => { s with label := some v },
    .scalar 5 "r#type" .int32 fun v s => { s with kind := some v },
    .scalar 6 "type_name" .text fun v s => { s with typeName := some v },
    .message 8 "options" (Message.embedded FieldOptions depth) (·.options.getD {})
      fun v s => { s with options := some v },
    .scalar 17 "proto3_optional" .bool fun v s => { s with proto3Optional := some v }]
  records m :=
    Scalar.text.records 1 m.name ++ Scalar.int32.records 3 m.number
      ++ Scalar.int32.records 4 m.label ++ Scalar.int32.records 5 m.kind
      ++ Scalar.text.records 6 m.typeName ++ embeddedRecords 8 m.options
      ++ Scalar.bool.records 17 m.proto3Optional

namespace MessageDescriptor

/-- The name of the message type. -/
def typeLabel : String := "DescriptorProto"

/-- The fields of a message descriptor at a remaining depth, where `nested` reads the messages
declared inside it. -/
def fieldsWith (depth : Nat) (nested : Merge MessageDescriptor) :
    List (Wire.Field MessageDescriptor) :=
  [ .scalar 1 "name" .text fun v s => { s with name := some v },
    .message 2 "field" (Message.embedded FieldDescriptor depth) (fun _ => {})
      fun v s => { s with fields := s.fields ++ [v] },
    .message 3 "nested_type" nested (fun _ => {})
      fun v s => { s with messages := s.messages ++ [v] },
    .message 4 "enum_type" (Message.embedded EnumDescriptor depth) (fun _ => {})
      fun v s => { s with enums := s.enums ++ [v] },
    .message 7 "options" (Message.embedded MessageOptions depth) (·.options.getD {})
      fun v s => { s with options := some v }]

/-- The fields of a message descriptor. What is declared inside it has the same fields, one level
deeper. -/
def knownFields : (depth : Nat) → List (Wire.Field MessageDescriptor)
  | 0 => fieldsWith 0 fun _ => fault .depthReached
  | depth + 1 => fieldsWith (depth + 1) (mergeDelimited typeLabel (knownFields depth) depth)

mutual

/-- The records of a message descriptor. -/
def toRecords : MessageDescriptor → List Record
  | ⟨name, fields, messages, enums, options⟩ =>
    Scalar.text.records 1 name ++ listRecords 2 fields ++ nestedRecords messages
      ++ listRecords 4 enums ++ embeddedRecords 7 options

/-- The records of nested message descriptors. -/
def nestedRecords : List MessageDescriptor → List Record
  | [] => []
  | m :: ms => Record.message 3 m.toRecords :: nestedRecords ms

end

end MessageDescriptor

instance : Message MessageDescriptor where
  name := MessageDescriptor.typeLabel
  empty := {}
  fields := MessageDescriptor.knownFields
  records := MessageDescriptor.toRecords

/-- At every depth the messages declared inside a message are read as embedded messages. -/
theorem MessageDescriptor.knownFields_eq (depth : Nat) :
    knownFields depth = fieldsWith depth (Message.embedded MessageDescriptor depth) := by
  cases depth <;> rfl

/-- The records of nested messages are those of a list of embedded messages. -/
theorem MessageDescriptor.nestedRecords_eq (ms : List MessageDescriptor) :
    nestedRecords ms = listRecords 3 ms := by
  induction ms with
  | nil => rfl
  | cons m ms ih =>
    rw [nestedRecords, ih]
    rfl

instance : Message FileDescriptor where
  name := "FileDescriptorProto"
  empty := {}
  fields depth := [
    .scalar 1 "name" .text fun v s => { s with name := some v },
    .scalar 2 "package" .text fun v s => { s with package := some v },
    .message 4 "message_type" (Message.embedded MessageDescriptor depth) (fun _ => {})
      fun v s => { s with messages := s.messages ++ [v] },
    .message 5 "enum_type" (Message.embedded EnumDescriptor depth) (fun _ => {})
      fun v s => { s with enums := s.enums ++ [v] },
    .scalar 12 "syntax" .text fun v s => { s with level := some v }]
  records m :=
    Scalar.text.records 1 m.name ++ Scalar.text.records 2 m.package ++ listRecords 4 m.messages
      ++ listRecords 5 m.enums ++ Scalar.text.records 12 m.level

instance : Message Request where
  name := "CodeGeneratorRequest"
  empty := {}
  fields depth := [
    .scalar 1 "file_to_generate" .text
      fun v s => { s with filesToGenerate := s.filesToGenerate ++ [v] },
    .scalar 2 "parameter" .text fun v s => { s with parameter := some v },
    .message 3 "compiler_version" (Message.embedded Version depth) (·.compilerVersion.getD {})
      fun v s => { s with compilerVersion := some v },
    .message 15 "proto_file" (Message.embedded FileDescriptor depth) (fun _ => {})
      fun v s => { s with files := s.files ++ [v] }]
  records m :=
    m.filesToGenerate.map (Scalar.text.record 1) ++ Scalar.text.records 2 m.parameter
      ++ embeddedRecords 3 m.compilerVersion ++ listRecords 15 m.files

instance : Message OutputFile where
  name := "File"
  empty := {}
  fields _ := [
    .scalar 1 "name" .text fun v s => { s with name := some v },
    .scalar 2 "insertion_point" .text fun v s => { s with insertionPoint := some v },
    .scalar 15 "content" .text fun v s => { s with content := some v }]
  records m :=
    Scalar.text.records 1 m.name ++ Scalar.text.records 2 m.insertionPoint
      ++ Scalar.text.records 15 m.content

instance : Message Response where
  name := "CodeGeneratorResponse"
  empty := {}
  fields depth := [
    .scalar 1 "error" .text fun v s => { s with error := some v },
    .scalar 2 "supported_features" .uint64 fun v s => { s with supportedFeatures := some v },
    .message 15 "file" (Message.embedded OutputFile depth) (fun _ => {})
      fun v s => { s with files := s.files ++ [v] }]
  records m :=
    Scalar.text.records 1 m.error ++ Scalar.uint64.records 2 m.supportedFeatures
      ++ listRecords 15 m.files

instance : Message FieldConstraints where
  name := "FieldConstraints"
  empty := {}
  fields _ := [
    .scalar 1 "default_value" .text fun v s => { s with defaultValue := some v },
    .scalar 2 "primary" .bool fun v s => { s with primary := some v },
    .scalar 3 "unique" .bool fun v s => { s with unique := some v },
    .scalar 4 "references" .text fun v s => { s with references := some v }]
  records m :=
    Scalar.text.records 1 m.defaultValue ++ Scalar.bool.records 2 m.primary
      ++ Scalar.bool.records 3 m.unique ++ Scalar.text.records 4 m.references

instance : Message StringRules where
  name := "StringRules"
  empty := {}
  fields _ := [.scalar 22 "uuid" .bool fun v s => { s with uuid := some v }]
  records m := Scalar.bool.records 22 m.uuid

instance : Message FieldRules where
  name := "FieldRules"
  empty := {}
  fields depth := [
    .message 14 "string" (Message.embedded StringRules depth) (·.string.getD {})
      fun v s => { s with string := some v },
    .scalar 25 "required" .bool fun v s => { s with required := some v }]
  records m := embeddedRecords 14 m.string ++ Scalar.bool.records 25 m.required

/-- The message types of the protocol. -/
inductive MessageType where
  | version
  | request
  | response
  | outputFile
  | file
  | message
  | messageOptions
  | field
  | fieldOptions
  | enum
  | enumValue
  | fieldConstraints
  | fieldRules
  | stringRules
deriving DecidableEq, Repr, Inhabited

namespace MessageType

/-- The messages of a type. -/
abbrev Carrier : MessageType → Type
  | version => Version
  | request => Request
  | response => Response
  | outputFile => OutputFile
  | file => FileDescriptor
  | message => MessageDescriptor
  | messageOptions => MessageOptions
  | field => FieldDescriptor
  | fieldOptions => FieldOptions
  | enum => EnumDescriptor
  | enumValue => EnumValue
  | fieldConstraints => FieldConstraints
  | fieldRules => FieldRules
  | stringRules => StringRules

instance codec : (type : MessageType) → Message type.Carrier
  | version => inferInstanceAs (Message Version)
  | request => inferInstanceAs (Message Request)
  | response => inferInstanceAs (Message Response)
  | outputFile => inferInstanceAs (Message OutputFile)
  | file => inferInstanceAs (Message FileDescriptor)
  | message => inferInstanceAs (Message MessageDescriptor)
  | messageOptions => inferInstanceAs (Message MessageOptions)
  | field => inferInstanceAs (Message FieldDescriptor)
  | fieldOptions => inferInstanceAs (Message FieldOptions)
  | enum => inferInstanceAs (Message EnumDescriptor)
  | enumValue => inferInstanceAs (Message EnumValue)
  | fieldConstraints => inferInstanceAs (Message FieldConstraints)
  | fieldRules => inferInstanceAs (Message FieldRules)
  | stringRules => inferInstanceAs (Message StringRules)

/-- All message types. -/
def all : List MessageType :=
  [version, request, response, outputFile, file, message, messageOptions, field, fieldOptions,
    enum, enumValue, fieldConstraints, fieldRules, stringRules]

/-- The message type of a name. -/
def ofName? (name : String) : Option MessageType :=
  all.find? fun type => Message.name type.Carrier == name

end MessageType

end ProtoSchema.Plugin
