import ProtoSchema.Plugin.Types
import ProtoSchema.Plugin.Numbered

/-!
# Nodes of a pool

Files, messages and enums of a request as nodes that refer to each other by number. Every message
and enum has a full name: the package and the names of the messages around it, each behind a dot.

Key results:
* `scope_of_package` — declarations of a file are named below its package
-/

namespace ProtoSchema

open Plugin

/-- The number of a file. -/
structure FileId where
  index : Nat
deriving DecidableEq, Repr, Inhabited

/-- The number of a message. -/
structure MessageId where
  index : Nat
deriving DecidableEq, Repr, Inhabited

/-- The number of an enum. -/
structure EnumId where
  index : Nat
deriving DecidableEq, Repr, Inhabited

/-- A file with its top-level declarations, in order. -/
structure FileNode where
  name : String
  messages : List MessageId
  enums : List EnumId
deriving DecidableEq, Repr, Inhabited

/-- A field as far as columns depend on it. -/
structure FieldNode where
  name : String
  /-- Absent when the descriptor has no kind or one that is not assigned. -/
  kind : Option FieldKind
  repeated : Bool
  /-- The full name of the type of enum and message fields. -/
  typeName : Option String
  options : Option FieldOptions
deriving DecidableEq, Repr, Inhabited

/-- A message with the declarations inside it, in order. -/
structure MessageNode where
  /-- The declared name, empty when there is none. -/
  name : String
  fullName : String
  file : FileId
  fields : List FieldNode
  nestedMessages : List MessageId
  nestedEnums : List EnumId
  /-- Whether the message stands for the entries of a map field. -/
  mapEntry : Bool
deriving DecidableEq, Repr, Inhabited

/-- An enum with the names of its values, in order. -/
structure EnumNode where
  name : String
  fullName : String
  file : FileId
  values : List String
deriving DecidableEq, Repr, Inhabited

/-- The full name of what is declared as `name` inside `scope`. -/
def qualified (scope name : String) : String :=
  scope ++ "." ++ name

/-- The scope of the top-level declarations of a file. -/
def fileScope (file : FileDescriptor) : String :=
  match file.package with
  | none => ""
  | some package => if package.isEmpty then "" else "." ++ package

/-- The node of a field. -/
def FieldNode.ofDescriptor (f : FieldDescriptor) : FieldNode where
  name := f.name.getD ""
  kind := f.kind.bind (Numbered.ofNumber? FieldKind)
  repeated := f.label = some (Numbered.number FieldLabel.repeated)
  typeName := f.typeName.filter (!·.isEmpty)
  options := f.options

/-- The node of an enum declared inside `scope`. -/
def EnumNode.ofDescriptor (file : FileId) (scope : String) (e : EnumDescriptor) : EnumNode where
  name := e.name.getD ""
  fullName := qualified scope (e.name.getD "")
  file := file
  values := e.values.map (·.name.getD "")

/-- Declarations of a file with a package are named below the package. -/
theorem scope_of_package {file : FileDescriptor} {package : String}
    (h : file.package = some package) (hne : package ≠ "") : fileScope file = "." ++ package := by
  have : package.isEmpty = false := by
    simpa [String.isEmpty_iff] using hne
  simp [fileScope, h, this]

end ProtoSchema
