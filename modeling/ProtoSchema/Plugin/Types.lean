/-!
# Requests, responses and descriptors

What the compiler sends and expects back, as far as this generator looks at it: the request with
the descriptors of all files, the response with the generated documents, and the payloads of the
two field annotations. Scalars may be absent; a list is empty when absent.
-/

namespace ProtoSchema.Plugin

/-- Version of the compiler. -/
structure Version where
  major : Option Int32 := none
  minor : Option Int32 := none
  patch : Option Int32 := none
  suffix : Option String := none
deriving DecidableEq, Repr, Inhabited

/-- One value of an enum. -/
structure EnumValue where
  name : Option String := none
  number : Option Int32 := none
deriving DecidableEq, Repr, Inhabited

/-- An enum with its values in declaration order. -/
structure EnumDescriptor where
  name : Option String := none
  values : List EnumValue := []
deriving DecidableEq, Repr, Inhabited

/-- Options of a message. -/
structure MessageOptions where
  /-- Set on the message that stands for the entries of a map field. -/
  mapEntry : Option Bool := none
deriving DecidableEq, Repr, Inhabited

/-- Options of a field: the payloads of the two annotations, still encoded, so that a payload of
the wrong shape spoils that annotation alone. -/
structure FieldOptions where
  validation : Option (List UInt8) := none
  relational : Option (List UInt8) := none
deriving DecidableEq, Repr, Inhabited

/-- A field of a message. The label and the kind are numbers, since unknown ones are kept. -/
structure FieldDescriptor where
  name : Option String := none
  number : Option Int32 := none
  label : Option Int32 := none
  kind : Option Int32 := none
  typeName : Option String := none
  options : Option FieldOptions := none
  proto3Optional : Option Bool := none
deriving DecidableEq, Repr, Inhabited

/-- A message with its fields and the messages and enums declared inside it. -/
structure MessageDescriptor where
  name : Option String := none
  fields : List FieldDescriptor := []
  messages : List MessageDescriptor := []
  enums : List EnumDescriptor := []
  options : Option MessageOptions := none
deriving Repr, Inhabited

/-- A file with its top-level declarations. -/
structure FileDescriptor where
  name : Option String := none
  package : Option String := none
  messages : List MessageDescriptor := []
  enums : List EnumDescriptor := []
  /-- The name of the language level, such as `proto3`. -/
  level : Option String := none
deriving Repr, Inhabited

/-- What the compiler asks for: documents for some of the files it describes. -/
structure Request where
  filesToGenerate : List String := []
  parameter : Option String := none
  compilerVersion : Option Version := none
  files : List FileDescriptor := []
deriving Repr, Inhabited

/-- A generated document. -/
structure OutputFile where
  name : Option String := none
  insertionPoint : Option String := none
  content : Option String := none
deriving DecidableEq, Repr, Inhabited

/-- The answer to a request. -/
structure Response where
  error : Option String := none
  supportedFeatures : Option UInt64 := none
  files : List OutputFile := []
deriving DecidableEq, Repr, Inhabited

/-- The relational annotation of a field. -/
structure FieldConstraints where
  defaultValue : Option String := none
  primary : Option Bool := none
  unique : Option Bool := none
  /-- The column that the field refers to, written `table.column`. -/
  references : Option String := none
deriving DecidableEq, Repr, Inhabited

/-- Validation rules of text fields. -/
structure StringRules where
  uuid : Option Bool := none
deriving DecidableEq, Repr, Inhabited

/-- The validation annotation of a field. -/
structure FieldRules where
  string : Option StringRules := none
  required : Option Bool := none
deriving DecidableEq, Repr, Inhabited

end ProtoSchema.Plugin
