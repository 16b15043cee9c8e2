import ProtoSchema.Error
import ProtoSchema.Pool.Basic

/-!
# Columns from fields

The type of a column follows from the kind of its field; the annotations of the field then set the
default, `NOT NULL` and the type `UUID`.

Key results:
* `columnType_eq_error_iff` — only a field that has to name its type and does not has no column
* `notNull_annotated` — neither annotation takes back a `NOT NULL`
-/

namespace ProtoSchema

open Plugin Relational

/-- What stands behind the last dot of a full name. -/
def lastSegment (fullName : String) : String :=
  String.ofList ((fullName.toList.splitOn '.').getLast?.getD [])

namespace FieldNode

/-- The full name of the type of a field that has to have one. -/
def requiredTypeName (field : FieldNode) : Except InputFault String :=
  match field.typeName with
  | some name => .ok name
  | none => .error (.untypedField field.name)

/-- The name of an enum by its full name: as declared, or the last segment for an enum outside the
pool. -/
def enumName (pool : Pool) (typeName : String) : String :=
  match pool.enumByTypeName typeName with
  | some node => node.name
  | none => lastSegment typeName

/-- The column type of an embedded message by its full name. -/
def messageColumnType (typeName : String) : ColumnType :=
  if typeName = ".google.protobuf.Timestamp" then .timestamp
  else if typeName = ".google.protobuf.Struct" then .jsonb
  else .bytes

/-- The column type of a field. What has no type of its own is kept as bytes. -/
def columnType (pool : Pool) (field : FieldNode) : Except InputFault ColumnType :=
  match field.kind with
  | none => .ok .bytes
  | some .bool => .ok .boolean
  | some .bytes => .ok .bytes
  | some .float | some .double => .ok .float
  | some .string => .ok (if field.repeated then .textArray else .text)
  | some .int32 | some .int64 | some .uint32 | some .uint64 | some .sint32 | some .sint64
  | some .fixed32 | some .fixed64 | some .sfixed32 | some .sfixed64 => .ok .integer
  | some .enum => field.requiredTypeName.map fun name => .enum (enumName pool name)
  | some .message | some .group => field.requiredTypeName.map messageColumnType

/-- Only a field that has to name its type and does not has no column type. -/
theorem columnType_eq_error_iff {pool : Pool} {field : FieldNode} {fault : InputFault} :
    field.columnType pool = .error fault ↔
      fault = .untypedField field.name ∧ field.typeName = none
        ∧ (field.kind = some .enum ∨ field.kind = some .message ∨ field.kind = some .group) := by
  obtain ⟨name, kind, repeated, typeName, options⟩ := field
  -- Only the kinds that name their type can fail, and only without a name.
  cases kind with
  | none => simp [columnType]
  | some kind =>
    cases kind <;> cases typeName <;> simp [columnType, requiredTypeName, Except.map, eq_comm]

end FieldNode

/-- The column with the two annotations applied: the relational one sets the default, and `NOT NULL`
for a primary key; the validation rules add `NOT NULL` for a required field, and make the type
`UUID`. -/
def Relational.Column.annotated (column : Column) (relational : Option FieldConstraints)
    (validation : Option FieldRules) : Column where
  name := column.name
  type :=
    if (validation.bind (·.string)).bind (·.uuid) = some true then .uuid else column.type
  notNull :=
    column.notNull || relational.bind (·.primary) = some true
      || validation.bind (·.required) = some true
  default :=
    match relational with
    | none => column.default
    | some r => r.defaultValue.filter (!·.isEmpty)

/-- The column with the annotations of a field applied. A payload that cannot be decoded is
reported and leaves the column as it was. -/
def Plugin.FieldOptions.annotate (options : FieldOptions) (column : Column) : Outcome Column where
  value := column.annotated options.relational? options.validation?
  diagnostics := options.undecodable.map fun (option, source) =>
    ⟨column.name, .undecodableOption option source⟩

/-- The column with its default as a literal of its type. -/
def Relational.Column.withLiteral (column : Column) : Column :=
  { column with default := column.default.map column.type.defaultLiteral }

/-- The column of a field of the message `message`, unless the field has no column type. -/
def FieldNode.column? (pool : Pool) (message : String) (field : FieldNode) :
    Outcome (Option Column) :=
  match field.columnType pool with
  | .error fault => ⟨none, [⟨message ++ "." ++ field.name, .invalidInput fault⟩]⟩
  | .ok type =>
    -- The literal is made last, since the annotations may change the type.
    let annotated := (field.options.getD {}).annotate { name := field.name, type }
    { value := some annotated.value.withLiteral
      diagnostics := annotated.diagnostics.map fun d =>
        { d with subject := message ++ "." ++ d.subject } }

/-- Neither annotation takes back a `NOT NULL`. -/
theorem Relational.Column.notNull_annotated {column : Column} (h : column.notNull = true)
    (relational : Option FieldConstraints) (validation : Option FieldRules) :
    (column.annotated relational validation).notNull = true := by
  simp [annotated, h]

end ProtoSchema
