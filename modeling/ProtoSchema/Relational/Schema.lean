import ProtoSchema.Sql.Literal

/-!
# Relational schemas

Tables with columns, constraints and indexes, enum types and sequences, in the order in which they
are written.

Key results:
* `Table.primaryKey_eq_of_cons` — the primary key is the first column of the first primary key
  constraint that has one
-/

namespace ProtoSchema.Relational

/-- The type of a column. -/
inductive ColumnType where
  | integer
  | text
  | textArray
  | serial
  | date
  | timestamp
  | varchar
  | varcharArray
  | jsonb
  | uuid
  | bytes
  | float
  | boolean
  /-- An enum type of the schema, by its name. -/
  | enum (name : String)
deriving DecidableEq, Repr, Inhabited

namespace ColumnType

/-- The name of the type in a statement. -/
def sql : ColumnType → String
  | integer => "INTEGER"
  | text => "TEXT"
  | textArray => "TEXT[]"
  | serial => "SERIAL"
  | date => "DATE"
  | timestamp => "TIMESTAMPTZ"
  | varchar => "VARCHAR"
  | varcharArray => "VARCHAR[]"
  | jsonb => "JSONB"
  | uuid => "UUID"
  | bytes => "BYTES"
  | float => "FLOAT"
  | boolean => "BOOLEAN"
  | enum name => name

/-- Whether a default of this type is written without quotes. -/
def takesBareLiteral : ColumnType → Bool
  | integer | float | boolean => true
  | _ => false

/-- The literal of a default value: as it is for numbers and truth values, quoted otherwise. -/
def defaultLiteral (type : ColumnType) (value : String) : String :=
  if type.takesBareLiteral then value else Sql.quote value

end ColumnType

/-- A column of a table. -/
structure Column where
  name : String
  type : ColumnType
  notNull : Bool := false
  /-- The default as it is written, with quotes where the type needs them. -/
  default : Option String := none
deriving DecidableEq, Repr, Inhabited

/-- What happens to a row when the row it refers to goes or changes. -/
inductive ReferentialAction where
  | noAction
  | restrict
  | cascade
  | setNull
  | setDefault
deriving DecidableEq, Repr, Inhabited

/-- The words of an action in a statement. -/
def ReferentialAction.sql : ReferentialAction → String
  | noAction => "NO ACTION"
  | restrict => "RESTRICT"
  | cascade => "CASCADE"
  | setNull => "SET NULL"
  | setDefault => "SET DEFAULT"

/-- The columns that a foreign key refers to. -/
structure Reference where
  table : String
  columns : List String
  onDelete : ReferentialAction := .noAction
  onUpdate : ReferentialAction := .noAction
deriving DecidableEq, Repr, Inhabited

/-- The kind of a table constraint. -/
inductive ConstraintKind where
  | primaryKey
  | foreignKey
  | unique
deriving DecidableEq, Repr, Inhabited

/-- The words of a kind of constraint in a statement. -/
def ConstraintKind.sql : ConstraintKind → String
  | primaryKey => "PRIMARY KEY"
  | foreignKey => "FOREIGN KEY"
  | unique => "UNIQUE"

/-- A constraint of a table. -/
structure Constraint where
  kind : ConstraintKind
  columns : List String
  reference : Option Reference := none
deriving DecidableEq, Repr, Inhabited

namespace Constraint

/-- The primary key on one column. -/
def primaryKey (column : String) : Constraint :=
  { kind := .primaryKey, columns := [column] }

/-- Uniqueness of one column. -/
def unique (column : String) : Constraint :=
  { kind := .unique, columns := [column] }

/-- A foreign key on one column. -/
def foreignKey (column : String) (reference : Reference) : Constraint :=
  { kind := .foreignKey, columns := [column], reference := some reference }

end Constraint

/-- An index of a table. -/
structure Index where
  name : String
  columns : List String
  unique : Bool := false
deriving DecidableEq, Repr, Inhabited

/-- A table. -/
structure Table where
  name : String
  columns : List Column := []
  constraints : List Constraint := []
  indexes : List Index := []
deriving DecidableEq, Repr, Inhabited

namespace Table

/-- The column that identifies rows where no constraint says so. -/
def defaultPrimaryKey : String := "id"

/-- The column lists of the constraints of one kind, in order. -/
def columnsOf (table : Table) (kind : ConstraintKind) : List (List String) :=
  (table.constraints.filter (·.kind = kind)).map (·.columns)

/-- The first column of the first primary key constraint that names one. -/
def primaryKey (table : Table) : String :=
  ((table.columnsOf .primaryKey).findSome? List.head?).getD defaultPrimaryKey

/-- A table whose first constraint is a primary key on a column is identified by that column. -/
theorem primaryKey_eq_of_cons {table : Table} {column : String} {rest : List Constraint}
    (h : table.constraints = Constraint.primaryKey column :: rest) :
    table.primaryKey = column := by
  simp [primaryKey, columnsOf, h, Constraint.primaryKey, List.findSome?_cons]

end Table

/-- An enum type with its values in declaration order. -/
structure EnumType where
  name : String
  values : List String
deriving DecidableEq, Repr, Inhabited

/-- A sequence of numbers. -/
structure Sequence where
  name : String
  start : Int
  increment : Int
  minValue : Int
  maxValue : Int
deriving DecidableEq, Repr, Inhabited

/-- A schema: what a database holds besides its rows. -/
structure Schema where
  tables : List Table := []
  enums : List EnumType := []
  sequences : List Sequence := []
deriving DecidableEq, Repr, Inhabited

namespace Schema

/-- The first table of a name. -/
def table? (schema : Schema) (name : String) : Option Table :=
  schema.tables.find? (·.name == name)

/-- The first enum type of a name. -/
def enum? (schema : Schema) (name : String) : Option EnumType :=
  schema.enums.find? (·.name == name)

/-- A table that is found has the name it was looked up by. -/
theorem name_of_table? {schema : Schema} {name : String} {table : Table}
    (h : schema.table? name = some table) : table.name = name := by
  simpa using List.find?_some h

end Schema

end ProtoSchema.Relational
