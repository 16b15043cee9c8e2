import ProtoSchema.Relational.Schema
import ProtoSchema.Relational.Document

/-!
# Definition statements

The statements that create the parts of a schema. Some models have no statement: a constraint or
an index without columns, a foreign key that refers to nothing.

Key results:
* `Schema.tableDefinitions` — the statements of all tables, then those of all indexes
* `Constraint.definition_eq_error` — exactly when a constraint has no clause
-/

namespace ProtoSchema.Relational

/-- Why a part of a schema cannot be written as a statement. -/
inductive RenderFault where
  | constraintWithoutColumns (kind : ConstraintKind) (table : String)
  | foreignKeyWithoutReference (columns : List String) (table : String)
  | indexWithoutColumns (index table : String)
  /-- A fault of a document writer, in its own words. -/
  | described (text : String)
deriving DecidableEq, Repr, Inhabited

/-- The text of a fault. -/
def RenderFault.message : RenderFault → String
  | constraintWithoutColumns kind table =>
    kind.sql ++ " constraint on table " ++ table ++ " has no columns"
  | foreignKeyWithoutReference columns table =>
    "foreign key (" ++ ", ".intercalate columns ++ ") on table " ++ table ++ " has no reference"
  | indexWithoutColumns index table =>
    "index " ++ index ++ " on table " ++ table ++ " has no columns"
  | described text => text

/-- Names separated by commas. -/
def nameList (names : List String) : String :=
  ", ".intercalate names

/-- The statement that creates an enum type. -/
def EnumType.definition (e : EnumType) : String :=
  "CREATE TYPE " ++ e.name ++ " AS ENUM (\n" ++ itemLines (e.values.map Sql.quote) ++ ");\n"

/-- The statement that creates a sequence. -/
def Sequence.definition (s : Sequence) : String :=
  "CREATE SEQUENCE " ++ s.name ++ " START WITH " ++ toString s.start
    ++ " INCREMENT BY " ++ toString s.increment ++ " MINVALUE " ++ toString s.minValue
    ++ " MAXVALUE " ++ toString s.maxValue ++ ";\n"

/-- The line of a column. -/
def Column.definition (c : Column) : String :=
  c.name ++ " " ++ c.type.sql
    ++ (if c.notNull then " NOT NULL" else "")
    ++ (match c.default with
      | none => ""
      | some literal => " DEFAULT " ++ literal)

/-- The clause of a reference. -/
def Reference.clause (r : Reference) : String :=
  "REFERENCES " ++ r.table ++ " (" ++ nameList r.columns ++ ") ON DELETE " ++ r.onDelete.sql
    ++ " ON UPDATE " ++ r.onUpdate.sql

/-- The line of a constraint of the table `table`. -/
def Constraint.definition (table : String) (c : Constraint) : Except RenderFault String :=
  if c.columns.isEmpty then .error (.constraintWithoutColumns c.kind table)
  else
    let head := c.kind.sql ++ " (" ++ nameList c.columns ++ ")"
    match c.kind with
    | .primaryKey | .unique => .ok head
    | .foreignKey =>
      -- A reference without columns counts as none.
      match c.reference.filter (!·.columns.isEmpty) with
      | some reference => .ok (head ++ " " ++ reference.clause)
      | none => .error (.foreignKeyWithoutReference c.columns table)

/-- The statement that creates a table: its columns, then its constraints. -/
def Table.definition (t : Table) : Except RenderFault String := do
  let constraints ← t.constraints.mapM (Constraint.definition t.name)
  return "CREATE TABLE " ++ t.name ++ " (\n"
    ++ itemLines (t.columns.map Column.definition ++ constraints) ++ ");\n"

/-- The statement that creates an index of the table `table`. -/
def Index.definition (table : String) (i : Index) : Except RenderFault String :=
  if i.columns.isEmpty then .error (.indexWithoutColumns i.name table)
  else
    .ok ("CREATE " ++ (if i.unique then "UNIQUE " else "") ++ "INDEX " ++ i.name ++ " ON " ++ table
      ++ " (" ++ nameList i.columns ++ ");\n")

namespace Schema

/-- The statements of the enum types and sequences. -/
def typeDefinitions (schema : Schema) : List String :=
  schema.enums.map EnumType.definition ++ schema.sequences.map Sequence.definition

/-- The statements of all tables, then those of all indexes. -/
def tableDefinitions (schema : Schema) : Except RenderFault (List String) := do
  let tables ← schema.tables.mapM Table.definition
  let indexes ← schema.tables.mapM fun t => t.indexes.mapM (Index.definition t.name)
  return tables ++ indexes.flatten

end Schema

/-- A constraint has no clause when it has no columns, or is a foreign key without columns to refer
to. -/
theorem Constraint.definition_eq_error {table : String} {c : Constraint} :
    (∃ fault, c.definition table = .error fault) ↔
      c.columns = [] ∨ c.kind = .foreignKey ∧ ∀ r, c.reference = some r → r.columns = [] := by
  obtain ⟨kind, columns, reference⟩ := c
  cases columns with
  | nil => simp [definition]
  | cons column columns =>
    -- With columns of its own only a foreign key can still fail, through its reference.
    cases kind <;> cases reference with
    | none => simp [definition, Option.filter]
    | some r =>
      rcases hr : r.columns with _ | ⟨d, ds⟩ <;> simp [definition, Option.filter, hr]

end ProtoSchema.Relational
