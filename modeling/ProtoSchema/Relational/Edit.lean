import ProtoSchema.Relational.Schema

/-!
# Editing a schema

Single changes to a table, and the table of a schema that a change is made to: the first of its
name. Verification is measured by them: a schema that was changed after its definitions were written
should not pass against them.

Key results:
* `Schema.table?_editTable` — the table that was looked up is the one that was changed
-/

namespace ProtoSchema.Relational

/-- A change to a table. -/
inductive TableEdit where
  | addColumn (column : Column)
  | addIndex (index : Index)
  | addConstraint (constraint : Constraint)
  /-- Removes the last constraint, if there is one. -/
  | popConstraint
  /-- Removes the last column, if there is one. -/
  | popColumn
deriving DecidableEq, Repr, Inhabited

namespace TableEdit

/-- The table after a change. -/
def apply (t : Table) : TableEdit → Table
  | addColumn column => { t with columns := t.columns ++ [column] }
  | addIndex index => { t with indexes := t.indexes ++ [index] }
  | addConstraint constraint => { t with constraints := t.constraints ++ [constraint] }
  | popConstraint => { t with constraints := t.constraints.dropLast }
  | popColumn => { t with columns := t.columns.dropLast }

/-- A change keeps the name of a table. -/
@[simp] theorem name_apply (t : Table) (edit : TableEdit) : (edit.apply t).name = t.name := by
  cases edit <;> rfl

end TableEdit

namespace Schema

/-- The tables after a change to the first one named `name`. -/
def editFirst (name : String) (edit : TableEdit) : List Table → List Table
  | [] => []
  | t :: ts => if t.name = name then edit.apply t :: ts else t :: editFirst name edit ts

/-- The schema after a change to the first table named `name`. -/
def editTable (schema : Schema) (name : String) (edit : TableEdit) : Schema :=
  { schema with tables := editFirst name edit schema.tables }

/-- The table that was looked up is the one that was changed. -/
theorem table?_editTable (schema : Schema) (name : String) (edit : TableEdit) :
    (schema.editTable name edit).table? name = (schema.table? name).map edit.apply := by
  obtain ⟨tables, enums, sequences⟩ := schema
  simp only [editTable, table?]
  induction tables with
  | nil => rfl
  | cons t ts ih =>
    by_cases h : t.name = name
    · simp [editFirst, h]
    · simpa [editFirst, h] using ih

end Schema

end ProtoSchema.Relational
