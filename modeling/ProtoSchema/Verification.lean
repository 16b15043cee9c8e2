import ProtoSchema.Sql.Catalog
import ProtoSchema.Text.Quoted

/-!
# Verification

A catalog is compared with the schema that it should hold, table by table and part by part: the
columns in order with whether they may be null, the primary key, the unique constraints, the
references and the indexes.

Key results:
* `TableEntry.ofTable` — the entry that a catalog should have for a table
* `checkTable_eq_ok_iff` — a table passes when its entry is that one, up to the name and with one
  primary key at most
-/

namespace ProtoSchema

open Relational Sql

namespace Sql

/-- The entry of a foreign key that a constraint asks for, if it has a reference. -/
def ForeignKey.ofConstraint? (c : Constraint) : Option ForeignKey :=
  c.reference.map fun r => {
    columns := c.columns
    table := r.table
    referencedColumns := r.columns
    onDelete := some r.onDelete
    onUpdate := some r.onUpdate }

/-- The entry that a catalog should have for a table. -/
def TableEntry.ofTable (t : Table) : TableEntry where
  name := t.name
  columns := t.columns.map fun c => (c.name, !c.notNull)
  primaryKeys := t.columnsOf .primaryKey
  foreignKeys := t.constraints.filterMap ForeignKey.ofConstraint?
  uniques := t.columnsOf .unique
  indexes := t.indexes

end Sql

/-- How a catalog differs from a schema; what is found stands before what is asked for. -/
inductive Mismatch where
  | missing
  | columns (found asked : List (String × Bool))
  | severalPrimaryKeys (count : Nat)
  | primaryKey (found : List (List String))
  | uniques (found : List (List String))
  | foreignKeys (found : List ForeignKey)
  | indexes (found : List Index)
deriving DecidableEq, Repr, Inhabited

/-- Why a verification fails. -/
inductive VerifyFault where
  | mismatch (table : String) (difference : Mismatch)
  /-- A fault in the words of another checker. -/
  | described (text : String)
deriving DecidableEq, Repr, Inhabited

namespace Mismatch

open Text

/-- A column with whether it may be null. -/
def columnText (c : String × Bool) : String :=
  "(" ++ quoted c.1 ++ ", " ++ toString c.2 ++ ")"

/-- A foreign key as a record. -/
def foreignKeyText (k : ForeignKey) : String :=
  record "ForeignKeyDef" [
    ("columns", quotedList k.columns),
    ("referenced_table", quoted k.table),
    ("referenced_columns", quotedList k.referencedColumns),
    ("on_delete", optional (k.onDelete.map (quoted ·.sql))),
    ("on_update", optional (k.onUpdate.map (quoted ·.sql)))]

/-- An index as a record. -/
def indexText (i : Index) : String :=
  record "IndexDef" [
    ("name", quoted i.name),
    ("columns", quotedList i.columns),
    ("unique", toString i.unique)]

/-- The text of a difference, behind the name of the table. -/
def text : Mismatch → String
  | missing => " is missing"
  | columns found asked =>
    ": columns " ++ bracketed (found.map columnText) ++ " do not match "
      ++ bracketed (asked.map columnText)
  | severalPrimaryKeys count => ": " ++ toString count ++ " primary keys declared"
  | primaryKey found =>
    ": primary key " ++ bracketed (found.map quotedList) ++ " does not match"
  | uniques found =>
    ": unique constraints " ++ bracketed (found.map quotedList) ++ " do not match"
  | foreignKeys found =>
    ": foreign keys " ++ bracketed (found.map foreignKeyText) ++ " do not match"
  | indexes found => ": indexes " ++ bracketed (found.map indexText) ++ " do not match"

end Mismatch

/-- The text of a fault. -/
def VerifyFault.message : VerifyFault → String
  | mismatch table difference => "table " ++ table ++ difference.text
  | described text => text

/-- Compares a table with its entry; the first difference is reported. -/
def checkTable (table : Table) (entry : TableEntry) : Except Mismatch Unit := do
  let asked := TableEntry.ofTable table
  if asked.columns ≠ entry.columns then throw (.columns entry.columns asked.columns)
  -- A table that asks for two primary keys fails here, even where the entry has both.
  if 1 < asked.primaryKeys.length then throw (.severalPrimaryKeys asked.primaryKeys.length)
  if asked.primaryKeys ≠ entry.primaryKeys then throw (.primaryKey entry.primaryKeys)
  if asked.uniques ≠ entry.uniques then throw (.uniques entry.uniques)
  if asked.foreignKeys ≠ entry.foreignKeys then throw (.foreignKeys entry.foreignKeys)
  if asked.indexes ≠ entry.indexes then throw (.indexes entry.indexes)

/-- Checks that a catalog has every table of a schema, as the schema defines it. -/
def Relational.Schema.check (schema : Schema) (catalog : Catalog) : Except VerifyFault Unit :=
  schema.tables.forM fun table =>
    match catalog.find? table.name with
    | none => .error (.mismatch table.name .missing)
    | some entry => (checkTable table entry).mapError (.mismatch table.name)

/-- A table passes when its entry is the one asked for, up to the name, and it has one primary key
at most. -/
theorem checkTable_eq_ok_iff {table : Table} {entry : TableEntry} :
    checkTable table entry = .ok () ↔
      { entry with name := table.name } = TableEntry.ofTable table
        ∧ (table.columnsOf .primaryKey).length ≤ 1 := by
  obtain ⟨name, columns, primaryKeys, foreignKeys, uniques, indexes⟩ := entry
  simp only [checkTable, TableEntry.ofTable, TableEntry.mk.injEq, true_and]
  constructor
  · intro h
    simp only [bind, Except.bind, pure, Except.pure, throw, throwThe, MonadExceptOf.throw] at h
    grind
  -- Without a difference none of the checks reports one.
  · rintro ⟨⟨rfl, rfl, rfl, rfl, rfl⟩, hlen⟩
    simp [Nat.not_lt.2 hlen, pure, Except.pure]

end ProtoSchema
