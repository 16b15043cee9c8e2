import ProtoSchema.Sql.Statement

/-!
# Catalogs

A catalog holds the tables that a script creates: for each name the last definition, with the
indexes created for it afterwards. Keys of single columns are not recorded.

Key results:
* `find?_insert` — a table that is entered replaces the one of its name and no other
* `find?_addIndex` — an index changes no table but its own
-/

namespace ProtoSchema.Sql

open ProtoSchema.Relational (ReferentialAction Index)

/-- A foreign key of a catalog. -/
structure ForeignKey where
  columns : List String
  table : String
  referencedColumns : List String
  onDelete : Option ReferentialAction
  onUpdate : Option ReferentialAction
deriving DecidableEq, Repr, Inhabited

/-- A table of a catalog: its columns with whether they may be null, and its keys. -/
structure TableEntry where
  name : String
  columns : List (String × Bool) := []
  primaryKeys : List (List String) := []
  foreignKeys : List ForeignKey := []
  uniques : List (List String) := []
  indexes : List Index := []
deriving DecidableEq, Repr, Inhabited

namespace TableConstraint

/-- The columns of a primary key. -/
def primaryKey? : TableConstraint → Option (List String)
  | primaryKey elements => some (elements.map (·.text))
  | _ => none

/-- The columns of a unique constraint. -/
def unique? : TableConstraint → Option (List String)
  | unique elements => some (elements.map (·.text))
  | _ => none

/-- The entry of a foreign key. -/
def foreignKey? : TableConstraint → Option ForeignKey
  | foreignKey columns references =>
    some {
      columns := columns.map (·.text)
      table := Name.dotted references.table
      referencedColumns := references.columns.map (·.text)
      onDelete := references.onDelete
      onUpdate := references.onUpdate }
  | _ => none

end TableConstraint

/-- The entry of a table as its statement defines it. -/
def TableEntry.ofDefinition (name : List Name) (columns : List ColumnDefinition)
    (constraints : List TableConstraint) : TableEntry where
  name := Name.dotted name
  columns := columns.map fun c => (c.name.text, !c.notNull)
  primaryKeys := constraints.filterMap (·.primaryKey?)
  foreignKeys := constraints.filterMap (·.foreignKey?)
  uniques := constraints.filterMap (·.unique?)

/-- The tables that a script creates. -/
structure Catalog where
  tables : List TableEntry := []
deriving DecidableEq, Repr, Inhabited

namespace Catalog

/-- The table of a name. -/
def find? (catalog : Catalog) (name : String) : Option TableEntry :=
  catalog.tables.find? (·.name == name)

/-- Enters a table in place of the one of its name. -/
def insert (catalog : Catalog) (entry : TableEntry) : Catalog :=
  ⟨catalog.tables.filter (·.name != entry.name) ++ [entry]⟩

/-- Adds an index to the table `table`, if there is one. -/
def addIndex (catalog : Catalog) (table : String) (index : Index) : Catalog :=
  ⟨catalog.tables.map fun entry =>
    if entry.name = table then { entry with indexes := entry.indexes ++ [index] } else entry⟩

/-- What a statement does to a catalog. An index without a name is not recorded. -/
def apply (catalog : Catalog) : Statement → Catalog
  | .createTable name columns constraints =>
    catalog.insert (.ofDefinition name columns constraints)
  | .createIndex (some name) table elements unique =>
    catalog.addIndex (Name.dotted table)
      { name := Name.dotted name, columns := elements.map (·.columnText), unique }
  | .createIndex none .. | .other => catalog

/-- The catalog that statements leave behind. -/
def ofStatements (statements : List Statement) : Catalog :=
  statements.foldl apply {}

/-- The catalog of a script, of which `parse` gives the statements. -/
def readWith {ε : Type} (parse : String → Except ε (List Statement)) (script : String) :
    Except ε Catalog :=
  (parse script).map ofStatements

/-- The catalog of a script. -/
def ofScript (script : String) : Except ScriptError Catalog :=
  readWith Statement.ofScript script

/-- A table that is entered replaces the one of its name and no other. -/
theorem find?_insert (catalog : Catalog) (entry : TableEntry) (name : String) :
    (catalog.insert entry).find? name
      = if entry.name = name then some entry else catalog.find? name := by
  obtain ⟨tables⟩ := catalog
  simp only [insert, find?]
  induction tables with
  | nil =>
    by_cases h : entry.name = name <;> simp [h]
  | cons t ts ih =>
    by_cases ht : t.name = entry.name
    -- The old entry of the name goes, and the new one is put at the end.
    · have hf : (t :: ts).filter (·.name != entry.name) = ts.filter (·.name != entry.name) := by
        simp [ht]
      rw [hf, ih]
      by_cases h : entry.name = name
      · simp [h]
      · simp [h, ht]
    · have hf : (t :: ts).filter (·.name != entry.name)
          = t :: ts.filter (·.name != entry.name) := by
        simp [ht]
      rw [hf, List.cons_append, List.find?_cons, List.find?_cons, ih]
      -- A table of another name stays where it is.
      cases hn : t.name == name with
      | true =>
        have : ¬entry.name = name := fun h => ht ((beq_iff_eq.1 hn).trans h.symm)
        exact (if_neg this).symm
      | false => rfl

/-- An index changes no table but its own. -/
theorem find?_addIndex (catalog : Catalog) (table name : String) (index : Index) :
    (catalog.addIndex table index).find? name
      = (catalog.find? name).map fun entry =>
        if entry.name = table then { entry with indexes := entry.indexes ++ [index] }
        else entry := by
  simp only [addIndex, find?, List.find?_map]
  congr 1
  congr 1
  funext entry
  by_cases h : entry.name = table <;> simp [h]

end Catalog

end ProtoSchema.Sql
