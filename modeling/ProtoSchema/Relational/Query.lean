import ProtoSchema.Relational.Definition

/-!
# Queries of a table

Each table gets queries that create, get, list, update and delete its rows. A query is data first:
the columns it names and the placeholder numbers its values take; its text follows from that.

Key results:
* `QueryTarget.queries_eq_nil_iff` — only a table without columns has no queries
* `QueryTarget.map_fst_assignments` — an update assigns every column that is not the key
-/

namespace ProtoSchema.Relational

/-- A query with the columns it names, in order, and the numbers of its placeholders. -/
inductive Query where
  /-- Inserts one row and returns it. -/
  | create (columns : List String) (values : List Nat)
  /-- Reads the row with a key. -/
  | get (columns : List String) (key : String × Nat)
  /-- Reads all rows, in the order of a column. -/
  | list (columns : List String) (order : String)
  /-- Changes the row with a key and returns it. -/
  | update (assignments : List (String × Nat)) (key : String × Nat) (returning : List String)
  /-- Removes the row with a key. -/
  | delete (key : String × Nat)
deriving DecidableEq, Repr, Inhabited

namespace Query

/-- The verb in front of the name of a query. -/
def verb : Query → String
  | create .. => "Create"
  | get .. => "Get"
  | list .. => "List"
  | update .. => "Update"
  | delete .. => "Delete"

/-- How many rows a query gives back. -/
def cardinality : Query → String
  | create .. | get .. | update .. => ":one"
  | list .. => ":many"
  | delete .. => ":exec"

/-- A placeholder for a value. -/
def placeholder (n : Nat) : String :=
  "$" ++ toString n

/-- A column and the placeholder of its value. -/
def equation (p : String × Nat) : String :=
  p.1 ++ " = " ++ placeholder p.2

/-- The statement of a query on the table `table`. -/
def statement (table : String) : Query → String
  | create columns values =>
    "INSERT INTO " ++ table ++ " (\n  " ++ nameList columns ++ "\n) VALUES (\n  "
      ++ nameList (values.map placeholder) ++ "\n)\nRETURNING " ++ nameList columns ++ ";\n"
  | get columns key =>
    "SELECT " ++ nameList columns ++ " FROM " ++ table ++ "\nWHERE " ++ equation key
      ++ " LIMIT 1;\n"
  | list columns order =>
    "SELECT " ++ nameList columns ++ " FROM " ++ table ++ "\nORDER BY " ++ order ++ ";\n"
  | update assignments key returning =>
    "UPDATE " ++ table ++ " SET\n" ++ itemLines (assignments.map equation) ++ "WHERE "
      ++ equation key ++ "\nRETURNING " ++ nameList returning ++ ";\n"
  | delete key =>
    "DELETE FROM " ++ table ++ "\nWHERE " ++ equation key ++ ";\n"

/-- The name of a query for rows called `row`. -/
def name (row : String) (q : Query) : String :=
  q.verb ++ row

/-- The text of a query: the line with its name, then its statement. -/
def text (row table : String) (q : Query) : String :=
  "-- name: " ++ q.name row ++ " " ++ q.cardinality ++ "\n" ++ q.statement table

end Query

/-- What queries are written for: a table, the name of its rows in query names, and the column that
identifies them. -/
structure QueryTarget where
  table : Table
  row : String := table.name
  primaryKey : String := table.primaryKey
deriving DecidableEq, Repr, Inhabited

namespace QueryTarget

/-- The names of the columns. -/
def columns (t : QueryTarget) : List String :=
  t.table.columns.map (·.name)

/-- The columns other than the key, with placeholders that follow the key's. -/
def assignments (t : QueryTarget) : List (String × Nat) :=
  (t.columns.filter (· ≠ t.primaryKey)).zipIdx 2

/-- The queries of a table, in the order of their verbs. A table without columns has none, and one
with no column but the key has no update. -/
def queries (t : QueryTarget) : List Query :=
  if t.columns.isEmpty then []
  else
    [.create t.columns (List.range' 1 t.columns.length),
      .get t.columns (t.primaryKey, 1),
      .list t.columns t.primaryKey]
    ++ (if t.assignments.isEmpty then []
      else [.update t.assignments (t.primaryKey, 1) t.columns])
    ++ [.delete (t.primaryKey, 1)]

/-- The texts of the queries. -/
def statements (t : QueryTarget) : List String :=
  t.queries.map (Query.text t.row t.table.name)

/-- An update assigns every column that is not the key. -/
theorem map_fst_assignments (t : QueryTarget) :
    t.assignments.map Prod.fst = t.columns.filter (· ≠ t.primaryKey) := by
  simp [assignments]

/-- Only a table without columns has no queries. -/
theorem queries_eq_nil_iff (t : QueryTarget) : t.queries = [] ↔ t.table.columns = [] := by
  cases h : t.table.columns <;> simp [queries, columns, h]

end QueryTarget

/-- Queries that a table does not get. -/
inductive QueryGap where
  /-- A table without columns has no queries at all. -/
  | noColumns (table : String)
  /-- A table with no column but its key has no update. -/
  | noUpdate (table primaryKey : String)
deriving DecidableEq, Repr, Inhabited

/-- The gap in the queries of a table, if there is one. -/
def QueryTarget.gap? (t : QueryTarget) : Option QueryGap :=
  if t.columns.isEmpty then some (.noColumns t.table.name)
  else if t.assignments.isEmpty then some (.noUpdate t.table.name t.primaryKey)
  else none

/-- The queries of several tables in one document. -/
def queryDocument (sources : List String) (targets : List QueryTarget) : String :=
  document sources (targets.flatMap QueryTarget.statements)

end ProtoSchema.Relational
