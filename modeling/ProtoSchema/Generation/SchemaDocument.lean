import ProtoSchema.Error

/-!
# The schema document

The document that creates a schema. It may be verified: its statements for tables and indexes are
read back, and the catalog they leave has to hold the schema. What reads them back is a parameter of
`verifyWith` and `documentWith`; the program itself reads with `Sql.Statement.ofScript`.

Key results:
* `Schema.documentWith_true` — verification changes no document, it only refuses some
-/

namespace ProtoSchema.Relational.Schema

open ProtoSchema Relational

/-- Reads definition statements back and checks that they create the tables of the schema. How a
script is read is a parameter, and so is the error that a script with a fault is reported as. -/
def verifyWith {ε : Type} (parse : String → Except ε (List Sql.Statement)) (fault : ε → Error)
    (schema : Schema) (definitions : String) : Except Error Unit := do
  let catalog ← (Sql.Catalog.readWith parse definitions).mapError fault
  (schema.check catalog).mapError .verify

/-- Reads definition statements back and checks that they create the tables of the schema. -/
def verify (schema : Schema) (definitions : String) : Except Error Unit :=
  schema.verifyWith Sql.Statement.ofScript .script definitions

/-- The document that creates the schema, verified where that is asked for, with `parse` to read
the statements back. -/
def documentWith {ε : Type} (parse : String → Except ε (List Sql.Statement)) (fault : ε → Error)
    (schema : Schema) (verified : Bool) (sources : List String) : Except Error String := do
  let definitions ← schema.tableDefinitions.mapError Error.render
  if verified then schema.verifyWith parse fault (String.join definitions)
  return Relational.document sources (schema.typeDefinitions ++ definitions)

/-- The document that creates the schema, verified where that is asked for. -/
def document (schema : Schema) (verified : Bool) (sources : List String) : Except Error String :=
  schema.documentWith Sql.Statement.ofScript .script verified sources

/-- Verification changes no document, it only refuses some. -/
theorem documentWith_true {ε : Type} {parse : String → Except ε (List Sql.Statement)}
    {fault : ε → Error} {schema : Schema} {definitions : List String}
    (h : schema.tableDefinitions = .ok definitions) (sources : List String) :
    schema.documentWith parse fault true sources
      = (schema.verifyWith parse fault (String.join definitions)).map fun _ =>
        Relational.document sources (schema.typeDefinitions ++ definitions) := by
  rw [documentWith, h]
  -- With definitions at hand, only the verification of them is left to fail.
  show (do
    if true then schema.verifyWith parse fault (String.join definitions)
    return Relational.document sources (schema.typeDefinitions ++ definitions)) = _
  cases schema.verifyWith parse fault (String.join definitions) <;> rfl

end ProtoSchema.Relational.Schema
