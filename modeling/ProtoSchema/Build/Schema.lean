import ProtoSchema.Build.Constraints
import ProtoSchema.Build.Walk

/-!
# Building a schema

A schema is built from what the walk over the requested files meets: a table for every message and
an enum type for every enum, the first of each name. What cannot be built is reported and left out.

Key results:
* `Building.run_append` — building goes on where it stopped
-/

namespace ProtoSchema

open Relational

/-- What is built for a request. -/
structure Build where
  schema : Schema := {}
  /-- The names of the tables with the files of their messages, in the order of the tables. -/
  origins : List (String × String) := []
  /-- The files that contribute, in the order of the request. -/
  sources : List String := []
deriving DecidableEq, Repr, Inhabited

namespace Build

/-- The file of the message of a table. -/
def fileOf (b : Build) (table : String) : Option String :=
  b.origins.lookup table

/-- The tables of the messages of a file, in order. -/
def tablesIn (b : Build) (file : String) : List String :=
  (b.origins.filter (·.2 = file)).map Prod.fst

end Build

/-- The table of a message: a column for each field that has one, and the constraints. -/
def Pool.table (pool : Pool) (message : MessageNode) : Outcome Table :=
  let columns := message.fields.map (FieldNode.column? pool message.name)
  let constraints := message.constraints
  { value := {
      name := message.name
      columns := columns.filterMap (·.value)
      constraints := constraints.value }
    diagnostics := columns.flatMap (·.diagnostics)
      ++ constraints.diagnostics.map fun d =>
        { d with subject := message.name ++ "." ++ d.subject } }

/-- How far building has come: what is built, the problems, and the events. -/
structure Building where
  build : Build := {}
  diagnostics : List Diagnostic := []
  events : List Event := []
deriving DecidableEq, Repr, Inhabited

namespace Building

/-- Adds a problem. -/
def report (b : Building) (subject : String) (error : Error) : Building :=
  { b with diagnostics := b.diagnostics ++ [⟨subject, error⟩] }

/-- Adds events. -/
def note (b : Building) (events : List Event) : Building :=
  { b with events := b.events ++ events }

/-- Adds an enum type, unless the enum has no name or one that was used before. -/
def addEnum (b : Building) (node : EnumNode) : Building :=
  if node.name.isEmpty then b.report node.fullName (.invalidInput .unnamedEnum)
  else if (b.build.schema.enum? node.name).isSome then
    b.report node.fullName (.duplicate .enum node.name)
  else
    let schema := b.build.schema
    let enums := schema.enums ++ [{ name := node.name, values := node.values }]
    { b with build := { b.build with schema := { schema with enums } } }

/-- Adds the table of a message, unless the message has no name or one that was used before. -/
def addMessage (pool : Pool) (b : Building) (node : MessageNode) : Building :=
  if node.name.isEmpty then b.report node.fullName (.invalidInput .unnamedMessage)
  else if (b.build.schema.table? node.name).isSome then
    b.report node.fullName (.duplicate .table node.name)
  else
    -- The table is built even when its columns have problems; these are reported with it.
    let table := pool.table node
    let schema := b.build.schema
    { build := {
        schema := { schema with tables := schema.tables ++ [table.value] }
        origins := b.build.origins ++ [(table.value.name, pool.fileName node.file)]
        sources := b.build.sources }
      diagnostics := b.diagnostics ++ table.diagnostics
      events := b.events ++ node.undecodedEvents }

/-- Goes on with what the walk meets next. -/
def visit (pool : Pool) (b : Building) : Visit → Building
  | .unknownFile name => b.report name (.invalidInput .unknownFile)
  | .emptyFile name => b.note [.fileWithoutMessages name]
  | .file name =>
    { b.note [.processingFile name] with
      build := { b.build with sources := b.build.sources ++ [name] } }
  | .enum node => b.addEnum node
  | .mapEntry fullName => b.note [.skippedMapEntry fullName]
  | .message node => addMessage pool b node

/-- Goes on with all that the walk meets. -/
def run (pool : Pool) (b : Building) (visits : List Visit) : Building :=
  visits.foldl (visit pool) b

/-- Building goes on where it stopped. -/
theorem run_append (pool : Pool) (b : Building) (vs ws : List Visit) :
    run pool b (vs ++ ws) = run pool (run pool b vs) ws := by
  simp [run]

end Building

/-- The columns of an enum type that the schema does not have. -/
def Relational.Schema.undefinedEnums (schema : Schema) : List Diagnostic :=
  schema.tables.flatMap fun table =>
    table.columns.filterMap fun column =>
      match column.type with
      | .enum name =>
        if (schema.enum? name).isSome then none
        else some ⟨table.name ++ "." ++ column.name, .undefinedEnum name⟩
      | _ => none

/-- Builds the schema of the requested files. -/
def Pool.build (pool : Pool) (requested : List String) : Logged (Outcome Build) :=
  let b := Building.run pool {} (pool.visits requested)
  { value := {
      value := b.build
      diagnostics := b.diagnostics ++ b.build.schema.undefinedEnums }
    events := b.events }

end ProtoSchema
