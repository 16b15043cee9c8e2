import ProtoSchema.Relational.Schema
import ProtoSchema.Sql.Expression

/-!
# Statements

A script is a list of statements between semicolons. Statements that create tables and indexes are
kept with what they say; other statements are accepted and forgotten.

This is a part of the statements of PostgreSQL: those that create tables, indexes, enum types and
sequences, plain queries, and those that drop something. Others are refused, as those that insert,
update or delete, and so is what may stand behind a table body (`WITH`, `AS`, `INHERITS`,
`PARTITION BY`) or behind the name of an index or its table (`USING`). What is said about verified
documents is therefore said of every reader; this one reads the statements of definitions.

Key results:
* `Statement.readAll` — the statements of a script
* `readAll_nil` — a script without tokens has no statements
-/

namespace ProtoSchema.Sql

open ProtoSchema.Relational (ReferentialAction)

/-- A column of a `CREATE TABLE` statement, with what is kept of it. -/
structure ColumnDefinition where
  name : Name
  notNull : Bool
deriving DecidableEq, Repr, Inhabited

/-- An element of a key list: an expression, an operator class and an order. -/
structure KeyElement where
  expression : Expression
  operatorClass : Option Name := none
  order : String := ""
deriving Repr, Inhabited

namespace KeyElement

/-- The column that the element orders by, as it is written. -/
def columnText (e : KeyElement) : String :=
  e.expression.text ++ e.order

/-- The whole element as it is written. -/
def text (e : KeyElement) : String :=
  e.columnText ++ (match e.operatorClass with
    | none => ""
    | some n => " " ++ n.text)

end KeyElement

/-- The reference of a foreign key. -/
structure References where
  table : List Name
  columns : List Name
  onDelete : Option ReferentialAction := none
  onUpdate : Option ReferentialAction := none
deriving DecidableEq, Repr, Inhabited

/-- A constraint of a `CREATE TABLE` statement. -/
inductive TableConstraint where
  | primaryKey (elements : List KeyElement)
  | unique (elements : List KeyElement)
  | foreignKey (columns : List Name) (references : References)
  | check (condition : Expression)
deriving Repr, Inhabited

/-- A statement. -/
inductive Statement where
  | createTable (name : List Name) (columns : List ColumnDefinition)
      (constraints : List TableConstraint)
  | createIndex (name : Option (List Name)) (table : List Name) (elements : List KeyElement)
      (unique : Bool)
  | other
deriving Repr, Inhabited

open TokenReader

/-! ## Constraints -/

/-- Reads a direction, if there is one. -/
def readDirection : TokenReader String := do
  if ← keyword? "ASC" then return " ASC"
  else if ← keyword? "DESC" then return " DESC"
  else return ""

/-- Reads at which end nulls stand, if that is said. -/
def readNulls : TokenReader String := do
  if ← keywords? ["NULLS", "FIRST"] then return " NULLS FIRST"
  else if ← keywords? ["NULLS", "LAST"] then return " NULLS LAST"
  else return ""

/-- Reads the order behind an element of a key list. -/
def readOrder : TokenReader String := do
  let direction ← readDirection
  let nulls ← readNulls
  return direction ++ nulls

/-- Reads an element of a key list. A name behind the expression is its operator class. -/
def readKeyElement (depth : Nat) : TokenReader KeyElement := do
  let e ← expression depth 0
  -- None of these words is an operator class.
  let ordered := (← peek?).any fun t => ["ASC", "DESC", "NULLS", "WITH"].any (t.isKeyword ·)
  let operatorClass ← if ordered then pure none else next? Name.ofToken?
  return { expression := e, operatorClass, order := ← readOrder }

/-- Reads a referential action. -/
def readAction : TokenReader ReferentialAction := do
  if ← keyword? "RESTRICT" then pure .restrict
  else if ← keyword? "CASCADE" then pure .cascade
  else if ← keywords? ["SET", "NULL"] then pure .setNull
  else if ← keywords? ["NO", "ACTION"] then pure .noAction
  else if ← keywords? ["SET", "DEFAULT"] then pure .setDefault
  else expected .action

/-- Reads a reference behind the word `REFERENCES`: a table, columns, and at most one action for
each of the two events. -/
def readReferences : TokenReader References := do
  let table ← Name.readDotted
  let columns ← optionalList Name.read
  Reader.iterate (fun (r : References) => do
    -- Each turn reads one action. A second one for the same event ends the reference.
    if r.onDelete.isNone then
      if ← keywords? ["ON", "DELETE"] then
        return some { r with onDelete := some (← readAction) }
    if r.onUpdate.isNone then
      if ← keywords? ["ON", "UPDATE"] then
        return some { r with onUpdate := some (← readAction) }
    return none) { table, columns }

/-- Reads a condition in parentheses. -/
def readCondition (depth : Nat) : TokenReader Expression := do
  symbol "("
  let e ← expression depth 0
  symbol ")"
  pure e

/-- Reads the elements of a primary key or unique constraint, behind an optional name. -/
def readKey (depth : Nat) : TokenReader (List KeyElement) := do
  discard (next? Name.ofToken?)
  columnList (readKeyElement depth)

/-- Reads a table constraint, if the next word starts one. -/
def readConstraint? (depth : Nat) : TokenReader (Option TableConstraint) := do
  let named ← keyword? "CONSTRAINT"
  if named then discard Name.read
  if ← keyword? "UNIQUE" then
    if ← anyKeyword? ["KEY", "INDEX"] then expected .indexName
    else return some (.unique (← readKey depth))
  else if ← keyword? "PRIMARY" then
    keyword "KEY"
    return some (.primaryKey (← readKey depth))
  else if ← keyword? "FOREIGN" then
    keyword "KEY"
    discard (next? Name.ofToken?)
    let columns ← columnList Name.read
    keyword "REFERENCES"
    return some (.foreignKey columns (← readReferences))
  else if ← keyword? "CHECK" then
    return some (.check (← readCondition depth))
  -- A name promises a constraint.
  else if named then expected .constraintKind
  else return none

/-! ## Tables -/

/-- What an option says about a column, as far as it is kept. -/
inductive ColumnOption where
  | notNull
  | other
deriving DecidableEq, Repr, Inhabited

/-- Reads the default of a column: an operand when it starts with a parenthesis, any expression
otherwise. -/
def readDefault (depth : Nat) : TokenReader Expression := do
  if ← atSymbol "(" then operand (expression depth) else expression depth 0

/-- Reads a column option, if there is one. A word `AS` is taken even so. -/
def readOption? (depth : Nat) : TokenReader (Option ColumnOption) := do
  if ← keyword? "COLLATE" then
    discard Name.readDotted
    return some .other
  else if ← keywords? ["NOT", "NULL"] then return some .notNull
  else if ← keyword? "NULL" then return some .other
  else if ← keyword? "DEFAULT" then
    discard (readDefault depth)
    return some .other
  else if ← keywords? ["PRIMARY", "KEY"] then return some .other
  else if ← keyword? "UNIQUE" then return some .other
  else if ← keyword? "REFERENCES" then
    discard readReferences
    return some .other
  else if ← keyword? "CHECK" then
    discard (readCondition depth)
    return some .other
  else
    discard (keyword? "AS")
    return none

/-- Reads an option of a column into it, behind an optional name, if there is one. -/
def readOptionInto? (depth : Nat) (column : ColumnDefinition) :
    TokenReader (Option ColumnDefinition) := do
  let named ← keyword? "CONSTRAINT"
  if named then discard Name.read
  match ← readOption? depth with
  | some .notNull => return some { column with notNull := true }
  | some .other => return some column
  | none => if named then expected .constraintDetails else return none

/-- Reads a column. It is `NOT NULL` when one of its options says so. -/
def readColumn (depth : Nat) : TokenReader ColumnDefinition := do
  let name ← Name.read
  discard DataType.read
  Reader.iterate (readOptionInto? depth) { name, notNull := false }

/-- What stands between the parentheses of a `CREATE TABLE` statement. -/
structure TableBody where
  columns : List ColumnDefinition := []
  constraints : List TableConstraint := []
deriving Repr, Inhabited

/-- Reads one column or constraint into a table body. -/
def readItem (depth : Nat) (body : TableBody) : TokenReader TableBody := do
  match ← readConstraint? depth with
  | some constraint => return { body with constraints := body.constraints ++ [constraint] }
  | none =>
    match ← peek? with
    | some (.word ..) => return { body with columns := body.columns ++ [← readColumn depth] }
    | _ => expected .columnOrConstraint

/-- Reads another column or constraint behind a comma, if there is one. -/
def readNextItem? (depth : Nat) (body : TableBody) : TokenReader (Option TableBody) := do
  if ← symbol? "," then return some (← readItem depth body)
  else if ← atSymbol ")" then return none
  else expected .columnEnd

/-- Reads a table body, which may be missing. -/
def readBody (depth : Nat) : TokenReader TableBody := do
  -- No parentheses and empty ones both make a table without columns.
  if !(← symbol? "(") then return {}
  if ← symbol? ")" then return {}
  let body ← readItem depth {}
  let body ← Reader.iterate (readNextItem? depth) body
  symbol ")"
  return body

/-- Reads a `CREATE TABLE` statement behind these words. -/
def readCreateTable (depth : Nat) : TokenReader Statement := do
  discard (keywords? ["IF", "NOT", "EXISTS"])
  let name ← Name.readDotted
  let body ← readBody depth
  return .createTable name body.columns body.constraints

/-! ## Other statements -/

/-- Reads a `CREATE INDEX` statement behind these words. -/
def readCreateIndex (depth : Nat) (unique : Bool) : TokenReader Statement := do
  discard (keyword? "CONCURRENTLY")
  let conditional ← keywords? ["IF", "NOT", "EXISTS"]
  -- An index that is made on a condition has a name.
  let unnamed ← if conditional then pure false else keyword? "ON"
  let name ←
    if unnamed then pure none
    else
      let name ← Name.readDotted
      keyword "ON"
      pure (some name)
  let table ← Name.readDotted
  let elements ← columnList (readKeyElement depth)
  return .createIndex name table elements unique

/-- Reads a number with an optional sign. -/
def readSignedNumber : TokenReader Unit := do
  if !(← symbol? "+") then discard (symbol? "-")
  match ← peek? with
  | some (.number _) | some (.placeholder _) => skip
  | some (.literal _) => expected .numberLiteral
  | some (.word ..) => expected .concreteValue
  | _ => expected .value

/-- Reads the options of a sequence, which have a fixed order. -/
def readSequenceOptions : TokenReader Unit := do
  if ← keyword? "INCREMENT" then
    discard (keyword? "BY")
    readSignedNumber
  if ← keyword? "MINVALUE" then readSignedNumber else discard (keywords? ["NO", "MINVALUE"])
  if ← keyword? "MAXVALUE" then readSignedNumber else discard (keywords? ["NO", "MAXVALUE"])
  if ← keyword? "START" then
    discard (keyword? "WITH")
    readSignedNumber

/-- Reads a `CREATE TYPE` statement behind these words. -/
def readCreateType : TokenReader Statement := do
  discard Name.readDotted
  if ← keyword? "AS" then
    keyword "ENUM"
    symbol "("
    -- An enum may have no values.
    if !(← atSymbol ")") then discard (commaSeparated Name.read)
    symbol ")"
  return .other

/-- Reads a statement behind the word `CREATE`. -/
def readCreate (depth : Nat) : TokenReader Statement := do
  if ← keyword? "TABLE" then readCreateTable depth
  else if ← keywords? ["UNIQUE", "INDEX"] then readCreateIndex depth true
  else if ← keyword? "INDEX" then readCreateIndex depth false
  else if ← keyword? "TYPE" then readCreateType
  else if ← keyword? "SEQUENCE" then
    discard (keywords? ["IF", "NOT", "EXISTS"])
    discard Name.readDotted
    readSequenceOptions
    return .other
  else expected .objectType

/-- Reads a `SELECT` statement behind this word: its columns and tables. -/
def readSelect (depth : Nat) : TokenReader Statement := do
  let item : TokenReader Expression := do
    if ← symbol? "*" then pure .all else expression depth 0
  discard (commaSeparated item)
  if ← keyword? "FROM" then discard (commaSeparated Name.readDotted)
  if ← keyword? "WHERE" then discard (expression depth 0)
  return .other

/-- Reads a `DROP` statement behind this word. -/
def readDrop : TokenReader Statement := do
  if ← anyKeyword? ["TABLE", "INDEX", "SEQUENCE", "TYPE"] then
    discard (keywords? ["IF", "EXISTS"])
    discard (commaSeparated Name.readDotted)
    if !(← keyword? "CASCADE") then discard (keyword? "RESTRICT")
    return .other
  else expected .objectType

/-! ## Scripts -/

/-- How deep expressions may be nested inside a statement. -/
def expressionDepth : Nat := 49

/-- Reads one statement. -/
def Statement.read : TokenReader Statement := do
  if ← keyword? "CREATE" then readCreate expressionDepth
  else if ← keyword? "SELECT" then readSelect expressionDepth
  else if ← keyword? "DROP" then readDrop
  else if ← symbol? "(" then expected .queryBody
  else expected .statement

/-- Takes all semicolons at the front, and says whether there was one. -/
def readSemicolons : TokenReader Bool :=
  Reader.iterate (fun _ => do
    if ← symbol? ";" then pure (some true) else pure none) false

/-- The statements read so far, and whether a semicolon has to follow. -/
structure ScriptState where
  statements : List Statement := []
  ended : Bool := true
deriving Repr, Inhabited

/-- Reads another statement of a script. Between two of them there is a semicolon at least; the
word `END` behind a statement ends the script. -/
def readNextStatement? (script : ScriptState) : TokenReader (Option ScriptState) := do
  let ended := (← readSemicolons) || script.ended
  match ← peek? with
  | none => return none
  | some t =>
    -- Only a semicolon lets another statement follow.
    if ended then
      return some { statements := script.statements ++ [← Statement.read], ended := false }
    else if t.isKeyword "END" then return none
    else expected .statementEnd

/-- Reads the statements of a script. -/
def Statement.readAll : TokenReader (List Statement) := do
  let script ← Reader.iterate readNextStatement? {}
  return script.statements

/-- The statements of a script, or what is wrong with it. What cannot be cut into tokens is reported
before anything else. -/
def Statement.ofScript (script : String) : Except ScriptError (List Statement) := do
  let tokens ← tokens script.toList
  return (← Statement.readAll.run tokens).1

/-- A script without tokens has no statements. -/
theorem readAll_nil : Statement.readAll.run [] = .ok ([], []) := rfl

end ProtoSchema.Sql
