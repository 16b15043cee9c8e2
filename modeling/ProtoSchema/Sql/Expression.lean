import ProtoSchema.Sql.TokenReader

/-!
# Expressions

Defaults, checks and the elements of key lists are expressions. They are read with the usual
precedences and written back with one space around binary operators.

This is a part of the expressions of PostgreSQL: names, values, calls, lists in parentheses, the
symbols and words of operators, and casts with `::`. Other expressions, as `CASE`, `CAST ()`, `IN`,
`BETWEEN`, `IS NULL`, `LIKE`, `EXTRACT ()`, arrays, subscripts and queries, are refused. So a
document with such a default fails here though the database may take it; see
`Relational.Schema.verifyWith`, where the reader is a parameter.

Key results:
* `Expression.text_name` — the expression of a name is written as the name
* `run_expression_zero` — nothing is read once the depth is used up
-/

namespace ProtoSchema.Sql

/-- An expression. -/
inductive Expression where
  | name (parts : List Name)
  | number (text : String)
  | literal (text : String)
  | placeholder (text : String)
  | null
  | truth (value : Bool)
  /-- All columns, as an argument. -/
  | all
  | call (function : List Name) (arguments : List Expression)
  /-- Expressions in parentheses. -/
  | group (items : List Expression)
  | unary (operator : String) (operand : Expression)
  | binary (operator : String) (left right : Expression)
  | cast (operand : Expression) (type : String)
deriving Repr, Inhabited

namespace Expression

mutual

/-- An expression as it is written. -/
def text : Expression → String
  | name parts => Name.dotted parts
  | number text => text
  | literal text => Name.text ⟨text, some '\''⟩
  | placeholder text => text
  | null => "NULL"
  | truth value => if value then "true" else "false"
  | all => "*"
  | call function arguments =>
    Name.dotted function ++ "(" ++ ", ".intercalate (texts arguments) ++ ")"
  | group items => "(" ++ ", ".intercalate (texts items) ++ ")"
  | unary operator operand => operator ++ operand.text
  | binary operator left right => left.text ++ " " ++ operator ++ " " ++ right.text
  | cast operand type => operand.text ++ "::" ++ type

/-- Expressions as they are written. -/
def texts : List Expression → List String
  | [] => []
  | e :: es => e.text :: texts es

end

/-- The expression of a name is written as the name. -/
@[simp] theorem text_name (n : Name) : (name [n]).text = n.text := by
  simp [text, Name.dotted]

end Expression

namespace DataType

/-- Words that name a built-in type; these are written in capitals. -/
def builtIn : List String :=
  ["BOOLEAN", "BOOL", "FLOAT", "REAL", "FLOAT4", "FLOAT8", "SMALLINT", "INT", "INT2", "INT4",
    "INT8", "INTEGER", "BIGINT", "VARCHAR", "CHAR", "CHARACTER", "BLOB", "BYTEA", "BYTES", "UUID",
    "DATE", "TIMESTAMP", "TIMESTAMPTZ", "TIME", "INTERVAL", "JSON", "JSONB", "TEXT", "NUMERIC",
    "DECIMAL"]

/-- A length or precision of a built-in type. -/
def readLength : TokenReader String := do
  match ← TokenReader.next? fun
      | .number text => some text
      | _ => none with
  | some text => pure text
  | none => TokenReader.expected .integer

/-- Reads the modifiers of a type that is not built in, behind the opening parenthesis: words,
numbers and literals, with or without commas. -/
def readModifiers : TokenReader (List String) := do
  let modifiers ← Reader.iterate (fun (modifiers : List String) => do
    match ← TokenReader.next? fun
        | .word text quoted => some [Token.text (.word text quoted)]
        | .number text => some [text]
        | .literal text => some [text]
        | .symbol "," => some []
        | _ => none with
    | some more => pure (some (modifiers ++ more))
    | none => pure none) []
  if ← TokenReader.symbol? ")" then pure modifiers else TokenReader.expected .typeModifiers

/-- A type as it is written, with its modifiers. -/
def withModifiers (base separator : String) (modifiers : List String) : String :=
  if modifiers.isEmpty then base else base ++ "(" ++ separator.intercalate modifiers ++ ")"

/-- Reads a type without its brackets, from the first word on. -/
def readBase (first : Token) : TokenReader String := do
  if first.isKeyword "DOUBLE" then
    let base := if ← TokenReader.keyword? "PRECISION" then "DOUBLE PRECISION" else "DOUBLE"
    return withModifiers base "," (← optionalList readLength)
  else
    -- A built-in type takes lengths only, which are written with bare commas between them.
    match builtIn.find? (first.isKeyword ·) with
    | some base => return withModifiers base "," (← optionalList readLength)
    | none =>
      let base ←
        if ← TokenReader.symbol? "." then
          pure (first.text ++ "." ++ Name.dotted (← Name.readDotted))
        else pure first.text
      if ← TokenReader.symbol? "(" then return withModifiers base ", " (← readModifiers)
      else return base

/-- Reads a type and gives it as it is written: a word, which is dotted only if it is not built in,
then lengths or modifiers in parentheses, and brackets for arrays. -/
def read : TokenReader String := do
  let some first ← TokenReader.next? fun
      | .word text quoted => some (Token.word text quoted)
      | _ => none
    | TokenReader.expected .dataType
  Reader.iterate (fun type => do
    -- The brackets of an array may hold its size.
    if ← TokenReader.symbol? "[" then
      let size ← TokenReader.next? fun
        | .number text => some text
        | _ => none
      TokenReader.symbol "]"
      pure (some (type ++ "[" ++ size.getD "" ++ "]"))
    else pure none) (← readBase first)

end DataType

/-- How strongly an operator binds. -/
abbrev Precedence := Nat

/-- The symbols of comparisons. -/
def comparisons : List String :=
  ["=", "<", ">", "<=", ">=", "<>", "!=", "=="]

/-- The precedence of a binary operator, and its text. -/
def operator? (t : Token) : Option (Precedence × String) :=
  match t with
  | .symbol s =>
    if s = "::" then some (140, s)
    else if s = "^" then some (100, s)
    else if s = "*" ∨ s = "/" ∨ s = "%" then some (90, s)
    else if s = "+" ∨ s = "-" then some (80, s)
    -- Both spellings of an inequality become the same operator.
    else if s = "!=" then some (50, "<>")
    else if comparisons.contains s then some (50, s)
    -- Any other symbol of operator characters binds between sums and comparisons.
    else if s.toList.head?.any isOperatorStart then some (70, s)
    else none
  | t =>
    if t.isKeyword "AND" then some (20, "AND")
    else if t.isKeyword "OR" then some (10, "OR")
    else none

/-- Reads the arguments of a call behind its opening parenthesis. -/
def arguments (sub : Precedence → TokenReader Expression) : TokenReader (List Expression) := do
  if ← TokenReader.symbol? ")" then pure []
  else
    let items ← TokenReader.commaSeparated do
      if ← TokenReader.symbol? "*" then pure Expression.all else sub 0
    TokenReader.symbol ")"
    pure items

/-- Reads a name that may be dotted, and the arguments behind it if it is called. -/
def nameOrCall (sub : Precedence → TokenReader Expression) : TokenReader Expression := do
  let first ← Name.read
  let more ← Reader.iterate (fun (more : List Name) => do
    if ← TokenReader.symbol? "." then
      match ← TokenReader.next? Name.ofToken? with
      | some n => pure (some (more ++ [n]))
      | none => TokenReader.expected .expression
    else pure none) []
  let parts := first :: more
  if ← TokenReader.symbol? "(" then return .call parts (← arguments sub) else return .name parts

/-- Reads an expression that starts with a word. Some words start expressions of their own; of
these only a few cannot be names. -/
def wordExpression (sub : Precedence → TokenReader Expression) (word : Token) :
    TokenReader Expression := do
  if word.isKeyword "NULL" then
    TokenReader.skip
    pure .null
  else if word.isKeyword "TRUE" then
    TokenReader.skip
    pure (.truth true)
  else if word.isKeyword "FALSE" then
    TokenReader.skip
    pure (.truth false)
  else if word.isKeyword "NOT" then
    -- Without an operand behind it the word is a name.
    match ← Reader.attempt (do
        TokenReader.skip
        sub 30) with
    | some operand => pure (.unary "NOT " operand)
    | none => nameOrCall sub
  else if word.isKeyword "INTERVAL" then
    TokenReader.skip
    return .unary "INTERVAL " (← sub 200)
  else if word.isKeyword "EXISTS" then
    TokenReader.skip
    TokenReader.symbol "("
    -- What is tested is a query, which is not read.
    TokenReader.expected .queryBody
  else if word.isKeyword "TRIM" then
    TokenReader.skip
    TokenReader.symbol "("
    let operand ← sub 0
    TokenReader.symbol ")"
    pure (.call [⟨"TRIM", none⟩] [operand])
  else nameOrCall sub

/-- Reads an operand: an expression without binary operators outside parentheses. Expressions
inside it are read by `sub`. -/
def operand (sub : Precedence → TokenReader Expression) : TokenReader Expression := do
  match ← TokenReader.peek? with
  | some (.word text quoted) => wordExpression sub (.word text quoted)
  | some (.number text) =>
    TokenReader.skip
    pure (.number text)
  | some (.literal text) =>
    TokenReader.skip
    pure (.literal text)
  | some (.placeholder text) =>
    TokenReader.skip
    pure (.placeholder text)
  | some (.symbol "(") =>
    TokenReader.skip
    let items ← TokenReader.commaSeparated (sub 0)
    TokenReader.symbol ")"
    pure (.group items)
  | some (.symbol "-") =>
    TokenReader.skip
    return .unary "-" (← sub 90)
  | some (.symbol "+") =>
    TokenReader.skip
    return .unary "+" (← sub 90)
  | _ => TokenReader.expected .expression

/-- Reads the binary operators that bind more strongly than `precedence`, with their right
operands. -/
def operators (sub : Precedence → TokenReader Expression) (precedence : Precedence)
    (left : Expression) : TokenReader Expression :=
  Reader.iterate (fun left => do
    match ← TokenReader.next? fun t => (operator? t).filter fun op => precedence < op.1 with
    | none => pure none
    -- A cast has a type on its right, not an expression.
    | some (_, "::") => return some (.cast left (← DataType.read))
    | some (p, op) => return some (.binary op left (← sub p))) left

/-- Reads an expression whose operators bind more strongly than a precedence. Every expression
inside another one uses up one unit of depth. -/
def expression : (depth : Nat) → Precedence → TokenReader Expression
  | 0, _ => Reader.fail .depthReached
  | depth + 1, precedence => do
    let left ← operand (expression depth)
    operators (expression depth) precedence left

/-- Nothing is read once the depth is used up. -/
@[simp] theorem run_expression_zero (p : Precedence) (input : List Located) :
    (expression 0 p).run input = .error .depthReached := rfl

end ProtoSchema.Sql
