/-!
# Tokens

The tokens of a script with the places they start at, and the errors that a script can have.
Unquoted words are keywords where a keyword is looked for, in upper or lower case.

Key results:
* `Token.isKeyword_quoted` — a quoted word is never a keyword
* `Position.after_append` — positions follow the text character by character
-/

namespace ProtoSchema.Sql

/-- A place in a script; lines and columns count from one. -/
structure Position where
  line : Nat := 1
  column : Nat := 1
deriving DecidableEq, Repr, Inhabited

namespace Position

/-- The place behind a character. -/
def step (p : Position) (c : Char) : Position :=
  if c = '\n' then ⟨p.line + 1, 1⟩ else ⟨p.line, p.column + 1⟩

/-- The place behind a text. -/
def after (p : Position) (s : List Char) : Position :=
  s.foldl step p

/-- The text of a place. -/
def text (p : Position) : String :=
  " at Line: " ++ toString p.line ++ ", Column: " ++ toString p.column

/-- Positions follow the text character by character. -/
@[simp] theorem after_append (p : Position) (s t : List Char) :
    p.after (s ++ t) = (p.after s).after t := by
  simp [after]

end Position

/-- A token. -/
inductive Token where
  /-- A name or keyword; `quoted` for names between double quotes. -/
  | word (text : String) (quoted : Bool)
  | number (text : String)
  /-- The text between single quotes. -/
  | literal (text : String)
  | placeholder (text : String)
  | symbol (text : String)
deriving DecidableEq, Repr, Inhabited

/-- The upper-case form of a character, as far as it is made of ASCII letters; any other character
stands for itself. -/
def upperCase (c : Char) : List Char :=
  match c with
  | 'ß' => ['S', 'S']
  | 'ı' => ['I']
  | 'ſ' => ['S']
  | 'ﬀ' => ['F', 'F']
  | 'ﬁ' => ['F', 'I']
  | 'ﬂ' => ['F', 'L']
  | 'ﬃ' => ['F', 'F', 'I']
  | 'ﬄ' => ['F', 'F', 'L']
  | 'ﬅ' => ['S', 'T']
  | 'ﬆ' => ['S', 'T']
  | c => [c.toUpper]

namespace Token

/-- Whether a token is the keyword `k`, which is given in capitals. -/
def isKeyword (k : String) : Token → Bool
  | word text false => text.toList.flatMap upperCase == k.toList
  | _ => false

/-- A token as messages show it. -/
def text : Token → String
  | word text false => text
  | word text true => "\"" ++ text ++ "\""
  | number text => text
  | literal text => "'" ++ text ++ "'"
  | placeholder text => text
  | symbol text => text

/-- A quoted word is never a keyword. -/
@[simp] theorem isKeyword_quoted (k text : String) : isKeyword k (word text true) = false := rfl

end Token

/-- A token and where it starts. -/
structure Located where
  token : Token
  position : Position
deriving DecidableEq, Repr, Inhabited

/-- What a statement needs at some place. -/
inductive Expectation where
  | identifier
  | dataType
  | expression
  | columnList
  | columnOrConstraint
  | columnEnd
  | constraintKind
  | constraintDetails
  | action
  | statement
  | statementEnd
  | objectType
  | queryBody
  | indexName
  | integer
  | numberLiteral
  | value
  | concreteValue
  | typeModifiers
  | keyword (word : String)
  | symbol (text : String)
deriving DecidableEq, Repr, Inhabited

/-- The words for what is needed. -/
def Expectation.text : Expectation → String
  | identifier => "identifier"
  | dataType => "a data type name"
  | expression => "an expression"
  | columnList => "a list of columns in parentheses"
  | columnOrConstraint => "column name or constraint definition"
  | columnEnd => "',' or ')' after column definition"
  | constraintKind => "PRIMARY, UNIQUE, FOREIGN, or CHECK"
  | constraintDetails => "constraint details after CONSTRAINT <name>"
  | action => "one of RESTRICT, CASCADE, SET NULL, NO ACTION or SET DEFAULT"
  | statement => "an SQL statement"
  | statementEnd => "end of statement"
  | objectType => "an object type after CREATE"
  | queryBody => "SELECT, VALUES, or a subquery in the query body"
  | indexName => "`index_name` or `(column_name [, ...])`"
  | integer => "literal int"
  | numberLiteral => "literal number"
  | value => "a value"
  | concreteValue => "a concrete value"
  | typeModifiers => "type modifiers"
  | keyword word => word
  | symbol text => text

/-- Why a script is not accepted. -/
inductive ScriptError where
  /-- A literal without its closing quote. -/
  | openLiteral (start : Position)
  /-- A quoted name without its closing quote. -/
  | openName (start : Position)
  /-- A comment without its end. -/
  | openComment (stop : Position)
  /-- Something else than what is needed, or the end of the script. -/
  | expected (what : Expectation) (found : Option Located)
  /-- Expressions nested too deeply. -/
  | depthReached
deriving DecidableEq, Repr, Inhabited

/-- The text of an error. -/
def ScriptError.message : ScriptError → String
  | openLiteral start => "sql parser error: Unterminated string literal" ++ start.text
  | openName start =>
    "sql parser error: Expected close delimiter '\"' before EOF." ++ start.text
  | openComment stop =>
    "sql parser error: Unexpected EOF while in a multi-line comment" ++ stop.text
  | expected what none => "sql parser error: Expected: " ++ what.text ++ ", found: EOF"
  | expected what (some found) =>
    "sql parser error: Expected: " ++ what.text ++ ", found: " ++ found.token.text
      ++ found.position.text
  | depthReached => "sql parser error: recursion limit exceeded"

end ProtoSchema.Sql
