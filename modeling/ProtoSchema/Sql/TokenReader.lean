import ProtoSchema.Reader
import ProtoSchema.Sql.Scan

/-!
# Reading tokens

The small readers that statements are built from: symbols, keywords, names and lists in
parentheses.

Key results:
* `run_symbol_cons` — a symbol is read when it is the first token
* `Name.text_of_unquoted` — an unquoted name is written as it is
-/

namespace ProtoSchema.Sql

/-- A reader of tokens. -/
abbrev TokenReader := Reader Located ScriptError

namespace TokenReader

variable {α : Type}

/-- Fails because `what` is needed where the next token is. -/
def expected (what : Expectation) : TokenReader α :=
  fun input => .error (.expected what input.head?)

/-- The next token, which is not taken. -/
def peek? : TokenReader (Option Token) :=
  fun input => .ok (input.head?.map (·.token), input)

/-- Takes the next token, if there is one. -/
def skip : TokenReader Unit :=
  discard Reader.next?

/-- Takes the next token if `p` makes a value of it. -/
def next? (p : Token → Option α) : TokenReader (Option α) :=
  fun input =>
    match input with
    | [] => .ok (none, [])
    | t :: rest =>
      match p t.token with
      | some a => .ok (some a, rest)
      | none => .ok (none, t :: rest)

/-- Takes the next token if it is the symbol `s`, and says whether it was. -/
def symbol? (s : String) : TokenReader Bool :=
  return (← next? fun t => if t = .symbol s then some () else none).isSome

/-- Takes the symbol `s`. -/
def symbol (s : String) : TokenReader Unit := do
  if ← symbol? s then pure () else expected (.symbol s)

/-- Whether the next token is the symbol `s`. -/
def atSymbol (s : String) : TokenReader Bool :=
  return (← peek?) = some (.symbol s)

/-- Takes the next token if it is the keyword `k`, and says whether it was. -/
def keyword? (k : String) : TokenReader Bool :=
  return (← next? fun t => if t.isKeyword k then some () else none).isSome

/-- Takes the next token if it is one of the keywords `ks`, and says whether it was. -/
def anyKeyword? (ks : List String) : TokenReader Bool :=
  return (← next? fun t => if ks.any (t.isKeyword ·) then some () else none).isSome

/-- Takes the next tokens if they are the keywords `ks`, and says whether they were. -/
def keywords? (ks : List String) : TokenReader Bool :=
  fun input =>
    let front := input.take ks.length
    if front.length = ks.length ∧ (front.zip ks).all fun (t, k) => t.token.isKeyword k then
      .ok (true, input.drop ks.length)
    else .ok (false, input)

/-- Takes the keyword `k`. -/
def keyword (k : String) : TokenReader Unit := do
  if ← keyword? k then pure () else expected (.keyword k)

/-- One or more items separated by commas. -/
def commaSeparated (item : TokenReader α) : TokenReader (List α) :=
  Reader.separated item (symbol? ",")

/-- A symbol is read when it is the first token. -/
theorem run_symbol_cons (s : String) (p : Position) (rest : List Located) :
    (symbol s).run (⟨.symbol s, p⟩ :: rest) = .ok ((), rest) := by
  have hnext : (next? fun t => if t = .symbol s then some () else none).run
      (⟨.symbol s, p⟩ :: rest) = .ok (some (), rest) := by
    simp [next?, StateT.run]
  -- The first token is the symbol, so the reader that only tries for it succeeds.
  have h : (symbol? s).run (⟨.symbol s, p⟩ :: rest) = .ok (true, rest) := by
    rw [symbol?, Reader.run_bind_of_ok hnext]
    rfl
  rw [symbol, Reader.run_bind_of_ok h]
  rfl

end TokenReader

/-- A quote inside a quoted name is written twice, unless it is one of a pair of quotes already or
follows a backslash. -/
def requote (q : Char) : (previous : Char) → List Char → List Char
  | _, [] => []
  | previous, [c] => if c = q ∧ previous ≠ '\\' then [c, c] else [c]
  | previous, c :: d :: r =>
    if c = q then
      -- Behind a backslash the quote stays, and the backslash still counts for the next character.
      if previous = '\\' then c :: requote q previous (d :: r)
      else if d = q then c :: d :: requote q c r
      else c :: c :: requote q c (d :: r)
    else c :: requote q c (d :: r)

/-- A name as it stands in a statement, with the quotes around it, if any. -/
structure Name where
  value : String
  quote : Option Char := none
deriving DecidableEq, Repr, Inhabited

namespace Name

/-- A name as it is written. -/
def text (n : Name) : String :=
  match n.quote with
  | none => n.value
  | some q => String.ofList (q :: requote q '\x00' n.value.toList ++ [q])

/-- The parts of a dotted name, joined by dots. -/
def dotted (parts : List Name) : String :=
  ".".intercalate (parts.map text)

/-- The name that a token stands for; texts between single quotes count as names. -/
def ofToken? : Token → Option Name
  | .word text false => some ⟨text, none⟩
  | .word text true => some ⟨text, some '"'⟩
  | .literal text => some ⟨text, some '\''⟩
  | _ => none

/-- Reads a name. -/
def read : TokenReader Name := do
  match ← TokenReader.next? ofToken? with
  | some n => pure n
  | none => TokenReader.expected .identifier

/-- Reads a dotted name. -/
def readDotted : TokenReader (List Name) :=
  Reader.separated read (TokenReader.symbol? ".")

/-- An unquoted name is written as it is. -/
@[simp] theorem text_of_unquoted (s : String) : text ⟨s, none⟩ = s := rfl

end Name

/-- Items in parentheses, separated by commas, where a list of columns is needed. -/
def columnList {α : Type} (item : TokenReader α) : TokenReader (List α) := do
  if ← TokenReader.symbol? "(" then
    let items ← TokenReader.commaSeparated item
    TokenReader.symbol ")"
    pure items
  else TokenReader.expected .columnList

/-- Items in parentheses, or none at all. -/
def optionalList {α : Type} (item : TokenReader α) : TokenReader (List α) := do
  if ← TokenReader.atSymbol "(" then columnList item else pure []

end ProtoSchema.Sql
