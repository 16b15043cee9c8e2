import ProtoSchema.Sql.Token

/-!
# Scanning

A script is cut into tokens from front to back. Blanks and comments separate tokens and are dropped;
every other character belongs to exactly one token.

These are not all tokens of PostgreSQL. A quote starts a plain literal whatever letter stands in
front of it, so literals with escapes, of bits, of bytes, of national characters and of code points
(`E''`, `B''`, `X''`, `N''`, `U&''`) are cut into a word and a literal, and those between dollar
signs are not known. Definitions are written without any of them, unless a default has one.

Key results:
* `readQuoted_length` — what follows a closing quote is shorter than what followed the opening one
* `scan_blank` — a blank yields no token
-/

namespace ProtoSchema.Sql

/-- What is left open at the end of a script. -/
inductive OpenPart where
  | literal
  | name
  | comment
deriving DecidableEq, Repr, Inhabited

/-- Reads up to the closing quote `q`; two quotes in a row stand for one. -/
def readQuoted (q : Char) : List Char → Option (List Char × List Char)
  | [] => none
  | [c] => if c = q then some ([], []) else none
  | c :: d :: r =>
    if c = q then
      if d = q then (readQuoted q r).map fun (s, rest) => (q :: s, rest) else some ([], d :: r)
    else (readQuoted q (d :: r)).map fun (s, rest) => (c :: s, rest)

/-- Drops the rest of a comment in which `depth + 1` comments are open. -/
def skipComment : (depth : Nat) → List Char → Option (List Char)
  | _, [] => none
  | _, [_] => none
  | depth, '*' :: '/' :: r =>
    match depth with
    | 0 => some r
    | depth + 1 => skipComment depth r
  | depth, '/' :: '*' :: r => skipComment (depth + 1) r
  | depth, _ :: d :: r => skipComment depth (d :: r)

/-- Whether a name may start with `c`. -/
def isNameStart (c : Char) : Bool :=
  c.isAlpha || c = '_' || 127 < c.toNat

/-- Whether a name may go on with `c`. -/
def isNamePart (c : Char) : Bool :=
  isNameStart c || c.isDigit || c = '$'

/-- Whether a placeholder may go on with `c`. -/
def isPlaceholderPart (c : Char) : Bool :=
  isNameStart c || c.isDigit

/-- The characters of operators. -/
def isOperatorPart (c : Char) : Bool :=
  "+-*/<>=~!@#%^&|`?".toList.contains c

/-- Whether an operator that starts with `c` takes all operator characters that follow. -/
def isOperatorStart (c : Char) : Bool :=
  "-<>~!@#%^&|?".toList.contains c

/-- The blanks of a script. -/
def isSeparator (c : Char) : Bool :=
  c = ' ' || ('\t' ≤ c && c ≤ '\r')

/-- The digits at the front of a text. An underscore is one of them when a hexadecimal digit
follows it. -/
def digitsAtFront : List Char → List Char
  | [] => []
  | [c] => if c.isDigit then [c] else []
  | c :: d :: r =>
    if c.isDigit || (c = '_' && "0123456789abcdefABCDEF".toList.contains d) then
      c :: digitsAtFront (d :: r)
    else []

/-- The exponent at the front of a text: a letter, an optional sign and digits. -/
def readExponent (s : List Char) : List Char × List Char :=
  match s with
  | e :: r =>
    if e = 'e' || e = 'E' then
      let sign := r.take (match r with
        | c :: _ => if c = '+' || c = '-' then 1 else 0
        | [] => 0)
      let r := r.drop sign.length
      let digits := r.takeWhile Char.isDigit
      -- A letter without digits starts a word of its own.
      if digits.isEmpty then ([], s) else (e :: sign ++ digits, r.drop digits.length)
    else ([], s)
  | [] => ([], [])

/-- A number at the front of a text, with an optional fraction, exponent and `L`. -/
def readNumber (s : List Char) : List Char × List Char :=
  let whole := digitsAtFront s
  let fraction :=
    match s.drop whole.length with
    | '.' :: r => '.' :: digitsAtFront r
    | _ => []
  let mantissa := whole ++ fraction
  let (exponent, rest) := readExponent (s.drop mantissa.length)
  let long := rest.take (if rest.head? = some 'L' then 1 else 0)
  (mantissa ++ exponent ++ long, rest.drop long.length)

/-- Whether a text starts with a digit. -/
def startsWithDigit (s : List Char) : Bool :=
  s.head?.any Char.isDigit

/-- Scans what starts with the character `c` and goes on with `r`: a token, or nothing for a blank
or a comment, and the text behind it. -/
def scan (c : Char) (r : List Char) : Except OpenPart (Option Token × List Char) :=
  if isSeparator c then .ok (none, r)
  else if c = '\'' then
    match readQuoted '\'' r with
    | some (s, rest) => .ok (some (.literal (String.ofList s)), rest)
    | none => .error .literal
  else if c = '"' then
    match readQuoted '"' r with
    | some (s, rest) => .ok (some (.word (String.ofList s) true), rest)
    | none => .error .name
  -- An unquoted name is kept as it is written; keywords are told apart later.
  else if isNameStart c then
    let part := r.takeWhile isNamePart
    .ok (some (.word (String.ofList (c :: part)) false), r.drop part.length)
  else if c.isDigit || (c = '.' && startsWithDigit r) then
    let (number, rest) := readNumber (c :: r)
    .ok (some (.number (String.ofList number)), rest)
  else if c = '$' then
    let part := r.takeWhile isPlaceholderPart
    .ok (some (.placeholder (String.ofList (c :: part))), r.drop part.length)
  else if c = '-' && r.head? = some '-' then
    -- A line comment takes the end of its line with it.
    .ok (none, (r.dropWhile fun d => d ≠ '\n' && d ≠ '\r').drop 1)
  else if c = '/' && r.head? = some '*' then
    match skipComment 0 (r.drop 1) with
    | some rest => .ok (none, rest)
    | none => .error .comment
  else if isOperatorStart c then
    let part := r.takeWhile isOperatorPart
    .ok (some (.symbol (String.ofList (c :: part))), r.drop part.length)
  -- The signs that are written with two characters.
  else if (c = ':' && (r.head? = some ':' || r.head? = some '='))
      || (c = '=' && (r.head? = some '=' || r.head? = some '>')) then
    .ok (some (.symbol (String.ofList (c :: r.take 1))), r.drop 1)
  else .ok (some (.symbol (String.ofList [c])), r)

/-- The error for a part that is left open: a quote is reported where it starts, a comment at the
end of the script. -/
def OpenPart.error (start : Position) (text : List Char) : OpenPart → ScriptError
  | literal => .openLiteral start
  | name => .openName start
  | comment => .openComment (start.after text)

/-- Cuts a text into tokens, of which the first may start at `position`. A text has at most as many
tokens as characters, which `fuel` is to be. -/
def tokensUpTo : (fuel : Nat) → (position : Position) → List Char →
    Except ScriptError (List Located)
  | 0, _, _ => .ok []
  | _ + 1, _, [] => .ok []
  | fuel + 1, position, c :: r =>
    match scan c r with
    | .error part => .error (part.error position (c :: r))
    | .ok (token, rest) =>
      -- Blanks and comments move the position on as well.
      let taken := (c :: r).take (r.length + 1 - rest.length)
      (tokensUpTo fuel (position.after taken) rest).map fun tokens =>
        match token with
        | none => tokens
        | some token => ⟨token, position⟩ :: tokens

/-- The tokens of a script. -/
def tokens (script : List Char) : Except ScriptError (List Located) :=
  tokensUpTo script.length {} script

/-- What follows a closing quote is shorter than what followed the opening one. -/
theorem readQuoted_length {q : Char} {s t rest : List Char} (h : readQuoted q s = some (t, rest)) :
    rest.length < s.length := by
  fun_induction readQuoted q s generalizing t rest with
  | case1 => simp at h
  | case2 =>
    simp only [Option.some.injEq, Prod.mk.injEq] at h
    simp [← h.2]
  | case3 => simp at h
  -- A doubled quote stands for one, and the reading goes on behind both.
  | case4 =>
    rename_i ih
    obtain ⟨⟨u, v⟩, hu, hv⟩ := Option.map_eq_some_iff.1 h
    cases hv
    have := ih hu
    simp only [List.length_cons]
    omega
  | case5 =>
    simp only [Option.some.injEq, Prod.mk.injEq] at h
    simp [← h.2]
  | case6 =>
    rename_i ih
    obtain ⟨⟨u, v⟩, hu, hv⟩ := Option.map_eq_some_iff.1 h
    cases hv
    have := ih hu
    simp only [List.length_cons] at this ⊢
    omega

/-- A blank yields no token. -/
theorem scan_blank (r : List Char) : scan ' ' r = .ok (none, r) := by
  simp [scan, isSeparator]

end ProtoSchema.Sql
