import ProtoSchema.Text.Printable

/-!
# Quoted text for messages

How a text, a list or a record appears inside a message: texts stand between double quotes with
quotes, backslashes and unprintable characters escaped, lists between brackets, records between
braces after their name.

Key results:
* `toList_quoted` — a quoted text is its escaped characters between two quotes
* `escape_of_isPrintable` — characters that need no escape stand for themselves
-/

namespace ProtoSchema.Text

/-- The characters that stand for `c` between quotes: a short escape where there is one, the code
point in hexadecimal for what is not printable, and `c` itself otherwise. -/
def escape (c : Char) : List Char :=
  if c = '"' then ['\\', '"']
  else if c = '\\' then ['\\', '\\']
  else if c = '\n' then ['\\', 'n']
  else if c = '\r' then ['\\', 'r']
  else if c = '\t' then ['\\', 't']
  else if c.toNat = 0 then ['\\', '0']
  else if isPrintable c then [c]
  else ['\\', 'u', '\x7b'] ++ Nat.toDigits 16 c.toNat ++ ['\x7d']

/-- A text between double quotes, escaped. -/
def quoted (s : String) : String :=
  "\"" ++ String.ofList (s.toList.flatMap escape) ++ "\""

/-- The items between brackets, separated by commas. -/
def bracketed (items : List String) : String :=
  "[" ++ ", ".intercalate items ++ "]"

/-- A list of quoted texts. -/
def quotedList (items : List String) : String :=
  bracketed (items.map quoted)

/-- A record: its name, then its fields with their values between braces. -/
def record (name : String) (fields : List (String × String)) : String :=
  name ++ " \x7b " ++ ", ".intercalate (fields.map fun (key, value) => key ++ ": " ++ value)
    ++ " \x7d"

/-- An optional value. -/
def optional (value : Option String) : String :=
  match value with
  | none => "None"
  | some text => "Some(" ++ text ++ ")"

/-- A quoted text is its escaped characters between two quotes. -/
@[simp] theorem toList_quoted (s : String) :
    (quoted s).toList = '"' :: s.toList.flatMap escape ++ ['"'] := by
  simp [quoted, String.toList_append]

/-- A printable character other than a quote, a backslash or a line break stands for itself. -/
theorem escape_of_isPrintable {c : Char} (hp : isPrintable c = true) (hq : c ≠ '"')
    (hb : c ≠ '\\') (hn : c ≠ '\n') (hr : c ≠ '\r') (ht : c ≠ '\t') (h0 : c.toNat ≠ 0) :
    escape c = [c] := by
  simp [escape, hp, hq, hb, hn, hr, ht, h0]

end ProtoSchema.Text
