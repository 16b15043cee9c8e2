/-!
# Text literals

A text in a statement stands between single quotes, and a quote inside it is written twice.

Key results:
* `toList_quote` — a literal is the doubled text between two quotes
* `doubled_append` — doubling works character by character
-/

namespace ProtoSchema.Sql

/-- The text with every single quote written twice. -/
def doubled (s : List Char) : List Char :=
  s.flatMap fun c => if c = '\'' then ['\'', '\''] else [c]

/-- The literal of a text. -/
def quote (s : String) : String :=
  "'" ++ String.ofList (doubled s.toList) ++ "'"

/-- A literal is the doubled text between two quotes. -/
theorem toList_quote (s : String) :
    (quote s).toList = '\'' :: (doubled s.toList ++ ['\'']) := by
  simp [quote, String.toList_append]

/-- Doubling works character by character. -/
@[simp] theorem doubled_append (s t : List Char) : doubled (s ++ t) = doubled s ++ doubled t := by
  simp [doubled]

end ProtoSchema.Sql
