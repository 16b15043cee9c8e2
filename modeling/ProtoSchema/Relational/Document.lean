/-!
# Generated documents

Every document starts with the same first line and the files it was made from; its statements
follow, each after an empty line.

Key results:
* `document_append` — more statements are added at the end
-/

namespace ProtoSchema.Relational

/-- The first line of every document. -/
def generatedLine : String :=
  "-- Code generated by protoc-gen-sqlc. DO NOT EDIT.\n"

/-- The head of a document made from `sources`. -/
def documentHead (sources : List String) : String :=
  generatedLine
    ++ (if sources.isEmpty then "" else "-- source:\n")
    ++ String.join (sources.map fun source => "--   " ++ source ++ "\n")

/-- A document made from `sources`. -/
def document (sources statements : List String) : String :=
  documentHead sources ++ String.join (statements.map ("\n" ++ ·))

/-- Indented items, separated by commas, each on a line of its own. -/
def itemLines (items : List String) : String :=
  if items.isEmpty then "" else ",\n".intercalate (items.map ("  " ++ ·)) ++ "\n"

/-- More statements are added at the end. -/
theorem document_append (sources statements more : List String) :
    document sources (statements ++ more)
      = document sources statements ++ String.join (more.map ("\n" ++ ·)) := by
  simp [document, String.append_assoc]

end ProtoSchema.Relational
