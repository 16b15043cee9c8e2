import ProtoSchema.Pool.Tree

/-!
# The walk over the requested files

A request names files; the walk meets what they declare. First come the enums of a file, those
inside messages included, then the messages, each before those declared inside it. What stands for
the entries of a map field is met and left out, with everything inside it. A file without messages
is left out as a whole.

Key results:
* `Pool.visits_append` — the walk goes from file to file
-/

namespace ProtoSchema

/-- What the walk meets. -/
inductive Visit where
  /-- A file name that no file has. -/
  | unknownFile (name : String)
  /-- A file without messages. -/
  | emptyFile (name : String)
  /-- A file that contributes to the schema. -/
  | file (name : String)
  | enum (node : EnumNode)
  | mapEntry (fullName : String)
  | message (node : MessageNode)
deriving DecidableEq, Repr, Inhabited

namespace MessageTree

mutual

/-- The enums inside a message and the messages inside it. -/
def enums : MessageTree → List EnumNode
  | node _ enums nested => enums ++ enumsAll nested

/-- The enums inside several messages. -/
def enumsAll : List MessageTree → List EnumNode
  | [] => []
  | t :: ts => t.enums ++ enumsAll ts

end

mutual

/-- The message and those inside it, without the entries of map fields. -/
def visits : MessageTree → List Visit
  | node message _ nested =>
    if message.mapEntry then [.mapEntry message.fullName]
    else .message message :: visitsAll nested

/-- Several messages and those inside them. -/
def visitsAll : List MessageTree → List Visit
  | [] => []
  | t :: ts => t.visits ++ visitsAll ts

end

end MessageTree

namespace Pool

/-- What the walk meets in a file. -/
def fileVisits (pool : Pool) (file : FileNode) : List Visit :=
  if file.messages.isEmpty then [.emptyFile file.name]
  else
    -- All enums of the file come before its messages, those nested in messages included.
    let trees := pool.treesOf file
    .file file.name
      :: (file.enums.filterMap pool.enum? ++ MessageTree.enumsAll trees).map .enum
      ++ MessageTree.visitsAll trees

/-- What the walk meets for a file name. -/
def visitsOf (pool : Pool) (name : String) : List Visit :=
  match pool.fileByName name with
  | none => [.unknownFile name]
  | some file => pool.fileVisits file

/-- What the walk meets for the names of a request, in their order. -/
def visits (pool : Pool) (requested : List String) : List Visit :=
  requested.flatMap pool.visitsOf

/-- The walk goes from file to file. -/
@[simp] theorem visits_append (pool : Pool) (fs gs : List String) :
    pool.visits (fs ++ gs) = pool.visits fs ++ pool.visits gs := by
  simp [visits]

end Pool

end ProtoSchema
