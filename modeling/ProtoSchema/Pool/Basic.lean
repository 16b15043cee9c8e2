import ProtoSchema.Pool.Node

/-!
# The pool of declarations

All files of a request are flattened into one pool. Messages and enums are numbered in the order of
a walk: the enums of a file, then its messages, each followed by its enums and then by the messages
inside it. So a message comes before all that is declared inside it, and the numbers inside a
message are consecutive.

Key results:
* `length_messagesIn`, `length_enumsIn` — a descriptor has as many nodes as it counts
* `Pool.ofFiles_append` — later files are added behind the earlier ones
-/

namespace ProtoSchema

open Plugin

/-- A message or an enum. -/
inductive Declaration where
  | message (node : MessageNode)
  | enum (node : EnumNode)
deriving DecidableEq, Repr, Inhabited

namespace Declaration

/-- The full name of a declaration. -/
def fullName : Declaration → String
  | message node => node.fullName
  | enum node => node.fullName

/-- The node of a message. -/
def message? : Declaration → Option MessageNode
  | message node => some node
  | enum _ => none

/-- The node of an enum. -/
def enum? : Declaration → Option EnumNode
  | message _ => none
  | enum node => some node

@[simp] theorem message?_message (n : MessageNode) : (message n).message? = some n := rfl

@[simp] theorem message?_enum (n : EnumNode) : (enum n).message? = none := rfl

@[simp] theorem enum?_message (n : MessageNode) : (message n).enum? = none := rfl

@[simp] theorem enum?_enum (n : EnumNode) : (enum n).enum? = some n := rfl

end Declaration

namespace Flatten

mutual

/-- The number of messages in a descriptor, itself included. -/
def messageCount : MessageDescriptor → Nat
  | ⟨_, _, messages, _, _⟩ => messageCounts messages + 1

/-- The number of messages in several descriptors. -/
def messageCounts : List MessageDescriptor → Nat
  | [] => 0
  | d :: ds => messageCount d + messageCounts ds

end

mutual

/-- The number of enums in a descriptor. -/
def enumCount : MessageDescriptor → Nat
  | ⟨_, _, messages, enums, _⟩ => enums.length + enumCounts messages

/-- The number of enums in several descriptors. -/
def enumCounts : List MessageDescriptor → Nat
  | [] => 0
  | d :: ds => enumCount d + enumCounts ds

end

/-- The numbers of sibling messages, of which the first is `first`. -/
def messageIds : (first : Nat) → List MessageDescriptor → List MessageId
  | _, [] => []
  | first, d :: ds => ⟨first⟩ :: messageIds (first + messageCount d) ds

/-- The numbers of `count` sibling enums, of which the first is `first`. -/
def enumIds (first count : Nat) : List EnumId :=
  (List.range' first count).map EnumId.mk

mutual

/-- The declarations of a message inside `scope`: itself, its enums, and the declarations of the
messages inside it. The message gets the number `m`, its first enum the number `e`. -/
def declarations (file : FileId) (scope : String) (m e : Nat) :
    MessageDescriptor → List Declaration
  | ⟨name, fields, messages, enums, options⟩ =>
    let name := name.getD ""
    let fullName := qualified scope name
    .message {
      name, fullName, file
      fields := fields.map FieldNode.ofDescriptor
      nestedMessages := messageIds (m + 1) messages
      nestedEnums := enumIds e enums.length
      mapEntry := (options.bind (·.mapEntry)).getD false }
    -- The messages inside are numbered from `m + 1` on, as their declarations follow this one.
    :: enums.map (fun d => .enum (.ofDescriptor file fullName d))
    ++ nestedDeclarations file fullName (m + 1) (e + enums.length) messages

/-- The declarations of sibling messages inside `scope`. -/
def nestedDeclarations (file : FileId) (scope : String) (m e : Nat) :
    List MessageDescriptor → List Declaration
  | [] => []
  | d :: ds =>
    declarations file scope m e d
      ++ nestedDeclarations file scope (m + messageCount d) (e + enumCount d) ds

end

/-- The declarations of a file: its enums, then its messages. -/
def fileDeclarations (file : FileId) (m e : Nat) (d : FileDescriptor) : List Declaration :=
  d.enums.map (fun x => .enum (.ofDescriptor file (fileScope d) x))
    ++ nestedDeclarations file (fileScope d) m (e + d.enums.length) d.messages

/-- The node of a file. -/
def fileNode (m e : Nat) (d : FileDescriptor) : FileNode where
  name := d.name.getD ""
  messages := messageIds m d.messages
  enums := enumIds e d.enums.length

mutual

/-- A descriptor has as many messages as it counts. -/
theorem length_messagesIn (file : FileId) (scope : String) (m e : Nat) :
    (d : MessageDescriptor) →
      ((declarations file scope m e d).filterMap (·.message?)).length = messageCount d
  | ⟨name, fields, messages, enums, options⟩ => by
    have hi := length_nestedMessagesIn file (qualified scope (name.getD "")) (m + 1)
      (e + enums.length) messages
    have hn : enums.filterMap (fun _ => (none : Option MessageNode)) = [] := by simp
    simp [declarations, messageCount, List.filterMap_map, Function.comp_def, hi, hn]

/-- Sibling descriptors have as many messages as they count. -/
theorem length_nestedMessagesIn (file : FileId) (scope : String) (m e : Nat) :
    (ds : List MessageDescriptor) →
      ((nestedDeclarations file scope m e ds).filterMap (·.message?)).length = messageCounts ds
  | [] => rfl
  | d :: ds => by
    simp [nestedDeclarations, messageCounts, length_messagesIn file scope m e d,
      length_nestedMessagesIn file scope (m + messageCount d) (e + enumCount d) ds]

end

mutual

/-- A descriptor has as many enums as it counts. -/
theorem length_enumsIn (file : FileId) (scope : String) (m e : Nat) :
    (d : MessageDescriptor) →
      ((declarations file scope m e d).filterMap (·.enum?)).length = enumCount d
  | ⟨name, fields, messages, enums, options⟩ => by
    have hi := length_nestedEnumsIn file (qualified scope (name.getD "")) (m + 1)
      (e + enums.length) messages
    simp [declarations, enumCount, List.filterMap_cons, List.filterMap_map, Function.comp_def, hi]

/-- Sibling descriptors have as many enums as they count. -/
theorem length_nestedEnumsIn (file : FileId) (scope : String) (m e : Nat) :
    (ds : List MessageDescriptor) →
      ((nestedDeclarations file scope m e ds).filterMap (·.enum?)).length = enumCounts ds
  | [] => rfl
  | d :: ds => by
    simp [nestedDeclarations, enumCounts, length_enumsIn file scope m e d,
      length_nestedEnumsIn file scope (m + messageCount d) (e + enumCount d) ds]

end

end Flatten

/-- The files of a request and all that is declared in them, in the order of the walk. -/
structure Pool where
  files : List FileNode := []
  declarations : List Declaration := []
deriving DecidableEq, Repr, Inhabited

namespace Pool

/-- The messages, in the order of their numbers. -/
def messages (pool : Pool) : List MessageNode :=
  pool.declarations.filterMap (·.message?)

/-- The enums, in the order of their numbers. -/
def enums (pool : Pool) : List EnumNode :=
  pool.declarations.filterMap (·.enum?)

/-- Adds a file with all that it declares. -/
def addFile (pool : Pool) (d : FileDescriptor) : Pool where
  files := pool.files ++ [Flatten.fileNode pool.messages.length pool.enums.length d]
  declarations := pool.declarations
    ++ Flatten.fileDeclarations ⟨pool.files.length⟩ pool.messages.length pool.enums.length d

/-- The pool of the files of a request. -/
def ofFiles (files : List FileDescriptor) : Pool :=
  files.foldl addFile {}

/-- The node of a file. -/
def file? (pool : Pool) (id : FileId) : Option FileNode :=
  pool.files[id.index]?

/-- The node of a message. -/
def message? (pool : Pool) (id : MessageId) : Option MessageNode :=
  pool.messages[id.index]?

/-- The node of an enum. -/
def enum? (pool : Pool) (id : EnumId) : Option EnumNode :=
  pool.enums[id.index]?

/-- The first file of a name. -/
def fileByName (pool : Pool) (name : String) : Option FileNode :=
  pool.files.find? (·.name == name)

/-- The first declaration of a full name. -/
def declaration? (pool : Pool) (fullName : String) : Option Declaration :=
  pool.declarations.find? (·.fullName == fullName)

/-- The enum of a full name, unless something else of that name is declared before. -/
def enumByTypeName (pool : Pool) (fullName : String) : Option EnumNode :=
  (pool.declaration? fullName).bind (·.enum?)

/-- The message of a full name, unless something else of that name is declared before. -/
def messageByTypeName (pool : Pool) (fullName : String) : Option MessageNode :=
  (pool.declaration? fullName).bind (·.message?)

/-- The name of the file that a node belongs to. -/
def fileName (pool : Pool) (id : FileId) : String :=
  ((pool.file? id).map (·.name)).getD ""

/-- Later files are added behind the earlier ones. -/
theorem ofFiles_append (fs : List FileDescriptor) (d : FileDescriptor) :
    ofFiles (fs ++ [d]) = (ofFiles fs).addFile d := by
  simp [ofFiles]

end Pool

end ProtoSchema
