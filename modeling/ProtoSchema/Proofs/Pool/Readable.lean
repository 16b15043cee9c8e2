import ProtoSchema.Build.Walk
import ProtoSchema.Plugin.CustomOption

/-!
# Annotations that can be read

A payload that cannot be decoded is taken out of descriptors and of pools. Taking it out changes
neither the numbers of messages and enums nor what the walk meets, apart from the payloads
themselves.

Key results:
* `ofFiles_readable` — the pool of readable files is the readable pool
* `visits_readable` — the walk meets the same, with readable messages
-/

namespace ProtoSchema

open Plugin Wire

/-! ## Descriptors -/

namespace Plugin

/-- The options of a field without the payloads that cannot be decoded. -/
def FieldOptions.readable (o : FieldOptions) : FieldOptions where
  validation := o.validation.filter fun payload => (Message.decode FieldRules payload).isOk
  relational := o.relational.filter fun payload => (Message.decode FieldConstraints payload).isOk

/-- A field without the payloads that cannot be decoded. -/
def FieldDescriptor.readable (f : FieldDescriptor) : FieldDescriptor :=
  { f with options := f.options.map FieldOptions.readable }

namespace MessageDescriptor

mutual

/-- A message without the payloads that cannot be decoded. -/
def readable : MessageDescriptor → MessageDescriptor
  | ⟨name, fields, messages, enums, options⟩ =>
    ⟨name, fields.map FieldDescriptor.readable, readableAll messages, enums, options⟩

/-- Several messages without the payloads that cannot be decoded. -/
def readableAll : List MessageDescriptor → List MessageDescriptor
  | [] => []
  | d :: ds => readable d :: readableAll ds

end

end MessageDescriptor

/-- A file without the payloads that cannot be decoded. -/
def FileDescriptor.readable (f : FileDescriptor) : FileDescriptor :=
  { f with messages := MessageDescriptor.readableAll f.messages }

end Plugin

/-! ## Nodes -/

/-- A field without the payloads that cannot be decoded. -/
def FieldNode.readable (field : FieldNode) : FieldNode :=
  { field with options := field.options.map FieldOptions.readable }

/-- A message without the payloads that cannot be decoded. -/
def MessageNode.readable (node : MessageNode) : MessageNode :=
  { node with fields := node.fields.map FieldNode.readable }

/-- A declaration without the payloads that cannot be decoded. -/
def Declaration.readable : Declaration → Declaration
  | message node => .message node.readable
  | enum node => .enum node

/-- What is met without the payloads that cannot be decoded. -/
def Visit.readable : Visit → Visit
  | message node => .message node.readable
  | v => v

/-- A pool without the payloads that cannot be decoded. -/
def Pool.readable (pool : Pool) : Pool :=
  { pool with declarations := pool.declarations.map Declaration.readable }

namespace Declaration

/-- The message of a declaration is made readable with it. -/
theorem message?_readable (d : Declaration) :
    d.readable.message? = d.message?.map MessageNode.readable := by
  cases d <;> rfl

theorem enum?_readable (d : Declaration) : d.readable.enum? = d.enum? := by
  cases d <;> rfl

end Declaration

/-! ## Numbers -/

namespace Flatten

mutual

/-- A readable descriptor has as many messages and enums. -/
theorem counts_readable : (d : MessageDescriptor) →
    messageCount d.readable = messageCount d ∧ enumCount d.readable = enumCount d
  | ⟨name, fields, messages, enums, options⟩ => by
    obtain ⟨hmessages, henums⟩ := counts_readableAll messages
    rw [MessageDescriptor.readable, messageCount, messageCount, enumCount, enumCount, hmessages,
      henums]
    exact ⟨rfl, rfl⟩

theorem counts_readableAll : (ds : List MessageDescriptor) →
    messageCounts (MessageDescriptor.readableAll ds) = messageCounts ds
      ∧ enumCounts (MessageDescriptor.readableAll ds) = enumCounts ds
  | [] => ⟨rfl, rfl⟩
  | d :: ds => by
    obtain ⟨hmessage, henum⟩ := counts_readable d
    obtain ⟨hmessages, henums⟩ := counts_readableAll ds
    rw [MessageDescriptor.readableAll, messageCounts, messageCounts, enumCounts, enumCounts,
      hmessage, henum, hmessages, henums]
    exact ⟨rfl, rfl⟩

end

/-- Readable siblings have the same numbers. -/
theorem messageIds_readableAll (first : Nat) (ds : List MessageDescriptor) :
    messageIds first (MessageDescriptor.readableAll ds) = messageIds first ds := by
  induction ds generalizing first with
  | nil => rfl
  | cons d ds ih =>
    rw [MessageDescriptor.readableAll, messageIds, messageIds, (counts_readable d).1, ih]

mutual

/-- A readable descriptor declares the same, readable. -/
theorem declarations_readable (file : FileId) (scope : String) (m e : Nat) :
    (d : MessageDescriptor) →
      declarations file scope m e d.readable = (declarations file scope m e d).map .readable
  | ⟨name, fields, messages, enums, options⟩ => by
    -- The ids depend on the shape of the descriptor, which stays; only options are changed.
    have hnested := nestedDeclarations_readable file (qualified scope (name.getD "")) (m + 1)
      (e + enums.length) messages
    have hfields : (fields.map FieldDescriptor.readable).map FieldNode.ofDescriptor
        = (fields.map FieldNode.ofDescriptor).map FieldNode.readable := by
      rw [List.map_map, List.map_map]
      rfl
    have henums : (enums.map fun d => Declaration.enum
        (.ofDescriptor file (qualified scope (name.getD "")) d)).map Declaration.readable
        = enums.map fun d => Declaration.enum
          (.ofDescriptor file (qualified scope (name.getD "")) d) := by
      rw [List.map_map]
      rfl
    rw [MessageDescriptor.readable, declarations, declarations, hfields, messageIds_readableAll,
      hnested, List.map_append, List.map_cons, henums]
    rfl

theorem nestedDeclarations_readable (file : FileId) (scope : String) (m e : Nat) :
    (ds : List MessageDescriptor) →
      nestedDeclarations file scope m e (MessageDescriptor.readableAll ds)
        = (nestedDeclarations file scope m e ds).map .readable
  | [] => rfl
  | d :: ds => by
    have hfirst := declarations_readable file scope m e d
    have hrest := nestedDeclarations_readable file scope (m + messageCount d) (e + enumCount d) ds
    rw [MessageDescriptor.readableAll, nestedDeclarations, nestedDeclarations,
      (counts_readable d).1, (counts_readable d).2, hfirst, hrest, List.map_append]

end

end Flatten

/-! ## Pools -/

namespace Pool

/-- The messages of a readable pool are those of the pool, made readable. -/
theorem messages_readable (pool : Pool) :
    pool.readable.messages = pool.messages.map MessageNode.readable := by
  rw [messages, messages, readable, List.filterMap_map, List.map_filterMap]
  exact congrArg (List.filterMap · _) (funext Declaration.message?_readable)

/-- The enums of a readable pool. -/
theorem enums_readable (pool : Pool) : pool.readable.enums = pool.enums := by
  rw [enums, enums, readable, List.filterMap_map]
  exact congrArg (List.filterMap · _) (funext Declaration.enum?_readable)

end Pool

/-! ## Trees and visits -/

namespace MessageTree

mutual

/-- A tree without the payloads that cannot be decoded. -/
def readable : MessageTree → MessageTree
  | node message enums nested => .node message.readable enums (readableAll nested)

/-- Several trees without the payloads that cannot be decoded. -/
def readableAll : List MessageTree → List MessageTree
  | [] => []
  | t :: ts => readable t :: readableAll ts

end

/-- Trees are made readable one by one. -/
theorem readableAll_eq_map (ts : List MessageTree) : readableAll ts = ts.map readable := by
  induction ts with
  | nil => rfl
  | cons t ts ih => rw [readableAll, ih, List.map_cons]

mutual

/-- A readable tree has the same enums. -/
theorem enums_readable : (t : MessageTree) → t.readable.enums = t.enums
  | node message enums nested => by
    rw [readable, MessageTree.enums, MessageTree.enums, enumsAll_readable nested]

theorem enumsAll_readable : (ts : List MessageTree) → enumsAll (readableAll ts) = enumsAll ts
  | [] => rfl
  | t :: ts => by
    rw [readableAll, enumsAll, enumsAll, enums_readable t, enumsAll_readable ts]

end

mutual

/-- The walk over a readable tree meets the same, readable. -/
theorem visits_readable : (t : MessageTree) → t.readable.visits = t.visits.map Visit.readable
  | node message enums nested => by
    have hentry : message.readable.mapEntry = message.mapEntry := rfl
    rw [readable, visits, visits, hentry]
    cases message.mapEntry with
    | true => rfl
    | false =>
      rw [if_neg (by decide), if_neg (by decide), visitsAll_readable nested, List.map_cons]
      rfl

theorem visitsAll_readable : (ts : List MessageTree) →
    visitsAll (readableAll ts) = (visitsAll ts).map Visit.readable
  | [] => rfl
  | t :: ts => by
    rw [readableAll, visitsAll, visitsAll, visits_readable t, visitsAll_readable ts,
      List.map_append]

end

end MessageTree

namespace Pool

/-- The trees of a readable pool. -/
theorem treesFrom_readable (pool : Pool) (first : Nat) (ms : List MessageNode) :
    pool.readable.treesFrom first (ms.map MessageNode.readable)
      = (pool.treesFrom first ms).map MessageTree.readable := by
  induction ms generalizing first with
  | nil => rfl
  | cons m ms ih =>
    have henum : pool.readable.enum? = pool.enum? := by
      funext id
      rw [enum?, enum?, enums_readable]
    have hfind : ∀ later : List MessageTree,
        (fun id : MessageId => if first < id.index then
          (later.map MessageTree.readable)[id.index - (first + 1)]? else none)
        = fun id => (if first < id.index then later[id.index - (first + 1)]? else none).map
          MessageTree.readable := by
      intro later
      funext id
      split
      · exact List.getElem?_map
      · rfl
    -- Numbers lead to the same places, where the readable trees stand.
    rw [List.map_cons, treesFrom, ih, henum, hfind, ← List.map_filterMap,
      ← MessageTree.readableAll_eq_map, treesFrom, List.map_cons, MessageTree.readable]
    rfl

/-- The trees of a file in a readable pool. -/
theorem treesOf_readable (pool : Pool) (file : FileNode) :
    pool.readable.treesOf file = MessageTree.readableAll (pool.treesOf file) := by
  rw [treesOf, treesOf, messages_readable, treesFrom_readable, MessageTree.readableAll_eq_map,
    List.map_filterMap]
  simp only [List.getElem?_map]

/-- The walk over a file of a readable pool meets the same, readable. -/
theorem fileVisits_readable (pool : Pool) (file : FileNode) :
    pool.readable.fileVisits file = (pool.fileVisits file).map Visit.readable := by
  have henum : pool.readable.enum? = pool.enum? := by
    funext id
    rw [enum?, enum?, enums_readable]
  -- A visit of an enum has no payloads to change.
  have henums : ∀ nodes : List EnumNode,
      (nodes.map Visit.enum).map Visit.readable = nodes.map Visit.enum := by
    intro nodes
    rw [List.map_map]
    rfl
  rw [fileVisits, fileVisits]
  cases file.messages.isEmpty with
  | true => rfl
  | false =>
    rw [if_neg (by decide), if_neg (by decide), henum, treesOf_readable, List.map_append,
      List.map_cons, henums]
    show _ :: (_ ++ MessageTree.enumsAll (MessageTree.readableAll _)).map Visit.enum
      ++ MessageTree.visitsAll (MessageTree.readableAll _) = _
    rw [MessageTree.enumsAll_readable, MessageTree.visitsAll_readable]
    rfl

/-- The walk over a readable pool meets the same, readable. -/
theorem visits_readable (pool : Pool) (requested : List String) :
    pool.readable.visits requested = (pool.visits requested).map Visit.readable := by
  have hof : pool.readable.visitsOf = fun name => (pool.visitsOf name).map Visit.readable := by
    funext name
    have hname : pool.readable.fileByName name = pool.fileByName name := rfl
    rw [visitsOf, visitsOf, hname]
    cases pool.fileByName name with
    | none => rfl
    | some file => exact fileVisits_readable pool file
  rw [visits, visits, hof, List.map_flatMap]

end Pool

end ProtoSchema
