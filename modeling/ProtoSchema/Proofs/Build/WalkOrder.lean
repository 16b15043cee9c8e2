import ProtoSchema.Proofs.Build.Run
import ProtoSchema.Proofs.Pool.Arena

/-!
# Tables in the order of the walk

What is built for a request, said by the descriptors of its files alone: the messages of each
requested file are walked depth first, and the first message of each name is the table of that
name.

Key results:
* `map_nodeView_visits`, `map_enumType_enums` — the walk over a tree is the walk over its descriptor
* `build_ofFiles` — the tables, enum types, origins and sources of a build
-/

namespace ProtoSchema

open Plugin Relational

/-! ## The walk over descriptors -/

namespace Plugin

/-- The enum type of a descriptor. -/
def EnumDescriptor.enumType (d : EnumDescriptor) : EnumType where
  name := d.name.getD ""
  values := d.values.map (·.name.getD "")

namespace MessageDescriptor

mutual

/-- A message and those inside it, depth first. The entries of a map field are left out, with all
that is inside them. -/
def walk : MessageDescriptor → List MessageDescriptor
  | ⟨name, fields, messages, enums, options⟩ =>
    if (options.bind (·.mapEntry)).getD false then []
    else ⟨name, fields, messages, enums, options⟩ :: walkAll messages

/-- Several messages and those inside them. -/
def walkAll : List MessageDescriptor → List MessageDescriptor
  | [] => []
  | d :: ds => walk d ++ walkAll ds

end

mutual

/-- The enums of a message, then those of the messages inside it, also of the entries of map
fields. -/
def allEnums : MessageDescriptor → List EnumDescriptor
  | ⟨_, _, messages, enums, _⟩ => enums ++ allEnumsIn messages

/-- The enums of several messages. -/
def allEnumsIn : List MessageDescriptor → List EnumDescriptor
  | [] => []
  | d :: ds => allEnums d ++ allEnumsIn ds

end

/-- The name of a message, empty when it has none. -/
def shortName (d : MessageDescriptor) : String :=
  d.name.getD ""

/-- The table of a message: a column for each field that has one, and the constraints of the
fields. -/
def table (pool : Pool) (d : MessageDescriptor) : Table where
  name := d.shortName
  columns := (d.fields.map FieldNode.ofDescriptor).filterMap fun field =>
    (field.column? pool d.shortName).value
  constraints := (d.fields.map FieldNode.ofDescriptor).flatMap FieldNode.constraints

end MessageDescriptor

/-- The files that contribute: for each requested name the first file of that name, if it has
messages. -/
def contributing (files : List FileDescriptor) (requested : List String) : List FileDescriptor :=
  let found := requested.filterMap fun name => files.find? (·.name.getD "" == name)
  found.filter (!·.messages.isEmpty)

/-- The messages of the files that contribute, each with its file, in the order of the walk. -/
def walkedMessages (files : List FileDescriptor) (requested : List String) :
    List (FileDescriptor × MessageDescriptor) :=
  (contributing files requested).flatMap fun f => (MessageDescriptor.walkAll f.messages).map (f, ·)

/-- The messages that get a table, each with its file: the first of each name that the walk
meets. -/
def declaredTables (files : List FileDescriptor) (requested : List String) :
    List (FileDescriptor × MessageDescriptor) :=
  firstNamed (·.2.shortName) [] (walkedMessages files requested)

/-- The enums of the files that contribute: of each file those outside messages first. -/
def walkedEnums (files : List FileDescriptor) (requested : List String) : List EnumDescriptor :=
  (contributing files requested).flatMap fun f =>
    f.enums ++ MessageDescriptor.allEnumsIn f.messages

end Plugin

/-! ## Trees of descriptors -/

namespace Flatten

/-- What the table of a message and its origin depend on. -/
def nodeView (node : MessageNode) : FileId × String × List FieldNode :=
  (node.file, node.name, node.fields)

/-- The same for the descriptor of a message. -/
def descriptorView (file : FileId) (d : MessageDescriptor) : FileId × String × List FieldNode :=
  (file, d.shortName, d.fields.map FieldNode.ofDescriptor)

mutual

/-- The messages of a tree are those of its descriptor. -/
theorem map_nodeView_visits (file : FileId) (scope : String) (m e : Nat) : (d : MessageDescriptor) →
    ((tree file scope m e d).visits.filterMap Visit.message?).map nodeView
      = d.walk.map (descriptorView file)
  | ⟨name, fields, messages, enums, options⟩ => by
    have hnested := map_nodeView_visitsAll file (qualified scope (name.getD "")) (m + 1)
      (e + enums.length) messages
    have hentry : (messageNode file scope m e ⟨name, fields, messages, enums, options⟩).mapEntry
        = (options.bind (·.mapEntry)).getD false := rfl
    rw [tree, MessageTree.visits, MessageDescriptor.walk, hentry]
    -- A map entry is left out together with what is nested in it.
    cases (options.bind (·.mapEntry)).getD false with
    | true => rfl
    | false =>
      rw [if_neg (by decide), if_neg (by decide), List.map_cons, ← hnested]
      rfl

theorem map_nodeView_visitsAll (file : FileId) (scope : String) (m e : Nat) :
    (ds : List MessageDescriptor) →
      ((MessageTree.visitsAll (trees file scope m e ds)).filterMap Visit.message?).map nodeView
        = (MessageDescriptor.walkAll ds).map (descriptorView file)
  | [] => rfl
  | d :: ds => by
    have hfirst := map_nodeView_visits file scope m e d
    have hrest := map_nodeView_visitsAll file scope (m + messageCount d) (e + enumCount d) ds
    rw [trees, MessageTree.visitsAll, MessageDescriptor.walkAll, List.filterMap_append,
      List.map_append, List.map_append, hfirst, hrest]

end

mutual

/-- The enums of a tree are those of its descriptor. -/
theorem map_enumType_enums (file : FileId) (scope : String) (m e : Nat) : (d : MessageDescriptor) →
    (tree file scope m e d).enums.map EnumNode.enumType = d.allEnums.map EnumDescriptor.enumType
  | ⟨name, fields, messages, enums, options⟩ => by
    have hnested := map_enumType_enumsAll file (qualified scope (name.getD "")) (m + 1)
      (e + enums.length) messages
    rw [tree, MessageTree.enums, MessageDescriptor.allEnums, List.map_append, List.map_append,
      hnested, List.map_map]
    rfl

theorem map_enumType_enumsAll (file : FileId) (scope : String) (m e : Nat) :
    (ds : List MessageDescriptor) →
      (MessageTree.enumsAll (trees file scope m e ds)).map EnumNode.enumType
        = (MessageDescriptor.allEnumsIn ds).map EnumDescriptor.enumType
  | [] => rfl
  | d :: ds => by
    have hfirst := map_enumType_enums file scope m e d
    have hrest := map_enumType_enumsAll file scope (m + messageCount d) (e + enumCount d) ds
    rw [trees, MessageTree.enumsAll, MessageDescriptor.allEnumsIn, List.map_append,
      List.map_append, hfirst, hrest]

end

end Flatten

namespace MessageTree

mutual

/-- The walk over a tree meets messages and entries of map fields only. -/
theorem mem_visits : (t : MessageTree) → ∀ v ∈ t.visits,
    (∃ node, v = .message node) ∨ ∃ fullName, v = .mapEntry fullName
  | node message enums nested => by
    intro v hv
    rw [visits] at hv
    -- An entry of a map field is met instead of the message and all that is inside it.
    split at hv
    · exact .inr ⟨_, List.mem_singleton.1 hv⟩
    · rcases List.mem_cons.1 hv with rfl | hv
      · exact .inl ⟨_, rfl⟩
      · exact mem_visitsAll nested v hv

theorem mem_visitsAll : (ts : List MessageTree) → ∀ v ∈ visitsAll ts,
    (∃ node, v = .message node) ∨ ∃ fullName, v = .mapEntry fullName
  | [] => fun v hv => absurd hv List.not_mem_nil
  | t :: ts => by
    intro v hv
    rcases List.mem_append.1 hv with hv | hv
    · exact mem_visits t v hv
    · exact mem_visitsAll ts v hv

end

end MessageTree

/-! ## The walk over the requested files -/

namespace Pool

open Flatten

/-- What is met in a file that contributes, part by part. -/
theorem parts_fileVisits (pool : Pool) (node : FileNode) (h : node.messages.isEmpty = false) :
    (pool.fileVisits node).filterMap Visit.message?
        = (MessageTree.visitsAll (pool.treesOf node)).filterMap Visit.message?
      ∧ (pool.fileVisits node).filterMap Visit.enum?
        = node.enums.filterMap pool.enum? ++ MessageTree.enumsAll (pool.treesOf node)
      ∧ (pool.fileVisits node).filterMap Visit.source? = [node.name] := by
  -- Enums are met in front of the trees only, and the source in front of all.
  have hrest := MessageTree.mem_visitsAll (pool.treesOf node)
  have henums : (MessageTree.visitsAll (pool.treesOf node)).filterMap Visit.enum? = [] := by
    rw [List.filterMap_eq_nil_iff]
    intro v hv
    rcases hrest v hv with ⟨_, rfl⟩ | ⟨_, rfl⟩ <;> rfl
  have hsources : (MessageTree.visitsAll (pool.treesOf node)).filterMap Visit.source? = [] := by
    rw [List.filterMap_eq_nil_iff]
    intro v hv
    rcases hrest v hv with ⟨_, rfl⟩ | ⟨_, rfl⟩ <;> rfl
  have hmessage : ∀ nodes : List EnumNode,
      (nodes.map Visit.enum).filterMap Visit.message? = [] := by
    simp [List.filterMap_map, Function.comp_def, Visit.message?]
  have hsource : ∀ nodes : List EnumNode, (nodes.map Visit.enum).filterMap Visit.source? = [] := by
    simp [List.filterMap_map, Function.comp_def, Visit.source?]
  have henum : ∀ nodes : List EnumNode, (nodes.map Visit.enum).filterMap Visit.enum? = nodes := by
    simp [List.filterMap_map, Function.comp_def, Visit.enum?]
  rw [fileVisits, h, if_neg (by decide)]
  refine ⟨?_, ?_, ?_⟩
  · rw [List.filterMap_append, List.filterMap_cons_none rfl, hmessage, List.nil_append]
  · rw [List.filterMap_append, List.filterMap_cons_none rfl, henum, henums, List.append_nil]
  · have hfile : Visit.source? (.file node.name) = some node.name := rfl
    rw [List.filterMap_append, List.filterMap_cons_some hfile, hsource, hsources]
    rfl

/-- The node of a file has messages where its descriptor has. -/
theorem isEmpty_messages_nodeBehind (before : List FileDescriptor) (f : FileDescriptor) :
    (nodeBehind before f).messages.isEmpty = f.messages.isEmpty := by
  rw [nodeBehind, fileNode]
  cases f.messages <;> rfl

/-- A requested name contributes one file or nothing. -/
theorem visitsOf_ofFiles (files : List FileDescriptor) (name : String) :
    (contributing files [name] = [] ∧ ∀ v ∈ (ofFiles files).visitsOf name,
        v.message? = none ∧ v.enum? = none ∧ v.source? = none)
      ∨ ∃ before f after, files = before ++ f :: after ∧ contributing files [name] = [f]
        ∧ f.messages.isEmpty = false
        ∧ (ofFiles files).visitsOf name = (ofFiles files).fileVisits (nodeBehind before f) := by
  cases hf : files.find? (·.name.getD "" == name) with
  | none =>
    refine .inl ⟨by simp [contributing, hf], fun v hv => ?_⟩
    rw [visitsOf, fileByName_eq_none hf] at hv
    rw [List.mem_singleton.1 hv]
    exact ⟨rfl, rfl, rfl⟩
  | some f =>
    obtain ⟨before, after, hfiles, hnode⟩ := fileByName_eq_some hf
    have hvisits : (ofFiles files).visitsOf name
        = (ofFiles files).fileVisits (nodeBehind before f) := by
      rw [visitsOf, hnode]
    -- A file without messages is only noted, and contributes nothing.
    cases hempty : f.messages.isEmpty with
    | true =>
      refine .inl ⟨by simp [contributing, hf, hempty], fun v hv => ?_⟩
      rw [hvisits, fileVisits, isEmpty_messages_nodeBehind, if_pos hempty] at hv
      rw [List.mem_singleton.1 hv]
      exact ⟨rfl, rfl, rfl⟩
    | false =>
      exact .inr ⟨before, f, after, hfiles, by simp [contributing, hf, hempty], hempty, hvisits⟩

/-- What the table of a message and its origin depend on, with the name of the file. -/
def view (pool : Pool) (node : MessageNode) : String × String × List FieldNode :=
  (pool.fileName node.file, node.name, node.fields)

/-- The same for a message with its file. -/
def walkedView (v : FileDescriptor × MessageDescriptor) : String × String × List FieldNode :=
  (v.1.name.getD "", v.2.shortName, v.2.fields.map FieldNode.ofDescriptor)

/-- What is met for a requested name, part by part. -/
theorem parts_visitsOf (files : List FileDescriptor) (name : String) :
    (((ofFiles files).visitsOf name).filterMap Visit.message?).map (ofFiles files).view
        = (walkedMessages files [name]).map walkedView
      ∧ (((ofFiles files).visitsOf name).filterMap Visit.enum?).map EnumNode.enumType
        = (walkedEnums files [name]).map EnumDescriptor.enumType
      ∧ ((ofFiles files).visitsOf name).filterMap Visit.source?
        = (contributing files [name]).map (·.name.getD "") := by
  rcases visitsOf_ofFiles files name with
    ⟨hnone, hvisits⟩ | ⟨before, f, after, hfiles, hf, hempty, hvisits⟩
  · have hmessages : ((ofFiles files).visitsOf name).filterMap Visit.message? = [] :=
      List.filterMap_eq_nil_iff.2 fun v hv => (hvisits v hv).1
    have henums : ((ofFiles files).visitsOf name).filterMap Visit.enum? = [] :=
      List.filterMap_eq_nil_iff.2 fun v hv => (hvisits v hv).2.1
    have hsources : ((ofFiles files).visitsOf name).filterMap Visit.source? = [] :=
      List.filterMap_eq_nil_iff.2 fun v hv => (hvisits v hv).2.2
    rw [hmessages, henums, hsources, walkedMessages, walkedEnums, hnone]
    exact ⟨rfl, rfl, rfl⟩
  · -- The file contributes: its trees and enums are those of its descriptor.
    have hnode := (isEmpty_messages_nodeBehind before f).trans hempty
    obtain ⟨hmessages, henums, hsources⟩ :=
      parts_fileVisits (ofFiles files) (nodeBehind before f) hnode
    have htrees := treesOf_middle before after f
    have htop := enums_middle before after f
    have hname := fileName_middle before after f
    rw [← hfiles] at htrees htop hname
    rw [hvisits, hmessages, henums, hsources, htrees, htop, walkedMessages, walkedEnums, hf,
      List.flatMap_singleton, List.flatMap_singleton]
    refine ⟨?_, ?_, rfl⟩
    · have hview : (ofFiles files).view
          = (fun p => ((ofFiles files).fileName p.1, p.2.1, p.2.2)) ∘ nodeView := rfl
      rw [hview, ← List.map_map, map_nodeView_visitsAll, List.map_map, List.map_map]
      refine List.map_congr_left fun d _ => ?_
      simp only [Function.comp_apply, descriptorView, walkedView, hname]
    · rw [List.map_append, map_enumType_enumsAll, List.map_append, List.map_map]
      rfl

/-- The files that contribute are found name by name. -/
theorem contributing_cons (files : List FileDescriptor) (name : String) (names : List String) :
    contributing files (name :: names) = contributing files [name] ++ contributing files names := by
  rw [contributing, ← List.singleton_append, List.filterMap_append, List.filter_append]
  rfl

/-- What is met for the requested names, part by part. -/
theorem parts_visits (files : List FileDescriptor) (requested : List String) :
    (((ofFiles files).visits requested).filterMap Visit.message?).map (ofFiles files).view
        = (walkedMessages files requested).map walkedView
      ∧ (((ofFiles files).visits requested).filterMap Visit.enum?).map EnumNode.enumType
        = (walkedEnums files requested).map EnumDescriptor.enumType
      ∧ ((ofFiles files).visits requested).filterMap Visit.source?
        = (contributing files requested).map (·.name.getD "") := by
  induction requested with
  | nil => exact ⟨rfl, rfl, rfl⟩
  | cons name names ih =>
    obtain ⟨hmessages, henums, hsources⟩ := parts_visitsOf files name
    obtain ⟨ihmessages, ihenums, ihsources⟩ := ih
    -- The requested files are walked one behind the other.
    have hvisits : (ofFiles files).visits (name :: names)
        = (ofFiles files).visitsOf name ++ (ofFiles files).visits names := rfl
    have hwalked : walkedMessages files (name :: names)
        = walkedMessages files [name] ++ walkedMessages files names := by
      rw [walkedMessages, contributing_cons, List.flatMap_append]
      rfl
    have henumsWalked : walkedEnums files (name :: names)
        = walkedEnums files [name] ++ walkedEnums files names := by
      rw [walkedEnums, contributing_cons, List.flatMap_append]
      rfl
    rw [hvisits, hwalked, henumsWalked, contributing_cons]
    simp only [List.filterMap_append, List.map_append, hmessages, henums, hsources, ihmessages,
      ihenums, ihsources, and_self]

end Pool

/-! ## The build of a request -/

/-- The table of what a table depends on. -/
def Pool.viewTable (pool : Pool) (p : String × String × List FieldNode) : Table where
  name := p.2.1
  columns := p.2.2.filterMap fun field => (field.column? pool p.2.1).value
  constraints := p.2.2.flatMap FieldNode.constraints

/-- The table of a message depends on its name and its fields. -/
theorem value_table (pool : Pool) (node : MessageNode) :
    (pool.table node).value = pool.viewTable (pool.view node) := by
  rw [Pool.table, Pool.viewTable, Pool.view, List.filterMap_map]
  rfl

/-- The names that are left of a list are its names without repetitions. -/
theorem names_firstNamed_nil {α : Type} (name : α → String) (xs : List α) :
    (firstNamed name [] xs).map name = ((xs.map name).filter (· ≠ "")).eraseDups := by
  rw [map_name_firstNamed]
  simp

/-- The messages that get a table are the first of each name in the walk over the descriptors. -/
theorem map_view_newMessages (files : List FileDescriptor) (requested : List String) :
    let pool := Pool.ofFiles files
    (({} : Build).newMessages (pool.visits requested)).map pool.view
      = (firstNamed (·.2.shortName) [] (walkedMessages files requested)).map Pool.walkedView := by
  intro pool
  -- Which messages are kept depends on what is kept of them.
  have hnode := map_firstNamed (fun p => p.2.1) pool.view []
    ((pool.visits requested).filterMap Visit.message?)
  have hwalked := map_firstNamed (fun p => p.2.1) Pool.walkedView []
    (walkedMessages files requested)
  exact hnode.trans ((congrArg _ (Pool.parts_visits files requested).1).trans hwalked.symm)

/-- The tables of a build are those of the first message of each name. -/
theorem tables_ofFiles (files : List FileDescriptor) (requested : List String) :
    let pool := Pool.ofFiles files
    (pool.build requested).value.value.schema.tables
      = (firstNamed (·.2.shortName) [] (walkedMessages files requested)).map (·.2.table pool) := by
  intro pool
  -- A table is made from what is seen of the message, whatever its number.
  have hmap := congrArg (List.map pool.viewTable) (map_view_newMessages files requested)
  have hb : (pool.build requested).value.value = ({} : Build).extend pool (pool.visits requested) :=
    Building.build_run pool {} _
  rw [List.map_map, List.map_map] at hmap
  rw [hb, Build.extend, List.nil_append, funext (value_table pool)]
  exact hmap

/-- What is built for a list of files and a list of requested names. The messages that are met
give one table for each name, made from the first message of that name; each table comes with the
file of its message. The enums give one type for each name in the same way, and the sources are the
files that contribute. -/
theorem build_ofFiles (files : List FileDescriptor) (requested : List String) :
    let pool := Pool.ofFiles files
    let b := (pool.build requested).value.value
    let tables := firstNamed (·.2.shortName) [] (walkedMessages files requested)
    let enums := firstNamed (·.name.getD "") [] (walkedEnums files requested)
    b.schema.tables = tables.map (fun v => v.2.table pool)
      ∧ b.schema.tables.map (·.name)
        = (((walkedMessages files requested).map (·.2.shortName)).filter (· ≠ "")).eraseDups
      ∧ b.origins = tables.map (fun v => (v.2.shortName, v.1.name.getD ""))
      ∧ b.sources = (contributing files requested).map (·.name.getD "")
      ∧ b.schema.enums = enums.map EnumDescriptor.enumType
      ∧ b.schema.enums.map (·.name)
        = (((walkedEnums files requested).map (·.name.getD "")).filter (· ≠ "")).eraseDups := by
  intro pool b tables enums
  obtain ⟨-, henums, hsources⟩ := Pool.parts_visits files requested
  have hb : b = ({} : Build).extend pool (pool.visits requested) := Building.build_run pool {} _
  have htables := map_view_newMessages files requested
  -- Taking the first of each name commutes with turning descriptors into enums.
  have htypes : (({} : Build).newEnums (pool.visits requested)).map EnumNode.enumType
      = enums.map EnumDescriptor.enumType := by
    have hnode := map_firstNamed (·.name) EnumNode.enumType []
      ((pool.visits requested).filterMap Visit.enum?)
    have hwalked := map_firstNamed (·.name) EnumDescriptor.enumType [] (walkedEnums files requested)
    exact hnode.trans ((congrArg _ henums).trans hwalked.symm)
  have hschemaTables := tables_ofFiles files requested
  have hschemaEnums : b.schema.enums = enums.map EnumDescriptor.enumType := by
    rw [hb]
    exact htypes
  refine ⟨hschemaTables, ?_, ?_, ?_, hschemaEnums, ?_⟩
  · rw [hschemaTables, List.map_map, ← names_firstNamed_nil]
    rfl
  -- The origins are the tables with the names of their files.
  · have hmap := congrArg (List.map fun p => (p.2.1, p.1)) htables
    rw [List.map_map, List.map_map] at hmap
    rw [hb]
    exact hmap
  · rw [hb]
    exact hsources
  · rw [hschemaEnums, List.map_map, ← names_firstNamed_nil]
    rfl

end ProtoSchema
