import Mathlib.Data.List.Induction
import Mathlib.Data.List.Nodup
import ProtoSchema.Proofs.Build.Clean

/-!
# Columns of enum types

A field refers to an enum by its full name, and its column has the declared name of that enum as
its type. The schema has one enum type of that name when nothing is reported. That is the enum of
the field when its file contributes; otherwise it may be another enum of the same name.

Key results:
* `filterMap_enum?_nestedDeclarations` — the enums of a file are those inside its trees
* `enum_mem_visits_of_contributes` — the enums of a file that contributes are met
* `enum_column_of_isClean` — which enum type a column has
-/

namespace ProtoSchema

open Plugin Relational

/-! ## Enums of a file -/

namespace Flatten

mutual

/-- The enums that a message declares are those inside its tree. -/
theorem filterMap_enum?_declarations_eq (file : FileId) (scope : String) (m e : Nat) :
    (d : MessageDescriptor) → (declarations file scope m e d).filterMap (·.enum?)
      = (tree file scope m e d).enums
  | ⟨name, fields, messages, enums, options⟩ => by
    have hnested := filterMap_enum?_nestedDeclarations file (qualified scope (name.getD "")) (m + 1)
      (e + enums.length) messages
    rw [filterMap_enum?_declarations, hnested, tree, MessageTree.enums]

/-- The enums that several messages declare are those inside their trees. -/
theorem filterMap_enum?_nestedDeclarations (file : FileId) (scope : String) (m e : Nat) :
    (ds : List MessageDescriptor) → (nestedDeclarations file scope m e ds).filterMap (·.enum?)
      = MessageTree.enumsAll (trees file scope m e ds)
  | [] => rfl
  | d :: ds => by
    have hfirst := filterMap_enum?_declarations_eq file scope m e d
    have hrest := filterMap_enum?_nestedDeclarations file scope (m + messageCount d)
      (e + enumCount d) ds
    rw [nestedDeclarations, List.filterMap_append, hfirst, hrest, trees, MessageTree.enumsAll]

end

/-- The enums that a file declares: those outside messages, then those inside its trees. -/
theorem filterMap_enum?_fileDeclarations_eq (file : FileId) (m e : Nat) (f : FileDescriptor) :
    (fileDeclarations file m e f).filterMap (·.enum?)
      = f.enums.map (.ofDescriptor file (fileScope f))
        ++ MessageTree.enumsAll (trees file (fileScope f) m (e + f.enums.length) f.messages) := by
  rw [filterMap_enum?_fileDeclarations, filterMap_enum?_nestedDeclarations]

end Flatten

namespace Pool

open Flatten

/-- An enum of a pool is declared in the file of its number. -/
theorem exists_file_of_enum_mem {files : List FileDescriptor} {node : EnumNode}
    (h : node ∈ (ofFiles files).enums) : ∃ before f after, files = before ++ f :: after
      ∧ node.file = ⟨before.length⟩
      ∧ node ∈ (fileDeclarations ⟨before.length⟩ (ofFiles before).messages.length
        (ofFiles before).enums.length f).filterMap (·.enum?) := by
  -- The last file adds its own enums behind those of the others.
  induction files using List.reverseRecOn with
  | nil => exact absurd h List.not_mem_nil
  | append_singleton files f ih =>
    rw [ofFiles_append, enums, addFile, List.filterMap_append, List.mem_append,
      length_files_ofFiles] at h
    rcases h with h | h
    · obtain ⟨before, g, after, rfl, hfile, hnode⟩ := ih h
      exact ⟨before, g, after ++ [f], by simp, hfile, hnode⟩
    · exact ⟨files, f, [], rfl, file_of_mem_enums_fileDeclarations h, h⟩

/-- The enums of a file that contributes are met: the file is requested, it has messages, and no
file before it has its name. -/
theorem enum_mem_visits_of_contributes {before after : List FileDescriptor} {f : FileDescriptor}
    {requested : List String} (hrequested : f.name.getD "" ∈ requested)
    (hfirst : ∀ g ∈ before, g.name.getD "" ≠ f.name.getD "") (hmessages : f.messages ≠ [])
    {node : EnumNode} (hnode : node ∈ (ofFiles (before ++ f :: after)).enums)
    (hfile : node.file = ⟨before.length⟩) :
    node ∈ ((ofFiles (before ++ f :: after)).visits requested).filterMap Visit.enum? := by
  have hvisits : (ofFiles (before ++ f :: after)).visitsOf (f.name.getD "")
      = (ofFiles (before ++ f :: after)).fileVisits (nodeBehind before f) := by
    rw [visitsOf, fileByName_middle (beq_self_eq_true _) fun g hg => by simpa using hfirst g hg]
  have hempty : (nodeBehind before f).messages.isEmpty = false := by
    rw [isEmpty_messages_nodeBehind]
    simpa using hmessages
  -- The file of the enum is the one with its number.
  obtain ⟨front, g, rest, hsplit, hnumber, hdeclared⟩ := exists_file_of_enum_mem hnode
  have hlength : before.length = front.length := congrArg FileId.index (hfile.symm.trans hnumber)
  obtain ⟨rfl, hcons⟩ := List.append_inj hsplit hlength
  obtain ⟨rfl, rfl⟩ := List.cons.inj hcons
  rw [filterMap_enum?_fileDeclarations_eq, ← enums_middle before after f,
    ← treesOf_middle before after f] at hdeclared
  rw [visits, List.filterMap_flatMap, List.mem_flatMap]
  refine ⟨f.name.getD "", hrequested, ?_⟩
  rw [hvisits, (parts_fileVisits _ _ hempty).2.1]
  exact hdeclared

/-- An enum that is found by its full name is one of the pool. -/
theorem mem_enums_of_enumByTypeName {pool : Pool} {typeName : String} {node : EnumNode}
    (h : pool.enumByTypeName typeName = some node) : node ∈ pool.enums := by
  obtain ⟨declaration, hfound, henum⟩ := Option.bind_eq_some_iff.1 h
  exact List.mem_filterMap.2 ⟨declaration, List.mem_of_find?_eq_some hfound, henum⟩

end Pool

/-! ## Columns -/

namespace FieldNode

/-- An annotation makes the type of a column `UUID` or leaves it as it is. -/
theorem columnType_of_type_eq_enum {pool : Pool} {field : FieldNode} {message name : String}
    {column : Column} (hcolumn : (field.column? pool message).value = some column)
    (htype : column.type = .enum name) : field.columnType pool = .ok (.enum name) := by
  rw [column?] at hcolumn
  cases hfield : field.columnType pool with
  | error fault =>
    rw [hfield] at hcolumn
    cases hcolumn
  | ok type =>
    rw [hfield] at hcolumn
    obtain rfl := Option.some.inj hcolumn
    replace htype : (if ((field.options.getD {}).validation?.bind (·.string)).bind (·.uuid)
      = some true then ColumnType.uuid else type) = .enum name := htype
    -- A validation rule may turn the type into a UUID, never into an enum.
    split at htype
    · cases htype
    · rw [htype]

/-- The column type of a field with an enum type that is in the pool. -/
theorem name_of_columnType_eq_enum {pool : Pool} {field : FieldNode} {name : String}
    (h : field.columnType pool = .ok (.enum name)) {node : EnumNode}
    (hnode : field.typeName.bind pool.enumByTypeName = some node) : name = node.name := by
  obtain ⟨typeName, htypeName, hfound⟩ := Option.bind_eq_some_iff.1 hnode
  have hrequired : field.requiredTypeName = .ok typeName := by rw [requiredTypeName, htypeName]
  have henumName : enumName pool typeName = node.name := by rw [enumName, hfound]
  have hmessage : messageColumnType typeName ≠ .enum name := by
    unfold messageColumnType
    split
    · simp
    · split <;> simp
  rw [columnType, hrequired] at h
  -- Only the kind of an enum leads to an enum type.
  cases hkind : field.kind with
  | none => simp [hkind] at h
  | some kind =>
    rw [hkind] at h
    cases kind with
    | enum =>
      have hname := ColumnType.enum.inj (Except.ok.inj h)
      rw [← hname, henumName]
    | message => exact absurd (Except.ok.inj h) hmessage
    | group => exact absurd (Except.ok.inj h) hmessage
    | string => cases hrepeated : field.repeated <;> simp [hrepeated] at h
    | _ => cases h

end FieldNode

/-- A message has a field that refers to the enum `e`, and the column of the field has the enum type
`name`. -/
def Plugin.MessageDescriptor.HasEnumColumn (pool : Pool) (d : MessageDescriptor) (name : String)
    (e : EnumNode) : Prop :=
  ∃ f ∈ d.fields, ∃ column,
    ((FieldNode.ofDescriptor f).column? pool d.shortName).value = some column
      ∧ column.type = .enum name
      ∧ (FieldNode.ofDescriptor f).typeName.bind pool.enumByTypeName = some e

/-! ## Builds without a problem -/

namespace Buildable

variable {files : List FileDescriptor} {requested : List String}

/-- Every message that is met has its table. -/
theorem tables_eq (h : Buildable files requested) :
    ((Pool.ofFiles files).built requested).schema.tables
      = (walkedMessages files requested).map (·.2.table (Pool.ofFiles files)) := by
  have hall : firstNamed (·.2.shortName) [] (walkedMessages files requested)
      = walkedMessages files requested :=
    firstNamed_eq_self_iff.2 ⟨h.namedMessages, h.distinctMessages⟩
  have htables := tables_ofFiles files requested
  rwa [hall] at htables

/-- Every enum that is met has its type. -/
theorem enums_eq (h : Buildable files requested) :
    ((Pool.ofFiles files).built requested).schema.enums
      = (((Pool.ofFiles files).visits requested).filterMap Visit.enum?).map
        EnumNode.enumType := by
  have hnames := names_enums_visits files requested
  -- No name is missing and none is used twice, so no enum is left out.
  have hall : firstNamed (·.name) [] (((Pool.ofFiles files).visits requested).filterMap
      Visit.enum?) = ((Pool.ofFiles files).visits requested).filterMap Visit.enum? := by
    rw [firstNamed_eq_self_iff, hnames]
    exact ⟨h.namedEnums, h.distinctEnums⟩
  rw [built_eq, Build.extend, List.nil_append, Build.newEnums]
  exact congrArg _ hall

/-- The enum types are those of the descriptors. -/
theorem enums_eq_walkedEnums (h : Buildable files requested) :
    ((Pool.ofFiles files).built requested).schema.enums
      = (walkedEnums files requested).map EnumDescriptor.enumType :=
  h.enums_eq.trans (Pool.parts_visits files requested).2.1

/-- The type of a column is one enum type of the schema. -/
theorem existsUnique_enumType (h : Buildable files requested)
    {v : FileDescriptor × MessageDescriptor} (hv : v ∈ walkedMessages files requested)
    {name : String} {e : EnumNode} (hcolumn : v.2.HasEnumColumn (Pool.ofFiles files) name e) :
    ∃ x ∈ walkedEnums files requested,
      ∀ type, (type ∈ ((Pool.ofFiles files).built requested).schema.enums ∧ type.name = name)
        ↔ type = x.enumType := by
  obtain ⟨f, hf, column, hvalue, htype, -⟩ := hcolumn
  have htable : v.2.table (Pool.ofFiles files)
      ∈ ((Pool.ofFiles files).built requested).schema.tables := by
    rw [h.tables_eq]
    exact List.mem_map_of_mem hv
  have hmem : column ∈ (v.2.table (Pool.ofFiles files)).columns :=
    List.mem_filterMap.2 ⟨_, List.mem_map_of_mem hf, hvalue⟩
  -- A clean build has an enum of that name.
  obtain ⟨type, hmet, hname⟩ := h.definedEnums _ htable column hmem name htype
  rw [h.enums_eq_walkedEnums] at hmet ⊢
  obtain ⟨x, hx, rfl⟩ := List.mem_map.1 hmet
  refine ⟨x, hx, fun type => ⟨?_, ?_⟩⟩
  · -- Two enums of one name are the same, since the names are distinct.
    rintro ⟨hother, hotherName⟩
    obtain ⟨y, hy, rfl⟩ := List.mem_map.1 hother
    have hnames : y.name.getD "" = x.name.getD "" := hotherName.trans hname.symm
    rw [List.inj_on_of_nodup_map h.distinctEnums hy hx hnames]
  · rintro rfl
    exact ⟨hmet, hname⟩

end Buildable

/-- The enum types of columns. When nothing is reported, a column whose field refers to an enum of
the pool has the name of that enum as its type, and the schema has exactly one type of this name,
that of an enum which is met. It has the values of the enum of the field exactly when an enum with
this name and these values is met; so it is when the file of the enum is requested, is the first of
its name, and has messages. -/
theorem enum_column_of_isClean {files : List FileDescriptor} {requested : List String}
    (hclean : ((Pool.ofFiles files).build requested).value.isClean = true) :
    let pool := Pool.ofFiles files
    let schema := (pool.built requested).schema
    schema.tables = (walkedMessages files requested).map (·.2.table pool)
      ∧ ∀ v ∈ walkedMessages files requested, ∀ name e, v.2.HasEnumColumn pool name e →
        name = e.name
          ∧ (∃ x ∈ walkedEnums files requested,
            ∀ type, (type ∈ schema.enums ∧ type.name = name) ↔ type = x.enumType)
          ∧ ((∃ type ∈ schema.enums, type.name = name ∧ type.values = e.values)
            ↔ ∃ x ∈ walkedEnums files requested, x.enumType = e.enumType)
          ∧ ∃ before f after, files = before ++ f :: after ∧ e.file = ⟨before.length⟩
            ∧ (f.name.getD "" ∈ requested → (∀ g ∈ before, g.name.getD "" ≠ f.name.getD "") →
              f.messages ≠ [] →
              ∃ type ∈ schema.enums, type.name = name ∧ type.values = e.values) := by
  intro pool schema
  have h := (isClean_iff_buildable files requested).1 hclean
  refine ⟨h.tables_eq, fun v hv name e hcolumn => ?_⟩
  obtain ⟨f, hf, column, hvalue, htype, he⟩ := hcolumn
  have hname : name = e.name :=
    FieldNode.name_of_columnType_eq_enum (FieldNode.columnType_of_type_eq_enum hvalue htype) he
  have htypes : ∀ type : EnumType, (type.name = name ∧ type.values = e.values)
      ↔ type = e.enumType := by
    intro type
    rw [hname, EnumNode.enumType, EnumType.mk.injEq]
  refine ⟨hname, h.existsUnique_enumType hv ⟨f, hf, column, hvalue, htype, he⟩, ?_, ?_⟩
  · have henums : schema.enums = _ := h.enums_eq_walkedEnums
    simp only [htypes, exists_eq_right]
    rw [henums]
    exact List.mem_map
  · obtain ⟨typeName, -, hfound⟩ := Option.bind_eq_some_iff.1 he
    have hpool : e ∈ pool.enums := Pool.mem_enums_of_enumByTypeName hfound
    -- The enum of the field was declared in some file, which the build reads when it is requested.
    obtain ⟨before, g, after, rfl, hfile, -⟩ := Pool.exists_file_of_enum_mem hpool
    refine ⟨before, g, after, rfl, hfile, fun hrequested hfirst hmessages => ?_⟩
    have hmet := Pool.enum_mem_visits_of_contributes hrequested hfirst hmessages hpool hfile
    have henums : schema.enums = _ := h.enums_eq
    refine ⟨e.enumType, ?_, (htypes _).2 rfl⟩
    rw [henums]
    exact List.mem_map_of_mem hmet

/-- A file with an enum. -/
def stateFile : FileDescriptor where
  name := some "state.proto"
  package := some "state"
  enums := [{ name := some "Status", values := [{ name := some "OPEN" }] }]

/-- A message with a field of that enum and one of another enum. -/
def orderMessage : MessageDescriptor where
  name := some "Order"
  fields := [
    { name := some "status"
      kind := some (Numbered.number FieldKind.enum)
      typeName := some ".state.Status" },
    { name := some "payment"
      kind := some (Numbered.number FieldKind.enum)
      typeName := some ".order.Payment" }]

/-- A file with that message, the other enum, and a second enum of the name of the first. -/
def orderFile : FileDescriptor where
  name := some "order.proto"
  package := some "order"
  messages := [orderMessage]
  enums := [
    { name := some "Status", values := [{ name := some "ON" }] },
    { name := some "Payment", values := [{ name := some "CARD" }] }]

/-- The column of the enum that is declared in the file has the values of that enum. -/
theorem enum_column_orderFile :
    let schema := ((Pool.ofFiles [stateFile, orderFile]).built ["order.proto"]).schema
    ((Pool.ofFiles [stateFile, orderFile]).build ["order.proto"]).value.isClean = true
      ∧ ∃ x ∈ walkedEnums [stateFile, orderFile] ["order.proto"],
        ∀ type, (type ∈ schema.enums ∧ type.name = "Payment") ↔ type = x.enumType := by
  intro schema
  have hclean : ((Pool.ofFiles [stateFile, orderFile]).build
      ["order.proto"]).value.isClean = true := by decide +kernel
  have hcolumn : orderMessage.HasEnumColumn (Pool.ofFiles [stateFile, orderFile]) "Payment"
      { name := "Payment", fullName := ".order.Payment", file := ⟨1⟩, values := ["CARD"] } :=
    ⟨_, List.mem_cons_of_mem _ List.mem_cons_self, _, rfl, rfl, by decide +kernel⟩
  have hwalked : (orderFile, orderMessage)
      ∈ walkedMessages [stateFile, orderFile] ["order.proto"] := List.mem_cons_self
  exact ⟨hclean, ((enum_column_of_isClean hclean).2 _ hwalked _ _ hcolumn).2.1⟩

/-- The column of the other enum has the type of one that its field does not refer to, and nothing
is reported. -/
theorem enum_column_values_ne : ∃ e : EnumNode,
    let schema := ((Pool.ofFiles [stateFile, orderFile]).built ["order.proto"]).schema
    ((Pool.ofFiles [stateFile, orderFile]).build ["order.proto"]).value.isClean = true
      ∧ (orderFile, orderMessage) ∈ walkedMessages [stateFile, orderFile] ["order.proto"]
      ∧ orderMessage.HasEnumColumn (Pool.ofFiles [stateFile, orderFile]) "Status" e
      ∧ e.values = ["OPEN"]
      ∧ schema.enums.filter (·.name = "Status") = [{ name := "Status", values := ["ON"] }]
      ∧ ¬∃ type ∈ schema.enums, type.name = "Status" ∧ type.values = e.values := by
  -- The column has the enum of the file that was not requested.
  refine ⟨{ name := "Status", fullName := ".state.Status", file := ⟨0⟩, values := ["OPEN"] }, ?_⟩
  refine ⟨by decide +kernel, List.mem_cons_self, ?_, rfl, by decide +kernel, by decide +kernel⟩
  exact ⟨_, List.mem_cons_self, _, rfl, rfl, by decide +kernel⟩

end ProtoSchema
