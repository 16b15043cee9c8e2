import ProtoSchema.Proofs.Build.Composition
import ProtoSchema.Proofs.Build.Fields
import ProtoSchema.Proofs.Build.WalkOrder

/-!
# Builds without a problem

Nothing is left out without a report. A build has no problem exactly when its files can be built as
they are: every file is found, every message and every enum that the walk meets has a name of its
own, and every field has a column, annotations that decode, and a reference that can be read. Then
every message has its table, every field its column, and every mark its constraint.

Key results:
* `diagnostics_table_eq_nil_iff` — tables without a problem
* `diagnostics_visit_eq_nil_iff`, `diagnostics_run_eq_nil_iff` — visits that add no problem
* `isClean_build_iff` — builds without a problem, and what they hold
-/

namespace ProtoSchema

open Plugin Relational Wire

/-! ## Tables -/

/-- What it takes for a field to be built without a problem: a column type, payloads that decode,
and a reference, if any, that is a table and a column with one dot between them. -/
structure FieldNode.Sound (pool : Pool) (field : FieldNode) : Prop where
  typed : ∃ type, field.columnType pool = .ok type
  relational : ∀ payload, field.options.bind (·.relational) = some payload →
    ∃ c, Message.decode FieldConstraints payload = .ok c
  validation : ∀ payload, field.options.bind (·.validation) = some payload →
    ∃ r, Message.decode FieldRules payload = .ok r
  reference : ∀ text, field.referenceText? = some text →
    ∃ table column : String, text = table ++ "." ++ column ∧ table ≠ "" ∧ column ≠ ""
      ∧ '.' ∉ table.toList ∧ '.' ∉ column.toList

/-- A field is sound when there is no problem with its column or its reference. -/
theorem FieldNode.sound_iff (pool : Pool) (message : String) (field : FieldNode) :
    field.Sound pool ↔ (field.column? pool message).diagnostics = []
      ∧ field.referenceProblem? = none := by
  have hreference : field.referenceProblem? = none ↔ ∀ text, field.referenceText? = some text →
      ∃ table column : String, text = table ++ "." ++ column ∧ table ≠ "" ∧ column ≠ ""
        ∧ '.' ∉ table.toList ∧ '.' ∉ column.toList := by
    rw [referenceProblem?_eq_none_iff]
    refine forall_congr' fun text => imp_congr_right fun _ => ⟨?_, ?_⟩
    · rintro ⟨r, hr⟩
      obtain ⟨table, column, htext, htable, hcolumn, hl, hr, -⟩ := parse_eq_some_iff_append.1 hr
      exact ⟨table, column, htext, htable, hcolumn, hl, hr⟩
    · rintro ⟨table, column, htext, htable, hcolumn, hl, hr⟩
      exact ⟨_, parse_eq_some_iff_append.2
        ⟨table, column, htext, htable, hcolumn, hl, hr, rfl⟩⟩
  -- Without options there is no payload, and both sides hold.
  have hpayloads : (field.options.getD {}).undecodable = [] ↔
      (∀ payload, field.options.bind (·.relational) = some payload →
        ∃ c, Message.decode FieldConstraints payload = .ok c)
      ∧ ∀ payload, field.options.bind (·.validation) = some payload →
        ∃ r, Message.decode FieldRules payload = .ok r := by
    rw [undecodable_eq_nil_iff]
    cases field.options <;> simp
  rw [diagnostics_column?_eq_nil_iff, hpayloads, hreference]
  constructor
  · rintro ⟨htyped, hrelational, hvalidation, hreference⟩
    exact ⟨⟨htyped, hrelational, hvalidation⟩, hreference⟩
  · rintro ⟨⟨htyped, hrelational, hvalidation⟩, hreference⟩
    exact ⟨htyped, hrelational, hvalidation, hreference⟩

/-- A table has no problem when every field of its message is sound. -/
theorem diagnostics_table_eq_nil_iff (pool : Pool) (node : MessageNode) :
    (pool.table node).diagnostics = [] ↔ ∀ field ∈ node.fields, field.Sound pool := by
  simp only [Pool.table, MessageNode.constraints, List.append_eq_nil_iff, List.map_eq_nil_iff,
    List.flatMap_eq_nil_iff, List.mem_map, forall_exists_index, and_imp,
    forall_apply_eq_imp_iff₂, List.filterMap_eq_nil_iff, FieldNode.sound_iff pool node.name]
  exact ⟨fun h field hfield => ⟨h.1 field hfield, h.2 field hfield⟩,
    fun h => ⟨fun field hfield => (h field hfield).1, fun field hfield => (h field hfield).2⟩⟩

/-! ## Steps and runs -/

/-- Visits of which a build takes over everything: every file is found, no message and no enum is
left out, and every table is without a problem. -/
structure Build.Accepts (pool : Pool) (b : Build) (vs : List Visit) : Prop where
  found : ∀ name, Visit.unknownFile name ∉ vs
  enums : b.newEnums vs = vs.filterMap Visit.enum?
  messages : b.newMessages vs = vs.filterMap Visit.message?
  tables : ∀ node ∈ vs.filterMap Visit.message?, ∀ field ∈ node.fields, field.Sound pool

/-- Visits are taken over part by part. -/
theorem Build.accepts_append {pool : Pool} {b : Build} {vs ws : List Visit} :
    b.Accepts pool (vs ++ ws) ↔ b.Accepts pool vs ∧ (b.extend pool vs).Accepts pool ws := by
  have henums : b.newEnums (vs ++ ws) = (vs ++ ws).filterMap Visit.enum? ↔
      b.newEnums vs = vs.filterMap Visit.enum?
        ∧ (b.extend pool vs).newEnums ws = ws.filterMap Visit.enum? := by
    rw [newEnums, newEnums, newEnums, names_enums_extend, List.filterMap_append]
    exact firstNamed_append_eq_self_iff
  have hmessages : b.newMessages (vs ++ ws) = (vs ++ ws).filterMap Visit.message? ↔
      b.newMessages vs = vs.filterMap Visit.message?
        ∧ (b.extend pool vs).newMessages ws = ws.filterMap Visit.message? := by
    rw [newMessages, newMessages, newMessages, names_tables_extend, List.filterMap_append]
    exact firstNamed_append_eq_self_iff
  -- Files and tables are met one by one; names depend on what was met before.
  constructor
  · intro h
    obtain ⟨hvsEnums, hwsEnums⟩ := henums.1 h.enums
    obtain ⟨hvsMessages, hwsMessages⟩ := hmessages.1 h.messages
    refine ⟨⟨fun name hname => h.found name ?_, hvsEnums, hvsMessages, fun node hnode => ?_⟩,
      ⟨fun name hname => h.found name ?_, hwsEnums, hwsMessages, fun node hnode => ?_⟩⟩
    · exact List.mem_append_left _ hname
    · exact h.tables node (by simp [hnode])
    · exact List.mem_append_right _ hname
    · exact h.tables node (by simp [hnode])
  · rintro ⟨hvs, hws⟩
    refine ⟨fun name hname => ?_, henums.2 ⟨hvs.enums, hws.enums⟩,
      hmessages.2 ⟨hvs.messages, hws.messages⟩, fun node hnode => ?_⟩
    · exact (List.mem_append.1 hname).elim (hvs.found name) (hws.found name)
    · rw [List.filterMap_append] at hnode
      exact (List.mem_append.1 hnode).elim (hvs.tables node) (hws.tables node)

namespace Building

variable {pool : Pool} {b : Building}

/-- A problem is there to stay. -/
theorem diagnostics_report_ne_nil (subject : String) (error : Error) :
    (b.report subject error).diagnostics ≠ [] := by
  simp [report]

/-- An enum adds a problem unless it has a name of its own. -/
theorem diagnostics_addEnum_eq_nil_iff {node : EnumNode} : (b.addEnum node).diagnostics = [] ↔
    b.diagnostics = [] ∧ b.build.newEnums [.enum node] = [node] := by
  by_cases h : node.name = "" ∨ node.name ∈ b.build.schema.enums.map (·.name)
  · have hnone : b.build.newEnums [.enum node] = [] := firstNamed_cons_of_taken h []
    simp [addEnum_of_taken h, hnone, diagnostics_report_ne_nil]
  · have hnew : b.build.newEnums [.enum node] = [node] := firstNamed_cons_of_new h []
    simp [addEnum_of_new h, hnew]

/-- A message adds a problem unless it has a name of its own and sound fields. -/
theorem diagnostics_addMessage_eq_nil_iff {node : MessageNode} :
    (addMessage pool b node).diagnostics = [] ↔ b.diagnostics = []
      ∧ b.build.newMessages [.message node] = [node]
      ∧ ∀ field ∈ node.fields, field.Sound pool := by
  -- A name that is missing or taken is reported; otherwise only the table can bring reports.
  by_cases h : node.name = "" ∨ node.name ∈ b.build.schema.tables.map (·.name)
  · have hnone : b.build.newMessages [.message node] = [] := firstNamed_cons_of_taken h []
    simp [addMessage_of_taken pool h, hnone, diagnostics_report_ne_nil]
  · have hnew : b.build.newMessages [.message node] = [node] := firstNamed_cons_of_new h []
    simp [addMessage_of_new pool h, hnew, diagnostics_table_eq_nil_iff]

/-- A visit adds no problem exactly when all of it is taken over. -/
theorem diagnostics_visit_eq_nil_iff (v : Visit) :
    (b.visit pool v).diagnostics = [] ↔ b.diagnostics = [] ∧ b.build.Accepts pool [v] := by
  -- What is neither a message nor an enum is taken over when it is no unknown file.
  have hother : v.message? = none → v.enum? = none → (∀ name, v ≠ .unknownFile name) →
      b.build.Accepts pool [v] := by
    intro hmessage henum hfile
    refine ⟨fun name hname => hfile name (List.mem_singleton.1 hname).symm, ?_, ?_, ?_⟩
    · simp [Build.newEnums, henum, firstNamed]
    · simp [Build.newMessages, hmessage, firstNamed]
    · simp [hmessage]
  cases v with
  | unknownFile name =>
    refine iff_of_false (diagnostics_report_ne_nil _ _) fun h => ?_
    exact h.2.found name List.mem_cons_self
  | enum node =>
    refine diagnostics_addEnum_eq_nil_iff.trans (and_congr_right fun _ => ?_)
    exact ⟨fun h => ⟨by simp, h, rfl, by simp [Visit.message?]⟩, fun h => h.enums⟩
  | message node =>
    refine diagnostics_addMessage_eq_nil_iff.trans (and_congr_right fun _ => ?_)
    exact ⟨fun h => ⟨by simp, rfl, h.1, by simpa [Visit.message?] using h.2⟩,
      fun h => ⟨h.messages, h.tables node (by simp [Visit.message?])⟩⟩
  | _ => exact (and_iff_left (hother rfl rfl (by simp))).symm

/-- A run adds no problem exactly when all that is met is taken over. -/
theorem diagnostics_run_eq_nil_iff (vs : List Visit) :
    (run pool b vs).diagnostics = [] ↔ b.diagnostics = [] ∧ b.build.Accepts pool vs := by
  induction vs generalizing b with
  | nil =>
    refine (and_iff_left ⟨fun name => List.not_mem_nil, rfl, rfl, ?_⟩).symm
    exact fun node hnode => absurd hnode List.not_mem_nil
  | cons v vs ih =>
    have hrun : run pool b (v :: vs) = run pool (b.visit pool v) vs := rfl
    -- What the first visit accepts does not depend on the later ones.
    have happend : b.build.Accepts pool (v :: vs)
        ↔ b.build.Accepts pool [v] ∧ (b.build.extend pool [v]).Accepts pool vs := by
      rw [← Build.accepts_append, List.singleton_append]
    rw [hrun, ih, diagnostics_visit_eq_nil_iff, build_visit, happend, and_assoc]

end Building

/-! ## The walk over descriptors -/

/-- What is met in a file is no unknown file. -/
theorem unknownFile_not_mem_fileVisits (pool : Pool) (file : FileNode) (name : String) :
    Visit.unknownFile name ∉ pool.fileVisits file := by
  intro h
  rw [Pool.fileVisits] at h
  split at h
  · cases List.mem_singleton.1 h
  · rcases List.mem_append.1 h with h | h
    · simp at h
    -- The walk inside a message meets messages and map entries only.
    · rcases MessageTree.mem_visitsAll _ _ h with ⟨node, h⟩ | ⟨fullName, h⟩ <;> cases h

/-- An unknown file is met for each requested name that no file has. -/
theorem unknownFile_mem_visits_iff {files : List FileDescriptor} {requested : List String}
    {name : String} : Visit.unknownFile name ∈ (Pool.ofFiles files).visits requested ↔
      name ∈ requested ∧ ∀ f ∈ files, f.name.getD "" ≠ name := by
  have hvisits : ∀ asked : String, Visit.unknownFile name ∈ (Pool.ofFiles files).visitsOf asked ↔
      name = asked ∧ ∀ f ∈ files, f.name.getD "" ≠ asked := by
    intro asked
    cases hf : files.find? (·.name.getD "" == asked) with
    | none =>
      rw [Pool.visitsOf, Pool.fileByName_eq_none hf]
      simpa using fun _ => List.find?_eq_none.1 hf
    | some f =>
      obtain ⟨before, after, -, hnode⟩ := Pool.fileByName_eq_some hf
      have hname : f.name.getD "" = asked := by simpa using List.find?_some hf
      rw [Pool.visitsOf, hnode]
      -- A name that is found is never reported as unknown.
      refine iff_of_false (unknownFile_not_mem_fileVisits _ _ name) fun h => ?_
      exact h.2 f (List.mem_of_find?_eq_some hf) hname
  rw [Pool.visits, List.mem_flatMap]
  constructor
  · rintro ⟨asked, hasked, h⟩
    obtain ⟨rfl, hnone⟩ := (hvisits asked).1 h
    exact ⟨hasked, hnone⟩
  · rintro ⟨hname, hnone⟩
    exact ⟨name, hname, (hvisits name).2 ⟨rfl, hnone⟩⟩

/-- The names of the messages that are met are those of the descriptors. -/
theorem names_messages_visits (files : List FileDescriptor) (requested : List String) :
    (((Pool.ofFiles files).visits requested).filterMap Visit.message?).map (·.name)
      = (walkedMessages files requested).map (·.2.shortName) := by
  have h := congrArg (List.map (·.2.1)) (Pool.parts_visits files requested).1
  rw [List.map_map, List.map_map] at h
  exact h

/-- The walk meets the enums that the requested files declare, by their names. -/
theorem names_enums_visits (files : List FileDescriptor) (requested : List String) :
    (((Pool.ofFiles files).visits requested).filterMap Visit.enum?).map (·.name)
      = (walkedEnums files requested).map (·.name.getD "") := by
  have h := congrArg (List.map EnumType.name) (Pool.parts_visits files requested).2.1
  rw [List.map_map, List.map_map] at h
  exact h

/-- The fields of the messages that are met are those of the descriptors. -/
theorem fields_messages_visits (files : List FileDescriptor) (requested : List String) :
    (((Pool.ofFiles files).visits requested).filterMap Visit.message?).map (·.fields)
      = (walkedMessages files requested).map (·.2.fields.map FieldNode.ofDescriptor) := by
  have h := congrArg (List.map (·.2.2)) (Pool.parts_visits files requested).1
  rw [List.map_map, List.map_map] at h
  exact h

/-! ## Builds -/

/-- What it takes for files to be built as they are. -/
structure Buildable (files : List FileDescriptor) (requested : List String) : Prop where
  /-- Every requested name is that of a file. -/
  found : ∀ name ∈ requested, ∃ f ∈ files, f.name.getD "" = name
  /-- Every enum has a name of its own. -/
  namedEnums : "" ∉ (walkedEnums files requested).map (·.name.getD "")
  distinctEnums : ((walkedEnums files requested).map (·.name.getD "")).Nodup
  /-- Every message has a name of its own. -/
  namedMessages : "" ∉ (walkedMessages files requested).map (·.2.shortName)
  distinctMessages : ((walkedMessages files requested).map (·.2.shortName)).Nodup
  /-- Every field has a column type, payloads that decode and a reference that can be read. -/
  soundFields : ∀ v ∈ walkedMessages files requested, ∀ f ∈ v.2.fields,
    (FieldNode.ofDescriptor f).Sound (Pool.ofFiles files)
  /-- Every enum that is the type of a column is in the schema. -/
  definedEnums : ∀ table ∈ ((Pool.ofFiles files).built requested).schema.tables,
    ∀ column ∈ table.columns, ∀ name, column.type = .enum name →
      ∃ e ∈ ((Pool.ofFiles files).built requested).schema.enums, e.name = name

/-- All that is met is taken over when the files can be built, but for enums that are missing. -/
theorem accepts_visits_iff {files : List FileDescriptor} {requested : List String} :
    ({} : Build).Accepts (Pool.ofFiles files) ((Pool.ofFiles files).visits requested) ↔
      (∀ name ∈ requested, ∃ f ∈ files, f.name.getD "" = name)
        ∧ ("" ∉ (walkedEnums files requested).map (·.name.getD "")
          ∧ ((walkedEnums files requested).map (·.name.getD "")).Nodup)
        ∧ ("" ∉ (walkedMessages files requested).map (·.2.shortName)
          ∧ ((walkedMessages files requested).map (·.2.shortName)).Nodup)
        ∧ ∀ v ∈ walkedMessages files requested, ∀ f ∈ v.2.fields,
          (FieldNode.ofDescriptor f).Sound (Pool.ofFiles files) := by
  have hfound : (∀ name, Visit.unknownFile name ∉ (Pool.ofFiles files).visits requested) ↔
      ∀ name ∈ requested, ∃ f ∈ files, f.name.getD "" = name := by
    simp [unknownFile_mem_visits_iff]
  have hfields : (∀ fields ∈ (((Pool.ofFiles files).visits requested).filterMap
      Visit.message?).map (·.fields), ∀ field ∈ fields, field.Sound (Pool.ofFiles files)) ↔
      ∀ v ∈ walkedMessages files requested, ∀ f ∈ v.2.fields,
        (FieldNode.ofDescriptor f).Sound (Pool.ofFiles files) := by
    rw [fields_messages_visits, List.forall_mem_map]
    simp only [List.forall_mem_map]
  -- What is said of descriptors is said of the visits, where nothing is left out.
  rw [← hfound, ← hfields, ← names_messages_visits, ← names_enums_visits,
    ← firstNamed_eq_self_iff, ← firstNamed_eq_self_iff]
  constructor
  · intro h
    refine ⟨h.found, h.enums, h.messages, fun fields hmem => ?_⟩
    obtain ⟨node, hnode, rfl⟩ := List.mem_map.1 hmem
    exact h.tables node hnode
  · rintro ⟨hfound, henums, hmessages, hfields⟩
    exact ⟨hfound, henums, hmessages,
      fun node hnode => hfields node.fields (List.mem_map_of_mem hnode)⟩

/-- No enum type is missing when each that is the type of a column is in the schema. -/
theorem undefinedEnums_eq_nil_iff {schema : Schema} : schema.undefinedEnums = [] ↔
    ∀ table ∈ schema.tables, ∀ column ∈ table.columns, ∀ name, column.type = .enum name →
      ∃ e ∈ schema.enums, e.name = name := by
  rw [Schema.undefinedEnums, List.flatMap_eq_nil_iff]
  refine forall_congr' fun table => imp_congr_right fun _ => ?_
  rw [List.filterMap_eq_nil_iff]
  refine forall_congr' fun column => imp_congr_right fun _ => ?_
  cases htype : column.type with
  | enum name =>
    have hsome := isSome_enum?_iff schema name
    rw [List.mem_map] at hsome
    simp [← hsome, Option.isSome_iff_ne_none]
  | _ => simp

/-- A build has no problem exactly when its files can be built as they are. -/
theorem isClean_iff_buildable (files : List FileDescriptor) (requested : List String) :
    ((Pool.ofFiles files).build requested).value.isClean = true ↔ Buildable files requested := by
  have hrun : (Building.run (Pool.ofFiles files) {}
      ((Pool.ofFiles files).visits requested)).diagnostics = [] ↔ _ :=
    Building.diagnostics_run_eq_nil_iff _
  rw [and_iff_right rfl, accepts_visits_iff] at hrun
  rw [Outcome.isClean, List.isEmpty_iff, Pool.build, List.append_eq_nil_iff, hrun,
    undefinedEnums_eq_nil_iff]
  -- The two sides list the same conditions, grouped differently.
  constructor
  · rintro ⟨⟨hfound, henums, hmessages, hfields⟩, hdefined⟩
    exact ⟨hfound, henums.1, henums.2, hmessages.1, hmessages.2, hfields, hdefined⟩
  · intro h
    exact ⟨⟨h.found, ⟨h.namedEnums, h.distinctEnums⟩, ⟨h.namedMessages, h.distinctMessages⟩,
      h.soundFields⟩, h.definedEnums⟩

/-! ## What is built -/

/-- A field that is marked gives one element, another one none. -/
theorem flatMap_ite_singleton {α β : Type} (p : α → Bool) (f : α → β) (xs : List α) :
    xs.flatMap (fun x => if p x then [f x] else []) = (xs.filter p).map f := by
  induction xs with
  | nil => rfl
  | cons x xs ih => cases hp : p x <;> simp [hp, ih]

/-- What each element may give is given in order. -/
theorem flatMap_toList {α β : Type} (f : α → Option β) (xs : List α) :
    xs.flatMap (fun x => (f x).toList) = xs.filterMap f := by
  induction xs with
  | nil => rfl
  | cons x xs ih => cases hx : f x <;> simp [hx, ih]

/-- The constraints of a field by kind. -/
theorem FieldNode.filter_kind_constraints (field : FieldNode) :
    field.constraints.filter (·.kind = .unique)
        = (if field.relational?.bind (·.unique) = some true then [.unique field.name] else [])
      ∧ field.constraints.filter (·.kind = .primaryKey)
        = (if field.relational?.bind (·.primary) = some true then [.primaryKey field.name] else [])
      ∧ field.constraints.filter (·.kind = .foreignKey)
        = ((field.referenceText?.bind Reference.parse).map (.foreignKey field.name)).toList := by
  rw [constraints]
  -- Each of the three parts is there or not, and has its own kind.
  refine ⟨?_, ?_, ?_⟩ <;> cases field.referenceText?.bind Reference.parse <;> split <;> split <;>
    simp [Constraint.unique, Constraint.primaryKey, Constraint.foreignKey]

/-- The constraints of a message by kind: one for each mark of a field, and one for each reference
that can be read. -/
theorem filter_kind_constraints (fields : List FieldNode) :
    (fields.flatMap FieldNode.constraints).filter (·.kind = .unique)
        = (fields.filter (·.relational?.bind (·.unique) = some true)).map (.unique ·.name)
      ∧ (fields.flatMap FieldNode.constraints).filter (·.kind = .primaryKey)
        = (fields.filter (·.relational?.bind (·.primary) = some true)).map (.primaryKey ·.name)
      ∧ (fields.flatMap FieldNode.constraints).filter (·.kind = .foreignKey)
        = fields.filterMap fun field =>
          (field.referenceText?.bind Reference.parse).map (.foreignKey field.name) := by
  rw [List.filter_flatMap, List.filter_flatMap, List.filter_flatMap, ← flatMap_ite_singleton,
    ← flatMap_ite_singleton, ← flatMap_toList]
  simp only [FieldNode.filter_kind_constraints, decide_eq_true_eq, and_self]

/-- Fields that have a column type have a column each, of the same name. -/
theorem map_name_columns {pool : Pool} {message : String} {fields : List FieldNode}
    (h : ∀ field ∈ fields, ∃ type, field.columnType pool = .ok type) :
    (fields.filterMap fun field => (field.column? pool message).value).map (·.name)
      = fields.map (·.name) := by
  induction fields with
  | nil => rfl
  | cons field fields ih =>
    obtain ⟨type, htype⟩ := h field List.mem_cons_self
    -- A field with a type gives a column, and keeps its name there.
    obtain ⟨column, hcolumn⟩ := field.exists_column? htype message
    have hrest := ih fun field hfield => h field (List.mem_cons_of_mem _ hfield)
    simp only [List.filterMap_cons, hcolumn, List.map_cons, hrest, field.name_of_column? hcolumn]

/-- A foreign key with the text of its reference. -/
def Relational.Constraint.referenceText (c : Constraint) : List String × Option String :=
  (c.columns, c.reference.bind Reference.text?)

/-- References that can be read give a foreign key each, which refers to what is written. -/
theorem map_referenceText_foreignKeys {fields : List FieldNode}
    (h : ∀ field ∈ fields, field.referenceProblem? = none) :
    (fields.filterMap fun field => (field.referenceText?.bind Reference.parse).map
        (Constraint.foreignKey field.name)).map Constraint.referenceText
      = fields.filterMap fun field =>
        field.referenceText?.map fun text => ([field.name], some text) := by
  rw [List.map_filterMap]
  induction fields with
  | nil => rfl
  | cons field fields ih =>
    have hrest := ih fun field hfield => h field (List.mem_cons_of_mem _ hfield)
    cases htext : field.referenceText? with
    | none => simp only [List.filterMap_cons, htext, Option.bind_none, Option.map_none, hrest]
    | some text =>
      have hread := field.referenceProblem?_eq_none_iff.1 (h field List.mem_cons_self)
      obtain ⟨r, hr⟩ := hread text htext
      -- A reference without a problem was read, and is written back as it stands.
      have hwritten : (Constraint.foreignKey field.name r).referenceText
          = ([field.name], some text) := by
        simp [Constraint.referenceText, Constraint.foreignKey, text?_of_parse hr]
      simp only [List.filterMap_cons, htext, Option.bind_some, hr, Option.map_some, hwritten, hrest]

/-- What the table of a message has when its fields are sound: a column for each field, a
constraint for each mark, and a foreign key for each reference. -/
theorem table_of_sound {pool : Pool} {d : MessageDescriptor}
    (h : ∀ f ∈ d.fields, (FieldNode.ofDescriptor f).Sound pool) :
    let fields := d.fields.map FieldNode.ofDescriptor
    let table := d.table pool
    table.columns.map (·.name) = fields.map (·.name)
      ∧ table.constraints.filter (·.kind = .unique)
        = (fields.filter (·.relational?.bind (·.unique) = some true)).map (.unique ·.name)
      ∧ table.constraints.filter (·.kind = .primaryKey)
        = (fields.filter (·.relational?.bind (·.primary) = some true)).map (.primaryKey ·.name)
      ∧ (table.constraints.filter (·.kind = .foreignKey)).map Constraint.referenceText
        = fields.filterMap fun field =>
          field.referenceText?.map fun text => ([field.name], some text) := by
  intro fields table
  have hsound : ∀ field ∈ fields, field.Sound pool := List.forall_mem_map.2 h
  obtain ⟨hunique, hprimary, hforeign⟩ := filter_kind_constraints fields
  refine ⟨map_name_columns fun field hfield => (hsound field hfield).typed, hunique, hprimary, ?_⟩
  show ((fields.flatMap FieldNode.constraints).filter _).map _ = _
  -- Sound fields have no problem with their references, so each text becomes a key.
  rw [hforeign]
  refine map_referenceText_foreignKeys fun field hfield => ?_
  exact ((FieldNode.sound_iff pool d.shortName field).1 (hsound field hfield)).2

/-- Nothing is left out without a report. A build has no problem exactly when its files can be
built as they are. Then there is a table for each message that is met, in order; and each table has
a column for each field, in order, a constraint for each mark, and a foreign key for each
reference. -/
theorem isClean_build_iff (files : List FileDescriptor) (requested : List String) :
    let pool := Pool.ofFiles files
    let outcome := (pool.build requested).value
    let walked := walkedMessages files requested
    (outcome.isClean = true ↔ Buildable files requested)
      ∧ (outcome.isClean = true → outcome.value.schema.tables = walked.map (·.2.table pool)
        ∧ ∀ v ∈ walked,
          let fields := v.2.fields.map FieldNode.ofDescriptor
          let table := v.2.table pool
          table.name = v.2.shortName
            ∧ table.columns.map (·.name) = fields.map (·.name)
            ∧ table.constraints.filter (·.kind = .unique)
              = (fields.filter (·.relational?.bind (·.unique) = some true)).map (.unique ·.name)
            ∧ table.constraints.filter (·.kind = .primaryKey)
              = (fields.filter (·.relational?.bind (·.primary) = some true)).map
                (.primaryKey ·.name)
            ∧ (table.constraints.filter (·.kind = .foreignKey)).map Constraint.referenceText
              = fields.filterMap fun field =>
                field.referenceText?.map fun text => ([field.name], some text)) := by
  intro pool outcome walked
  refine ⟨isClean_iff_buildable files requested, fun hclean => ?_⟩
  have h := (isClean_iff_buildable files requested).1 hclean
  -- Every message has a name of its own, so none is left out.
  have hall : firstNamed (·.2.shortName) [] walked = walked :=
    firstNamed_eq_self_iff.2 ⟨h.namedMessages, h.distinctMessages⟩
  have htables := tables_ofFiles files requested
  rw [hall] at htables
  exact ⟨htables, fun v hv => ⟨rfl, table_of_sound (h.soundFields v hv)⟩⟩

/-- A message with a reference and a field of an enum type. -/
def bookMessage : MessageDescriptor where
  name := some "Book"
  fields := [
    { name := some "author"
      kind := some (Numbered.number FieldKind.int64)
      options := some {
        relational := some
          (Message.encode ({ references := some "Author.id" } : FieldConstraints)) } },
    { name := some "genre"
      kind := some (Numbered.number FieldKind.enum)
      typeName := some ".Genre" }]
  enums := [{ name := some "Binding", values := [{ name := some "PAPER" }] }]

/-- A file with that message and the enum. -/
def bookFile : FileDescriptor where
  name := some "book.proto"
  messages := [bookMessage]
  enums := [{ name := some "Genre", values := [{ name := some "POETRY" }] }]

/-- The file can be built; it has one table, with two columns and a foreign key. -/
theorem isClean_bookFile : Buildable [bookFile] ["book.proto"] ∧ ∃ table : Table,
    ((Pool.ofFiles [bookFile]).built ["book.proto"]).schema.tables = [table]
      ∧ table.name = "Book"
      ∧ table.columns.map (·.name) = ["author", "genre"]
      ∧ (table.constraints.filter (·.kind = .foreignKey)).map Constraint.referenceText
        = [(["author"], some "Author.id")] := by
  have hclean : ((Pool.ofFiles [bookFile]).build ["book.proto"]).value.isClean = true := by
    decide +kernel
  obtain ⟨hbuildable, hbuilt⟩ := isClean_build_iff [bookFile] ["book.proto"]
  obtain ⟨htables, htable⟩ := hbuilt hclean
  obtain ⟨hname, hcolumns, -, -, hforeign⟩ := htable (bookFile, bookMessage) List.mem_cons_self
  refine ⟨hbuildable.1 hclean, _, htables, hname, hcolumns, hforeign.trans ?_⟩
  decide +kernel

end ProtoSchema
