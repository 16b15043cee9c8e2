import ProtoSchema.Proofs.Build.Composition
import ProtoSchema.Proofs.Build.Fields
import ProtoSchema.Proofs.Build.WalkOrder

/-!
# Columns of constraints

The constraints of a table are made from all fields of its message, also from those that have no
column. So a constraint may name a column that the table does not have; then the field is reported.

Key results:
* `mem_names_columns_iff` — the columns of a table are the fields with a column type
* `mem_diagnostics_of_newMessages` — the problems of a table are problems of the build
* `constraint_columns` — which columns constraints name
-/

namespace ProtoSchema

open Plugin Relational

/-! ## Tables -/

/-- The constraints of a field are on its own column. -/
theorem FieldNode.columns_of_mem_constraints {field : FieldNode} {c : Constraint}
    (h : c ∈ field.constraints) : c.columns = [field.name] := by
  rcases mem_constraints h with rfl | rfl | ⟨text, r, -, rfl⟩ <;> rfl

/-- A field without a column type is reported under its own name. -/
theorem FieldNode.diagnostics_column?_of_untyped {pool : Pool} {field : FieldNode}
    (h : ∀ type, field.columnType pool ≠ .ok type) (message : String) :
    (field.column? pool message).diagnostics
      = [⟨message ++ "." ++ field.name, .invalidInput (.untypedField field.name)⟩] := by
  cases htype : field.columnType pool with
  | ok type => exact absurd htype (h type)
  | error fault =>
    rw [column?, htype, (columnType_eq_error_iff.1 htype).1]

namespace Plugin.MessageDescriptor

/-- A field of a message that has a column. -/
def HasColumn (pool : Pool) (d : MessageDescriptor) (name : String) : Prop :=
  ∃ f ∈ d.fields, f.name.getD "" = name
    ∧ ∃ type, (FieldNode.ofDescriptor f).columnType pool = .ok type

/-- The columns of a table are the fields with a column type. -/
theorem mem_names_columns_iff {pool : Pool} {d : MessageDescriptor} {name : String} :
    name ∈ (d.table pool).columns.map (·.name) ↔ d.HasColumn pool name := by
  rw [table, List.mem_map]
  constructor
  · rintro ⟨column, hcolumn, rfl⟩
    obtain ⟨field, hfield, hvalue⟩ := List.mem_filterMap.1 hcolumn
    obtain ⟨f, hf, rfl⟩ := List.mem_map.1 hfield
    refine ⟨f, hf, ((FieldNode.ofDescriptor f).name_of_column? hvalue).symm, ?_⟩
    -- The field has a type, since it gave a column.
    cases htype : (FieldNode.ofDescriptor f).columnType pool with
    | ok type => exact ⟨type, rfl⟩
    | error fault =>
      rw [FieldNode.column?, htype] at hvalue
      cases hvalue
  · rintro ⟨f, hf, rfl, type, htype⟩
    obtain ⟨column, hcolumn⟩ := (FieldNode.ofDescriptor f).exists_column? htype d.shortName
    exact ⟨column, List.mem_filterMap.2 ⟨_, List.mem_map_of_mem hf, hcolumn⟩,
      (FieldNode.ofDescriptor f).name_of_column? hcolumn⟩

/-- The columns that the constraints of a table name are the fields that have constraints. -/
theorem mem_columns_constraints_iff {pool : Pool} {d : MessageDescriptor} {name : String} :
    (∃ c ∈ (d.table pool).constraints, name ∈ c.columns) ↔
      ∃ f ∈ d.fields, f.name.getD "" = name ∧ (FieldNode.ofDescriptor f).constraints ≠ [] := by
  rw [table]
  constructor
  · rintro ⟨c, hc, hname⟩
    obtain ⟨field, hfield, hcfield⟩ := List.mem_flatMap.1 hc
    obtain ⟨f, hf, rfl⟩ := List.mem_map.1 hfield
    -- A constraint of a field names that field alone.
    rw [FieldNode.columns_of_mem_constraints hcfield, List.mem_singleton] at hname
    exact ⟨f, hf, hname.symm, List.ne_nil_of_mem hcfield⟩
  · rintro ⟨f, hf, rfl, hne⟩
    obtain ⟨c, hc⟩ := List.exists_mem_of_ne_nil _ hne
    refine ⟨c, List.mem_flatMap.2 ⟨_, List.mem_map_of_mem hf, hc⟩, ?_⟩
    rw [FieldNode.columns_of_mem_constraints hc]
    exact List.mem_singleton.2 rfl

end Plugin.MessageDescriptor

/-! ## Problems -/

namespace Building

/-- The problems of a table are problems of the build that it is made for. -/
theorem mem_diagnostics_of_newMessages {pool : Pool} {vs : List Visit} {b : Building}
    {node : MessageNode} (h : node ∈ b.build.newMessages vs) {d : Diagnostic}
    (hd : d ∈ (pool.table node).diagnostics) : d ∈ (run pool b vs).diagnostics := by
  induction vs generalizing b with
  | nil => exact absurd h List.not_mem_nil
  | cons v vs ih =>
    have hrun : run pool b (v :: vs) = run pool (b.visit pool v) vs := rfl
    rw [← List.singleton_append, Build.newMessages_append pool, ← build_visit, List.mem_append] at h
    rcases h with h | h
    · -- The table is made in this visit, and what it reports stays reported.
      rw [hrun]
      apply mem_diagnostics_run
      have hmet : node ∈ [v].filterMap Visit.message? := (firstNamed_sublist _ _ _).subset h
      obtain rfl : v = .message node := by
        cases v with
        | message other => simpa [Visit.message?, eq_comm] using hmet
        | _ => cases hmet
      have hnew : ¬(node.name = "" ∨ node.name ∈ b.build.schema.tables.map (·.name)) := by
        intro htaken
        have hnone : b.build.newMessages [.message node] = [] := firstNamed_cons_of_taken htaken []
        rw [hnone] at h
        cases h
      rw [visit, addMessage_of_new pool hnew]
      exact List.mem_append_right _ hd
    · exact ih h

end Building

/-- A constraint of a table names a field of the message. Where that is no column of the table, the
field is reported. -/
theorem constraint_column_cases {files : List FileDescriptor} {requested : List String}
    {v : FileDescriptor × MessageDescriptor} (hv : v ∈ declaredTables files requested)
    {name : String} {c : Constraint} (hc : c ∈ (v.2.table (Pool.ofFiles files)).constraints)
    (hname : name ∈ c.columns) :
    v.2.HasColumn (Pool.ofFiles files) name
      ∨ ⟨v.2.shortName ++ "." ++ name, .invalidInput (.untypedField name)⟩
        ∈ ((Pool.ofFiles files).build requested).value.diagnostics := by
  obtain ⟨f, hf, rfl, -⟩ := MessageDescriptor.mem_columns_constraints_iff.1 ⟨c, hc, hname⟩
  by_cases htyped : ∃ type, (FieldNode.ofDescriptor f).columnType (Pool.ofFiles files) = .ok type
  · exact .inl ⟨f, hf, rfl, htyped⟩
  · right
    -- The table is that of a message which the walk meets, with the same name and fields.
    have hview := List.mem_map_of_mem (f := Pool.walkedView) hv
    rw [declaredTables, ← map_view_newMessages] at hview
    obtain ⟨node, hnode, heq⟩ := List.mem_map.1 hview
    have hnodeName : node.name = v.2.shortName := congrArg (·.2.1) heq
    have hnodeFields : node.fields = v.2.fields.map FieldNode.ofDescriptor := congrArg (·.2.2) heq
    apply List.mem_append_left
    apply Building.mem_diagnostics_of_newMessages hnode
    apply List.mem_append_left
    rw [List.mem_flatMap]
    refine ⟨_, List.mem_map_of_mem (hnodeFields ▸ List.mem_map_of_mem hf), ?_⟩
    rw [hnodeName, FieldNode.diagnostics_column?_of_untyped (not_exists.1 htyped)]
    exact List.mem_singleton.2 rfl

/-- The columns that constraints name. A constraint of a table names a field of the message, and
where the field has no column, it is reported; so the constraints of a build without a problem name
columns of their tables. In general they do exactly when every field with a constraint has a column,
or has the name of one that has. -/
theorem constraint_columns (files : List FileDescriptor) (requested : List String) :
    let pool := Pool.ofFiles files
    let outcome := (pool.build requested).value
    let declared := declaredTables files requested
    outcome.value.schema.tables = declared.map (·.2.table pool)
      ∧ (∀ v ∈ declared, ∀ c ∈ (v.2.table pool).constraints, ∀ name ∈ c.columns,
        (∃ f ∈ v.2.fields, f.name.getD "" = name)
          ∧ (name ∈ (v.2.table pool).columns.map (·.name)
            ∨ ⟨v.2.shortName ++ "." ++ name, .invalidInput (.untypedField name)⟩
              ∈ outcome.diagnostics))
      ∧ (outcome.isClean = true → ∀ t ∈ outcome.value.schema.tables, ∀ c ∈ t.constraints,
        ∀ name ∈ c.columns, name ∈ t.columns.map (·.name))
      ∧ ((∀ t ∈ outcome.value.schema.tables, ∀ c ∈ t.constraints, ∀ name ∈ c.columns,
          name ∈ t.columns.map (·.name)) ↔
        ∀ v ∈ declared, ∀ f ∈ v.2.fields, (FieldNode.ofDescriptor f).constraints ≠ [] →
          v.2.HasColumn pool (f.name.getD "")) := by
  intro pool outcome declared
  have htables : outcome.value.schema.tables = declared.map (·.2.table pool) := tables_ofFiles _ _
  have hcases : ∀ v ∈ declared, ∀ c ∈ (v.2.table pool).constraints, ∀ name ∈ c.columns,
      name ∈ (v.2.table pool).columns.map (·.name)
        ∨ ⟨v.2.shortName ++ "." ++ name, .invalidInput (.untypedField name)⟩
          ∈ outcome.diagnostics := by
    intro v hv c hc name hname
    rw [MessageDescriptor.mem_names_columns_iff]
    exact constraint_column_cases hv hc hname
  refine ⟨htables, fun v hv c hc name hname => ⟨?_, hcases v hv c hc name hname⟩, ?_, ?_⟩
  · obtain ⟨f, hf, hfname, -⟩ := MessageDescriptor.mem_columns_constraints_iff.1 ⟨c, hc, hname⟩
    exact ⟨f, hf, hfname⟩
  · intro hclean t ht c hc name hname
    have hnone : outcome.diagnostics = [] := List.isEmpty_iff.1 hclean
    rw [htables] at ht
    obtain ⟨v, hv, rfl⟩ := List.mem_map.1 ht
    -- A column that is missing would have been reported.
    apply (hcases v hv c hc name hname).resolve_right
    rw [hnone]
    exact List.not_mem_nil
  · rw [htables, List.forall_mem_map]
    simp only [MessageDescriptor.mem_names_columns_iff]
    constructor
    · intro h v hv f hf hne
      obtain ⟨c, hc, hname⟩ := MessageDescriptor.mem_columns_constraints_iff.2 ⟨f, hf, rfl, hne⟩
      exact h v hv c hc _ hname
    · intro h v hv c hc name hname
      obtain ⟨f, hf, rfl, hne⟩ := MessageDescriptor.mem_columns_constraints_iff.1 ⟨c, hc, hname⟩
      exact h v hv f hf hne

/-- A file with a message of two fields. The second is an enum that is not named; it has no column,
and yet it is unique, the primary key and a foreign key. -/
def accountFile : FileDescriptor where
  name := some "account.proto"
  messages := [{
    name := some "Account"
    fields := [
      { name := some "id", kind := some (Numbered.number FieldKind.int32) },
      { name := some "status"
        kind := some (Numbered.number FieldKind.enum)
        options := some {
          relational := some (Wire.Message.encode ({
            primary := some true, unique := some true
            references := some "Status.id" } : FieldConstraints)) } }] }]

/-- The table of that message has three constraints on a column that it does not have. -/
theorem constraint_columns_accountFile : ∃ t : Table,
    ((Pool.ofFiles [accountFile]).build ["account.proto"]).value.value.schema.tables = [t]
      ∧ t.columns.map (·.name) = ["id"]
      ∧ t.constraints.map (·.columns) = [["status"], ["status"], ["status"]]
      ∧ t.constraints.map (·.kind) = [.unique, .primaryKey, .foreignKey]
      ∧ ¬∀ c ∈ t.constraints, ∀ name ∈ c.columns, name ∈ t.columns.map (·.name) := by
  refine ⟨_, rfl, ?_, ?_, ?_, ?_⟩ <;> decide +kernel

end ProtoSchema
