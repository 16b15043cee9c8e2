import ProtoSchema.Build.Constraints

/-!
# What a field contributes

A field contributes a column, its constraints and the problems with its type, its payloads and its
reference. Each is read off the annotations that are understood.

Key results:
* `parse_eq_some_iff_append` — a reference is two parts with one dot between them
* `relates_iff`, `validates_iff` — the annotations that are understood
* `unique_mem_constraints_iff`, `primaryKey_mem_constraints_iff` — marks and constraints
* `referenceText?_eq_none_iff` — a reference is a foreign key or a problem
* `referenceProblem?_eq_none_iff`, `diagnostics_column?_eq_nil_iff` — fields without a problem
* `name_of_column?` — a column has the name of its field
* `mem_constraints`, `definition_of_mem_constraints` — what the constraints of a field are
-/

namespace ProtoSchema

open Plugin Relational Wire

/-! ## References -/

/-- No part of a text holds the separator. -/
theorem not_mem_of_mem_splitOn {c : Char} {xs part : List Char} (h : part ∈ xs.splitOn c) :
    c ∉ part := by
  induction xs generalizing part with
  | nil =>
    have hpart : part = [] := by simpa [List.splitOn_nil] using h
    simp [hpart]
  | cons x xs ih =>
    rw [List.splitOn_cons_eq_if_modifyHead] at h
    split at h
    · rcases List.mem_cons.1 h with rfl | h
      · simp
      · exact ih h
    · -- The first part of the rest gets `x` in front, which is not the separator.
      rename_i hx
      cases hsplit : xs.splitOn c with
      | nil => simp [hsplit] at h
      | cons first rest =>
        rw [hsplit, List.modifyHead_cons] at h
        rcases List.mem_cons.1 h with rfl | h
        · have hfirst : c ∉ first := ih (by simp [hsplit])
          have hne : c ≠ x := by
            rintro rfl
            simp at hx
          simp [hne, hfirst]
        · exact ih (by simp [hsplit, h])

/-- Two parts without the separator are what stands around the only one. -/
theorem splitOn_eq_pair_iff {c : Char} {xs l r : List Char} :
    xs.splitOn c = [l, r] ↔ xs = l ++ c :: r ∧ c ∉ l ∧ c ∉ r := by
  constructor
  · intro h
    -- Joining what was split gives the text back.
    have hxs : [c].intercalate (xs.splitOn c) = xs := List.intercalate_splitOn c
    rw [h] at hxs
    exact ⟨by simpa [List.intercalate] using hxs.symm, not_mem_of_mem_splitOn (by rw [h]; simp),
      not_mem_of_mem_splitOn (by rw [h]; simp)⟩
  · rintro ⟨rfl, hl, hr⟩
    have h : ([c].intercalate [l, r]).splitOn c = [l, r] :=
      List.splitOn_intercalate c (by simp [hl, hr]) (by simp)
    simpa [List.intercalate] using h

/-- A reference is a table and a column, neither of them empty or with a dot, with a dot between
them. -/
theorem parse_eq_some_iff_append {text : String} {r : Reference} :
    Reference.parse text = some r ↔ ∃ table column : String, text = table ++ "." ++ column
      ∧ table ≠ "" ∧ column ≠ "" ∧ '.' ∉ table.toList ∧ '.' ∉ column.toList
      ∧ r = { table, columns := [column] } := by
  rw [Reference.parse_eq_some_iff]
  constructor
  -- What is read in characters is the same in texts.
  · rintro ⟨table, column, h, htable, hcolumn, rfl⟩
    obtain ⟨htext, hl, hr⟩ := splitOn_eq_pair_iff.1 h
    refine ⟨String.ofList table, String.ofList column, ?_, ?_, ?_, by simpa, by simpa, rfl⟩
    · apply String.toList_injective
      simp [htext]
    · simpa using htable
    · simpa using hcolumn
  · rintro ⟨table, column, rfl, htable, hcolumn, hl, hr, rfl⟩
    refine ⟨table.toList, column.toList, ?_, ?_, ?_, by simp⟩
    · rw [splitOn_eq_pair_iff]
      simp [hl, hr]
    · simpa using htable
    · simpa using hcolumn

/-- How a reference to one column is written. -/
def Relational.Reference.text? (r : Reference) : Option String :=
  match r.columns with
  | [column] => some (r.table ++ "." ++ column)
  | _ => none

/-- A reference is written as it was read. -/
theorem text?_of_parse {text : String} {r : Reference} (h : Reference.parse text = some r) :
    r.text? = some text := by
  obtain ⟨table, column, rfl, -, -, -, -, rfl⟩ := parse_eq_some_iff_append.1 h
  rfl

/-! ## Payloads -/

/-- The relational annotation of a field with these options can be decoded, to `c`. -/
def Plugin.Relates (options : Option FieldOptions) (c : FieldConstraints) : Prop :=
  ∃ o payload, options = some o ∧ o.relational = some payload
    ∧ Message.decode FieldConstraints payload = .ok c

/-- The validation rules of a field with these options can be decoded, to `r`. -/
def Plugin.Validates (options : Option FieldOptions) (r : FieldRules) : Prop :=
  ∃ o payload, options = some o ∧ o.validation = some payload
    ∧ Message.decode FieldRules payload = .ok r

/-- The relational annotation that is understood is the one that building reads. -/
theorem relates_iff {options : Option FieldOptions} {c : FieldConstraints} :
    Relates options c ↔ options.bind (·.relational?) = some c := by
  rw [Relates, Option.bind_eq_some_iff]
  simp only [FieldOptions.relational?_eq_some_iff, exists_and_left]

/-- The validation rules that are understood are those that building reads. -/
theorem validates_iff {options : Option FieldOptions} {r : FieldRules} :
    Validates options r ↔ options.bind (·.validation?) = some r := by
  -- Rules are there when there is a payload and it can be decoded.
  have hrules : ∀ o : FieldOptions, o.validation? = some r ↔
      ∃ payload, o.validation = some payload ∧ Message.decode FieldRules payload = .ok r := by
    intro o
    rw [FieldOptions.validation?, FieldOptions.decodeValidation]
    cases o.validation with
    | none => simp
    | some payload => cases h : Message.decode FieldRules payload <;> simp [h, Except.toOption]
  rw [Validates, Option.bind_eq_some_iff]
  simp only [hrules, exists_and_left]

/-- No payload is listed when each can be decoded. -/
theorem undecodable_eq_nil_iff {o : FieldOptions} : o.undecodable = [] ↔
    (∀ payload, o.relational = some payload →
      ∃ c, Message.decode FieldConstraints payload = .ok c)
    ∧ ∀ payload, o.validation = some payload →
      ∃ r, Message.decode FieldRules payload = .ok r := by
  rw [FieldOptions.undecodable, List.append_eq_nil_iff, FieldOptions.decodeRelational,
    FieldOptions.decodeValidation]
  -- Both annotations are looked at in the same way.
  apply and_congr
  · cases o.relational with
    | none => simp
    | some payload => cases h : Message.decode FieldConstraints payload <;> simp [h]
  · cases o.validation with
    | none => simp
    | some payload => cases h : Message.decode FieldRules payload <;> simp [h]

/-! ## Fields -/

namespace FieldNode

variable (field : FieldNode)

/-- A foreign key is neither of the other constraints. -/
theorem not_mem_foreignKeys {c : Constraint} (h : c.kind ≠ .foreignKey) (column : String)
    (r : Option Reference) : c ∉ (r.map (Constraint.foreignKey column)).toList := by
  intro hmem
  obtain ⟨r, -, rfl⟩ := Option.map_eq_some_iff.1 (Option.mem_toList.1 hmem)
  exact h rfl

/-- A unique constraint on its own column is what the mark of a field stands for. -/
theorem unique_mem_constraints_iff : Constraint.unique field.name ∈ field.constraints ↔
    field.relational?.bind (·.unique) = some true := by
  have hforeign := not_mem_foreignKeys (c := Constraint.unique field.name) nofun field.name
    (field.referenceText?.bind Reference.parse)
  rw [constraints, List.mem_append, List.mem_append, or_iff_left hforeign]
  simp [Constraint.unique, Constraint.primaryKey]

/-- A primary key on its own column is what the mark of a field stands for. -/
theorem primaryKey_mem_constraints_iff : Constraint.primaryKey field.name ∈ field.constraints ↔
    field.relational?.bind (·.primary) = some true := by
  have hforeign := not_mem_foreignKeys (c := Constraint.primaryKey field.name) nofun
    field.name (field.referenceText?.bind Reference.parse)
  rw [constraints, List.mem_append, List.mem_append, or_iff_left hforeign]
  simp [Constraint.unique, Constraint.primaryKey]

/-- The foreign key of a field is its reference, if that can be read. -/
theorem foreignKey_mem_constraints_iff {r : Reference} :
    Constraint.foreignKey field.name r ∈ field.constraints ↔
      field.referenceText?.bind Reference.parse = some r := by
  have hlist : ∀ o : Option Reference, Constraint.foreignKey field.name r
      ∈ (o.map (Constraint.foreignKey field.name)).toList ↔ o = some r := by
    intro o
    cases o <;> simp [Constraint.foreignKey, eq_comm]
  -- It is none of the constraints of marks, so it comes from the reference.
  have hunique : Constraint.foreignKey field.name r ≠ .unique field.name := by
    simp [Constraint.foreignKey, Constraint.unique]
  have hprimary : Constraint.foreignKey field.name r ≠ .primaryKey field.name := by
    simp [Constraint.foreignKey, Constraint.primaryKey]
  rw [constraints, List.mem_append, List.mem_append, hlist]
  simp [hunique, hprimary]

/-- All that a constraint of a field can be. -/
theorem mem_constraints {field : FieldNode} {c : Constraint} (h : c ∈ field.constraints) :
    c = .unique field.name ∨ c = .primaryKey field.name ∨ ∃ text r,
      Reference.parse text = some r ∧ c = .foreignKey field.name r := by
  rw [constraints, List.mem_append, List.mem_append] at h
  -- The parts are the unique constraint, the primary key and the foreign key, each if there is one.
  rcases h with (h | h) | h
  · split at h
    · exact .inl (List.mem_singleton.1 h)
    · cases h
  · split at h
    · exact .inr (.inl (List.mem_singleton.1 h))
    · cases h
  · obtain ⟨r, hr, rfl⟩ := Option.map_eq_some_iff.1 (Option.mem_toList.1 h)
    obtain ⟨text, -, hparse⟩ := Option.bind_eq_some_iff.1 hr
    exact .inr (.inr ⟨text, r, hparse, rfl⟩)

/-- Every constraint of a field can be written: it has a column, and its reference has one. -/
theorem definition_of_mem_constraints {field : FieldNode} {c : Constraint}
    (h : c ∈ field.constraints) (table : String) : ∃ line, c.definition table = .ok line := by
  rcases mem_constraints h with rfl | rfl | ⟨text, r, hr, rfl⟩
  · exact ⟨_, rfl⟩
  · exact ⟨_, rfl⟩
  -- A reference that was read has one column.
  · obtain ⟨target, column, -, -, -, -, -, rfl⟩ := parse_eq_some_iff_append.1 hr
    exact ⟨_, rfl⟩

/-- A field refers to nothing when it has neither a foreign key nor a problem with one. -/
theorem referenceText?_eq_none_iff : field.referenceText? = none ↔
    (∀ r, Constraint.foreignKey field.name r ∉ field.constraints)
      ∧ field.referenceProblem? = none := by
  simp only [foreignKey_mem_constraints_iff, referenceProblem?]
  cases field.referenceText? with
  | none => simp
  | some text => cases hparse : Reference.parse text <;> simp [hparse]

/-- A reference is no problem when it can be read. -/
theorem referenceProblem?_eq_none_iff : field.referenceProblem? = none ↔
    ∀ text, field.referenceText? = some text → ∃ r, Reference.parse text = some r := by
  rw [referenceProblem?]
  cases field.referenceText? with
  | none => simp
  | some text => cases h : Reference.parse text <;> simp [h]

/-- Of a pool, column types depend on the names of enums alone. -/
theorem columnType_eq_of_enumName {P Q : Pool} (h : enumName P = enumName Q) :
    field.columnType P = field.columnType Q := by
  rw [columnType, columnType, h]

/-- A column is no problem when the field has a column type and its payloads can be decoded. -/
theorem diagnostics_column?_eq_nil_iff (pool : Pool) (message : String) :
    (field.column? pool message).diagnostics = [] ↔
      (∃ type, field.columnType pool = .ok type) ∧ (field.options.getD {}).undecodable = [] := by
  rw [column?]
  cases field.columnType pool with
  | error fault => simp
  | ok type => simp [FieldOptions.annotate]

/-- A field with a column type has a column. -/
theorem exists_column? {pool : Pool} {type : ColumnType} (h : field.columnType pool = .ok type)
    (message : String) : ∃ column, (field.column? pool message).value = some column := by
  rw [column?, h]
  exact ⟨_, rfl⟩

/-- A column has the name of its field. -/
theorem name_of_column? {pool : Pool} {message : String} {column : Column}
    (h : (field.column? pool message).value = some column) : column.name = field.name := by
  rw [column?] at h
  split at h
  · cases h
  · rw [← Option.some.inj h]
    rfl

end FieldNode

end ProtoSchema
