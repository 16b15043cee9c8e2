import Mathlib.Data.List.Forall2
import ProtoSchema.Proofs.Build.Composition
import ProtoSchema.Proofs.Build.Fields
import ProtoSchema.Proofs.Build.WalkOrder

/-!
# Columns follow from fields

A column is determined by its field: the name, the type that the field has or `UUID`, `NOT NULL`
where one of the annotations asks for it, and the default as a literal of the type that the column
has in the end. What an annotation says is what its payload decodes to; one that cannot be decoded
says nothing.

Key results:
* `lacksType_iff` — the fields without a column
* `IsColumnOf.unique` — what a field says determines the column
* `isColumnOf_iff` — the column of a field is the one that fits the field
* `columns_of_fields` — the columns of the tables of a build
-/

namespace ProtoSchema

open Plugin Relational Wire

/-! ## What fields say -/

namespace Plugin.FieldDescriptor

/-- A field of a kind that has to name its type does not. -/
def LacksType (f : FieldDescriptor) : Prop :=
  (f.kind = some (Numbered.number FieldKind.enum)
      ∨ f.kind = some (Numbered.number FieldKind.message)
      ∨ f.kind = some (Numbered.number FieldKind.group))
    ∧ f.typeName.getD "" = ""

instance (f : FieldDescriptor) : Decidable f.LacksType :=
  inferInstanceAs (Decidable ((_ ∨ _ ∨ _) ∧ _))

end Plugin.FieldDescriptor

/-- A kind is found by its number and by no other. -/
theorem FieldKind.ofNumber?_eq_some_iff {n : Int32} {k : FieldKind} :
    Numbered.ofNumber? FieldKind n = some k ↔ n = Numbered.number k := by
  constructor
  · intro h
    have hnumber := List.find?_some h
    simpa using (beq_iff_eq.1 hnumber).symm
  · rintro rfl
    exact FieldKind.ofNumber?_number k

/-- The literal of a value: as it is for numbers and truth values; otherwise between quotes, with
each quote in it written twice. -/
def Relational.ColumnType.Writes (type : ColumnType) (value literal : String) : Prop :=
  if type = .integer ∨ type = .float ∨ type = .boolean then literal = value
  else literal.toList = ['\'']
    ++ value.toList.flatMap (fun c => if c = '\'' then ['\'', '\''] else [c]) ++ ['\'']

/-- A value has one literal of a type. -/
theorem writes_iff {type : ColumnType} {value literal : String} :
    type.Writes value literal ↔ literal = type.defaultLiteral value := by
  have hquote : literal.toList = (Sql.quote value).toList ↔ literal = Sql.quote value :=
    ⟨fun h => String.toList_injective h, fun h => h ▸ rfl⟩
  rw [Sql.toList_quote, Sql.doubled] at hquote
  cases type <;>
    simp [ColumnType.Writes, ColumnType.defaultLiteral, ColumnType.takesBareLiteral, ← hquote]

/-- What the column of a field has to be. -/
structure IsColumnOf (pool : Pool) (f : FieldDescriptor) (column : Column) : Prop where
  name : column.name = f.name.getD ""
  /-- Each of the annotations may make the column `NOT NULL`, and neither takes that back. -/
  notNull : column.notNull = true ↔ (∃ c, Relates f.options c ∧ c.primary = some true)
    ∨ ∃ r, Validates f.options r ∧ r.required = some true
  uuid : (∃ r s, Validates f.options r ∧ r.string = some s ∧ s.uuid = some true) →
    column.type = .uuid
  mapped : (¬∃ r s, Validates f.options r ∧ r.string = some s ∧ s.uuid = some true) →
    (FieldNode.ofDescriptor f).columnType pool = .ok column.type
  /-- A default is a literal of the type that the column has in the end. -/
  default : ∀ literal, column.default = some literal ↔
    ∃ c value, Relates f.options c ∧ c.defaultValue = some value ∧ value ≠ ""
      ∧ column.type.Writes value literal

/-! ## The column of a field -/

namespace Plugin.FieldDescriptor

variable {f : FieldDescriptor}

/-- The fields that lack a type are those without a column type. -/
theorem lacksType_iff (pool : Pool) :
    f.LacksType ↔ ∃ fault, (FieldNode.ofDescriptor f).columnType pool = .error fault := by
  have hkind : ∀ k : FieldKind, (FieldNode.ofDescriptor f).kind = some k ↔
      f.kind = some (Numbered.number k) := by
    intro k
    rw [FieldNode.ofDescriptor, Option.bind_eq_some_iff]
    simp only [FieldKind.ofNumber?_eq_some_iff, exists_eq_right]
  -- An empty type name counts as none.
  have htypeName : (FieldNode.ofDescriptor f).typeName = none ↔ f.typeName.getD "" = "" := by
    rw [FieldNode.ofDescriptor]
    cases f.typeName <;> simp [Option.filter]
  simp only [FieldNode.columnType_eq_error_iff, hkind, htypeName, LacksType]
  constructor
  · rintro ⟨hkinds, hname⟩
    exact ⟨_, rfl, hname, hkinds⟩
  · rintro ⟨-, -, hname, hkinds⟩
    exact ⟨hkinds, hname⟩

/-- A field that lacks no type has a column type in every pool. -/
theorem exists_columnType (hf : ¬f.LacksType) (pool : Pool) :
    ∃ type, (FieldNode.ofDescriptor f).columnType pool = .ok type := by
  cases htype : (FieldNode.ofDescriptor f).columnType pool with
  | error fault => exact absurd ((lacksType_iff pool).2 ⟨fault, htype⟩) hf
  | ok type => exact ⟨type, rfl⟩

end Plugin.FieldDescriptor

/-- The column of a field with a column type. -/
theorem value_column?_of_ok {pool : Pool} {f : FieldDescriptor} {type : ColumnType}
    (h : (FieldNode.ofDescriptor f).columnType pool = .ok type) (message : String) :
    ((FieldNode.ofDescriptor f).column? pool message).value
      = some (({ name := f.name.getD "", type } : Column).annotated
        (f.options.bind (·.relational?)) (f.options.bind (·.validation?))).withLiteral := by
  -- Without options there are no annotations either.
  have hrelational : (f.options.getD {}).relational? = f.options.bind (·.relational?) := by
    cases f.options <;> rfl
  have hvalidation : (f.options.getD {}).validation? = f.options.bind (·.validation?) := by
    cases f.options <;> rfl
  rw [← hrelational, ← hvalidation, FieldNode.column?, h]
  rfl

/-- The rules of a field ask for the type `UUID`. -/
theorem exists_uuid_iff {f : FieldDescriptor} :
    (∃ r s, Validates f.options r ∧ r.string = some s ∧ s.uuid = some true) ↔
      ((f.options.bind (·.validation?)).bind (·.string)).bind (·.uuid) = some true := by
  simp only [validates_iff, Option.bind_eq_some_iff]
  constructor
  · rintro ⟨r, s, hr, hs, huuid⟩
    exact ⟨s, ⟨r, hr, hs⟩, huuid⟩
  · rintro ⟨s, ⟨r, hr, hs⟩, huuid⟩
    exact ⟨r, s, hr, hs, huuid⟩

/-- An annotated column is that of its field. -/
theorem isColumnOf_annotated {pool : Pool} {f : FieldDescriptor} {type : ColumnType}
    (h : (FieldNode.ofDescriptor f).columnType pool = .ok type) :
    IsColumnOf pool f (({ name := f.name.getD "", type } : Column).annotated
      (f.options.bind (·.relational?)) (f.options.bind (·.validation?))).withLiteral where
  name := rfl
  notNull := by
    simp [Column.withLiteral, Column.annotated, relates_iff,
      validates_iff, Option.bind_eq_some_iff]
  uuid huuid := if_pos (exists_uuid_iff.1 huuid)
  mapped huuid := h.trans (congrArg _ (if_neg (mt exists_uuid_iff.2 huuid)).symm)
  default literal := by
    -- Without a relational annotation there is no default, whatever the rules say.
    simp only [writes_iff, relates_iff]
    cases hrelational : f.options.bind (·.relational?) with
    | none => simp [Column.withLiteral, Column.annotated]
    | some c => simp [Column.withLiteral, Column.annotated, and_assoc, @eq_comm _ literal]

/-- A field has no more than one column. -/
theorem IsColumnOf.unique {pool : Pool} {f : FieldDescriptor} {a b : Column}
    (ha : IsColumnOf pool f a) (hb : IsColumnOf pool f b) : a = b := by
  have hname : a.name = b.name := ha.name.trans hb.name.symm
  -- The default is compared last, since how it is written depends on the type.
  have htype : a.type = b.type := by
    by_cases huuid : ∃ r s, Validates f.options r ∧ r.string = some s ∧ s.uuid = some true
    · rw [ha.uuid huuid, hb.uuid huuid]
    · exact Except.ok.inj ((ha.mapped huuid).symm.trans (hb.mapped huuid))
  have hnotNull : a.notNull = b.notNull := Bool.eq_iff_iff.2 (ha.notNull.trans hb.notNull.symm)
  have hdefault : a.default = b.default := by
    refine Option.ext fun literal => ?_
    rw [ha.default literal, hb.default literal, htype]
  cases a
  cases b
  rw [Column.mk.injEq]
  exact ⟨hname, htype, hnotNull, hdefault⟩

/-- A field that does not lack a type has the one column that fits it. -/
theorem isColumnOf_iff {pool : Pool} {f : FieldDescriptor} (hf : ¬f.LacksType) (message : String)
    {column : Column} : IsColumnOf pool f column ↔
      ((FieldNode.ofDescriptor f).column? pool message).value = some column := by
  obtain ⟨type, htype⟩ := FieldDescriptor.exists_columnType hf pool
  have hcolumn := isColumnOf_annotated htype
  rw [value_column?_of_ok htype, Option.some.injEq]
  exact ⟨fun h => hcolumn.unique h, fun h => h ▸ hcolumn⟩

/-- A field that lacks a type has no column. -/
theorem value_column?_of_lacksType {f : FieldDescriptor} (hf : f.LacksType) (pool : Pool)
    (message : String) : ((FieldNode.ofDescriptor f).column? pool message).value = none := by
  obtain ⟨fault, hfault⟩ := (FieldDescriptor.lacksType_iff pool).1 hf
  rw [FieldNode.column?, hfault]

/-! ## The columns of a table -/

/-- The columns of a table are the only ones that fit the fields. -/
theorem forall₂_isColumnOf_iff (pool : Pool) (message : String) (fields : List FieldDescriptor)
    (columns : List Column) :
    List.Forall₂ (IsColumnOf pool) (fields.filter (¬·.LacksType)) columns ↔
      columns = (fields.map FieldNode.ofDescriptor).filterMap
        fun field => (field.column? pool message).value := by
  induction fields generalizing columns with
  | nil => simp
  | cons f fields ih =>
    rw [List.map_cons, List.filterMap_cons]
    -- A field that lacks a type is left out on both sides.
    by_cases hf : f.LacksType
    · rw [List.filter_cons_of_neg (by simpa using hf), value_column?_of_lacksType hf, ih]
    · rw [List.filter_cons_of_pos (by simpa using hf), List.forall₂_cons_left_iff]
      simp only [isColumnOf_iff hf message, ih]
      obtain ⟨type, htype⟩ := FieldDescriptor.exists_columnType hf pool
      obtain ⟨column, hcolumn⟩ := (FieldNode.ofDescriptor f).exists_column? htype message
      rw [hcolumn]
      constructor
      · rintro ⟨b, u, hb, rfl, rfl⟩
        rw [Option.some.inj hb]
      · rintro rfl
        exact ⟨column, _, rfl, rfl, rfl⟩

/-- The columns of the tables that are built. Each table has, in the order of the fields, one column
for each field that does not lack a type: the column with the name of the field that is `NOT NULL`
where an annotation asks for it, has the type of the field or `UUID`, and has the default of the
relational annotation as a literal of this type. No other columns fit the fields. -/
theorem columns_of_fields (files : List FileDescriptor) (requested : List String) :
    let pool := Pool.ofFiles files
    List.Forall₂ (fun v table => table.name = v.2.shortName ∧ ∀ columns : List Column,
        List.Forall₂ (IsColumnOf pool) (v.2.fields.filter (¬·.LacksType)) columns
          ↔ columns = table.columns)
      (declaredTables files requested) (pool.built requested).schema.tables := by
  intro pool
  have htables : (pool.built requested).schema.tables
      = (declaredTables files requested).map (·.2.table pool) := tables_ofFiles files requested
  rw [htables, List.forall₂_map_right_iff, List.forall₂_same]
  intro v _
  exact ⟨rfl, forall₂_isColumnOf_iff pool v.2.shortName v.2.fields⟩

/-- The default of a field of numbers is quoted when the rules make its column a `UUID`. -/
example :
    let field : FieldDescriptor := {
      name := some "token"
      kind := some (Numbered.number FieldKind.int32)
      options := some {
        relational := some
          (Message.encode ({ defaultValue := some "it's" } : FieldConstraints))
        validation := some
          (Message.encode ({ string := some { uuid := some true } } : FieldRules)) } }
    ((FieldNode.ofDescriptor field).column? {} "Session").value
      = some { name := "token", type := .uuid, default := some "'it''s'" } := by
  decide +kernel

end ProtoSchema
