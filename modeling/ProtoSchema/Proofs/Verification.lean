import ProtoSchema.Generation.SchemaDocument
import ProtoSchema.Proofs.Relational.Lookup
import ProtoSchema.Proofs.Sql.DefinitionReading

/-!
# Verification of definitions

The catalog of a schema's own definitions has an entry for each table, and the entry says all that
verification compares. So a schema passes against the definitions of another one exactly when each
of its tables has a counterpart there.

Key results:
* `find?_schemaStatements` — the entry of each table
* `check_schemaStatements_eq_ok_iff` — which schemas pass against the statements of a schema
* `verify_tableDefinitions_eq_ok_iff` — which schemas pass against the definitions of a schema
-/

namespace ProtoSchema

open Relational Sql

/-! ## The entry of a table -/

/-- The entry that the statements of a table leave behind. A reference is written with foreign keys
only. -/
def Sql.TableEntry.written (t : Table) : TableEntry where
  name := t.name
  columns := t.columns.map fun c => (c.name, !c.notNull)
  primaryKeys := t.columnsOf .primaryKey
  foreignKeys :=
    (t.constraints.filter (·.kind = .foreignKey)).filterMap ForeignKey.ofConstraint?
  uniques := t.columnsOf .unique
  indexes := t.indexes

/-- A name of one part is written as that part. -/
theorem dotted_unquoted (n : String) : Name.dotted [unquoted n] = n := by
  simp [Name.dotted, unquoted]

/-- A name as an element of a key list is written as it is. -/
theorem columnText_keyElement (n : String) : (keyElement n).columnText = n := by
  rw [KeyElement.columnText, keyElement, Expression.text_name, unquoted, Name.text_of_unquoted]
  exact String.append_empty

/-- A whole element of a key list is written as its name, too. -/
theorem text_keyElement (n : String) : (keyElement n).text = n := by
  rw [KeyElement.text, columnText_keyElement]
  exact String.append_empty

/-- The primary key that is read back from a constraint. -/
theorem primaryKey_constraintOf (c : Constraint) :
    (constraintOf? c).bind (·.primaryKey?)
      = if c.kind = .primaryKey then some c.columns else none := by
  obtain ⟨kind, columns, reference⟩ := c
  cases kind with
  | primaryKey =>
    simp [constraintOf?, TableConstraint.primaryKey?, Function.comp_def, text_keyElement]
  | unique => rfl
  | foreignKey => cases reference <;> rfl

/-- The unique columns that are read back from a constraint. -/
theorem unique_constraintOf (c : Constraint) :
    (constraintOf? c).bind (·.unique?) = if c.kind = .unique then some c.columns else none := by
  obtain ⟨kind, columns, reference⟩ := c
  cases kind with
  | primaryKey => rfl
  | unique => simp [constraintOf?, TableConstraint.unique?, Function.comp_def, text_keyElement]
  | foreignKey => cases reference <;> rfl

/-- The foreign key that is read back from a constraint. -/
theorem foreignKey_constraintOf (c : Constraint) :
    (constraintOf? c).bind (·.foreignKey?)
      = if c.kind = .foreignKey then ForeignKey.ofConstraint? c else none := by
  obtain ⟨kind, columns, reference⟩ := c
  have hnames : ∀ names : List String, (names.map unquoted).map Name.text = names := by
    simp [Function.comp_def, unquoted]
  cases kind with
  | primaryKey => rfl
  | unique => rfl
  | foreignKey =>
    cases reference with
    | none => rfl
    | some r =>
      simp only [constraintOf?, Option.map_some, Option.bind_some, TableConstraint.foreignKey?,
        referenceOf, hnames, dotted_unquoted]
      rfl

/-- What is read back from constraints of one kind is read back from all constraints. -/
theorem filterMap_constraintOf {α : Type} {kind : ConstraintKind}
    {read : TableConstraint → Option α} {value : Constraint → Option α}
    (h : ∀ c, (constraintOf? c).bind read = if c.kind = kind then value c else none)
    (cs : List Constraint) :
    (cs.filterMap constraintOf?).filterMap read
      = (cs.filter (·.kind = kind)).filterMap value := by
  rw [List.filterMap_filterMap, funext h, List.filterMap_filter]
  simp

/-- The statement of a table leaves the entry of the table without its indexes. -/
theorem ofDefinition_tableStatement (t : Table) :
    TableEntry.ofDefinition [unquoted t.name] (t.columns.map columnOf)
      (t.constraints.filterMap constraintOf?) = { TableEntry.written t with indexes := [] } := by
  have hcolumns : (t.columns.map columnOf).map (fun c => (c.name.text, !c.notNull))
      = t.columns.map fun c => (c.name, !c.notNull) := by
    rw [List.map_map]
    rfl
  -- The three lists pick the constraints of one kind each, in the order of the table.
  have hprimary : (t.constraints.filterMap constraintOf?).filterMap (·.primaryKey?)
      = t.columnsOf .primaryKey := by
    rw [filterMap_constraintOf primaryKey_constraintOf, Table.columnsOf, List.filterMap_eq_map']
  have hunique : (t.constraints.filterMap constraintOf?).filterMap (·.unique?)
      = t.columnsOf .unique := by
    rw [filterMap_constraintOf unique_constraintOf, Table.columnsOf, List.filterMap_eq_map']
  have hforeign : (t.constraints.filterMap constraintOf?).filterMap (·.foreignKey?)
      = (t.constraints.filter (·.kind = .foreignKey)).filterMap ForeignKey.ofConstraint? :=
    filterMap_constraintOf foreignKey_constraintOf t.constraints
  rw [TableEntry.ofDefinition, TableEntry.written, dotted_unquoted, hcolumns, hprimary, hunique,
    hforeign]

/-! ## The catalog of a schema -/

/-- The table statements of a schema leave an entry for each table. -/
theorem find?_tables {tables : List Table} (hnames : (tables.map (·.name)).Nodup)
    (catalog : Catalog) (name : String) :
    ((tables.map tableStatement).foldl Catalog.apply catalog).find? name
      = ((tables.find? (·.name == name)).map
          fun t => { TableEntry.written t with indexes := [] }).or (catalog.find? name) := by
  induction tables generalizing catalog with
  | nil => rfl
  | cons t tables ih =>
    obtain ⟨hnew, hnames⟩ := List.nodup_cons.1 hnames
    have happly : catalog.apply (tableStatement t)
        = catalog.insert { TableEntry.written t with indexes := [] } := by
      rw [tableStatement, Catalog.apply, ofDefinition_tableStatement]
    -- A later statement would replace the entry, if it were for the same name.
    rw [List.map_cons, List.foldl_cons, happly, ih hnames, Catalog.find?_insert, List.find?_cons]
    by_cases hname : t.name = name
    · -- No table behind this one has its name.
      have hnone : tables.find? (·.name == name) = none := by
        rw [List.find?_eq_none]
        intro u hu hu'
        exact hnew (List.mem_map.2 ⟨u, hu, (beq_iff_eq.1 hu').trans hname.symm⟩)
      simp [hnone, hname, TableEntry.written]
    · have hbeq : (t.name == name) = false := by simpa using hname
      have hinsert : ({ TableEntry.written t with indexes := [] } : TableEntry).name ≠ name := hname
      rw [hbeq, if_neg hinsert]

/-- The index statements of one table add its indexes to its entry. -/
theorem find?_tableIndexes (table : String) (indexes : List Index) (catalog : Catalog)
    (name : String) :
    ((indexes.map (indexStatement table)).foldl Catalog.apply catalog).find? name
      = (catalog.find? name).map fun entry =>
        if entry.name = table then { entry with indexes := entry.indexes ++ indexes }
        else entry := by
  induction indexes generalizing catalog with
  | nil => simp
  | cons i indexes ih =>
    have hcolumns : (i.columns.map keyElement).map KeyElement.columnText = i.columns := by
      simp [Function.comp_def, columnText_keyElement]
    -- The statement of an index adds that very index to the table.
    have happly : catalog.apply (indexStatement table i) = catalog.addIndex table i := by
      rw [indexStatement, Catalog.apply, dotted_unquoted, dotted_unquoted, hcolumns]
    rw [List.map_cons, List.foldl_cons, happly, ih, Catalog.find?_addIndex, Option.map_map]
    congr 1
    funext entry
    by_cases h : entry.name = table <;> simp [h]

/-- The index statements of a schema add indexes to the entries of their tables. -/
theorem find?_indexes (tables : List Table) (catalog : Catalog) (name : String) :
    ((tables.flatMap fun t => t.indexes.map (indexStatement t.name)).foldl Catalog.apply
      catalog).find? name
      = (catalog.find? name).map fun entry =>
        let added := (tables.filter (·.name = entry.name)).flatMap (·.indexes)
        { entry with indexes := entry.indexes ++ added } := by
  induction tables generalizing catalog with
  | nil => simp
  | cons t tables ih =>
    rw [List.flatMap_cons, List.foldl_append, ih, find?_tableIndexes, Option.map_map]
    congr 1
    funext entry
    -- The indexes of `t` go to the entry of its name and to no other.
    by_cases h : entry.name = t.name
    · simp [h]
    · simp [h, Ne.symm h]

/-- The statements of a schema leave one entry for each table. -/
theorem find?_schemaStatements {schema : Schema} (hnames : (schema.tables.map (·.name)).Nodup)
    (name : String) :
    (Catalog.ofStatements (schemaStatements schema)).find? name
      = (schema.table? name).map TableEntry.written := by
  rw [Catalog.ofStatements, schemaStatements, List.foldl_append, find?_indexes,
    find?_tables hnames, Schema.table?]
  have hempty : Catalog.find? {} name = none := rfl
  rw [hempty, Option.or_none, Option.map_map]
  cases ht : schema.tables.find? (·.name == name) with
  | none => rfl
  | some t =>
    -- The indexes that are added to the entry are those of this one table.
    have hfilter := filter_name_eq hnames (List.mem_of_find?_eq_some ht)
    simp [TableEntry.written, hfilter]

/-! ## Which schemas pass -/

/-- The table `t` is the table `u` as far as verification can tell: the columns with whether they
may be null, the keys, the references and the indexes are the same, each in order, and there is one
primary key at most. The references of `u` are those of its foreign keys, since other constraints
are written without theirs. -/
structure Relational.Table.Matches (t u : Table) : Prop where
  name : u.name = t.name
  columns : t.columns.map (fun c => (c.name, c.notNull))
    = u.columns.map fun c => (c.name, c.notNull)
  primaryKeys : t.columnsOf .primaryKey = u.columnsOf .primaryKey
  onePrimaryKey : (t.columnsOf .primaryKey).length ≤ 1
  uniques : t.columnsOf .unique = u.columnsOf .unique
  references : t.constraints.filterMap ForeignKey.ofConstraint?
    = (u.constraints.filter (·.kind = .foreignKey)).filterMap ForeignKey.ofConstraint?
  indexes : t.indexes = u.indexes

/-- Whether columns may be null says whether they are `NOT NULL`. -/
theorem columns_eq_iff (cs ds : List Column) :
    (cs.map fun c => (c.name, !c.notNull)) = (ds.map fun c => (c.name, !c.notNull))
      ↔ (cs.map fun c => (c.name, c.notNull)) = ds.map fun c => (c.name, c.notNull) := by
  have hmap : ∀ es : List Column, (es.map fun c => (c.name, !c.notNull))
      = (es.map fun c => (c.name, c.notNull)).map fun p => (p.1, !p.2) := by
    simp [Function.comp_def]
  -- Negating the flag loses nothing.
  have hinjective : Function.Injective fun p : String × Bool => (p.1, !p.2) := by
    rintro ⟨a, b⟩ ⟨c, d⟩ h
    simpa using h
  rw [hmap, hmap]
  exact (List.map_injective_iff.2 hinjective).eq_iff

/-- A table passes against the entry of another one exactly when the two match. -/
theorem checkTable_written_eq_ok_iff {t u : Table} (hname : u.name = t.name) :
    checkTable t (TableEntry.written u) = .ok () ↔ t.Matches u := by
  rw [checkTable_eq_ok_iff]
  simp only [TableEntry.written, TableEntry.ofTable, TableEntry.mk.injEq, true_and]
  -- The catalog keeps whether a column may be null, the table that it may not.
  rw [columns_eq_iff]
  constructor
  · rintro ⟨⟨hcolumns, hprimary, hforeign, hunique, hindexes⟩, hone⟩
    exact ⟨hname, hcolumns.symm, hprimary.symm, hone, hunique.symm, hforeign.symm, hindexes.symm⟩
  · intro h
    exact ⟨⟨h.columns.symm, h.primaryKeys.symm, h.references.symm, h.uniques.symm,
      h.indexes.symm⟩, h.onePrimaryKey⟩

/-- A check of all elements succeeds when it succeeds on each. -/
theorem forM_eq_ok_iff {α ε : Type} (f : α → Except ε Unit) (xs : List α) :
    xs.forM f = .ok () ↔ ∀ x ∈ xs, f x = .ok () := by
  induction xs with
  | nil => simp [pure, Except.pure]
  | cons x xs ih =>
    have hcons : (x :: xs).forM f = f x >>= fun _ => xs.forM f := rfl
    rw [hcons, List.forall_mem_cons, ← ih]
    cases f x with
    | error e => simp [bind, Except.bind]
    | ok _ => simp [bind, Except.bind]

/-- A schema passes when each of its tables has an entry that it passes against. -/
theorem check_eq_ok_iff (schema : Schema) (catalog : Catalog) :
    schema.check catalog = .ok () ↔ ∀ t ∈ schema.tables,
      ∃ entry, catalog.find? t.name = some entry ∧ checkTable t entry = .ok () := by
  rw [Schema.check, forM_eq_ok_iff]
  refine forall₂_congr fun t _ => ?_
  cases catalog.find? t.name with
  | none => simp
  | some entry => cases h : checkTable t entry <;> simp [h, Except.mapError]

/-- A result in other words for its errors is the result. -/
theorem mapError_eq_ok {α ε ε' : Type} {x : Except ε α} {f : ε → ε'} {a : α} :
    x.mapError f = .ok a ↔ x = .ok a := by
  cases x <;> simp [Except.mapError]

/-- To verify against the definitions of a schema is to check against the catalog of its
statements. -/
theorem verify_tableDefinitions {schema : Schema} {definitions : List String}
    (hplain : ∀ t ∈ schema.tables, IsPlainTable t)
    (h : schema.tableDefinitions = .ok definitions) (asked : Schema) :
    asked.verify (String.join definitions)
      = (asked.check (Catalog.ofStatements (schemaStatements schema))).mapError Error.verify := by
  rw [Schema.verify, Schema.verifyWith, Catalog.readWith, ofScript_tableDefinitions hplain h]
  rfl

/-- A schema passes against the statements of another schema exactly when each of its tables matches
a table there. -/
theorem check_schemaStatements_eq_ok_iff {schema : Schema}
    (hnames : (schema.tables.map (·.name)).Nodup) (asked : Schema) :
    asked.check (Catalog.ofStatements (schemaStatements schema)) = .ok ()
      ↔ ∀ t ∈ asked.tables, ∃ u ∈ schema.tables, t.Matches u := by
  rw [check_eq_ok_iff]
  refine forall₂_congr fun t _ => ?_
  -- The entry of that name is the one written for a table of the schema.
  rw [find?_schemaStatements hnames]
  constructor
  · rintro ⟨entry, hentry, hcheck⟩
    obtain ⟨u, hu, rfl⟩ := Option.map_eq_some_iff.1 hentry
    obtain ⟨humem, huname⟩ := (table?_eq_some_iff hnames).1 hu
    exact ⟨u, humem, (checkTable_written_eq_ok_iff huname).1 hcheck⟩
  · rintro ⟨u, humem, hmatch⟩
    have hu := (table?_eq_some_iff hnames).2 ⟨humem, hmatch.name⟩
    refine ⟨TableEntry.written u, by rw [hu]; rfl, ?_⟩
    exact (checkTable_written_eq_ok_iff hmatch.name).2 hmatch

/-- A schema passes against the definitions of another schema exactly when each of its tables
matches a table there. -/
theorem verify_tableDefinitions_eq_ok_iff {schema : Schema} {definitions : List String}
    (hplain : ∀ t ∈ schema.tables, IsPlainTable t)
    (hnames : (schema.tables.map (·.name)).Nodup)
    (h : schema.tableDefinitions = .ok definitions) (asked : Schema) :
    asked.verify (String.join definitions) = .ok ()
      ↔ ∀ t ∈ asked.tables, ∃ u ∈ schema.tables, t.Matches u := by
  rw [verify_tableDefinitions hplain h, mapError_eq_ok, check_schemaStatements_eq_ok_iff hnames]

/-- Two tables with a reference between them, a default with a quote in it, and a unique index. -/
def librarySchema : Schema where
  tables := [
    { name := "author"
      columns := [⟨"id", .serial, true, none⟩, ⟨"bio", .text, false, some "'it''s'"⟩]
      constraints := [Constraint.primaryKey "id", Constraint.unique "bio"] },
    { name := "book"
      columns := [⟨"id", .integer, true, some "7"⟩, ⟨"genre", .enum "Genre", true, none⟩]
      constraints := [Constraint.foreignKey "id" ⟨"author", ["id"], .cascade, .noAction⟩]
      indexes := [⟨"book_genre", ["genre", "id"], true⟩] }]

/-- All names and defaults of the two tables are plain. -/
theorem isPlainTable_librarySchema : ∀ t ∈ librarySchema.tables, IsPlainTable t := by
  have hnames : ∀ n ∈ ["author", "book", "id", "bio", "genre", "Genre", "book_genre"],
      isPlainName n = true := by decide +kernel
  have hquoted : IsPlainDefault "'it''s'" := .inl ⟨.text, "it's", rfl, rfl⟩
  have hdigits : IsPlainDefault "7" := .inr (.inl ⟨by decide, List.all_eq_true.1 (by decide)⟩)
  intro t ht
  simp only [librarySchema, List.mem_cons, List.not_mem_nil, or_false] at ht
  -- The two tables in turn: names, columns, constraints and indexes.
  rcases ht with rfl | rfl
  · refine ⟨hnames _ (by decide), ?_, ?_, by simp⟩
    · intro c hc
      simp only [List.mem_cons, List.not_mem_nil, or_false] at hc
      rcases hc with rfl | rfl
      · exact ⟨hnames _ (by decide), by simp, by simp⟩
      · exact ⟨hnames _ (by decide), by simp, by simpa using hquoted⟩
    · intro c hc
      simp only [List.mem_cons, List.not_mem_nil, or_false] at hc
      rcases hc with rfl | rfl
      · exact ⟨by simp [Constraint.primaryKey, hnames], by simp [Constraint.primaryKey]⟩
      · exact ⟨by simp [Constraint.unique, hnames], by simp [Constraint.unique]⟩
  · refine ⟨hnames _ (by decide), ?_, ?_, ?_⟩
    · intro c hc
      simp only [List.mem_cons, List.not_mem_nil, or_false] at hc
      rcases hc with rfl | rfl
      · exact ⟨hnames _ (by decide), by simp, by simpa using hdigits⟩
      · exact ⟨hnames _ (by decide), by simp [hnames], by simp⟩
    · intro c hc
      rw [List.mem_singleton.1 hc]
      exact ⟨by simp [Constraint.foreignKey, hnames], by simp [Constraint.foreignKey, hnames]⟩
    · intro i hi
      rw [List.mem_singleton.1 hi]
      exact ⟨hnames _ (by decide), by simp [hnames]⟩

/-- A schema with plain names and defaults passes against its own definitions. -/
theorem verify_librarySchema : ∃ definitions, librarySchema.tableDefinitions = .ok definitions
    ∧ librarySchema.verify (String.join definitions) = .ok () := by
  refine ⟨_, rfl, (verify_tableDefinitions_eq_ok_iff isPlainTable_librarySchema (by decide) rfl
    librarySchema).2 fun t ht => ⟨t, ht, ?_⟩⟩
  simp only [librarySchema, List.mem_cons, List.not_mem_nil, or_false] at ht
  rcases ht with rfl | rfl <;> exact ⟨rfl, rfl, rfl, by decide, rfl, rfl, rfl⟩

end ProtoSchema
