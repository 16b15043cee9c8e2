import ProtoSchema.Proofs.Verification
import ProtoSchema.Relational.Edit

/-!
# Changed tables

Verification compares the columns, keys, references and indexes of a table, each in order. So it
notices every single change to a table that adds or removes one of them: the numbers of them differ.
A foreign key without a reference is no part of a table that is compared.

Key results:
* `parts_apply_ne` — a change that is seen changes the number of parts
* `verify_editTable_eq_ok_iff` — which changed schemas pass against the definitions as they were
-/

namespace ProtoSchema

open Relational Sql

/-! ## Parts of a table -/

/-- How many parts of a table verification compares. -/
def Relational.Table.parts (t : Table) : Nat :=
  t.columns.length + (t.columnsOf .primaryKey).length + (t.columnsOf .unique).length
    + (t.constraints.filterMap ForeignKey.ofConstraint?).length + t.indexes.length

/-- A table that matches a table of the definitions has as many parts. -/
theorem parts_eq_of_matches {t u : Table} (h : t.Matches u) (hu : u.Matches u) :
    t.parts = u.parts := by
  have hcolumns := congrArg List.length h.columns
  rw [List.length_map, List.length_map] at hcolumns
  -- The references of the definitions are those of foreign keys, which are all that `u` has.
  rw [Table.parts, Table.parts, hcolumns, h.primaryKeys, h.uniques,
    h.references.trans hu.references.symm, h.indexes]

/-- A constraint is compared, unless it is a foreign key without a reference. -/
def Relational.Constraint.IsCompared (c : Constraint) : Prop :=
  c.kind = .foreignKey → c.reference.isSome

/-- A table with one more constraint that is compared has more parts. -/
theorem parts_lt_of_isCompared {c : Constraint} (h : c.IsCompared) (t : Table)
    (cs : List Constraint) :
    { t with constraints := cs }.parts < { t with constraints := cs ++ [c] }.parts := by
  obtain ⟨kind, columns, reference⟩ := c
  simp only [Table.parts, Table.columnsOf, List.filter_append, List.map_append,
    List.filterMap_append, List.length_append]
  cases kind with
  | primaryKey => simp; omega
  | unique => simp; omega
  -- A foreign key counts only through its reference, which a compared one has.
  | foreignKey =>
    obtain ⟨r, rfl⟩ := Option.isSome_iff_exists.1 (h rfl)
    have hkey : [Constraint.mk .foreignKey columns (some r)].filterMap ForeignKey.ofConstraint?
        = [⟨columns, r.table, r.columns, some r.onDelete, some r.onUpdate⟩] := rfl
    rw [hkey, List.length_singleton]
    omega

/-- A constraint that is not compared is left out of all that is. -/
theorem matches_append_of_not_isCompared {t u : Table} {c : Constraint} (hc : ¬c.IsCompared)
    (h : t.Matches u) : { t with constraints := t.constraints ++ [c] }.Matches u := by
  obtain ⟨hkind, hreference⟩ := Classical.not_imp.1 hc
  -- The constraint is a foreign key without a reference: it is in none of the three lists.
  have hkeys : ∀ kind, kind ≠ .foreignKey →
      { t with constraints := t.constraints ++ [c] }.columnsOf kind = t.columnsOf kind := by
    intro kind hne
    simp [Table.columnsOf, List.filter_append, hkind, hne.symm]
  have hreferences : (t.constraints ++ [c]).filterMap ForeignKey.ofConstraint?
      = t.constraints.filterMap ForeignKey.ofConstraint? := by
    have hnone : ForeignKey.ofConstraint? c = none := by
      rw [ForeignKey.ofConstraint?, Option.not_isSome_iff_eq_none.1 hreference, Option.map_none]
    rw [List.filterMap_append, List.filterMap_cons_none hnone, List.filterMap_nil, List.append_nil]
  exact {
    name := h.name
    columns := h.columns
    primaryKeys := (hkeys _ (by decide)).trans h.primaryKeys
    onePrimaryKey := by
      rw [hkeys _ (by decide)]
      exact h.onePrimaryKey
    uniques := (hkeys _ (by decide)).trans h.uniques
    references := hreferences.trans h.references
    indexes := h.indexes }

/-! ## Changes -/

/-- The change adds or removes something that is compared. -/
def Relational.TableEdit.IsSeen (t : Table) : TableEdit → Prop
  | addColumn _ | addIndex _ => True
  | addConstraint c => c.IsCompared
  | popConstraint => t.constraints ≠ []
  | popColumn => t.columns ≠ []

variable {t : Table} {edit : TableEdit}

/-- A change that is seen changes the number of parts. -/
theorem parts_apply_ne (hcompared : ∀ c ∈ t.constraints, c.IsCompared) (h : edit.IsSeen t) :
    (edit.apply t).parts ≠ t.parts := by
  cases edit with
  | addColumn column =>
    simp only [TableEdit.apply, Table.parts, Table.columnsOf, List.length_append,
      List.length_singleton]
    omega
  | addIndex index =>
    simp only [TableEdit.apply, Table.parts, Table.columnsOf, List.length_append,
      List.length_singleton]
    omega
  | addConstraint c => exact Nat.ne_of_gt (parts_lt_of_isCompared h t t.constraints)
  | popConstraint =>
    -- What is removed is compared, as it was when it was added.
    have hsplit := List.dropLast_append_getLast h
    have hlast := hcompared _ (List.getLast_mem h)
    have hlt := parts_lt_of_isCompared hlast t t.constraints.dropLast
    rw [hsplit] at hlt
    exact Nat.ne_of_lt hlt
  | popColumn =>
    have hpos := List.length_pos_iff.2 h
    simp only [TableEdit.apply, Table.parts, Table.columnsOf, List.length_dropLast]
    omega

/-- A change that is not seen leaves a table that matches. -/
theorem matches_apply {u : Table} (h : t.Matches u) (hseen : ¬edit.IsSeen t) :
    (edit.apply t).Matches u := by
  -- What is not seen is a constraint that is not compared, or taking from an empty list.
  cases edit with
  | addColumn | addIndex => exact absurd trivial hseen
  | addConstraint c => exact matches_append_of_not_isCompared hseen h
  | popConstraint =>
    have hnil : t.constraints = [] := Classical.not_not.1 hseen
    rwa [TableEdit.apply, hnil, List.dropLast_nil, ← hnil]
  | popColumn =>
    have hnil : t.columns = [] := Classical.not_not.1 hseen
    rwa [TableEdit.apply, hnil, List.dropLast_nil, ← hnil]

/-- The tables of a schema after a change are those it had, and the changed one. -/
theorem mem_editFirst {name : String} {tables : List Table} {u : Table}
    (h : u ∈ Schema.editFirst name edit tables) :
    u ∈ tables ∨ ∃ t ∈ tables, tables.find? (·.name == name) = some t ∧ u = edit.apply t := by
  induction tables with
  | nil => cases h
  | cons t tables ih =>
    by_cases hname : t.name = name
    -- The first table of the name is edited, and those behind it are left alone.
    · rw [Schema.editFirst, if_pos hname] at h
      rcases List.mem_cons.1 h with rfl | h
      · exact .inr ⟨t, List.mem_cons_self, by simp [hname], rfl⟩
      · exact .inl (List.mem_cons_of_mem t h)
    · rw [Schema.editFirst, if_neg hname] at h
      rcases List.mem_cons.1 h with rfl | h
      · exact .inl List.mem_cons_self
      · rcases ih h with h | ⟨u', hu', hfind, rfl⟩
        · exact .inl (List.mem_cons_of_mem t h)
        · exact .inr ⟨u', List.mem_cons_of_mem t hu', by simp [hname, hfind], rfl⟩

/-! ## Verification -/

/-- All constraints are compared, where the definitions of a schema can be written. -/
theorem isCompared_of_tableDefinitions {schema : Schema} {definitions : List String}
    (h : schema.tableDefinitions = .ok definitions) :
    ∀ t ∈ schema.tables, ∀ c ∈ t.constraints, c.IsCompared := by
  intro t ht c hc
  obtain ⟨texts, indexes, htables, -, -⟩ := tableDefinitions_eq_ok h
  obtain ⟨text, htext⟩ := exists_of_forall₂ htables t ht
  obtain ⟨lines, hlines, -⟩ := table_definition_eq_ok htext
  obtain ⟨line, hline⟩ := exists_of_forall₂ hlines c hc
  -- Rendering refuses a foreign key without a reference.
  obtain ⟨-, ⟨hkind, -⟩ | ⟨hkind, -⟩ | ⟨-, r, hr, -⟩⟩ := definition_eq_ok hline
  · exact fun h => nomatch hkind.symm.trans h
  · exact fun h => nomatch hkind.symm.trans h
  · exact fun _ => by rw [hr]; rfl

/-- A schema that passes against its own definitions passes after a change to one of its tables
exactly when the change is not seen. -/
theorem verify_editTable_eq_ok_iff {schema : Schema} {definitions : List String}
    (hplain : ∀ t ∈ schema.tables, IsPlainTable t)
    (hnames : (schema.tables.map (·.name)).Nodup)
    (h : schema.tableDefinitions = .ok definitions)
    (hpasses : schema.verify (String.join definitions) = .ok ()) {name : String}
    (ht : schema.table? name = some t) :
    (schema.editTable name edit).verify (String.join definitions) = .ok () ↔ ¬edit.IsSeen t := by
  rw [verify_tableDefinitions hplain h, mapError_eq_ok, check_schemaStatements_eq_ok_iff hnames]
    at hpasses ⊢
  obtain ⟨htmem, htname⟩ := (table?_eq_some_iff hnames).1 ht
  -- Of the tables of the definitions, only the table itself has its name.
  have hsame : ∀ u ∈ schema.tables, u.name = t.name → u = t := fun u hu huname =>
    Option.some.inj (((table?_eq_some_iff hnames).2 ⟨hu, huname.trans htname⟩).symm.trans ht)
  have hself : t.Matches t := by
    obtain ⟨u, hu, hmatch⟩ := hpasses t htmem
    rwa [hsame u hu hmatch.name] at hmatch
  constructor
  · intro hedited hseen
    have hfound := Schema.table?_editTable schema name edit
    rw [ht, Option.map_some] at hfound
    obtain ⟨u, hu, hmatch⟩ := hedited _ (List.mem_of_find?_eq_some hfound)
    rw [hsame u hu (hmatch.name.trans (TableEdit.name_apply t edit))] at hmatch
    exact parts_apply_ne (isCompared_of_tableDefinitions h t htmem) hseen
      (parts_eq_of_matches hmatch hself)
  · intro hseen u hu
    rcases mem_editFirst hu with hu | ⟨t', ht', hfind, rfl⟩
    · exact hpasses u hu
    · obtain rfl := Option.some.inj (hfind.symm.trans ht)
      exact ⟨t', ht', matches_apply hself hseen⟩

end ProtoSchema
