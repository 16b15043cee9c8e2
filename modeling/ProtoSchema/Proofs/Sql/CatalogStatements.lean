import Mathlib.Data.List.Induction
import ProtoSchema.Sql.Catalog

/-!
# Catalogs and the statements that left them

A statement enters a table into a catalog, adds an index to one of its tables, or changes nothing.
So a table of a catalog is told by the statements: by the last one that creates a table of its name,
and by those behind it that create indexes.

Key results:
* `apply_eq` — what each statement does
* `IsTold.concat` — what a further statement does to a table that statements tell
* `find?_ofStatements_eq_some` — which statements a table of a catalog comes from
-/

namespace ProtoSchema.Sql

open ProtoSchema.Relational (Index)

namespace Statement

/-- The table that a statement creates, without indexes. -/
def table? : Statement → Option TableEntry
  | createTable name columns constraints => some (.ofDefinition name columns constraints)
  | _ => none

/-- The index with a name that a statement creates, with its table. -/
def index? : Statement → Option (String × Index)
  | createIndex (some name) table elements unique =>
    some (Name.dotted table,
      { name := Name.dotted name, columns := elements.map (·.columnText), unique })
  | _ => none

/-- The index with a name that a statement creates on the table `table`. -/
def indexOf? (table : String) (s : Statement) : Option Index :=
  (s.index?.filter (·.1 = table)).map Prod.snd

/-- A statement for an index creates it on its table and on no other. -/
theorem indexOf?_of_index? {s : Statement} {table : String} {index : Index}
    (h : s.index? = some (table, index)) (name : String) :
    s.indexOf? name = if table = name then some index else none := by
  by_cases ht : table = name <;> simp [indexOf?, h, ht, Option.filter_some]

/-- A table is created without indexes. -/
theorem indexes_of_table? {s : Statement} {entry : TableEntry} (h : s.table? = some entry) :
    entry.indexes = [] := by
  cases s with
  | createTable =>
    cases h
    rfl
  | createIndex => cases h
  | other => cases h

/-- No statement creates a table and an index. -/
theorem index?_of_table? {s : Statement} {entry : TableEntry} (h : s.table? = some entry) :
    s.index? = none := by
  cases s with
  | createTable => rfl
  | createIndex => cases h
  | other => cases h

end Statement

namespace Catalog

/-- What a statement does to a catalog is told by the table and the index that it creates. -/
theorem apply_eq (catalog : Catalog) (s : Statement) :
    catalog.apply s =
      match s.table?, s.index? with
      | some entry, _ => catalog.insert entry
      | none, some (table, index) => catalog.addIndex table index
      | none, none => catalog := by
  cases s with
  | createTable => rfl
  | createIndex name => cases name <;> rfl
  | other => rfl

/-- The statements tell this table of the name `name`: the last one that creates a table of the name
has its columns and keys, and the indexes with a name that are created on it behind that statement
are its indexes. -/
def IsTold (statements : List Statement) (name : String) (entry : TableEntry) : Prop :=
  ∃ before created after base, statements = before ++ created :: after
    ∧ created.table? = some base ∧ base.name = name
    ∧ (∀ s ∈ after, ∀ later ∈ s.table?, later.name ≠ name)
    ∧ entry = { base with indexes := base.indexes ++ after.filterMap (·.indexOf? name) }

namespace IsTold

variable {statements : List Statement} {s : Statement} {name : String} {entry : TableEntry}

/-- A statement that creates a table tells it. -/
theorem concat_created (h : s.table? = some entry) (hname : entry.name = name) :
    IsTold (statements ++ [s]) name entry :=
  ⟨statements, s, [], entry, rfl, h, hname, by simp, by simp⟩

/-- A table that statements tell has the name that it was looked for by. -/
theorem name_eq (h : IsTold statements name entry) : entry.name = name := by
  obtain ⟨before, created, after, base, -, -, hname, -, rfl⟩ := h
  exact hname

/-- A statement behind those that tell a table may add an index to it. -/
theorem concat (h : IsTold statements name entry) (hlater : ∀ later ∈ s.table?, later.name ≠ name) :
    IsTold (statements ++ [s]) name
      { entry with indexes := entry.indexes ++ (s.indexOf? name).toList } := by
  obtain ⟨before, created, after, base, rfl, hcreated, hname, hafter, rfl⟩ := h
  refine ⟨before, created, after ++ [s], base, by simp, hcreated, hname, ?_, ?_⟩
  -- The new statement is one of the later ones, and creates no table of this name.
  · intro s' hs'
    rcases List.mem_append.1 hs' with hs' | hs'
    · exact hafter s' hs'
    · rw [List.mem_singleton.1 hs']
      exact hlater
  · cases hi : s.indexOf? name <;> simp [hi]

/-- A statement that creates neither the table nor an index of it changes nothing. -/
theorem concat_other (h : IsTold statements name entry)
    (hlater : ∀ later ∈ s.table?, later.name ≠ name) (hindex : s.indexOf? name = none) :
    IsTold (statements ++ [s]) name entry := by
  have hsame := h.concat hlater
  rwa [hindex, Option.toList_none, List.append_nil] at hsame

end IsTold

/-- A table that is found in a catalog is told by the statements that left the catalog. -/
theorem find?_ofStatements_eq_some {statements : List Statement} {name : String}
    {entry : TableEntry} (h : (ofStatements statements).find? name = some entry) :
    IsTold statements name entry := by
  induction statements using List.reverseRecOn generalizing entry with
  | nil => cases h
  | append_singleton statements s ih =>
    have hfold : ofStatements (statements ++ [s]) = (ofStatements statements).apply s := by
      simp [ofStatements]
    rw [hfold, apply_eq] at h
    cases htable : s.table? with
    | some created =>
      simp only [htable, find?_insert] at h
      by_cases hname : created.name = name
      · rw [if_pos hname] at h
        obtain rfl := Option.some.inj h
        exact .concat_created htable hname
      · rw [if_neg hname] at h
        apply (ih h).concat_other (by simpa [htable] using hname)
        simp [Statement.indexOf?, Statement.index?_of_table? htable]
    | none =>
      have hlater : ∀ later ∈ s.table?, later.name ≠ name := by simp [htable]
      cases hindex : s.index? with
      | none =>
        simp only [htable, hindex] at h
        apply (ih h).concat_other hlater
        simp [Statement.indexOf?, hindex]
      | some placed =>
        obtain ⟨table, index⟩ := placed
        simp only [htable, hindex, find?_addIndex] at h
        obtain ⟨found, hfound, rfl⟩ := Option.map_eq_some_iff.1 h
        have hof := Statement.indexOf?_of_index? hindex name
        rw [← (ih hfound).name_eq] at hof
        -- The index goes to the table that is looked for, or to another one.
        by_cases ht : found.name = table
        · rw [if_pos ht.symm, (ih hfound).name_eq] at hof
          rw [if_pos ht]
          have hadded := (ih hfound).concat hlater
          rwa [hof] at hadded
        · rw [if_neg (Ne.symm ht), (ih hfound).name_eq] at hof
          rw [if_neg ht]
          exact (ih hfound).concat_other hlater hof

end Catalog

end ProtoSchema.Sql
