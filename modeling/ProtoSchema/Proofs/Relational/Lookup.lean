import ProtoSchema.Relational.Schema

/-!
# Looking up tables and enum types

A table or an enum type is looked up by its name. Where all names are distinct, each table is the
one of its name.

Key results:
* `table?_eq_some_iff` — which table has a name
* `isSome_table?_iff`, `isSome_enum?_iff` — which names are used
-/

namespace ProtoSchema

open Relational

/-- Where names are distinct, a table is found by its name. -/
theorem filter_name_eq {tables : List Table} (hnames : (tables.map (·.name)).Nodup) {t : Table}
    (ht : t ∈ tables) : tables.filter (·.name = t.name) = [t] := by
  induction tables with
  | nil => cases ht
  | cons u tables ih =>
    obtain ⟨hnew, hnames⟩ := List.nodup_cons.1 hnames
    have hmem : ∀ v ∈ tables, v.name ≠ u.name :=
      fun v hv hvu => hnew (List.mem_map.2 ⟨v, hv, hvu⟩)
    rcases List.mem_cons.1 ht with rfl | ht
    -- The first table has the name, so no later one does.
    · have hrest : tables.filter (·.name = t.name) = [] := by
        rw [List.filter_eq_nil_iff]
        exact fun v hv => by simpa using hmem v hv
      rw [List.filter_cons, hrest]
      simp
    · have hne : ¬u.name = t.name := fun h => hmem t ht h.symm
      rw [List.filter_cons, if_neg (by simpa using hne), ih hnames ht]

/-- Where names are distinct, every table is the one of its name. -/
theorem table?_eq_some_iff {schema : Schema} (hnames : (schema.tables.map (·.name)).Nodup)
    {name : String} {t : Table} :
    schema.table? name = some t ↔ t ∈ schema.tables ∧ t.name = name := by
  constructor
  · intro h
    exact ⟨List.mem_of_find?_eq_some h, Schema.name_of_table? h⟩
  · rintro ⟨ht, rfl⟩
    cases hu : schema.table? t.name with
    | none =>
      have hnot := List.find?_eq_none.1 hu t ht
      simp at hnot
    | some u =>
      -- The table that is found has the same name, and there is only one.
      have hmem : u ∈ schema.tables.filter (·.name = t.name) :=
        List.mem_filter.2 ⟨List.mem_of_find?_eq_some hu, by simpa using Schema.name_of_table? hu⟩
      rw [filter_name_eq hnames ht] at hmem
      rw [List.mem_singleton.1 hmem]

/-- A table is found by its name exactly when there is one of that name. -/
theorem isSome_table?_iff (schema : Schema) (name : String) :
    (schema.table? name).isSome = true ↔ name ∈ schema.tables.map (·.name) := by
  simp [Schema.table?]

/-- An enum type is found by its name exactly when there is one of that name. -/
theorem isSome_enum?_iff (schema : Schema) (name : String) :
    (schema.enum? name).isSome = true ↔ name ∈ schema.enums.map (·.name) := by
  simp [Schema.enum?]

end ProtoSchema
