import ProtoSchema.Proofs.Counting
import ProtoSchema.Proofs.Sql.CatalogStatements
import ProtoSchema.Proofs.Sql.ClosedTexts
import ProtoSchema.Proofs.Sql.CreationNames
import ProtoSchema.Proofs.Sql.ScriptSegments
import ProtoSchema.Verification

/-!
# Scripts of a schema

The definitions of a schema of closed texts are read as one statement for each, whatever reader of
SQL reads them, but what stands where a name belongs need not be the name. It is where each table is
found in the statements: a name is read from a part of its text, so no name is longer than its text.
The names that are found are the texts, in some order, so none is shorter either.

Key results:
* `exists_of_parse_closed` — the statements that are read, table by table and index by index
* `eq_of_isReadFrom` — names that are the texts they are read from
* `isSchemaScript_of_isCreatedBy` — statements in which each table is found create the schema and do
  nothing else
-/

namespace ProtoSchema

open Relational Sql

/-! ## What statements say about a schema -/

/-- The entry of a table as its own statement creates it. -/
def Relational.Table.createdEntry (t : Table) : TableEntry :=
  { TableEntry.ofTable t with indexes := [] }

/-- What statements say about a table: the last one that creates a table of its name has its columns
and keys, and the indexes with a name that are created on it behind that statement are its
indexes. -/
def Relational.Table.IsCreatedBy (t : Table) (statements : List Statement) : Prop :=
  ∃ before created after, statements = before ++ created :: after
    ∧ created.table? = some t.createdEntry
    ∧ (∀ s ∈ after, ∀ later ∈ s.table?, later.name ≠ t.name)
    ∧ after.filterMap (·.indexOf? t.name) = t.indexes

/-- The statements create the tables of a schema and then its indexes, each in order, and do nothing
else. -/
def IsSchemaScript (schema : Schema) (statements : List Statement) : Prop :=
  ∃ tables indexes, statements = tables ++ indexes
    ∧ tables.map Statement.table? = schema.tables.map (fun t => some t.createdEntry)
    ∧ indexes.map Statement.index? = (placedIndexes schema).map some

/-- A script of a schema has as many statements as there are tables and indexes. -/
theorem IsSchemaScript.length_eq {schema : Schema} {statements : List Statement}
    (h : IsSchemaScript schema statements) :
    statements.length = schema.tables.length + (placedIndexes schema).length := by
  obtain ⟨tables, indexes, rfl, htables, hindexes⟩ := h
  have htables' := congrArg List.length htables
  have hindexes' := congrArg List.length hindexes
  simp only [List.length_map] at htables' hindexes'
  rw [List.length_append, htables', hindexes']

/-! ## The statements of a script of closed texts -/

section

variable {ε : Type} {reader : SqlReader ε}

/-- The tokens of a table start as a statement for a table does. -/
theorem Sql.SqlReader.IsTableSegment.isSegment {t : Table} {segment : List Token}
    (h : reader.IsTableSegment t segment) : IsSegment segment := by
  obtain ⟨⟨body, rfl⟩, hnone⟩ := h
  exact ⟨⟨_, .inl rfl⟩, hnone⟩

/-- The tokens of an index start as a statement for an index does. -/
theorem Sql.SqlReader.IsIndexSegment.isSegment {i : String × Index} {segment : List Token}
    (h : reader.IsIndexSegment i segment) : IsSegment segment := by
  obtain ⟨⟨body, rfl⟩, hnone⟩ := h
  exact ⟨⟨_, .inr ⟨_, by rw [SqlReader.indexSegment, List.append_assoc, List.append_assoc]⟩⟩, hnone⟩

/-- What is read from the tokens of a table creates a table, with a name from the tokens of its
name. -/
theorem Sql.SqlReader.IsTableSegment.createsTableFrom (hlaw : reader.IsLawful) {t : Table}
    {segment : List Token} {s : Statement} (h : reader.IsTableSegment t segment)
    (hread : reader.ReadFrom segment s) : CreatesTableFrom (reader.tokensOf t.name) s := by
  obtain ⟨⟨body, rfl⟩, -⟩ := h
  obtain ⟨input, rest, later, hinput, hread⟩ := hread
  apply CreatesTable.createsTableFrom
  apply hlaw.table input s rest _ hread
  simpa [SqlReader.tableSegment] using hinput

/-- What is read from the tokens of an index creates an index, with names from the tokens of its
name and of its table. -/
theorem Sql.SqlReader.IsIndexSegment.createsIndexFrom (hlaw : reader.IsLawful) {i : String × Index}
    {segment : List Token} {s : Statement} (h : reader.IsIndexSegment i segment)
    (hread : reader.ReadFrom segment s) :
    CreatesIndexFrom (reader.tokensOf i.2.name) (reader.tokensOf i.1) i.2.unique s := by
  obtain ⟨⟨body, rfl⟩, -⟩ := h
  obtain ⟨input, rest, later, hinput, hread⟩ := hread
  apply CreatesIndex.createsIndexFrom
  apply hlaw.index input s rest _ _ hread
  simpa [SqlReader.indexSegment] using hinput

/-- The statements that are read from the definitions of a schema of closed texts: those of tables,
then those of indexes, each from its definition, as far as the script goes. -/
theorem exists_of_parse_closed (hlaw : reader.IsLawful) {schema : Schema}
    {definitions : List String} {statements : List Statement}
    (hclosed : ∀ t ∈ schema.tables, reader.IsClosedTable t)
    (hdefinitions : schema.tableDefinitions = .ok definitions)
    (h : reader.parse (String.join definitions) = .ok statements) :
    ∃ n m tables indexes, statements = tables ++ indexes
      ∧ List.Forall₂ (fun t s => CreatesTableFrom (reader.tokensOf t.name) s)
        (schema.tables.take n) tables
      ∧ List.Forall₂
        (fun i s => CreatesIndexFrom (reader.tokensOf i.2.name) (reader.tokensOf i.1) i.2.unique s)
        ((placedIndexes schema).take m) indexes := by
  obtain ⟨tables, indexes, hcuts, htables, hindexes⟩ :=
    SqlReader.cuts_closedSchema hlaw hclosed hdefinitions
  obtain ⟨input, hlex, hscript⟩ := hlaw.script _ _ h
  have htokens : input.map reader.token = scriptTokens (tables ++ indexes) := by
    have hall := hcuts.tokens_eq hlaw trivial
    rw [SqlReader.tokens, hlex, Option.map_some] at hall
    exact Option.some.inj hall
  have hsegments : ∀ s ∈ tables ++ indexes, IsSegment s := by
    intro s hs
    rcases List.mem_append.1 hs with hs | hs
    · obtain ⟨t, ht⟩ := exists_of_forall₂ htables.flip s hs
      exact SqlReader.IsTableSegment.isSegment (t := t) ht
    · obtain ⟨i, hi⟩ := exists_of_forall₂ hindexes.flip s hs
      exact SqlReader.IsIndexSegment.isSegment (i := i) hi
  -- A front of the segments is read, so a front of the tables and one of the indexes.
  obtain ⟨front, hfront, hstatements⟩ := hscript.segments hlaw hsegments htokens
  obtain ⟨n, m, created, more, rfl, hcreated, hmore⟩ :=
    exists_append_of_forall₂_prefix hfront hstatements
  refine ⟨n, m, created, more, rfl, ?_, ?_⟩
  · refine forall₂_comp ?_ (List.forall₂_take n htables) hcreated
    exact fun t segment s hsegment hread => hsegment.createsTableFrom hlaw hread
  · refine forall₂_comp ?_ (List.forall₂_take m hindexes) hmore
    exact fun i segment s hsegment hread => hsegment.createsIndexFrom hlaw hread

/-! ## Names and their texts -/

/-- The name is read from the tokens `taken` of the text `s`. -/
def IsReadFrom (reader : SqlReader ε) (name s : String) (taken : List Token) : Prop :=
  ∃ names, Name.dotted names = name ∧ IsDotted taken names ∧ taken.Sublist (reader.tokensOf s)

/-- Where names are read from closed texts and are these texts in some order, each one is the text
that it is read from, and read from all of its tokens. -/
theorem eq_of_isReadFrom (hlaw : reader.IsLawful) {α β : Type} {text : α → String}
    {name : β → String} {r : α → β → List Token → Prop} {as : List α} {bs : List β}
    (hclosed : ∀ a ∈ as, reader.IsClosed (text a))
    (h : List.Forall₂
      (fun a b => ∃ taken, IsReadFrom reader (name b) (text a) taken ∧ r a b taken) as bs)
    (hperm : (as.map text).Perm (bs.map name)) :
    List.Forall₂ (fun a b => name b = text a
      ∧ IsReadFrom reader (text a) (text a) (reader.tokensOf (text a))
      ∧ r a b (reader.tokensOf (text a))) as bs := by
  -- No name is longer than its text, and together they are not shorter.
  have hsum : (as.map fun a => (text a).length).sum ≤ (bs.map fun b => (name b).length).sum := by
    have hlengths := (hperm.map String.length).sum_nat
    rw [List.map_map, List.map_map] at hlengths
    exact hlengths.le
  refine (forall₂_eq_of_sum_le ((List.forall₂_and_left _ _).2 ⟨hclosed, h⟩) ?_ hsum).imp ?_
  · rintro a b ⟨ha, taken, ⟨names, hname, hnames, htaken⟩, -⟩
    rw [← hname]
    exact SqlReader.length_dotted_le hlaw ha hnames htaken
  · rintro a b ⟨⟨ha, taken, ⟨names, hname, hnames, htaken⟩, hr⟩, hlen⟩
    obtain ⟨heq, rfl⟩ := SqlReader.dotted_eq_of_length_eq hlaw ha hnames htaken (hname ▸ hlen)
    exact ⟨hname.symm.trans heq, ⟨names, heq, hnames, htaken⟩, hr⟩

/-! ## Tables -/

/-- The entries of statements that create tables, each with a name that is read from its text. -/
theorem exists_entries {ts : List Table} {statements : List Statement}
    (h : List.Forall₂ (fun t s => CreatesTableFrom (reader.tokensOf t.name) s) ts statements) :
    ∃ entries, statements.map Statement.table? = entries.map some
      ∧ List.Forall₂ (fun (t : Table) (e : TableEntry) =>
        ∃ taken, IsReadFrom reader e.name t.name taken) ts entries := by
  induction h with
  | nil => exact ⟨[], rfl, .nil⟩
  | cons hs _ ih =>
    obtain ⟨names, columns, constraints, taken, rfl, hnames, htaken⟩ := hs
    obtain ⟨entries, hentries, hread⟩ := ih
    refine ⟨.ofDefinition names columns constraints :: entries, ?_,
      .cons ⟨taken, names, rfl, hnames, htaken⟩ hread⟩
    rw [List.map_cons, hentries]
    rfl

/-- The entry of a table that is created is among those of the statements for tables. -/
theorem createdEntry_mem {t : Table} {tables indexes : List Statement} {entries : List TableEntry}
    (hentries : tables.map Statement.table? = entries.map some)
    (hindexes : ∀ s ∈ indexes, s.table? = none) (h : t.IsCreatedBy (tables ++ indexes)) :
    t.createdEntry ∈ entries := by
  obtain ⟨before, created, after, hsplit, hcreated, -⟩ := h
  have hstatement : created ∈ tables ++ indexes := by simp [hsplit]
  rcases List.mem_append.1 hstatement with hs | hs
  · have hsome := List.mem_map_of_mem (f := Statement.table?) hs
    rw [hentries, hcreated] at hsome
    -- The statement that created the table is one of the first kind, so its entry is in the list.
    obtain ⟨entry, hentry, heq⟩ := List.mem_map.1 hsome
    rwa [← Option.some.inj heq]
  -- An index creates no table.
  · rw [hindexes created hs] at hcreated
    cases hcreated

/-- Where all tables are found in the statements for tables that are read, there is one statement
for each table, and the names of the entries are those of the tables in some order. -/
theorem exists_perm_entries {schema : Schema} {n : Nat} {tables indexes : List Statement}
    (hnodup : (schema.tables.map (·.name)).Nodup)
    (htables : List.Forall₂ (fun t s => CreatesTableFrom (reader.tokensOf t.name) s)
      (schema.tables.take n) tables)
    (hindexes : ∀ s ∈ indexes, s.table? = none)
    (h : ∀ t ∈ schema.tables, t.IsCreatedBy (tables ++ indexes)) :
    ∃ entries, tables.map Statement.table? = entries.map some
      ∧ (∀ t ∈ schema.tables, t.createdEntry ∈ entries)
      ∧ List.Forall₂ (fun (t : Table) (e : TableEntry) =>
        ∃ taken, IsReadFrom reader e.name t.name taken) schema.tables entries
      ∧ (schema.tables.map (·.name)).Perm (entries.map (·.name)) := by
  obtain ⟨entries, hentries, hread⟩ := exists_entries htables
  have hmem : ∀ t ∈ schema.tables, t.createdEntry ∈ entries :=
    fun t ht => createdEntry_mem hentries hindexes (h t ht)
  have hsubset : schema.tables.map (·.name) ⊆ entries.map (·.name) := by
    intro name hname
    obtain ⟨t, ht, rfl⟩ := List.mem_map.1 hname
    exact List.mem_map.2 ⟨_, hmem t ht, rfl⟩
  -- There are no more entries than tables, so they have the same names.
  have hlen := hread.length_eq
  rw [List.length_take] at hlen
  have hperm : (schema.tables.map (·.name)).Perm (entries.map (·.name)) := by
    apply (List.subperm_of_subset hnodup hsubset).perm_of_length_le
    rw [List.length_map, List.length_map]
    omega
  have hall : schema.tables.take n = schema.tables := by
    have hsame := hperm.length_eq
    rw [List.length_map, List.length_map] at hsame
    apply List.take_of_length_le
    omega
  rw [hall] at hread
  exact ⟨entries, hentries, hmem, hread, hperm⟩

/-- The statements for tables that are read create the tables, where all tables are found in them:
each name is taken from the text of a name, so none is larger than it. -/
theorem tables_of_isCreatedBy (hlaw : reader.IsLawful) {schema : Schema} {n : Nat}
    {tables indexes : List Statement}
    (hnodup : (schema.tables.map (·.name)).Nodup)
    (hclosed : ∀ t ∈ schema.tables, reader.IsClosed t.name)
    (htables : List.Forall₂ (fun t s => CreatesTableFrom (reader.tokensOf t.name) s)
      (schema.tables.take n) tables)
    (hindexes : ∀ s ∈ indexes, s.table? = none)
    (h : ∀ t ∈ schema.tables, t.IsCreatedBy (tables ++ indexes)) :
    tables.map Statement.table? = schema.tables.map (fun t => some t.createdEntry)
      ∧ ∀ t ∈ schema.tables, IsReadFrom reader t.name t.name (reader.tokensOf t.name) := by
  obtain ⟨entries, hentries, hmem, hread, hperm⟩ := exists_perm_entries hnodup htables hindexes h
  have hnames := eq_of_isReadFrom (r := fun _ _ _ => True) hlaw hclosed
    (hread.imp fun _ _ h => h.imp fun _ htaken => ⟨htaken, trivial⟩) hperm
  -- Of two entries with one name, the one found for the table is the one read there.
  have hinjective := List.inj_on_of_nodup_map (hperm.nodup hnodup)
  have heq : List.Forall₂ (fun (t : Table) e => t.createdEntry = e) schema.tables entries := by
    have hboth := (List.forall₂_and_left _ _).2 ⟨fun _ h => h, hnames.flip⟩
    refine ((List.forall₂_and_left _ _).2 ⟨hmem, hboth.flip⟩).imp ?_
    rintro t e ⟨ht, he, hname, -⟩
    exact hinjective ht he hname.symm
  constructor
  · have hmap : schema.tables.map Table.createdEntry = entries := by
      rw [← List.forall₂_eq_eq_eq, List.forall₂_map_left_iff]
      exact heq
    rw [hentries, ← hmap, List.map_map]
    rfl
  · intro t ht
    obtain ⟨e, -, hread, -⟩ := exists_of_forall₂ hnames t ht
    exact hread

/-! ## Indexes -/

/-- The indexes of statements that are created on one table. -/
theorem filter_filterMap_index? (table : String) (statements : List Statement) :
    (statements.filterMap Statement.index?).filter (·.1 = table)
      = (statements.filterMap (·.indexOf? table)).map (table, ·) := by
  induction statements with
  | nil => rfl
  | cons s statements ih =>
    cases h : s.index? with
    | none =>
      have hnone : s.indexOf? table = none := by simp [Statement.indexOf?, h]
      rw [List.filterMap_cons_none h, List.filterMap_cons_none hnone, ih]
    | some placed =>
      obtain ⟨onTable, index⟩ := placed
      have hsome := Statement.indexOf?_of_index? h table
      rw [List.filterMap_cons_some h]
      -- An index of another table is dropped on both sides.
      by_cases ht : onTable = table
      · rw [if_pos ht] at hsome
        rw [List.filterMap_cons_some hsome, List.filter_cons_of_pos (by simpa using ht), ih, ht]
        rfl
      · rw [if_neg ht] at hsome
        rw [List.filterMap_cons_none hsome, List.filter_cons_of_neg (by simpa using ht), ih]

/-- Where the statements for indexes are behind those for tables, they create the indexes of each
table that is created as it is defined. -/
theorem indexes_eq_of_isCreatedBy {t : Table} {tables indexes : List Statement}
    (htables : ∀ s ∈ tables, ∃ entry, s.table? = some entry)
    (hindexes : ∀ s ∈ indexes, s.table? = none) (h : t.IsCreatedBy (tables ++ indexes)) :
    indexes.filterMap (·.indexOf? t.name) = t.indexes := by
  obtain ⟨before, created, after, hsplit, hcreated, -, hafter⟩ := h
  -- What creates the table stands among the tables, and no index stands there.
  obtain ⟨more, hmore, hrest⟩ : ∃ more, (∀ s ∈ more, s ∈ tables) ∧ after = more ++ indexes := by
    rcases List.append_eq_append_iff.1 hsplit with ⟨front, -, hback⟩ | ⟨back, htables', hback⟩
    · have := hindexes created (by simp [hback])
      simp [this] at hcreated
    · cases back with
      | nil =>
        have hmem : created ∈ [] ++ indexes := hback ▸ List.mem_cons_self
        have := hindexes created hmem
        simp [this] at hcreated
      | cons s more =>
        obtain ⟨rfl, hrest⟩ := List.cons.inj hback
        exact ⟨more, fun s hs => by simp [htables', hs], hrest⟩
  have hnone : more.filterMap (·.indexOf? t.name) = [] := by
    rw [List.filterMap_eq_nil_iff]
    intro s hs
    obtain ⟨entry, hentry⟩ := htables s (hmore s hs)
    simp [Statement.indexOf?, Statement.index?_of_table? hentry]
  rw [← hafter, hrest, List.filterMap_append, hnone, List.nil_append]

/-- An index with its table belongs to that table. -/
theorem exists_of_mem_placedIndexes {schema : Schema} {i : String × Index}
    (h : i ∈ placedIndexes schema) : ∃ t ∈ schema.tables, i.1 = t.name ∧ i.2 ∈ t.indexes := by
  obtain ⟨t, ht, hi⟩ := List.mem_flatMap.1 h
  obtain ⟨index, hindex, rfl⟩ := List.mem_map.1 hi
  exact ⟨t, ht, rfl, hindex⟩

/-- Where the indexes of each table are found, they are those that are created, table by table. -/
theorem placedIndexes_eq_flatMap {schema : Schema} {indexes : List Statement}
    (h : ∀ t ∈ schema.tables, indexes.filterMap (·.indexOf? t.name) = t.indexes) :
    placedIndexes schema = (schema.tables.map (·.name)).flatMap fun k =>
      (indexes.filterMap Statement.index?).filter (·.1 = k) := by
  rw [List.flatMap_map, placedIndexes]
  refine List.flatMap_congr fun t ht => ?_
  rw [filter_filterMap_index?, h t ht]

/-- The index that a statement creates has a name that is read from its text, and is placed on the
table where it belongs, unless the text holds more than the name. -/
theorem exists_of_createsIndexFrom {i j : String × Index} {s : Statement}
    (htable : IsReadFrom reader i.1 i.1 (reader.tokensOf i.1))
    (hs : CreatesIndexFrom (reader.tokensOf i.2.name) (reader.tokensOf i.1) i.2.unique s)
    (hj : s.index? = some j) :
    ∃ taken, IsReadFrom reader j.2.name i.2.name taken
      ∧ (j.1 = i.1 ∨ ∃ t, (taken ++ [t]).Sublist (reader.tokensOf i.2.name)) := by
  obtain ⟨name, onTable, elements, rfl, hnamed⟩ := hs
  obtain ⟨tableNames, hdotted, htokens, -⟩ := htable
  cases name with
  | none => cases hj
  | some names =>
    cases hj
    obtain ⟨taken, hnames, ⟨htaken, hon⟩ | ⟨t, htaken⟩⟩ := hnamed names rfl tableNames htokens
    · refine ⟨taken, ⟨names, rfl, hnames, htaken⟩, .inl ?_⟩
      -- The names of the table were read from all tokens of its text, hence spell it.
      apply String.toList_injective
      rw [← hdotted, hon.toList_dotted, htokens.toList_dotted]
    -- The `ON` was read inside the text of the index: one token of it at least is no part of the
    -- name.
    · have hfront := (List.sublist_append_left taken [t]).trans htaken
      exact ⟨taken, ⟨names, rfl, hnames, hfront⟩, .inr ⟨t, htaken⟩⟩

/-- Where the indexes of each table are found in statements that are not more than they are, each
statement creates one of them. -/
theorem exists_perm_indexes {schema : Schema} {indexes : List Statement}
    (hnodup : (schema.tables.map (·.name)).Nodup)
    (hlen : indexes.length ≤ (placedIndexes schema).length)
    (h : ∀ t ∈ schema.tables, indexes.filterMap (·.indexOf? t.name) = t.indexes) :
    ∃ found, indexes.map Statement.index? = found.map some ∧ (placedIndexes schema).Perm found
      ∧ ∀ t ∈ schema.tables, (placedIndexes schema).filter (·.1 = t.name)
        = found.filter (·.1 = t.name) := by
  let found := indexes.filterMap Statement.index?
  -- Grouped by table, the indexes that were found are exactly the placed ones.
  have hplaced : placedIndexes schema
      = (schema.tables.map (·.name)).flatMap fun k => found.filter (·.1 = k) :=
    placedIndexes_eq_flatMap h
  have hfound : found.length ≤ indexes.length := List.length_filterMap_le _ _
  have hperm : (placedIndexes schema).Perm found := by
    apply List.Subperm.perm_of_length_le
    · rw [hplaced]
      exact flatMap_filter_subperm hnodup found
    · omega
  refine ⟨found, ?_, hperm, ?_⟩
  · -- They are as many as the statements, so no statement creates none.
    have hsome : ∀ s ∈ indexes, s.index?.isSome := by
      have hsame := hperm.length_eq
      apply List.filterMap_length_eq_length.1
      show found.length = indexes.length
      omega
    rw [List.map_filterMap_some_eq_filter_map_isSome, List.filter_eq_self.2]
    simpa using hsome
  · intro t ht
    rw [hplaced, filter_flatMap_filter hnodup (List.mem_map_of_mem ht)]

/-- The indexes that are created are placed on the tables of those that are defined, one by one. -/
theorem tables_of_createsIndexFrom (hlaw : reader.IsLawful) {schema : Schema}
    {indexes : List Statement} {found : List (String × Index)}
    (hclosed : ∀ t ∈ schema.tables, ∀ i ∈ t.indexes, reader.IsClosed i.name)
    (hread : ∀ t ∈ schema.tables, IsReadFrom reader t.name t.name (reader.tokensOf t.name))
    (hindexes : List.Forall₂
      (fun i s => CreatesIndexFrom (reader.tokensOf i.2.name) (reader.tokensOf i.1) i.2.unique s)
      (placedIndexes schema) indexes)
    (hfound : indexes.map Statement.index? = found.map some)
    (hperm : (placedIndexes schema).Perm found) :
    found.map Prod.fst = (placedIndexes schema).map Prod.fst := by
  have hpairs : List.Forall₂ (fun (s : Statement) j => s.index? = some j) indexes found := by
    rwa [← List.forall₂_eq_eq_eq, List.forall₂_map_left_iff, List.forall₂_map_right_iff] at hfound
  have hnamed : List.Forall₂ (fun (i j : String × Index) => ∃ taken,
      IsReadFrom reader j.2.name i.2.name taken
        ∧ (j.1 = i.1 ∨ ∃ t, (taken ++ [t]).Sublist (reader.tokensOf i.2.name)))
      (placedIndexes schema) found := by
    have hplace : ∀ i ∈ placedIndexes schema, i ∈ placedIndexes schema := fun _ h => h
    refine forall₂_comp ?_ ((List.forall₂_and_left _ _).2 ⟨hplace, hindexes⟩) hpairs
    rintro i s j ⟨hi, hs⟩ hj
    obtain ⟨t, ht, hname, -⟩ := exists_of_mem_placedIndexes hi
    exact exists_of_createsIndexFrom (hname ▸ hread t ht) hs hj
  have hclosed' : ∀ i ∈ placedIndexes schema, reader.IsClosed i.2.name := by
    intro i hi
    obtain ⟨t, ht, -, hindex⟩ := exists_of_mem_placedIndexes hi
    exact hclosed t ht i.2 hindex
  rw [← List.forall₂_eq_eq_eq, List.forall₂_map_left_iff, List.forall₂_map_right_iff]
  -- Names read from texts and permuted among them were read from all tokens of each.
  refine ((eq_of_isReadFrom hlaw hclosed' hnamed (hperm.map _)).imp ?_).flip
  rintro i j ⟨-, -, hon | ⟨t, htaken⟩⟩
  · exact hon
  · -- A name that is read from all tokens of its text leaves none for a table.
    have hlength := htaken.length_le
    rw [List.length_append, List.length_singleton] at hlength
    omega

/-- The statements for indexes that are read create the indexes, where all indexes are found on
their tables. -/
theorem indexes_of_isCreatedBy (hlaw : reader.IsLawful) {schema : Schema} {m : Nat}
    {indexes : List Statement} (hnodup : (schema.tables.map (·.name)).Nodup)
    (hclosed : ∀ t ∈ schema.tables, ∀ i ∈ t.indexes, reader.IsClosed i.name)
    (hread : ∀ t ∈ schema.tables, IsReadFrom reader t.name t.name (reader.tokensOf t.name))
    (hindexes : List.Forall₂
      (fun i s => CreatesIndexFrom (reader.tokensOf i.2.name) (reader.tokensOf i.1) i.2.unique s)
      ((placedIndexes schema).take m) indexes)
    (h : ∀ t ∈ schema.tables, indexes.filterMap (·.indexOf? t.name) = t.indexes) :
    indexes.map Statement.index? = (placedIndexes schema).map some := by
  have hlen := hindexes.length_eq
  rw [List.length_take] at hlen
  obtain ⟨found, hsome, hperm, hfilter⟩ := exists_perm_indexes hnodup (by omega) h
  have hall : (placedIndexes schema).take m = placedIndexes schema := by
    have hsame := congrArg List.length hsome
    rw [List.length_map, List.length_map, ← hperm.length_eq] at hsame
    apply List.take_of_length_le
    omega
  rw [hall] at hindexes
  have htables := tables_of_createsIndexFrom hlaw hclosed hread hindexes hsome hperm
  -- Of each table they are the same, and the tables stand in the same places.
  have heq : found = placedIndexes schema := by
    refine eq_of_map_fst_eq htables fun k hk => ?_
    obtain ⟨i, hi, rfl⟩ := List.mem_map.1 (htables ▸ hk)
    obtain ⟨t, ht, hname, -⟩ := exists_of_mem_placedIndexes hi
    rw [hname, hfilter t ht]
  rw [hsome, heq]

/-! ## Scripts -/

/-- Where all texts are closed, what is read from the definitions of a schema creates the schema, if
each table is found in it. -/
theorem isSchemaScript_of_isCreatedBy (hlaw : reader.IsLawful) {schema : Schema}
    {definitions : List String} {statements : List Statement}
    (hnodup : (schema.tables.map (·.name)).Nodup)
    (hclosed : ∀ t ∈ schema.tables, reader.IsClosedTable t)
    (hdefinitions : schema.tableDefinitions = .ok definitions)
    (hscript : reader.parse (String.join definitions) = .ok statements)
    (h : ∀ t ∈ schema.tables, t.IsCreatedBy statements) : IsSchemaScript schema statements := by
  obtain ⟨n, m, tables, indexes, rfl, htables, hindexes⟩ :=
    exists_of_parse_closed hlaw hclosed hdefinitions hscript
  have hnone : ∀ s ∈ indexes, s.table? = none := by
    intro s hs
    obtain ⟨i, onTable, name, elements, rfl, -⟩ := exists_of_forall₂ hindexes.flip s hs
    rfl
  -- First the tables. That their names were read whole is what the indexes need.
  obtain ⟨hcreated, hread⟩ :=
    tables_of_isCreatedBy hlaw hnodup (fun t ht => (hclosed t ht).name) htables hnone h
  have hsome : ∀ s ∈ tables, ∃ entry, s.table? = some entry := by
    intro s hs
    obtain ⟨t, -, ht⟩ := List.mem_map.1 (hcreated ▸ List.mem_map_of_mem hs)
    exact ⟨_, ht.symm⟩
  refine ⟨tables, indexes, rfl, hcreated, ?_⟩
  exact indexes_of_isCreatedBy hlaw hnodup (fun t ht i hi => ((hclosed t ht).indexes i hi).1) hread
    hindexes fun t ht => indexes_eq_of_isCreatedBy hsome hnone (h t ht)

end

end ProtoSchema
