import ProtoSchema.Proofs.Generation.Failures
import ProtoSchema.Proofs.SchemaScript
import ProtoSchema.Proofs.Sql.StandardReader
import ProtoSchema.Proofs.Verification

/-!
# Verified documents

A document that passes verification creates each table of its schema, whatever reads its statements
back. Where the reader is a lawful reader of SQL it creates nothing else, if no two tables have one
name and no text that is pasted into it reaches beyond its place: a default that closes the
parenthesis, or that ends the script, may pass unseen.

Key results:
* `isCreatedBy_of_check` — what a catalog that passes says about its statements
* `verified_document` — what a verified document creates
-/

namespace ProtoSchema

open Relational Sql

/-- The tables of a schema that passes are created as the schema defines them. -/
theorem isCreatedBy_of_check {schema : Schema} {statements : List Statement}
    (h : schema.check (Catalog.ofStatements statements) = .ok ()) :
    ∀ t ∈ schema.tables, t.IsCreatedBy statements := by
  intro t ht
  obtain ⟨entry, hentry, hcheck⟩ := (check_eq_ok_iff _ _).1 h t ht
  -- The entry was found, so a statement created it and the later ones only added indexes.
  obtain ⟨before, created, after, base, hsplit, hcreated, hname, hafter, rfl⟩ :=
    Catalog.find?_ofStatements_eq_some hentry
  obtain ⟨hsame, -⟩ := checkTable_eq_ok_iff.1 hcheck
  -- The statement itself brings no indexes, so those of the table are the added ones.
  have hnone : base.indexes = [] := Statement.indexes_of_table? hcreated
  rw [hnone, List.nil_append] at hsame
  refine ⟨before, created, after, hsplit, ?_, hafter, ?_⟩
  · rw [hcreated, Relational.Table.createdEntry, ← hsame, ← hname, ← hnone]
  · exact congrArg TableEntry.indexes hsame

/-- Verification passes when the statements that it reads leave a catalog that passes. -/
theorem verifyWith_eq_ok_iff {ε : Type} {parse : String → Except ε (List Statement)}
    {fault : ε → Error} {schema : Schema} {definitions : String} :
    schema.verifyWith parse fault definitions = .ok () ↔
      ∃ statements, parse definitions = .ok statements
        ∧ schema.check (Catalog.ofStatements statements) = .ok () := by
  cases hparse : parse definitions with
  | error e =>
    simp [Schema.verifyWith, Catalog.readWith, hparse, bind, Except.bind, Except.map,
      Except.mapError]
  | ok statements =>
    -- What was read becomes the catalog, and what is left is the check against it.
    have hverify : schema.verifyWith parse fault definitions
        = (schema.check (Catalog.ofStatements statements)).mapError Error.verify := by
      rw [Schema.verifyWith, Catalog.readWith, hparse]
      rfl
    rw [hverify, mapError_eq_ok]
    constructor
    · exact fun hcheck => ⟨statements, rfl, hcheck⟩
    · rintro ⟨_, hread, hcheck⟩
      rwa [Except.ok.inj hread]

/-- A verified document has definitions that are read as statements, whatever reads them. Each table
is created by these as it is defined, with its indexes. If the reader is lawful, the names of the
tables are distinct and all texts are closed, they create the schema, statement by statement, and do
nothing else. -/
theorem verified_document {ε : Type} {reader : SqlReader ε} {fault : ε → Error} {schema : Schema}
    {sources : List String} {text : String}
    (h : schema.documentWith reader.parse fault true sources = .ok text) :
    ∃ definitions statements, schema.tableDefinitions = .ok definitions
      ∧ text = Relational.document sources (schema.typeDefinitions ++ definitions)
      ∧ reader.parse (String.join definitions) = .ok statements
      ∧ (∀ t ∈ schema.tables, t.IsCreatedBy statements)
      ∧ (reader.IsLawful → (schema.tables.map (·.name)).Nodup →
        (∀ t ∈ schema.tables, reader.IsClosedTable t) → IsSchemaScript schema statements) := by
  cases hdefinitions : schema.tableDefinitions with
  | error e =>
    simp [Schema.documentWith, hdefinitions, bind, Except.bind, Except.mapError] at h
  | ok definitions =>
    rw [Schema.documentWith_true hdefinitions] at h
    cases hverify : schema.verifyWith reader.parse fault (String.join definitions) with
    | error e =>
      rw [hverify] at h
      cases h
    | ok u =>
      rw [hverify] at h
      obtain ⟨statements, hscript, hcheck⟩ := verifyWith_eq_ok_iff.1 hverify
      -- What passes tells where each table is created, and that tells the statements.
      have hcreated := isCreatedBy_of_check hcheck
      refine ⟨definitions, statements, rfl, (Except.ok.inj h).symm, hscript, hcreated, ?_⟩
      intro hlaw hnodup hclosed
      exact isSchemaScript_of_isCreatedBy hlaw hnodup hclosed hdefinitions hscript hcreated

/-- The document of two tables with an index passes, and creates them and the index. -/
theorem verified_document_librarySchema :
    ∃ text definitions statements,
      librarySchema.documentWith SqlReader.standard.parse .script true ["library.proto"] = .ok text
      ∧ librarySchema.tableDefinitions = .ok definitions
      ∧ SqlReader.standard.parse (String.join definitions) = .ok statements
      ∧ SqlReader.standard.IsLawful
      ∧ (librarySchema.tables.map (·.name)).Nodup
      ∧ (∀ t ∈ librarySchema.tables, SqlReader.standard.IsClosedTable t)
      ∧ IsSchemaScript librarySchema statements := by
  -- The schema is plain, so its text reads back and passes the check.
  have hverify : librarySchema.verifyWith SqlReader.standard.parse .script _ = .ok () :=
    verifyWith_eq_ok_iff.2 ⟨_, ofScript_tableDefinitions isPlainTable_librarySchema rfl, rfl⟩
  have hnodup : (librarySchema.tables.map (·.name)).Nodup := by decide
  have hclosed : ∀ t ∈ librarySchema.tables, SqlReader.standard.IsClosedTable t := fun t ht =>
    SqlReader.isClosedTable_of_isPlainTable isLawful_standard (isPlainTable_librarySchema t ht)
  have htext : librarySchema.documentWith SqlReader.standard.parse .script true ["library.proto"]
      = _ := Schema.documentWith_true (rfl : librarySchema.tableDefinitions = .ok _) _
  rw [hverify] at htext
  obtain ⟨definitions, statements, hdefinitions, -, hscript, -, hall⟩ := verified_document htext
  exact ⟨_, definitions, statements, htext, hdefinitions, hscript, isLawful_standard, hnodup,
    hclosed, hall isLawful_standard hnodup hclosed⟩

/-- A table with a default that ends its definition and starts the one of another table. -/
def forgedSchema : Schema where
  tables := [
    { name := "t"
      columns := [⟨"a", .integer, false, some "0); CREATE TABLE u (b INTEGER"⟩] }]

/-- A table that is listed twice, with a default that ends its definition and the script. -/
def endedSchema : Schema where
  tables := List.replicate 2
    { name := "t"
      columns := [⟨"a", .boolean, false, some "TRUE) END"⟩] }

/-- The texts of that table are closed. -/
theorem isClosedTable_endedSchema {ε : Type} {reader : SqlReader ε} (hlaw : reader.IsLawful) :
    ∀ t ∈ endedSchema.tables, reader.IsClosedTable t := by
  have hnames : ∀ n ∈ ["t", "a"], isPlainName n = true := by decide +kernel
  -- The default is made of words and a mark, so it is closed, although it ends the script.
  have hdefault : reader.IsClosed "TRUE) END" :=
    (SqlReader.closed_words hlaw (by decide)).mono fun _ => endsWord_of_endsText
  intro t ht
  obtain rfl := List.eq_of_mem_replicate ht
  refine ⟨SqlReader.isClosed_plainName hlaw (hnames _ (by decide)), ?_, by simp, by simp⟩
  intro c hc
  rw [List.mem_singleton.1 hc]
  exact ⟨SqlReader.isClosed_plainName hlaw (hnames _ (by decide)), by simp, by simpa using hdefault⟩

/-- A verified document whose script has another number of statements is no script of its schema. -/
theorem exists_not_isSchemaScript {schema : Schema} {definitions : List String} (count : Nat)
    (hpasses : (schema.document true []).isOk = true)
    (hdefinitions : schema.tableDefinitions = .ok definitions)
    (hread : (Statement.ofScript (String.join definitions)).map List.length = .ok count)
    (hcount : count ≠ schema.tables.length + (placedIndexes schema).length) :
    ∃ text definitions statements, schema.document true [] = .ok text
      ∧ schema.tableDefinitions = .ok definitions
      ∧ Statement.ofScript (String.join definitions) = .ok statements
      ∧ ¬IsSchemaScript schema statements := by
  cases htext : schema.document true [] with
  | error e =>
    rw [htext] at hpasses
    cases hpasses
  | ok text =>
    cases hscript : Statement.ofScript (String.join definitions) with
    | error e =>
      rw [hscript] at hread
      cases hread
    | ok statements =>
      rw [hscript] at hread
      refine ⟨text, definitions, statements, rfl, hdefinitions, hscript, fun h => hcount ?_⟩
      -- The script of a schema has one statement per table and one per index.
      rw [← h.length_eq]
      exact (Except.ok.inj hread).symm

/-- The verified document of the first schema creates a table that is not in it, that of the second
creates its table once, though all texts are closed. -/
theorem verified_document_forged :
    (∃ text definitions statements, forgedSchema.document true [] = .ok text
      ∧ forgedSchema.tableDefinitions = .ok definitions
      ∧ Statement.ofScript (String.join definitions) = .ok statements
      ∧ ¬IsSchemaScript forgedSchema statements)
    ∧ (∀ t ∈ endedSchema.tables, SqlReader.standard.IsClosedTable t)
    ∧ ∃ text definitions statements, endedSchema.document true [] = .ok text
      ∧ endedSchema.tableDefinitions = .ok definitions
      ∧ Statement.ofScript (String.join definitions) = .ok statements
      ∧ ¬IsSchemaScript endedSchema statements := by
  have hforged : (forgedSchema.document true []).isOk = true := by decide +kernel
  have hended : (endedSchema.document true []).isOk = true := by decide +kernel
  refine ⟨?_, isClosedTable_endedSchema isLawful_standard, ?_⟩
  · exact exists_not_isSchemaScript 2 hforged rfl (by decide +kernel) (by decide)
  · exact exists_not_isSchemaScript 1 hended rfl (by decide +kernel) (by decide)

end ProtoSchema
