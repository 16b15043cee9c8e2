import ProtoSchema.Proofs.Build.Fields
import ProtoSchema.Proofs.Generation.QueryDocuments
import ProtoSchema.Proofs.Settings

/-!
# Requests that fail

Only wrong options make a request fail, and only verification keeps a document from a response. A
schema that was built can always be written, and so can its queries, whatever the descriptors are.

Key results:
* `tableDefinitions_built` — a schema that was built can be written
* `document_true_cases` — verification takes a document as it is or refuses it
* `value_respondWith_quiet`, `value_respondWith_verified` — responses without and with verification
* `generate_cases` — all that can become of a request
-/

namespace ProtoSchema

open Plugin Relational

/-! ## Schemas that were built -/

/-- Where each element can be made, all can. -/
theorem exists_mapM_eq_ok {α β ε : Type} {f : α → Except ε β} {xs : List α}
    (h : ∀ x ∈ xs, ∃ y, f x = .ok y) : ∃ ys, xs.mapM f = .ok ys := by
  induction xs with
  | nil => exact ⟨[], rfl⟩
  | cons x xs ih =>
    obtain ⟨y, hy⟩ := h x List.mem_cons_self
    obtain ⟨ys, hys⟩ := ih fun z hz => h z (List.mem_cons_of_mem x hz)
    rw [List.mapM_cons, hy, hys]
    exact ⟨y :: ys, rfl⟩

/-- The table of a message can be written. -/
theorem definition_table (pool : Pool) (node : MessageNode) :
    ∃ text, (pool.table node).value.definition = .ok text := by
  obtain ⟨lines, hlines⟩ : ∃ lines, (pool.table node).value.constraints.mapM
      (Constraint.definition (pool.table node).value.name) = .ok lines := by
    -- Every constraint comes from a field, so it has a column and, as a foreign key, a reference.
    refine exists_mapM_eq_ok fun c hc => ?_
    obtain ⟨field, -, hfield⟩ := List.mem_flatMap.1 hc
    exact FieldNode.definition_of_mem_constraints hfield _
  rw [Table.definition, hlines]
  exact ⟨_, rfl⟩

/-- Every table of a schema that was built is the table of a message. -/
theorem exists_node_of_mem_tables {pool : Pool} {requested : List String} {t : Table}
    (ht : t ∈ (pool.built requested).schema.tables) : ∃ node, t = (pool.table node).value := by
  rw [built_eq] at ht
  obtain ⟨node, -, rfl⟩ := List.mem_map.1 ht
  exact ⟨node, rfl⟩

/-- A schema that was built can be written: every constraint has a column, every foreign key a
reference, and there are no indexes. -/
theorem tableDefinitions_built (pool : Pool) (requested : List String) :
    ∃ definitions, (pool.built requested).schema.tableDefinitions = .ok definitions := by
  obtain ⟨texts, htexts⟩ : ∃ texts,
      (pool.built requested).schema.tables.mapM Table.definition = .ok texts := by
    refine exists_mapM_eq_ok fun t ht => ?_
    obtain ⟨node, rfl⟩ := exists_node_of_mem_tables ht
    exact definition_table pool node
  obtain ⟨indexes, hindexes⟩ : ∃ indexes, (pool.built requested).schema.tables.mapM
      (fun t => t.indexes.mapM (Index.definition t.name)) = .ok indexes := by
    refine exists_mapM_eq_ok fun t ht => ?_
    obtain ⟨node, rfl⟩ := exists_node_of_mem_tables ht
    -- A built table has no indexes, so there is nothing to render for it.
    exact ⟨[], rfl⟩
  simp only [Schema.tableDefinitions, htexts, hindexes, bind, Except.bind]
  exact ⟨_, rfl⟩

/-- The tables that the queries of a file are written for are in the schema. -/
theorem queryTargets_built (pool : Pool) (requested : List String) (source : String) :
    ∃ targets, (pool.built requested).queryTargets source = .ok targets := by
  rw [built_eq, queryTargets_extend]
  exact ⟨_, rfl⟩

/-! ## The schema document -/

/-- An error of verification: definitions that cannot be read back, or that create something
else. -/
def Error.IsVerification (error : Error) : Prop :=
  (∃ source, error = .script source) ∨ ∃ fault, error = .verify fault

/-- Verification fails with nothing but errors of verification. -/
theorem isVerification_of_verify {schema : Schema} {definitions : String} {error : Error}
    (h : schema.verify definitions = .error error) : error.IsVerification := by
  rw [Schema.verify, Schema.verifyWith] at h
  cases hscript : Sql.Catalog.readWith Sql.Statement.ofScript definitions with
  | error source =>
    rw [hscript] at h
    exact .inl ⟨source, (Except.error.inj h).symm⟩
  | ok catalog =>
    rw [hscript] at h
    -- The text was read, so the error is the first difference that the check found.
    replace h : (schema.check catalog).mapError Error.verify = .error error := h
    cases hcheck : schema.check catalog with
    | error fault =>
      rw [hcheck] at h
      exact .inr ⟨fault, (Except.error.inj h).symm⟩
    | ok _ =>
      rw [hcheck] at h
      cases h

/-- A verified document is the document itself, where verification passes. -/
theorem document_true {schema : Schema} {definitions : List String}
    (h : schema.tableDefinitions = .ok definitions) (sources : List String) :
    schema.document true sources = (schema.verify (String.join definitions)).map fun _ =>
      Relational.document sources (schema.typeDefinitions ++ definitions) := by
  exact Schema.documentWith_true h sources

/-- Verification takes the document of a schema as it is, or refuses it. -/
theorem document_true_cases {schema : Schema} {definitions : List String}
    (h : schema.tableDefinitions = .ok definitions) (sources : List String) :
    ∃ text, schema.document false sources = .ok text
      ∧ (schema.document true sources = .ok text
        ∨ ∃ error, schema.document true sources = .error error ∧ error.IsVerification) := by
  refine ⟨Relational.document sources (schema.typeDefinitions ++ definitions), ?_, ?_⟩
  · rw [Schema.document, Schema.documentWith, h]
    rfl
  -- Verification only decides whether the same text is returned.
  · rw [document_true h]
    cases hverify : schema.verify (String.join definitions) with
    | ok _ => exact .inl rfl
    | error error => exact .inr ⟨error, rfl, isVerification_of_verify hverify⟩

namespace Build

variable {b : Build} {options : Options}

/-- A schema document that can be made is a file of the response. -/
theorem value_schemaAttempt_of_ok {text : String}
    (h : b.schema.document options.verify b.sources = .ok text) :
    (b.schemaAttempt options).value = .ok (OutputFile.ofContent options.schemaFile text) := by
  rw [schemaAttempt, Logged.value_bind, h]
  rfl

/-- A schema document that cannot be made is an error with the name of its file. -/
theorem value_schemaAttempt_of_error {error : Error}
    (h : b.schema.document options.verify b.sources = .error error) :
    (b.schemaAttempt options).value = .error (options.schemaFile ++ ": " ++ error.message) := by
  rw [schemaAttempt, Logged.value_bind, h]
  rfl

end Build

/-! ## Responses -/

/-- A response of which no document has failed. -/
theorem ofAttempts_ok (file : OutputFile) (files : List OutputFile) :
    Response.ofAttempts (.ok file :: files.map .ok)
      = { Response.ofAttempts [] with files := file :: files } := by
  simp [Response.ofAttempts, List.filterMap_map, Function.comp_def, Except.toOption]

/-- A response of which the first document has failed. -/
theorem ofAttempts_error (text : String) (files : List OutputFile) :
    Response.ofAttempts (.error text :: files.map .ok)
      = { Response.ofAttempts [] with files, error := some text } := by
  have hfiles : (.error text :: files.map .ok : List Attempt).filterMap Except.toOption = files :=
    files_ofAttempts (.error text) files
  -- Only the first attempt failed, so the error is its text alone.
  have hnone : ∀ f : Attempt → Option String, (∀ file, f (.ok file) = none) →
      (files.map Except.ok).filterMap f = [] := by
    intro f hf
    rw [List.filterMap_map, List.filterMap_eq_nil_iff]
    exact fun file _ => hf file
  simp only [Response.ofAttempts, hfiles, List.filterMap_cons]
  rw [hnone _ fun _ => rfl]
  rfl

/-- What is built for a request. -/
def Plugin.Request.built (request : Request) : Build :=
  (Pool.ofFiles request.files).built request.filesToGenerate

/-- The query documents of a request, one for each file that contributes. -/
def Plugin.Request.queryDocuments (request : Request) : List OutputFile :=
  request.built.sources.map (documentOf (Pool.ofFiles request.files)
    ((Pool.ofFiles request.files).visits request.filesToGenerate))

section Respond

variable {request : Request} {options : Options}

/-- Where no file contributes, the response is empty. -/
theorem value_respondWith_empty (h : request.built.sources = []) :
    (respondWith options request).value = Response.ofAttempts [] := by
  unfold Request.built at h
  rw [value_respondWith, h]
  rfl

/-- Where files contribute and the schema document can be made, all documents are in the
response. -/
theorem value_respondWith_of_ok {text : String} (hne : request.built.sources ≠ [])
    (h : request.built.schema.document options.verify request.built.sources = .ok text) :
    (respondWith options request).value = { Response.ofAttempts [] with
      files := OutputFile.ofContent options.schemaFile text :: request.queryDocuments } := by
  unfold Request.built at hne h
  rw [value_respondWith, if_neg (by simpa using hne), value_attempts_built,
    Build.value_schemaAttempt_of_ok h, ofAttempts_ok]
  rfl

/-- Where files contribute and the schema document cannot be made, the others are in the
response. -/
theorem value_respondWith_of_error {error : Error} (hne : request.built.sources ≠ [])
    (h : request.built.schema.document options.verify request.built.sources = .error error) :
    (respondWith options request).value = { Response.ofAttempts [] with
      files := request.queryDocuments
      error := some (options.schemaFile ++ ": " ++ error.message) } := by
  unfold Request.built at hne h
  rw [value_respondWith, if_neg (by simpa using hne), value_attempts_built,
    Build.value_schemaAttempt_of_error h, ofAttempts_error]
  rfl

/-- Without verification every document is in the response. -/
theorem value_respondWith_quiet (hne : request.built.sources ≠ [])
    (hverify : options.verify = false) :
    ∃ text, request.built.schema.document false request.built.sources = .ok text
      ∧ (respondWith options request).value = { Response.ofAttempts [] with
        files := OutputFile.ofContent options.schemaFile text :: request.queryDocuments } := by
  obtain ⟨definitions, hdefinitions⟩ : ∃ definitions,
      request.built.schema.tableDefinitions = .ok definitions := tableDefinitions_built _ _
  -- Without verification the schema document cannot fail.
  obtain ⟨text, htext, -⟩ := document_true_cases hdefinitions request.built.sources
  exact ⟨text, htext, value_respondWith_of_ok hne (hverify ▸ htext)⟩

/-- A response that is another one without its schema document, which was refused. -/
structure Plugin.Response.Withholds (response quiet : Response) (schemaFile : String)
    (error : Error) : Prop where
  files : ∃ text, quiet.files = OutputFile.ofContent schemaFile text :: response.files
  supportedFeatures : response.supportedFeatures = quiet.supportedFeatures
  error : response.error = some (schemaFile ++ ": " ++ error.message)
  quietError : quiet.error = none

/-- With verification the response is the same, or it is without the schema document. -/
theorem value_respondWith_verified (hverify : options.verify = true) :
    let response := (respondWith options request).value
    let quiet := (respondWith { options with verify := false } request).value
    response = quiet ∨ ∃ error,
      request.built.schema.document true request.built.sources = .error error
        ∧ error.IsVerification ∧ response.Withholds quiet options.schemaFile error := by
  intro response quiet
  by_cases hne : request.built.sources = []
  · left
    show (respondWith options request).value
      = (respondWith { options with verify := false } request).value
    rw [value_respondWith_empty hne, value_respondWith_empty hne]
  · obtain ⟨definitions, hdefinitions⟩ : ∃ definitions,
        request.built.schema.tableDefinitions = .ok definitions := tableDefinitions_built _ _
    obtain ⟨text, htext, hcases⟩ := document_true_cases hdefinitions request.built.sources
    have hquiet : quiet = { Response.ofAttempts [] with
        files := OutputFile.ofContent options.schemaFile text :: request.queryDocuments } :=
      value_respondWith_of_ok hne htext
    -- The query documents are the same in either case.
    rcases hcases with hok | ⟨error, herror, hkind⟩
    · left
      rw [hquiet]
      exact value_respondWith_of_ok hne (hverify ▸ hok)
    · right
      have hresponse : response = { Response.ofAttempts [] with
          files := request.queryDocuments
          error := some (options.schemaFile ++ ": " ++ error.message) } :=
        value_respondWith_of_error hne (hverify ▸ herror)
      refine ⟨error, herror, hkind, ?_⟩
      rw [hresponse, hquiet]
      exact ⟨⟨text, rfl⟩, rfl, rfl, rfl⟩

end Respond

/-! ## Parameters -/

namespace Options

/-- Verification may be turned off at the end of a parameter. -/
theorem parse_verify_false {parameter : Option String} {options : Options}
    (h : (parse parameter).value = .ok options) :
    (parse (some (parameter.getD "" ++ ",verify=false"))).value
      = .ok { options with verify := false } := by
  have htext : parameter.getD "" ++ ",verify=false"
      = parameter.getD "" ++ "," ++ "verify=false" := by
    rw [String.append_assoc]
    rfl
  -- The appended text is one segment, and its value is the last one given for the setting.
  have hsegments : segments "verify=false".toList = ["verify=false".toList] := by decide +kernel
  have hsetting : Setting.ofSegment "verify=false".toList = .ok (.verify false) := rfl
  rw [htext, parse_append, h]
  dsimp only
  rw [parseWith, hsegments, ofSegments, hsetting]
  rfl

end Options

/-! ## Requests -/

/-- A request for the same files of which the options differ in verification alone. -/
structure Plugin.Request.Quiets (quiet request : Request) (options : Options) : Prop where
  files : quiet.files = request.files
  filesToGenerate : quiet.filesToGenerate = request.filesToGenerate
  parameter : (Options.parse quiet.parameter).value = .ok { options with verify := false }

/-- With correct options there is a response. -/
theorem value_generate_of_ok {request : Request} {options : Options}
    (h : (Options.parse request.parameter).value = .ok options) :
    (generate request).value = .ok (respondWith options request).value := by
  rw [generate, Logged.value_bind, h]
  rfl

/-- What is answered depends on the files and the requested names. -/
theorem value_respondWith_congr {request other : Request} (hfiles : other.files = request.files)
    (hrequested : other.filesToGenerate = request.filesToGenerate) (options : Options) :
    (respondWith options other).value = (respondWith options request).value := by
  rw [value_respondWith, value_respondWith, hfiles, hrequested]

/-- Only wrong options make a request fail, and with the fault of the options. Otherwise there is a
response. It is empty where no file contributes. Without verification it has the schema document
and a query document for each source, since what was built can always be written. With verification
it is the same, or it is without the schema document and reports why that was refused. -/
theorem generate_cases (request : Request) :
    let b := request.built
    (∀ error, (generate request).value = .error error ↔ ∃ fault,
        (Options.parse request.parameter).value = .error fault ∧ error = .invalidOption fault)
      ∧ (∃ definitions, b.schema.tableDefinitions = .ok definitions)
      ∧ (∀ source, ∃ targets, b.queryTargets source = .ok targets)
      ∧ ∀ options, (Options.parse request.parameter).value = .ok options →
        ∃ response, (generate request).value = .ok response
          ∧ (b.sources = [] → response.files = [] ∧ response.error = none)
          ∧ (b.sources ≠ [] → options.verify = false → response.error = none
            ∧ ∃ (schema : String) (queries : String → String),
              b.schema.document false b.sources = .ok schema
                ∧ response.files = OutputFile.ofContent options.schemaFile schema
                  :: b.sources.map fun source =>
                    OutputFile.ofContent (queryFileName source) (queries source))
          ∧ Request.Quiets
            { request with parameter := some (request.parameter.getD "" ++ ",verify=false") }
            request options
          ∧ (options.verify = true → ∀ quiet : Request, quiet.Quiets request options →
            ∃ unverified, (generate quiet).value = .ok unverified
              ∧ (response = unverified ∨ ∃ error, b.schema.document true b.sources = .error error
                ∧ error.IsVerification
                ∧ response.Withholds unverified options.schemaFile error)) := by
  intro b
  refine ⟨fun error => generate_eq_error_iff, tableDefinitions_built _ _, queryTargets_built _ _,
    fun options hoptions => ⟨_, value_generate_of_ok hoptions, fun hempty => ?_,
      fun hne hverify => ?_, ⟨rfl, rfl, Options.parse_verify_false hoptions⟩,
      fun hverify quiet hquiet => ?_⟩⟩
  · rw [value_respondWith_empty hempty]
    exact ⟨rfl, rfl⟩
  · obtain ⟨schema, hschema, hresponse⟩ := value_respondWith_quiet hne hverify
    rw [hresponse]
    exact ⟨rfl, schema, _, hschema, rfl⟩
  · -- The other request is answered as this one would be without verification.
    refine ⟨_, value_generate_of_ok hquiet.parameter, ?_⟩
    rw [value_respondWith_congr hquiet.files hquiet.filesToGenerate]
    exact value_respondWith_verified hverify

/-- A request for a table with two primary keys, to be verified. -/
def loanRequest : Request where
  filesToGenerate := ["loan.proto"]
  parameter := some "verify=true"
  files := [{
    name := some "loan.proto"
    messages := [{
      name := some "Loan"
      fields := ["book", "reader"].map fun name => {
        name := some name
        kind := some (Numbered.number FieldKind.int64)
        options := some {
          relational := some (Wire.Message.encode ({ primary := some true } : FieldConstraints)) }
      } }] }]

/-- The schema document of that request is refused, the query document is not. -/
theorem generate_loanRequest : ∃ response unverified error,
    (generate loanRequest).value = .ok response
      ∧ (generate { loanRequest with parameter := some "verify=true,verify=false" }).value
        = .ok unverified
      ∧ error.IsVerification ∧ response.Withholds unverified "schema.sql" error := by
  have hoptions : (Options.parse loanRequest.parameter).value = .ok { verify := true } := rfl
  have hquiet : Request.Quiets { loanRequest with parameter := some "verify=true,verify=false" }
      loanRequest { verify := true } := ⟨rfl, rfl, rfl⟩
  obtain ⟨response, hresponse, -, -, -, hverified⟩ :=
    (generate_cases loanRequest).2.2.2 _ hoptions
  obtain ⟨unverified, hunverified, h⟩ := hverified rfl _ hquiet
  rcases h with rfl | ⟨error, -, hkind, hwithholds⟩
  · -- The two responses differ: only the first reports an error.
    have hrefused : (generate loanRequest).value.toOption.bind (·.error) ≠ none := by
      decide +kernel
    have haccepted : (generate { loanRequest with
        parameter := some "verify=true,verify=false" }).value.toOption.bind (·.error) = none := by
      decide +kernel
    rw [hresponse] at hrefused
    rw [hunverified] at haccepted
    exact absurd haccepted hrefused
  · exact ⟨response, unverified, error, hresponse, hunverified, hkind, hwithholds⟩

end ProtoSchema
