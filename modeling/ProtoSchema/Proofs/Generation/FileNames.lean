import ProtoSchema.Proofs.Generation.Failures
import ProtoSchema.Proofs.Generation.TableQueries

/-!
# The names of the documents

Each document of a response has the name of the file that it is written to. The query documents of
different sources have different names; the schema document has the name that the options say, and
nothing keeps that apart from the names of the query documents.

Key results:
* `queryFileName_proto` — the name of a query document, from the name of its source
* `nodup_queryFileNames` — no two query documents have the same name
* `nodup_fileNames_iff` — when all documents of a response have different names
-/

namespace ProtoSchema

open Plugin Relational

/-! ## Names of query documents -/

/-- The extension of a source is replaced. -/
theorem queryFileName_proto (stem : String) :
    queryFileName (stem ++ ".proto") = stem ++ ".sql" := by
  have hsuffix : ".proto".toList.isSuffixOf (stem ++ ".proto").toList = true := by
    rw [List.isSuffixOf_iff_suffix, String.toList_append]
    exact List.suffix_append _ _
  -- What is left in front of the extension is the stem.
  have htake : (stem ++ ".proto").toList.take
      ((stem ++ ".proto").toList.length - ".proto".toList.length) = stem.toList := by
    rw [String.toList_append, List.length_append, Nat.add_sub_cancel, List.take_left]
  simp only [queryFileName, hsuffix, ↓reduceIte, htake, String.ofList_toList]

/-- Two sources with the extension have query documents of the same name only if they are one. -/
theorem eq_of_queryFileName_eq {source source' : String} (h : ∃ stem, source = stem ++ ".proto")
    (h' : ∃ stem, source' = stem ++ ".proto") (heq : queryFileName source = queryFileName source') :
    source = source' := by
  obtain ⟨stem, rfl⟩ := h
  obtain ⟨stem', rfl⟩ := h'
  rw [queryFileName_proto, queryFileName_proto] at heq
  -- The extension is replaced by another fixed text, so the stems are the same.
  have hlist := congrArg String.toList heq
  rw [String.toList_append, String.toList_append] at hlist
  rw [String.toList_injective (List.append_cancel_right hlist)]

namespace Plugin.Request

variable {request : Request}

/-- The sources of a request are some of the requested names, in order. -/
theorem sources_sublist (request : Request) :
    request.built.sources.Sublist request.filesToGenerate := by
  rw [built, sources_built]
  exact names_contributing_sublist request.files request.filesToGenerate

/-- No two query documents have the same name. -/
theorem nodup_queryFileNames (hdistinct : request.filesToGenerate.Nodup)
    (hproto : ∀ name ∈ request.filesToGenerate, ∃ stem, name = stem ++ ".proto") :
    (request.built.sources.map queryFileName).Nodup := by
  have hsublist := request.sources_sublist
  apply List.Nodup.map_on _ (hsublist.nodup hdistinct)
  intro source hsource source' hsource'
  exact eq_of_queryFileName_eq (hproto source (hsublist.subset hsource))
    (hproto source' (hsublist.subset hsource'))

/-- A query document has the name that its source says. -/
theorem map_name_queryDocuments (request : Request) :
    request.queryDocuments.map (·.name) = (request.built.sources.map queryFileName).map some := by
  rw [queryDocuments, List.map_map, List.map_map]
  rfl

end Plugin.Request

/-! ## Names of all documents -/

/-- The schema document of a request, if there is one: some file contributes, and verification does
not refuse it. -/
def Plugin.Request.schemaText? (request : Request) (options : Options) : Option String :=
  if request.built.sources = [] then none
  else (request.built.schema.document options.verify request.built.sources).toOption

/-- The names of the documents: the schema document comes first, if there is one. -/
theorem map_name_files_respondWith (request : Request) (options : Options) :
    (respondWith options request).value.files.map (·.name)
      = ((request.schemaText? options).map fun _ => some options.schemaFile).toList
        ++ (request.built.sources.map queryFileName).map some := by
  by_cases hempty : request.built.sources = []
  · rw [value_respondWith_empty hempty, Request.schemaText?, if_pos hempty, hempty]
    rfl
  · rw [Request.schemaText?, if_neg hempty, ← request.map_name_queryDocuments]
    -- The schema file is there or not; the query files are there either way.
    cases hdocument : request.built.schema.document options.verify request.built.sources with
    | ok text =>
      rw [value_respondWith_of_ok hempty hdocument]
      rfl
    | error error =>
      rw [value_respondWith_of_error hempty hdocument]
      rfl

/-- A name that may stand in front of different names is one more unless it is among them. -/
theorem nodup_toList_append_map_some {α : Type} (text : Option α) (name : String)
    {names : List String} (h : names.Nodup) :
    ((text.map fun _ => some name).toList ++ names.map some).Nodup
      ↔ (text.isSome → name ∉ names) := by
  have hnames : (names.map some).Nodup := (List.nodup_map_iff fun _ _ => Option.some.inj).2 h
  cases text <;> simp [hnames]

/-- Where the requested names are different and have the extension, no two query documents have the
same name. All documents of the response then have different names exactly when there is no schema
document, or no source whose query document has the name of the schema document; so they do where
no requested name has such a query document. -/
theorem nodup_fileNames_iff {request : Request} {options : Options}
    (hdistinct : request.filesToGenerate.Nodup)
    (hproto : ∀ name ∈ request.filesToGenerate, ∃ stem, name = stem ++ ".proto")
    (hoptions : (Options.parse request.parameter).value = .ok options) :
    let queryNames := request.built.sources.map queryFileName
    ∃ response, (generate request).value = .ok response
      ∧ response.files.map (·.name)
        = ((request.schemaText? options).map fun _ => some options.schemaFile).toList
          ++ queryNames.map some
      ∧ queryNames.Nodup
      ∧ ((response.files.map (·.name)).Nodup
        ↔ ((request.schemaText? options).isSome → options.schemaFile ∉ queryNames))
      ∧ ((∀ name ∈ request.filesToGenerate, queryFileName name ≠ options.schemaFile) →
        (response.files.map (·.name)).Nodup) := by
  intro queryNames
  have hqueries : queryNames.Nodup := Request.nodup_queryFileNames hdistinct hproto
  have hnames := map_name_files_respondWith request options
  have hiff := nodup_toList_append_map_some (request.schemaText? options) options.schemaFile
    hqueries
  refine ⟨_, value_generate_of_ok hoptions, hnames, hqueries, hnames ▸ hiff, fun hother => ?_⟩
  rw [hnames]
  -- Every source is one of the requested names, so no query file has the name of the schema file.
  refine hiff.2 fun _ hmem => ?_
  obtain ⟨source, hsource, heq⟩ := List.mem_map.1 hmem
  exact hother source (request.sources_sublist.subset hsource) heq

/-- A request for files in two directories, of which one is named like the schema document. -/
def shelfRequest : Request where
  filesToGenerate := ["schema.proto", "db/shelf.proto"]
  parameter := some "schema_file=db/schema.sql"
  files := ["schema", "db/shelf"].map fun stem => {
    name := some (stem ++ ".proto")
    messages := [{ name := some stem, fields := [{ name := some "id", kind := some 3 }] }] }

/-- The schema document is in another directory than the query document of the same name. -/
theorem nodup_fileNames_shelfRequest :
    shelfRequest.filesToGenerate.Nodup
      ∧ (∀ name ∈ shelfRequest.filesToGenerate, ∃ stem, name = stem ++ ".proto")
      ∧ ∃ response, (generate shelfRequest).value = .ok response
        ∧ response.files.map (·.name)
          = [some "db/schema.sql", some "schema.sql", some "db/shelf.sql"]
        ∧ (response.files.map (·.name)).Nodup := by
  have hdistinct : shelfRequest.filesToGenerate.Nodup := by decide
  have hproto : ∀ name ∈ shelfRequest.filesToGenerate, ∃ stem, name = stem ++ ".proto" := by
    intro name hname
    rcases List.mem_pair.1 hname with rfl | rfl
    · exact ⟨"schema", rfl⟩
    · exact ⟨"db/shelf", rfl⟩
  have hoptions : (Options.parse shelfRequest.parameter).value
      = .ok { schemaFile := "db/schema.sql" } := rfl
  obtain ⟨response, hresponse, hnames, -, -, hnodup⟩ :=
    nodup_fileNames_iff hdistinct hproto hoptions
  have hother : ∀ name ∈ shelfRequest.filesToGenerate, queryFileName name ≠ "db/schema.sql" := by
    decide
  refine ⟨hdistinct, hproto, response, hresponse, hnames.trans ?_, hnodup hother⟩
  decide +kernel

/-- A request for a file that is named like the schema document. -/
def schemaRequest : Request where
  filesToGenerate := ["schema.proto"]
  files := [{
    name := some "schema.proto"
    messages := [{ name := some "Book", fields := [{ name := some "id", kind := some 5 }] }] }]

/-- The query document of that file has the name of the schema document. -/
theorem not_nodup_fileNames_schemaRequest :
    schemaRequest.filesToGenerate.Nodup
      ∧ (∀ name ∈ schemaRequest.filesToGenerate, ∃ stem, name = stem ++ ".proto")
      ∧ (Options.parse schemaRequest.parameter).value = .ok {}
      ∧ ∃ response, (generate schemaRequest).value = .ok response
        ∧ ¬(response.files.map (·.name)).Nodup := by
  have hproto : ∀ name ∈ schemaRequest.filesToGenerate, ∃ stem, name = stem ++ ".proto" := by
    intro name hname
    exact ⟨"schema", List.mem_singleton.1 hname⟩
  have hoptions : (Options.parse schemaRequest.parameter).value = .ok {} := rfl
  refine ⟨by decide, hproto, hoptions, _, value_generate_of_ok hoptions, ?_⟩
  rw [map_name_files_respondWith]
  decide +kernel

end ProtoSchema
