import ProtoSchema.Generation.Response
import ProtoSchema.Proofs.Build.Composition
import ProtoSchema.Proofs.Build.WalkOrder

/-!
# Query documents

The query document of a file depends on the tables of its messages. Where no name is used twice,
these are the same whether the file is requested alone or with others, and so is the document.

Key results:
* `newMessages_of_noDuplicate` — without repetitions every message with a name gets a table
* `queryTargets_extend` — the tables that the queries of a file are written for
* `files_generate` — a response has the schema document and one query document for each source
* `build_compositional` — builds and query documents of parts of a request
-/

namespace ProtoSchema

open Plugin Relational

/-! ## Builds without repetitions -/

/-- No table is left out because its name was used before. -/
def NoDuplicateTable (diagnostics : List Diagnostic) : Prop :=
  ∀ d ∈ diagnostics, ∀ name, d.error ≠ .duplicate .table name

namespace Building

/-- A message whose name was used before is reported. -/
theorem noDuplicateTable_visit {pool : Pool} {b : Building} {node : MessageNode}
    (h : NoDuplicateTable (b.visit pool (.message node)).diagnostics) (hname : node.name ≠ "") :
    node.name ∉ b.build.schema.tables.map (·.name) := by
  intro hmem
  refine h ⟨node.fullName, .duplicate .table node.name⟩ ?_ node.name rfl
  rw [visit, addMessage_of_taken pool (.inr hmem), if_neg hname]
  exact List.mem_append_right _ (List.mem_singleton.2 rfl)

/-- Without repetitions every message with a name gets a table. -/
theorem newMessages_of_noDuplicate {pool : Pool} {vs : List Visit} {b : Building}
    (h : NoDuplicateTable (run pool b vs).diagnostics) :
    b.build.newMessages vs = (vs.filterMap Visit.message?).filter (·.name ≠ "") := by
  induction vs generalizing b with
  | nil => rfl
  | cons v vs ih =>
    have hfirst : b.build.newMessages [v]
        = ([v].filterMap Visit.message?).filter (·.name ≠ "") := by
      cases v with
      | message node =>
        have hvisit : NoDuplicateTable (b.visit pool (.message node)).diagnostics :=
          fun d hd => h d (mem_diagnostics_run pool hd vs)
        have hmessage : [Visit.message node].filterMap Visit.message? = [node] := rfl
        rw [Build.newMessages, hmessage]
        by_cases hname : node.name = ""
        · rw [firstNamed_cons_of_taken (.inl hname)]
          simp [hname, firstNamed]
        · have hnew := noDuplicateTable_visit hvisit hname
          rw [firstNamed_cons_of_new (not_or.2 ⟨hname, hnew⟩)]
          simp [hname, firstNamed]
      | _ => rfl
    -- What is reported in a visit is still reported in the end.
    have hrest := ih h
    rw [build_visit] at hrest
    rw [← List.singleton_append, Build.newMessages_append pool, hfirst, hrest,
      List.filterMap_append, List.filter_append]

end Building

/-! ## Tables of a file -/

/-- Where all of a list can be made, so can the list. -/
theorem mapM_eq_ok_map {α β ε : Type} {f : α → Except ε β} {g : α → β} {xs : List α}
    (h : ∀ x ∈ xs, f x = .ok (g x)) : xs.mapM f = .ok (xs.map g) := by
  induction xs with
  | nil => rfl
  | cons x xs ih =>
    have hx := h x List.mem_cons_self
    have hxs := ih fun y hy => h y (List.mem_cons_of_mem x hy)
    rw [List.mapM_cons, hx, hxs]
    rfl

/-- Every message that gets a table is found by its name. -/
theorem table?_extend (pool : Pool) {vs : List Visit} {m : MessageNode}
    (hm : m ∈ ({} : Build).newMessages vs) :
    (({} : Build).extend pool vs).schema.table? m.name = some (pool.table m).value := by
  have hnames : ((({} : Build).extend pool vs).schema.tables.map (·.name)).Nodup := by
    rw [Build.names_tables_extend]
    exact (nodup_names_firstNamed _ _ _).1
  rw [table?_eq_some_iff hnames]
  exact ⟨List.mem_map_of_mem hm, rfl⟩

/-- The messages of a file that get a table. -/
def fileMessages (pool : Pool) (vs : List Visit) (file : String) : List MessageNode :=
  (({} : Build).newMessages vs).filter fun m => pool.fileName m.file = file

/-- The queries of a file are written for the tables of its messages. -/
theorem queryTargets_extend (pool : Pool) (vs : List Visit) (file : String) :
    (({} : Build).extend pool vs).queryTargets file
      = .ok ((fileMessages pool vs file).map fun m => { table := (pool.table m).value }) := by
  have htables : (({} : Build).extend pool vs).tablesIn file
      = (fileMessages pool vs file).map (·.name) := by
    show ((((({} : Build).newMessages vs).map fun m => (m.name, pool.fileName m.file)).filter
      (·.2 = file)).map Prod.fst) = _
    rw [List.filter_map, List.map_map]
    rfl
  rw [Build.queryTargets, htables, List.mapM_map]
  refine mapM_eq_ok_map fun m hm => ?_
  rw [Function.comp_apply, table?_extend pool (List.mem_filter.1 hm).1]

/-! ## Messages of a requested file -/

/-- What contributes for a name is a file of that name. -/
theorem name_of_mem_contributing {files : List FileDescriptor} {name : String} {f : FileDescriptor}
    (hf : f ∈ contributing files [name]) : f.name.getD "" = name := by
  obtain ⟨g, hg, hfind⟩ := List.mem_filterMap.1 (List.mem_filter.1 hf).1
  rw [List.mem_singleton.1 hg] at hfind
  simpa using List.find?_some hfind

/-- The messages that are met for a name are declared in the file of that name. -/
theorem fileName_of_mem_visitsOf {files : List FileDescriptor} {name : String} {m : MessageNode}
    (hm : m ∈ ((Pool.ofFiles files).visitsOf name).filterMap Visit.message?) :
    (Pool.ofFiles files).fileName m.file = name := by
  have hview := List.mem_map_of_mem (f := (Pool.ofFiles files).view) hm
  rw [(Pool.parts_visitsOf files name).1] at hview
  obtain ⟨v, hv, hvm⟩ := List.mem_map.1 hview
  -- The message was declared in a file that contributes, and that file has the name.
  obtain ⟨f, hf, hvf⟩ := List.mem_flatMap.1 hv
  obtain ⟨d, -, rfl⟩ := List.mem_map.1 hvf
  have hname : f.name.getD "" = (Pool.ofFiles files).fileName m.file := congrArg Prod.fst hvm
  rw [← hname, name_of_mem_contributing hf]

/-- A source is requested, and contributes when it is requested alone. -/
theorem contributing_of_mem_sources {files : List FileDescriptor} {requested : List String}
    {source : String} (h : source ∈ (contributing files requested).map (·.name.getD "")) :
    source ∈ requested ∧ (contributing files [source]).map (·.name.getD "") = [source] := by
  obtain ⟨f, hf, hname⟩ := List.mem_map.1 h
  obtain ⟨hfound, hmessages⟩ := List.mem_filter.1 hf
  obtain ⟨name, hmem, hfind⟩ := List.mem_filterMap.1 hfound
  have heq : f.name.getD "" = name := by simpa using List.find?_some hfind
  rw [← hname, heq]
  refine ⟨hmem, ?_⟩
  -- Requested alone, the name finds the same file, which still has messages.
  have halone : contributing files [name] = [f] := by
    simp only [contributing, List.filterMap_cons, List.filterMap_nil, hfind]
    exact List.filter_cons_of_pos hmessages
  rw [halone, List.map_singleton, heq]

/-- The messages with names that are met for a requested name. -/
def namedMessages (pool : Pool) (name : String) : List MessageNode :=
  ((pool.visitsOf name).filterMap Visit.message?).filter (·.name ≠ "")

/-- Messages that are met file by file are found again by their file. -/
theorem filter_flatMap_namedMessages (files : List FileDescriptor) (requested : List String)
    (source : String) :
    (requested.flatMap (namedMessages (Pool.ofFiles files))).filter
        (fun m => (Pool.ofFiles files).fileName m.file = source)
      = (List.replicate (requested.count source) source).flatMap
        (namedMessages (Pool.ofFiles files)) := by
  have hfile : ∀ name, ∀ m ∈ namedMessages (Pool.ofFiles files) name,
      (Pool.ofFiles files).fileName m.file = name :=
    fun name m hm => fileName_of_mem_visitsOf (List.mem_filter.1 hm).1
  induction requested with
  | nil => rfl
  | cons name names ih =>
    rw [List.flatMap_cons, List.filter_append, ih]
    -- What is met for a name is declared in that file, and so kept as a whole or not at all.
    by_cases h : name = source
    · subst h
      have hall : (namedMessages (Pool.ofFiles files) name).filter
          (fun m => (Pool.ofFiles files).fileName m.file = name)
          = namedMessages (Pool.ofFiles files) name := by
        rw [List.filter_eq_self]
        exact fun m hm => by simpa using hfile name m hm
      rw [hall, List.count_cons_self, List.replicate_succ, List.flatMap_cons]
    · have hnone : (namedMessages (Pool.ofFiles files) name).filter
          (fun m => (Pool.ofFiles files).fileName m.file = source) = [] := by
        rw [List.filter_eq_nil_iff]
        intro m hm hsource
        exact h ((hfile name m hm).symm.trans (by simpa using hsource))
      rw [hnone, List.nil_append, List.count_cons_of_ne h]

/-- Where a list stands several times without repeating a name, it is empty or stands once. -/
theorem flatMap_replicate_of_nodup {α : Type} {name : α → String} {F : String → List α}
    {source : String} {k : Nat} (hk : 0 < k)
    (h : (((List.replicate k source).flatMap F).map name).Nodup) :
    (List.replicate k source).flatMap F = F source := by
  obtain ⟨k, rfl⟩ : ∃ n, k = n + 1 := ⟨k - 1, by omega⟩
  cases k with
  | zero => simp
  | succ k =>
    -- A name that stood twice would be repeated.
    have hempty : F source = [] := by
      cases hF : F source with
      | nil => rfl
      | cons x xs => simp [List.replicate_succ, hF] at h
    have hall : ∀ n, (List.replicate n source).flatMap F = [] := by
      intro n
      simp [List.flatMap_eq_nil_iff, hempty]
    rw [hall, hempty]

/-- Without repetitions a file has the same messages whether it is requested alone or with
others. -/
theorem fileMessages_eq {files : List FileDescriptor} {requested : List String} {source : String}
    (hsource : source ∈ requested)
    (h : NoDuplicateTable (Building.run (Pool.ofFiles files) {}
      ((Pool.ofFiles files).visits requested)).diagnostics) :
    fileMessages (Pool.ofFiles files) ((Pool.ofFiles files).visits requested) source
      = fileMessages (Pool.ofFiles files) ((Pool.ofFiles files).visits [source]) source := by
  have hnew : ({} : Build).newMessages ((Pool.ofFiles files).visits requested)
      = requested.flatMap (namedMessages (Pool.ofFiles files)) := by
    have hall := Building.newMessages_of_noDuplicate h
    rw [Pool.visits, List.filterMap_flatMap, List.filter_flatMap] at hall
    exact hall
  have hnodup : ((requested.flatMap (namedMessages (Pool.ofFiles files))).map (·.name)).Nodup := by
    rw [← hnew]
    exact (nodup_names_firstNamed _ _ _).1
  -- Together with others, the file has the messages that are met each time it is requested.
  have htogether : fileMessages (Pool.ofFiles files) ((Pool.ofFiles files).visits requested) source
      = namedMessages (Pool.ofFiles files) source := by
    have hfilter := filter_flatMap_namedMessages files requested source
    have hsub := ((List.filter_sublist (l := requested.flatMap (namedMessages (Pool.ofFiles files)))
      (p := fun m => (Pool.ofFiles files).fileName m.file = source)).map (·.name)).nodup hnodup
    rw [hfilter] at hsub
    rw [fileMessages, hnew, hfilter, flatMap_replicate_of_nodup (List.count_pos_iff.2 hsource) hsub]
  have halone : fileMessages (Pool.ofFiles files) ((Pool.ofFiles files).visits [source]) source
      = namedMessages (Pool.ofFiles files) source := by
    have hnames : ((namedMessages (Pool.ofFiles files) source).map (·.name)).Nodup := by
      rw [← htogether]
      exact ((List.filter_sublist (l := ({} : Build).newMessages _)).map (·.name)).nodup
        (nodup_names_firstNamed _ _ _).1
    have hfilter := filter_flatMap_namedMessages files [source] source
    rw [List.flatMap_singleton] at hfilter
    rw [fileMessages, Build.newMessages, Pool.visits, List.flatMap_singleton,
      firstNamed_of_nodup hnames]
    exact hfilter.trans (by simp)
  rw [htogether, halone]

/-! ## Documents of a response -/

/-- The query document of a file in a build for what is met in `vs`. -/
def documentOf (pool : Pool) (vs : List Visit) (source : String) : OutputFile :=
  OutputFile.ofContent (queryFileName source) (queryDocument [source]
    ((fileMessages pool vs source).map fun m => { table := (pool.table m).value }))

/-- The query document of a file can always be made. -/
theorem value_queryAttempt_extend (pool : Pool) (vs : List Visit) (source : String) :
    ((({} : Build).extend pool vs).queryAttempt source).value
      = some (.ok (documentOf pool vs source)) := by
  rw [Build.queryAttempt, queryTargets_extend]
  rfl

/-- The value of several steps is the list of their values. -/
theorem value_mapM {α β : Type} (f : α → Logged β) (xs : List α) :
    (xs.mapM f).value = xs.map fun x => (f x).value := by
  induction xs with
  | nil => rfl
  | cons x xs ih =>
    rw [List.mapM_cons, Logged.value_bind, Logged.value_bind, ih]
    rfl

/-- The documents of a build: the schema document may fail, the others cannot. -/
theorem value_attempts_built (pool : Pool) (requested : List String) (options : Options) :
    ((pool.built requested).attempts options).value
      = ((pool.built requested).schemaAttempt options).value
        :: ((pool.built requested).sources.map
          (documentOf pool (pool.visits requested))).map .ok := by
  have hqueries : ((pool.built requested).sources.mapM (pool.built requested).queryAttempt).value
      = (pool.built requested).sources.map fun source =>
        some (.ok (documentOf pool (pool.visits requested) source)) := by
    rw [value_mapM, built_eq]
    exact List.map_congr_left fun source _ => value_queryAttempt_extend pool _ source
  rw [Build.attempts, Logged.value_bind, Logged.value_bind, hqueries, Logged.value_pure,
    List.filterMap_map]
  simp [Function.comp_def]

/-- The documents of a response of which only the first may have failed. -/
theorem files_ofAttempts (first : Attempt) (files : List OutputFile) :
    (Response.ofAttempts (first :: files.map .ok)).files = first.toOption.toList ++ files := by
  have hfiles : (files.map Except.ok : List Attempt).filterMap Except.toOption = files := by
    rw [List.filterMap_map]
    exact List.filterMap_some
  cases first with
  | error text => exact hfiles
  | ok file => exact congrArg (file :: ·) hfiles

/-- The response to a request, by what is built for it. -/
theorem value_respondWith (options : Options) (request : Request) :
    (respondWith options request).value
      = Response.ofAttempts
        (if ((Pool.ofFiles request.files).built request.filesToGenerate).sources.isEmpty then []
        else (((Pool.ofFiles request.files).built request.filesToGenerate).attempts options).value)
      := by
  rw [respondWith, Logged.value_bind, Logged.value_bind, Logged.value_bind]
  show (if ((Pool.ofFiles request.files).built request.filesToGenerate).sources.isEmpty then
    _ else _ : Logged Response).value = _
  split <;> rfl

/-- A response has the schema document, if it could be made, and one query document for each
source. -/
theorem files_generate {request : Request} {response : Response}
    (h : (generate request).value = .ok response) :
    let pool := Pool.ofFiles request.files
    let b := pool.built request.filesToGenerate
    ∃ schema : Option OutputFile, response.files = schema.toList
      ++ b.sources.map (documentOf pool (pool.visits request.filesToGenerate)) := by
  intro pool b
  cases hoptions : (Options.parse request.parameter).value with
  | error fault =>
    rw [generate, Logged.value_bind, hoptions] at h
    cases h
  | ok options =>
    have hresponse : response = (respondWith options request).value := by
      rw [generate, Logged.value_bind, hoptions] at h
      exact (Except.ok.inj h).symm
    rw [hresponse, value_respondWith]
    -- Without sources nothing is written; otherwise the schema comes first, if it did not fail.
    by_cases hempty : b.sources.isEmpty = true
    · refine ⟨none, ?_⟩
      rw [if_pos hempty, List.isEmpty_iff.1 hempty]
      rfl
    · refine ⟨(b.schemaAttempt options).value.toOption, ?_⟩
      rw [if_neg hempty, value_attempts_built, files_ofAttempts]

/-- The sources of a build are the files that contribute. -/
theorem sources_built (files : List FileDescriptor) (requested : List String) :
    ((Pool.ofFiles files).built requested).sources
      = (contributing files requested).map (·.name.getD "") :=
  (Pool.parts_visits files requested).2.2 ▸ congrArg Build.sources (built_eq _ requested)

/-- Without repetitions each query document is the one in the response to a request for its file
alone. -/
theorem documents_generate_alone {request : Request} {response : Response}
    (h : (generate request).value = .ok response)
    (hdup : NoDuplicateTable ((Pool.ofFiles request.files).build
      request.filesToGenerate).value.diagnostics) :
    let sources := ((Pool.ofFiles request.files).built request.filesToGenerate).sources
    ∃ document : String → OutputFile,
      (∀ source, (document source).name = some (queryFileName source))
        ∧ (∃ schema : Option OutputFile, response.files = schema.toList ++ sources.map document)
        ∧ ∀ source ∈ sources, ∃ alone : Response,
          (generate { request with filesToGenerate := [source] }).value = .ok alone
            ∧ ∃ schema : Option OutputFile, alone.files = schema.toList ++ [document source] := by
  intro sources
  refine ⟨_, fun source => rfl, files_generate h, fun source hsource => ?_⟩
  have hcontributing : source ∈ (contributing request.files request.filesToGenerate).map
      (·.name.getD "") := sources_built _ _ ▸ hsource
  obtain ⟨hrequested, halone⟩ := contributing_of_mem_sources hcontributing
  have hmessages := fileMessages_eq hrequested fun d hd => hdup d (List.mem_append_left _ hd)
  cases hresponse : (generate { request with filesToGenerate := [source] }).value with
  | error error =>
    -- The options are those of the whole request, which has a response.
    obtain ⟨fault, hoptions, -⟩ := generate_eq_error_iff.1 hresponse
    have herror : (generate request).value = _ := generate_eq_error_iff.2 ⟨fault, hoptions, rfl⟩
    rw [h] at herror
    cases herror
  | ok alone =>
    obtain ⟨schema, hfiles⟩ := files_generate hresponse
    refine ⟨alone, rfl, schema, ?_⟩
    rw [hfiles, sources_built, halone, documentOf, hmessages]
    rfl

/-! ## Parts of a request -/

/-- Building is compositional in the requested files. For the files `fs ++ gs` it adds to what it
builds for `fs` what it builds for `gs`, without the names that are used already; so nothing that is
built changes when a file is added, and a file that is requested again adds nothing. Where no table
name is used twice, the query document of each source is the one in the response to a request for
that file alone. -/
theorem build_compositional :
    (∀ (pool : Pool) (fs gs : List String),
      let a := pool.built fs
      let b := pool.built gs
      let c := pool.built (fs ++ gs)
      c.schema.tables = a.schema.tables
          ++ b.schema.tables.filter (fun t => t.name ∉ a.schema.tables.map (·.name))
        ∧ c.schema.enums = a.schema.enums
          ++ b.schema.enums.filter (fun e => e.name ∉ a.schema.enums.map (·.name))
        ∧ c.origins = a.origins ++ b.origins.filter (fun o => o.1 ∉ a.origins.map Prod.fst)
        ∧ c.sources = a.sources ++ b.sources)
      ∧ (∀ (pool : Pool) (fs : List String) (g : String),
        (pool.built fs).schema.tables <+: (pool.built (fs ++ [g])).schema.tables
          ∧ (pool.built fs).schema.enums <+: (pool.built (fs ++ [g])).schema.enums
          ∧ (g ∈ fs → (pool.built (fs ++ [g])).schema = (pool.built fs).schema))
      ∧ ∀ (request : Request) (response : Response), (generate request).value = .ok response →
        NoDuplicateTable
          ((Pool.ofFiles request.files).build request.filesToGenerate).value.diagnostics →
        let sources := ((Pool.ofFiles request.files).built request.filesToGenerate).sources
        ∃ document : String → OutputFile,
          (∀ source, (document source).name = some (queryFileName source))
            ∧ (∃ schema : Option OutputFile, response.files = schema.toList ++ sources.map document)
            ∧ ∀ source ∈ sources, ∃ alone : Response,
              (generate { request with filesToGenerate := [source] }).value = .ok alone
                ∧ ∃ schema : Option OutputFile,
                  alone.files = schema.toList ++ [document source] := by
  refine ⟨build_append, fun pool fs g => ?_, fun request response => documents_generate_alone⟩
  -- One more file only adds behind what is there.
  obtain ⟨htables, henums, -, -⟩ := build_append pool fs [g]
  exact ⟨⟨_, htables.symm⟩, ⟨_, henums.symm⟩, fun hg => (build_append_of_mem pool hg).1⟩

/-- A request for two files with a message each. -/
def pairRequest : Request where
  filesToGenerate := ["author.proto", "book.proto"]
  files := [
    { name := some "author.proto"
      messages := [{ name := some "Author", fields := [{ name := some "id", kind := some 3 }] }] },
    { name := some "book.proto"
      messages := [{ name := some "Book", fields := [{ name := some "title", kind := some 9 }] }] }]

/-- The two files may be requested one by one. -/
theorem build_compositional_pairRequest : ∃ response, (generate pairRequest).value = .ok response
    ∧ NoDuplicateTable ((Pool.ofFiles pairRequest.files).build
      pairRequest.filesToGenerate).value.diagnostics
    ∧ ∃ document : String → OutputFile,
      (∃ schema : Option OutputFile, response.files
        = schema.toList ++ [document "author.proto", document "book.proto"])
      ∧ ∃ alone, (generate { pairRequest with filesToGenerate := ["book.proto"] }).value = .ok alone
        ∧ ∃ schema : Option OutputFile, alone.files = schema.toList ++ [document "book.proto"] := by
  have hdiagnostics : ((Pool.ofFiles pairRequest.files).build
      pairRequest.filesToGenerate).value.diagnostics = [] := by decide +kernel
  have hsources : ((Pool.ofFiles pairRequest.files).built pairRequest.filesToGenerate).sources
      = ["author.proto", "book.proto"] := by decide +kernel
  have hdup : NoDuplicateTable ((Pool.ofFiles pairRequest.files).build
      pairRequest.filesToGenerate).value.diagnostics := by
    rw [hdiagnostics]
    exact fun d hd => absurd hd List.not_mem_nil
  obtain ⟨response, hresponse⟩ : ∃ response, (generate pairRequest).value = .ok response := ⟨_, rfl⟩
  obtain ⟨document, -, hfiles, halone⟩ :=
    build_compositional.2.2 pairRequest response hresponse hdup
  rw [hsources] at hfiles halone
  exact ⟨response, hresponse, hdup, document, hfiles, halone "book.proto" (by decide)⟩

end ProtoSchema
