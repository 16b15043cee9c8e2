import ProtoSchema.Build.Schema
import ProtoSchema.Generation.SchemaDocument
import ProtoSchema.Options

/-!
# From request to response

A response has the schema document and one query document for each file that contributes. Only
wrong options make a request fail; a document that cannot be made is left out and reported in the
response.

Key results:
* `generate_eq_error_iff` — exactly when a request fails
-/

namespace ProtoSchema

open Plugin Relational

/-- The name of the query document of a file: its extension `.proto` becomes `.sql`. -/
def queryFileName (source : String) : String :=
  let chars := source.toList
  let extension := ".proto".toList
  let stem :=
    -- Another extension is kept, and `.sql` put behind it.
    if extension.isSuffixOf chars then chars.take (chars.length - extension.length) else chars
  String.ofList stem ++ ".sql"

/-- A document of the response. -/
def OutputFile.ofContent (name content : String) : OutputFile :=
  { name := some name, content := some content }

/-- A document, or why there is none. -/
abbrev Attempt := Except String OutputFile

namespace Build

/-- The schema document, or its name and what is wrong with it. -/
def schemaAttempt (b : Build) (options : Options) : Logged Attempt := do
  let name := options.schemaFile
  Logged.note (.generatingSchema name)
  match b.schema.document options.verify b.sources with
  | .ok content => pure (.ok (OutputFile.ofContent name content))
  | .error error =>
    Logged.note (.schemaFailed name error)
    pure (.error (name ++ ": " ++ error.message))

/-- What queries are to be written for: the tables of a file. A name without a table is given
back. -/
def queryTargets (b : Build) (source : String) : Except String (List QueryTarget) :=
  (b.tablesIn source).mapM fun name =>
    match b.schema.table? name with
    | some table => .ok { table }
    | none => .error name

/-- The query document of a file, unless a table is missing. -/
def queryAttempt (b : Build) (source : String) : Logged (Option Attempt) := do
  let name := queryFileName source
  Logged.note (.generatingQueries source name)
  match b.queryTargets source with
  | .ok targets =>
    Logged.noteAll (targets.filterMap fun t => t.gap?.map .queryGap)
    pure (some (.ok (OutputFile.ofContent name (queryDocument [source] targets))))
  | .error missing =>
    Logged.note (.queriesSkipped source (.tableNotFound missing))
    pure none

/-- All documents of a build, the schema document first. -/
def attempts (b : Build) (options : Options) : Logged (List Attempt) := do
  let schema ← b.schemaAttempt options
  let queries ← b.sources.mapM b.queryAttempt
  return schema :: queries.filterMap id

end Build

/-- The response with the documents that could be made; what is wrong with the others is its
error. -/
def Response.ofAttempts (attempts : List Attempt) : Response where
  supportedFeatures := some (Numbered.number Feature.proto3Optional).toInt64.toUInt64
  files := attempts.filterMap Except.toOption
  error :=
    let errors := attempts.filterMap fun
      | .error text => some text
      | .ok _ => none
    if errors.isEmpty then none else some ("; ".intercalate errors)

/-- The event about the version of the compiler, if the request has one. -/
def versionEvents (request : Request) : List Event :=
  match request.compilerVersion with
  | none => []
  | some v => [.invoked (v.major.getD 0) (v.minor.getD 0) (v.patch.getD 0)]

/-- The response to a request, with given options. -/
def respondWith (options : Options) (request : Request) : Logged Response := do
  Logged.noteAll (versionEvents request)
  let outcome ← (Pool.ofFiles request.files).build request.filesToGenerate
  Logged.noteAll (outcome.diagnostics.map .problem)
  -- Without a file that contributes there is not even a schema document.
  if outcome.value.sources.isEmpty then
    Logged.note .nothingToGenerate
    return Response.ofAttempts []
  else return Response.ofAttempts (← outcome.value.attempts options)

/-- The response to a request. -/
def generate (request : Request) : Logged (Except Error Response) := do
  match ← Options.parse request.parameter with
  | .error fault => pure (.error (.invalidOption fault))
  | .ok options => return .ok (← respondWith options request)

/-- A request fails when its options are wrong, and with that fault. -/
theorem generate_eq_error_iff {request : Request} {error : Error} :
    (generate request).value = .error error ↔
      ∃ fault, (Options.parse request.parameter).value = .error fault
        ∧ error = .invalidOption fault := by
  simp only [generate, Logged.value_bind]
  -- Once the options are read the request is answered, whatever else goes wrong.
  cases (Options.parse request.parameter).value with
  | error fault => simp [eq_comm]
  | ok options => simp

end ProtoSchema
