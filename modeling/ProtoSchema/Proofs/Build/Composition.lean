import ProtoSchema.Proofs.Build.Run

/-!
# Building for more files

A request with more files is built from the builds for its parts: what the second part adds is what
it builds by itself, without the names that are used already.

Key results:
* `extend_eq` — what is added to a build is filtered by its names
* `build_append` — the build of two lists of files
* `build_append_of_mem` — a file that is requested again adds no table and no enum type
-/

namespace ProtoSchema

open Relational

variable (pool : Pool)

/-- What is built for the files of a request. -/
def Pool.built (requested : List String) : Build :=
  (pool.build requested).value.value

/-- What is built comes from what the walk meets. -/
theorem built_eq (requested : List String) :
    pool.built requested = ({} : Build).extend pool (pool.visits requested) :=
  Building.build_run pool {} (pool.visits requested)

/-- What visits add to a build is what they build by themselves, without the names that are used
already. -/
theorem extend_eq (a : Build) (vs : List Visit) :
    let b := ({} : Build).extend pool vs
    (a.extend pool vs).schema.tables = a.schema.tables
        ++ b.schema.tables.filter (fun t => t.name ∉ a.schema.tables.map (·.name))
      ∧ (a.extend pool vs).schema.enums = a.schema.enums
        ++ b.schema.enums.filter (fun e => e.name ∉ a.schema.enums.map (·.name))
      ∧ (a.extend pool vs).origins = a.origins
        ++ b.origins.filter (fun o => o.1 ∉ a.schema.tables.map (·.name))
      ∧ (a.extend pool vs).sources = a.sources ++ b.sources := by
  intro b
  have hmessages : a.newMessages vs = (({} : Build).newMessages vs).filter
      fun m => m.name ∉ a.schema.tables.map (·.name) := firstNamed_eq_filter _ _ _
  have henums : a.newEnums vs = (({} : Build).newEnums vs).filter
      fun e => e.name ∉ a.schema.enums.map (·.name) := firstNamed_eq_filter _ _ _
  -- Names are kept by tables, types and origins, so they may be filtered before or after.
  refine ⟨congrArg (a.schema.tables ++ ·) ?_, congrArg (a.schema.enums ++ ·) ?_,
    congrArg (a.origins ++ ·) ?_, rfl⟩
  · show _ = ((({} : Build).newMessages vs).map fun m => (pool.table m).value).filter _
    rw [hmessages, List.filter_map]
    rfl
  · show _ = ((({} : Build).newEnums vs).map EnumNode.enumType).filter _
    rw [henums, List.filter_map]
    rfl
  · show _ = ((({} : Build).newMessages vs).map fun m => (m.name, pool.fileName m.file)).filter _
    rw [hmessages, List.filter_map]
    rfl

/-- The origins of a build have the names of its tables. -/
theorem names_origins_built (requested : List String) :
    (pool.built requested).origins.map Prod.fst
      = (pool.built requested).schema.tables.map (·.name) := by
  rw [built_eq, Build.names_tables_extend]
  simp [Build.extend, Function.comp_def]

/-- Building for more files goes on with the build for the first ones. -/
theorem built_append_eq (fs gs : List String) :
    pool.built (fs ++ gs) = (pool.built fs).extend pool (pool.visits gs) := by
  rw [built_eq, Pool.visits_append, Build.extend_append, ← built_eq]

/-- The build of two lists of files: what the second adds has names that the first does not use. -/
theorem build_append (fs gs : List String) :
    let a := pool.built fs
    let b := pool.built gs
    let c := pool.built (fs ++ gs)
    c.schema.tables = a.schema.tables
        ++ b.schema.tables.filter (fun t => t.name ∉ a.schema.tables.map (·.name))
      ∧ c.schema.enums = a.schema.enums
        ++ b.schema.enums.filter (fun e => e.name ∉ a.schema.enums.map (·.name))
      ∧ c.origins = a.origins ++ b.origins.filter (fun o => o.1 ∉ a.origins.map Prod.fst)
      ∧ c.sources = a.sources ++ b.sources := by
  show _ ∧ _ ∧ _ ∧ _
  rw [names_origins_built, built_append_eq, built_eq pool gs]
  exact extend_eq pool (pool.built fs) (pool.visits gs)

/-- Visits that were made before add no message. -/
theorem newMessages_built {fs : List String} {vs : List Visit}
    (h : ∀ v ∈ vs, v ∈ pool.visits fs) : (pool.built fs).newMessages vs = [] := by
  refine firstNamed_eq_nil fun m hm => ?_
  obtain ⟨v, hv, hvm⟩ := List.mem_filterMap.1 hm
  have hmem : m ∈ (pool.visits fs).filterMap Visit.message? :=
    List.mem_filterMap.2 ⟨v, h v hv, hvm⟩
  -- Each of these messages has no name, or a table of its name was built before.
  by_cases hname : m.name = ""
  · exact .inl hname
  · right
    rw [built_eq, Build.names_tables_extend]
    exact mem_names_firstNamed hmem hname List.not_mem_nil

/-- No enum that was met before is new. -/
theorem newEnums_built {fs : List String} {vs : List Visit}
    (h : ∀ v ∈ vs, v ∈ pool.visits fs) : (pool.built fs).newEnums vs = [] := by
  refine firstNamed_eq_nil fun e he => ?_
  obtain ⟨v, hv, hve⟩ := List.mem_filterMap.1 he
  have hmem : e ∈ (pool.visits fs).filterMap Visit.enum? :=
    List.mem_filterMap.2 ⟨v, h v hv, hve⟩
  by_cases hname : e.name = ""
  · exact .inl hname
  · right
    rw [built_eq, Build.names_enums_extend]
    exact mem_names_firstNamed hmem hname List.not_mem_nil

/-- A file that is requested again adds no table, no origin and no enum type. -/
theorem build_append_of_mem {fs : List String} {g : String} (hg : g ∈ fs) :
    (pool.built (fs ++ [g])).schema = (pool.built fs).schema
      ∧ (pool.built (fs ++ [g])).origins = (pool.built fs).origins := by
  have hvisits : ∀ v ∈ pool.visits [g], v ∈ pool.visits fs := by
    intro v hv
    rw [Pool.visits, List.flatMap_singleton] at hv
    exact List.mem_flatMap.2 ⟨g, hg, hv⟩
  -- Nothing is new, so the build is extended by sources only.
  rw [built_append_eq, Build.extend, newMessages_built pool hvisits, newEnums_built pool hvisits]
  simp

end ProtoSchema
