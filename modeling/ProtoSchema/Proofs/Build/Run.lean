import ProtoSchema.Build.Schema
import ProtoSchema.Proofs.FirstNamed
import ProtoSchema.Proofs.Relational.Lookup

/-!
# What building keeps

Building adds to a build the tables of the messages that the walk meets, the first of each name
that is not used before, the enums in the same way, and the names of the files.

Key results:
* `addMessage_of_taken`, `addMessage_of_new` — all that can become of a message
* `build_visit` — what one visit adds
* `build_run` — what a run adds
* `mem_diagnostics_run` — what was reported stays reported
* `extend_append` — a run may be taken part by part
-/

namespace ProtoSchema

open Relational

namespace Visit

/-- The node of a message that is met. -/
def message? : Visit → Option MessageNode
  | message node => some node
  | _ => none

/-- The node of an enum that is met. -/
def enum? : Visit → Option EnumNode
  | enum node => some node
  | _ => none

/-- The name of a file that contributes. -/
def source? : Visit → Option String
  | file name => some name
  | _ => none

end Visit

/-- The enum type of an enum. -/
def EnumNode.enumType (node : EnumNode) : EnumType where
  name := node.name
  values := node.values

namespace Build

/-- The messages of `vs` that get a table: the first of each name that is not the name of a
table. -/
def newMessages (b : Build) (vs : List Visit) : List MessageNode :=
  firstNamed (·.name) (b.schema.tables.map (·.name)) (vs.filterMap Visit.message?)

/-- The enums of `vs` that get a type: the first of each name that is not the name of a type. -/
def newEnums (b : Build) (vs : List Visit) : List EnumNode :=
  firstNamed (·.name) (b.schema.enums.map (·.name)) (vs.filterMap Visit.enum?)

/-- A build with all that the visits `vs` add to it. -/
def extend (pool : Pool) (b : Build) (vs : List Visit) : Build where
  schema := { b.schema with
    tables := b.schema.tables ++ (b.newMessages vs).map fun m => (pool.table m).value
    enums := b.schema.enums ++ (b.newEnums vs).map EnumNode.enumType }
  origins := b.origins ++ (b.newMessages vs).map fun m => (m.name, pool.fileName m.file)
  sources := b.sources ++ vs.filterMap Visit.source?

/-- The names of tables after some visits. -/
theorem names_tables_extend (pool : Pool) (b : Build) (vs : List Visit) :
    (b.extend pool vs).schema.tables.map (·.name)
      = b.schema.tables.map (·.name) ++ (b.newMessages vs).map (·.name) := by
  simp [extend, Pool.table, Function.comp_def]

/-- Visits add the names of the enums that are new. -/
theorem names_enums_extend (pool : Pool) (b : Build) (vs : List Visit) :
    (b.extend pool vs).schema.enums.map (·.name)
      = b.schema.enums.map (·.name) ++ (b.newEnums vs).map (·.name) := by
  simp [extend, EnumNode.enumType, Function.comp_def]

/-- Messages may be taken part by part. -/
theorem newMessages_append (pool : Pool) (b : Build) (vs ws : List Visit) :
    b.newMessages (vs ++ ws) = b.newMessages vs ++ (b.extend pool vs).newMessages ws := by
  have hnames := names_tables_extend pool b vs
  rw [newMessages, List.filterMap_append, firstNamed_append, newMessages, newMessages, hnames]
  rfl

/-- A run may be taken part by part. -/
theorem extend_append (pool : Pool) (b : Build) (vs ws : List Visit) :
    b.extend pool (vs ++ ws) = (b.extend pool vs).extend pool ws := by
  have henums : b.newEnums (vs ++ ws) = b.newEnums vs ++ (b.extend pool vs).newEnums ws := by
    have hnames := names_enums_extend pool b vs
    rw [newEnums, List.filterMap_append, firstNamed_append, newEnums, newEnums, hnames]
    rfl
  rw [extend, newMessages_append pool, henums, extend]
  simp only [extend, List.map_append, List.append_assoc, List.filterMap_append]

end Build

namespace Building

/-- Visits that are neither messages nor enums add no more than a file. -/
theorem extend_of_none (pool : Pool) (b : Build) {v : Visit} (hmessage : v.message? = none)
    (henum : v.enum? = none) :
    b.extend pool [v] = { b with sources := b.sources ++ v.source?.toList } := by
  cases hsource : v.source? <;>
    simp [Build.extend, Build.newMessages, Build.newEnums, hmessage, henum, hsource, firstNamed]

/-- An enum without a name, or with one that is taken, is reported. -/
theorem addEnum_of_taken {b : Building} {node : EnumNode}
    (h : node.name = "" ∨ node.name ∈ b.build.schema.enums.map (·.name)) :
    b.addEnum node = b.report node.fullName
      (if node.name = "" then .invalidInput .unnamedEnum else .duplicate .enum node.name) := by
  by_cases hname : node.name = ""
  · simp [addEnum, hname]
  · have hempty : ¬node.name.isEmpty = true := by simpa [String.isEmpty_iff] using hname
    -- The name is there and was used before.
    have hsome := (isSome_enum?_iff b.build.schema node.name).2 (h.resolve_left hname)
    rw [addEnum, if_neg hempty, if_pos hsome, if_neg hname]

/-- An enum with a name of its own is added to the schema. -/
theorem addEnum_of_new {b : Building} {node : EnumNode}
    (h : ¬(node.name = "" ∨ node.name ∈ b.build.schema.enums.map (·.name))) :
    b.addEnum node = { b with build := { b.build with schema := { b.build.schema with
      enums := b.build.schema.enums ++ [node.enumType] } } } := by
  rw [not_or] at h
  have hempty : ¬node.name.isEmpty = true := by simpa [String.isEmpty_iff] using h.1
  rw [addEnum, if_neg hempty, if_neg fun hsome => h.2 ((isSome_enum?_iff _ _).1 hsome)]
  rfl

/-- A message without a name of its own is reported and left out. -/
theorem addMessage_of_taken (pool : Pool) {b : Building} {node : MessageNode}
    (h : node.name = "" ∨ node.name ∈ b.build.schema.tables.map (·.name)) :
    addMessage pool b node = b.report node.fullName
      (if node.name = "" then .invalidInput .unnamedMessage else .duplicate .table node.name) := by
  by_cases hname : node.name = ""
  · simp [addMessage, hname]
  · have hempty : ¬node.name.isEmpty = true := by simpa [String.isEmpty_iff] using hname
    have hsome := (isSome_table?_iff b.build.schema node.name).2 (h.resolve_left hname)
    rw [addMessage, if_neg hempty, if_pos hsome, if_neg hname]

/-- A message with a name of its own gets a table. -/
theorem addMessage_of_new (pool : Pool) {b : Building} {node : MessageNode}
    (h : ¬(node.name = "" ∨ node.name ∈ b.build.schema.tables.map (·.name))) :
    addMessage pool b node = {
      build := { b.build with
        schema := { b.build.schema with
          tables := b.build.schema.tables ++ [(pool.table node).value] }
        origins := b.build.origins ++ [(node.name, pool.fileName node.file)] }
      diagnostics := b.diagnostics ++ (pool.table node).diagnostics
      events := b.events ++ node.undecodedEvents } := by
  rw [not_or] at h
  have hempty : ¬node.name.isEmpty = true := by simpa [String.isEmpty_iff] using h.1
  rw [addMessage, if_neg hempty, if_neg fun hsome => h.2 ((isSome_table?_iff _ _).1 hsome)]
  rfl

/-- An enum extends what is built by its enum type. -/
theorem build_addEnum (pool : Pool) (b : Building) (node : EnumNode) :
    (b.addEnum node).build = b.build.extend pool [.enum node] := by
  have hmessages : b.build.newMessages [.enum node] = [] := rfl
  have hsources : [Visit.enum node].filterMap Visit.source? = [] := rfl
  -- Whether the enum is new is decided by the names built so far, on both sides.
  by_cases h : node.name = "" ∨ node.name ∈ b.build.schema.enums.map (·.name)
  · have henums : b.build.newEnums [.enum node] = [] := firstNamed_cons_of_taken h []
    rw [addEnum_of_taken h, Build.extend, hmessages, henums, hsources]
    simp [report]
  · have henums : b.build.newEnums [.enum node] = [node] := firstNamed_cons_of_new h []
    rw [addEnum_of_new h, Build.extend, hmessages, henums, hsources]
    simp

/-- A message extends what is built by its table. -/
theorem build_addMessage (pool : Pool) (b : Building) (node : MessageNode) :
    (addMessage pool b node).build = b.build.extend pool [.message node] := by
  have henums : b.build.newEnums [.message node] = [] := rfl
  have hsources : [Visit.message node].filterMap Visit.source? = [] := rfl
  by_cases h : node.name = "" ∨ node.name ∈ b.build.schema.tables.map (·.name)
  · have hmessages : b.build.newMessages [.message node] = [] := firstNamed_cons_of_taken h []
    rw [addMessage_of_taken pool h, Build.extend, hmessages, henums, hsources]
    simp [report]
  · have hmessages : b.build.newMessages [.message node] = [node] := firstNamed_cons_of_new h []
    rw [addMessage_of_new pool h, Build.extend, hmessages, henums, hsources]
    simp

/-- What one visit adds. -/
theorem build_visit (pool : Pool) (b : Building) (v : Visit) :
    (b.visit pool v).build = b.build.extend pool [v] := by
  cases v with
  | enum node => exact build_addEnum pool b node
  | message node => exact build_addMessage pool b node
  | file name => rw [extend_of_none pool b.build rfl rfl]; rfl
  | _ => rw [extend_of_none pool b.build rfl rfl]; simp [visit, report, note, Visit.source?]

/-- What a run adds. -/
theorem build_run (pool : Pool) (b : Building) (vs : List Visit) :
    (run pool b vs).build = b.build.extend pool vs := by
  -- Each visit extends the build, and extensions are put together.
  induction vs generalizing b with
  | nil => simp [run, Build.extend, Build.newMessages, Build.newEnums, firstNamed]
  | cons v vs ih =>
    have hrun : run pool b (v :: vs) = run pool (b.visit pool v) vs := rfl
    rw [hrun, ih, build_visit, ← Build.extend_append, List.singleton_append]

/-- What was reported stays reported after a visit. -/
theorem mem_diagnostics_visit (pool : Pool) {b : Building} {d : Diagnostic} (h : d ∈ b.diagnostics)
    (v : Visit) : d ∈ (b.visit pool v).diagnostics := by
  -- A visit only ever adds diagnostics, at the end.
  cases v with
  | enum node =>
    simp only [visit, addEnum]
    split
    · exact List.mem_append_left _ h
    · split
      · exact List.mem_append_left _ h
      · exact h
  | message node =>
    simp only [visit, addMessage]
    split
    · exact List.mem_append_left _ h
    · split
      · exact List.mem_append_left _ h
      · exact List.mem_append_left _ h
  | unknownFile name => exact List.mem_append_left _ h
  | _ => exact h

/-- What was reported stays reported. -/
theorem mem_diagnostics_run (pool : Pool) {b : Building} {d : Diagnostic} (h : d ∈ b.diagnostics)
    (vs : List Visit) : d ∈ (run pool b vs).diagnostics := by
  induction vs generalizing b with
  | nil => exact h
  | cons v vs ih => exact ih (mem_diagnostics_visit pool h v)

end Building

end ProtoSchema
