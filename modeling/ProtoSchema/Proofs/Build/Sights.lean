import ProtoSchema.Proofs.Build.Fields
import ProtoSchema.Proofs.Build.WalkOrder

/-!
# What building sees

Building looks at names, values and fields, never at the numbers of a pool; of the pool itself it
uses which names enums have. So two pools that look the same lead to the same builds, whatever else
they hold.

Key results:
* `visit_eq_of_sight`, `run_eq_of_sights` — building from two pools that look the same
* `map_sight_visits` — a message looks the same wherever its numbers start
* `map_sight_fileVisits` — a file looks the same among whatever other files
-/

namespace ProtoSchema

open Plugin Relational

/-! ## Steps and runs -/

/-- What building sees of what is met. -/
inductive Sight where
  | unknownFile (name : String)
  | emptyFile (name : String)
  | file (name : String)
  | enum (fullName : String) (type : EnumType)
  | mapEntry (fullName : String)
  | message (file fullName name : String) (fields : List FieldNode)
deriving DecidableEq, Repr, Inhabited

/-- What building sees of an enum. -/
def EnumNode.sight (node : EnumNode) : Sight :=
  .enum node.fullName node.enumType

/-- What building sees of a visit. -/
def Pool.sight (pool : Pool) : Visit → Sight
  | .unknownFile name => .unknownFile name
  | .emptyFile name => .emptyFile name
  | .file name => .file name
  | .enum node => node.sight
  | .mapEntry fullName => .mapEntry fullName
  | .message node => .message (pool.fileName node.file) node.fullName node.name node.fields

namespace Building

variable {P Q : Pool}

/-- Tables are made from names and fields, and from the names of enums. -/
theorem table_eq_of_fields (henum : FieldNode.enumName P = FieldNode.enumName Q)
    {node node' : MessageNode} (hname : node.name = node'.name)
    (hfields : node.fields = node'.fields) : P.table node = Q.table node' := by
  -- A column depends on the pool only through the names of enums.
  have hcolumn : FieldNode.column? P = FieldNode.column? Q := by
    funext message field
    rw [FieldNode.column?, FieldNode.column?, field.columnType_eq_of_enumName henum]
  have hconstraints : node.constraints = node'.constraints := by
    rw [MessageNode.constraints, MessageNode.constraints, hfields]
  rw [Pool.table, Pool.table, hcolumn, hconstraints, hname, hfields]

/-- Enums that look the same do the same. -/
theorem addEnum_eq_of_sight {node node' : EnumNode} (h : node.sight = node'.sight)
    (b : Building) : b.addEnum node = b.addEnum node' := by
  cases node
  cases node'
  cases h
  rfl

/-- Messages that look the same do the same. -/
theorem addMessage_eq_of_sight (henum : FieldNode.enumName P = FieldNode.enumName Q)
    {node node' : MessageNode} (h : P.sight (.message node) = Q.sight (.message node'))
    (b : Building) : addMessage P b node = addMessage Q b node' := by
  simp only [Pool.sight, Sight.message.injEq] at h
  obtain ⟨hfile, hfullName, hname, hfields⟩ := h
  have htable := table_eq_of_fields henum hname hfields
  have hevents : node.undecodedEvents = node'.undecodedEvents := by
    rw [MessageNode.undecodedEvents, MessageNode.undecodedEvents, hfields]
  rw [addMessage, addMessage, htable, hevents, hfile, hfullName, hname]

/-- Visits that look the same do the same. -/
theorem visit_eq_of_sight (henum : FieldNode.enumName P = FieldNode.enumName Q) {v w : Visit}
    (h : P.sight v = Q.sight w) (b : Building) : b.visit P v = b.visit Q w := by
  cases v with
  | enum node =>
    cases w with
    | enum node' => exact addEnum_eq_of_sight h b
    | _ => cases h
  | message node =>
    cases w with
    | message node' => exact addMessage_eq_of_sight henum h b
    | _ => cases h
  | _ =>
    -- Other visits are what is seen of them.
    cases w <;> cases h
    rfl

/-- Runs over visits that look the same do the same. -/
theorem run_eq_of_sights (henum : FieldNode.enumName P = FieldNode.enumName Q) {vs ws : List Visit}
    (h : vs.map P.sight = ws.map Q.sight) (b : Building) : run P b vs = run Q b ws := by
  -- Visits are made in step; each leaves both runs at the same place.
  induction vs generalizing ws b with
  | nil =>
    cases ws with
    | nil => rfl
    | cons w ws => cases h
  | cons v vs ih =>
    cases ws with
    | nil => cases h
    | cons w ws =>
      obtain ⟨hfirst, hrest⟩ := List.cons.inj h
      show run P (b.visit P v) vs = run Q (b.visit Q w) ws
      rw [visit_eq_of_sight henum hfirst, ih hrest]

end Building

/-- The same is built from pools that look the same. -/
theorem Pool.build_eq_of_sights {P Q : Pool} {requested : List String}
    (henum : FieldNode.enumName P = FieldNode.enumName Q)
    (h : (P.visits requested).map P.sight = (Q.visits requested).map Q.sight) :
    P.build requested = Q.build requested := by
  rw [Pool.build, Pool.build, Building.run_eq_of_sights henum h]

/-! ## Trees of descriptors -/

namespace Flatten

mutual

/-- A message looks the same wherever its numbers start, with all that is declared inside it. -/
theorem map_sight_visits {P Q : Pool} {file file' : FileId}
    (h : P.fileName file = Q.fileName file') (scope : String) (m e m' e' : Nat) :
    (d : MessageDescriptor) → (tree file scope m e d).visits.map P.sight
      = (tree file' scope m' e' d).visits.map Q.sight
  | ⟨name, fields, messages, enums, options⟩ => by
    have hnested := map_sight_visitsAll h (qualified scope (name.getD "")) (m + 1)
      (e + enums.length) (m' + 1) (e' + enums.length) messages
    have hfirst : P.sight (.message (messageNode file scope m e
        ⟨name, fields, messages, enums, options⟩))
        = Q.sight (.message (messageNode file' scope m' e'
          ⟨name, fields, messages, enums, options⟩)) := by
      simp only [Pool.sight, messageNode, h]
    rw [tree, tree, MessageTree.visits, MessageTree.visits]
    -- Whether a message stands for the entries of a map field does not depend on numbers.
    show (if (options.bind (·.mapEntry)).getD false then _ else _ : List Visit).map P.sight
      = (if (options.bind (·.mapEntry)).getD false then _ else _ : List Visit).map Q.sight
    split
    · rfl
    · rw [List.map_cons, List.map_cons, hfirst, hnested]

theorem map_sight_visitsAll {P Q : Pool} {file file' : FileId}
    (h : P.fileName file = Q.fileName file') (scope : String) (m e m' e' : Nat) :
    (ds : List MessageDescriptor) →
      (MessageTree.visitsAll (trees file scope m e ds)).map P.sight
        = (MessageTree.visitsAll (trees file' scope m' e' ds)).map Q.sight
  | [] => rfl
  | d :: ds => by
    have hfirst := map_sight_visits h scope m e m' e' d
    have hrest := map_sight_visitsAll h scope (m + messageCount d) (e + enumCount d)
      (m' + messageCount d) (e' + enumCount d) ds
    rw [trees, trees, MessageTree.visitsAll, MessageTree.visitsAll, List.map_append,
      List.map_append, hfirst, hrest]

end

mutual

/-- The enums of a message look the same wherever its numbers start. -/
theorem map_sight_enums (file file' : FileId) (scope : String) (m e m' e' : Nat) :
    (d : MessageDescriptor) → (tree file scope m e d).enums.map EnumNode.sight
      = (tree file' scope m' e' d).enums.map EnumNode.sight
  | ⟨name, fields, messages, enums, options⟩ => by
    have hnested := map_sight_enumsAll file file' (qualified scope (name.getD "")) (m + 1)
      (e + enums.length) (m' + 1) (e' + enums.length) messages
    rw [tree, tree, MessageTree.enums, MessageTree.enums, List.map_append, List.map_append,
      List.map_map, List.map_map, hnested]
    rfl

theorem map_sight_enumsAll (file file' : FileId) (scope : String) (m e m' e' : Nat) :
    (ds : List MessageDescriptor) →
      (MessageTree.enumsAll (trees file scope m e ds)).map EnumNode.sight
        = (MessageTree.enumsAll (trees file' scope m' e' ds)).map EnumNode.sight
  | [] => rfl
  | d :: ds => by
    have hfirst := map_sight_enums file file' scope m e m' e' d
    have hrest := map_sight_enumsAll file file' scope (m + messageCount d) (e + enumCount d)
      (m' + messageCount d) (e' + enumCount d) ds
    rw [trees, trees, MessageTree.enumsAll, MessageTree.enumsAll, List.map_append,
      List.map_append, hfirst, hrest]

end

end Flatten

/-! ## Files -/

namespace Pool

open Flatten

/-- What a file that contributes looks like, part by part. -/
theorem map_sight_parts (pool : Pool) (name : String) (nodes : List EnumNode)
    (ts : List MessageTree) :
    (.file name :: nodes.map Visit.enum ++ MessageTree.visitsAll ts).map pool.sight
      = .file name :: nodes.map EnumNode.sight ++ (MessageTree.visitsAll ts).map pool.sight := by
  rw [List.map_append, List.map_cons, List.map_map]
  rfl

/-- A file looks the same among whatever other files. -/
theorem map_sight_fileVisits (before after before' after' : List FileDescriptor)
    (f : FileDescriptor) :
    let P := ofFiles (before ++ f :: after)
    let Q := ofFiles (before' ++ f :: after')
    (P.fileVisits (nodeBehind before f)).map P.sight
      = (Q.fileVisits (nodeBehind before' f)).map Q.sight := by
  intro P Q
  have hfile : P.fileName ⟨before.length⟩ = Q.fileName ⟨before'.length⟩ := by
    rw [fileName_middle, fileName_middle]
  rw [fileVisits, fileVisits, isEmpty_messages_nodeBehind, isEmpty_messages_nodeBehind]
  by_cases hempty : f.messages.isEmpty = true
  · rw [if_pos hempty, if_pos hempty]
    rfl
  · rw [if_neg hempty, if_neg hempty]
    have htop : ((nodeBehind before f).enums.filterMap P.enum?).map EnumNode.sight
        = ((nodeBehind before' f).enums.filterMap Q.enum?).map EnumNode.sight := by
      rw [enums_middle, enums_middle, List.map_map, List.map_map]
      rfl
    -- The ids of a file start behind the files in front of it; the trees are the same up to them.
    have htrees := treesOf_middle before after f
    have htrees' := treesOf_middle before' after' f
    have henums : (MessageTree.enumsAll (P.treesOf (nodeBehind before f))).map EnumNode.sight
        = (MessageTree.enumsAll (Q.treesOf (nodeBehind before' f))).map EnumNode.sight := by
      rw [htrees, htrees']
      exact map_sight_enumsAll _ _ _ _ _ _ _ f.messages
    have hmessages : (MessageTree.visitsAll (P.treesOf (nodeBehind before f))).map P.sight
        = (MessageTree.visitsAll (Q.treesOf (nodeBehind before' f))).map Q.sight := by
      rw [htrees, htrees']
      exact map_sight_visitsAll hfile _ _ _ _ _ f.messages
    rw [map_sight_parts, map_sight_parts, List.map_append, List.map_append, htop, henums, hmessages]
    rfl

/-- What is asked for looks the same wherever the same file is found. -/
theorem map_sight_visitsOf {files files' : List FileDescriptor} {name : String}
    (h : files.find? (·.name.getD "" == name) = files'.find? (·.name.getD "" == name)) :
    ((ofFiles files).visitsOf name).map (ofFiles files).sight
      = ((ofFiles files').visitsOf name).map (ofFiles files').sight := by
  cases hf : files.find? (·.name.getD "" == name) with
  | none =>
    rw [visitsOf, visitsOf, fileByName_eq_none hf, fileByName_eq_none (h.symm.trans hf)]
    rfl
  | some f =>
    obtain ⟨before, after, rfl, hnode⟩ := fileByName_eq_some hf
    obtain ⟨before', after', rfl, hnode'⟩ := fileByName_eq_some (h.symm.trans hf)
    rw [visitsOf, visitsOf, hnode, hnode']
    exact map_sight_fileVisits before after before' after' f

/-- What is asked for by several names looks the same wherever the same files are found. -/
theorem map_sight_visits {files files' : List FileDescriptor} {requested : List String}
    (h : ∀ name ∈ requested,
      files.find? (·.name.getD "" == name) = files'.find? (·.name.getD "" == name)) :
    ((ofFiles files).visits requested).map (ofFiles files).sight
      = ((ofFiles files').visits requested).map (ofFiles files').sight := by
  induction requested with
  | nil => rfl
  | cons name names ih =>
    have hfirst := map_sight_visitsOf (h name List.mem_cons_self)
    have hrest := ih fun name hname => h name (List.mem_cons_of_mem _ hname)
    rw [visits, visits, List.flatMap_cons, List.flatMap_cons, List.map_append, List.map_append,
      hfirst]
    exact congrArg _ hrest

end Pool

end ProtoSchema
