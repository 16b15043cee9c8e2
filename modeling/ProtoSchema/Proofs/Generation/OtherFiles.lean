import ProtoSchema.Proofs.Build.Sights
import ProtoSchema.Proofs.Generation.QueryDocuments

/-!
# Files that are not requested

What is generated depends on the requested files alone. The other files of a request are only
looked at to find the enum that a field refers to, and where no enum has a dot in its name, the
enum that is found has the name behind the last dot of the reference.

Key results:
* `lastSegment_qualified` — the last segment of a full name is the declared name
* `enumName_ofFiles` — an enum that is found has the last segment of its full name
* `generate_eq_of_find?_eq` — requests that differ in other files
-/

namespace ProtoSchema

open Plugin Relational

/-! ## Names of enums -/

/-- The last segment of a full name is the declared name, if that has no dot. -/
theorem lastSegment_qualified {name : String} (h : '.' ∉ name.toList) (scope : String) :
    lastSegment (qualified scope name) = name := by
  have hlist : (qualified scope name).toList = scope.toList ++ '.' :: name.toList := by
    simp [qualified]
  rw [lastSegment, hlist, List.splitOn_append_cons_self, List.splitOn_eq_singleton h]
  simp

/-- The enums of a file, those inside messages included. -/
def Plugin.FileDescriptor.allEnums (f : FileDescriptor) : List EnumDescriptor :=
  f.enums ++ MessageDescriptor.allEnumsIn f.messages

namespace Flatten

mutual

/-- Every enum among the declarations of a message comes from an enum of the message. -/
theorem enum_mem_declarations {node : EnumNode} (file : FileId) (scope : String) (m e : Nat) :
    (d : MessageDescriptor) → .enum node ∈ declarations file scope m e d →
      ∃ inner, ∃ x ∈ d.allEnums, node = .ofDescriptor file inner x
  | ⟨name, fields, messages, enums, options⟩, h => by
    rw [declarations, List.cons_append, List.mem_cons, List.mem_append] at h
    rw [MessageDescriptor.allEnums]
    -- The message itself is no enum; the others are its own enums and those nested deeper.
    rcases h with h | h | h
    · cases h
    · obtain ⟨x, hx, hnode⟩ := List.mem_map.1 h
      exact ⟨_, x, List.mem_append_left _ hx, (Declaration.enum.inj hnode).symm⟩
    · obtain ⟨inner, x, hx, hnode⟩ := enum_mem_nestedDeclarations file _ _ _ messages h
      exact ⟨inner, x, List.mem_append_right _ hx, hnode⟩

theorem enum_mem_nestedDeclarations {node : EnumNode} (file : FileId) (scope : String) (m e : Nat) :
    (ds : List MessageDescriptor) → .enum node ∈ nestedDeclarations file scope m e ds →
      ∃ inner, ∃ x ∈ MessageDescriptor.allEnumsIn ds, node = .ofDescriptor file inner x
  | [], h => absurd h List.not_mem_nil
  | d :: ds, h => by
    rw [nestedDeclarations, List.mem_append] at h
    rw [MessageDescriptor.allEnumsIn]
    rcases h with h | h
    · obtain ⟨inner, x, hx, hnode⟩ := enum_mem_declarations file scope m e d h
      exact ⟨inner, x, List.mem_append_left _ hx, hnode⟩
    · obtain ⟨inner, x, hx, hnode⟩ := enum_mem_nestedDeclarations file scope _ _ ds h
      exact ⟨inner, x, List.mem_append_right _ hx, hnode⟩

end

/-- Every enum among the declarations of a file comes from an enum of the file. -/
theorem enum_mem_fileDeclarations {node : EnumNode} {file : FileId} {m e : Nat}
    {f : FileDescriptor} (h : .enum node ∈ fileDeclarations file m e f) :
    ∃ inner, ∃ x ∈ f.allEnums, node = .ofDescriptor file inner x := by
  rw [fileDeclarations, List.mem_append] at h
  rcases h with h | h
  · obtain ⟨x, hx, hnode⟩ := List.mem_map.1 h
    exact ⟨_, x, List.mem_append_left _ hx, (Declaration.enum.inj hnode).symm⟩
  · obtain ⟨inner, x, hx, hnode⟩ := enum_mem_nestedDeclarations _ _ _ _ f.messages h
    exact ⟨inner, x, List.mem_append_right _ hx, hnode⟩

end Flatten

/-- Every enum of a pool comes from an enum of a file. -/
theorem Pool.enum_mem_declarations {node : EnumNode} {files : List FileDescriptor}
    (h : .enum node ∈ (ofFiles files).declarations) : ∃ f ∈ files, ∃ x ∈ f.allEnums,
      ∃ file scope, node = .ofDescriptor file scope x := by
  -- A file adds its own declarations behind those of the files before it.
  have hfold : ∀ pool : Pool, .enum node ∈ (files.foldl addFile pool).declarations →
      .enum node ∈ pool.declarations ∨ ∃ f ∈ files, ∃ x ∈ f.allEnums,
        ∃ file scope, node = .ofDescriptor file scope x := by
    clear h
    induction files with
    | nil => exact fun pool h => .inl h
    | cons f files ih =>
      intro pool h
      rcases ih (pool.addFile f) h with h | ⟨g, hg, h⟩
      · rw [addFile, List.mem_append] at h
        rcases h with h | h
        · exact .inl h
        · obtain ⟨scope, x, hx, hnode⟩ := Flatten.enum_mem_fileDeclarations h
          exact .inr ⟨f, List.mem_cons_self, x, hx, _, scope, hnode⟩
      · exact .inr ⟨g, List.mem_cons_of_mem _ hg, h⟩
  exact (hfold {} h).resolve_left List.not_mem_nil

/-- Where no enum has a dot in its name, an enum that is found has the last segment of its full
name, as one that is not found. -/
theorem enumName_ofFiles {files : List FileDescriptor}
    (h : ∀ f ∈ files, ∀ x ∈ f.allEnums, '.' ∉ (x.name.getD "").toList) :
    FieldNode.enumName (Pool.ofFiles files) = lastSegment := by
  funext typeName
  rw [FieldNode.enumName]
  cases hnode : (Pool.ofFiles files).enumByTypeName typeName with
  | none => rfl
  | some node =>
    obtain ⟨declaration, hfound, henum⟩ := Option.bind_eq_some_iff.1 hnode
    cases declaration with
    | message message => cases henum
    | enum other =>
      obtain rfl : other = node := Option.some.inj henum
      -- The enum was found by its full name, whose last part is its undotted short name.
      have hfullName : (Declaration.enum other).fullName = typeName := by
        simpa using List.find?_some hfound
      obtain ⟨f, hf, x, hx, file, scope, rfl⟩ :=
        Pool.enum_mem_declarations (List.mem_of_find?_eq_some hfound)
      rw [← hfullName]
      exact (lastSegment_qualified (h f hf x hx) scope).symm

/-! ## Requests -/

/-- What is built and generated depends on the requested files alone. Two requests with the same
parameter and the same requested names, in which the first file of each requested name is the same
or missing, have the same build, with the same problems, and the same result, whatever other files
there are, in whatever order. No enum may have a dot in its name. -/
theorem generate_eq_of_find?_eq {r s : Request} (hparameter : r.parameter = s.parameter)
    (hrequested : r.filesToGenerate = s.filesToGenerate)
    (hfound : ∀ name ∈ r.filesToGenerate,
      r.files.find? (·.name.getD "" == name) = s.files.find? (·.name.getD "" == name))
    (hundotted : ∀ f ∈ r.files ++ s.files, ∀ x ∈ f.allEnums, '.' ∉ (x.name.getD "").toList) :
    let first := ((Pool.ofFiles r.files).build r.filesToGenerate).value
    let second := ((Pool.ofFiles s.files).build s.filesToGenerate).value
    first.value = second.value ∧ first.diagnostics = second.diagnostics
      ∧ (generate r).value = (generate s).value := by
  intro first second
  have henum : FieldNode.enumName (Pool.ofFiles r.files)
      = FieldNode.enumName (Pool.ofFiles s.files) := by
    rw [enumName_ofFiles fun f hf => hundotted f (List.mem_append_left _ hf),
      enumName_ofFiles fun f hf => hundotted f (List.mem_append_right _ hf)]
  -- The builds agree on the names of enums and on what is seen of the requested files.
  have hbuild : (Pool.ofFiles r.files).build r.filesToGenerate
      = (Pool.ofFiles s.files).build s.filesToGenerate := by
    rw [← hrequested]
    exact Pool.build_eq_of_sights henum (Pool.map_sight_visits hfound)
  have houtcome : first = second := congrArg Logged.value hbuild
  refine ⟨congrArg _ houtcome, congrArg _ houtcome, ?_⟩
  rw [generate, generate, Logged.value_bind, Logged.value_bind, hparameter]
  cases (Options.parse s.parameter).value with
  | error fault => rfl
  | ok options =>
    have hresponse : (respondWith options r).value = (respondWith options s).value := by
      rw [value_respondWith, value_respondWith, Pool.built, Pool.built, hbuild]
    exact congrArg Except.ok hresponse

/-- A file with a message that has a field of an enum type. -/
def paintFile : FileDescriptor where
  name := some "paint.proto"
  messages := [{
    name := some "Paint"
    fields := [{
      name := some "color"
      kind := some (Numbered.number FieldKind.enum)
      typeName := some ".palette.Color" }] }]

/-- The file of that enum. -/
def paletteFile : FileDescriptor where
  name := some "palette.proto"
  package := some "palette"
  enums := [{ name := some "Color", values := [{ name := some "RED" }] }]

/-- The file may come with the file of the enum, or before another file of its name. -/
theorem generate_paintFile :
    let r : Request := { filesToGenerate := ["paint.proto"], files := [paletteFile, paintFile] }
    let s : Request := {
      filesToGenerate := ["paint.proto"]
      files := [paintFile, { paletteFile with name := some "paint.proto" }] }
    (generate r).value = (generate s).value := by
  intro r s
  have hfound : ∀ name ∈ r.filesToGenerate,
      r.files.find? (·.name.getD "" == name) = s.files.find? (·.name.getD "" == name) := by
    intro name hname
    obtain rfl : name = "paint.proto" := List.mem_singleton.1 hname
    rfl
  have hundotted : ∀ f ∈ r.files ++ s.files, ∀ x ∈ f.allEnums, '.' ∉ (x.name.getD "").toList := by
    decide +kernel
  exact (generate_eq_of_find?_eq (r := r) (s := s) rfl rfl hfound hundotted).2.2

end ProtoSchema
