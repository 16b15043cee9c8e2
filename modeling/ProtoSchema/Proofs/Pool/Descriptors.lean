import ProtoSchema.Proofs.Pool.Arena

/-!
# Descriptors in a pool

A pool holds a descriptor at a number when the node of that number has all that nodes keep of it,
and the numbers in that node lead, in order, to nodes that hold what is declared inside it. Full
names are said here without the scopes of the walk: the package and the names around a declaration,
joined by dots.

Key results:
* `dotted_append_singleton` — a scope of the walk is a name joined by dots
* `holdsMessage_of_prefix`, `holdsMessages_of_prefix` — a message at its number, by recursion on
  the descriptor
* `holdsFile_ofFiles` — the pool of a request holds its files in order
-/

namespace ProtoSchema

open Plugin

/-! ## Full names -/

/-- Parts of a name, joined by dots. -/
def dotted (parts : List String) : String :=
  ".".intercalate parts

/-- What stands in front of the declared names in a file: nothing, so that every full name starts
with a dot, and the package, unless it is empty. -/
def packageParts (file : FileDescriptor) : List String :=
  "" :: (file.package.filter (!·.isEmpty)).toList

/-- There is a part in front of every declared name, if only the empty one. -/
theorem packageParts_ne_nil (file : FileDescriptor) : packageParts file ≠ [] :=
  List.cons_ne_nil _ _

/-- A declared name is one more part. -/
theorem dotted_append_singleton {parts : List String} (hne : parts ≠ []) (name : String) :
    dotted (parts ++ [name]) = qualified (dotted parts) name := by
  rw [dotted, String.intercalate_append_of_ne_nil hne (List.cons_ne_nil _ _),
    String.intercalate_singleton]
  rfl

/-- The scope of a file is its package behind a dot. -/
theorem dotted_packageParts (file : FileDescriptor) :
    dotted (packageParts file) = fileScope file := by
  cases hpackage : file.package with
  | none => simp [packageParts, fileScope, hpackage, dotted]
  | some package =>
    -- An empty package counts as none.
    by_cases hempty : package.isEmpty
    · have hparts : packageParts file = [""] := by
        rw [packageParts, hpackage, Option.filter_some_neg (by simp [hempty])]
        rfl
      simp [hparts, fileScope, hpackage, hempty, dotted]
    · have hparts : packageParts file = [""] ++ [package] := by
        simp [packageParts, hpackage, hempty]
      rw [hparts, dotted_append_singleton (List.cons_ne_nil _ _)]
      simp [fileScope, hpackage, hempty, qualified, dotted]

/-! ## Descriptors by number -/

namespace Pool

/-- The numbers lead to enums of these descriptors, in order. -/
def HoldsEnums (pool : Pool) (file : FileId) (parts : List String) (ids : List EnumId)
    (enums : List EnumDescriptor) : Prop :=
  ids.map pool.enum? = enums.map fun e => some {
    name := e.name.getD ""
    fullName := dotted (parts ++ [e.name.getD ""])
    file
    values := e.values.map (·.name.getD "") }

mutual

/-- The number leads to a message of this descriptor, and the numbers in it to what is declared
inside it. -/
def HoldsMessage (pool : Pool) (file : FileId) (parts : List String) (id : MessageId) :
    MessageDescriptor → Prop
  | ⟨name, fields, messages, enums, options⟩ =>
    ∃ node, pool.message? id = some node
      ∧ node.name = name.getD ""
      ∧ node.fullName = dotted (parts ++ [name.getD ""])
      ∧ node.file = file
      ∧ node.fields = fields.map FieldNode.ofDescriptor
      ∧ node.mapEntry = (options.bind (·.mapEntry)).getD false
      ∧ pool.HoldsEnums file (parts ++ [name.getD ""]) node.nestedEnums enums
      ∧ pool.HoldsMessages file (parts ++ [name.getD ""]) node.nestedMessages messages

/-- The numbers lead to messages of these descriptors, in order. -/
def HoldsMessages (pool : Pool) (file : FileId) (parts : List String) (ids : List MessageId) :
    List MessageDescriptor → Prop
  | [] => ids = []
  | d :: ds => ∃ id rest, ids = id :: rest ∧ pool.HoldsMessage file parts id d
      ∧ pool.HoldsMessages file parts rest ds

end

/-- The number leads to a file of this descriptor, and the numbers in it to its declarations. -/
def HoldsFile (pool : Pool) (id : FileId) (f : FileDescriptor) : Prop :=
  ∃ node, pool.file? id = some node
    ∧ node.name = f.name.getD ""
    ∧ pool.HoldsEnums id (packageParts f) node.enums f.enums
    ∧ pool.HoldsMessages id (packageParts f) node.messages f.messages

end Pool

namespace Flatten

/-- Enums with consecutive numbers are those of their descriptors. -/
theorem holdsEnums_of_prefix {pool : Pool} {file : FileId} {parts : List String}
    (hparts : parts ≠ []) {e : Nat} {enums : List EnumDescriptor}
    (h : enums.map (EnumNode.ofDescriptor file (dotted parts)) <+: pool.enums.drop e) :
    pool.HoldsEnums file parts (enumIds e enums.length) enums := by
  rw [Pool.HoldsEnums, enumIds, List.map_map]
  simp only [dotted_append_singleton hparts]
  -- The ids of the enums follow each other, as their nodes do.
  have hfound := map_range'_getElem? h
  rw [List.length_map, List.map_map] at hfound
  exact hfound

mutual

/-- A message with its declarations at its number is that of its descriptor. -/
theorem holdsMessage_of_prefix (pool : Pool) (file : FileId) {parts : List String}
    (hparts : parts ≠ []) (m e : Nat) :
    (d : MessageDescriptor) →
      (declarations file (dotted parts) m e d).filterMap (·.message?) <+: pool.messages.drop m →
      (declarations file (dotted parts) m e d).filterMap (·.enum?) <+: pool.enums.drop e →
      pool.HoldsMessage file parts ⟨m⟩ d
  | ⟨name, fields, messages, enums, options⟩, hm, he => by
    rw [filterMap_message?_declarations, ← dotted_append_singleton hparts] at hm
    rw [filterMap_enum?_declarations, ← dotted_append_singleton hparts] at he
    -- The first message of the section is this one; the nested ones and the enums follow in order.
    obtain ⟨hroot, hmessages⟩ := prefix_drop_cons hm
    obtain ⟨hown, henums⟩ := prefix_drop_append he
    rw [List.length_map] at henums
    have hinner : parts ++ [name.getD ""] ≠ [] := List.append_ne_nil_of_right_ne_nil _ (by simp)
    have hnested := holdsMessages_of_prefix pool file hinner (m + 1) (e + enums.length) messages
      hmessages henums
    exact ⟨_, hroot, rfl, (dotted_append_singleton hparts _).symm, rfl, rfl, rfl,
      holdsEnums_of_prefix hinner hown, hnested⟩

/-- Sibling messages with their declarations at their numbers are those of their descriptors. -/
theorem holdsMessages_of_prefix (pool : Pool) (file : FileId) {parts : List String}
    (hparts : parts ≠ []) (m e : Nat) :
    (ds : List MessageDescriptor) →
      (nestedDeclarations file (dotted parts) m e ds).filterMap (·.message?)
        <+: pool.messages.drop m →
      (nestedDeclarations file (dotted parts) m e ds).filterMap (·.enum?) <+: pool.enums.drop e →
      pool.HoldsMessages file parts (messageIds m ds) ds
  | [], _, _ => rfl
  | d :: ds, hm, he => by
    rw [nestedDeclarations, List.filterMap_append] at hm he
    obtain ⟨hm₁, hm₂⟩ := prefix_drop_append hm
    obtain ⟨he₁, he₂⟩ := prefix_drop_append he
    -- The next message is numbered behind everything nested in this one.
    rw [length_messagesIn] at hm₂
    rw [length_enumsIn] at he₂
    exact ⟨_, _, rfl, holdsMessage_of_prefix pool file hparts m e d hm₁ he₁,
      holdsMessages_of_prefix pool file hparts _ _ ds hm₂ he₂⟩

end

end Flatten

namespace Pool

open Flatten

/-- A pool holds the file at a place, with the number of that place. -/
theorem holdsFile_middle (before after : List FileDescriptor) (f : FileDescriptor) :
    (ofFiles (before ++ f :: after)).HoldsFile ⟨before.length⟩ f := by
  obtain ⟨⟨rest, hfiles⟩, hmessages, henums⟩ := ofFiles_middle before after f
  rw [filterMap_message?_fileDeclarations, ← dotted_packageParts] at hmessages
  rw [filterMap_enum?_fileDeclarations, ← dotted_packageParts] at henums
  obtain ⟨hown, hnested⟩ := prefix_drop_append henums
  rw [List.length_map] at hnested
  have hne := packageParts_ne_nil f
  refine ⟨nodeBehind before f, ?_, rfl, holdsEnums_of_prefix hne hown,
    holdsMessages_of_prefix _ _ hne _ _ f.messages hmessages hnested⟩
  -- The files in front take the ids below, so this file has the next.
  rw [file?, hfiles, ← length_files_ofFiles before]
  dsimp only
  rw [List.getElem?_append_right (Nat.le_refl _), Nat.sub_self]
  rfl

/-- The pool of a request holds its files in order. -/
theorem holdsFile_ofFiles (fs : List FileDescriptor) (i : Fin fs.length) :
    (ofFiles fs).HoldsFile ⟨i⟩ (fs.get i) := by
  have h := holdsFile_middle (fs.take i) (fs.drop (i + 1)) fs[i]
  have hsplit : fs.take i ++ fs[i] :: fs.drop (i + 1) = fs := by
    rw [Fin.getElem_fin, List.getElem_cons_drop, List.take_append_drop]
  rwa [hsplit, List.length_take_of_le (Nat.le_of_lt i.isLt)] at h

end Pool

end ProtoSchema
