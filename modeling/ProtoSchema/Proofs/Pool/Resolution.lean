import Mathlib.Data.List.Forall2
import Mathlib.Data.List.Induction
import Mathlib.Data.List.Nodup
import ProtoSchema.Proofs.Pool.Descriptors

/-!
# Resolving names

A full name stands for the first declaration of that name, in the order in which the descriptors
declare their types: the enums of a file, then each of its messages, followed by its enums and by
the messages inside it. An enum and a message may have the same full name, also across files and
packages; then the later one is not found, not even by a look-up for its own kind.

Key results:
* `lookup_foldl_enter` — an index that keeps its entries has the first entry of each name
* `declaration?_eq_lookup` — the search of a pool finds what such an index has
* `holds_declarations`, `holds_ofFiles` — the declarations of a pool are those of the descriptors,
  in order
* `finds_of_first` — the first type of a name is found, with its number
* `resolves_first` — what is found for a name
-/

namespace ProtoSchema

open Plugin

/-! ## Indexes that keep their entries -/

/-- Enters a name, unless it is there already. -/
def enter {ν : Type} (index : List (String × ν)) (entry : String × ν) : List (String × ν) :=
  if (index.lookup entry.1).isSome then index else index ++ [entry]

/-- One more entry is found when its name was not there. -/
theorem lookup_enter {ν : Type} (index : List (String × ν)) (entry : String × ν) (name : String) :
    (enter index entry).lookup name = (index.lookup name).or ([entry].lookup name) := by
  rw [enter]
  split
  · rename_i hthere
    -- A name that is there keeps its entry; the new one would have been behind it.
    by_cases hname : name = entry.1
    · obtain ⟨v, hv⟩ := Option.isSome_iff_exists.1 hthere
      rw [hname, hv]
      rfl
    · have hother : [entry].lookup name = none := by simp [hname]
      rw [hother, Option.or_none]
  · exact List.lookup_append

/-- Of all that is entered, the first entry of a name is found. -/
theorem lookup_foldl_enter {ν : Type} (index entries : List (String × ν)) (name : String) :
    (entries.foldl enter index).lookup name = (index.lookup name).or (entries.lookup name) := by
  induction entries generalizing index with
  | nil => simp
  | cons entry entries ih =>
    rw [List.foldl_cons, ih, lookup_enter, Option.or_assoc, ← List.lookup_append,
      List.singleton_append]

/-- What a full name stands for: a message or an enum, by its number. -/
inductive TypeId where
  | message (id : MessageId)
  | enum (id : EnumId)
deriving DecidableEq, Repr, Inhabited

/-- The full names of declarations with their numbers, of which the first message has `m` and the
first enum has `e`. -/
def typeEntries : (m e : Nat) → List Declaration → List (String × TypeId)
  | _, _, [] => []
  | m, e, .message node :: xs => (node.fullName, .message ⟨m⟩) :: typeEntries (m + 1) e xs
  | m, e, .enum node :: xs => (node.fullName, .enum ⟨e⟩) :: typeEntries m (e + 1) xs

/-- Later declarations are numbered behind earlier ones. -/
theorem typeEntries_append (m e : Nat) (xs ys : List Declaration) :
    typeEntries m e (xs ++ ys) = typeEntries m e xs
      ++ typeEntries (m + (xs.filterMap (·.message?)).length)
        (e + (xs.filterMap (·.enum?)).length) ys := by
  induction xs generalizing m e with
  | nil => rfl
  | cons x xs ih =>
    cases x <;> simp [typeEntries, ih, List.filterMap_cons, Nat.add_assoc, Nat.add_comm 1]

/-- Entries have the names of their declarations. -/
theorem map_fst_typeEntries (m e : Nat) (xs : List Declaration) :
    (typeEntries m e xs).map Prod.fst = xs.map (·.fullName) := by
  induction xs generalizing m e with
  | nil => rfl
  | cons x xs ih =>
    cases x <;> rw [typeEntries, List.map_cons, List.map_cons, ih] <;> rfl

namespace Pool

/-- The index of a pool: its declarations, entered one after the other. -/
def typeIndex (pool : Pool) : List (String × TypeId) :=
  (typeEntries 0 0 pool.declarations).foldl enter []

/-- The declaration of a number. -/
def resolve? (pool : Pool) : TypeId → Option Declaration
  | .message id => (pool.message? id).map .message
  | .enum id => (pool.enum? id).map .enum

/-- The number of a declaration leads back to it. -/
theorem exists_entry_middle {pool : Pool} {before after : List Declaration} {x : Declaration}
    (h : pool.declarations = before ++ x :: after) : ∃ id, pool.resolve? id = some x
      ∧ typeEntries 0 0 pool.declarations = typeEntries 0 0 before ++ (x.fullName, id)
        :: typeEntries (0 + ((before ++ [x]).filterMap (·.message?)).length)
          (0 + ((before ++ [x]).filterMap (·.enum?)).length) after := by
  have hsplit : pool.declarations = (before ++ [x]) ++ after := by
    rw [h, List.append_assoc, List.singleton_append]
  rw [hsplit, typeEntries_append, typeEntries_append, List.append_assoc]
  -- The id counts the earlier declarations of the same kind.
  cases x with
  | message node =>
    refine ⟨.message ⟨0 + (before.filterMap (·.message?)).length⟩, ?_, rfl⟩
    simp [resolve?, message?, messages, h]
  | enum node =>
    refine ⟨.enum ⟨0 + (before.filterMap (·.enum?)).length⟩, ?_, rfl⟩
    simp [resolve?, enum?, enums, h]

/-- The search of a pool finds what its index has. -/
theorem declaration?_eq_lookup (pool : Pool) (name : String) :
    pool.declaration? name = (pool.typeIndex.lookup name).bind pool.resolve? := by
  have hindex : pool.typeIndex.lookup name
      = (typeEntries 0 0 pool.declarations).lookup name := by
    rw [typeIndex, lookup_foldl_enter]
    rfl
  have hne : ∀ xs : List Declaration, (∀ x ∈ xs, x.fullName ≠ name) →
      ∀ entry ∈ typeEntries 0 0 xs, (name != entry.1) = true := by
    intro xs hxs entry hentry
    have hmem := List.mem_map_of_mem (f := Prod.fst) hentry
    rw [map_fst_typeEntries] at hmem
    obtain ⟨x, hx, hname⟩ := List.mem_map.1 hmem
    simpa [← hname] using (hxs x hx).symm
  rw [hindex]
  cases hfound : pool.declaration? name with
  | none =>
    rw [declaration?, List.find?_eq_none] at hfound
    rw [List.lookup_eq_none_iff.2 (hne _ fun x hx => by simpa using hfound x hx)]
    rfl
  | some x =>
    -- In front of the declaration nothing has its name, so its own entry is found.
    obtain ⟨hx, before, after, hsplit, hbefore⟩ := List.find?_eq_some_iff_append.1 hfound
    obtain rfl : x.fullName = name := by simpa using hx
    obtain ⟨id, hid, hentries⟩ := exists_entry_middle hsplit
    have hlookup := List.lookup_eq_some_iff.2
      ⟨_, _, hentries, hne before fun y hy => by simpa using hbefore y hy⟩
    rw [hlookup, Option.bind_some, hid]

end Pool

/-! ## Declared types -/

/-- A message or an enum as it is declared: its file, the parts of the name around it, and its
descriptor. -/
inductive DeclaredType where
  | message (file : FileId) (outer : List String) (d : MessageDescriptor)
  | enum (file : FileId) (outer : List String) (d : EnumDescriptor)

namespace DeclaredType

/-- The full name of a type: the names around it and its own, joined by dots. -/
def fullName : DeclaredType → String
  | message _ outer d => dotted (outer ++ [d.name.getD ""])
  | enum _ outer d => dotted (outer ++ [d.name.getD ""])

/-- Whether a type is a message. -/
def isMessage : DeclaredType → Bool
  | message .. => true
  | enum .. => false

mutual

/-- A message, its enums, and the types that the messages inside it declare. -/
def ofMessage (file : FileId) (outer : List String) : MessageDescriptor → List DeclaredType
  | ⟨name, fields, messages, enums, options⟩ =>
    .message file outer ⟨name, fields, messages, enums, options⟩
      :: enums.map (.enum file (outer ++ [name.getD ""]))
      ++ ofMessages file (outer ++ [name.getD ""]) messages

/-- The types that sibling messages declare. -/
def ofMessages (file : FileId) (outer : List String) : List MessageDescriptor → List DeclaredType
  | [] => []
  | d :: ds => ofMessage file outer d ++ ofMessages file outer ds

end

/-- The types that a file declares: its enums, then its messages. -/
def ofFile (file : FileId) (f : FileDescriptor) : List DeclaredType :=
  f.enums.map (.enum file (packageParts f)) ++ ofMessages file (packageParts f) f.messages

/-- The types that files declare, file by file. -/
def ofFiles (files : List FileDescriptor) : List DeclaredType :=
  files.zipIdx.flatMap fun p => ofFile ⟨p.2⟩ p.1

/-- One more file declares its types behind the others. -/
theorem ofFiles_append_singleton (files : List FileDescriptor) (f : FileDescriptor) :
    ofFiles (files ++ [f]) = ofFiles files ++ ofFile ⟨files.length⟩ f := by
  simp [ofFiles, List.zipIdx_append]

end DeclaredType

/-! ## Declared types in a pool -/

namespace Pool

/-- What an enum keeps of its descriptor. -/
def enumOf (file : FileId) (outer : List String) (d : EnumDescriptor) : EnumNode where
  name := d.name.getD ""
  fullName := dotted (outer ++ [d.name.getD ""])
  file := file
  values := d.values.map (·.name.getD "")

/-- A declaration of a pool is that of a declared type. -/
def Holds (pool : Pool) : DeclaredType → Declaration → Prop
  | .message file outer d, .message node =>
    ∃ id, pool.message? id = some node ∧ pool.HoldsMessage file outer id d
  | .enum file outer d, .enum node => node = enumOf file outer d
  | .message .., .enum _ => False
  | .enum .., .message _ => False

/-- What a number leads to depends on the node that it has. -/
theorem HoldsMessage.of_message?_eq {pool : Pool} {file : FileId} {outer : List String}
    {i j : MessageId} (hij : pool.message? i = pool.message? j) :
    {d : MessageDescriptor} → pool.HoldsMessage file outer i d → pool.HoldsMessage file outer j d
  | ⟨_, _, _, _, _⟩, h => by
    rw [HoldsMessage] at h ⊢
    rwa [← hij]

/-- A declaration has the full name of its type. -/
theorem Holds.fullName_eq {pool : Pool} {t : DeclaredType} {x : Declaration} (h : pool.Holds t x) :
    x.fullName = t.fullName := by
  cases t with
  | message file outer d =>
    cases x with
    | message node =>
      obtain ⟨id, hnode, hholds⟩ := h
      obtain ⟨name, fields, messages, enums, options⟩ := d
      obtain ⟨found, hfound, -, hfullName, -⟩ := hholds
      rw [hnode] at hfound
      rw [Declaration.fullName, Option.some.inj hfound, hfullName]
      rfl
    | enum node => exact h.elim
  | enum file outer d =>
    cases x with
    | message node => exact h.elim
    | enum node =>
      rw [show node = _ from h]
      rfl

end Pool

namespace Flatten

/-- The enums inside a scope are those of their descriptors. -/
theorem holds_enums (pool : Pool) (file : FileId) {outer : List String}
    (houter : outer ≠ []) (enums : List EnumDescriptor) :
    List.Forall₂ pool.Holds (enums.map (.enum file outer))
      (enums.map fun d => .enum (.ofDescriptor file (dotted outer) d)) := by
  rw [List.forall₂_map_left_iff, List.forall₂_map_right_iff, List.forall₂_same]
  intro d _
  rw [Pool.Holds, Pool.enumOf, dotted_append_singleton houter]
  rfl

mutual

/-- The declarations of a message are those of the types it declares, in order. -/
theorem holds_declarations (pool : Pool) (file : FileId) {outer : List String}
    (houter : outer ≠ []) (m e : Nat) :
    (d : MessageDescriptor) →
      (declarations file (dotted outer) m e d).filterMap (·.message?) <+: pool.messages.drop m →
      (declarations file (dotted outer) m e d).filterMap (·.enum?) <+: pool.enums.drop e →
      List.Forall₂ pool.Holds (DeclaredType.ofMessage file outer d)
        (declarations file (dotted outer) m e d)
  | ⟨name, fields, messages, enums, options⟩, hm, he => by
    -- The message itself comes first, then its enums, then what is nested in it.
    have hself := holdsMessage_of_prefix pool file houter m e _ hm he
    rw [filterMap_message?_declarations, ← dotted_append_singleton houter] at hm
    rw [filterMap_enum?_declarations, ← dotted_append_singleton houter] at he
    obtain ⟨hroot, hmessages⟩ := prefix_drop_cons hm
    have henums := (prefix_drop_append he).2
    rw [List.length_map] at henums
    have hinner : outer ++ [name.getD ""] ≠ [] := List.append_ne_nil_of_right_ne_nil _ (by simp)
    have hnested := holds_nestedDeclarations pool file hinner (m + 1) (e + enums.length) messages
      hmessages henums
    rw [DeclaredType.ofMessage, declarations, ← dotted_append_singleton houter]
    refine .cons ⟨⟨m⟩, ?_, hself⟩ (List.rel_append (holds_enums pool file hinner enums) hnested)
    rw [dotted_append_singleton houter]
    exact hroot

/-- The same holds of sibling messages. -/
theorem holds_nestedDeclarations (pool : Pool) (file : FileId) {outer : List String}
    (houter : outer ≠ []) (m e : Nat) :
    (ds : List MessageDescriptor) →
      (nestedDeclarations file (dotted outer) m e ds).filterMap (·.message?)
        <+: pool.messages.drop m →
      (nestedDeclarations file (dotted outer) m e ds).filterMap (·.enum?) <+: pool.enums.drop e →
      List.Forall₂ pool.Holds (DeclaredType.ofMessages file outer ds)
        (nestedDeclarations file (dotted outer) m e ds)
  | [], _, _ => .nil
  | d :: ds, hm, he => by
    rw [nestedDeclarations, List.filterMap_append] at hm he
    obtain ⟨hm₁, hm₂⟩ := prefix_drop_append hm
    obtain ⟨he₁, he₂⟩ := prefix_drop_append he
    -- The next message is numbered behind everything nested in this one.
    rw [length_messagesIn] at hm₂
    rw [length_enumsIn] at he₂
    rw [DeclaredType.ofMessages, nestedDeclarations]
    exact List.rel_append (holds_declarations pool file houter m e d hm₁ he₁)
      (holds_nestedDeclarations pool file houter _ _ ds hm₂ he₂)

end

/-- The declarations of a file are those of the types it declares, in order. -/
theorem holds_fileDeclarations {pool : Pool} {file : FileId} {m e : Nat} {f : FileDescriptor}
    (hm : (fileDeclarations file m e f).filterMap (·.message?) <+: pool.messages.drop m)
    (he : (fileDeclarations file m e f).filterMap (·.enum?) <+: pool.enums.drop e) :
    List.Forall₂ pool.Holds (DeclaredType.ofFile file f) (fileDeclarations file m e f) := by
  have hne := packageParts_ne_nil f
  rw [filterMap_message?_fileDeclarations, ← dotted_packageParts] at hm
  rw [filterMap_enum?_fileDeclarations, ← dotted_packageParts] at he
  have hnested := (prefix_drop_append he).2
  rw [List.length_map] at hnested
  rw [DeclaredType.ofFile, fileDeclarations, ← dotted_packageParts]
  exact List.rel_append (holds_enums pool file hne f.enums)
    (holds_nestedDeclarations pool file hne m _ f.messages hm hnested)

end Flatten

namespace Pool

open Flatten DeclaredType

/-- The declarations of a pool are those of the types that its files declare, in order. -/
theorem holds_ofFiles (files : List FileDescriptor) :
    List.Forall₂ (ofFiles files).Holds (DeclaredType.ofFiles files)
      (ofFiles files).declarations := by
  -- The files come one by one into the pool of all.
  have hfront : ∀ before after, files = before ++ after →
      List.Forall₂ (ofFiles files).Holds (DeclaredType.ofFiles before)
        (ofFiles before).declarations := by
    intro before
    induction before using List.reverseRecOn with
    | nil => exact fun _ _ => .nil
    | append_singleton before f ih =>
      intro after hsplit
      rw [List.append_assoc, List.singleton_append] at hsplit
      obtain ⟨-, hmessages, henums⟩ := ofFiles_middle before after f
      rw [← hsplit] at hmessages henums
      rw [ofFiles_append_singleton, ofFiles_append, addFile, length_files_ofFiles]
      exact List.rel_append (ih _ hsplit) (holds_fileDeclarations hmessages henums)
  exact hfront files [] (List.append_nil files).symm

/-- Where declarations are those of types, they have the same full names. -/
theorem map_fullName_of_holds {pool : Pool} {types : List DeclaredType}
    {declarations : List Declaration} (h : List.Forall₂ pool.Holds types declarations) :
    declarations.map (·.fullName) = types.map (·.fullName) := by
  induction h with
  | nil => rfl
  | cons htx _ ih => rw [List.map_cons, List.map_cons, ih, htx.fullName_eq]

/-- Where declarations are those of types, there are as many messages and as many enums. -/
theorem length_filterMap_of_holds {pool : Pool} {types : List DeclaredType}
    {declarations : List Declaration} (h : List.Forall₂ pool.Holds types declarations) :
    (declarations.filterMap (·.message?)).length = types.countP (·.isMessage)
      ∧ (declarations.filterMap (·.enum?)).length = types.countP (!·.isMessage) := by
  induction h with
  | nil => exact ⟨rfl, rfl⟩
  | @cons t x types declarations htx _ ih =>
    cases t <;> cases x <;> simp_all [Holds, isMessage, List.filterMap_cons]

/-- A full name stands for a type that is declared behind those in `before`: the look-up for its
kind gives the node with its number, which is that of its descriptor, and the look-up for the other
kind gives nothing. -/
def Finds (pool : Pool) (name : String) (before : List DeclaredType) : DeclaredType → Prop
  | .message file outer d =>
    let id : MessageId := ⟨before.countP (·.isMessage)⟩
    pool.messageByTypeName name = pool.message? id ∧ pool.HoldsMessage file outer id d
      ∧ pool.enumByTypeName name = none
  | .enum file outer d =>
    let id : EnumId := ⟨before.countP (!·.isMessage)⟩
    pool.enumByTypeName name = pool.enum? id ∧ pool.enum? id = some (enumOf file outer d)
      ∧ pool.messageByTypeName name = none

/-- Elements in the middle of a list have a counterpart in the middle of the other. -/
theorem exists_of_forall₂_middle {α β : Type} {r : α → β → Prop} {as₁ as₂ : List α} {a : α}
    {bs : List β} (h : List.Forall₂ r (as₁ ++ a :: as₂) bs) :
    ∃ bs₁ b bs₂, bs = bs₁ ++ b :: bs₂ ∧ List.Forall₂ r as₁ bs₁ ∧ r a b := by
  induction as₁ generalizing bs with
  | nil =>
    obtain ⟨b, bs₂, hab, -, rfl⟩ := List.forall₂_cons_left_iff.1 h
    exact ⟨[], b, bs₂, rfl, .nil, hab⟩
  | cons a' as₁ ih =>
    obtain ⟨b', bs', hab', hrest, rfl⟩ := List.forall₂_cons_left_iff.1 h
    obtain ⟨bs₁, b, bs₂, rfl, hfront, hab⟩ := ih hrest
    exact ⟨b' :: bs₁, b, bs₂, rfl, .cons hab' hfront, hab⟩

/-- The first type of a full name is found. -/
theorem finds_of_first {files : List FileDescriptor} {before after : List DeclaredType}
    {t : DeclaredType} {name : String} (hsplit : DeclaredType.ofFiles files = before ++ t :: after)
    (ht : t.fullName = name) (hbefore : ∀ u ∈ before, u.fullName ≠ name) :
    (ofFiles files).Finds name before t := by
  have hholds := holds_ofFiles files
  rw [hsplit] at hholds
  obtain ⟨front, x, rest, hdeclarations, hfront, hx⟩ := exists_of_forall₂_middle hholds
  have hfound : (ofFiles files).declaration? name = some x := by
    refine List.find?_eq_some_iff_append.2 ⟨?_, front, rest, hdeclarations, fun y hy => ?_⟩
    · rw [hx.fullName_eq, ht, beq_self_eq_true]
    · have hname := List.mem_map_of_mem (f := Declaration.fullName) hy
      rw [map_fullName_of_holds hfront] at hname
      obtain ⟨u, hu, huy⟩ := List.mem_map.1 hname
      simpa [← huy] using hbefore u hu
  -- The number of a node counts the nodes of its kind in front of it.
  obtain ⟨hmessages, henums⟩ := length_filterMap_of_holds hfront
  cases t with
  | message file outer d =>
    cases x with
    | enum node => exact hx.elim
    | message node =>
      obtain ⟨id, hid, hnode⟩ := hx
      have hnumber : (ofFiles files).message? ⟨before.countP (·.isMessage)⟩ = some node := by
        simp [message?, messages, hdeclarations, ← hmessages]
      refine ⟨?_, hnode.of_message?_eq (hid.trans hnumber.symm), ?_⟩
      · rw [messageByTypeName, hfound, hnumber]
        rfl
      · rw [enumByTypeName, hfound]
        rfl
  | enum file outer d =>
    cases x with
    | message node => exact hx.elim
    | enum node =>
      obtain rfl : node = enumOf file outer d := hx
      have hnumber : (ofFiles files).enum? ⟨before.countP (!·.isMessage)⟩
          = some (enumOf file outer d) := by
        simp [enum?, enums, hdeclarations, ← henums]
      refine ⟨?_, hnumber, ?_⟩
      · rw [enumByTypeName, hfound, hnumber]
        rfl
      · rw [messageByTypeName, hfound]
        rfl

/-- A full name that nothing has is not found. -/
theorem declaration?_eq_none {files : List FileDescriptor} {name : String}
    (h : ∀ t ∈ DeclaredType.ofFiles files, t.fullName ≠ name) :
    (ofFiles files).declaration? name = none := by
  rw [declaration?, List.find?_eq_none]
  intro x hx
  -- Every declaration comes from a type of the files, with that full name.
  have hname := List.mem_map_of_mem (f := Declaration.fullName) hx
  rw [map_fullName_of_holds (holds_ofFiles files)] at hname
  obtain ⟨t, ht, htx⟩ := List.mem_map.1 hname
  simpa [← htx] using h t ht

/-- Where full names are distinct, a declaration is found by its own. -/
theorem declaration?_fullName {files : List FileDescriptor}
    (h : ((DeclaredType.ofFiles files).map (·.fullName)).Nodup) {x : Declaration}
    (hx : x ∈ (ofFiles files).declarations) :
    (ofFiles files).declaration? x.fullName = some x := by
  rw [← map_fullName_of_holds (holds_ofFiles files)] at h
  cases hfound : (ofFiles files).declaration? x.fullName with
  | none => simpa using List.find?_eq_none.1 hfound x hx
  | some y =>
    -- What is found has the same full name, and full names are distinct.
    have hname : y.fullName = x.fullName := by simpa using List.find?_some hfound
    rw [List.inj_on_of_nodup_map h (List.mem_of_find?_eq_some hfound) hx hname]

/-- What is found by name in the pool of some files. A full name that no type has is not found.
Otherwise it stands for the first type of that name in the order of the descriptors: the look-up
for its kind gives that type, with its number, and the one for the other kind gives nothing. An
index that is filled in this order and keeps its entries has the same. A file name stands for the
first file of that name; and where all full names are distinct, every node is found by its own. -/
theorem resolves_first (files : List FileDescriptor) (name : String) :
    let pool := ofFiles files
    let types := DeclaredType.ofFiles files
    ((∀ t ∈ types, t.fullName ≠ name) →
        pool.enumByTypeName name = none ∧ pool.messageByTypeName name = none)
      ∧ (∀ before t after, types = before ++ t :: after → t.fullName = name →
        (∀ u ∈ before, u.fullName ≠ name) → pool.Finds name before t)
      ∧ pool.declaration? name = (pool.typeIndex.lookup name).bind pool.resolve?
      ∧ ((∀ f ∈ files, f.name.getD "" ≠ name) → pool.fileByName name = none)
      ∧ (∀ before f after, files = before ++ f :: after → f.name.getD "" = name →
        (∀ g ∈ before, g.name.getD "" ≠ name) →
        pool.fileByName name = pool.file? ⟨before.length⟩ ∧ pool.HoldsFile ⟨before.length⟩ f)
      ∧ ((types.map (·.fullName)).Nodup →
        (∀ node ∈ pool.messages, pool.messageByTypeName node.fullName = some node)
          ∧ ∀ node ∈ pool.enums, pool.enumByTypeName node.fullName = some node) := by
  intro pool types
  refine ⟨fun h => ?_, fun before t after => finds_of_first, declaration?_eq_lookup pool name,
    fun h => ?_, ?_, fun h => ⟨fun node hnode => ?_, fun node hnode => ?_⟩⟩
  · have hnone : pool.declaration? name = none := declaration?_eq_none h
    rw [enumByTypeName, messageByTypeName, hnone]
    exact ⟨rfl, rfl⟩
  · apply fileByName_eq_none
    rw [List.find?_eq_none]
    simpa using h
  · rintro before f after rfl hname hbefore
    obtain ⟨⟨rest, hfiles⟩, -⟩ := ofFiles_middle before after f
    refine ⟨?_, holdsFile_middle before after f⟩
    rw [fileByName_middle (by simpa using hname) fun g hg => by simpa using hbefore g hg, file?,
      hfiles, ← length_files_ofFiles before]
    simp
  -- A node of the pool was declared, and with distinct names its own name finds that declaration.
  · obtain ⟨x, hx, hxnode⟩ := List.mem_filterMap.1 hnode
    cases x with
    | enum other => cases hxnode
    | message other =>
      obtain rfl := Option.some.inj hxnode
      have hfound := declaration?_fullName h hx
      rw [messageByTypeName, show pool.declaration? other.fullName = _ from hfound]
      rfl
  · obtain ⟨x, hx, hxnode⟩ := List.mem_filterMap.1 hnode
    cases x with
    | message other => cases hxnode
    | enum other =>
      obtain rfl := Option.some.inj hxnode
      have hfound := declaration?_fullName h hx
      rw [enumByTypeName, show pool.declaration? other.fullName = _ from hfound]
      rfl

end Pool

/-- A message with an enum inside it. -/
def cartMessage : MessageDescriptor where
  name := some "Cart"
  enums := [{ name := some "State", values := [{ name := some "OPEN" }] }]

/-- A file with that message. -/
def cartFile : FileDescriptor where
  name := some "cart.proto"
  package := some "shop"
  messages := [cartMessage]

/-- A file with a message, in a package of the full name of the other message. -/
def cartStateFile : FileDescriptor where
  name := some "state.proto"
  package := some "shop.Cart"
  messages := [{ name := some "State" }]

/-- The full name of both stands for the enum, which comes first, and the message is not found. -/
theorem resolves_first_cartFile :
    let pool := Pool.ofFiles [cartFile, cartStateFile]
    (∃ node, pool.enumByTypeName ".shop.Cart.State" = some node ∧ node.values = ["OPEN"])
      ∧ pool.messageByTypeName ".shop.Cart.State" = none
      ∧ pool.messages.map (·.fullName) = [".shop.Cart", ".shop.Cart.State"]
      ∧ ∀ node ∈ (Pool.ofFiles [cartFile]).enums,
        (Pool.ofFiles [cartFile]).enumByTypeName node.fullName = some node := by
  obtain ⟨-, hfirst, -⟩ := Pool.resolves_first [cartFile, cartStateFile] ".shop.Cart.State"
  obtain ⟨-, -, -, -, -, hdistinct⟩ := Pool.resolves_first [cartFile] ".shop.Cart.State"
  have hbefore : ∀ u ∈ [DeclaredType.message ⟨0⟩ ["", "shop"] cartMessage],
      u.fullName ≠ ".shop.Cart.State" := by
    intro u hu
    rw [List.mem_singleton.1 hu]
    decide +kernel
  obtain ⟨hfound, hnode, hother⟩ := hfirst [_] (.enum ⟨0⟩ ["", "shop", "Cart"] _) _ rfl
    (by decide +kernel) hbefore
  refine ⟨⟨_, hfound.trans hnode, rfl⟩, hother, by decide +kernel, ?_⟩
  exact (hdistinct (by decide +kernel)).2

end ProtoSchema
