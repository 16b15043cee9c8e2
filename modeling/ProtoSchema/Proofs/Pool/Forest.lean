import ProtoSchema.Proofs.Pool.Descriptors

/-!
# The pool is a forest

A number stands in the node of a file or in that of a message. Every number of a pool stands in one
of these lists, once, and no list has any other number. The messages inside a message have greater
numbers than it has, so whoever follows them comes to an end.

Key results:
* `perm_messageIds_append`, `enumIds_append_flatMap` — the numbers that sibling messages and what
  is inside them take
* `Pool.IsForest.addFile` — one more file keeps the shape
* `Pool.IsForest.wellFounded_inside` — walks along nested messages end
* `forest_of_files` — the pool of a request is a forest that holds the files of the request
-/

namespace ProtoSchema

open Plugin

variable {α : Type}

/-- The inner two of four parts change places. -/
theorem perm_append_append (a b c d : List α) :
    ((a ++ b) ++ (c ++ d)).Perm ((a ++ c) ++ (b ++ d)) := by
  rw [List.append_assoc, List.append_assoc]
  exact (List.perm_append_comm_assoc b c d).append_left a

namespace Flatten

/-! ## Numbers that are taken -/

/-- The numbers of `count` messages in a row, of which the first is `first`. -/
def messageRange (first count : Nat) : List MessageId :=
  (List.range' first count).map MessageId.mk

/-- Numbers in a row go on behind others. -/
theorem messageRange_append (first m n : Nat) :
    messageRange first m ++ messageRange (first + m) n = messageRange first (m + n) := by
  rw [messageRange, messageRange, ← List.map_append, List.range'_append_1, messageRange]

/-- Numbers of enums in a row go on behind others. -/
theorem enumIds_append (first m n : Nat) :
    enumIds first m ++ enumIds (first + m) n = enumIds first (m + n) := by
  rw [enumIds, enumIds, ← List.map_append, List.range'_append_1, enumIds]

mutual

/-- The number of a message and those in the nodes of its declarations are as many in a row as the
message counts. -/
theorem perm_messageId_cons (file : FileId) (scope : String) (m e : Nat) :
    (d : MessageDescriptor) →
      (⟨m⟩ :: ((declarations file scope m e d).filterMap (·.message?)).flatMap
        (·.nestedMessages)).Perm (messageRange m (messageCount d))
  | ⟨name, fields, messages, enums, options⟩ => by
    have hnested := perm_messageIds_append file (qualified scope (name.getD "")) (m + 1)
      (e + enums.length) messages
    -- The message has the first id of the range, those inside it the rest.
    rw [filterMap_message?_declarations, List.flatMap_cons, messageCount, messageRange,
      List.range'_succ, List.map_cons]
    exact hnested.cons ⟨m⟩

/-- The numbers of sibling messages and those in the nodes of their declarations are as many in a
row as the messages count. -/
theorem perm_messageIds_append (file : FileId) (scope : String) (m e : Nat) :
    (ds : List MessageDescriptor) →
      (messageIds m ds ++ ((nestedDeclarations file scope m e ds).filterMap (·.message?)).flatMap
        (·.nestedMessages)).Perm (messageRange m (messageCounts ds))
  | [] => .nil
  | d :: ds => by
    have hfirst := perm_messageId_cons file scope m e d
    have hrest := perm_messageIds_append file scope (m + messageCount d) (e + enumCount d) ds
    rw [messageIds, nestedDeclarations, List.filterMap_append, List.flatMap_append, messageCounts,
      ← messageRange_append]
    -- The number of the first message moves to those in its own declarations.
    exact (perm_append_append [MessageId.mk m] _ _ _).trans (hfirst.append hrest)

end

mutual

/-- The numbers of enums in the nodes of a message and those inside it are as many in a row as the
message counts. -/
theorem flatMap_nestedEnums_declarations (file : FileId) (scope : String) (m e : Nat) :
    (d : MessageDescriptor) →
      ((declarations file scope m e d).filterMap (·.message?)).flatMap (·.nestedEnums)
        = enumIds e (enumCount d)
  | ⟨name, fields, messages, enums, options⟩ => by
    have hnested := flatMap_nestedEnums_nestedDeclarations file (qualified scope (name.getD ""))
      (m + 1) (e + enums.length) messages
    rw [filterMap_message?_declarations, List.flatMap_cons, hnested, enumCount, ← enumIds_append]
    rfl

/-- The same holds of sibling messages. -/
theorem flatMap_nestedEnums_nestedDeclarations (file : FileId) (scope : String) (m e : Nat) :
    (ds : List MessageDescriptor) →
      ((nestedDeclarations file scope m e ds).filterMap (·.message?)).flatMap (·.nestedEnums)
        = enumIds e (enumCounts ds)
  | [] => rfl
  | d :: ds => by
    have hfirst := flatMap_nestedEnums_declarations file scope m e d
    have hrest := flatMap_nestedEnums_nestedDeclarations file scope (m + messageCount d)
      (e + enumCount d) ds
    rw [nestedDeclarations, List.filterMap_append, List.flatMap_append, hfirst, hrest, enumCounts,
      enumIds_append]

end

/-! ## Numbers inside messages -/

/-- The messages, of which the first has the number `first`, have only greater numbers than their
own in their nodes. -/
def Ascends (first : Nat) (ms : List MessageNode) : Prop :=
  ∀ j node, ms[j]? = some node → ∀ id ∈ node.nestedMessages, first + j < id.index

theorem ascends_nil (first : Nat) : Ascends first [] := by
  rintro j node ⟨⟩

/-- A message may stand in front when it has only greater numbers than its own in its node. -/
theorem Ascends.cons {first : Nat} {node : MessageNode} {ms : List MessageNode}
    (hnode : ∀ id ∈ node.nestedMessages, first < id.index) (h : Ascends (first + 1) ms) :
    Ascends first (node :: ms) := by
  rintro (_ | j) inner hinner id hid
  · obtain rfl := Option.some.inj hinner
    exact hnode id hid
  · have hlt := h j inner hinner id hid
    omega

/-- Lists in which numbers ascend may follow each other, each with its own first number. -/
theorem Ascends.append {first : Nat} {ms ns : List MessageNode} (h : Ascends first ms)
    (h' : Ascends (first + ms.length) ns) : Ascends first (ms ++ ns) := by
  intro j node hnode id hid
  -- A message of the second part is numbered behind the whole first part.
  rcases Nat.lt_or_ge j ms.length with hj | hj
  · rw [List.getElem?_append_left hj] at hnode
    exact h j node hnode id hid
  · rw [List.getElem?_append_right hj] at hnode
    have hlt := h' (j - ms.length) node hnode id hid
    omega

/-- Sibling messages have no smaller number than the first. -/
theorem le_of_mem_messageIds {m : Nat} {id : MessageId} {ds : List MessageDescriptor}
    (h : id ∈ messageIds m ds) : m ≤ id.index := by
  induction ds generalizing m with
  | nil => exact absurd h List.not_mem_nil
  | cons d ds ih =>
    rcases List.mem_cons.1 h with rfl | h
    · exact Nat.le_refl m
    · exact Nat.le_trans (Nat.le_add_right m _) (ih h)

mutual

theorem ascends_declarations (file : FileId) (scope : String) (m e : Nat) :
    (d : MessageDescriptor) → Ascends m ((declarations file scope m e d).filterMap (·.message?))
  | ⟨name, fields, messages, enums, options⟩ => by
    rw [filterMap_message?_declarations]
    exact .cons (fun id hid => le_of_mem_messageIds hid)
      (ascends_nestedDeclarations file _ (m + 1) (e + enums.length) messages)

/-- Messages have only greater numbers than their own in their nodes. -/
theorem ascends_nestedDeclarations (file : FileId) (scope : String) (m e : Nat) :
    (ds : List MessageDescriptor) →
      Ascends m ((nestedDeclarations file scope m e ds).filterMap (·.message?))
  | [] => ascends_nil m
  | d :: ds => by
    have hrest := ascends_nestedDeclarations file scope (m + messageCount d) (e + enumCount d) ds
    rw [nestedDeclarations, List.filterMap_append]
    refine (ascends_declarations file scope m e d).append ?_
    rwa [length_messagesIn]

end

end Flatten

/-! ## Pools -/

namespace Pool

open Flatten

variable {pool : Pool}

/-- The numbers of messages that stand in nodes: those of files, then those of messages. -/
def listedMessages (pool : Pool) : List MessageId :=
  pool.files.flatMap (·.messages) ++ pool.messages.flatMap (·.nestedMessages)

/-- The numbers of enums that stand in nodes: those of files, then those of messages. -/
def listedEnums (pool : Pool) : List EnumId :=
  pool.files.flatMap (·.enums) ++ pool.messages.flatMap (·.nestedEnums)

/-- Every number of a message or an enum stands in one list, once, and no other number does. A
message has only greater numbers in its node, and all that is declared belongs to a file. -/
structure IsForest (pool : Pool) : Prop where
  messages_once : pool.listedMessages.Perm (messageRange 0 pool.messages.length)
  enums_once : pool.listedEnums.Perm (enumIds 0 pool.enums.length)
  ascends : Ascends 0 pool.messages
  file_lt : ∀ x ∈ pool.declarations, x.file.index < pool.files.length

/-- The empty pool is a forest without trees. -/
theorem isForest_empty : ({} : Pool).IsForest where
  messages_once := .nil
  enums_once := .nil
  ascends := ascends_nil 0
  file_lt _ h := absurd h List.not_mem_nil

/-- A file adds the messages it declares behind those that are there. -/
theorem messages_addFile (pool : Pool) (d : FileDescriptor) :
    (pool.addFile d).messages = pool.messages
      ++ (nestedDeclarations ⟨pool.files.length⟩ (fileScope d) pool.messages.length
        (pool.enums.length + d.enums.length) d.messages).filterMap (·.message?) := by
  rw [messages, addFile, List.filterMap_append, filterMap_message?_fileDeclarations]
  rfl

/-- A file adds as many enums as it declares. -/
theorem length_enums_addFile (pool : Pool) (d : FileDescriptor) :
    (pool.addFile d).enums.length
      = pool.enums.length + (d.enums.length + enumCounts d.messages) := by
  rw [enums, addFile, List.filterMap_append, filterMap_enum?_fileDeclarations, List.length_append,
    List.length_append, List.length_map, length_nestedEnumsIn]
  rfl

/-- One more file takes the numbers behind those of the files before it. -/
theorem IsForest.addFile (h : pool.IsForest) (d : FileDescriptor) : (pool.addFile d).IsForest where
  messages_once := by
    have hnew := perm_messageIds_append ⟨pool.files.length⟩ (fileScope d) pool.messages.length
      (pool.enums.length + d.enums.length) d.messages
    rw [listedMessages, messages_addFile, List.length_append, length_nestedMessagesIn,
      List.flatMap_append, ← messageRange_append, Nat.zero_add]
    -- The new ids follow those of the pool, and the old listing is a permutation of theirs.
    refine .trans ?_ (h.messages_once.append hnew)
    rw [listedMessages, Pool.addFile, List.flatMap_append, List.flatMap_singleton]
    exact perm_append_append _ _ _ _
  enums_once := by
    have hnew := flatMap_nestedEnums_nestedDeclarations ⟨pool.files.length⟩ (fileScope d)
      pool.messages.length (pool.enums.length + d.enums.length) d.messages
    rw [listedEnums, messages_addFile, length_enums_addFile, List.flatMap_append, hnew,
      ← enumIds_append, Nat.zero_add, ← enumIds_append]
    refine .trans ?_ (h.enums_once.append_right _)
    rw [listedEnums, Pool.addFile, List.flatMap_append, List.flatMap_singleton]
    exact perm_append_append _ _ _ _
  ascends := by
    rw [messages_addFile]
    -- Inside the new file a nested message is numbered behind the one around it.
    refine h.ascends.append ?_
    rw [Nat.zero_add]
    exact ascends_nestedDeclarations _ _ _ _ d.messages
  file_lt x hx := by
    have hlength : (pool.addFile d).files.length = pool.files.length + 1 := List.length_append
    rw [hlength]
    rcases List.mem_append.1 hx with hx | hx
    · exact Nat.lt_succ_of_lt (h.file_lt x hx)
    · rw [file_of_mem_fileDeclarations hx]
      exact Nat.lt_succ_self _

/-- The pool of the files of a request is a forest. -/
theorem isForest_ofFiles (fs : List FileDescriptor) : (ofFiles fs).IsForest := by
  have hfold : ∀ pool : Pool, pool.IsForest → (fs.foldl addFile pool).IsForest := by
    induction fs with
    | nil => exact fun _ h => h
    | cons d fs ih => exact fun _ h => ih _ (h.addFile d)
  exact hfold {} isForest_empty

namespace IsForest

/-- Every number of a message that stands in a node leads to a message. -/
theorem message?_isSome (h : pool.IsForest) {id : MessageId} (hid : id ∈ pool.listedMessages) :
    (pool.message? id).isSome := by
  obtain ⟨i, hi, rfl⟩ := List.mem_map.1 (h.messages_once.mem_iff.1 hid)
  simpa [message?] using hi

/-- Every number of an enum that stands in a node leads to an enum. -/
theorem enum?_isSome (h : pool.IsForest) {id : EnumId} (hid : id ∈ pool.listedEnums) :
    (pool.enum? id).isSome := by
  obtain ⟨i, hi, rfl⟩ := List.mem_map.1 (h.enums_once.mem_iff.1 hid)
  simpa [enum?] using hi

/-- Every number of a file that stands in a node leads to a file. -/
theorem file?_isSome (h : pool.IsForest) {x : Declaration} (hx : x ∈ pool.declarations) :
    (pool.file? x.file).isSome := by
  simpa [file?] using h.file_lt x hx

end IsForest

/-- The message with the number `inner` is declared inside the one with the number `outer`. -/
def Inside (pool : Pool) (inner outer : MessageId) : Prop :=
  ∃ node, pool.message? outer = some node ∧ inner ∈ node.nestedMessages

/-- Walks along nested messages come to an end. -/
theorem IsForest.wellFounded_inside (h : pool.IsForest) : WellFounded pool.Inside := by
  -- What is left behind a message gets shorter from message to message.
  refine Subrelation.wf ?_ (measure fun id : MessageId => pool.messages.length - id.index).wf
  rintro inner outer ⟨node, hnode, hinner⟩
  have hlt := h.ascends outer.index node hnode inner hinner
  have hlisted : inner ∈ pool.listedMessages := List.mem_append_right _
    (List.mem_flatMap.2 ⟨node, List.mem_of_getElem? hnode, hinner⟩)
  have hbound : inner.index < pool.messages.length := by
    simpa [message?] using h.message?_isSome hlisted
  show pool.messages.length - inner.index < pool.messages.length - outer.index
  omega

/-- The pool of a request has one file for each file of the request, in order, and the numbers of
each lead to what its descriptor declares, at any depth and in order. Every number of a message or
an enum that the pool has stands in the node of one file or message, once; the numbers in nodes all
lead to nodes; and walks along nested messages, whose numbers grow, come to an end. -/
theorem forest_of_files (fs : List FileDescriptor) :
    (ofFiles fs).files.length = fs.length
    ∧ (∀ i : Fin fs.length, (ofFiles fs).HoldsFile ⟨i⟩ (fs.get i))
    ∧ (ofFiles fs).listedMessages.Perm
      ((List.range (ofFiles fs).messages.length).map MessageId.mk)
    ∧ (ofFiles fs).listedEnums.Perm ((List.range (ofFiles fs).enums.length).map EnumId.mk)
    ∧ (∀ id ∈ (ofFiles fs).listedMessages, ((ofFiles fs).message? id).isSome)
    ∧ (∀ id ∈ (ofFiles fs).listedEnums, ((ofFiles fs).enum? id).isSome)
    ∧ (∀ node ∈ (ofFiles fs).messages, ((ofFiles fs).file? node.file).isSome)
    ∧ (∀ node ∈ (ofFiles fs).enums, ((ofFiles fs).file? node.file).isSome)
    ∧ (∀ inner outer, (ofFiles fs).Inside inner outer → outer.index < inner.index)
    ∧ WellFounded (ofFiles fs).Inside := by
  have h := isForest_ofFiles fs
  refine ⟨length_files_ofFiles fs, holdsFile_ofFiles fs, ?_, ?_, fun _ => h.message?_isSome,
    fun _ => h.enum?_isSome, fun node hnode => ?_, fun node hnode => ?_,
    fun inner outer hinside => ?_, h.wellFounded_inside⟩
  · rw [List.range_eq_range']
    exact h.messages_once
  · rw [List.range_eq_range']
    exact h.enums_once
  · obtain ⟨x, hx, hnode⟩ := List.mem_filterMap.1 hnode
    rw [← Declaration.file_of_message? hnode]
    exact h.file?_isSome hx
  · obtain ⟨x, hx, hnode⟩ := List.mem_filterMap.1 hnode
    rw [← Declaration.file_of_enum? hnode]
    exact h.file?_isSome hx
  · obtain ⟨node, hnode, hinner⟩ := hinside
    -- A nested message has the larger id, so no walk outwards goes on for ever.
    have hlt := h.ascends outer.index node hnode inner hinner
    omega

end Pool

end ProtoSchema
