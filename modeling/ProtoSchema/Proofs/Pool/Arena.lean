import ProtoSchema.Pool.Tree

/-!
# The pool holds the descriptors

The numbers in a pool lead back to the descriptors that it was made of: the trees of a file are the
messages of its descriptor with all that is declared inside them, and names of files are found as in
the list of descriptors.

Key results:
* `getElem?_treesFrom` — a tree refers to later trees by their numbers
* `tree_eq`, `trees_eq` — the tree of a message is that of its descriptor
* `file_of_mem_fileDeclarations` — what a file declares belongs to it
* `fileByName_ofFiles`, `fileVisits_ofFiles` — the file of a name, and what it declares
-/

namespace ProtoSchema

open Plugin

variable {α : Type}

/-! ## Fronts of lists -/

/-- What a list goes on with, element by element. -/
theorem prefix_drop_cons {x : α} {l xs : List α} {n : Nat} (h : x :: l <+: xs.drop n) :
    xs[n]? = some x ∧ l <+: xs.drop (n + 1) := by
  obtain ⟨rest, hrest⟩ := h
  have hx : (xs.drop n)[0]? = some x := by
    rw [← hrest]
    rfl
  -- What stands in front behind `n` elements is the element with that number.
  rw [List.getElem?_drop, Nat.add_zero] at hx
  refine ⟨hx, rest, ?_⟩
  rw [← List.tail_drop, ← hrest]
  rfl

/-- What a list goes on with, part by part. -/
theorem prefix_drop_append {l₁ l₂ xs : List α} {n : Nat} (h : l₁ ++ l₂ <+: xs.drop n) :
    l₁ <+: xs.drop n ∧ l₂ <+: xs.drop (n + l₁.length) := by
  obtain ⟨rest, hrest⟩ := h
  refine ⟨⟨l₂ ++ rest, by rw [← hrest, List.append_assoc]⟩, rest, ?_⟩
  rw [← List.drop_drop, ← hrest, List.append_assoc, List.drop_left]

/-- What a list goes on with stands at consecutive numbers. -/
theorem map_range'_getElem? {l xs : List α} {n : Nat} (h : l <+: xs.drop n) :
    (List.range' n l.length).map (xs[·]?) = l.map some := by
  induction l generalizing n with
  | nil => rfl
  | cons x l ih =>
    obtain ⟨hx, hl⟩ := prefix_drop_cons h
    rw [List.length_cons, List.range'_succ, List.map_cons, List.map_cons, hx, ih hl]

/-- What a list goes on with is found by consecutive numbers. -/
theorem filterMap_range'_getElem? {l xs : List α} {n : Nat} (h : l <+: xs.drop n) :
    (List.range' n l.length).filterMap (xs[·]?) = l := by
  have hfound := congrArg (List.filterMap id) (map_range'_getElem? h)
  rw [List.filterMap_map, List.filterMap_map] at hfound
  exact hfound.trans List.filterMap_some

/-! ## Trees by number -/

namespace Pool

/-- A tree holds the trees of the messages inside it; those have greater numbers. -/
theorem getElem?_treesFrom (pool : Pool) (first : Nat) (ms : List MessageNode) (j : Nat) :
    (pool.treesFrom first ms)[j]? = ms[j]?.map fun m =>
      .node m (m.nestedEnums.filterMap pool.enum?) (m.nestedMessages.filterMap fun id =>
        if first + j < id.index then (pool.treesFrom first ms)[id.index - first]? else none) := by
  induction ms generalizing first j with
  | nil => simp [treesFrom]
  | cons m ms ih =>
    -- A number behind `first` leads to the later trees.
    have hfind : ∀ k, first ≤ k → (fun id : MessageId => if k < id.index then
        (pool.treesFrom first (m :: ms))[id.index - first]? else none)
        = fun id => if k < id.index then
          (pool.treesFrom (first + 1) ms)[id.index - (first + 1)]? else none := by
      intro k hk
      funext id
      by_cases h : k < id.index
      · have hsub : id.index - first = (id.index - (first + 1)) + 1 := by omega
        rw [if_pos h, if_pos h, hsub]
        rfl
      · rw [if_neg h, if_neg h]
    cases j with
    | zero =>
      rw [Nat.add_zero, hfind first (Nat.le_refl first)]
      rfl
    | succ j =>
      have hsucc : first + (j + 1) = first + 1 + j := by omega
      rw [hsucc, hfind (first + 1 + j) (by omega)]
      exact ih (first + 1) j

end Pool

/-! ## Trees of descriptors -/

namespace Declaration

/-- The file that a declaration belongs to. -/
def file : Declaration → FileId
  | message node => node.file
  | enum node => node.file

/-- A declared message is of the file that declares it. -/
theorem file_of_message? {x : Declaration} {node : MessageNode} (h : x.message? = some node) :
    x.file = node.file := by
  cases x <;> cases h
  rfl

/-- A declared enum is of the file that declares it. -/
theorem file_of_enum? {x : Declaration} {node : EnumNode} (h : x.enum? = some node) :
    x.file = node.file := by
  cases x <;> cases h
  rfl

end Declaration

namespace Flatten

/-- The node of a message inside `scope` with the number `m`, whose first enum has the number
`e`. -/
def messageNode (file : FileId) (scope : String) (m e : Nat) : MessageDescriptor → MessageNode
  | ⟨name, fields, messages, enums, options⟩ => {
      name := name.getD ""
      fullName := qualified scope (name.getD "")
      file
      fields := fields.map FieldNode.ofDescriptor
      nestedMessages := messageIds (m + 1) messages
      nestedEnums := enumIds e enums.length
      mapEntry := (options.bind (·.mapEntry)).getD false }

mutual

/-- The tree of a descriptor inside `scope`. -/
def tree (file : FileId) (scope : String) (m e : Nat) : MessageDescriptor → MessageTree
  | ⟨name, fields, messages, enums, options⟩ =>
    let inner := qualified scope (name.getD "")
    .node (messageNode file scope m e ⟨name, fields, messages, enums, options⟩)
      (enums.map (.ofDescriptor file inner))
      (trees file inner (m + 1) (e + enums.length) messages)

/-- The trees of sibling descriptors inside `scope`. -/
def trees (file : FileId) (scope : String) (m e : Nat) : List MessageDescriptor → List MessageTree
  | [] => []
  | d :: ds =>
    tree file scope m e d :: trees file scope (m + messageCount d) (e + enumCount d) ds

end

/-- The messages that a descriptor declares: itself, then those inside it. -/
theorem filterMap_message?_declarations (file : FileId) (scope : String) (m e : Nat)
    (name : Option String) (fields : List FieldDescriptor) (messages : List MessageDescriptor)
    (enums : List EnumDescriptor) (options : Option MessageOptions) :
    (declarations file scope m e ⟨name, fields, messages, enums, options⟩).filterMap (·.message?)
      = messageNode file scope m e ⟨name, fields, messages, enums, options⟩
        :: (nestedDeclarations file (qualified scope (name.getD "")) (m + 1) (e + enums.length)
          messages).filterMap (·.message?) := by
  have hnone : enums.filterMap (fun _ => (none : Option MessageNode)) = [] := by simp
  simp [declarations, messageNode, List.filterMap_map, Function.comp_def, hnone]

/-- The enums that a descriptor declares: its own, then those inside its messages. -/
theorem filterMap_enum?_declarations (file : FileId) (scope : String) (m e : Nat)
    (name : Option String) (fields : List FieldDescriptor) (messages : List MessageDescriptor)
    (enums : List EnumDescriptor) (options : Option MessageOptions) :
    (declarations file scope m e ⟨name, fields, messages, enums, options⟩).filterMap (·.enum?)
      = enums.map (.ofDescriptor file (qualified scope (name.getD "")))
        ++ (nestedDeclarations file (qualified scope (name.getD "")) (m + 1) (e + enums.length)
          messages).filterMap (·.enum?) := by
  simp [declarations, List.filterMap_cons, List.filterMap_map, Function.comp_def]

/-- The messages that a file declares are those of its descriptors. -/
theorem filterMap_message?_fileDeclarations (file : FileId) (m e : Nat) (d : FileDescriptor) :
    (fileDeclarations file m e d).filterMap (·.message?)
      = (nestedDeclarations file (fileScope d) m (e + d.enums.length) d.messages).filterMap
        (·.message?) := by
  have hnone : d.enums.filterMap (fun _ => (none : Option MessageNode)) = [] := by simp
  simp [fileDeclarations, List.filterMap_map, Function.comp_def, hnone]

/-- The enums that a file declares: its own, then those inside its messages. -/
theorem filterMap_enum?_fileDeclarations (file : FileId) (m e : Nat) (d : FileDescriptor) :
    (fileDeclarations file m e d).filterMap (·.enum?)
      = d.enums.map (.ofDescriptor file (fileScope d))
        ++ (nestedDeclarations file (fileScope d) m (e + d.enums.length) d.messages).filterMap
          (·.enum?) := by
  simp [fileDeclarations, List.filterMap_map, Function.comp_def]

mutual

/-- A message and all that is declared inside it belong to one file. -/
theorem file_of_mem_declarations {x : Declaration} (file : FileId) (scope : String) (m e : Nat) :
    (d : MessageDescriptor) → x ∈ declarations file scope m e d → x.file = file
  | ⟨name, fields, messages, enums, options⟩, h => by
    rw [declarations, List.cons_append, List.mem_cons, List.mem_append] at h
    rcases h with rfl | h | h
    · rfl
    · obtain ⟨d, -, rfl⟩ := List.mem_map.1 h
      rfl
    · exact file_of_mem_nestedDeclarations file _ _ _ messages h

/-- Sibling messages and all that is declared inside them belong to one file. -/
theorem file_of_mem_nestedDeclarations {x : Declaration} (file : FileId) (scope : String)
    (m e : Nat) :
    (ds : List MessageDescriptor) → x ∈ nestedDeclarations file scope m e ds → x.file = file
  | [], h => absurd h List.not_mem_nil
  | d :: ds, h => by
    rw [nestedDeclarations, List.mem_append] at h
    rcases h with h | h
    · exact file_of_mem_declarations file scope m e d h
    · exact file_of_mem_nestedDeclarations file scope _ _ ds h

end

/-- All that is declared in a file belongs to it. -/
theorem file_of_mem_fileDeclarations {x : Declaration} {file : FileId} {m e : Nat}
    {d : FileDescriptor} (h : x ∈ fileDeclarations file m e d) : x.file = file := by
  rw [fileDeclarations, List.mem_append] at h
  rcases h with h | h
  · obtain ⟨y, -, rfl⟩ := List.mem_map.1 h
    rfl
  · exact file_of_mem_nestedDeclarations file _ _ _ d.messages h

/-- The enums that a file declares belong to it. -/
theorem file_of_mem_enums_fileDeclarations {node : EnumNode} {file : FileId} {m e : Nat}
    {d : FileDescriptor} (h : node ∈ (fileDeclarations file m e d).filterMap (·.enum?)) :
    node.file = file := by
  obtain ⟨x, hx, hnode⟩ := List.mem_filterMap.1 h
  rw [← Declaration.file_of_enum? hnode]
  exact file_of_mem_fileDeclarations hx

/-- Enums with consecutive numbers are found by them. -/
theorem filterMap_enumIds {pool : Pool} {nodes : List EnumNode} {e : Nat}
    (h : nodes <+: pool.enums.drop e) :
    (enumIds e nodes.length).filterMap pool.enum? = nodes := by
  rw [enumIds, List.filterMap_map]
  exact filterMap_range'_getElem? h

mutual

/-- The tree with the number of a message is the tree of its descriptor. -/
theorem tree_eq (pool : Pool) (file : FileId) (scope : String) (m e : Nat) :
    (d : MessageDescriptor) →
      (declarations file scope m e d).filterMap (·.message?) <+: pool.messages.drop m →
      (declarations file scope m e d).filterMap (·.enum?) <+: pool.enums.drop e →
      (pool.treesFrom 0 pool.messages)[m]? = some (tree file scope m e d)
  | ⟨name, fields, messages, enums, options⟩, hm, he => by
    rw [filterMap_message?_declarations] at hm
    rw [filterMap_enum?_declarations] at he
    obtain ⟨hroot, hmessages⟩ := prefix_drop_cons hm
    obtain ⟨hown, henums⟩ := prefix_drop_append he
    rw [List.length_map] at henums
    -- Inside a tree only numbers behind its own are followed; those of nested messages are.
    have hnested := trees_eq pool file (qualified scope (name.getD "")) (m + 1) (e + enums.length)
      (fun id => if 0 + m < id.index then (pool.treesFrom 0 pool.messages)[id.index - 0]? else none)
      (fun id hid => if_pos (by omega)) messages hmessages henums
    have hids := filterMap_enumIds hown
    rw [List.length_map] at hids
    rw [Pool.getElem?_treesFrom, hroot, Option.map_some, tree, ← hnested, ← hids]
    rfl

/-- The trees with the numbers of sibling messages are the trees of their descriptors. -/
theorem trees_eq (pool : Pool) (file : FileId) (scope : String) (m e : Nat)
    (find : MessageId → Option MessageTree)
    (hfind : ∀ id, m ≤ id.index → find id = (pool.treesFrom 0 pool.messages)[id.index]?) :
    (ds : List MessageDescriptor) →
      (nestedDeclarations file scope m e ds).filterMap (·.message?) <+: pool.messages.drop m →
      (nestedDeclarations file scope m e ds).filterMap (·.enum?) <+: pool.enums.drop e →
      (messageIds m ds).filterMap find = trees file scope m e ds
  | [], _, _ => rfl
  | d :: ds, hm, he => by
    rw [nestedDeclarations, List.filterMap_append] at hm he
    obtain ⟨hm₁, hm₂⟩ := prefix_drop_append hm
    obtain ⟨he₁, he₂⟩ := prefix_drop_append he
    rw [length_messagesIn] at hm₂
    rw [length_enumsIn] at he₂
    have hfirst := tree_eq pool file scope m e d hm₁ he₁
    -- The siblings are numbered behind the whole first tree, so the lookup still answers for them.
    have hrest := trees_eq pool file scope (m + messageCount d) (e + enumCount d) find
      (fun id hid => hfind id (by omega)) ds hm₂ he₂
    rw [messageIds, trees, List.filterMap_cons_some ((hfind ⟨m⟩ (Nat.le_refl m)).trans hfirst),
      hrest]

end

end Flatten

/-! ## Files -/

namespace Pool

open Flatten

/-- Files are added behind what is there. -/
theorem foldl_addFile (pool : Pool) (fs : List FileDescriptor) :
    ∃ files declarations, fs.foldl addFile pool
      = ⟨pool.files ++ files, pool.declarations ++ declarations⟩ := by
  induction fs generalizing pool with
  | nil => exact ⟨[], [], by simp⟩
  | cons f fs ih =>
    -- Each file adds its node and declarations at the end.
    obtain ⟨files, declarations, h⟩ := ih (pool.addFile f)
    rw [List.foldl_cons, h, addFile]
    exact ⟨_, _, by rw [List.append_assoc, List.append_assoc]⟩

/-- Each file of a request has a node, with the name of the file. -/
theorem map_name_files_ofFiles (fs : List FileDescriptor) :
    (ofFiles fs).files.map (·.name) = fs.map (·.name.getD "") := by
  have h : ∀ pool : Pool, (fs.foldl addFile pool).files.map (·.name)
      = pool.files.map (·.name) ++ fs.map (·.name.getD "") := by
    induction fs with
    | nil => simp
    | cons f fs ih => simp [ih, addFile, fileNode]
  simpa [ofFiles] using h {}

/-- The node of a file starts behind what the files in front of it declare. -/
def nodeBehind (before : List FileDescriptor) (f : FileDescriptor) : FileNode :=
  fileNode (ofFiles before).messages.length (ofFiles before).enums.length f

/-- A pool has as many files as the request. -/
theorem length_files_ofFiles (fs : List FileDescriptor) :
    (ofFiles fs).files.length = fs.length := by
  simpa using congrArg List.length (map_name_files_ofFiles fs)

/-- What a pool has at the place of a file: its node, its messages and its enums. -/
theorem ofFiles_middle (before after : List FileDescriptor) (f : FileDescriptor) :
    (∃ rest, (ofFiles (before ++ f :: after)).files
        = (ofFiles before).files ++ nodeBehind before f :: rest)
      ∧ (fileDeclarations ⟨before.length⟩ (ofFiles before).messages.length
          (ofFiles before).enums.length f).filterMap (·.message?)
        <+: (ofFiles (before ++ f :: after)).messages.drop (ofFiles before).messages.length
      ∧ (fileDeclarations ⟨before.length⟩ (ofFiles before).messages.length
          (ofFiles before).enums.length f).filterMap (·.enum?)
        <+: (ofFiles (before ++ f :: after)).enums.drop (ofFiles before).enums.length := by
  -- What the files behind add stays behind what is there.
  obtain ⟨files, declarations, h⟩ := foldl_addFile ((ofFiles before).addFile f) after
  have hsplit : ofFiles (before ++ f :: after)
      = after.foldl addFile ((ofFiles before).addFile f) := by
    simp [ofFiles]
  rw [hsplit, h, addFile, length_files_ofFiles]
  refine ⟨⟨files, ?_⟩, ?_, ?_⟩
  · rw [List.append_assoc]
    rfl
  · simp [messages]
  · simp [enums]

/-- The file with the number of a place has the name of the file there. -/
theorem fileName_middle (before after : List FileDescriptor) (f : FileDescriptor) :
    (ofFiles (before ++ f :: after)).fileName ⟨before.length⟩ = f.name.getD "" := by
  obtain ⟨rest, hfiles⟩ := (ofFiles_middle before after f).1
  rw [fileName, file?, hfiles, ← length_files_ofFiles before]
  simp [nodeBehind, fileNode]

/-- A name that no file has is not found. -/
theorem fileByName_eq_none {fs : List FileDescriptor} {name : String}
    (h : fs.find? (·.name.getD "" == name) = none) : (ofFiles fs).fileByName name = none := by
  have hnames := map_name_files_ofFiles fs
  rw [fileByName, List.find?_eq_none]
  intro node hnode hname
  have hmem : node.name ∈ fs.map (·.name.getD "") := hnames ▸ List.mem_map_of_mem hnode
  obtain ⟨f, hf, hfname⟩ := List.mem_map.1 hmem
  exact List.find?_eq_none.1 h f hf (by rw [hfname]; exact hname)

/-- A file is found by its name when no file before it has that name. -/
theorem fileByName_middle {before after : List FileDescriptor} {f : FileDescriptor} {name : String}
    (hname : (f.name.getD "" == name) = true)
    (hbefore : ∀ g ∈ before, (g.name.getD "" == name) = false) :
    (ofFiles (before ++ f :: after)).fileByName name = some (nodeBehind before f) := by
  obtain ⟨rest, hfiles⟩ := (ofFiles_middle before after f).1
  -- No earlier file has the name, so the search reaches this one.
  have hnone : before.find? (·.name.getD "" == name) = none := by
    rw [List.find?_eq_none]
    intro g hg
    simpa using hbefore g hg
  have hfront := fileByName_eq_none hnone
  rw [fileByName] at hfront
  rw [fileByName, hfiles, List.find?_append, hfront, Option.none_or]
  exact List.find?_cons_of_pos hname

/-- The first file of a name is found. -/
theorem fileByName_eq_some {fs : List FileDescriptor} {f : FileDescriptor} {name : String}
    (h : fs.find? (·.name.getD "" == name) = some f) :
    ∃ before after, fs = before ++ f :: after
      ∧ (ofFiles fs).fileByName name = some (nodeBehind before f) := by
  obtain ⟨hf, before, after, rfl, hbefore⟩ := List.find?_eq_some_iff_append.1 h
  exact ⟨before, after, rfl, fileByName_middle hf fun g hg => by simpa using hbefore g hg⟩

/-- The trees of a file are those of its descriptor. -/
theorem treesOf_middle (before after : List FileDescriptor) (f : FileDescriptor) :
    (ofFiles (before ++ f :: after)).treesOf (nodeBehind before f)
      = trees ⟨before.length⟩ (fileScope f) (ofFiles before).messages.length
        ((ofFiles before).enums.length + f.enums.length) f.messages := by
  obtain ⟨-, hmessages, henums⟩ := ofFiles_middle before after f
  rw [filterMap_message?_fileDeclarations] at hmessages
  rw [filterMap_enum?_fileDeclarations] at henums
  -- The enums of a file are declared in front of its messages.
  have hrest := (prefix_drop_append henums).2
  rw [List.length_map] at hrest
  exact trees_eq _ _ _ _ _ _ (fun _ _ => rfl) f.messages hmessages hrest

/-- The top-level enums of a file are those of its descriptor. -/
theorem enums_middle (before after : List FileDescriptor) (f : FileDescriptor) :
    (nodeBehind before f).enums.filterMap (ofFiles (before ++ f :: after)).enum?
      = f.enums.map (.ofDescriptor ⟨before.length⟩ (fileScope f)) := by
  obtain ⟨-, -, henums⟩ := ofFiles_middle before after f
  rw [filterMap_enum?_fileDeclarations] at henums
  have hids := filterMap_enumIds (prefix_drop_append henums).1
  rwa [List.length_map] at hids

end Pool

end ProtoSchema
