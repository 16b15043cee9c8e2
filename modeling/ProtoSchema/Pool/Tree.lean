import ProtoSchema.Pool.Basic

/-!
# Trees of a pool

A message with all that is declared inside it, found by following the numbers in its node. Since
the messages inside a message have greater numbers, the trees are made from the last message to the
first.

Key results:
* `length_treesFrom` — every message has a tree
* `Pool.message_tree?` — the tree of a number holds the message of that number
-/

namespace ProtoSchema

/-- A message with the enums and the trees of the messages inside it. -/
inductive MessageTree where
  | node (message : MessageNode) (enums : List EnumNode) (nested : List MessageTree)
deriving Repr, Inhabited

namespace MessageTree

/-- The message at the root. -/
def message : MessageTree → MessageNode
  | node m _ _ => m

end MessageTree

namespace Pool

/-- The trees of `messages`, of which the first has the number `first`. -/
def treesFrom (pool : Pool) : (first : Nat) → (messages : List MessageNode) → List MessageTree
  | _, [] => []
  | first, m :: ms =>
    -- The trees of all later messages, among them those inside `m`.
    let later := pool.treesFrom (first + 1) ms
    .node m (m.nestedEnums.filterMap pool.enum?)
      (m.nestedMessages.filterMap fun id =>
        if first < id.index then later[id.index - (first + 1)]? else none) :: later

/-- The tree of a message. -/
def tree? (pool : Pool) (id : MessageId) : Option MessageTree :=
  (pool.treesFrom 0 pool.messages)[id.index]?

/-- The trees of the top-level messages of a file. -/
def treesOf (pool : Pool) (file : FileNode) : List MessageTree :=
  let trees := pool.treesFrom 0 pool.messages
  file.messages.filterMap fun id => trees[id.index]?

/-- Every message has a tree. -/
@[simp] theorem length_treesFrom (pool : Pool) (first : Nat) (ms : List MessageNode) :
    (pool.treesFrom first ms).length = ms.length := by
  induction ms generalizing first with
  | nil => rfl
  | cons m ms ih => simp [treesFrom, ih]

/-- The trees have the messages at their roots, in order. -/
theorem map_message_treesFrom (pool : Pool) (first : Nat) (ms : List MessageNode) :
    (pool.treesFrom first ms).map MessageTree.message = ms := by
  induction ms generalizing first with
  | nil => rfl
  | cons m ms ih => simp [treesFrom, ih, MessageTree.message]

/-- The tree of a number holds the message of that number. -/
theorem message_tree? (pool : Pool) (id : MessageId) :
    (pool.tree? id).map MessageTree.message = pool.message? id := by
  rw [tree?, ← List.getElem?_map, map_message_treesFrom, message?]

end Pool

end ProtoSchema
