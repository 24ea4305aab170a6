import Elementwise.Shape.Basic
import Elementwise.Operation.Basic
import Elementwise.Buffer.Tier
import Elementwise.Graph.NodeId

/-!
# The arena of nodes

Nodes are kept in the order in which they were created, and operations refer
to earlier nodes by position.  What a node computes and its shape are fixed
when it is created; its users grow as later nodes take it as an operand, and
its flags and its storage follow the course of the computation.
-/

namespace Elementwise

/-- What a node computes. -/
inductive Operation where
  /-- A value that is given and not computed. -/
  | leaf
  | unary (opcode : OpCode) (operand : NodeId)
  | binary (opcode : OpCode) (left right : NodeId)
deriving DecidableEq, Repr, Inhabited

namespace Operation

/-- The operation code of a node that is not a leaf. -/
def opcode? : Operation → Option OpCode
  | leaf => none
  | unary opcode _ => some opcode
  | binary opcode _ _ => some opcode

/-- The operands, the left one first. -/
def operands : Operation → List NodeId
  | leaf => []
  | unary _ operand => [operand]
  | binary _ left right => [left, right]

def isLeaf (operation : Operation) : Bool :=
  operation == leaf

/--
The form under which an operation is known: the operands of a commutative
operation stand in the order of their positions.
-/
def canonical : Operation → Operation
  | binary opcode left right =>
      if opcode.isCommutative && right.index < left.index then
        binary opcode right left
      else
        binary opcode left right
  | operation => operation

/-- Swapped operands of a commutative operation have the same canonical form. -/
theorem canonical_swap
    {opcode : OpCode}
    (commutative : opcode.isCommutative)
    (left right : NodeId) :
    (binary opcode left right).canonical = (binary opcode right left).canonical := by
  simp only [canonical, commutative, Bool.true_and, decide_eq_true_eq]
  split <;> split <;> try rfl
  · omega
  · have same : left = right := by
      cases left; cases right; simp_all; omega
    simp [same]

end Operation

/-- The buffers of a node. -/
structure Storage where
  content : BufferId
  /-- Present where gradients are tracked. -/
  gradient : Option BufferId
deriving DecidableEq, Repr, Inhabited

/-- One vertex of an expression graph. -/
structure Node where
  operation : Operation
  shape : Shape
  /-- The nodes that have this one as an operand, in the order of creation. -/
  users : List NodeId
  isOutput : Bool
  needsGradient : Bool
  /-- The content buffer holds the value for the current leaves. -/
  isCurrent : Bool
  storage : Option Storage
deriving Repr, Inhabited

namespace Node

/-- The content buffer. -/
def content? (node : Node) : Option BufferId :=
  node.storage.map (·.content)

/-- The gradient buffer. -/
def gradient? (node : Node) : Option BufferId :=
  node.storage.bind (·.gradient)

/-- Records a user, once if it is the latest one already. -/
def addUser (node : Node) (user : NodeId) : Node :=
  if node.users.getLast? = some user then
    node
  else
    { node with users := node.users ++ [user] }

end Node

/-- All nodes of a graph, in the order of creation. -/
structure Arena where
  nodes : Array Node
deriving Repr, Inhabited

namespace Arena

/-- The arena without nodes. -/
def empty : Arena := ⟨#[]⟩

/-- The number of nodes. -/
def size (arena : Arena) : Nat :=
  arena.nodes.size

/-- The node with a name. -/
def node? (arena : Arena) (node : NodeId) : Option Node :=
  arena.nodes[node.index]?

/-- What a node computes. -/
def operation? (arena : Arena) (node : NodeId) : Option Operation :=
  (arena.node? node).map (·.operation)

/-- The operands of a node; one that does not exist has none. -/
def operands (arena : Arena) (node : NodeId) : List NodeId :=
  match arena.operation? node with
  | some operation => operation.operands
  | none => []

/-- The users of a node; one that does not exist has none. -/
def users (arena : Arena) (node : NodeId) : List NodeId :=
  match arena.node? node with
  | some found => found.users
  | none => []

/-- The arena with one node changed. -/
def modify (arena : Arena) (node : NodeId) (change : Node → Node) : Arena :=
  ⟨arena.nodes.modify node.index change⟩

/-- A new node at the end, of which its operands take note. -/
def push
    (arena : Arena)
    (operation : Operation)
    (shape : Shape)
    (needsGradient : Bool) : NodeId × Arena :=
  let node : NodeId := ⟨arena.size⟩
  let noted :=
    operation.operands.foldl
      (fun (arena : Arena) operand => arena.modify operand (·.addUser node)) arena
  (node,
    ⟨noted.nodes.push
      { operation
        shape
        users := []
        isOutput := false
        needsGradient
        isCurrent := false
        storage := none }⟩)

/-- An arena-sized list of marks, none of which is set. -/
def unmarked (arena : Arena) : Array Bool :=
  Array.replicate arena.size false

/-- Setting a mark leaves fewer to be set. -/
theorem count_false_set_lt
    {marks : Array Bool}
    {index : Nat}
    (unset : marks[index]? = some false) :
    (marks.setIfInBounds index true).count false < marks.count false := by
  obtain ⟨inside, value⟩ := Array.getElem?_eq_some_iff.1 unset
  have present : 0 < marks.count false :=
    Array.count_pos_iff.2 (value ▸ Array.getElem_mem inside)
  have itself : (false == false) = true := rfl
  have other : ¬ (true == false) = true := Bool.false_ne_true
  rw [Array.setIfInBounds, dif_pos inside, Array.count_set, value,
    if_pos itself, if_neg other]
  omega

/--
Marks everything that can be reached through users, starting from a list of
nodes still to be looked at.
-/
def reach (arena : Arena) : (pending : List NodeId) → (marks : Array Bool) → Array Bool
  | [], marks => marks
  | node :: pending, marks =>
      if _unset : marks[node.index]? = some false then
        reach arena (arena.users node ++ pending) (marks.setIfInBounds node.index true)
      else
        reach arena pending marks
termination_by pending marks => (marks.count false, pending.length)
decreasing_by
  · exact Prod.Lex.left _ _ (count_false_set_lt ‹_›)
  · exact Prod.Lex.right _ (by simp)

/-- No node downstream of the given one is up to date any more. -/
def invalidate (arena : Arena) (source : NodeId) : Arena :=
  let marks := arena.reach (arena.users source) arena.unmarked
  ⟨arena.nodes.mapIdx fun index node =>
    if marks[index]? = some true then { node with isCurrent := false } else node⟩

end Arena

end Elementwise
