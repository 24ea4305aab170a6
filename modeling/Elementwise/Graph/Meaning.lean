import Elementwise.Element.Basic
import Elementwise.Graph.Basic

/-!
# The meaning of a node

What a node stands for is said here by recursion over its operands, without
scripts, slots or buffers: a leaf has the element of its values at the
coordinate, a single element serving all coordinates, and any other node
applies its operation to the values of its operands in their order.  Only
earlier nodes count as operands.
-/

namespace Elementwise

variable {α : Type}

/-- The element of a leaf at a coordinate, a single element serving all. -/
def leafElement [Arithmetic α] (values : Array α) (coordinate : Nat) : α :=
  values.getD (if values.size = 1 then 0 else coordinate) Arithmetic.zero

/-- The value of a node at a coordinate, given the values of the leaves. -/
def Arena.elementOf
    [Arithmetic α]
    (arena : Arena)
    (leaves : NodeId → Array α)
    (coordinate : Nat)
    (node : NodeId) : α :=
  match arena.operation? node with
  | none => Arithmetic.zero
  | some .leaf => leafElement (leaves node) coordinate
  | some (.unary opcode operand) =>
      if _earlier : operand.index < node.index then
        Arithmetic.eval opcode (elementOf arena leaves coordinate operand) Arithmetic.zero
      else
        Arithmetic.zero
  | some (.binary opcode left right) =>
      if _earlier : left.index < node.index ∧ right.index < node.index then
        Arithmetic.eval opcode
          (elementOf arena leaves coordinate left)
          (elementOf arena leaves coordinate right)
      else
        Arithmetic.zero
termination_by node.index

namespace Graph

variable [Element α]

/-- What the content buffer of a node reads as; a node without one reads as nothing. -/
def reading (graph : Graph α) (node : NodeId) : Array α :=
  (do graph.store.reading? (← (← graph.arena.node? node).content?)).getD #[]

/-- What the gradient buffer of a node reads as. -/
def gradientReading? (graph : Graph α) (node : NodeId) : Option (Array α) := do
  graph.store.reading? (← (← graph.arena.node? node).gradient?)

/-- The value of a node at a coordinate, on what the leaves read as now. -/
def elementOf (graph : Graph α) (node : NodeId) (coordinate : Nat) : α :=
  graph.arena.elementOf graph.reading coordinate node

/-- The value of a node of a given size, on what the leaves read as now. -/
def meaning (graph : Graph α) (node : NodeId) (size : Nat) : Array α :=
  Array.ofFn fun coordinate : Fin size => graph.elementOf node coordinate

@[simp]
theorem size_meaning (graph : Graph α) (node : NodeId) (size : Nat) :
    (graph.meaning node size).size = size := by
  simp [meaning]

end Graph

end Elementwise
