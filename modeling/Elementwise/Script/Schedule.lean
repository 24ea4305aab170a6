import Elementwise.Error
import Elementwise.Graph.Arena

/-!
# The order of computation

A node is computed after its operands, the left one before the right one, and
each node once.  This is the post-order of a depth-first search from the node
that is wanted.  The search keeps a stack of nodes to enter and to leave: on
entering a node, its operands go on top of its own departure.

`Arena.postOrder` states the same order by recursion over the operands.
-/

namespace Elementwise

namespace Arena

/-- A step that the search still has to take. -/
inductive Visit where
  | enter (node : NodeId)
  | leave (node : NodeId)
deriving DecidableEq, Repr

/--
Takes the steps on a stack.  The marks tell which nodes have been entered,
and the nodes that have been left are listed with the latest first.
-/
def search (arena : Arena) :
    (stack : List Visit) → (marks : Array Bool) → (done : List NodeId) →
      Except Error (List NodeId)
  | [], _, done => .ok done.reverse
  | .leave node :: stack, marks, done => search arena stack marks (node :: done)
  | .enter node :: stack, marks, done =>
      if _unset : marks[node.index]? = some false then
        let entered := marks.setIfInBounds node.index true
        let fresh :=
          (arena.operands node).filter fun operand => entered[operand.index]? != some true
        search arena (fresh.map .enter ++ .leave node :: stack) entered done
      else if marks[node.index]? = none then
        .error (.unknownNode node)
      else
        search arena stack marks done
termination_by stack marks => (marks.count false, stack.length)
decreasing_by
  · exact Prod.Lex.right _ (by simp)
  · exact Prod.Lex.left _ _ (count_false_set_lt ‹_›)
  · exact Prod.Lex.right _ (by simp)

/-- The nodes that a node depends on and itself, in the order of computation. -/
def schedule (arena : Arena) (output : NodeId) : Except Error (List NodeId) :=
  arena.search [.enter output] arena.unmarked []

/--
The post-order of what a node depends on, skipping what was visited before;
the visited nodes are listed with the latest first.  Only earlier nodes count
as operands.
-/
def postOrder (arena : Arena) (visited : List NodeId) (node : NodeId) : List NodeId :=
  if node ∈ visited then
    visited
  else
    node :: (arena.operands node).foldl
      (fun visited operand =>
        if _earlier : operand.index < node.index then
          postOrder arena visited operand
        else
          visited)
      visited
termination_by node.index

end Arena

end Elementwise
