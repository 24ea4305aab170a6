import Std.Data.TreeMap.Lemmas

/-!
# Names of graph nodes

A node is named by its position in the arena of its graph.  The name carries
no mark of the graph, so it is recognised as foreign only when it lies beyond
the end of the arena.
-/

namespace Elementwise

/--
Names a node by its position in the arena.  Positions have no bound here; where
they are kept in 32 bits, the names agree for the first `2 ^ 32` nodes of a graph.
-/
structure NodeId where
  index : Nat
deriving DecidableEq, Repr, Inhabited

namespace NodeId

/-- Names compare by the position. -/
instance : Ord NodeId := ⟨compareOn index⟩

instance : Std.TransOrd NodeId :=
  inferInstanceAs (Std.TransCmp (compareOn index))

instance : Std.LawfulEqOrd NodeId where
  eq_of_compare {left right} same := by
    cases left
    cases right
    exact congrArg mk (Std.LawfulEqOrd.eq_of_compare same)

/-- A node is written as `n` and its index. -/
def text (node : NodeId) : String :=
  s!"n{node.index}"

end NodeId

end Elementwise
