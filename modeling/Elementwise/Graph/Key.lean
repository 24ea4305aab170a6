import Elementwise.Graph.Arena

/-!
# Keys of nodes

A graph finds operations and constants again by their keys.  The key of an
operation is its canonical form, so that swapped operands of a commutative
operation do not matter; that of a constant is its bit pattern.
-/

namespace Elementwise

/-- Under what a node is found again. -/
inductive Key where
  | operation (operation : Operation)
  /-- A constant, by its bit pattern. -/
  | constant (pattern : UInt64)
deriving DecidableEq, Repr, Inhabited

namespace Key

/-- The key of an operation. -/
def ofOperation (operation : Operation) : Key :=
  .operation operation.canonical

/-- The numbers of which a key consists, which tell it from all others. -/
def numbers : Key → List Nat
  | operation .leaf => []
  | constant pattern => [pattern.toNat]
  | operation (.unary opcode operand) => [opcode.index, operand.index]
  | operation (.binary opcode left right) => [opcode.index, left.index, right.index]

theorem numbers_injective : Function.Injective numbers := by
  have opcodes : ∀ {opcode other : OpCode}, opcode.index = other.index → opcode = other := by
    intro opcode other same
    have found := opcode.all_getElem_index
    rw [same, other.all_getElem_index] at found
    exact (Option.some.inj found).symm
  have nodes : ∀ {node other : NodeId}, node.index = other.index → node = other := by
    rintro ⟨_⟩ ⟨_⟩ rfl
    rfl
  intro key other same
  rcases key with (_ | ⟨opcode, operand⟩ | ⟨opcode, left, right⟩) | pattern <;>
    rcases other with (_ | ⟨opcodeOther, operandOther⟩ | ⟨opcodeOther, leftOther, rightOther⟩) |
      patternOther <;>
    simp only [numbers, List.cons.injEq, reduceCtorEq, and_false, and_true] at same
  · rfl
  · rw [opcodes same.1, nodes same.2]
  · rw [opcodes same.1, nodes same.2.1, nodes same.2.2]
  · rw [UInt64.toNat_inj.1 same]

/-- Keys compare by their numbers, which is as good as any order. -/
instance : Ord Key := ⟨compareOn numbers⟩

instance : Std.TransOrd Key :=
  inferInstanceAs (Std.TransCmp (compareOn numbers))

instance : Std.LawfulEqOrd Key where
  eq_of_compare same := numbers_injective (Std.LawfulEqOrd.eq_of_compare same)

end Key

end Elementwise
