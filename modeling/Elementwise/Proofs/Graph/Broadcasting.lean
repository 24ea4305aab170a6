import Elementwise.Proofs.Shape.Broadcast
import Elementwise.Proofs.Graph.Interning

/-!
# The shapes of created nodes

A node has the shape that the shapes of its operands broadcast to, in the
order in which the node has them.  A request that finds its operation with the
operands swapped asks for them in the other order.  This makes no difference
to the shape, unless both operands are scalars of different shapes: then the
node keeps the shape of the operand that was on the right when it was made.
-/

namespace Elementwise

/-! ## The shapes of all nodes -/

namespace Arena

variable {arena : Arena}

/-- The shapes of two operands, in the order of the node, broadcast to its shape. -/
def Broadcasts (arena : Arena) : Prop :=
  ∀ node opcode left right shape shapeLeft shapeRight,
    arena.operation? node = some (.binary opcode left right) →
    arena.shape? node = some shape → arena.shape? left = some shapeLeft →
    arena.shape? right = some shapeRight → shapeLeft.broadcast shapeRight = .ok shape

theorem lasting_broadcasts : Lasting fun arena => arena.Sound ∧ arena.Broadcasts where
  sound _ held := held.1
  akin arena other akin held := by
    refine ⟨akin.alike.sound held.1, ?_⟩
    unfold Broadcasts
    rw [akin.alike.operation?, akin.alike.shape?]
    exact held.2
  push arena operation shape needsGradient held made sound := by
    refine ⟨sound, fun node opcode left right whole shapeLeft shapeRight computes shaped shapedLeft
      shapedRight => ?_⟩
    have operands : (arena.push operation shape needsGradient).2.operands node = [left, right] := by
      rw [Arena.operands, computes]
      rfl
    have oldLeft := index_ne_size_of_mem_operands sound (operands ▸ List.mem_pair.2 (.inl rfl))
    have oldRight := index_ne_size_of_mem_operands sound (operands ▸ List.mem_pair.2 (.inr rfl))
    rw [shape?_push, if_neg oldLeft] at shapedLeft
    rw [shape?_push, if_neg oldRight] at shapedRight
    rw [operation?_push] at computes
    rw [shape?_push] at shaped
    split at computes
    next last =>
      rw [if_pos last] at shaped
      cases computes
      cases shaped
      obtain ⟨opcode, operands, applies⟩ := made (by rintro ⟨⟩)
      cases applies with
      | @binary _ _ foundLeft foundRight _ computes arity presentLeft presentRight broadcast =>
        rw [Arena.shape?, presentLeft] at shapedLeft
        rw [Arena.shape?, presentRight] at shapedRight
        cases shapedLeft
        cases shapedRight
        exact broadcast
    next old =>
      rw [if_neg old] at shaped
      exact held.2 node opcode left right whole shapeLeft shapeRight computes shaped shapedLeft
        shapedRight

end Arena

/-! ## The shapes of created nodes -/

namespace Graph.Session

variable
    {α : Type}
    [Element α]
    {session : Session α}
    {commands : List (Command α)}
    {capacity : Nat}
    {device : DeviceId}
    {unsupported : List OpCode}
    {faults : Method → Nat → Option DeviceError}
    {config : Config}

theorem broadcasts_of_run
    (reached : (start capacity device unsupported faults config).run commands = session) :
    session.graph.arena.Broadcasts := by
  have empty : Arena.empty.Sound ∧ Arena.empty.Broadcasts :=
    ⟨Arena.sound_empty, fun _ _ _ _ _ _ _ computes => by cases computes⟩
  rw [← reached]
  exact (lasting_run Arena.lasting_broadcasts empty empty commands).2

/--
The shape of a created node is what the shapes of its operands broadcast to in the order of the
request, unless a sum or a product was there with its operands swapped and both operands are
scalars of different shapes: then it is what they broadcast to in the other order.  Broadcasting
any shapes whose elements can be counted depends on their order in no other case.
-/
theorem created_shape
    (reached : (start capacity device unsupported faults config).run commands = session) :
    (∀ opcode left right node after,
      session.step (.create opcode [left, right]) = (.ok (.node node), after) →
      ∃ shapeLeft shapeRight shape,
        after.graph.arena.shape? left = some shapeLeft ∧
        after.graph.arena.shape? right = some shapeRight ∧
        after.graph.arena.shape? node = some shape ∧
        (shapeLeft.broadcast shapeRight = .ok shape ∨
          shapeLeft.Rivals shapeRight ∧ (opcode = .add ∨ opcode = .mul) ∧
          session.graph.arena.operation? node = some (.binary opcode right left) ∧
          shapeRight.broadcast shapeLeft = .ok shape)) ∧
    ∀ (left right : Shape) sizeLeft sizeRight,
      left.size = .ok sizeLeft → right.size = .ok sizeRight →
      (∃ shape, left.broadcast right = .ok shape ∧ right.broadcast left = .ok shape) ∨
        (left.Rivals right ∧
          left.broadcast right = .ok right ∧ right.broadcast left = .ok left) ∨
        left.broadcast right = .error (.shapeMismatch left right) ∧
          right.broadcast left = .error (.shapeMismatch right left) := by
  refine ⟨fun opcode left right node after created => ?_,
    fun _ _ _ _ => Shape.broadcast_swap⟩
  obtain ⟨sound, indexed⟩ := indexed_of_run reached
  have interns := interns_of_indexed sound indexed
  have reachedAfter : (start capacity device unsupported faults config).run
      (commands ++ [.create opcode [left, right]]) = after := by
    rw [run_append, reached]
    exact congrArg Prod.snd created
  have soundAfter := (indexed_of_run reachedAfter).1
  obtain ⟨found, computes, same⟩ := interns.operation rfl created
  have shaped : ∀ {other}, other.index < after.graph.arena.size →
      ∃ shape, after.graph.arena.shape? other = some shape := by
    intro other inside
    obtain ⟨whole, present⟩ := Option.isSome_iff_exists.1 ((Arena.node?_isSome_iff other).2 inside)
    exact ⟨whole.shape, by rw [Arena.shape?, present, Option.map_some]⟩
  have inside := lt_size_of_operation? computes
  have operand : ∀ other ∈ [left, right], ∃ shape, after.graph.arena.shape? other = some shape := by
    intro other member
    have uses : other ∈ after.graph.arena.operands node := by
      rw [Arena.operands, computes]
      exact same.mem_operands member
    exact shaped (Nat.lt_trans (soundAfter.ordered node other uses) inside)
  obtain ⟨shape, shapedNode⟩ := shaped inside
  obtain ⟨shapeLeft, shapedLeft⟩ := operand left (List.mem_pair.2 (.inl rfl))
  obtain ⟨shapeRight, shapedRight⟩ := operand right (List.mem_pair.2 (.inr rfl))
  refine ⟨shapeLeft, shapeRight, shape, shapedLeft, shapedRight, shapedNode, ?_⟩
  have broadcasts := broadcasts_of_run reachedAfter
  cases same with
  | refl => exact .inl (broadcasts _ _ _ _ _ _ _ computes shapedNode shapedLeft shapedRight)
  | swap commutative =>
    have swapped := broadcasts _ _ _ _ _ _ _ computes shapedNode shapedRight shapedLeft
    obtain ⟨sizeLeft, sizedLeft⟩ := soundAfter.sized left shapeLeft shapedLeft
    obtain ⟨sizeRight, sizedRight⟩ := soundAfter.sized right shapeRight shapedRight
    rcases Shape.broadcast_swap sizedLeft sizedRight with
      ⟨other, first, second⟩ | ⟨rivals, -, -⟩ | ⟨-, refused⟩
    · cases swapped.symm.trans second
      exact .inl first
    · refine .inr ⟨rivals, commutative, ?_, swapped⟩
      obtain ⟨operation, _, asked, answered, ⟨other, before, alike⟩ | ⟨-, rfl, appends⟩⟩ :=
        interns.created _ _ _ _ created
      · cases answered
        rw [interns.existing _ _ _ _ _ asked before alike] at created
        cases created
        exact computes
      · -- a node that is appended has its operands in the order of the request
        cases answered
        cases asked
        cases computes.symm.trans appends.last
        cases shapedLeft.symm.trans shapedRight
        exact absurd rfl rivals.different
    · cases swapped.symm.trans refused

/-- A product that is asked for in the other order has the shape of the factor that is no scalar. -/
theorem created_shape_scaling :
    ∃ node after,
      (onIntegers scaling).step (.create .mul [⟨1⟩, ⟨0⟩]) = (.ok (.node node), after) ∧
      after.graph.arena.shape? node = some ⟨[2]⟩ := by
  obtain ⟨node, after, created, ofLeft, ofRight⟩ : ∃ node after,
      (onIntegers scaling).step (.create .mul [⟨1⟩, ⟨0⟩]) = (.ok (.node node), after) ∧
      after.graph.arena.shape? ⟨1⟩ = some ⟨[1]⟩ ∧ after.graph.arena.shape? ⟨0⟩ = some ⟨[2]⟩ :=
    ⟨_, _, rfl, rfl, rfl⟩
  obtain ⟨_, _, shape, shapedLeft, shapedRight, shaped, result⟩ :=
    (created_shape (run_eq_onIntegers scaling)).1 _ _ _ _ _ created
  cases ofLeft.symm.trans shapedLeft
  cases ofRight.symm.trans shapedRight
  rcases result with broadcast | ⟨rivals, -⟩
  · cases broadcast
    exact ⟨node, after, created, shaped⟩
  · cases rivals.singleRight

/-- Two scalars of different shapes. -/
def rivalling : List (Command Int) :=
  [.leaf ⟨[1]⟩ #[3] false, .leaf ⟨[1, 1]⟩ #[4] false]

/--
The sum of two scalars has the shape of the one that was on the right when the sum was first asked
for, so the same request leads to different shapes after different runs.
-/
theorem shape_depends_on_history :
    (∃ after,
      (onIntegers rivalling).step (.create .add [⟨1⟩, ⟨0⟩]) = (.ok (.node ⟨2⟩), after) ∧
      after.graph.arena.shape? ⟨2⟩ = some ⟨[1]⟩) ∧
    (∃ after,
      (onIntegers (rivalling ++ [.create .add [⟨0⟩, ⟨1⟩]])).step (.create .add [⟨1⟩, ⟨0⟩]) =
        (.ok (.node ⟨2⟩), after) ∧
      after.graph.arena.shape? ⟨2⟩ = some ⟨[1, 1]⟩) ∧
    (⟨[1, 1]⟩ : Shape).broadcast ⟨[1]⟩ = .ok ⟨[1]⟩ ∧
    (⟨[1]⟩ : Shape).broadcast ⟨[1, 1]⟩ = .ok ⟨[1, 1]⟩ :=
  ⟨⟨_, rfl, rfl⟩, ⟨_, rfl, rfl⟩, rfl, rfl⟩

end Graph.Session

end Elementwise
