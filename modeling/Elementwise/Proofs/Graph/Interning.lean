import Elementwise.Proofs.Graph.Lasting
import Elementwise.Proofs.Shape.Broadcast

/-!
# Interned operations

No two nodes apply the same code to the same operands, where the operands of a
sum or a product count as the same in either order.  So creating an operation
gives the node that computes it if there is one, and appends one node
otherwise.  A node may therefore stand for an operation whose operands were
swapped when it was asked for; its value is the one that was asked for, as far
as sums and products do not depend on the order of their operands.
-/

namespace Elementwise

/-! ## The same operation -/

namespace Operation

/-- The same code applied to the same operands, in either order for a sum or a product. -/
inductive Same : Operation → Operation → Prop where
  | refl (operation : Operation) : Same operation operation
  | swap
      {opcode : OpCode}
      (commutative : opcode = .add ∨ opcode = .mul)
      (left right : NodeId) :
      Same (.binary opcode left right) (.binary opcode right left)

/-- The operation that a code applied to operands asks for. -/
def applied? (opcode : OpCode) : List NodeId → Option Operation
  | [operand] => some (.unary opcode operand)
  | [left, right] => some (.binary opcode left right)
  | _ => none

variable {operation other : Operation}

theorem isCommutative_iff {opcode : OpCode} :
    opcode.isCommutative = true ↔ opcode = .add ∨ opcode = .mul := by
  cases opcode <;> simp [OpCode.isCommutative]

theorem Same.symm (same : operation.Same other) : other.Same operation := by
  cases same with
  | refl => exact .refl _
  | swap commutative left right => exact .swap commutative right left

theorem Same.trans
    {last : Operation}
    (first : operation.Same other)
    (second : other.Same last) :
    operation.Same last := by
  cases first with
  | refl => exact second
  | swap commutative left right =>
    cases second with
    | refl => exact .swap commutative left right
    | swap => exact .refl _

theorem same_canonical (operation : Operation) : operation.Same operation.canonical := by
  cases operation with
  | leaf => exact .refl _
  | unary => exact .refl _
  | binary opcode left right =>
    unfold canonical
    dsimp only
    split
    next swapped =>
      exact .swap (isCommutative_iff.1 (Bool.and_eq_true_iff.1 swapped).1) left right
    · exact .refl _

/-- The canonical form tells operations apart up to the order of operands. -/
theorem same_iff_canonical : operation.Same other ↔ operation.canonical = other.canonical := by
  constructor
  · rintro (_ | ⟨commutative, left, right⟩)
    · rfl
    · exact canonical_swap (isCommutative_iff.2 commutative) left right
  · intro equal
    have canonical := same_canonical operation
    rw [equal] at canonical
    exact canonical.trans (same_canonical other).symm

theorem Same.mem_operands
    (same : operation.Same other)
    {operand : NodeId}
    (member : operand ∈ operation.operands) :
    operand ∈ other.operands := by
  cases same with
  | refl => exact member
  | swap _ left right =>
    rcases List.mem_pair.1 member with rfl | rfl
    · exact List.mem_pair.2 (.inr rfl)
    · exact List.mem_pair.2 (.inl rfl)

end Operation

/-! ## New nodes -/

namespace Arena

variable
    {arena : Arena}
    {operation : Operation}
    {node : NodeId}

/-- No two nodes compute the same operation. -/
def Interned (arena : Arena) : Prop :=
  ∀ node other operation otherOperation, arena.operation? node = some operation →
    arena.operation? other = some otherOperation → operation ≠ .leaf →
    operation.Same otherOperation → node = other

/-- One node more, at the end, and the others as they were. -/
structure Appends (before : Arena) (operation : Operation) (after : Arena) : Prop where
  size : after.size = before.size + 1
  last : after.operation? ⟨before.size⟩ = some operation
  others : ∀ node, node.index < before.size →
    after.operation? node = before.operation? node ∧ after.shape? node = before.shape? node

theorem Appends.push
    (arena : Arena)
    (operation : Operation)
    (shape : Shape)
    (needsGradient : Bool) :
    arena.Appends operation (arena.push operation shape needsGradient).2 where
  size := size_push ..
  last := by rw [operation?_push, if_pos rfl]
  others node inside := by
    rw [operation?_push, shape?_push, if_neg (Nat.ne_of_lt inside), if_neg (Nat.ne_of_lt inside)]
    exact ⟨rfl, rfl⟩

end Arena

namespace Graph

variable
    {α β : Type}
    [Element α]
    {graph : Graph α}
    {output : NodeId}

/-! ## The table of keys -/

/--
The table of keys has the operations of the arena and no others, each with its node; and what
is forgotten of a leaf that is overwritten is the key of a constant.
-/
structure Indexed (graph : Graph α) : Prop where
  operation : ∀ (operation : Operation) (node : NodeId),
    graph.interned[Key.operation operation]? = some node ↔
      operation ≠ .leaf ∧
        (graph.arena.operation? node).map Operation.canonical = some operation
  constant : ∀ node key, graph.constants.get? node = some key → ∃ pattern, key = .constant pattern

omit [Element α] in
theorem indexed_of_empty
    (empty : graph.arena = Arena.empty)
    (noKeys : graph.interned = ∅)
    (noConstants : graph.constants = Table.empty) :
    graph.Indexed where
  operation operation node := by
    have absent : Arena.empty.operation? node = none := rfl
    rw [noKeys, empty, absent]
    constructor
    · exact fun found => nomatch Std.TreeMap.getElem?_emptyc.symm.trans found
    · exact fun computed => nomatch computed.2
  constant node key listed := by
    rw [noConstants] at listed
    cases listed

namespace Indexed

variable
    (indexed : graph.Indexed)
    {operation found : Operation}
    {node : NodeId}

include indexed

omit [Element α] in
/-- An operation is found at the node that computes it, up to the order of operands. -/
theorem lookup (computed : operation ≠ .leaf) :
    graph.interned[Key.ofOperation operation]? = some node ↔
      ∃ found, graph.arena.operation? node = some found ∧ operation.Same found := by
  have canonical : operation.canonical ≠ .leaf := by
    cases operation with
    | leaf => exact absurd rfl computed
    | unary => exact nofun
    | binary =>
      unfold Operation.canonical
      dsimp only
      split <;> exact nofun
  rw [Key.ofOperation, indexed.operation, Option.map_eq_some_iff]
  simp only [Operation.same_iff_canonical, eq_comm]
  exact and_iff_right canonical

omit [Element α] in
/-- No two nodes compute the same operation, because the table has only one of them. -/
theorem interned : graph.arena.Interned := by
  intro node other operation otherOperation computes computesOther computed same
  have first := (indexed.lookup computed).2 ⟨operation, computes, .refl operation⟩
  have second := (indexed.lookup computed).2 ⟨otherOperation, computesOther, same⟩
  exact Option.some.inj (first.symm.trans second)

omit [Element α] in
/-- The table has nothing to do with what nodes do not compute. -/
theorem of_operation?
    {arena : Arena}
    (same : arena.operation? = graph.arena.operation?) :
    Indexed { graph with arena := arena } where
  operation operation node := by
    show graph.interned[Key.operation operation]? = some node ↔ _
    rw [indexed.operation, same]
  constant := indexed.constant

omit [Element α] in
/-- A new leaf has no key. -/
theorem push_leaf
    (shape : Shape)
    (needsGradient : Bool) :
    Indexed { graph with arena := (graph.arena.push .leaf shape needsGradient).2 } where
  operation operation node := by
    show graph.interned[Key.operation operation]? = some node ↔ operation ≠ .leaf ∧
      ((graph.arena.push .leaf shape needsGradient).2.operation? node).map Operation.canonical =
        some operation
    rw [indexed.operation, Arena.operation?_push]
    refine and_congr_right fun computed => ?_
    split
    next last =>
      have absent : graph.arena.operation? node = none := by
        rw [Arena.operation?, Arena.node?_of_size_le (Nat.le_of_eq last.symm)]
        rfl
      rw [absent]
      constructor
      · intro never
        cases never
      · exact fun leaf => absurd (Option.some.inj leaf).symm computed
    · rfl
  constant := indexed.constant

omit [Element α] in
/-- A constant has a key of another kind. -/
theorem insert_constant
    (pattern : UInt64)
    (node : NodeId) :
    Indexed
      { graph with
        interned := graph.interned.insert (.constant pattern) node
        constants := graph.constants.insert node (.constant pattern) } where
  operation operation other := by
    show (graph.interned.insert (.constant pattern) node)[Key.operation operation]? = some other ↔ _
    rw [Sorted.getElem?_insert, if_neg nofun]
    exact indexed.operation operation other
  constant other key listed := by
    have listed : (graph.constants.insert node (.constant pattern)).get? other = some key := listed
    rw [Table.get?_insert] at listed
    split at listed
    · exact ⟨pattern, (Option.some.inj listed).symm⟩
    · exact indexed.constant other key listed

omit [Element α] in
/-- What is forgotten is no operation. -/
theorem erase
    {leaf : NodeId}
    {key : Key}
    (listed : graph.constants.get? leaf = some key) :
    Indexed
      { graph with
        interned := graph.interned.erase key
        constants := graph.constants.erase leaf } where
  operation operation other := by
    obtain ⟨pattern, rfl⟩ := indexed.constant leaf key listed
    show (graph.interned.erase (.constant pattern))[Key.operation operation]? = some other ↔ _
    rw [Sorted.getElem?_erase, if_neg nofun]
    exact indexed.operation operation other
  constant other key listed := by
    have listed : (graph.constants.erase leaf).get? other = some key := listed
    rw [Table.get?_erase] at listed
    split at listed
    · cases listed
    · exact indexed.constant other key listed

omit [Element α] in
/-- The operations are found as before after a leaf was forgotten. -/
theorem of_forgets
    {leaf : NodeId}
    {after : Graph α}
    (forgets : graph.Forgets leaf after)
    (operation : Operation) :
    after.interned[Key.operation operation]? = graph.interned[Key.operation operation]? := by
  rw [forgets.interned, if_neg]
  intro listed
  obtain ⟨pattern, equal⟩ := indexed.constant leaf _ listed
  cases equal

omit [Element α] in
/-- A new operation gets its key, which nothing had before. -/
theorem push_operation
    (shape : Shape)
    (needsGradient : Bool)
    (computed : operation ≠ .leaf)
    (unknown : graph.interned[Key.ofOperation operation]? = none) :
    Indexed
      { graph with
        arena := (graph.arena.push operation shape needsGradient).2
        interned := graph.interned.insert (.ofOperation operation) ⟨graph.arena.size⟩ } where
  operation other node := by
    show (graph.interned.insert (.ofOperation operation) ⟨graph.arena.size⟩)[Key.operation other]? =
        some node ↔ other ≠ .leaf ∧
      ((graph.arena.push operation shape needsGradient).2.operation? node).map
        Operation.canonical = some other
    have known := indexed.operation other node
    rw [Sorted.getElem?_insert, Arena.operation?_push]
    by_cases last : node.index = graph.arena.size
    · -- the last node is new, so that no key led to it before
      have absent : graph.arena.operation? node = none := by
        rw [Arena.operation?, Arena.node?_of_size_le (Nat.le_of_eq last.symm)]
        rfl
      have named : (⟨graph.arena.size⟩ : NodeId) = node := by
        rw [← last]
      rw [absent, Option.map_none] at known
      rw [if_pos last, Option.map_some, Option.some.injEq, named]
      by_cases same : operation.canonical = other
      · rw [Key.ofOperation, same, if_pos rfl]
        refine ⟨fun _ => ⟨?_, rfl⟩, fun _ => rfl⟩
        rintro rfl
        refine computed ?_
        cases operation with
        | leaf => rfl
        | unary => cases same
        | binary =>
          unfold Operation.canonical at same
          dsimp only at same
          split at same <;> cases same
      · have apart : Key.ofOperation operation ≠ Key.operation other :=
          fun equal => same (Key.operation.inj equal)
        rw [if_neg apart, known]
        constructor
        · rintro ⟨-, never⟩
          cases never
        · exact fun both => absurd both.2 same
    · rw [if_neg last, ← known]
      split
      next same =>
        rw [← same, unknown]
        refine ⟨fun equal => ?_, fun never => ?_⟩
        · exact absurd (congrArg NodeId.index (Option.some.inj equal)).symm last
        · cases never
      · rfl
  constant := indexed.constant

end Indexed

omit [Element α] in
theorem indexed_onStore (action : Store.Action α β) : Preserves Indexed (onStore action) := by
  intro graph indexed
  rw [ends_onStore_iff]
  unfold Ends
  split <;> exact ⟨indexed.operation, indexed.constant⟩

omit [Element α] in
theorem indexed_modifyNode
    (node : NodeId)
    {change : Node → Node}
    (keeps : ∀ found, (change found).core = found.core) :
    Preserves Indexed (modifyNode node change : Action α Unit) :=
  .modify fun graph indexed => indexed.of_operation?
    (graph.arena.alike_modify node change keeps).operation?

omit [Element α] in
theorem indexed_markOutput (output : NodeId) :
    Preserves Indexed (markOutput output : Action α Unit) := by
  refine .bind (preserves_node _) fun found =>
    .bind (indexed_modifyNode output fun _ => rfl) fun _ => ?_
  dsimp only
  split
  · refine .bind (preserves_check _) fun size => .bind (indexed_onStore _) fun content => ?_
    exact preserves_gradientIfNeeded (indexed_onStore _) found.needsGradient fun gradient =>
      indexed_modifyNode output fun _ => rfl
  · exact .pure _

omit [Element α] in
theorem indexed_push_leaf
    (shape : Shape)
    (needsGradient : Bool) :
    Preserves Indexed (push .leaf shape needsGradient : Action α NodeId) :=
  .modifyGet fun _ indexed => indexed.push_leaf shape needsGradient

omit [Element α] in
theorem indexed_leaf
    (shape : Shape)
    (values : Array α)
    (trainable : Bool) :
    Preserves Indexed (leaf shape values trainable) := by
  refine .bind (preserves_check _) fun size => ?_
  dsimp only
  split
  · exact .throw_bind _
  · refine .bind (indexed_push_leaf _ _) fun node => .bind (indexed_onStore _) fun content => ?_
    exact preserves_gradientIfNeeded (indexed_onStore _) trainable fun gradient =>
      .bind (indexed_modifyNode node fun _ => rfl) fun _ => .pure _

theorem indexed_scalar (value : α) : Preserves Indexed (scalar value) := by
  refine .bind .get fun graph => ?_
  split
  · exact .pure _
  · exact .bind (indexed_push_leaf _ _) fun node => .bind (indexed_onStore _) fun content =>
      .bind (indexed_modifyNode node fun _ => rfl) fun _ =>
        .bind (.modify fun _ indexed => indexed.insert_constant _ node) fun _ => .pure _

/-- Every operation keeps the table of keys in step with the arena. -/
theorem upheld_indexed : Upheld (Indexed : Graph α → Prop) where
  create _ _ _ indexed :=
    ends_create_of_intern
      (fun _ shape needsGradient applies =>
        ends_intern_of_lookup (fun _ _ => indexed) fun unknown =>
          indexed.push_operation shape needsGradient applies.computed unknown)
      fun _ _ => indexed
  markOutput := indexed_markOutput
  onStore _ := indexed_onStore _
  scripts _ _ indexed := ⟨indexed.operation, indexed.constant⟩
  current graph node indexed :=
    indexed.of_operation?
      (graph.arena.alike_modify node ({ · with isCurrent := true }) fun _ => rfl).operation?
  forgets _ _ _ indexed listed := indexed.erase listed
  invalidate graph source indexed :=
    indexed.of_operation? (graph.arena.alike_invalidate source).operation?
  leaf := indexed_leaf
  scalar := indexed_scalar

/-! ## Creating operations -/

section

variable
    {opcode : OpCode}
    {operands : List NodeId}
    {operation found : Operation}
    {shape : Shape}
    {needsGradient : Bool}
    {node : NodeId}

/-- The shapes of the operands of a node broadcast, in either order. -/
theorem broadcast_isOk
    {left right : Shape}
    (leftFits : left = shape ∨ left.size = .ok 1)
    (rightFits : right = shape ∨ right.size = .ok 1)
    (sizedLeft : ∃ size, left.size = .ok size)
    (sizedRight : ∃ size, right.size = .ok size) :
    ∃ result, left.broadcast right = .ok result := by
  obtain ⟨leftSize, sizedLeft⟩ := sizedLeft
  obtain ⟨rightSize, sizedRight⟩ := sizedRight
  rw [Shape.broadcast_of_sized sizedLeft sizedRight]
  by_cases singleLeft : leftSize = 1
  · exact ⟨right, if_pos singleLeft⟩
  rw [if_neg singleLeft]
  by_cases singleRight : rightSize = 1
  · exact ⟨left, if_pos (.inl singleRight)⟩
  have same : left = right := by
    rw [leftFits.resolve_right, rightFits.resolve_right]
    · rw [sizedRight]
      exact fun single => singleRight (Except.ok.inj single)
    · rw [sizedLeft]
      exact fun single => singleLeft (Except.ok.inj single)
  exact ⟨left, if_pos (.inr same)⟩

theorem Applies.applied?
    {arena : Arena}
    (applies : Applies arena opcode operands operation shape needsGradient) :
    Operation.applied? opcode operands = some operation := by
  cases applies <;> rfl

/-- What a node computes can be asked for, in either order of its operands. -/
theorem exists_applies
    {arena : Arena}
    (sound : arena.Sound)
    (asked : Operation.applied? opcode operands = some operation)
    (computes : arena.operation? node = some found)
    (same : operation.Same found) :
    ∃ shape needsGradient, Applies arena opcode operands operation shape needsGradient := by
  have present : ∀ operand ∈ operation.operands, ∃ below, arena.node? operand = some below := by
    intro operand member
    have uses : operand ∈ arena.operands node := by
      rw [Arena.operands, computes]
      exact same.mem_operands member
    have earlier := sound.ordered node operand uses
    refine Option.isSome_iff_exists.1 ((Arena.node?_isSome_iff operand).2 ?_)
    exact Nat.lt_trans earlier (lt_size_of_operation? computes)
  obtain ⟨whole, presentNode, -⟩ := Option.map_eq_some_iff.1 computes
  have shaped : arena.shape? node = some whole.shape := by
    rw [Arena.shape?, presentNode, Option.map_some]
  have fits : ∀ operand below, operand ∈ operation.operands → arena.node? operand = some below →
      (below.shape = whole.shape ∨ below.shape.size = .ok 1) ∧
        ∃ size, below.shape.size = .ok size := by
    intro operand below member presentBelow
    have uses : operand ∈ arena.operands node := by
      rw [Arena.operands, computes]
      exact same.mem_operands member
    have shapedBelow : arena.shape? operand = some below.shape := by
      rw [Arena.shape?, presentBelow, Option.map_some]
    exact ⟨sound.broadcast node whole.shape operand below.shape shaped uses shapedBelow,
      sound.sized operand below.shape shapedBelow⟩
  rcases operands with _ | ⟨operand, _ | ⟨right, _ | ⟨third, others⟩⟩⟩
  · cases asked
  · cases asked
    obtain ⟨below, presentBelow⟩ := present operand (List.mem_singleton.2 rfl)
    cases same with
    | refl =>
      obtain ⟨single, notCopy⟩ := sound.proper node _ computes opcode operand none rfl
      refine ⟨_, _, .unary notCopy ?_ presentBelow⟩
      cases opcode <;> first | rfl | cases single
  · cases asked
    obtain ⟨belowLeft, presentLeft⟩ := present operand (List.mem_pair.2 (.inl rfl))
    obtain ⟨belowRight, presentRight⟩ := present right (List.mem_pair.2 (.inr rfl))
    have fitsLeft := fits operand belowLeft (List.mem_pair.2 (.inl rfl)) presentLeft
    have fitsRight := fits right belowRight (List.mem_pair.2 (.inr rfl)) presentRight
    obtain ⟨result, broadcast⟩ := broadcast_isOk fitsLeft.1 fitsRight.1 fitsLeft.2 fitsRight.2
    have isBinary : opcode.isBinary = true ∧ opcode ≠ .copy := by
      cases same with
      | refl => exact sound.proper node _ computes opcode operand (some right) rfl
      | swap => exact sound.proper node _ computes opcode right (some operand) rfl
    exact ⟨_, _, .binary isBinary.2 (of_decide_eq_true isBinary.1)
      presentLeft presentRight broadcast⟩
  · cases asked

omit [Element α] in
/-- An operation that a node computes already gives this node, and nothing changes. -/
theorem create_existing
    (sound : graph.arena.Sound)
    (indexed : graph.Indexed)
    (asked : Operation.applied? opcode operands = some operation)
    (computes : graph.arena.operation? node = some found)
    (same : operation.Same found) :
    create opcode operands graph = .ok node graph := by
  have ends : Ends (create opcode operands) graph
      (fun answer after => answer = node ∧ after = graph)
      (fun _ _ => False) := by
    refine ends_create_of_intern (fun other shape needsGradient applies => ?_) fun _ none => ?_
    · obtain rfl : operation = other := Option.some.inj (asked.symm.trans applies.applied?)
      have listed := (indexed.lookup applies.computed).2 ⟨found, computes, same⟩
      refine ends_intern_of_lookup (fun answer known => ?_) fun unknown => ?_
      · exact ⟨Option.some.inj (known.symm.trans listed), rfl⟩
      · cases unknown.symm.trans listed
    · obtain ⟨shape, needsGradient, applies⟩ := exists_applies sound asked computes same
      exact none _ _ _ applies
  unfold Ends at ends
  split at ends
  next outcome =>
    obtain ⟨rfl, rfl⟩ := ends
    exact outcome
  · exact ends.elim

omit [Element α] in
/-- A creation answers with the node that computes the operation, or a new one if there is none. -/
theorem ends_create_interned (indexed : graph.Indexed) :
    Ends (create opcode operands) graph
      (fun node after => ∃ operation, Operation.applied? opcode operands = some operation ∧
        ((∃ found, graph.arena.operation? node = some found ∧ operation.Same found) ∨
          (∀ other found, graph.arena.operation? other = some found → ¬ operation.Same found) ∧
          node = ⟨graph.arena.size⟩ ∧ graph.arena.Appends operation after.arena))
      (fun _ after => after = graph ∧ ∀ operation shape needsGradient,
        ¬ Applies graph.arena opcode operands operation shape needsGradient) := by
  refine ends_create_of_intern (fun operation shape needsGradient applies => ?_) fun _ none =>
    ⟨rfl, none⟩
  refine ends_intern_of_lookup (fun node known => ?_) fun unknown => ?_
  · exact ⟨operation, applies.applied?, .inl ((indexed.lookup applies.computed).1 known)⟩
  · refine ⟨operation, applies.applied?, .inr ⟨fun other found computes same => ?_, rfl,
      .push _ _ _ _⟩⟩
    cases unknown.symm.trans ((indexed.lookup applies.computed).2 ⟨found, computes, same⟩)

/-- A node with a single element has it at every coordinate. -/
theorem elementOf_of_single
    {pins : BufferId → Nat}
    (valid : graph.Valid pins)
    (shaped : graph.arena.shape? node = some shape)
    (single : shape.size = .ok 1)
    (coordinate otherCoordinate : Nat) :
    graph.elementOf node otherCoordinate = graph.elementOf node coordinate := by
  obtain ⟨whole, present, -⟩ := Option.map_eq_some_iff.1 shaped
  have inside : node.index < graph.arena.size := by
    rw [← Arena.node?_isSome_iff, present]
    rfl
  refine Arena.elementOf_eq_of_leaves valid.arena.ordered valid.arena.ordered
    (fun _ _ => rfl) inside
    fun leaf depends isLeaf => ?_
  obtain ⟨below, size, shapedBelow, sized⟩ := valid.exists_size (lt_size_of_operation? isLeaf)
  have one : size = 1 := by
    rcases valid.arena.shape_of_dependsOn depends shaped shapedBelow with rfl | alone
    · exact Except.ok.inj (sized.symm.trans single)
    · exact Except.ok.inj (sized.symm.trans alone)
  have reads : (graph.reading leaf).size = 1 := by
    rw [reading_leaf valid isLeaf shapedBelow sized, size_meaning, one]
  rw [leafElement, leafElement, if_pos reads, if_pos reads]

/-- The value of an operand at a coordinate of its user is an element of its values. -/
theorem leafElement_meaning
    {pins : BufferId → Nat}
    (valid : graph.Valid pins)
    {operand : NodeId}
    {below : Shape}
    {size sizeBelow coordinate : Nat}
    (shaped : graph.arena.shape? node = some shape)
    (sized : shape.size = .ok size)
    (uses : operand ∈ graph.arena.operands node)
    (shapedBelow : graph.arena.shape? operand = some below)
    (sizedBelow : below.size = .ok sizeBelow)
    (inside : coordinate < size) :
    leafElement (graph.meaning operand sizeBelow) coordinate =
      graph.elementOf operand coordinate := by
  have element : ∀ index < sizeBelow,
      (graph.meaning operand sizeBelow).getD index Arithmetic.zero =
        graph.elementOf operand index := by
    intro index within
    rw [meaning, Array.getD_eq_getD_getElem?, Array.getElem?_eq_getElem (by simpa using within),
      Array.getElem_ofFn, Option.getD_some]
  rw [leafElement, size_meaning]
  split
  next one =>
    subst one
    rw [element 0 Nat.zero_lt_one]
    exact elementOf_of_single valid shapedBelow sizedBelow _ _
  next many =>
    rcases valid.arena.broadcast node shape operand below shaped uses shapedBelow with rfl | alone
    · rw [sized] at sizedBelow
      cases sizedBelow
      exact element coordinate inside
    · exact absurd (Except.ok.inj (sizedBelow.symm.trans alone)) many

end

/-! ## Requests to create operations -/

namespace Session

variable
    {session after : Session α}
    {commands : List (Command α)}
    {capacity : Nat}
    {device : DeviceId}
    {unsupported : List OpCode}
    {faults : Method → Nat → Option DeviceError}
    {config : Config}

theorem indexed_of_run
    (reached : (start capacity device unsupported faults config).run commands = session) :
    session.graph.arena.Sound ∧ session.graph.Indexed := by
  have each : ∀ command ∈ commands,
      Preserves (fun session : Session α => session.graph.Indexed) (perform command) := by
    intro command _
    by_cases cleared : command = .clear
    · subst cleared
      exact fun _ _ => indexed_of_empty rfl rfl rfl
    · exact preserves_perform_of_upheld upheld_indexed
        (fun _ _ indexed => ⟨indexed.operation, indexed.constant⟩) cleared
  rw [← reached]
  exact ⟨(run_valid ..).arena, run_of_preserves each (indexed_of_empty rfl rfl rfl)⟩

/-- What a session does with requests to create operations. -/
structure Interns (session : Session α) : Prop where
  /-- The table of keys and the arena are in step. -/
  indexed : session.graph.Indexed
  /-- No two nodes apply the same code to the same operands. -/
  unique : ∀ node other operation otherOperation,
    session.graph.arena.operation? node = some operation →
    session.graph.arena.operation? other = some otherOperation → operation ≠ .leaf →
    operation.Same otherOperation → node = other
  /-- An operation that is there already is answered with its node, and nothing changes. -/
  existing : ∀ opcode operands operation node found,
    Operation.applied? opcode operands = some operation →
    session.graph.arena.operation? node = some found → operation.Same found →
    session.step (.create opcode operands) = (.ok (.node node), session)
  /-- What is answered otherwise is the one node that is appended. -/
  created : ∀ opcode operands answer after,
    session.step (.create opcode operands) = (.ok answer, after) →
    ∃ operation node, Operation.applied? opcode operands = some operation ∧ answer = .node node ∧
      ((∃ found, session.graph.arena.operation? node = some found ∧ operation.Same found) ∨
        (∀ other found, session.graph.arena.operation? other = some found →
          ¬ operation.Same found) ∧
        node = ⟨session.graph.arena.size⟩ ∧
        session.graph.arena.Appends operation after.graph.arena)
  /-- What is refused does not apply, and nothing changes. -/
  refused : ∀ opcode operands reason after,
    session.step (.create opcode operands) = (.error reason, after) →
    after = session ∧ ∀ operation shape needsGradient,
      ¬ Applies session.graph.arena opcode operands operation shape needsGradient

theorem step_create
    (session : Session α)
    (opcode : OpCode)
    (operands : List NodeId) :
    session.step (.create opcode operands) =
      match Graph.create opcode operands session.graph with
      | .ok node graph => (.ok (.node node), { session with graph := graph })
      | .error reason graph => (.error reason, { session with graph := graph }) := by
  have performed : perform (.create opcode operands) session =
      (Answer.node <$> onGraph (Graph.create opcode operands) : Action α (Answer α)) session := rfl
  rw [step, performed]
  simp only [Functor.map, EStateM.map, onGraph]
  cases Graph.create opcode operands session.graph <;> rfl

theorem step_create_eq_ok
    {opcode : OpCode}
    {operands : List NodeId}
    {answer : Answer α}
    (stepped : session.step (.create opcode operands) = (.ok answer, after)) :
    ∃ node, answer = .node node ∧
      Graph.create opcode operands session.graph = .ok node after.graph := by
  rw [step_create] at stepped
  split at stepped
  next node graph ran =>
    cases stepped
    exact ⟨node, rfl, ran⟩
  · cases stepped

theorem step_create_eq_error
    {opcode : OpCode}
    {operands : List NodeId}
    {reason : Error}
    (stepped : session.step (.create opcode operands) = (.error reason, after)) :
    Graph.create opcode operands session.graph = .error reason after.graph ∧
      after = { session with graph := after.graph } := by
  rw [step_create] at stepped
  split at stepped
  · cases stepped
  next ran =>
    cases stepped
    exact ⟨ran, rfl⟩

theorem interns_of_indexed
    (sound : session.graph.arena.Sound)
    (indexed : session.graph.Indexed) :
    session.Interns where
  indexed := indexed
  unique := indexed.interned
  existing opcode operands operation node found asked computes same := by
    rw [step_create, create_existing sound indexed asked computes same]
  created opcode operands answer after stepped := by
    obtain ⟨node, rfl, ran⟩ := step_create_eq_ok stepped
    obtain ⟨operation, asked, interned⟩ := (ends_create_interned indexed).of_ok ran
    exact ⟨operation, node, asked, rfl, interned⟩
  refused opcode operands reason after stepped := by
    obtain ⟨ran, same⟩ := step_create_eq_error stepped
    obtain ⟨unchanged, none⟩ := (ends_create_interned indexed).of_error ran
    rw [unchanged] at same
    exact ⟨same, none⟩

/-- The operation of a created node is the one that was asked for, up to the order of operands. -/
theorem Interns.operation
    (interns : session.Interns)
    {opcode : OpCode}
    {operands : List NodeId}
    {operation : Operation}
    {node : NodeId}
    (asked : Operation.applied? opcode operands = some operation)
    (stepped : session.step (.create opcode operands) = (.ok (.node node), after)) :
    ∃ found, after.graph.arena.operation? node = some found ∧ operation.Same found := by
  obtain ⟨other, _, again, answered, ⟨found, computes, same⟩ | ⟨-, rfl, appends⟩⟩ :=
    interns.created opcode operands _ _ stepped
  · obtain rfl : operation = other := Option.some.inj (asked.symm.trans again)
    cases answered
    rw [interns.existing opcode operands operation node found asked computes same] at stepped
    cases stepped
    exact ⟨found, computes, same⟩
  · obtain rfl : operation = other := Option.some.inj (asked.symm.trans again)
    cases answered
    exact ⟨operation, appends.last, .refl operation⟩

/-- The values of an operation on values of its operands, where a single element serves all. -/
def elementwise (opcode : OpCode) (left right : Array α) : Array α :=
  Array.ofFn fun coordinate : Fin (if left.size = 1 then right.size else left.size) =>
    Arithmetic.eval opcode (leafElement left coordinate) (leafElement right coordinate)

/-- An operand has as many elements as its user, or a single one. -/
theorem size_of_operand
    {arena : Arena}
    (sound : arena.Sound)
    {node operand : NodeId}
    {shape below : Shape}
    {size sizeBelow : Nat}
    (shaped : arena.shape? node = some shape)
    (sized : shape.size = .ok size)
    (uses : operand ∈ arena.operands node)
    (shapedBelow : arena.shape? operand = some below)
    (sizedBelow : below.size = .ok sizeBelow) :
    sizeBelow = size ∨ sizeBelow = 1 := by
  rcases sound.broadcast node shape operand below shaped uses shapedBelow with rfl | alone
  · exact .inl (Except.ok.inj (sizedBelow.symm.trans sized))
  · exact .inr (Except.ok.inj (sizedBelow.symm.trans alone))

/-- What a node means is what its operation gives on what its operands mean. -/
theorem meaning_binary
    {graph : Graph α}
    {pins : BufferId → Nat}
    (valid : graph.Valid pins)
    (sided : graph.arena.Sided)
    {node left right : NodeId}
    {opcode : OpCode}
    (computes : graph.arena.operation? node = some (.binary opcode left right))
    {shape shapeLeft shapeRight : Shape}
    {size sizeLeft sizeRight : Nat}
    (shaped : graph.arena.shape? node = some shape)
    (sized : shape.size = .ok size)
    (shapedLeft : graph.arena.shape? left = some shapeLeft)
    (sizedLeft : shapeLeft.size = .ok sizeLeft)
    (shapedRight : graph.arena.shape? right = some shapeRight)
    (sizedRight : shapeRight.size = .ok sizeRight) :
    graph.meaning node size =
      elementwise opcode (graph.meaning left sizeLeft) (graph.meaning right sizeRight) := by
  have operands : graph.arena.operands node = [left, right] := by
    rw [Arena.operands, computes]
    rfl
  have usesLeft : left ∈ graph.arena.operands node := by
    rw [operands]
    exact List.mem_pair.2 (.inl rfl)
  have usesRight : right ∈ graph.arena.operands node := by
    rw [operands]
    exact List.mem_pair.2 (.inr rfl)
  have side : size = sizeLeft ∨ size = sizeRight := by
    obtain ⟨operand, among, shapedSide⟩ := sided node shape left shaped usesLeft
    rw [operands] at among
    rcases List.mem_pair.1 among with rfl | rfl
    · cases shapedLeft.symm.trans shapedSide
      exact .inl (Except.ok.inj (sized.symm.trans sizedLeft))
    · cases shapedRight.symm.trans shapedSide
      exact .inr (Except.ok.inj (sized.symm.trans sizedRight))
  have length : (if sizeLeft = 1 then sizeRight else sizeLeft) = size := by
    have fitsLeft := size_of_operand valid.arena shaped sized usesLeft shapedLeft sizedLeft
    have fitsRight := size_of_operand valid.arena shaped sized usesRight shapedRight sizedRight
    split <;> omega
  refine Array.ext (by simp [elementwise, length]) fun coordinate inside insideOther => ?_
  have below : coordinate < size := by simpa using inside
  simp only [meaning, elementwise, Array.getElem_ofFn]
  rw [← meaning, ← meaning,
    leafElement_meaning valid shaped sized usesLeft shapedLeft sizedLeft below,
    leafElement_meaning valid shaped sized usesRight shapedRight sizedRight below]
  exact Arena.elementOf_parts valid.arena.ordered computes rfl

/-- Swapped operands give the same values, as far as the operation is commutative. -/
theorem forall₂_elementwise_swap
    {same : α → α → Prop}
    {opcode : OpCode}
    (commutes : ∀ left right : α,
      same (Arithmetic.eval opcode left right) (Arithmetic.eval opcode right left))
    {left right : Array α}
    (fits : left.size = right.size ∨ left.size = 1 ∨ right.size = 1) :
    List.Forall₂ same (elementwise opcode left right).toList
      (elementwise opcode right left).toList := by
  have sizes : (elementwise opcode left right).size = (elementwise opcode right left).size := by
    simp only [elementwise, Array.size_ofFn]
    split <;> split <;> omega
  rw [List.forall₂_iff_get]
  refine ⟨sizes, fun index inside insideOther => ?_⟩
  simp only [List.get_eq_getElem, Array.getElem_toList, elementwise, Array.getElem_ofFn]
  exact commutes _ _

/-- What is answered as the value of a created node, as long as the graph is not cleared. -/
theorem value_created
    (valid : session.Valid)
    (coherent : session.graph.Coherent)
    (sided : session.graph.arena.Sided)
    {same : α → α → Prop}
    (identical : ∀ element, same element element)
    (commutes : ∀ opcode left right, opcode = .add ∨ opcode = .mul →
      same (Arithmetic.eval opcode left right) (Arithmetic.eval opcode right left))
    {opcode : OpCode}
    {left right node : NodeId}
    {found : Operation}
    (computes : session.graph.arena.operation? node = some found)
    (asked : (Operation.binary opcode left right).Same found)
    {values leftValues rightValues : Array α}
    (answered : (session.step (.value node)).1 = .ok (.values values))
    (answeredLeft : (session.step (.value left)).1 = .ok (.values leftValues))
    (answeredRight : (session.step (.value right)).1 = .ok (.values rightValues)) :
    List.Forall₂ same values.toList (elementwise opcode leftValues rightValues).toList := by
  obtain ⟨shape, size, shaped, sized, rfl⟩ := value_answered valid coherent answered
  obtain ⟨shapeLeft, sizeLeft, shapedLeft, sizedLeft, rfl⟩ :=
    value_answered valid coherent answeredLeft
  obtain ⟨shapeRight, sizeRight, shapedRight, sizedRight, rfl⟩ :=
    value_answered valid coherent answeredRight
  cases asked with
  | refl =>
    rw [meaning_binary valid sided computes shaped sized shapedLeft sizedLeft
      shapedRight sizedRight]
    exact List.forall₂_same.2 fun element _ => identical element
  | swap commutative =>
    rw [meaning_binary valid sided computes shaped sized shapedRight sizedRight
      shapedLeft sizedLeft]
    refine forall₂_elementwise_swap (fun first second =>
      commutes opcode first second commutative) ?_
    have operands : session.graph.arena.operands node = [right, left] := by
      rw [Arena.operands, computes]
      rfl
    have fitsLeft := size_of_operand valid.arena shaped sized
      (operands ▸ List.mem_pair.2 (.inr rfl)) shapedLeft sizedLeft
    have fitsRight := size_of_operand valid.arena shaped sized
      (operands ▸ List.mem_pair.2 (.inl rfl)) shapedRight sizedRight
    rw [size_meaning, size_meaning]
    omega

/--
In every session that a run of requests leads to, operations are interned: no
two nodes apply the same code to the same operands, and a request to create an
operation is answered with the node that is there already or appends one.  As
long as the graph is not cleared, nodes keep what they compute and their shape,
and swapped operands of operations that do not commute give different nodes.
If sums and products do not depend on the order of their operands, then the
value of a created node is that of the operation that was asked for.
-/
theorem create_interns
    (reached : (start capacity device unsupported faults config).run commands = session) :
    session.Interns ∧
    (∀ further : List (Command α), (∀ command ∈ further, command ≠ .clear) →
      session.graph.arena.Retains (session.run further).graph.arena) ∧
    (∀ opcode left right first second middle (further : List (Command α)),
      opcode = .sub ∨ opcode = .div ∨ opcode = .pow →
      session.step (.create opcode [left, right]) = (.ok (.node first), middle) →
      (∀ command ∈ further, command ≠ .clear) →
      ((middle.run further).step (.create opcode [right, left])).1 = .ok (.node second) →
      first = second → left = right) ∧
    ∀ same : α → α → Prop, (∀ element, same element element) →
      (∀ opcode left right, opcode = .add ∨ opcode = .mul →
        same (Arithmetic.eval opcode left right) (Arithmetic.eval opcode right left)) →
      ∀ opcode left right node middle (further : List (Command α)),
        session.step (.create opcode [left, right]) = (.ok (.node node), middle) →
        (∀ command ∈ commands ++ further, command.givesUp = false) →
        (∀ command ∈ further, command ≠ .clear) →
        ∀ values leftValues rightValues,
          ((middle.run further).step (.value node)).1 = .ok (.values values) →
          ((middle.run further).step (.value left)).1 = .ok (.values leftValues) →
          ((middle.run further).step (.value right)).1 = .ok (.values rightValues) →
          List.Forall₂ same values.toList (elementwise opcode leftValues rightValues).toList := by
  obtain ⟨sound, indexed⟩ := indexed_of_run reached
  have interns := interns_of_indexed sound indexed
  -- the session after the node was created and more was asked is reached by one longer run
  have later : ∀ opcode left right answer middle (further : List (Command α)),
      session.step (.create opcode [left, right]) = (.ok answer, middle) →
      (start capacity device unsupported faults config).run
        (commands ++ .create opcode [left, right] :: further) = middle.run further := by
    intro opcode left right answer middle further stepped
    rw [run_append, reached]
    show (session.step (.create opcode [left, right])).2.run further = _
    rw [stepped]
  have retained : ∀ opcode left right node middle (further : List (Command α)),
      session.step (.create opcode [left, right]) = (.ok (.node node), middle) →
      (∀ command ∈ further, command ≠ .clear) →
      ∃ found, (middle.run further).graph.arena.operation? node = some found ∧
        (Operation.binary opcode left right).Same found := by
    intro opcode left right node middle further stepped kept
    obtain ⟨found, computes, same⟩ := interns.operation rfl stepped
    have soundMiddle := (indexed_of_run (later opcode left right _ middle [] stepped)).1
    exact ⟨found, (retains_run soundMiddle kept).operation node found computes, same⟩
  refine ⟨interns, fun further kept => retains_run sound kept, ?_, ?_⟩
  · intro opcode left right first second middle further ordered stepped kept swapped equal
    obtain ⟨found, computes, same⟩ := retained opcode left right first middle further stepped kept
    obtain ⟨soundLater, indexedLater⟩ :=
      indexed_of_run (later opcode left right _ middle further stepped)
    have internsLater := interns_of_indexed soundLater indexedLater
    obtain ⟨again, computesAgain, sameAgain⟩ :=
      internsLater.operation rfl (Prod.ext swapped rfl)
    have stays : (middle.run further).graph.arena.Retains
        ((middle.run further).step (.create opcode [right, left])).2.graph.arena :=
      retains_step soundLater nofun
    rw [← equal, stays.operation first found computes] at computesAgain
    cases computesAgain
    cases same.trans sameAgain.symm with
    | refl => rfl
    | swap commutative => rcases ordered with rfl | rfl | rfl <;> simp at commutative
  · intro same identical commutes opcode left right node middle further stepped kept notCleared
      values leftValues rightValues
    have reachedLater := later opcode left right _ middle further stepped
    have valid : (middle.run further).Valid := by
      rw [← reachedLater]
      exact run_valid ..
    have coherent : (middle.run further).graph.Coherent := by
      rw [← reachedLater]
      refine run_coherent _ _ _ _ _ _ fun command member => ?_
      rcases List.mem_append.1 member with old | new
      · exact kept command (List.mem_append_left _ old)
      · rcases List.mem_cons.1 new with rfl | new
        · rfl
        · exact kept command (List.mem_append_right _ new)
    obtain ⟨found, computes, asked⟩ :=
      retained opcode left right node middle further stepped notCleared
    exact value_created valid coherent (sided_of_run reachedLater) identical commutes computes asked

/-- A product that is asked for in the other order is the one that is there. -/
theorem create_interns_scaling :
    (onIntegers scaling).step (.create .mul [⟨1⟩, ⟨0⟩]) =
        (.ok (.node ⟨2⟩), onIntegers scaling) ∧
      ((onIntegers scaling).step (.value ⟨2⟩)).1 = .ok (.values #[21, 35]) ∧
      List.Forall₂ Eq [21, 35] (elementwise .mul (#[7] : Array Int) #[3, 5]).toList := by
  have product : (onIntegers scaling).graph.arena.operation? ⟨2⟩ =
      some (.binary .mul ⟨0⟩ ⟨1⟩) := by
    decide +kernel
  obtain ⟨interns, -, -, values⟩ := create_interns (run_eq_onIntegers scaling)
  have again := interns.existing .mul [⟨1⟩, ⟨0⟩] _ ⟨2⟩ _ rfl product (.swap (.inr rfl) ⟨1⟩ ⟨0⟩)
  have answered : ((onIntegers scaling).step (.value ⟨2⟩)).1 = .ok (.values #[21, 35]) := by cbv
  refine ⟨again, answered, ?_⟩
  refine values Eq (fun _ => rfl) ?_ .mul ⟨1⟩ ⟨0⟩ ⟨2⟩ _ [] again ?_
    (fun _ member => absurd member List.not_mem_nil) #[21, 35] #[7] #[3, 5] answered (by cbv)
    (by cbv)
  · rintro opcode left right (rfl | rfl)
    · exact Int.add_comm left right
    · exact Int.mul_comm left right
  · intro command member
    rw [List.append_nil] at member
    revert command
    decide

end Session

end Graph

end Elementwise
