import Elementwise.Proofs.Graph.Preservation

/-!
# Which nodes own a gradient

Gradients are allocated together with the contents: for a leaf when it is
made, if it is trainable, and for any other node when it is marked as an
output, if it depends on a trainable leaf.  So a node owns a gradient just if
gradients are needed on it and it is a leaf or an output.

Few operations change nodes at all, and those that do keep this condition.
-/

namespace Elementwise

/-- A node has buffers just if it is a leaf or an output, and a gradient among them if needed. -/
structure Node.Tracked (node : Node) : Prop where
  stored : ∀ size, node.shape.size = .ok size →
    (node.storage.isSome = true ↔ node.operation = .leaf ∨ node.isOutput = true)
  needed : ∀ storage, node.storage = some storage → storage.gradient.isSome = node.needsGradient

theorem Node.Tracked.gradient
    {node : Node}
    {size : Nat}
    (tracked : node.Tracked)
    (sized : node.shape.size = .ok size) :
    node.gradient?.isSome = true ↔
      node.needsGradient = true ∧ (node.operation = .leaf ∨ node.isOutput = true) := by
  rw [← tracked.stored size sized, Node.gradient?]
  cases stored : node.storage with
  | none => simp
  | some storage => simp [tracked.needed storage stored]

namespace Arena

variable {arena : Arena}

/-- All nodes own the gradients that they should. -/
def Tracked (arena : Arena) : Prop :=
  ∀ node found, arena.node? node = some found → found.Tracked

theorem tracked_empty : empty.Tracked := by
  rintro node found ⟨⟩

/-- A change of one node. -/
theorem Tracked.modify
    {node : NodeId}
    {change : Node → Node}
    (others : ∀ other found, other ≠ node → arena.node? other = some found → found.Tracked)
    (own : ∀ found, arena.node? node = some found → (change found).Tracked) :
    (arena.modify node change).Tracked := by
  intro other found present
  rw [node?_modify] at present
  split at present
  next same =>
    subst same
    obtain ⟨old, before, rfl⟩ := Option.map_eq_some_iff.1 present
    exact own old before
  next different => exact others other found (Ne.symm different) present

/-- The nodes that were there before a new one. -/
theorem Tracked.push
    {operation : Operation}
    {shape : Shape}
    {needsGradient : Bool}
    (tracked : arena.Tracked)
    {node : NodeId}
    {found : Node}
    (old : node ≠ ⟨arena.size⟩)
    (present : (arena.push operation shape needsGradient).2.node? node = some found) :
    found.Tracked := by
  have before : node.index ≠ arena.size := by
    intro same
    exact old (by rw [← same])
  rw [node?_push, if_neg before] at present
  obtain ⟨kept, presentBefore, rfl⟩ := Option.map_eq_some_iff.1 present
  have trackedBefore := tracked node kept presentBefore
  split
  · rw [Node.addUser_eq]
    exact ⟨trackedBefore.stored, trackedBefore.needed⟩
  · exact trackedBefore

/-- A new node that is no leaf owns no gradient yet. -/
theorem Tracked.push_computed
    {operation : Operation}
    {shape : Shape}
    {needsGradient : Bool}
    (tracked : arena.Tracked)
    (computed : operation ≠ .leaf) :
    (arena.push operation shape needsGradient).2.Tracked := by
  intro node found present
  by_cases new : node = ⟨arena.size⟩
  · subst new
    rw [node?_push, if_pos rfl] at present
    cases present
    exact ⟨fun _ _ => by simp [computed], nofun⟩
  · exact tracked.push new present

/-- A new leaf gets a gradient just if one is needed on it. -/
theorem Tracked.push_leaf
    {shape : Shape}
    {needsGradient : Bool}
    {storage : Storage}
    (tracked : arena.Tracked)
    (needed : storage.gradient.isSome = needsGradient) :
    ((arena.push .leaf shape needsGradient).2.modify ⟨arena.size⟩
      ({ · with storage := some storage, isCurrent := true })).Tracked := by
  refine Tracked.modify (fun other found old present => tracked.push old present) ?_
  intro found present
  rw [node?_push, if_pos rfl] at present
  cases present
  refine ⟨fun _ _ => by simp, ?_⟩
  rintro _ ⟨⟩
  exact needed

theorem Tracked.invalidate
    (tracked : arena.Tracked)
    (source : NodeId) :
    (arena.invalidate source).Tracked := by
  intro node found present
  rw [node?_invalidate] at present
  obtain ⟨old, before, rfl⟩ := Option.map_eq_some_iff.1 present
  have trackedBefore := tracked node old before
  split
  · exact ⟨trackedBefore.stored, trackedBefore.needed⟩
  · exact trackedBefore

end Arena

namespace Graph

variable
    {α β : Type}
    {holds : Arena → Prop}
    {graph : Graph α}
    {output : NodeId}

variable [Element α]

/-! ## Actions that keep the ownership of gradients -/

omit [Element α] in
/-- A buffer for the gradient is allocated just if it is needed. -/
theorem ends_gradientIfNeeded
    {size : Nat}
    {next : Option BufferId → Action α β}
    {done : β → Graph α → Prop}
    {failed : Error → Graph α → Prop}
    (needed : Bool)
    (run : ∀ gradient store, gradient.isSome = needed →
      Ends (next gradient) { graph with store := store } done failed) :
    Ends
      (if needed then do
        let gradient ← some <$> onStore (Store.allocate size)
        next gradient
      else do
        let gradient ← pure none
        next gradient)
      graph done failed := by
  cases needed with
  | true => exact run _ _ rfl
  | false => exact run none graph.store rfl

omit [Element α] in
theorem tracked_leaf
    {shape : Shape}
    {values : Array α}
    {trainable : Bool} :
    Preserves (OnArena Arena.Tracked) (leaf shape values trainable) := by
  intro graph tracked
  unfold leaf
  rw [ends_bind_iff]
  refine ends_check ?_ fun _ => tracked
  intro size lifted
  dsimp only
  split
  · exact tracked
  · rw [ends_bind_iff, push, ends_modifyGet_iff, ends_bind_iff, ends_onStore_iff,
      Store.allocateFrom, ends_modifyGet_iff]
    refine ends_gradientIfNeeded trainable fun gradient store needed => ?_
    rw [ends_bind_iff, ends_modifyNode_iff, ends_pure_iff]
    exact tracked.push_leaf needed

theorem tracked_scalar (value : α) : Preserves (OnArena Arena.Tracked) (scalar value) := by
  intro graph tracked
  unfold scalar
  dsimp only
  rw [ends_bind_iff, ends_get_iff]
  split
  · exact tracked
  · rw [ends_bind_iff, push, ends_modifyGet_iff, ends_bind_iff, ends_onStore_iff,
      Store.allocateFrom, ends_modifyGet_iff, ends_bind_iff, ends_modifyNode_iff, ends_bind_iff,
      ends_modify_iff, ends_pure_iff]
    exact tracked.push_leaf rfl

omit [Element α] in
theorem tracked_intern
    {operation : Operation}
    {shape : Shape}
    {needsGradient : Bool}
    (computed : operation ≠ .leaf) :
    Preserves (OnArena Arena.Tracked)
      (intern operation shape needsGradient : Action α NodeId) := by
  intro graph tracked
  exact ends_intern_of_lookup (fun _ _ => tracked) fun _ => tracked.push_computed computed

omit [Element α] in
theorem tracked_create
    {opcode : OpCode}
    {operands : List NodeId} :
    Preserves (OnArena Arena.Tracked) (create opcode operands : Action α NodeId) :=
  fun graph tracked =>
    ends_create_of_intern (fun _ _ _ applies => tracked_intern applies.computed graph tracked)
      fun _ _ => tracked

omit [Element α] in
theorem tracked_markOutput :
    Preserves (OnArena Arena.Tracked) (markOutput output : Action α Unit) := by
  intro graph tracked
  unfold markOutput
  rw [ends_bind_iff]
  refine ends_node ?_ fun _ => tracked
  intro found present
  have trackedFound := tracked output found present
  have others : ∀ other kept, other ≠ output → graph.arena.node? other = some kept →
      kept.Tracked := fun other kept _ before => tracked other kept before
  rw [ends_bind_iff, ends_modifyNode_iff]
  cases stored : found.storage with
  | none =>
    rw [Option.isNone_none, if_pos rfl, ends_bind_iff]
    cases sized : Size.lift found.shape.size with
    | ok size =>
      show Ends (onStore (Store.allocate size) >>= _) _ _ _
      rw [ends_bind_iff, ends_onStore_iff, Store.allocate, ends_modifyGet_iff]
      refine ends_gradientIfNeeded found.needsGradient fun gradient store needed => ?_
      rw [ends_modifyNode_iff]
      refine .modify (fun other kept different before => ?_) fun kept before => ?_
      · rw [Arena.node?_modify, if_neg (Ne.symm different)] at before
        exact tracked other kept before
      · rw [Arena.node?_modify, if_pos rfl, present] at before
        cases before
        refine ⟨fun _ _ => by simp, ?_⟩
        rintro _ ⟨⟩
        exact needed
    | error reason =>
      refine .modify others fun kept before => ?_
      rw [present] at before
      cases before
      refine ⟨fun size computed => ?_, trackedFound.needed⟩
      rw [computed] at sized
      cases sized
  | some storage =>
    rw [Option.isNone_some, if_neg Bool.false_ne_true]
    refine .modify others fun kept before => ?_
    rw [present] at before
    cases before
    exact ⟨fun size sized => by simp [stored], trackedFound.needed⟩

/-- No operation leaves a node without the buffers that it should own, or with others. -/
theorem upheld_tracked : Upheld (OnArena Arena.Tracked : Graph α → Prop) where
  leaf _ _ _ := tracked_leaf
  scalar := tracked_scalar
  create _ _ := tracked_create
  markOutput _ := tracked_markOutput
  onStore _ := preserves_onStore _
  scripts _ _ tracked := tracked
  forgets _ _ _ tracked _ := tracked
  current _ _ tracked :=
    .modify (fun other found _ before => tracked other found before) fun found before =>
      ⟨(tracked _ found before).stored, (tracked _ found before).needed⟩
  invalidate _ source tracked := tracked.invalidate source

end Graph

end Elementwise
