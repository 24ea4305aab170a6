import Elementwise.Proofs.Graph.Coherence
import Elementwise.Proofs.Reduction.Tree

/-!
# Building graphs keeps them valid

Leaves, constants, operations and outputs add nodes and buffers.  Nothing that
was there before changes, and a failure adds nothing that matters.
-/

namespace Elementwise.Graph

variable
    {α : Type}
    [Element α]
    {graph : Graph α}
    {pins : BufferId → Nat}

/-! ## The parts of operations -/

section

variable
    {β : Type}
    {done : β → Graph α → Prop}
    {failed : Error → Graph α → Prop}

omit [Element α] in
theorem ends_onStore_iff
    {action : Store.Action α β} :
    Ends (onStore action) graph done failed ↔
      Ends action graph.store (fun answer store => done answer { graph with store := store })
        (fun reason store => failed reason { graph with store := store }) := by
  unfold Ends onStore
  cases action graph.store <;> rfl

omit [Element α] in
theorem ends_check
    {result : Except Error β}
    (succeeds : ∀ answer, result = .ok answer → done answer graph)
    (fails : ∀ reason, failed reason graph) :
    Ends (check result) graph done failed := by
  cases result with
  | ok answer => exact succeeds answer rfl
  | error reason => exact fails reason

end

omit [Element α] in
theorem ends_node
    {node : NodeId}
    {done : Node → Graph α → Prop}
    {failed : Error → Graph α → Prop}
    (succeeds : ∀ found, graph.arena.node? node = some found → done found graph)
    (fails : graph.arena.node? node = none → failed (.unknownNode node) graph) :
    Ends (Graph.node node) graph done failed := by
  unfold Graph.node
  rw [ends_bind_iff, ends_get_iff]
  cases found : graph.arena.node? node with
  | some value => exact succeeds value found
  | none => exact fails found

omit [Element α] in
/-- A node that is there is found. -/
theorem ends_node_of_present
    {node : NodeId}
    {found : Node}
    {done : Node → Graph α → Prop}
    {failed : Error → Graph α → Prop}
    (present : graph.arena.node? node = some found)
    (holds : done found graph) :
    Ends (Graph.node node) graph done failed := by
  refine ends_node (fun other again => ?_) fun absent => ?_
  · rw [present] at again
    cases again
    exact holds
  · rw [present] at absent
    cases absent

omit [Element α] in
theorem ends_modifyNode_iff
    {node : NodeId}
    {change : Node → Node}
    {done : Unit → Graph α → Prop}
    {failed : Error → Graph α → Prop} :
    Ends (modifyNode node change) graph done failed ↔
      done () { graph with arena := graph.arena.modify node change } := Iff.rfl

/-! ## New buffers of a node -/

/-- The buffers of a storage were made, and nothing else happened. -/
structure Provides
    (before : Store α)
    (size : Nat)
    (storage : Storage)
    (after : Store α) : Prop where
  frame : Store.Frame { buffer | ∃ part, storage.buffer? part = some buffer } ∅ before after
  absent : ∀ part buffer, storage.buffer? part = some buffer → before.claim? buffer = none
  later : ∀ part buffer, storage.buffer? part = some buffer → before.nextIndex ≤ buffer.index
  claims : ∀ part buffer, storage.buffer? part = some buffer →
    after.claim? buffer = some (.fresh size)
  apart : storage.gradient ≠ some storage.content
  /-- A gradient starts from zero. -/
  zero : ∀ buffer, storage.gradient = some buffer →
    after.reading? buffer = some (zeros α size)

/-- The content buffer was made. -/
theorem provides_content
    {before after : Store α}
    {content : BufferId}
    {size : Nat}
    (absent : before.claim? content = none)
    (later : before.nextIndex ≤ content.index)
    (frame : Store.Frame {content} ∅ before after)
    (claimed : after.claim? content = some (.fresh size)) :
    Provides before size ⟨content, none⟩ after := by
  have only : ∀ part buffer, Storage.buffer? ⟨content, none⟩ part = some buffer →
      content = buffer := by
    intro part buffer among
    cases part with
    | content => exact Option.some.inj among
    | gradient => cases among
  refine ⟨frame.mono ?_ (Set.Subset.refl _), ?_, ?_, ?_, nofun, nofun⟩
  · rintro _ rfl
    exact ⟨.content, rfl⟩
  · rintro part buffer among
    exact only part buffer among ▸ absent
  · rintro part buffer among
    exact only part buffer among ▸ later
  · rintro part buffer among
    exact only part buffer among ▸ claimed

/-- A gradient buffer is added. -/
theorem Provides.gradient
    {before middle after : Store α}
    {content gradient : BufferId}
    {size : Nat}
    (provides : Provides before size ⟨content, none⟩ middle)
    (absent : middle.claim? gradient = none)
    (later : middle.nextIndex ≤ gradient.index)
    (frame : Store.Frame {gradient} ∅ middle after)
    (claimed : after.claim? gradient = some (.fresh size))
    (reads : after.reading? gradient = some (zeros α size)) :
    Provides before size ⟨content, gradient⟩ after := by
  have contentClaimed := provides.claims .content content rfl
  have different : content ≠ gradient := by
    rintro rfl
    rw [absent] at contentClaimed
    cases contentClaimed
  have absentBefore : before.claim? gradient = none := by
    rw [← provides.frame.claims gradient, absent]
    rintro ⟨part, among⟩
    rw [provides.claims part gradient among] at absent
    cases absent
  refine ⟨(provides.frame.trans frame).mono ?_ ?_, ?_, ?_, ?_, ?_, ?_⟩
  · rintro buffer (⟨part, among⟩ | rfl)
    · cases part with
      | content => exact ⟨.content, among⟩
      | gradient => cases among
    · exact ⟨.gradient, rfl⟩
  · rw [Set.union_empty]
  · intro part buffer among
    cases part with
    | content => exact provides.absent .content buffer among
    | gradient =>
      cases among
      exact absentBefore
  · intro part buffer among
    cases part with
    | content => exact provides.later .content buffer among
    | gradient =>
      cases among
      exact Nat.le_trans provides.frame.nextIndex later
  · intro part buffer among
    cases part with
    | content =>
      cases among
      rw [frame.claims content different, contentClaimed]
    | gradient =>
      cases among
      exact claimed
  · intro same
    exact different (Option.some.inj same).symm
  · rintro _ ⟨⟩
    exact reads

/-- A gradient buffer is added where it is needed. -/
theorem ends_neededGradient
    {β : Type}
    {before : Store α}
    {content : BufferId}
    {size : Nat}
    {next : Option BufferId → Action α β}
    {done : β → Graph α → Prop}
    {failed : Error → Graph α → Prop}
    (provides : Provides before size ⟨content, none⟩ graph.store)
    (needed : Bool)
    (run : ∀ gradient store, Provides before size ⟨content, gradient⟩ store →
      Ends (next gradient) { graph with store := store } done failed) :
    Ends
      (if needed then do
        let gradient ← some <$> onStore (Store.allocate size)
        next gradient
      else do
        let gradient ← pure none
        next gradient)
      graph done failed := by
  split
  · rw [ends_bind_iff, ends_map_iff, ends_onStore_iff]
    refine (Store.ends_allocate provides.frame.valid size).mono ?_ fun _ _ fails => fails
    rintro gradient store ⟨absent, frame, claimed, reads, later⟩
    exact run gradient store (provides.gradient absent later frame claimed reads)
  · exact run none graph.store provides

/-- New buffers belong to no node and are not leased. -/
theorem Provides.fresh
    {before after : Store α}
    {size : Nat}
    {storage : Storage}
    (provides : Provides before size storage after)
    {graph : Graph α}
    (same : graph.store = before)
    (linked : graph.Linked pins)
    (part : Part)
    (buffer : BufferId)
    (among : storage.buffer? part = some buffer) :
    after.claim? buffer = some (.fresh size) ∧ pins buffer = 0 ∧
      ∀ other otherPart, graph.arena.bufferOf? other otherPart ≠ some buffer := by
  subst same
  refine ⟨provides.claims part buffer among,
    linked.pinned buffer (provides.later part buffer among), ?_⟩
  intro other otherPart owned
  obtain ⟨otherSize, claimed⟩ := linked.exists_claim owned
  rw [provides.absent part buffer among] at claimed
  cases claimed

/-! ## Outputs -/

/-- A flag that says nothing about the content may change. -/
theorem keeps_modify
    (valid : graph.Valid pins)
    (node : NodeId)
    (change : Node → Node)
    (core : ∀ found, (change found).core = found.core)
    (stored : ∀ found, (change found).storage = found.storage)
    (current : ∀ found, (change found).isCurrent = found.isCurrent) :
    Keeps pins ∅ graph { graph with arena := graph.arena.modify node change } := by
  have alike := graph.arena.alike_modify node change core
  have buffers := graph.arena.bufferOf?_modify_of_same node stored
  have flags := graph.arena.isCurrent_modify_of_same node current
  have linked := valid.of_alike alike buffers fun other isCurrent =>
    valid.current other ((flags other).1 isCurrent)
  have validAfter : Valid { graph with arena := graph.arena.modify node change } pins := by
    refine ⟨linked, fun other isLeaf => (flags other).2 (valid.leaves other ?_)⟩
    rwa [← alike.operation?]
  refine .of_arena valid validAfter ⟨alike.extension, ?_, ?_⟩ ?_ ?_
  · intro other shape shaped
    rwa [alike.shape?]
  · intro other part buffer owned
    rwa [buffers]
  · intro other isCurrent notBefore
    exact absurd ((flags other).1 isCurrent) notBefore
  · intro other buffer none owned
    cases none.symm.trans ((buffers other .gradient).symm.trans owned)

/-- A node without buffers gets new ones. -/
theorem keeps_provide
    (valid : graph.Valid pins)
    {node : NodeId}
    {found : Node}
    {size : Nat}
    {storage : Storage}
    {store : Store α}
    (change : Node → Node)
    (present : graph.arena.node? node = some found)
    (empty : found.storage = none)
    (sized : found.shape.size = .ok size)
    (provides : Provides graph.store size storage store)
    (core : ∀ found, (change found).core = found.core)
    (stored : ∀ found, (change found).storage = some storage)
    (current : ∀ found, (change found).isCurrent = found.isCurrent) :
    Keeps pins ∅ graph { graph with store := store, arena := graph.arena.modify node change } := by
  have inside : node.index < graph.arena.size := by
    rw [← Arena.node?_isSome_iff, present]
    rfl
  have shaped : graph.arena.shape? node = some found.shape := by
    rw [Arena.shape?, present, Option.map_some]
  have alike := graph.arena.alike_modify node change core
  have first : Keeps pins ∅ graph { graph with store := store } := by
    refine .of_frame valid provides.frame ?_ fun _ _ _ => Set.notMem_empty _
    rintro buffer ⟨part, among⟩
    exact provides.absent part buffer among
  have flags := graph.arena.isCurrent_modify_of_same node current
  have linked := first.valid.store_node change core stored shaped sized
    (fun part buffer => provides.fresh rfl valid.toLinked part buffer) provides.apart
  refine first.trans_empty (.of_arena first.valid ⟨linked, ?_⟩ ⟨alike.extension, ?_, ?_⟩ ?_ ?_)
  · intro other isLeaf
    refine (flags other).2 (valid.leaves other ?_)
    rwa [← alike.operation?]
  · intro other shape shapedOther
    rwa [alike.shape?]
  · intro other part buffer owned
    rw [Arena.bufferOf?_modify stored inside]
    split
    next same =>
      subst same
      have absent : graph.arena.bufferOf? node part = none := by
        cases part with
        | content =>
          rw [Arena.bufferOf?, present, Option.bind_some, Node.content?, empty]
          rfl
        | gradient =>
          rw [Arena.bufferOf?, present, Option.bind_some, Node.gradient?, empty]
          rfl
      have none := absent.symm.trans owned
      cases none
    · exact owned
  · intro other isCurrent notBefore
    exact absurd ((flags other).1 isCurrent) notBefore
  · intro other buffer none owned
    rw [Arena.bufferOf?_modify stored inside] at owned
    split at owned
    · exact ⟨size, provides.zero buffer owned⟩
    · cases none.symm.trans owned

/--
Marking an output changes no reading, no flag that matters, and the buffers of no other
node; afterwards the node has a content buffer.
-/
theorem ends_markOutput (valid : graph.Valid pins) (output : NodeId) :
    Ends (markOutput output) graph
      (fun _ after => Keeps pins ∅ graph after ∧ graph.arena.Alike after.arena ∧
        (∀ node, after.arena.IsCurrent node ↔ graph.arena.IsCurrent node) ∧
        (∀ node part, node ≠ output →
          after.arena.bufferOf? node part = graph.arena.bufferOf? node part) ∧
        ∃ buffer, after.arena.bufferOf? output .content = some buffer)
      (fun _ after => Keeps pins ∅ graph after) := by
  unfold markOutput
  rw [ends_bind_iff]
  refine ends_node ?_ fun _ => .refl valid
  intro found present
  rw [ends_bind_iff, ends_modifyNode_iff]
  have marked := keeps_modify valid output ({ · with isOutput := true })
    (fun _ => rfl) (fun _ => rfl) fun _ => rfl
  have alike := graph.arena.alike_modify output ({ · with isOutput := true }) fun _ => rfl
  have flags : ∀ node, (graph.arena.modify output ({ · with isOutput := true })).IsCurrent node ↔
      graph.arena.IsCurrent node := Arena.isCurrent_modify_of_same output fun _ => rfl
  have buffers : ∀ node part,
      (graph.arena.modify output ({ · with isOutput := true })).bufferOf? node part =
        graph.arena.bufferOf? node part :=
    Arena.bufferOf?_modify_of_same output fun _ => rfl
  have presentMarked : (graph.arena.modify output ({ · with isOutput := true })).node? output =
      some { found with isOutput := true } := by
    rw [Arena.node?_modify, if_pos rfl, present, Option.map_some]
  split
  next none =>
    have empty : found.storage = .none := Option.isNone_iff_eq_none.1 none
    rw [ends_bind_iff]
    refine ends_check ?_ fun _ => marked
    intro size lifted
    have sized := Size.lift_eq_ok lifted
    rw [ends_bind_iff, ends_onStore_iff]
    refine (Store.ends_allocate marked.valid.store size).mono ?_ fun _ _ fails => fails
    rintro content store ⟨absent, frame, claimed, -, later⟩
    refine ends_neededGradient (provides_content absent later frame claimed) found.needsGradient ?_
    intro gradient last provides
    rw [ends_modifyNode_iff]
    have keeps := marked.trans_empty (keeps_provide marked.valid
      ({ · with storage := some ⟨content, gradient⟩ }) presentMarked empty sized provides
      (fun _ => rfl) (fun _ => rfl) fun _ => rfl)
    have inside : output.index <
        (graph.arena.modify output ({ · with isOutput := true })).size := by
      rw [← Arena.node?_isSome_iff, presentMarked]
      rfl
    have flagsStored : ∀ node,
        ((graph.arena.modify output ({ · with isOutput := true })).modify output
        ({ · with storage := some ⟨content, gradient⟩ })).IsCurrent node ↔
          graph.arena.IsCurrent node := fun node =>
      (Arena.isCurrent_modify_of_same output (by exact fun _ => rfl) node).trans (flags node)
    have stored : ∀ node part,
        ((graph.arena.modify output ({ · with isOutput := true })).modify output
          ({ · with storage := some ⟨content, gradient⟩ })).bufferOf? node part =
            if output = node then (Storage.mk content gradient).buffer? part
            else (graph.arena.modify output ({ · with isOutput := true })).bufferOf? node part :=
      Arena.bufferOf?_modify (by exact fun _ => rfl) inside
    refine ⟨keeps, alike.trans (Arena.alike_modify _ output _ fun _ => rfl), flagsStored,
      fun node part different => ?_, content, ?_⟩
    · exact (stored node part).trans ((if_neg different.symm).trans (buffers node part))
    · exact (stored output .content).trans (if_pos rfl)
  next some =>
    refine ⟨marked, alike, flags, fun node part _ => buffers node part, ?_⟩
    obtain ⟨storage, stored⟩ := Option.ne_none_iff_exists'.1 fun none =>
      some (Option.isNone_iff_eq_none.2 none)
    refine ⟨storage.content, ?_⟩
    show ((graph.arena.modify output _).node? output).bind Node.content? = _
    rw [presentMarked, Option.bind_some, Node.content?, stored, Option.map_some]

/-! ## Leaves and constants -/

/-- What is known of operations and constants has nothing to do with the nodes. -/
theorem keeps_tables
    (valid : graph.Valid pins)
    (interned : Std.TreeMap Key NodeId)
    (constants : Table NodeId Key) :
    Keeps pins ∅ graph { graph with interned := interned, constants := constants } where
  valid :=
    { arena := valid.arena
      store := valid.store
      pinned := valid.pinned
      claims := valid.claims
      apart := valid.apart
      current := valid.current
      scripts := valid.scripts
      leaves := valid.leaves }
  grows := .refl graph.arena
  readings _ _ _ _ _ := rfl
  fresh _ _ none owned _ := nomatch none.symm.trans owned
  coherent coherent := coherent
  config := rfl

/-- A new leaf with buffers of its own. -/
theorem keeps_leaf
    (needsGradient : Bool)
    (valid : graph.Valid pins)
    {shape : Shape}
    {size : Nat}
    {storage : Storage}
    {store : Store α}
    (sized : shape.size = .ok size)
    (provides : Provides graph.store size storage store) :
    Keeps pins ∅ graph
      { graph with
        store := store
        arena := (graph.arena.push .leaf shape needsGradient).2.modify ⟨graph.arena.size⟩
          ({ · with storage := some storage, isCurrent := true }) } := by
  have sound : (graph.arena.push .leaf shape needsGradient).2.Sound :=
    Arena.Sound.push shape needsGradient valid.arena nofun nofun ⟨size, sized⟩ nofun
  have first : Keeps pins ∅ graph { graph with store := store } := by
    refine .of_frame valid provides.frame ?_ fun _ _ _ => Set.notMem_empty _
    rintro buffer ⟨part, among⟩
    exact provides.absent part buffer among
  have pushed := first.valid.toLinked.push sound
  have shaped : (graph.arena.push .leaf shape needsGradient).2.shape? ⟨graph.arena.size⟩ =
      some shape := by
    rw [Arena.shape?_push, if_pos rfl]
  have linked := pushed.store_node ({ · with storage := some storage, isCurrent := true })
    (fun _ => rfl) (fun _ => rfl) shaped sized
    (fun part buffer among => by
      obtain ⟨claimed, unpinned, unowned⟩ := provides.fresh rfl valid.toLinked part buffer among
      refine ⟨claimed, unpinned, fun other otherPart => ?_⟩
      rw [Arena.bufferOf?_push]
      exact unowned other otherPart)
    provides.apart
  have alike := (graph.arena.push .leaf shape needsGradient).2.alike_modify ⟨graph.arena.size⟩
    ({ · with storage := some storage, isCurrent := true }) fun _ => rfl
  have inside : (⟨graph.arena.size⟩ : NodeId).index <
      (graph.arena.push .leaf shape needsGradient).2.size := by
    rw [Arena.size_push]
    exact Nat.lt_succ_self _
  -- the new leaf is the only node that becomes up to date
  have flags : ∀ node, ((graph.arena.push .leaf shape needsGradient).2.modify ⟨graph.arena.size⟩
      ({ · with storage := some storage, isCurrent := true })).IsCurrent node ↔
        node = ⟨graph.arena.size⟩ ∨ graph.arena.IsCurrent node := by
    intro node
    rw [Arena.isCurrent_modify_iff (fun _ => rfl) inside, Arena.isCurrent_push]
  refine first.trans_empty (.of_arena first.valid ⟨linked, ?_⟩ ⟨?_, ?_, ?_⟩ ?_ ?_)
  · intro node isLeaf
    rw [flags]
    by_cases new : node = ⟨graph.arena.size⟩
    · exact .inl new
    · have existing : node.index ≠ graph.arena.size := fun last => new (congrArg NodeId.mk last)
      rw [congrFun alike.operation? node, Arena.operation?_push, if_neg existing] at isLeaf
      exact .inr (valid.leaves node isLeaf)
  · intro node existing
    rw [congrFun alike.operation? node, Arena.operation?_push, if_neg (Nat.ne_of_lt existing)]
  · intro node found shapedNode
    have existing : node.index ≠ graph.arena.size := by
      intro last
      rw [Arena.shape?, Arena.node?_of_size_le (Nat.le_of_eq last.symm)] at shapedNode
      cases shapedNode
    rw [congrFun alike.shape? node, Arena.shape?_push, if_neg existing]
    exact shapedNode
  · intro node part buffer owned
    have existing := index_lt_of_bufferOf? owned
    rw [Arena.bufferOf?_modify (fun _ => rfl) inside, if_neg, Arena.bufferOf?_push]
    · exact owned
    · rintro rfl
      exact absurd existing (Nat.lt_irrefl _)
  · intro node current notBefore
    obtain rfl := ((flags node).1 current).resolve_right notBefore
    rw [congrFun alike.operation? _, Arena.operation?_push, if_pos rfl]
  · intro node buffer none owned
    rw [Arena.bufferOf?_modify (fun _ => rfl) inside] at owned
    split at owned
    · exact ⟨size, provides.zero buffer owned⟩
    · rw [Arena.bufferOf?_push] at owned
      cases none.symm.trans owned

theorem ends_leaf
    (valid : graph.Valid pins)
    (shape : Shape)
    (values : Array α)
    (trainable : Bool) :
    Ends (leaf shape values trainable) graph
      (fun _ after => Keeps pins ∅ graph after)
      (fun _ after => Keeps pins ∅ graph after) := by
  unfold leaf
  rw [ends_bind_iff]
  refine ends_check ?_ fun _ => .refl valid
  intro size lifted
  have sized := Size.lift_eq_ok lifted
  dsimp only
  split
  · exact .refl valid
  next fits =>
    have length : values.size = size := not_not.1 fits
    rw [ends_bind_iff, push, ends_modifyGet_iff, ends_bind_iff, ends_onStore_iff]
    refine (Store.ends_allocateFrom valid.store values).mono ?_ fun _ _ fails => fails
    rintro content store ⟨absent, frame, claimed, -, later⟩
    rw [length] at claimed
    refine ends_neededGradient (provides_content absent later frame claimed) trainable ?_
    intro gradient last provides
    rw [ends_bind_iff, ends_modifyNode_iff]
    exact keeps_leaf trainable valid sized provides

theorem ends_scalar (valid : graph.Valid pins) (value : α) :
    Ends (scalar value) graph
      (fun _ after => Keeps pins ∅ graph after)
      (fun _ after => Keeps pins ∅ graph after) := by
  unfold scalar
  dsimp only
  rw [ends_bind_iff, ends_get_iff]
  split
  · exact .refl valid
  · rw [ends_bind_iff, push, ends_modifyGet_iff, ends_bind_iff, ends_onStore_iff]
    refine (Store.ends_allocateFrom valid.store #[value]).mono ?_ fun _ _ fails => fails
    rintro content store ⟨absent, frame, claimed, -, later⟩
    rw [ends_bind_iff, ends_modifyNode_iff, ends_bind_iff, ends_modify_iff]
    have provides := provides_content absent later frame claimed
    have keeps := keeps_leaf false valid Shape.size_scalar provides
    exact keeps.trans_empty (keeps_tables keeps.valid _ _)

/-! ## Operations -/

/-- A new operation over existing nodes. -/
theorem keeps_push
    (valid : graph.Valid pins)
    {operation : Operation}
    {shape : Shape}
    {needsGradient : Bool}
    (computed : operation ≠ .leaf)
    (sound : (graph.arena.push operation shape needsGradient).2.Sound) :
    Keeps pins ∅ graph
      { graph with arena := (graph.arena.push operation shape needsGradient).2 } := by
  refine .of_arena valid ⟨valid.toLinked.push sound, ?_⟩ ⟨?_, ?_, ?_⟩ ?_ ?_
  · intro node isLeaf
    rw [Arena.operation?_push] at isLeaf
    split at isLeaf
    · exact absurd (Option.some.inj isLeaf) computed
    · exact (Arena.isCurrent_push ..).2 (valid.leaves node isLeaf)
  · exact Arena.extends_push shape needsGradient
  · intro node found shaped
    rw [Arena.shape?_push, if_neg]
    · exact shaped
    · intro last
      rw [Arena.shape?, Arena.node?_of_size_le (Nat.le_of_eq last.symm)] at shaped
      cases shaped
  · intro node part buffer owned
    rw [Arena.bufferOf?_push]
    exact owned
  · intro node isCurrent notBefore
    exact absurd ((Arena.isCurrent_push ..).1 isCurrent) notBefore
  · intro node buffer none owned
    rw [Arena.bufferOf?_push] at owned
    cases none.symm.trans owned

omit [Element α] in
/-- An operation whose key is there gives the node that is found, and any other a new one. -/
theorem ends_intern_of_lookup
    {operation : Operation}
    {shape : Shape}
    {needsGradient : Bool}
    {done : NodeId → Graph α → Prop}
    {failed : Error → Graph α → Prop}
    (known : ∀ node, graph.interned[Key.ofOperation operation]? = some node → done node graph)
    (unknown : graph.interned[Key.ofOperation operation]? = none →
      done ⟨graph.arena.size⟩
        { graph with
          arena := (graph.arena.push operation shape needsGradient).2
          interned := graph.interned.insert (.ofOperation operation) ⟨graph.arena.size⟩ }) :
    Ends (intern operation shape needsGradient) graph done failed := by
  unfold intern
  dsimp only
  rw [ends_bind_iff, ends_get_iff]
  split
  next node found => exact known node found
  next absent =>
    rw [ends_bind_iff, push, ends_modifyGet_iff, ends_bind_iff, ends_modify_iff]
    exact unknown absent

theorem ends_intern
    (valid : graph.Valid pins)
    {operation : Operation}
    {shape : Shape}
    {needsGradient : Bool}
    (computed : operation ≠ .leaf)
    (sound : (graph.arena.push operation shape needsGradient).2.Sound) :
    Ends (intern operation shape needsGradient) graph
      (fun _ after => Keeps pins ∅ graph after)
      (fun _ after => Keeps pins ∅ graph after) := by
  refine ends_intern_of_lookup (fun _ _ => .refl valid) fun _ => ?_
  have keeps := keeps_push valid computed sound
  exact keeps.trans_empty (keeps_tables keeps.valid _ _)

theorem size_of_isScalar
    {shape : Shape}
    (single : Size.lift shape.isScalar = .ok true) :
    shape.size = .ok 1 := by
  obtain ⟨size, sized, one⟩ := bind_eq_ok_iff.1 (Size.lift_eq_ok single)
  rw [sized, of_decide_eq_true (Except.ok.inj one)]

/-- A broadcast is one of the sides, and the other has the same shape or a single element. -/
theorem broadcast_eq_ok
    {left right shape : Shape}
    (broadcast : left.broadcast right = .ok shape) :
    (left = shape ∨ left.size = .ok 1) ∧ (right = shape ∨ right.size = .ok 1) ∧
      (shape = left ∨ shape = right) := by
  obtain ⟨leftScalar, first, rest⟩ := bind_eq_ok_iff.1 broadcast
  cases leftScalar with
  | true =>
    cases rest
    exact ⟨.inr (size_of_isScalar first), .inl rfl, .inr rfl⟩
  | false =>
    obtain ⟨rightScalar, second, rest⟩ := bind_eq_ok_iff.1 rest
    cases rightScalar with
    | true =>
      cases rest
      exact ⟨.inl rfl, .inr (size_of_isScalar second), .inl rfl⟩
    | false =>
      by_cases same : left = right
      · subst same
        have equal : left = shape := by simpa [pure, Except.pure] using rest
        exact ⟨.inl equal, .inl equal, .inl equal.symm⟩
      · simp [same, throw, throwThe, MonadExceptOf.throw] at rest

/--
What the arena makes of an operation code applied to operands: the operation, its
shape, and whether gradients are needed on it.
-/
inductive Applies
    (arena : Arena)
    (opcode : OpCode) : List NodeId → Operation → Shape → Bool → Prop where
  | unary
      {operand : NodeId}
      {found : Node}
      (computes : opcode ≠ .copy)
      (arity : opcode.arity = 1)
      (present : arena.node? operand = some found) :
      Applies arena opcode [operand] (.unary opcode operand) found.shape found.needsGradient
  | binary
      {left right : NodeId}
      {foundLeft foundRight : Node}
      {shape : Shape}
      (computes : opcode ≠ .copy)
      (arity : opcode.arity = 2)
      (presentLeft : arena.node? left = some foundLeft)
      (presentRight : arena.node? right = some foundRight)
      (broadcast : foundLeft.shape.broadcast foundRight.shape = .ok shape) :
      Applies arena opcode [left, right] (.binary opcode left right) shape
        (foundLeft.needsGradient || foundRight.needsGradient)

section

variable
    {opcode : OpCode}
    {operands : List NodeId}
    {operation : Operation}
    {shape : Shape}
    {needsGradient : Bool}

theorem Applies.computed
    {arena : Arena}
    (applies : Applies arena opcode operands operation shape needsGradient) :
    operation ≠ .leaf := by
  cases applies <;> nofun

/-- A node for an operation that applies leaves the arena sound. -/
theorem Applies.sound
    {arena : Arena}
    (applies : Applies arena opcode operands operation shape needsGradient)
    (sound : arena.Sound) :
    (arena.push operation shape needsGradient).2.Sound := by
  have existing : ∀ node found, arena.node? node = some found → node.index < arena.size := by
    intro node found present
    rw [← Arena.node?_isSome_iff, present]
    rfl
  have shaped : ∀ node found, arena.node? node = some found →
      arena.shape? node = some found.shape := by
    intro node found present
    rw [Arena.shape?, present, Option.map_some]
  cases applies with
  | @unary operand found computes arity present =>
    refine Arena.Sound.push _ _ sound ?_ ?_ ?_ ?_
    · intro other member
      obtain rfl := List.mem_singleton.1 member
      exact existing other found present
    · intro code left right parts
      cases parts
      refine ⟨?_, computes⟩
      rw [OpCode.isBinary, arity]
      rfl
    · exact sound.sized operand found.shape (shaped operand found present)
    · intro other member below shapedBelow
      obtain rfl := List.mem_singleton.1 member
      rw [shaped other found present] at shapedBelow
      exact .inl (Option.some.inj shapedBelow).symm
  | @binary left right foundLeft foundRight shape computes arity presentLeft
      presentRight broadcast =>
    obtain ⟨leftFits, rightFits, isSide⟩ := broadcast_eq_ok broadcast
    have shapedLeft := shaped left foundLeft presentLeft
    have shapedRight := shaped right foundRight presentRight
    refine Arena.Sound.push _ _ sound ?_ ?_ ?_ ?_
    · intro other member
      rcases List.mem_pair.1 member with rfl | rfl
      · exact existing other foundLeft presentLeft
      · exact existing other foundRight presentRight
    · intro code first second parts
      cases parts
      refine ⟨?_, computes⟩
      rw [OpCode.isBinary, arity]
      rfl
    · rcases isSide with rfl | rfl
      · exact sound.sized left _ shapedLeft
      · exact sound.sized right _ shapedRight
    · intro other member below shapedBelow
      rcases List.mem_pair.1 member with rfl | rfl
      · rw [shapedLeft] at shapedBelow
        cases shapedBelow
        exact leftFits
      · rw [shapedRight] at shapedBelow
        cases shapedBelow
        exact rightFits

omit [Element α] in
/-- Creating a node interns the operation that applies, and is refused if none does. -/
theorem ends_create_of_intern
    {done : NodeId → Graph α → Prop}
    {failed : Error → Graph α → Prop}
    (interns : ∀ operation shape needsGradient,
      Applies graph.arena opcode operands operation shape needsGradient →
      Ends (intern operation shape needsGradient) graph done failed)
    (refused : ∀ reason,
      (∀ operation shape needsGradient,
        ¬ Applies graph.arena opcode operands operation shape needsGradient) →
      failed reason graph) :
    Ends (create opcode operands) graph done failed := by
  unfold create
  dsimp only
  split
  next copies =>
    refine refused _ fun _ _ _ applies => ?_
    cases applies with
    | unary computes => exact computes copies
    | binary computes => exact computes copies
  next computes =>
    split
    next arity =>
      refine refused _ fun _ _ _ applies => ?_
      cases applies with
      | unary _ fits => exact arity fits.symm
      | binary _ fits => exact arity fits.symm
    next arity =>
      have fits := not_not.1 arity
      split
      next operand =>
        rw [ends_bind_iff]
        refine ends_node (fun found present => interns _ _ _ (.unary computes fits.symm present)) ?_
        refine fun absent => refused _ fun _ _ _ applies => ?_
        cases applies with
        | unary _ _ present => exact nomatch absent.symm.trans present
      next left right =>
        rw [ends_bind_iff]
        refine ends_node (fun foundLeft presentLeft => ?_) fun absent => ?_
        · rw [ends_bind_iff]
          refine ends_node (fun foundRight presentRight => ?_) fun absent => ?_
          · rw [ends_bind_iff]
            cases broadcast : foundLeft.shape.broadcast foundRight.shape with
            | ok shape =>
              exact interns _ _ _ (.binary computes fits.symm presentLeft presentRight broadcast)
            | error reason =>
              refine refused _ fun _ _ _ applies => ?_
              cases applies with
              | binary _ _ againLeft againRight fitting =>
                cases presentLeft.symm.trans againLeft
                cases presentRight.symm.trans againRight
                exact nomatch broadcast.symm.trans fitting
          · refine refused _ fun _ _ _ applies => ?_
            cases applies with
            | binary _ _ _ present => exact nomatch absent.symm.trans present
        · refine refused _ fun _ _ _ applies => ?_
          cases applies with
          | binary _ _ present => exact nomatch absent.symm.trans present
      next notOne notTwo =>
        refine refused _ fun _ _ _ applies => ?_
        cases applies with
        | unary => exact notOne _ rfl
        | binary => exact notTwo _ _ rfl

end

theorem ends_create
    (valid : graph.Valid pins)
    (opcode : OpCode)
    (operands : List NodeId) :
    Ends (create opcode operands) graph
      (fun _ after => Keeps pins ∅ graph after)
      (fun _ after => Keeps pins ∅ graph after) :=
  ends_create_of_intern
    (fun _ _ _ applies => ends_intern valid applies.computed (applies.sound valid.arena))
    fun _ _ => .refl valid

theorem ends_chain
    (valid : graph.Valid pins)
    (opcode : OpCode)
    (count : Nat)
    (node : NodeId) :
    Ends (chain opcode count node) graph
      (fun _ after => Keeps pins ∅ graph after)
      (fun _ after => Keeps pins ∅ graph after) := by
  induction count generalizing graph node with
  | zero => exact .refl valid
  | succ count step =>
    rw [chain, ends_bind_iff]
    refine (ends_create valid opcode _).mono ?_ fun _ _ keeps => keeps
    intro next middle first
    refine (step first.valid next).mono ?_ ?_
    · exact fun _ _ second => first.trans_empty second
    · exact fun _ _ second => first.trans_empty second

/-! ## An empty graph -/

theorem frame_dropStorage
    {store : Store α}
    (valid : store.Valid)
    (node : Node) :
    ∃ made, Store.Frame made ∅ store (dropStorage store node) := by
  unfold dropStorage
  split
  · exact ⟨_, .refl valid⟩
  next storage stored =>
    have content : Store.Frame {storage.content} ∅ store (store.drop storage.content) :=
      Store.frame_reclaim_only valid Store.revises_drop
    cases storage.gradient with
    | none => exact ⟨_, content⟩
    | some buffer =>
      have gradient : Store.Frame {buffer} ∅ (store.drop storage.content)
          ((store.drop storage.content).drop buffer) :=
        Store.frame_reclaim_only content.valid Store.revises_drop
      have both := content.trans gradient
      rw [Set.union_empty] at both
      exact ⟨_, both⟩

theorem frame_dropStorages
    {store : Store α}
    (valid : store.Valid)
    (nodes : List Node) :
    ∃ made, Store.Frame made ∅ store (nodes.foldl dropStorage store) := by
  induction nodes generalizing store with
  | nil => exact ⟨_, .refl valid⟩
  | cons node nodes step =>
    obtain ⟨made, first⟩ := frame_dropStorage valid node
    obtain ⟨laterMade, rest⟩ := step first.valid
    have both := first.trans rest
    rw [Set.union_empty] at both
    exact ⟨_, both⟩

omit [Element α] in
/-- A graph without nodes is valid if its store is. -/
theorem valid_empty
    (store : graph.store.Valid)
    (pinned : ∀ buffer : BufferId, graph.store.nextIndex ≤ buffer.index → pins buffer = 0)
    (nodes : graph.arena = Arena.empty)
    (scripts : graph.scripts = Table.empty) :
    graph.Valid pins := by
  have absent : ∀ node : NodeId, graph.arena.node? node = none := by
    intro node
    rw [nodes]
    rfl
  have unowned : ∀ node part, graph.arena.bufferOf? node part = none := by
    intro node part
    cases part <;> rw [Arena.bufferOf?, absent] <;> rfl
  refine ⟨⟨nodes ▸ Arena.sound_empty, store, pinned, ?_, ?_, ?_, ?_⟩, ?_⟩
  · intro node part buffer shape size owned
    rw [unowned] at owned
    cases owned
  · intro node other part otherPart buffer owned
    rw [unowned] at owned
    cases owned
  · rintro node ⟨found, present, -⟩
    rw [absent] at present
    cases present
  · intro node script kept
    rw [scripts, Table.get?_empty] at kept
    cases kept
  · intro node isLeaf
    rw [Arena.operation?, absent] at isLeaf
    cases isLeaf

theorem valid_clear (valid : graph.Valid pins) : graph.clear.Valid pins := by
  obtain ⟨made, frame⟩ := frame_dropStorages valid.store graph.arena.nodes.toList
  rw [Array.foldl_toList] at frame
  refine valid_empty frame.valid ?_ rfl rfl
  intro buffer later
  exact valid.pinned buffer (Nat.le_trans frame.nextIndex later)

/-- A graph without nodes is coherent. -/
theorem coherent_empty (nodes : graph.arena = Arena.empty) : graph.Coherent := by
  rintro node shape size ⟨found, present, -⟩
  rw [nodes] at present
  cases present

end Elementwise.Graph
