import Elementwise.Proofs.Graph.Session

/-!
# What lasts of a graph

What a node computes, its shape, its users and whether gradients are needed on
it are set when nodes are made and touched by nothing else.  So a condition on
them holds of every reachable graph as soon as it outlasts the nodes that are
added, and as long as a graph is not cleared no node changes its operation or
its shape.
-/

namespace Elementwise

/-! ## Conditions on what is set when nodes are made -/

/-- The part of a node that is set when nodes are made. -/
def Node.nature (node : Node) : (Operation × Shape × List NodeId) × Bool :=
  (node.core, node.needsGradient)

namespace Arena

variable
    {arena other : Arena}
    {node : NodeId}

/-- Whether gradients are needed on a node. -/
def needsGradient? (arena : Arena) (node : NodeId) : Option Bool :=
  (arena.node? node).map (·.needsGradient)

theorem needsGradient?_push
    (arena : Arena)
    (operation : Operation)
    (shape : Shape)
    (needsGradient : Bool)
    (node : NodeId) :
    (arena.push operation shape needsGradient).2.needsGradient? node =
      if node.index = arena.size then some needsGradient else arena.needsGradient? node := by
  rw [needsGradient?, node?_push]
  split
  · rfl
  · rw [Option.map_map, needsGradient?]
    refine Option.map_congr fun found _ => ?_
    rw [Function.comp_apply]
    split
    · rw [Node.addUser_eq]
    · rfl

/-- Arenas that agree in everything that is set when nodes are made. -/
def Akin (arena other : Arena) : Prop :=
  ∀ node, (other.node? node).map Node.nature = (arena.node? node).map Node.nature

theorem Akin.alike (akin : arena.Akin other) : arena.Alike other := by
  intro node
  have same := congrArg (Option.map Prod.fst) (akin node)
  rwa [Option.map_map, Option.map_map] at same

theorem Akin.needsGradient? (akin : arena.Akin other) :
    other.needsGradient? = arena.needsGradient? := by
  funext node
  have same := congrArg (Option.map Prod.snd) (akin node)
  rwa [Option.map_map, Option.map_map] at same

theorem akin_modify
    (arena : Arena)
    (node : NodeId)
    (change : Node → Node)
    (keeps : ∀ found, (change found).nature = found.nature) :
    arena.Akin (arena.modify node change) := by
  intro other
  rw [node?_modify]
  split
  · rw [Option.map_map]
    exact Option.map_congr fun found _ => keeps found
  · rfl

theorem akin_invalidate (source : NodeId) : arena.Akin (arena.invalidate source) := by
  intro node
  rw [node?_invalidate, Option.map_map]
  refine Option.map_congr fun found _ => ?_
  rw [Function.comp_apply]
  split
  · rfl
  · rfl

/--
A condition on sound arenas that concerns only what is set when nodes are made, and that no
new node breaks.
-/
structure Lasting (holds : Arena → Prop) : Prop where
  sound : ∀ arena, holds arena → arena.Sound
  akin : ∀ arena other, arena.Akin other → holds arena → holds other
  push : ∀ arena operation shape needsGradient, holds arena →
    (operation ≠ .leaf → ∃ opcode operands,
      Graph.Applies arena opcode operands operation shape needsGradient) →
    (arena.push operation shape needsGradient).2.Sound →
    holds (arena.push operation shape needsGradient).2

/--
A condition on sound arenas that concerns only what is set when nodes are made, and that no
new operation breaks.
-/
structure Durable (holds : Arena → Prop) : Prop where
  sound : ∀ arena, holds arena → arena.Sound
  akin : ∀ arena other, arena.Akin other → holds arena → holds other
  push : ∀ arena opcode operands operation shape needsGradient, holds arena →
    Graph.Applies arena opcode operands operation shape needsGradient →
    holds (arena.push operation shape needsGradient).2

theorem Lasting.durable
    {holds : Arena → Prop}
    (lasting : Lasting holds) :
    Durable holds where
  sound := lasting.sound
  akin := lasting.akin
  push arena opcode operands operation shape needsGradient held applies :=
    lasting.push arena operation shape needsGradient held
      (fun _ => ⟨opcode, operands, applies⟩) (applies.sound (lasting.sound arena held))

/-- Nodes that are there keep their operation and their shape. -/
structure Retains (before after : Arena) : Prop where
  operation : ∀ node operation, before.operation? node = some operation →
    after.operation? node = some operation
  shape : ∀ node shape, before.shape? node = some shape → after.shape? node = some shape

theorem Retains.refl (arena : Arena) : arena.Retains arena :=
  ⟨fun _ _ found => found, fun _ _ found => found⟩

theorem index_ne_size
    {found : Operation}
    (computes : arena.operation? node = some found) :
    node.index ≠ arena.size := by
  intro last
  rw [Arena.operation?, node?_of_size_le (Nat.le_of_eq last.symm)] at computes
  cases computes

theorem index_ne_size_of_shape?
    {shape : Shape}
    (shaped : arena.shape? node = some shape) :
    node.index ≠ arena.size := by
  intro last
  rw [Arena.shape?, node?_of_size_le (Nat.le_of_eq last.symm)] at shaped
  cases shaped

/-- The operands of a node are older than a node that is added. -/
theorem index_ne_size_of_mem_operands
    {operation : Operation}
    {shape : Shape}
    {needsGradient : Bool}
    (sound : (arena.push operation shape needsGradient).2.Sound)
    {node operand : NodeId}
    (among : operand ∈ (arena.push operation shape needsGradient).2.operands node) :
    operand.index ≠ arena.size := by
  intro last
  have before := sound.ordered node operand among
  have inside := lt_size_of_mem_operands among
  rw [size_push] at inside
  omega

theorem lasting_retains (earlier : Arena) :
    Lasting fun arena => arena.Sound ∧ earlier.Retains arena where
  sound _ held := held.1
  akin arena other akin held := by
    refine ⟨akin.alike.sound held.1, ?_, ?_⟩
    · rw [akin.alike.operation?]
      exact held.2.operation
    · rw [akin.alike.shape?]
      exact held.2.shape
  push arena operation shape needsGradient held _ sound := by
    refine ⟨sound, fun node found computes => ?_, fun node found shaped => ?_⟩
    · have old := held.2.operation node found computes
      rw [operation?_push, if_neg (index_ne_size old), old]
    · have old := held.2.shape node found shaped
      rw [shape?_push, if_neg (index_ne_size_of_shape? old), old]

/-- The shape of an operation is that of one of its operands. -/
def Sided (arena : Arena) : Prop :=
  ∀ node shape operand, arena.shape? node = some shape → operand ∈ arena.operands node →
    ∃ side ∈ arena.operands node, arena.shape? side = some shape

theorem lasting_sided : Lasting fun arena => arena.Sound ∧ arena.Sided where
  sound _ held := held.1
  akin arena other akin held := by
    refine ⟨akin.alike.sound held.1, ?_⟩
    unfold Sided
    rw [akin.alike.shape?, akin.alike.operands]
    exact held.2
  push arena operation shape needsGradient held made sound := by
    refine ⟨sound, fun node found operand shaped member => ?_⟩
    have kept : ∀ {side below}, arena.shape? side = some below →
        (arena.push operation shape needsGradient).2.shape? side = some below := by
      intro side below shapedSide
      rw [shape?_push, if_neg (index_ne_size_of_shape? shapedSide), shapedSide]
    rw [operands_push] at member ⊢
    rw [shape?_push] at shaped
    split at member
    next last =>
      rw [if_pos last] at shaped
      cases shaped
      rw [if_pos last]
      have computed : operation ≠ .leaf := by
        rintro rfl
        cases member
      obtain ⟨opcode, operands, applies⟩ := made computed
      cases applies with
      | @unary operand below computes arity present =>
        refine ⟨operand, List.mem_singleton.2 rfl, kept ?_⟩
        rw [Arena.shape?, present, Option.map_some]
      | @binary left right foundLeft foundRight shape computes arity presentLeft
          presentRight broadcast =>
        obtain ⟨-, -, rfl | rfl⟩ := Graph.broadcast_eq_ok broadcast
        · refine ⟨left, List.mem_pair.2 (.inl rfl), kept ?_⟩
          rw [Arena.shape?, presentLeft, Option.map_some]
        · refine ⟨right, List.mem_pair.2 (.inr rfl), kept ?_⟩
          rw [Arena.shape?, presentRight, Option.map_some]
    next earlier =>
      rw [if_neg earlier] at shaped ⊢
      obtain ⟨side, among, shapedSide⟩ := held.2 node found operand shaped member
      exact ⟨side, among, kept shapedSide⟩

end Arena

namespace Graph

variable
    {α β : Type}
    [Element α]
    {graph : Graph α}
    {output : NodeId}

namespace Durable

variable
    {holds : Arena → Prop}
    (durable : Arena.Durable holds)

include durable

omit [Element α] in
theorem create
    (opcode : OpCode)
    (operands : List NodeId) :
    Preserves (OnArena holds) (Graph.create opcode operands : Action α NodeId) := by
  intro graph held
  refine ends_create_of_intern (fun operation shape needsGradient applies => ?_) fun _ _ => held
  exact ends_intern_of_lookup (fun _ _ => held) fun _ =>
    durable.push _ _ _ _ _ _ held applies

omit [Element α] in
theorem markOutput : Preserves (OnArena holds) (Graph.markOutput output : Action α Unit) := by
  refine .bind (preserves_node _) fun found => .bind (.modify fun graph held => ?_) fun _ => ?_
  · exact durable.akin _ _ (Arena.akin_modify _ _ _ fun _ => rfl) held
  dsimp only
  split
  · refine .bind (preserves_check _) fun size => .bind (preserves_onStore _) fun content => ?_
    intro graph held
    refine ends_gradientIfNeeded found.needsGradient fun gradient store _ => ?_
    rw [ends_modifyNode_iff]
    exact durable.akin _ _ (Arena.akin_modify _ _ _ fun _ => rfl) held
  · exact .pure _

/-- Operations that make no leaf keep what withstands new operations. -/
theorem sustained : Sustained (OnArena holds : Graph α → Prop) where
  create := create durable
  markOutput _ := markOutput durable
  onStore _ := preserves_onStore _
  scripts _ _ held := held
  forgets _ _ _ held _ := held
  current _ _ held := durable.akin _ _ (Arena.akin_modify _ _ _ fun _ => rfl) held
  invalidate _ source held := durable.akin _ _ (Arena.akin_invalidate source) held

end Durable

namespace Lasting

variable
    {holds : Arena → Prop}
    (lasting : Arena.Lasting holds)

include lasting

omit [Element α] in
/-- A new leaf, whose flags and storage are set. -/
theorem push_leaf
    {arena : Arena}
    {shape : Shape}
    {size : Nat}
    (held : holds arena)
    (sized : shape.size = .ok size)
    (needsGradient : Bool)
    {change : Node → Node}
    (nature : ∀ found, (change found).nature = found.nature) :
    holds ((arena.push .leaf shape needsGradient).2.modify ⟨arena.size⟩ change) := by
  have sound : (arena.push .leaf shape needsGradient).2.Sound :=
    .push _ _ (lasting.sound _ held) nofun nofun ⟨size, sized⟩ nofun
  refine lasting.akin _ _ (Arena.akin_modify _ _ change nature) ?_
  exact lasting.push _ _ _ _ held (fun computed => absurd rfl computed) sound

omit [Element α] in
theorem leaf
    (shape : Shape)
    (values : Array α)
    (trainable : Bool) :
    Preserves (OnArena holds) (Graph.leaf shape values trainable) := by
  intro graph held
  unfold Graph.leaf
  rw [ends_bind_iff]
  refine ends_check (fun size lifted => ?_) fun _ => held
  dsimp only
  split
  · exact held
  · rw [ends_bind_iff, Graph.push, ends_modifyGet_iff, ends_bind_iff, ends_onStore_iff,
      Store.allocateFrom, ends_modifyGet_iff]
    refine ends_gradientIfNeeded trainable fun gradient store _ => ?_
    rw [ends_bind_iff, ends_modifyNode_iff, ends_pure_iff]
    exact push_leaf lasting held (Size.lift_eq_ok lifted) trainable fun _ => rfl

theorem scalar (value : α) : Preserves (OnArena holds) (Graph.scalar value) := by
  intro graph held
  unfold Graph.scalar
  dsimp only
  rw [ends_bind_iff, ends_get_iff]
  split
  · exact held
  · rw [ends_bind_iff, Graph.push, ends_modifyGet_iff, ends_bind_iff, ends_onStore_iff,
      Store.allocateFrom, ends_modifyGet_iff, ends_bind_iff, ends_modifyNode_iff, ends_bind_iff,
      ends_modify_iff, ends_pure_iff]
    exact push_leaf lasting held Shape.size_scalar false fun _ => rfl

/-- Operations keep what concerns only what is set when nodes are made. -/
theorem upheld : Upheld (OnArena holds : Graph α → Prop) where
  toSustained := Durable.sustained lasting.durable
  leaf := leaf lasting
  scalar := scalar lasting

end Lasting

/-! ## Runs of requests -/

namespace Session

variable
    {session : Session α}
    {commands : List (Command α)}

/-- A condition that concerns no store is kept by requests for buffers and leases. -/
theorem preserves_aside
    {holds : Graph α → Prop}
    (onStore : ∀ graph store, holds graph → holds { graph with store := store })
    {command : Command α}
    (aside : command.isOperation = false)
    (kept : command ≠ .clear) :
    Preserves (fun session : Session α => holds session.graph) (perform command) := by
  have stored : ∀ {β : Type} (action : Store.Action α β),
      Preserves (fun session : Session α => holds session.graph)
        (onGraph (Graph.onStore action)) := by
    intro β action
    refine preserves_onGraph fun graph held => ?_
    rw [ends_onStore_iff]
    unfold Ends
    split
    · exact onStore graph _ held
    · exact onStore graph _ held
  have onBuffer : ∀ node part action,
      Preserves (fun session : Session α => holds session.graph)
        (onBuffer node part action) := by
    intro node part action
    refine .bind (preserves_bufferOf node part) fun found => ?_
    split
    · exact .bind (stored _) fun _ => .pure _
    · exact .pure _
  intro session held
  cases command with
  | clear => exact absurd rfl kept
  | offload target device => exact (stored _).map session held
  | ensure node part tier => exact onBuffer _ _ _ session held
  | release node part => exact onBuffer _ _ _ session held
  | pin node part tier =>
    have pins : Preserves (fun session : Session α => holds session.graph)
        (pinNext node part tier) := by
      refine .bind (.modifyGet fun _ held => held) fun index =>
        .bind (preserves_bufferOf node part) fun found => ?_
      split
      · exact .pure _
      · exact .bind (stored _) fun _ =>
          .bind (.modify fun session held => onStore session.graph _ held) fun _ => .pure _
    exact pins session held
  | unpin pin =>
    show Ends (do modify (endPin pin); return _) session _ _
    rw [ends_bind_iff, ends_modify_iff]
    unfold endPin
    split
    · exact onStore session.graph _ held
    · exact held
  | _ => cases aside

/--
A condition that concerns no store is kept by every request but the one to clear the graph, if
the operations that concern no leaf keep it and the others keep it here.
-/
theorem ends_perform_of_settled
    {holds : Graph α → Prop}
    (settled : Settled holds)
    (onStore : ∀ graph store, holds graph → holds { graph with store := store })
    (held : holds session.graph)
    {command : Command α}
    (kept : command ≠ .clear)
    (leaves : command.concernsLeaf = true → Ends (perform command) session
      (fun _ after => holds after.graph ∧ after.pins = session.pins)
      (fun _ after => holds after.graph ∧ after.pins = session.pins)) :
    Ends (perform command) session (fun _ after => holds after.graph)
      (fun _ after => holds after.graph) := by
  cases operation : command.isOperation with
  | true =>
    exact (ends_operation_of_settled settled held operation leaves).mono
      (fun _ _ after => after.1) fun _ _ after => after.1
  | false => exact preserves_aside onStore operation kept session held

/--
A condition that concerns no store and that all operations keep is kept by every request but
the one to clear the graph.
-/
theorem preserves_perform_of_upheld
    {holds : Graph α → Prop}
    (upheld : Upheld holds)
    (onStore : ∀ graph store, holds graph → holds { graph with store := store })
    {command : Command α}
    (kept : command ≠ .clear) :
    Preserves (fun session : Session α => holds session.graph) (perform command) := by
  cases operation : command.isOperation with
  | true =>
    intro session held
    exact (ends_operation upheld held operation).mono (fun _ _ after => after.1)
      fun _ _ after => after.1
  | false => exact preserves_aside onStore operation kept

/--
A condition on arenas that the operations keep is kept by every request but the one to clear
the graph.  Where no leaf is asked for, none of the operations that make one has to keep it.
-/
theorem arena_perform
    {holds : Arena → Prop}
    (sustained : Sustained (OnArena holds : Graph α → Prop))
    {command : Command α}
    (kept : command ≠ .clear)
    (leaf : ∀ shape values trainable, command = .leaf shape values trainable →
      Preserves (OnArena holds) (Graph.leaf shape values trainable))
    (scalar : ∀ value, command = .scalar value → Preserves (OnArena holds) (Graph.scalar value)) :
    Preserves (fun session : Session α => holds session.graph.arena) (perform command) := by
  cases operation : command.isOperation with
  | true =>
    intro session held
    exact (ends_operation_of_sustained sustained held operation leaf scalar).mono
      (fun _ _ after => after.1) fun _ _ after => after.1
  | false =>
    have unconcerned : ∀ (graph : Graph α) (store : Store α), OnArena holds graph →
        OnArena holds { graph with store := store } := fun _ _ held => held
    exact preserves_aside unconcerned operation kept

/-- What outlasts new nodes is kept by every request but the one to clear the graph. -/
theorem lasting_perform
    {holds : Arena → Prop}
    (lasting : Arena.Lasting holds)
    {command : Command α}
    (kept : command ≠ .clear) :
    Preserves (fun session : Session α => holds session.graph.arena) (perform command) :=
  arena_perform (Lasting.upheld lasting).toSustained kept
    (fun shape values trainable _ => Lasting.leaf lasting shape values trainable)
    fun value _ => Lasting.scalar lasting value

/-- What outlasts new nodes and holds of an empty graph holds after every run. -/
theorem lasting_run
    {holds : Arena → Prop}
    (lasting : Arena.Lasting holds)
    (empty : holds Arena.empty)
    (held : holds session.graph.arena)
    (commands : List (Command α)) :
    holds (session.run commands).graph.arena := by
  have each : ∀ command ∈ commands,
      Preserves (fun session : Session α => holds session.graph.arena) (perform command) := by
    intro command _
    by_cases cleared : command = .clear
    · subst cleared
      exact fun _ _ => empty
    · exact lasting_perform lasting cleared
  exact run_of_preserves each held

theorem retains_step
    (sound : session.graph.arena.Sound)
    {command : Command α}
    (kept : command ≠ .clear) :
    session.graph.arena.Retains (session.step command).2.graph.arena := by
  have keeps : Preserves (fun later : Session α =>
      later.graph.arena.Sound ∧ session.graph.arena.Retains later.graph.arena) (perform command) :=
    lasting_perform (Arena.lasting_retains session.graph.arena) kept
  exact (step_of_ends (keeps session ⟨sound, Arena.Retains.refl _⟩)).2

/-- Nodes keep their operation and their shape as long as the graph is not cleared. -/
theorem retains_run
    (sound : session.graph.arena.Sound)
    (kept : ∀ command ∈ commands, command ≠ .clear) :
    session.graph.arena.Retains (session.run commands).graph.arena := by
  have each : ∀ command ∈ commands, Preserves (fun later : Session α =>
      later.graph.arena.Sound ∧ session.graph.arena.Retains later.graph.arena) (perform command) :=
    fun command member => lasting_perform (Arena.lasting_retains session.graph.arena)
      (kept command member)
  exact (run_of_preserves each ⟨sound, Arena.Retains.refl _⟩).2

variable
    {capacity : Nat}
    {device : DeviceId}
    {unsupported : List OpCode}
    {faults : Method → Nat → Option DeviceError}
    {config : Config}

theorem sided_of_run
    (reached : (start capacity device unsupported faults config).run commands = session) :
    session.graph.arena.Sided := by
  have empty : Arena.empty.Sound ∧ Arena.empty.Sided :=
    ⟨Arena.sound_empty, fun _ _ _ shaped _ => by cases shaped⟩
  rw [← reached]
  exact (lasting_run Arena.lasting_sided empty empty commands).2

end Session

end Graph

end Elementwise
