import Elementwise.Proofs.Gradient.Simulation
import Elementwise.Proofs.Graph.Preservation
import Elementwise.Proofs.Graph.Renaming

/-!
# Graphs in step

Two graphs mirror each other if they have the same nodes, tables and reduction
width, up to the names of their buffers.  If their stores simulate each other
as well, then every operation on the two is in step, since it treats the stores
in the same way and reads nothing of the nodes but what is the same.
-/

namespace Elementwise.Graph

open Store (Simulation)

variable {α β γ : Type}

/-- Graphs that are the same up to the names of their buffers, stores apart. -/
structure Mirrors (name : BufferId → BufferId) (left right : Graph α) : Prop where
  arena : right.arena = left.arena.rename name
  interned : right.interned = left.interned
  constants : right.constants = left.constants
  scripts : right.scripts = left.scripts
  fanIn : right.config.fanIn = left.config.fanIn

section

variable
    [Arithmetic α]
    {simulation : Simulation α}

/-- Graphs that mirror each other on stores that belong together. -/
def coupling (simulation : Simulation α) : Coupling Error (Graph α) where
  related left right :=
    Mirrors simulation.name left right ∧ simulation.related left.store right.store
  failed reason other left right :=
    Mirrors simulation.name left right ∧ simulation.failed reason other left.store right.store
  parts := simulation.parts

/-! ## The parts of operations -/

omit [Arithmetic α] in
theorem onStore_eq_ok
    {action : Store.Action α β}
    {graph after : Graph α}
    {answer : β}
    (ran : onStore action graph = .ok answer after) :
    ∃ store, action graph.store = .ok answer store ∧ { graph with store := store } = after := by
  unfold onStore at ran
  split at ran
  next outcome =>
    cases ran
    exact ⟨_, outcome, rfl⟩
  · cases ran

omit [Arithmetic α] in
theorem onStore_eq_error
    {action : Store.Action α β}
    {graph after : Graph α}
    {reason : Error}
    (ran : onStore action graph = .error reason after) :
    ∃ store, action graph.store = .error reason store ∧ { graph with store := store } = after := by
  unfold onStore at ran
  split at ran
  · cases ran
  next outcome =>
    cases ran
    exact ⟨_, outcome, rfl⟩

omit [Arithmetic α] in
theorem Mirrors.onStores
    {name : BufferId → BufferId}
    {left right : Graph α}
    (mirrors : left.Mirrors name right)
    (store storeOther : Store α) :
    Mirrors name { left with store := store } { right with store := storeOther } :=
  ⟨mirrors.arena, mirrors.interned, mirrors.constants, mirrors.scripts, mirrors.fanIn⟩

theorem simulates_onStore
    {change : β → γ}
    {first : Store.Action α β}
    {second : Store.Action α γ}
    (simulates : simulation.Simulates change first second) :
    (coupling simulation).Simulates change (onStore first) (onStore second) := by
  rintro left right ⟨mirrors, same⟩
  have inStep := simulates _ _ same
  constructor
  case answers =>
    intro _ _ _ _ ran ranOther
    obtain ⟨store, here, rfl⟩ := onStore_eq_ok ran
    obtain ⟨storeOther, hereOther, rfl⟩ := onStore_eq_ok ranOther
    obtain ⟨answers, same⟩ := inStep.answers _ _ _ _ here hereOther
    exact ⟨answers, mirrors.onStores _ _, same⟩
  case reasons =>
    intro _ _ _ _ ran ranOther
    obtain ⟨store, here, rfl⟩ := onStore_eq_error ran
    obtain ⟨storeOther, hereOther, rfl⟩ := onStore_eq_error ranOther
    exact (inStep.reasons _ _ _ _ here hereOther).imp_right fun failed =>
      ⟨mirrors.onStores _ _, failed⟩
  case ahead =>
    intro _ _ _ _ ran ranOther
    obtain ⟨_, here, -⟩ := onStore_eq_ok ran
    obtain ⟨_, hereOther, -⟩ := onStore_eq_error ranOther
    exact inStep.ahead _ _ _ _ here hereOther
  case behind =>
    intro _ _ _ _ ran ranOther
    obtain ⟨_, here, -⟩ := onStore_eq_error ran
    obtain ⟨_, hereOther, -⟩ := onStore_eq_ok ranOther
    exact inStep.behind _ _ _ _ here hereOther

theorem failed_of_nameless
    {reason : Error}
    {left right : Graph α}
    (nameless : ∀ name, reason.rename name = reason)
    (same : (coupling simulation).related left right) :
    (coupling simulation).failed reason reason left right :=
  ⟨same.1, Simulation.failed_of_nameless nameless same.2⟩

theorem simulates_throw
    {change : β → γ}
    {reason : Error}
    (nameless : ∀ name, reason.rename name = reason) :
    (coupling simulation).Simulates change (MonadExcept.throw reason)
      (MonadExcept.throw reason) :=
  .throw fun _ _ same => failed_of_nameless nameless same

theorem simulates_check
    {result : Except Error β}
    (nameless : Nameless result) :
    (coupling simulation).Simulates id (check result) (check result) := by
  cases result with
  | ok answer => exact .pure rfl
  | error reason => exact simulates_throw (nameless reason rfl)

/-- A change of the arena alone. -/
theorem related_of_arena
    {left right : Graph α}
    {arena other : Arena}
    (same : (coupling simulation).related left right)
    (renamed : other = arena.rename simulation.name) :
    (coupling simulation).related { left with arena := arena } { right with arena := other } :=
  ⟨{ same.1 with arena := renamed }, same.2⟩

theorem simulates_node (node : NodeId) :
    (coupling simulation).Simulates (Node.rename simulation.name) (Graph.node node)
      (Graph.node node) := by
  refine .get_bind fun left right same => ?_
  rw [same.1.arena, Arena.node?_rename]
  cases left.arena.node? node with
  | none => exact simulates_throw (fun _ => rfl) left right same
  | some found => exact inStep_pure ⟨rfl, same⟩

theorem simulates_modifyNode
    (node : NodeId)
    {change changeOther : Node → Node}
    (each : ∀ found, (change found).rename simulation.name =
      changeOther (found.rename simulation.name)) :
    (coupling simulation).Simulates id (modifyNode node change) (modifyNode node changeOther) :=
  .modify fun left right same => related_of_arena same (by
    rw [same.1.arena, left.arena.rename_modify node each])

theorem simulates_content (node : NodeId) :
    (coupling simulation).Simulates simulation.name (content node) (content node) := by
  refine .bind (simulates_node node) fun found => ?_
  rw [found.content?_rename]
  cases found.content? with
  | none => exact simulates_throw fun _ => rfl
  | some buffer => exact .pure rfl

theorem simulates_gradientBuffer (node : NodeId) :
    (coupling simulation).Simulates simulation.name (gradientBuffer node)
      (gradientBuffer node) := by
  refine .bind (simulates_node node) fun found => ?_
  rw [found.gradient?_rename]
  cases found.gradient? with
  | none => exact simulates_throw fun _ => rfl
  | some buffer => exact .pure rfl

theorem simulates_invalidate (node : NodeId) :
    (coupling simulation).Simulates id
      (modify fun graph => { graph with arena := graph.arena.invalidate node } : Action α Unit)
      (modify fun graph => { graph with arena := graph.arena.invalidate node }) :=
  .modify fun left right same => related_of_arena same (by
    rw [same.1.arena, left.arena.rename_invalidate])

theorem simulates_sizeOf (node : NodeId) :
    (coupling simulation).Simulates id (sizeOf node) (sizeOf node) :=
  .bind (simulates_node node) fun _ => simulates_check (nameless_lift _)

theorem simulates_compile (output : NodeId) :
    (coupling simulation).Simulates id (compile output) (compile output) := by
  refine .get_bind fun left right same => ?_
  rw [same.1.arena, left.arena.alike_rename.compile]
  refine (simulates_check (nameless_compile _ _) left right same).bind fun script =>
    .bind (.modify ?_) fun _ => .pure rfl
  rintro left right ⟨mirrors, stores⟩
  exact ⟨{ mirrors with scripts := congrArg (·.insert output script) mirrors.scripts }, stores⟩

theorem simulates_script (output : NodeId) :
    (coupling simulation).Simulates id (script output) (script output) := by
  refine .get_bind fun left right same => ?_
  rw [same.1.scripts]
  split
  · exact inStep_pure ⟨rfl, same⟩
  · exact simulates_compile output left right same

theorem simulates_dataBuffers (script : Script) :
    (coupling simulation).Simulates (List.map simulation.name) (dataBuffers script)
      (dataBuffers script) := by
  have all : (coupling simulation).Simulates (List.map simulation.name)
      (script.data.mapM content) ((script.data.map id).mapM content) :=
    .mapM script.data simulates_content
  rwa [List.map_id] at all

/-- A gradient buffer is allocated where it is needed. -/
theorem simulates_gradientIfNeeded
    {change : β → γ}
    {size : Nat}
    {next : Option BufferId → Action α β}
    {nextOther : Option BufferId → Action α γ}
    (needed : Bool)
    (each : ∀ gradient, (coupling simulation).Simulates change (next gradient)
      (nextOther (gradient.map simulation.name))) :
    (coupling simulation).Simulates change
      (if needed then do
        let gradient ← some <$> onStore (Store.allocate size)
        next gradient
      else do
        let gradient ← pure none
        next gradient)
      (if needed then do
        let gradient ← some <$> onStore (Store.allocate size)
        nextOther gradient
      else do
        let gradient ← pure none
        nextOther gradient) := by
  cases needed with
  | true => exact .bind (.map (simulates_onStore (simulation.allocate size)) fun _ => rfl) each
  | false => exact each none

theorem simulates_push
    (operation : Operation)
    (shape : Shape)
    (needsGradient : Bool) :
    (coupling simulation).Simulates id (push operation shape needsGradient)
      (push operation shape needsGradient) := by
  refine .modifyGet ?_
  rintro left right ⟨mirrors, stores⟩
  dsimp only
  rw [mirrors.arena, Arena.push_rename]
  exact ⟨rfl, { mirrors with arena := rfl }, stores⟩

end

/-! ## Operations -/

variable
    [Element α]
    {simulation : Simulation α}

theorem simulates_leaf
    (shape : Shape)
    (values : Array α)
    (trainable : Bool) :
    (coupling simulation).Simulates id (leaf shape values trainable)
      (leaf shape values trainable) := by
  refine .bind (simulates_check (nameless_lift _)) fun size => ?_
  dsimp only [id]
  split
  · exact .throw_bind fun _ _ same => failed_of_nameless (fun _ => rfl) same
  · exact .bind (simulates_push _ _ _) fun node =>
      .bind (simulates_onStore (simulation.allocateFrom values)) fun content =>
        simulates_gradientIfNeeded trainable fun gradient =>
          .bind (simulates_modifyNode _ fun _ => rfl) fun _ => .pure rfl

theorem simulates_scalar (value : α) :
    (coupling simulation).Simulates id (scalar value) (scalar value) := by
  refine .get_bind fun left right same => ?_
  rw [same.1.interned]
  split
  · exact inStep_pure ⟨rfl, same⟩
  · refine (simulates_push _ _ _ left right same).bind fun node =>
      .bind (simulates_onStore (simulation.allocateFrom _)) fun content =>
        .bind (simulates_modifyNode _ fun _ => rfl) fun _ => .bind (.modify ?_) fun _ => .pure rfl
    rintro left right ⟨mirrors, stores⟩
    exact ⟨{ mirrors with
      interned := congrArg (·.insert (.constant (Element.bits value)) node) mirrors.interned
      constants := congrArg (·.insert node (.constant (Element.bits value))) mirrors.constants },
        stores⟩

theorem simulates_intern
    (operation : Operation)
    (shape : Shape)
    (needsGradient : Bool) :
    (coupling simulation).Simulates id (intern operation shape needsGradient)
      (intern operation shape needsGradient) := by
  refine .get_bind fun left right same => ?_
  rw [same.1.interned]
  split
  · exact inStep_pure ⟨rfl, same⟩
  · refine (simulates_push _ _ _ left right same).bind fun node =>
      .bind (.modify ?_) fun _ => .pure rfl
    rintro left right ⟨mirrors, stores⟩
    exact ⟨{ mirrors with
      interned := congrArg (·.insert (.ofOperation operation) node) mirrors.interned }, stores⟩

theorem simulates_create
    (opcode : OpCode)
    (operands : List NodeId) :
    (coupling simulation).Simulates id (create opcode operands) (create opcode operands) := by
  unfold create
  dsimp only
  split
  · exact .throw_bind fun _ _ same => failed_of_nameless (fun _ => rfl) same
  · split
    · exact .throw_bind fun _ _ same => failed_of_nameless (fun _ => rfl) same
    · split
      · exact .bind (simulates_node _) fun _ => simulates_intern _ _ _
      · exact .bind (simulates_node _) fun _ => .bind (simulates_node _) fun _ =>
          .bind (simulates_check (nameless_broadcast _ _)) fun _ => simulates_intern _ _ _
      · exact simulates_throw fun _ => rfl

theorem simulates_chain
    (opcode : OpCode)
    (count : Nat)
    (node : NodeId) :
    (coupling simulation).Simulates id (chain opcode count node) (chain opcode count node) := by
  induction count generalizing node with
  | zero => exact .pure rfl
  | succ count step => exact .bind (simulates_create opcode _) fun next => step next

variable (output : NodeId)

theorem simulates_markOutput :
    (coupling simulation).Simulates id (markOutput output) (markOutput output) := by
  refine .bind (simulates_node output) fun found =>
    .bind (simulates_modifyNode _ fun _ => rfl) fun _ => ?_
  have unstored : (found.rename simulation.name).storage.isNone = found.storage.isNone :=
    Option.isNone_map
  dsimp only
  rw [unstored]
  split
  · exact .bind (simulates_check (nameless_lift _)) fun size =>
      .bind (simulates_onStore (simulation.allocate size)) fun content =>
        simulates_gradientIfNeeded found.needsGradient fun gradient =>
          simulates_modifyNode _ fun _ => rfl
  · exact .pure rfl

theorem simulates_materialize :
    (coupling simulation).Simulates simulation.name (materialize output) (materialize output) := by
  refine .bind (simulates_markOutput output) fun _ =>
    .bind (simulates_content output) fun target => .bind (simulates_node output) fun found => ?_
  have current : (found.rename simulation.name).isCurrent = found.isCurrent := rfl
  rw [current]
  split
  · exact .pure rfl
  · exact .bind (simulates_script output) fun compiled =>
      .bind (simulates_dataBuffers compiled) fun data =>
        .bind (simulates_onStore (compiled.simulates_forward data target)) fun _ =>
          .bind (simulates_modifyNode _ fun _ => rfl) fun _ => .pure rfl

theorem simulates_value :
    (coupling simulation).Simulates id (value output) (value output) :=
  .bind (simulates_materialize output) fun target => simulates_onStore (simulation.read target)

theorem simulates_valueAt (index : List Nat) :
    (coupling simulation).Simulates id (valueAt output index) (valueAt output index) := by
  refine .bind (simulates_node output) fun found =>
    .bind (simulates_check (nameless_flatten found.shape index)) fun flat =>
      .bind (simulates_materialize output) fun target =>
        .bind (simulates_onStore (simulation.read target)) fun values => ?_
  dsimp only [id]
  split
  · exact .pure rfl
  · exact simulates_throw fun _ => rfl

theorem simulates_setValue (values : Array α) :
    (coupling simulation).Simulates id (setValue output values) (setValue output values) := by
  refine .bind (simulates_node output) fun found => ?_
  have operation : (found.rename simulation.name).operation = found.operation := rfl
  dsimp only
  rw [operation]
  split
  · exact .throw_bind fun _ _ same => failed_of_nameless (fun _ => rfl) same
  refine .bind (simulates_content output) fun buffer =>
    .bind (simulates_onStore (simulation.write buffer values)) fun _ => .get_bind ?_
  intro left right same
  rw [same.1.constants]
  split
  next key _ =>
    refine Coupling.Simulates.bind (.modify ?_)
      (fun _ => simulates_invalidate output) left right same
    rintro left right ⟨mirrors, stores⟩
    exact ⟨{ mirrors with
      interned := congrArg (·.erase key) mirrors.interned
      constants := congrArg (·.erase output) mirrors.constants }, stores⟩
  · exact simulates_invalidate output left right same

theorem simulates_reduceScript
    (script : Script)
    (data : List BufferId)
    (layout : AxisLayout)
    (fanIn : Nat)
    (reduction : Reduction) :
    simulation.Simulates id (reduceScript script data layout fanIn reduction)
      (reduceScript script (data.map simulation.name) layout fanIn reduction) := by
  intro left right same
  refine Coupling.Agrees.bind (Simulation.withLeases same
    fun inside insideOther same leased leasedOther => ?_) Store.simulates_take
  refine InStep.bind ((Simulation.mapM_blockOf leased leasedOther
    fun _ member => member).mono_done ?_)
  rintro blocks blocksOther _ _ ⟨rfl, rfl, pins, pinsOther⟩
  exact AxisLayout.agrees_treeReduce same pins pinsOther

theorem simulates_reduce
    (axis : Option Nat)
    (reduction : Reduction) :
    (coupling simulation).Simulates id (reduce output axis reduction)
      (reduce output axis reduction) := by
  refine .bind (simulates_node output) fun found =>
    .bind (simulates_check (nameless_reducedAxis found.shape axis)) fun axis =>
      .bind (simulates_check (nameless_ofShape found.shape axis)) fun layout =>
        .bind (simulates_check (nameless_withDim found.shape axis 1)) fun reduced =>
          .bind (simulates_check (nameless_lift _)) fun nothing => ?_
  dsimp only [id]
  split
  · exact .bind (simulates_check (nameless_lift _)) fun _ => .pure rfl
  refine .bind (simulates_script output) fun compiled =>
    .bind (simulates_onStore (Script.simulates_checkSupported compiled)) fun _ =>
      .bind (simulates_dataBuffers compiled) fun data => .get_bind fun left right same => ?_
  rw [same.1.fanIn]
  exact (simulates_onStore (simulates_reduceScript compiled data layout _ reduction) left right
    same).bind fun _ => .pure rfl

/-- The gradient buffers that nodes have, each with the place of its adjoints. -/
theorem simulates_targets
    {elements : List β}
    {target? : β → Action α (Option Gradient.Target)}
    (each : ∀ element, (coupling simulation).Simulates
      (Option.map (Gradient.Target.rename simulation.name)) (target? element) (target? element)) :
    (coupling simulation).Simulates (List.map (Gradient.Target.rename simulation.name))
      (do let found ← elements.mapM target?; return found.filterMap id)
      (do let found ← elements.mapM target?; return found.filterMap id) := by
  have all : (coupling simulation).Simulates
      (List.map (Option.map (Gradient.Target.rename simulation.name)))
      (elements.mapM target?) ((elements.map id).mapM target?) := .mapM elements each
  rw [List.map_id] at all
  refine .bind all fun found => .pure ?_
  rw [List.filterMap_map, List.map_filterMap]
  rfl

theorem simulates_dataTargets (script : Script) :
    (coupling simulation).Simulates (List.map (Gradient.Target.rename simulation.name))
      (dataTargets script) (dataTargets script) := by
  refine simulates_targets fun (leaf, slot) => .bind (simulates_node leaf) fun found => .pure ?_
  rw [found.gradient?_rename, Option.map_map, Option.map_map]
  rfl

theorem simulates_recordTargets (script : Script) :
    (coupling simulation).Simulates (List.map (Gradient.Target.rename simulation.name))
      (recordTargets script) (recordTargets script) := by
  refine simulates_targets fun (computed, index) => .bind (simulates_node computed) fun found => ?_
  have operation : (found.rename simulation.name).operation = found.operation := rfl
  rw [operation]
  split
  · exact .pure rfl
  · refine .pure ?_
    rw [found.gradient?_rename, Option.map_map, Option.map_map]
    rfl

theorem simulates_backward :
    (coupling simulation).Simulates id (backward output) (backward output) := by
  refine .bind (simulates_materialize output) fun _ =>
    .bind (simulates_script output) fun compiled =>
      .bind (simulates_onStore (Script.simulates_checkSupported compiled)) fun _ =>
        .bind (simulates_check (nameless_ofScript compiled)) fun plan =>
          .bind (simulates_sizeOf output) fun domain =>
            .bind (simulates_dataTargets compiled) fun dataTargets =>
              .bind (simulates_recordTargets compiled) fun recordTargets => ?_
  dsimp only [id]
  rw [← List.map_append, List.isEmpty_map]
  split
  · exact .pure rfl
  refine .bind (simulates_dataBuffers compiled) fun data => .get_bind fun left right same => ?_
  rw [same.1.fanIn]
  exact simulates_onStore (Gradient.simulates_addAdjoints plan data _) left right same

theorem simulates_gradient :
    (coupling simulation).Simulates id (gradient output) (gradient output) :=
  .bind (simulates_gradientBuffer output) fun buffer => simulates_onStore (simulation.read buffer)

theorem simulates_zeroGradient :
    (coupling simulation).Simulates id (zeroGradient output) (zeroGradient output) :=
  .bind (simulates_gradientBuffer output) fun buffer =>
    simulates_onStore (simulation.fill buffer Arithmetic.zero)

theorem simulates_descend
    (content gradient : BufferId)
    (rate : α) :
    simulation.Simulates id (descend content gradient rate)
      (descend (simulation.name content) (simulation.name gradient) rate) := by
  intro left right same
  refine Simulation.withLeasePair same fun inside insideOther same leased leasedOther => ?_
  refine InStep.bind ((Simulation.blockOf leased leasedOther List.mem_cons_self).mono_done ?_)
  rintro values valuesOther _ _ ⟨rfl, rfl, read, readOther⟩
  refine InStep.bind ((Simulation.blockOf leased leasedOther
    (List.mem_cons_of_mem _ List.mem_cons_self)).mono_done ?_)
  rintro slopes slopesOther _ _ ⟨rfl, rfl, readSlopes, readSlopesOther⟩
  refine InStep.bind ((Simulation.find same).mono_done ?_)
  rintro found other _ _ ⟨rfl, rfl, length⟩
  dsimp only
  rw [length]
  exact simulation.launch same (.cons read.contents (.cons readSlopes.contents .nil))
    (.cons readOther.contents (.cons readSlopesOther.contents .nil)) (.cons read.contents .nil)
    (.cons readOther.contents .nil)

theorem simulates_applyGradient (rate : α) :
    (coupling simulation).Simulates id (applyGradient output rate) (applyGradient output rate) := by
  refine .bind (simulates_node output) fun found => ?_
  have operation : (found.rename simulation.name).operation = found.operation := rfl
  dsimp only
  rw [operation]
  split
  · exact .throw_bind fun _ _ same => failed_of_nameless (fun _ => rfl) same
  · exact .bind (simulates_gradientBuffer output) fun gradient =>
      .bind (simulates_content output) fun content =>
        .bind (simulates_onStore (simulates_descend content gradient rate)) fun _ =>
          simulates_invalidate output

theorem related_clear
    {left right : Graph α}
    (same : (coupling simulation).related left right) :
    (coupling simulation).related left.clear right.clear := by
  obtain ⟨mirrors, stores⟩ := same
  have dropped : ∀ (node : Node) {first second : Store α}, simulation.related first second →
      simulation.related (dropStorage first node)
        (dropStorage second (node.rename simulation.name)) := by
    intro node first second same
    unfold dropStorage Node.rename
    cases node.storage with
    | none => exact same
    | some storage =>
      obtain ⟨content, _ | gradient⟩ := storage
      · exact simulation.drop same content
      · exact simulation.drop (simulation.drop same content) gradient
  have all : ∀ (nodes : List Node) {first second : Store α}, simulation.related first second →
      simulation.related (nodes.foldl dropStorage first)
        ((nodes.map (·.rename simulation.name)).foldl dropStorage second) := by
    intro nodes
    induction nodes with
    | nil => exact fun same => same
    | cons node nodes step => exact fun same => step (dropped node same)
  refine ⟨⟨Arena.rename_empty.symm, rfl, rfl, rfl, mirrors.fanIn⟩, ?_⟩
  show simulation.related (left.arena.nodes.foldl dropStorage left.store)
    (right.arena.nodes.foldl dropStorage right.store)
  rw [mirrors.arena, ← Array.foldl_toList, ← Array.foldl_toList, Arena.rename, Array.toList_map]
  exact all _ stores

/-! ## Requests -/

namespace Session

/-- Sessions on graphs that belong together, whose leases do so too. -/
def coupling
    (simulation : Simulation α)
    (pinned : Array (Option BufferId) → Array (Option BufferId) → Prop) :
    Coupling Error (Session α) where
  related left right :=
    (Graph.coupling simulation).related left.graph right.graph ∧ pinned left.pins right.pins
  failed reason other left right :=
    (Graph.coupling simulation).failed reason other left.graph right.graph ∧
      pinned left.pins right.pins
  parts := simulation.parts

variable {pinned : Array (Option BufferId) → Array (Option BufferId) → Prop}

omit [Element α] in
theorem onGraph_eq_ok
    {action : Graph.Action α β}
    {session after : Session α}
    {answer : β}
    (ran : onGraph action session = .ok answer after) :
    ∃ graph, action session.graph = .ok answer graph ∧ { session with graph := graph } = after := by
  unfold onGraph at ran
  split at ran
  next outcome =>
    cases ran
    exact ⟨_, outcome, rfl⟩
  · cases ran

omit [Element α] in
theorem onGraph_eq_error
    {action : Graph.Action α β}
    {session after : Session α}
    {reason : Error}
    (ran : onGraph action session = .error reason after) :
    ∃ graph, action session.graph = .error reason graph ∧
      { session with graph := graph } = after := by
  unfold onGraph at ran
  split at ran
  · cases ran
  next outcome =>
    cases ran
    exact ⟨_, outcome, rfl⟩

theorem simulates_onGraph
    {change : β → γ}
    {first : Graph.Action α β}
    {second : Graph.Action α γ}
    (simulates : (Graph.coupling simulation).Simulates change first second) :
    (coupling simulation pinned).Simulates change (onGraph first) (onGraph second) := by
  rintro left right ⟨same, pins⟩
  have inStep := simulates _ _ same
  constructor
  case answers =>
    intro _ _ _ _ ran ranOther
    obtain ⟨graph, here, rfl⟩ := onGraph_eq_ok ran
    obtain ⟨graphOther, hereOther, rfl⟩ := onGraph_eq_ok ranOther
    obtain ⟨answers, same⟩ := inStep.answers _ _ _ _ here hereOther
    exact ⟨answers, same, pins⟩
  case reasons =>
    intro _ _ _ _ ran ranOther
    obtain ⟨graph, here, rfl⟩ := onGraph_eq_error ran
    obtain ⟨graphOther, hereOther, rfl⟩ := onGraph_eq_error ranOther
    exact (inStep.reasons _ _ _ _ here hereOther).imp_right fun failed => ⟨failed, pins⟩
  case ahead =>
    intro _ _ _ _ ran ranOther
    obtain ⟨_, here, -⟩ := onGraph_eq_ok ran
    obtain ⟨_, hereOther, -⟩ := onGraph_eq_error ranOther
    exact inStep.ahead _ _ _ _ here hereOther
  case behind =>
    intro _ _ _ _ ran ranOther
    obtain ⟨_, here, -⟩ := onGraph_eq_error ran
    obtain ⟨_, hereOther, -⟩ := onGraph_eq_ok ranOther
    exact inStep.behind _ _ _ _ here hereOther

/-- A request that does something to the graph alone goes the same way on both sides. -/
theorem simulates_perform
    {command : Command α}
    (asks : command.isOperation = true ∨ command = .clear) :
    (coupling simulation pinned).Simulates id (perform command) (perform command) := by
  have answered : ∀ {γ : Type} {action : Graph.Action α γ} {answer : γ → Answer α},
      (Graph.coupling simulation).Simulates id action action →
        (coupling simulation pinned).Simulates id (answer <$> onGraph action)
          (answer <$> onGraph action) :=
    fun simulates => .map (simulates_onGraph simulates) fun _ => rfl
  cases command with
  | leaf shape values trainable => exact answered (simulates_leaf _ _ _)
  | scalar value => exact answered (simulates_scalar value)
  | create opcode operands => exact answered (simulates_create _ _)
  | chain opcode count node => exact answered (simulates_chain _ _ _)
  | markOutput node => exact answered (simulates_markOutput node)
  | script node => exact answered (simulates_script node)
  | compile node => exact answered (simulates_compile node)
  | value node => exact answered (simulates_value node)
  | valueAt node index => exact answered (simulates_valueAt node index)
  | gradient node => exact answered (simulates_gradient node)
  | backward node => exact answered (simulates_backward node)
  | applyGradient node rate => exact answered (simulates_applyGradient node rate)
  | zeroGradient node => exact answered (simulates_zeroGradient node)
  | setValue node values => exact answered (simulates_setValue node values)
  | reduce node axis reduction => exact answered (simulates_reduce node axis reduction)
  | clear =>
    refine .bind (.modify fun left right same => ⟨related_clear same.1, same.2⟩) fun _ =>
      .get_bind fun left right same => ?_
    have size : right.graph.arena.size = left.graph.arena.size := by
      rw [same.1.1.arena, left.graph.arena.alike_rename.size]
    rw [size]
    exact inStep_pure ⟨rfl, same⟩
  | offload => cases asks <;> contradiction
  | ensure => cases asks <;> contradiction
  | release => cases asks <;> contradiction
  | pin => cases asks <;> contradiction
  | unpin => cases asks <;> contradiction

end Session

end Elementwise.Graph
