import Elementwise.Proofs.Buffer.Balance
import Elementwise.Proofs.Gradient.Holding
import Elementwise.Proofs.Graph.Upkeep

/-!
# No buffer outlives its node

Between two requests a buffer is held by the node that it belongs to and by the
leases of the user, and by nobody else.  What a reduction or a backward pass
makes for itself is given up before it ends, at whatever step it ends.  So the
live buffers are those of the nodes and those that the user leases, the live
blocks are those of the buffers on the accelerator, and nothing is left once
the nodes are removed.
-/

namespace Elementwise

open Store (Held enduring_held exists_claim held_take preserves_blockOf preserves_find)

/-! ## Actions of a graph -/

section

variable
    {α : Type}
    [Element α]
    {holding : Store.Holding}

theorem Script.held_forward
    (script : Script)
    (data : List BufferId)
    (output : BufferId) :
    Preserves (Held holding) (script.forward data output : Store.Action α Unit) := by
  have enduring := enduring_held (α := α) holding
  refine .bind script.preserves_checkSupported fun _ => enduring.withLeases data ?_
  refine .bind (.mapM data fun _ => preserves_blockOf) fun inputs => enduring.withLease ?_
  refine .bind preserves_blockOf fun target => .bind preserves_find fun found => ?_
  unfold runBlocks
  dsimp only
  split
  · exact enduring.perform _
  · split
    · exact .throw _
    · split
      · exact enduring.perform _
      · exact enduring.perform _

theorem Graph.held_reduceScript
    (script : Script)
    (data : List BufferId)
    (layout : AxisLayout)
    (fanIn : Nat)
    (reduction : Reduction) :
    Preserves (Held holding)
      (reduceScript script data layout fanIn reduction : Store.Action α (Array α)) := by
  refine held_take fun holding store held => ?_
  refine (enduring_held holding).ends_withLeases data (fun _ => enduring_held _) ?_ held
  intro leased held
  rw [ends_bind_iff]
  exact (Preserves.mapM data (fun _ => preserves_blockOf) leased held).mono
    (fun _ _ held => AxisLayout.handsOver_treeReduce holding _ held) fun _ _ held => held

theorem Graph.held_of_asks
    {β : Type}
    {action : Store.Action α β}
    (asks : Graph.Asks action) :
    Preserves (Held holding) action := by
  have enduring := enduring_held (α := α) holding
  cases asks with
  | read buffer => exact enduring.read
  | write buffer values => exact enduring.write values
  | clear buffer => exact enduring.fill _
  | checkSupported script => exact script.preserves_checkSupported
  | forward script data output => exact script.held_forward data output
  | reduceScript script data layout fanIn reduction =>
    exact held_reduceScript script data layout fanIn reduction
  | descend content gradient rate =>
    exact enduring.withLease (enduring.withLease
      (.bind preserves_blockOf fun _ => .bind preserves_blockOf fun _ =>
        .bind preserves_find fun _ => enduring.perform _))
  | addAdjoints => exact Gradient.held_addAdjoints

end

/-! ## The buffers of all nodes -/

/-- The buffers of a node. -/
def Node.buffers (node : Node) : List BufferId :=
  node.storage.elim [] fun storage => storage.content :: storage.gradient.toList

/-- The buffers of all nodes. -/
def Arena.buffers (arena : Arena) : List BufferId :=
  arena.nodes.toList.flatMap Node.buffers

theorem Node.mem_buffers_iff
    {node : Node}
    {buffer : BufferId} :
    buffer ∈ node.buffers ↔ node.content? = some buffer ∨ node.gradient? = some buffer := by
  unfold buffers content? gradient?
  cases node.storage with
  | none => simp
  | some storage => simp [eq_comm]

namespace Arena

variable
    {arena : Arena}
    {buffer : BufferId}

theorem exists_part_of_mem
    {index : Nat}
    (inside : index < arena.nodes.toList.length)
    (member : buffer ∈ arena.nodes.toList[index].buffers) :
    ∃ part, arena.bufferOf? ⟨index⟩ part = some buffer := by
  have present : arena.node? ⟨index⟩ = some arena.nodes.toList[index] := by
    rw [node?, Array.getElem?_eq_getElem inside, Array.getElem_toList]
  rcases Node.mem_buffers_iff.1 member with content | gradient
  · exact ⟨.content, by rw [bufferOf?, present, Option.bind_some, content]⟩
  · exact ⟨.gradient, by rw [bufferOf?, present, Option.bind_some, gradient]⟩

theorem mem_buffers_iff :
    buffer ∈ arena.buffers ↔ ∃ node part, arena.bufferOf? node part = some buffer := by
  rw [buffers, List.mem_flatMap]
  constructor
  · rintro ⟨found, member, owned⟩
    obtain ⟨index, inside, rfl⟩ := List.mem_iff_getElem.1 member
    exact ⟨⟨index⟩, exists_part_of_mem inside owned⟩
  · rintro ⟨node, part, owned⟩
    cases part with
    | content =>
      obtain ⟨found, present, content⟩ := Option.bind_eq_some_iff.1 owned
      exact ⟨found, Array.mem_toList_iff.2 (Array.mem_of_getElem? present),
        Node.mem_buffers_iff.2 (.inl content)⟩
    | gradient =>
      obtain ⟨found, present, gradient⟩ := Option.bind_eq_some_iff.1 owned
      exact ⟨found, Array.mem_toList_iff.2 (Array.mem_of_getElem? present),
        Node.mem_buffers_iff.2 (.inr gradient)⟩

/-- No buffer is listed twice if no two nodes share one and no node has one twice. -/
theorem nodup_buffers
    (apart : ∀ node other part otherPart buffer, arena.bufferOf? node part = some buffer →
      arena.bufferOf? other otherPart = some buffer → node = other ∧ part = otherPart) :
    arena.buffers.Nodup := by
  refine List.nodup_flatMap.2 ⟨fun found member => ?_, List.pairwise_iff_getElem.2 ?_⟩
  · obtain ⟨index, inside, rfl⟩ := List.mem_iff_getElem.1 member
    have present : arena.node? ⟨index⟩ = some arena.nodes.toList[index] := by
      rw [node?, Array.getElem?_eq_getElem inside, Array.getElem_toList]
    have different : ∀ buffer, arena.nodes.toList[index].content? = some buffer →
        arena.nodes.toList[index].gradient? ≠ some buffer := by
      intro buffer content gradient
      obtain ⟨-, ⟨⟩⟩ := apart ⟨index⟩ ⟨index⟩ .content .gradient buffer
        (by rw [bufferOf?, present, Option.bind_some, content])
        (by rw [bufferOf?, present, Option.bind_some, gradient])
    unfold Node.content? Node.gradient? at different
    unfold Node.buffers
    cases stored : arena.nodes.toList[index].storage with
    | none => exact List.nodup_nil
    | some storage =>
      rw [stored] at different
      have apart : storage.gradient ≠ some storage.content := different storage.content rfl
      cases held : storage.gradient with
      | none => simp [held]
      | some gradient =>
        rw [held] at apart
        simpa [held, eq_comm] using apart
  · intro first second inside otherInside before buffer member otherMember
    obtain ⟨part, owned⟩ := exists_part_of_mem inside member
    obtain ⟨otherPart, otherOwned⟩ := exists_part_of_mem otherInside otherMember
    have same : first = second :=
      congrArg NodeId.index (apart _ _ _ _ buffer owned otherOwned).1
    exact absurd same (Nat.ne_of_lt before)

end Arena

namespace Graph

variable
    {α : Type}
    [Element α]
    {graph : Graph α}
    {holding : Store.Holding}
    {made : Set BufferId}

/-! ## Buffers that belong to no node -/

/-- Buffers that belong to no node, and were not just made for one, have few holders. -/
def Tidy (holding : Store.Holding) (made : Set BufferId) (graph : Graph α) : Prop :=
  ∃ actual, graph.store.Held actual ∧
    ∀ buffer ∉ made, buffer ∉ graph.arena.buffers → actual buffer ≤ holding buffer

omit [Element α] in
theorem Tidy.of_buffers
    {arena : Arena}
    (tidy : graph.Tidy holding made)
    (same : ∀ buffer, buffer ∈ graph.arena.buffers → buffer ∈ arena.buffers) :
    Tidy holding made { graph with arena := arena } := by
  obtain ⟨actual, held, few⟩ := tidy
  exact ⟨actual, held, fun buffer old unowned => few buffer old fun owned =>
    unowned (same buffer owned)⟩

omit [Element α] in
theorem Tidy.push
    (tidy : graph.Tidy holding made)
    (operation : Operation)
    (shape : Shape)
    (needsGradient : Bool) :
    Tidy holding made { graph with arena := (graph.arena.push operation shape needsGradient).2 } :=
  tidy.of_buffers fun buffer owned => by
    obtain ⟨node, part, owned⟩ := Arena.mem_buffers_iff.1 owned
    exact Arena.mem_buffers_iff.2 ⟨node, part, by rw [Arena.bufferOf?_push, owned]⟩

omit [Element α] in
/-- A change of a node that leaves its storage alone. -/
theorem Tidy.modify
    (tidy : graph.Tidy holding made)
    (node : NodeId)
    {change : Node → Node}
    (stored : ∀ found, (change found).storage = found.storage) :
    Tidy holding made { graph with arena := graph.arena.modify node change } :=
  tidy.of_buffers fun buffer owned => by
    obtain ⟨other, part, owned⟩ := Arena.mem_buffers_iff.1 owned
    exact Arena.mem_buffers_iff.2
      ⟨other, part, by rw [Arena.bufferOf?_modify_of_same node stored, owned]⟩

omit [Element α] in
theorem Tidy.register
    (tidy : graph.Tidy holding made)
    (length : Nat)
    (contents : Contents α) :
    Tidy holding (insert (graph.store.register length contents).1 made)
      { graph with store := (graph.store.register length contents).2 } := by
  obtain ⟨actual, held, few⟩ := tidy
  refine ⟨_, held.register length contents, fun buffer old unowned => ?_⟩
  rw [Set.mem_insert_iff, not_or] at old
  rw [Store.Holding.more, if_neg (Ne.symm old.1)]
  exact few buffer old.2 unowned

omit [Element α] in
/-- The buffers that were made for a node become those of the node. -/
theorem Tidy.store
    {node : NodeId}
    {change : Node → Node}
    {storage : Storage}
    (tidy : graph.Tidy holding made)
    (stored : ∀ found, (change found).storage = some storage)
    (inside : node.index < graph.arena.size)
    (empty : ∀ part, graph.arena.bufferOf? node part = none)
    (given : ∀ buffer ∈ made, ∃ part, storage.buffer? part = some buffer) :
    Tidy holding ∅ { graph with arena := graph.arena.modify node change } := by
  obtain ⟨actual, held, few⟩ := tidy
  have after := Arena.bufferOf?_modify stored inside
  refine ⟨actual, held, fun buffer _ unowned => few buffer (fun member => ?_) fun owned => ?_⟩
  · obtain ⟨part, kept⟩ := given buffer member
    exact unowned (Arena.mem_buffers_iff.2 ⟨node, part, by rw [after, if_pos rfl, kept]⟩)
  · obtain ⟨other, part, owned⟩ := Arena.mem_buffers_iff.1 owned
    refine unowned (Arena.mem_buffers_iff.2 ⟨other, part, ?_⟩)
    rw [after, if_neg, owned]
    rintro rfl
    rw [empty] at owned
    cases owned

/-! ## What operations leave behind -/

section

variable {failed : Error → Graph α → Prop}

omit [Element α] in
/-- A gradient is made for a node if it is needed. -/
theorem ends_gradientIfNeeded_tidy
    {β : Type}
    {size : Nat}
    {next : Option BufferId → Action α β}
    {done : β → Graph α → Prop}
    (needed : Bool)
    (tidy : graph.Tidy holding made)
    (run : ∀ gradient store,
      Tidy holding (made ∪ { buffer | gradient = some buffer }) { graph with store := store } →
        Ends (next gradient) { graph with store := store } done failed) :
    Ends
      (if needed then do
        let gradient ← some <$> onStore (Store.allocate size)
        next gradient
      else do
        let gradient ← pure none
        next gradient)
      graph done failed := by
  cases needed with
  | true =>
    refine run (some (graph.store.register size .empty).1) _ ?_
    have one : { buffer | some (graph.store.register size .empty).1 = some buffer } =
        {(graph.store.register size .empty).1} := by
      ext buffer
      exact ⟨fun same => (Option.some.inj same).symm, fun same => congrArg some same.symm⟩
    rw [one, Set.union_singleton]
    exact tidy.register size .empty
  | false =>
    refine run none graph.store ?_
    have nothing : { buffer : BufferId | none = some buffer } = ∅ :=
      Set.eq_empty_of_forall_notMem fun buffer absent => nomatch absent
    rwa [nothing, Set.union_empty]

end

omit [Element α] in
/-- What is made for a node is its storage afterwards. -/
theorem given_of_made
    {content : BufferId}
    {gradient : Option BufferId} :
    ∀ buffer ∈ insert content ∅ ∪ { buffer | gradient = some buffer },
      ∃ part, (⟨content, gradient⟩ : Storage).buffer? part = some buffer := by
  rintro buffer ((rfl | absent) | rfl)
  · exact ⟨.content, rfl⟩
  · exact absent.elim
  · exact ⟨.gradient, rfl⟩

omit [Element α] in
/-- A node that was just added has no buffers yet. -/
theorem bufferOf?_push_last
    {operation : Operation}
    {shape : Shape}
    {needsGradient : Bool}
    (part : Part) :
    (graph.arena.push operation shape needsGradient).2.bufferOf?
      ⟨graph.arena.size⟩ part = none := by
  have absent : graph.arena.node? ⟨graph.arena.size⟩ = none :=
    Arena.node?_of_size_le (Nat.le_refl _)
  rw [Arena.bufferOf?_push]
  cases part <;> rw [Arena.bufferOf?, absent] <;> rfl

omit [Element α] in
theorem tidy_leaf
    (shape : Shape)
    (values : Array α)
    (trainable : Bool) :
    Preserves (Tidy holding ∅) (leaf shape values trainable) := by
  intro graph tidy
  unfold leaf
  rw [ends_bind_iff]
  refine ends_check ?_ fun _ => tidy
  intro size lifted
  dsimp only
  split
  · exact tidy
  · rw [ends_bind_iff, push, ends_modifyGet_iff, ends_bind_iff, ends_onStore_iff,
      Store.allocateFrom, ends_modifyGet_iff]
    have content := (tidy.push .leaf shape trainable).register values.size (.host values)
    refine ends_gradientIfNeeded_tidy trainable content fun gradient store both => ?_
    rw [ends_bind_iff, ends_modifyNode_iff, ends_pure_iff]
    exact both.store (fun _ => rfl) (Arena.size_push .. ▸ Nat.lt_succ_self _) bufferOf?_push_last
      given_of_made

theorem tidy_scalar (value : α) : Preserves (Tidy holding ∅) (scalar value) := by
  intro graph tidy
  unfold scalar
  dsimp only
  rw [ends_bind_iff, ends_get_iff]
  split
  · exact tidy
  · rw [ends_bind_iff, push, ends_modifyGet_iff, ends_bind_iff, ends_onStore_iff,
      Store.allocateFrom, ends_modifyGet_iff, ends_bind_iff, ends_modifyNode_iff, ends_bind_iff,
      ends_modify_iff, ends_pure_iff]
    have content := (tidy.push .leaf .scalar false).register (#[value] : Array α).size
      (.host #[value])
    refine content.store (fun _ => rfl) (Arena.size_push .. ▸ Nat.lt_succ_self _)
      bufferOf?_push_last ?_
    rintro buffer (rfl | absent)
    · exact ⟨.content, rfl⟩
    · exact absent.elim

omit [Element α] in
theorem tidy_create
    (opcode : OpCode)
    (operands : List NodeId) :
    Preserves (Tidy holding ∅) (create opcode operands : Action α NodeId) := by
  intro graph tidy
  refine ends_create_of_intern (fun operation shape needsGradient _ => ?_) fun _ _ => tidy
  exact ends_intern_of_lookup (fun _ _ => tidy) fun _ => tidy.push operation shape needsGradient

omit [Element α] in
theorem tidy_markOutput
    (output : NodeId) :
    Preserves (Tidy holding ∅) (markOutput output : Action α Unit) := by
  intro graph tidy
  unfold markOutput
  rw [ends_bind_iff]
  refine ends_node ?_ fun _ => tidy
  intro found present
  have marked : Tidy holding ∅
      { graph with arena := graph.arena.modify output ({ · with isOutput := true }) } :=
    tidy.modify output fun _ => rfl
  rw [ends_bind_iff, ends_modifyNode_iff]
  cases stored : found.storage with
  | none =>
    have inside : output.index < (graph.arena.modify output
        ({ · with isOutput := true })).size := by
      rw [Arena.size, Arena.modify, Array.size_modify]
      exact (Arena.node?_isSome_iff output).1 (Option.isSome_of_eq_some present)
    have unstored : ∀ part,
        (graph.arena.modify output ({ · with isOutput := true })).bufferOf? output part = none := by
      intro part
      have same : ∀ found : Node, { found with isOutput := true }.storage = found.storage :=
        fun _ => rfl
      rw [Arena.bufferOf?_modify_of_same output same]
      cases part with
      | content => rw [Arena.bufferOf?, present, Option.bind_some, Node.content?, stored]; rfl
      | gradient => rw [Arena.bufferOf?, present, Option.bind_some, Node.gradient?, stored]; rfl
    rw [Option.isNone_none, if_pos rfl, ends_bind_iff]
    refine ends_check (fun size lifted => ?_) fun _ => marked
    rw [ends_bind_iff, ends_onStore_iff, Store.allocate, ends_modifyGet_iff]
    have content := marked.register size .empty
    refine ends_gradientIfNeeded_tidy found.needsGradient content fun gradient store both => ?_
    rw [ends_modifyNode_iff]
    exact both.store (fun _ => rfl) inside unstored given_of_made
  | some storage =>
    rw [Option.isNone_some, if_neg Bool.false_ne_true]
    exact marked

/-- No operation leaves a buffer behind that belongs to no node. -/
theorem upheld_tidy : Upheld (Tidy holding ∅ : Graph α → Prop) where
  leaf := tidy_leaf
  scalar := tidy_scalar
  create := tidy_create
  markOutput := tidy_markOutput
  onStore asks graph tidy := by
    obtain ⟨actual, held, few⟩ := tidy
    rw [ends_onStore_iff]
    exact (held_of_asks asks graph.store held).mono (fun _ _ after => ⟨actual, after, few⟩)
      fun _ _ after => ⟨actual, after, few⟩
  scripts _ _ tidy := tidy
  forgets _ _ _ tidy _ := tidy
  current _ node tidy := tidy.modify node fun _ => rfl
  invalidate graph source tidy := tidy.of_buffers fun buffer owned => by
    obtain ⟨node, part, owned⟩ := Arena.mem_buffers_iff.1 owned
    exact Arena.mem_buffers_iff.2 ⟨node, part, by rw [bufferOf?_invalidate, owned]⟩

/-! ## Removing all nodes -/

theorem dropStorage_eq
    (store : Store α)
    (node : Node) :
    dropStorage store node = node.buffers.foldl Store.drop store := by
  unfold dropStorage Node.buffers
  cases node.storage <;> rfl

/-- The buffers of all nodes are dropped with the nodes. -/
theorem store_clear (graph : Graph α) :
    graph.clear.store = graph.arena.buffers.foldl Store.drop graph.store := by
  show graph.arena.nodes.foldl dropStorage graph.store = _
  rw [← Array.foldl_toList, Arena.buffers, List.foldl_flatMap]
  exact congrArg (List.foldl · _ _) (funext fun store => funext (dropStorage_eq store))

theorem held_drops
    (buffers : List BufferId)
    {store : Store α}
    (held : store.Held fun buffer => holding buffer + buffers.count buffer) :
    (buffers.foldl Store.drop store).Held holding := by
  induction buffers generalizing store with
  | nil => exact held
  | cons buffer buffers step =>
    refine step (Store.Held.drop (held.mono fun other => Nat.le_of_eq ?_))
    rw [Store.Holding.more, List.count_cons, Nat.add_assoc]
    simp [beq_iff_eq]

/-- What is left of a graph are the buffers that the user leases. -/
theorem held_clear
    {pins : BufferId → Nat}
    (valid : graph.Valid pins)
    (tidy : graph.Tidy pins ∅) :
    graph.clear.store.Held pins := by
  obtain ⟨actual, held, few⟩ := tidy
  rw [store_clear]
  refine held_drops _ fun buffer claim claimed => ?_
  by_cases owned : buffer ∈ graph.arena.buffers
  · obtain ⟨node, part, mine⟩ := Arena.mem_buffers_iff.1 owned
    obtain ⟨size, same⟩ := valid.exists_claim mine
    rw [claimed] at same
    cases same
    exact Nat.add_le_add_left (List.count_pos_iff.2 owned) _
  · exact Nat.le_add_right_of_le
      (Nat.le_trans (held buffer claim claimed) (few buffer (Set.notMem_empty _) owned))

/-! ## Requests to a session -/

namespace Session

variable {session : Session α}

/-- Every buffer that belongs to no node is held by the leases of the user only. -/
def Tidy (session : Session α) : Prop :=
  session.graph.Tidy (leases session.pins) ∅

omit [Element α] in
theorem tidy_onBuffer
    {node : NodeId}
    {part : Part}
    {action : BufferId → Store.Action α Unit}
    (held : ∀ holding buffer, Preserves (Held holding) (action buffer)) :
    Preserves Tidy (onBuffer node part action) := by
  refine .bind (preserves_bufferOf node part) fun found => ?_
  split
  next buffer =>
    refine .bind (fun session tidy => ?_) fun _ => .pure _
    obtain ⟨actual, before, few⟩ := tidy
    rw [ends_onGraph_iff, ends_onStore_iff]
    exact (held actual buffer session.graph.store before).mono
      (fun _ _ after => ⟨actual, after, few⟩) fun _ _ after => ⟨actual, after, few⟩
  next => exact .pure _

theorem tidy_pinNext
    (node : NodeId)
    (part : Part)
    (tier : Tier) :
    Preserves Tidy (pinNext node part tier : Action α (Answer α)) := by
  intro session tidy
  have reserves : Tidy ⟨session.graph, session.pins.push none⟩ := by
    unfold Tidy
    rw [leases_push_none]
    exact tidy
  refine ends_pinNext_of reserves fun buffer _ => ?_
  obtain ⟨actual, held, few⟩ := reserves
  refine ((enduring_held actual).lease tier _ held).mono ?_
    fun _ _ after => ⟨actual, after, few⟩
  intro _ store held
  refine ⟨actual.more buffer, held.hold, fun other old unowned => ?_⟩
  rw [leases_set_some (getElem?_push_none _)]
  exact Nat.add_le_add_right (few other old unowned) _

theorem tidy_endPin
    (tidy : session.Tidy)
    (pin : Nat) :
    (endPin pin session).Tidy := by
  unfold endPin
  split
  next buffer stands =>
    obtain ⟨actual, held, few⟩ := tidy
    have unpinned := (enduring_held actual).unpin _ buffer held
    refine ⟨fun other => actual other - if buffer = other then 1 else 0, ?_, ?_⟩
    · refine Store.Held.drop (unpinned.mono fun other => ?_)
      exact Nat.le_add_of_sub_le (Nat.le_refl _)
    · intro other old unowned
      have enough := few other old unowned
      rw [leases_set_none stands] at enough
      exact Nat.sub_le_of_le_add enough
  · exact tidy

/-- Every request to a valid session leaves the buffers of the nodes and those that are leased. -/
theorem tidy_perform (command : Command α) :
    Preserves (fun session => session.Valid ∧ session.Tidy) (perform command) := by
  rintro session ⟨valid, tidy⟩
  have after : Ends (perform command) session (fun _ after => after.Tidy) fun _ after =>
      after.Tidy := by
    by_cases operation : command.isOperation = true
    · refine (ends_operation upheld_tidy tidy operation).mono ?_ ?_
      · rintro _ after ⟨tidy, pins⟩
        unfold Tidy
        rwa [pins]
      · rintro _ after ⟨tidy, pins⟩
        unfold Tidy
        rwa [pins]
    · cases command with
      | clear => exact ⟨_, held_clear valid tidy, fun _ _ _ => Nat.le_refl _⟩
      | offload target device =>
        show Ends (Answer.number <$> onGraph (onStore (Store.offload target device))) session _ _
        obtain ⟨actual, held, few⟩ := tidy
        rw [ends_map_iff, ends_onGraph_iff, ends_onStore_iff]
        exact ((enduring_held actual).retreating.offload target device _ held).mono
          (fun _ _ after => ⟨actual, after, few⟩) fun _ _ after => ⟨actual, after, few⟩
      | ensure node part tier =>
        exact tidy_onBuffer (fun holding _ => (enduring_held holding).ensure tier) session tidy
      | release node part =>
        exact tidy_onBuffer (fun holding _ => (enduring_held holding).ensure .empty) session tidy
      | pin node part tier => exact tidy_pinNext node part tier session tidy
      | unpin pin => exact tidy_endPin tidy pin
      | _ => exact absurd rfl operation
  refine ((ends_perform valid command).and after).mono ?_ ?_
  · rintro _ after ⟨evolves, tidy⟩
    exact ⟨evolves.valid, tidy⟩
  · rintro _ after ⟨evolves, tidy⟩
    exact ⟨evolves.valid, tidy⟩

omit [Element α] in
theorem tidy_start
    (capacity : Nat)
    (device : DeviceId)
    (unsupported : List OpCode)
    (faults : Method → Nat → Option DeviceError)
    (config : Config) :
    (start capacity device unsupported faults config : Session α).Tidy :=
  ⟨fun _ => 0, nofun, fun _ _ _ => Nat.zero_le _⟩

/-! ## What is live between two requests -/

/-- Everything that is known of a session between two requests. -/
structure Kept (make : Make) (session : Session α) : Prop where
  valid : session.Valid
  tidy : session.Tidy
  booked : session.Booked make

theorem kept_run
    {make : Make}
    (kept : session.Kept make)
    (commands : List (Command α)) :
    (session.run commands).Kept make := by
  have both : (session.run commands).Valid ∧ (session.run commands).Tidy :=
    run_of_preserves (fun command _ => tidy_perform command) ⟨kept.valid, kept.tidy⟩
  exact ⟨both.1, both.2, booked_run kept.booked commands⟩

omit [Element α] in
theorem kept_start
    (capacity : Nat)
    (device : DeviceId)
    (unsupported : List OpCode)
    (faults : Method → Nat → Option DeviceError)
    (config : Config) :
    (start capacity device unsupported faults config : Session α).Kept
      ⟨device, capacity, unsupported, faults⟩ :=
  ⟨start_valid .., tidy_start .., booked_start ..⟩

/-- The user leases nothing. -/
def Unleased (session : Session α) : Prop :=
  ∀ pin ∈ session.pins, pin = none

omit [Element α] in
theorem Unleased.leases
    (unleased : session.Unleased)
    (buffer : BufferId) :
    leases session.pins buffer = 0 :=
  Array.count_eq_zero.2 fun member => nomatch unleased _ member

section

variable
    {make : Make}
    (kept : session.Kept make)

include kept

omit [Element α] in
/-- The live buffers are those of the nodes, unless the user leases some. -/
theorem Kept.exists_claim_iff
    (unleased : session.Unleased)
    {buffer : BufferId} :
    (∃ claim, session.graph.store.claim? buffer = some claim) ↔
      buffer ∈ session.graph.arena.buffers := by
  constructor
  · rintro ⟨claim, claimed⟩
    by_contra unowned
    obtain ⟨actual, held, few⟩ := kept.tidy
    have holders := Nat.le_trans (held buffer claim claimed)
      (few buffer (Set.notMem_empty _) unowned)
    have leased := kept.booked.leases buffer claim claimed
    unfold allowance at leased
    rw [unleased.leases] at holders leased
    rcases kept.valid.store.wanted buffer claim claimed with held | leased
    · omega
    · omega
  · intro owned
    obtain ⟨node, part, mine⟩ := Arena.mem_buffers_iff.1 owned
    obtain ⟨size, claimed⟩ := kept.valid.exists_claim mine
    exact ⟨_, claimed⟩

omit [Element α] in
theorem Kept.exists_found_iff
    (unleased : session.Unleased)
    {buffer : BufferId} :
    (∃ found, session.graph.store.buffers.get? buffer = some found) ↔
      buffer ∈ session.graph.arena.buffers := by
  rw [← kept.exists_claim_iff unleased, Store.claim?]
  cases session.graph.store.buffers.get? buffer <;> simp

omit [Element α] in
/-- The registry lists the buffers of the nodes and no others. -/
theorem Kept.perm_registered (unleased : session.Unleased) :
    (session.graph.store.registered.map Prod.fst).Perm session.graph.arena.buffers := by
  refine (List.perm_ext_iff_of_nodup (kept.booked.accounted.nodup_registered)
    (Arena.nodup_buffers kept.valid.apart)).2 fun buffer => ?_
  rw [← kept.exists_claim_iff unleased, kept.booked.accounted.mem_registered_iff]

omit [Element α] in
/-- The live blocks are those of the buffers of nodes that are on the accelerator. -/
theorem Kept.exists_block_iff
    (unleased : session.Unleased)
    (handle : Nat) :
    (∃ values, session.graph.store.accelerator.pool.blocks.get? handle = some values) ↔
      ∃ buffer ∈ session.graph.arena.buffers, session.graph.store.Owns buffer handle := by
  have accounted := kept.booked.accounted
  constructor
  · rintro ⟨values, live⟩
    rcases accounted.placed handle values live with ⟨buffer, block, stored, same⟩ | ⟨_, absent⟩
    · have live := exists_claim stored
      exact ⟨buffer, (kept.exists_claim_iff unleased).1 live, block, stored, same⟩
    · exact absent.elim
  · rintro ⟨buffer, -, block, stored, rfl⟩
    obtain ⟨claim, claimed⟩ := exists_claim stored
    obtain ⟨-, -, values, live, -⟩ := accounted.valid.fits buffer claim _ claimed stored
    exact ⟨values, live⟩

omit [Element α] in
/-- What is in use on the accelerator is what the buffers take up there. -/
theorem Kept.used_eq :
    session.graph.store.accelerator.pool.used = session.graph.store.usage .accelerator := by
  have none : ∀ handle : Nat, handle ∈ (∅ : Finset Nat) ↔
      ∃ values : Array α, (handle, some values) ∈ (∅ : Store.Others α) := by
    simp
  rw [kept.booked.accounted.used_eq none, Finset.sum_empty, Nat.add_zero]

end

/-- The leases of the user do not end when all nodes are removed. -/
theorem Unleased.clear
    (unleased : session.Unleased) :
    (session.step .clear).2.Unleased :=
  unleased

theorem buffers_clear (session : Session α) :
    (session.step .clear).2.graph.arena.buffers = [] := rfl

/-! ## What is left when all nodes are removed -/

section

variable
    {make : Make}
    (kept : session.Kept make)
    (unleased : session.Unleased)

include kept

theorem Kept.clear : (session.step .clear).2.Kept make :=
  kept_run kept [.clear]

include unleased

theorem Kept.get?_clear (buffer : BufferId) :
    (session.step .clear).2.graph.store.buffers.get? buffer = none := by
  refine Option.eq_none_iff_forall_ne_some.2 fun found present => ?_
  have owned := (kept.clear.exists_found_iff unleased.clear).1 ⟨found, present⟩
  rw [buffers_clear] at owned
  cases owned

theorem Kept.registered_clear : (session.step .clear).2.graph.store.registered = [] := by
  have perm := kept.clear.perm_registered unleased.clear
  rw [buffers_clear, List.perm_nil, List.map_eq_nil_iff] at perm
  exact perm

theorem Kept.block_clear (handle : Nat) :
    (session.step .clear).2.graph.store.accelerator.pool.blocks.get? handle = none := by
  refine Option.eq_none_iff_forall_ne_some.2 fun values live => ?_
  obtain ⟨buffer, owned, -⟩ :=
    (kept.clear.exists_block_iff unleased.clear handle).1 ⟨values, live⟩
  rw [buffers_clear] at owned
  cases owned

theorem Kept.used_clear : (session.step .clear).2.graph.store.accelerator.pool.used = 0 := by
  refine kept.clear.used_eq.trans ?_
  show Store.usage (session.step .clear).2.graph.store .accelerator = 0
  rw [Store.usage, kept.registered_clear unleased]
  rfl

end

section

variable
    {capacity : Nat}
    {device : DeviceId}
    {unsupported : List OpCode}
    {faults : Method → Nat → Option DeviceError}
    {config : Config}
    {commands : List (Command α)}

/--
In every session that a run of requests leads to, whatever the accelerator refused, if the
user leases nothing, then the live buffers are the buffers of the nodes, each of which is
listed once; the live blocks are those of the buffers on the accelerator, and nothing else
is in use there.  If all nodes are removed then, no buffer and no block is left.
-/
theorem live_iff_owned
    (reached : (start capacity device unsupported faults config).run commands = session)
    (unleased : session.Unleased) :
    ((session.graph.store.registered.map Prod.fst).Perm session.graph.arena.buffers ∧
      (∀ buffer, (∃ found, session.graph.store.buffers.get? buffer = some found) ↔
        buffer ∈ session.graph.arena.buffers) ∧
      (∀ handle,
        (∃ values, session.graph.store.accelerator.pool.blocks.get? handle = some values) ↔
          ∃ buffer ∈ session.graph.arena.buffers, ∃ block,
            session.graph.store.contents? buffer = some (.device block) ∧
              block.handle = handle) ∧
      session.graph.store.accelerator.pool.used = session.graph.store.usage .accelerator) ∧
    (session.step .clear).2.graph.store.registered = [] ∧
      (∀ buffer, (session.step .clear).2.graph.store.buffers.get? buffer = none) ∧
      (∀ handle, (session.step .clear).2.graph.store.accelerator.pool.blocks.get? handle = none) ∧
      (session.step .clear).2.graph.store.accelerator.pool.used = 0 := by
  have kept : session.Kept ⟨device, capacity, unsupported, faults⟩ :=
    reached ▸ kept_run (kept_start ..) commands
  exact ⟨⟨kept.perm_registered unleased, fun _ => kept.exists_found_iff unleased,
    kept.exists_block_iff unleased, kept.used_eq⟩, kept.registered_clear unleased,
    kept.get?_clear unleased, kept.block_clear unleased, kept.used_clear unleased⟩

/-- A backward pass to a leaf that was broadcast, on an accelerator on which a launch fails. -/
def interrupted : Session Int :=
  (start 20 ⟨0⟩ [] (fun method call =>
    if method = .launch ∧ call = 3 then some (.invalidBlock 0) else none) { fanIn := 2 }).run
    [.leaf ⟨[1]⟩ #[3] true, .leaf ⟨[3]⟩ #[1, 2, 3] false, .create .mul [⟨0⟩, ⟨1⟩],
      .backward ⟨2⟩]

/-- The second pass of the sum fails, and the five buffers of the nodes are left. -/
theorem live_iff_owned_interrupted :
    interrupted.Unleased ∧
    (interrupted.graph.store.registered.map Prod.fst).Perm [⟨0⟩, ⟨1⟩, ⟨2⟩, ⟨3⟩, ⟨4⟩] ∧
    interrupted.graph.store.nextIndex = 8 ∧
    interrupted.graph.store.accelerator.pool.used = interrupted.graph.store.usage .accelerator ∧
    (interrupted.step .clear).2.graph.store.accelerator.pool.used = 0 := by
  have outcome : (interrupted.pins, interrupted.graph.arena.buffers,
      interrupted.graph.store.nextIndex) = (#[], [⟨0⟩, ⟨1⟩, ⟨2⟩, ⟨3⟩, ⟨4⟩], 8) := by
    cbv
  obtain ⟨none, buffers, made⟩ : interrupted.pins = #[] ∧
      interrupted.graph.arena.buffers = [⟨0⟩, ⟨1⟩, ⟨2⟩, ⟨3⟩, ⟨4⟩] ∧
      interrupted.graph.store.nextIndex = 8 := by
    simpa only [Prod.mk.injEq] using outcome
  have unleased : interrupted.Unleased := by
    intro pin member
    rw [none] at member
    exact absurd member (Array.not_mem_empty pin)
  obtain ⟨⟨listed, -, -, used⟩, -, -, -, cleared⟩ := live_iff_owned rfl unleased
  exact ⟨unleased, buffers ▸ listed, made, used, cleared⟩

end

end Session

end Graph

end Elementwise
