import Elementwise.Graph.Training
import Elementwise.Proofs.Gradient.Accumulation
import Elementwise.Proofs.Gradient.Plan
import Elementwise.Proofs.Graph.Evaluation

/-!
# Gradients and updates

A backward pass brings its output up to date and then adds to the gradient of
every node that the output depends on the adjoints of that node, taken on what
the leaves read as.  It writes nothing else.

An update writes its leaf, and what is downstream of the leaf is not up to date
any more.
-/

namespace Elementwise

/-! ## Where the adjoints of a node are found -/

namespace Script

variable
    {arena : Arena}
    {output node : NodeId}
    {script : Script}

/-- A leaf has its adjoints in a data slot, and any other node in a record. -/
def IsSource (arena : Arena) (script : Script) (node : NodeId) : Operand → Prop
  | .data slot => script.data[slot]? = some node
  | .record index => script.nodes[index]? = some node ∧ arena.operation? node ≠ some .leaf

/-- The nodes that adjoints are found for: the leaves, then the others. -/
def sources (arena : Arena) (script : Script) : List NodeId :=
  script.data ++ script.nodes.filter (!arena.isLeaf ·)

/-- The gradients that adjoints are found for, and where. -/
def targets (arena : Arena) (script : Script) : List Gradient.Target :=
  (script.data.zipIdx.filterMap fun (leaf, slot) =>
    (arena.bufferOf? leaf .gradient).map (⟨.data slot, ·⟩)) ++
  (script.nodes.zipIdx.filterMap fun (node, index) =>
    if arena.isLeaf node then none
    else (arena.bufferOf? node .gradient).map (⟨.record index, ·⟩))

theorem isLeaf_eq_false_iff :
    arena.isLeaf node = false ↔ arena.operation? node ≠ some .leaf := by
  rw [← Bool.not_eq_true, Arena.isLeaf_iff]

/-- The nodes of a script besides the leaves, whether or not it computes a leaf. -/
theorem Compiled.filter_nodes
    (proper : ∀ node operation, arena.operation? node = some operation → operation.Proper)
    (compiled : Compiled arena output script) :
    script.nodes.filter (!arena.isLeaf ·) =
      (arena.postOrder [] output).reverse.filter (!arena.isLeaf ·) := by
  cases isLeaf : arena.isLeaf output with
  | true =>
    rw [compiled.nodes_of_leaf proper isLeaf, Arena.postOrder_of_leaf (Arena.isLeaf_iff.1 isLeaf),
      List.reverse_singleton]
  | false =>
    rw [compiled.nodes proper isLeaf, List.filter_filter]
    simp only [Bool.and_self]

/-- The sources of a script are what its output depends on, each once. -/
theorem Compiled.sources
    (ordered : arena.Ordered)
    (proper : ∀ node operation, arena.operation? node = some operation → operation.Proper)
    (compiled : Compiled arena output script) :
    (script.sources arena).Nodup ∧
      ∀ node, node ∈ script.sources arena ↔ arena.DependsOn output node := by
  have split : script.sources arena =
      (arena.postOrder [] output).reverse.filter arena.isLeaf ++
        (arena.postOrder [] output).reverse.filter (!arena.isLeaf ·) := by
    rw [Script.sources, compiled.data proper, compiled.filter_nodes proper]
  have perm := split ▸ List.filter_append_perm arena.isLeaf (arena.postOrder [] output).reverse
  refine ⟨perm.nodup_iff.2 (arena.nodup_postOrder ordered output), fun node => ?_⟩
  rw [perm.mem_iff, List.mem_reverse, Arena.mem_postOrder_nil_iff ordered]

theorem mem_targets_iff
    {source : Operand}
    {buffer : BufferId} :
    (⟨source, buffer⟩ : Gradient.Target) ∈ script.targets arena ↔
      ∃ node, script.IsSource arena node source ∧
        arena.bufferOf? node .gradient = some buffer := by
  rw [targets, List.mem_append, List.mem_filterMap, List.mem_filterMap]
  constructor
  · rintro (⟨⟨leaf, slot⟩, member, found⟩ | ⟨⟨node, index⟩, member, found⟩)
    · obtain ⟨owned, present, same⟩ := Option.map_eq_some_iff.1 found
      cases same
      exact ⟨leaf, List.mem_zipIdx_iff_getElem?.1 member, present⟩
    · dsimp only at found
      split at found
      · cases found
      next computed =>
        obtain ⟨owned, present, same⟩ := Option.map_eq_some_iff.1 found
        cases same
        refine ⟨node, ⟨List.mem_zipIdx_iff_getElem?.1 member, ?_⟩, present⟩
        exact isLeaf_eq_false_iff.1 (Bool.not_eq_true _ ▸ computed)
  · rintro ⟨node, isSource, owned⟩
    cases source with
    | data slot =>
      refine .inl ⟨(node, slot), List.mem_zipIdx_iff_getElem?.2 isSource, ?_⟩
      simp only [owned, Option.map_some]
    | record index =>
      refine .inr ⟨(node, index), List.mem_zipIdx_iff_getElem?.2 isSource.1, ?_⟩
      have computed : arena.isLeaf node = false := isLeaf_eq_false_iff.2 isSource.2
      simp only [computed, Bool.false_eq_true, if_false, owned, Option.map_some]

/-- The buffers of the targets are the gradient buffers of the sources. -/
theorem buffers_targets :
    (script.targets arena).map (·.buffer) =
      (script.sources arena).filterMap (arena.bufferOf? · .gradient) := by
  have data : ∀ first, (List.zipIdx script.data first).filterMap
      (fun entry => arena.bufferOf? entry.1 .gradient) =
        script.data.filterMap (arena.bufferOf? · .gradient) := by
    intro first
    conv_rhs => rw [← List.zipIdx_map_fst first script.data, List.filterMap_map]
    rfl
  have nodes : ∀ first, (List.zipIdx script.nodes first).filterMap
      (fun entry => if arena.isLeaf entry.1 then none else arena.bufferOf? entry.1 .gradient) =
        (script.nodes.filter (!arena.isLeaf ·)).filterMap (arena.bufferOf? · .gradient) := by
    intro first
    rw [List.filterMap_filter]
    conv_rhs => rw [← List.zipIdx_map_fst first script.nodes, List.filterMap_map]
    refine List.filterMap_congr fun entry _ => ?_
    cases leafy : arena.isLeaf entry.1 <;> simp [leafy]
  rw [targets, sources, List.map_append, List.map_filterMap, List.map_filterMap,
    List.filterMap_append, ← data 0, ← nodes 0]
  refine congrArg₂ (· ++ ·) ?_ ?_
  · refine List.filterMap_congr fun entry _ => ?_
    rw [Option.map_map]
    exact Option.map_id_apply
  · refine List.filterMap_congr fun entry _ => ?_
    obtain ⟨node, index⟩ := entry
    dsimp only
    split
    · rfl
    · rw [Option.map_map]
      exact Option.map_id_apply

/-- Every node that an output depends on has a source. -/
theorem Compiled.exists_source
    (ordered : arena.Ordered)
    (proper : ∀ node operation, arena.operation? node = some operation → operation.Proper)
    (compiled : Compiled arena output script)
    (depends : arena.DependsOn output node) :
    ∃ source, script.IsSource arena node source := by
  have member := ((compiled.sources ordered proper).2 node).2 depends
  rcases List.mem_append.1 member with inData | inNodes
  · obtain ⟨slot, found⟩ := List.getElem?_of_mem inData
    exact ⟨.data slot, found⟩
  · obtain ⟨inNodes, computed⟩ := List.mem_filter.1 inNodes
    obtain ⟨index, found⟩ := List.getElem?_of_mem inNodes
    refine ⟨.record index, found, isLeaf_eq_false_iff.1 ?_⟩
    simpa using computed

/-- The output depends on the node of every source. -/
theorem Compiled.dependsOn_of_isSource
    (ordered : arena.Ordered)
    (proper : ∀ node operation, arena.operation? node = some operation → operation.Proper)
    (compiled : Compiled arena output script)
    {source : Operand}
    (isSource : script.IsSource arena node source) :
    arena.DependsOn output node := by
  refine ((compiled.sources ordered proper).2 node).1 ?_
  cases source with
  | data slot => exact List.mem_append_left _ (List.mem_of_getElem? isSource)
  | record index =>
    refine List.mem_append_right _ (List.mem_filter.2 ⟨List.mem_of_getElem? isSource.1, ?_⟩)
    simpa using isLeaf_eq_false_iff.2 isSource.2

/-- No node has two sources. -/
theorem Compiled.source_unique
    (ordered : arena.Ordered)
    (proper : ∀ node operation, arena.operation? node = some operation → operation.Proper)
    (compiled : Compiled arena output script)
    {first second : Operand}
    (isFirst : script.IsSource arena node first)
    (isSecond : script.IsSource arena node second) :
    first = second := by
  have data := compiled.nodup_data ordered proper
  have nodes := compiled.nodup_nodes ordered proper
  have leaf : ∀ slot : Nat, script.data[slot]? = some node →
      arena.operation? node = some .leaf := by
    intro slot found
    have member := List.mem_of_getElem? found
    rw [compiled.data proper, List.mem_filter] at member
    exact Arena.isLeaf_iff.1 member.2
  cases first with
  | data slot =>
    cases second with
    | data other =>
      have inside := (List.getElem?_eq_some_iff.1 isFirst).1
      rw [(List.getElem?_inj inside data).1 (isFirst.trans isSecond.symm)]
    | record other => exact absurd (leaf slot isFirst) isSecond.2
  | record index =>
    cases second with
    | data other => exact absurd (leaf other isSecond) isFirst.2
    | record other =>
      have inside := (List.getElem?_eq_some_iff.1 isFirst.1).1
      rw [(List.getElem?_inj inside nodes).1 (isFirst.1.trans isSecond.1.symm)]

end Script

namespace Graph

variable
    {α : Type}
    [Element α]
    {graph : Graph α}
    {pins : BufferId → Nat}
    {output : NodeId}

/-! ## Reading and resetting gradients -/

theorem ends_gradient (valid : graph.Valid pins) (target : NodeId) :
    Ends (gradient target) graph
      (fun values after => Keeps pins ∅ graph after ∧
        graph.gradientReading? target = some values)
      (fun _ after => Keeps pins ∅ graph after) := by
  unfold gradient
  rw [ends_bind_iff]
  refine ends_gradientBuffer ?_ fun _ => .refl valid
  intro buffer owned
  rw [ends_onStore_iff]
  refine (Store.ends_read valid.store).mono ?_ fun _ _ frame => .of_frame_empty valid frame
  rintro values store ⟨frame, reads⟩
  refine ⟨.of_frame_empty valid frame, ?_⟩
  obtain ⟨found, present, gradient⟩ := Option.bind_eq_some_iff.1 owned
  simp only [gradientReading?, present, gradient, Option.bind_eq_bind, Option.bind_some, reads]

omit [Element α] in
/-- No gradient buffer is a content buffer. -/
theorem content_ne_gradient
    (valid : graph.Valid pins)
    {node other : NodeId}
    {content gradient : BufferId}
    (owned : graph.arena.bufferOf? node .content = some content)
    (ownedGradient : graph.arena.bufferOf? other .gradient = some gradient) :
    content ≠ gradient := by
  rintro rfl
  obtain ⟨-, same⟩ := valid.apart node other .content .gradient content owned ownedGradient
  cases same

/-- Resetting a gradient writes that gradient only. -/
theorem ends_zeroGradient (valid : graph.Valid pins) (target : NodeId) :
    Ends (zeroGradient target) graph
      (fun _ after => ∃ buffer, graph.arena.bufferOf? target .gradient = some buffer ∧
        Keeps pins {buffer} graph after)
      (fun _ after => Keeps pins ∅ graph after) := by
  unfold zeroGradient
  rw [ends_bind_iff]
  refine ends_gradientBuffer ?_ fun _ => .refl valid
  intro buffer owned
  rw [ends_onStore_iff]
  refine (Store.ends_fill valid.store _).mono ?_ fun _ store frame => .of_frame_empty valid frame
  rintro _ store ⟨frame, -⟩
  exact ⟨buffer, owned, .of_frame valid frame (fun _ absent => absent.elim)
    fun _ content ownedContent => content_ne_gradient valid ownedContent owned⟩

/-! ## Descent -/

/-- Every value moved against its slope. -/
def Descends (rate : α) (values slopes moved : Array α) : Prop :=
  moved.size = values.size ∧ ∀ (index : Nat) (inside : index < values.size), ∃ slope,
    slopes[index]? = some slope ∧
      moved[index]? = some (Element.sub values[index] (Arithmetic.mul rate slope))

/-- The kernel moves one value at each index. -/
theorem row_descentKernel
    {rate : α}
    {values slopes row : Array α}
    {index : Nat}
    {next : Unit}
    (ran : (descentKernel rate).row index #[values, slopes] () = .ok (row, next)) :
    ∃ value slope, values[index]? = some value ∧ slopes[index]? = some slope ∧
      row = #[Element.sub value (Arithmetic.mul rate slope)] := by
  obtain ⟨moved, computes, same⟩ := map_eq_ok_iff.1 ran
  cases same
  obtain ⟨first, isFirst, afterFirst⟩ := bind_eq_ok_iff.1 computes
  obtain ⟨value, isValue, afterValue⟩ := bind_eq_ok_iff.1 afterFirst
  obtain ⟨second, isSecond, afterSecond⟩ := bind_eq_ok_iff.1 afterValue
  obtain ⟨slope, isSlope, returned⟩ := bind_eq_ok_iff.1 afterSecond
  cases isFirst
  cases isSecond
  cases returned
  exact ⟨value, slope, elementAt_eq_ok_iff.1 isValue, elementAt_eq_ok_iff.1 isSlope, rfl⟩

/-- The column that the kernel writes moves every value. -/
theorem descends_writeColumn
    {rate : α}
    {values slopes : Array α}
    {rows : Array (Array α)}
    (ran : (descentKernel rate).rows #[values, slopes] values.size = .ok rows) :
    Descends rate values slopes (Pool.writeColumn rows 0 values) := by
  obtain ⟨-, each⟩ := Kernel.rows_eq_ok (fun _ => True) trivial (fun _ _ _ _ _ _ => trivial) ran
  refine ⟨Pool.size_writeColumn rows 0 values, fun index inside => ?_⟩
  obtain ⟨_, _, row, -, computes, found⟩ := each index inside
  obtain ⟨value, slope, isValue, isSlope, rfl⟩ := row_descentKernel computes
  rw [Array.getElem?_eq_getElem inside] at isValue
  cases isValue
  exact ⟨slope, isSlope, Pool.getElem?_writeColumn 0 found inside⟩

/-- A buffer reads as it did before, moved against what another buffer read as. -/
def Moves (rate : α) (content gradient : BufferId) (before after : Store α) : Prop :=
  ∃ values slopes moved, before.reading? content = some values ∧
    before.reading? gradient = some slopes ∧ after.reading? content = some moved ∧
    Descends rate values slopes moved

theorem ends_descend_moves
    {store : Store α}
    (valid : store.Valid)
    (content gradient : BufferId)
    (rate : α) :
    Ends (descend content gradient rate) store
      (fun _ after => Store.Frame ∅ {content} store after ∧
        Moves rate content gradient store after)
      (fun _ after => Store.Frame ∅ ∅ store after) := by
  unfold descend
  refine (Store.ends_withLease (fun _ => ∅) (fun _ => {content})
    (fun _ inner => Moves rate content gradient store inner) valid ?_).mono ?_
    fun _ _ frame => frame
  · intro first held frame onTier claimed
    have pinsFirst : ∃ block, (first.pin content).Pins content block := by
      obtain ⟨block, stored⟩ := Store.onAccelerator_pin onTier
      refine ⟨block, stored, held.pin, ?_, Nat.succ_pos _⟩
      rw [Store.claim?_pin, if_pos rfl, claimed, Option.map_some]
    obtain ⟨block, pinsFirst⟩ := pinsFirst
    refine (Store.ends_withLease (fun _ => ∅) (fun _ => {content})
      (fun _ inner => Moves rate content gradient store inner)
      (Store.frame_pin frame.valid).valid ?_).mono ?_ fun _ _ failed => failed
    · intro second heldGradient later onTierGradient claimedGradient
      have valid := (Store.frame_pin later.valid : Store.Frame {gradient} ∅ second _).valid
      have stored := ((pinsFirst.frame later (Set.notMem_empty _)).pin gradient).contents
      -- until the launch every buffer reads as it did at first
      have same : ∀ buffer, (second.pin gradient).reading? buffer = store.reading? buffer := by
        intro buffer
        rw [Store.reading?_pin, later.readings buffer (Set.notMem_empty _) (Set.notMem_empty _),
          Store.reading?_pin, frame.readings buffer (Set.notMem_empty _) (Set.notMem_empty _)]
      rw [ends_bind_iff]
      refine (Store.ends_blockOf ⟨block, stored⟩).mono ?_ fun _ _ failed => failed
      rintro valuesBlock _ ⟨rfl, read⟩
      rw [ends_bind_iff]
      refine (Store.ends_blockOf (Store.onAccelerator_pin onTierGradient)).mono ?_
        fun _ _ failed => failed
      rintro slopesBlock _ ⟨rfl, readGradient⟩
      rw [ends_bind_iff]
      refine Store.ends_find ?_ fun _ => Store.Frame.refl valid
      intro found claimedFound _
      refine (Store.ends_launch valid (.cons read (.cons readGradient .nil)) (.cons read .nil)
        (List.nodup_cons.2 ⟨List.not_mem_nil, .nil⟩)).mono ?_ fun _ _ failed => failed
      rintro _ after ⟨written, views, rows, viewed, ran, columns⟩
      refine ⟨written.mono (Set.Subset.refl _) ?_, fun _ absent => absent.elim, ?_⟩
      · exact fun _ member => List.mem_singleton.1 member
      · obtain ⟨old, reads, size⟩ := Store.exists_reading valid claimedFound
        obtain ⟨values, slopes, rfl, isValues, isSlopes⟩ : ∃ values slopes,
            views = [values, slopes] ∧ (second.pin gradient).reading? content = some values ∧
              (second.pin gradient).reading? gradient = some slopes := by
          cases viewed with
          | @cons _ values _ _ first rest =>
            cases rest with
            | @cons _ slopes _ _ other rest =>
              cases rest
              exact ⟨values, slopes, rfl, first, other⟩
        have length : found.length = values.size := by
          rw [Option.some.inj (isValues.symm.trans reads)]
          exact size.symm
        rw [length] at ran
        have moved := columns 0 content rfl
        rw [isValues, Option.map_some] at moved
        exact ⟨values, slopes, _, (same content).symm.trans isValues,
          (same gradient).symm.trans isSlopes, moved, descends_writeColumn ran⟩
    · rintro _ after ⟨written, -, inner, released, moves⟩
      rw [Moves, ← released.reading?] at moves
      exact ⟨written, fun _ absent => absent.elim, moves⟩
  · rintro _ after ⟨written, -, inner, released, moves⟩
    rw [Moves, ← released.reading?] at moves
    exact ⟨written, moves⟩

theorem ends_descend
    {store : Store α}
    (valid : store.Valid)
    (content gradient : BufferId)
    (rate : α) :
    Ends (descend content gradient rate) store
      (fun _ after => Store.Frame ∅ {content} store after)
      (fun _ after => Store.Frame ∅ ∅ store after) :=
  (ends_descend_moves valid content gradient rate).mono (fun _ _ done => done.1)
    fun _ _ frame => frame

/-- A leaf is overwritten with what it was, moved against its gradient. -/
def Descended (before : Graph α) (leaf : NodeId) (rate : α) (after : Graph α) : Prop :=
  ∃ content gradient values slopes moved,
    before.arena.bufferOf? leaf .content = some content ∧
    before.arena.bufferOf? leaf .gradient = some gradient ∧
    before.store.reading? content = some values ∧
    before.store.reading? gradient = some slopes ∧
    Descends rate values slopes moved ∧ before.Overwrites leaf moved after

/-- An update overwrites a leaf, which stays the constant that it may be; or nothing changes. -/
theorem ends_applyGradient_descended
    (valid : graph.Valid pins)
    (leaf : NodeId)
    (rate : α) :
    Ends (applyGradient leaf rate) graph
      (fun _ after => graph.Descended leaf rate after ∧ after.interned = graph.interned ∧
        after.constants = graph.constants)
      (fun _ after => graph.Rests after) := by
  unfold applyGradient
  rw [ends_bind_iff]
  refine ends_node ?_ fun _ => .refl valid
  intro found present
  dsimp only
  split
  · exact .refl valid
  next leafy =>
    have isLeaf := operation?_of_isLeaf present (by simpa using leafy)
    rw [ends_bind_iff]
    refine ends_gradientBuffer ?_ fun _ => .refl valid
    intro gradient ownedGradient
    rw [ends_bind_iff]
    refine ends_content ?_ fun _ => .refl valid
    intro content owned
    rw [ends_bind_iff, ends_onStore_iff]
    refine (ends_descend_moves valid.store content gradient rate).mono ?_
      fun _ store frame => ⟨store, frame, rfl⟩
    rintro _ store ⟨frame, values, slopes, moved, reads, readsGradient, becomes, descends⟩
    rw [ends_modify_iff]
    exact ⟨⟨content, gradient, values, slopes, moved, owned, ownedGradient, reads, readsGradient,
      descends, isLeaf, rfl, rfl, rfl, content, owned, frame, becomes⟩, rfl, rfl⟩

theorem ends_applyGradient
    (valid : graph.Valid pins)
    (leaf : NodeId)
    (rate : α) :
    Ends (applyGradient leaf rate) graph
      (fun _ after => ∃ written, Keeps pins written graph after)
      (fun _ after => ∃ written, Keeps pins written graph after) := by
  refine (ends_applyGradient_descended valid leaf rate).mono ?_ fun _ _ rests =>
    ⟨∅, rests.keeps valid⟩
  rintro _ after ⟨⟨_, _, _, _, moved, -, -, -, -, -, overwrites⟩, -, -⟩
  obtain ⟨content, -, keeps⟩ := overwrites.keeps valid
  exact ⟨{content}, keeps⟩

/-! ## The backward pass -/

omit [Element α] in
/-- The answers of actions that leave the graph alone, without those that are none. -/
theorem ends_filterMapM
    {β γ : Type}
    {action : β → Action α (Option γ)}
    (answer : β → Option γ)
    {failed : Error → Graph α → Prop}
    (list : List β)
    (each : ∀ element ∈ list, Ends (action element) graph
      (fun found after => after = graph ∧ found = answer element) failed) :
    Ends
      (do
        let found ← list.mapM action
        return found.filterMap id)
      graph
      (fun answers after => after = graph ∧ answers = list.filterMap answer)
      failed := by
  rw [ends_bind_iff]
  refine (ends_mapM list each).mono ?_ fun _ _ failed => failed
  rintro found graph ⟨rfl, given⟩
  have image : found = list.map answer := by
    clear each
    induction given with
    | nil => rfl
    | cons first _ step => rw [List.map_cons, first, step]
  refine ⟨rfl, ?_⟩
  rw [image, List.filterMap_map]
  rfl

omit [Element α] in
theorem gradient?_eq_bufferOf?
    {node : NodeId}
    {found : Node}
    (present : graph.arena.node? node = some found) :
    found.gradient? = graph.arena.bufferOf? node .gradient := by
  rw [Arena.bufferOf?, present, Option.bind_some]

omit [Element α] in
theorem ends_dataTargets
    {failed : Error → Graph α → Prop}
    (compiled : Script)
    (missing : ∀ leaf ∈ compiled.data, graph.arena.node? leaf = none →
      failed (.unknownNode leaf) graph) :
    Ends (dataTargets compiled) graph
      (fun targets after => after = graph ∧
        targets = compiled.data.zipIdx.filterMap fun (leaf, slot) =>
          (graph.arena.bufferOf? leaf .gradient).map (⟨.data slot, ·⟩)) failed := by
  refine ends_filterMapM _ _ ?_
  rintro ⟨leaf, slot⟩ member
  rw [ends_bind_iff]
  refine ends_node ?_ (missing leaf (List.fst_mem_of_mem_zipIdx member))
  intro found present
  exact ⟨rfl, congrArg _ (gradient?_eq_bufferOf? present)⟩

omit [Element α] in
theorem ends_recordTargets
    {failed : Error → Graph α → Prop}
    (compiled : Script)
    (missing : ∀ node ∈ compiled.nodes, graph.arena.node? node = none →
      failed (.unknownNode node) graph) :
    Ends (recordTargets compiled) graph
      (fun targets after => after = graph ∧
        targets = compiled.nodes.zipIdx.filterMap fun (node, index) =>
          if graph.arena.isLeaf node then none
          else (graph.arena.bufferOf? node .gradient).map (⟨.record index, ·⟩)) failed := by
  refine ends_filterMapM _ _ ?_
  rintro ⟨node, index⟩ member
  rw [ends_bind_iff]
  refine ends_node ?_ (missing node (List.fst_mem_of_mem_zipIdx member))
  intro found present
  have operation : graph.arena.operation? node = some found.operation := by
    rw [Arena.operation?, present, Option.map_some]
  have same : graph.arena.isLeaf node = found.operation.isLeaf := by
    rw [Arena.isLeaf, operation]
    rfl
  dsimp only
  rw [same]
  split
  · exact ⟨rfl, rfl⟩
  · exact ⟨rfl, congrArg _ (gradient?_eq_bufferOf? present)⟩

/-- The gradient buffers of what an output depends on. -/
def gradients (arena : Arena) (output : NodeId) : Set BufferId :=
  { buffer | ∃ node, arena.DependsOn output node ∧
    arena.bufferOf? node .gradient = some buffer }

/-- The gradient of a source is changed in a given way by its adjoints on what the leaves
read as. -/
def Changes
    (before after : Graph α)
    (changed : Array α → Array α → Array α → Prop)
    (script : Script)
    (plan : Plan)
    (domain : Nat) : Prop :=
  ∀ node source buffer, script.IsSource before.arena node source →
    before.arena.bufferOf? node .gradient = some buffer →
    ∃ old adjoints new, before.store.reading? buffer = some old ∧
      Gradient.Adjoints plan (script.data.map before.reading).toArray source domain adjoints ∧
      after.store.reading? buffer = some new ∧ changed old adjoints new

/-- The gradient of a source grows by its adjoints. -/
def Grows (before after : Graph α) (script : Script) (plan : Plan) (domain : Nat) : Prop :=
  before.Changes after
    (fun old adjoints new => new = Gradient.grown before.config.fanIn old adjoints)
    script plan domain

/--
Gradients as long as the output grew, and of the others at least one was left out.
-/
def Interrupted (before after : Graph α) (script : Script) (plan : Plan) (domain : Nat) : Prop :=
  before.Changes after (Gradient.GrownOrLeft domain before.config.fanIn) script plan domain ∧
    ∃ node source buffer old, script.IsSource before.arena node source ∧
      before.arena.bufferOf? node .gradient = some buffer ∧
      before.store.reading? buffer = some old ∧ old.size ≠ domain ∧
      after.store.reading? buffer = some old

/-- A step that leaves all gradients of sources alone leaves all buffers alone. -/
theorem Keeps.of_untouched
    {after : Graph α}
    (keeps : Keeps pins (gradients graph.arena output) graph after)
    (same : after.arena = graph.arena)
    (untouched : ∀ buffer ∈ gradients graph.arena output,
      after.store.reading? buffer = graph.store.reading? buffer) :
    Keeps pins ∅ graph after :=
  { keeps with
    readings := fun node part buffer owned _ => by
      by_cases written : buffer ∈ gradients graph.arena output
      · exact untouched buffer written
      · exact keeps.readings node part buffer owned written
    fresh := fun node buffer none owned _ => by
      rw [same] at owned
      cases none.symm.trans owned }

omit [Element α] in
/-- No two targets of a pass share a buffer. -/
theorem nodup_targets
    {compiled : Script}
    (valid : graph.Valid pins)
    (properly : Script.Compiled graph.arena output compiled) :
    ((compiled.targets graph.arena).map (·.buffer)).Nodup := by
  rw [Script.buffers_targets]
  refine (properly.sources valid.arena.ordered valid.arena.proper).1.filterMap
    fun node other buffer owned ownedOther => ?_
  exact (valid.apart node other .gradient .gradient buffer owned ownedOther).1

omit [Element α] in
/-- The records of a script are for nodes that its output depends on. -/
theorem dependsOn_of_mem_nodes
    {arena : Arena}
    {node : NodeId}
    {script : Script}
    (sound : arena.Sound)
    (properly : Script.Compiled arena output script)
    (member : node ∈ script.nodes) :
    arena.DependsOn output node := by
  by_cases isLeaf : arena.isLeaf output = true
  · rw [properly.nodes_of_leaf sound.proper isLeaf, List.mem_singleton] at member
    exact member ▸ .refl
  · rw [properly.nodes sound.proper (Bool.eq_false_iff.2 isLeaf), List.mem_filter,
      List.mem_reverse, Arena.mem_postOrder_nil_iff sound.ordered] at member
    exact member.1

omit [Element α] in
/-- All nodes of a script are there if its output is. -/
theorem node_ne_none_of_mem
    {compiled : Script}
    {node : NodeId}
    (valid : graph.Valid pins)
    (properly : Script.Compiled graph.arena output compiled)
    (inside : output.index < graph.arena.size)
    (member : node ∈ compiled.data ∨ node ∈ compiled.nodes) :
    graph.arena.node? node ≠ none := by
  obtain ⟨-, members⟩ := properly.sources valid.arena.ordered valid.arena.proper
  have depends : graph.arena.DependsOn output node := by
    rcases member with member | member
    · exact (members node).1 (List.mem_append_left _ member)
    · exact dependsOn_of_mem_nodes valid.arena properly member
  have index := Nat.lt_of_le_of_lt (depends.index_le valid.arena.ordered) inside
  rw [← Arena.node?_isSome_iff] at index
  exact Option.isSome_iff_ne_none.1 index

omit [Element α] in
/-- A target is the gradient of a node that the output depends on. -/
theorem exists_owner_of_mem_targets
    {compiled : Script}
    {target : Gradient.Target}
    (valid : graph.Valid pins)
    (properly : Script.Compiled graph.arena output compiled)
    (member : target ∈ compiled.targets graph.arena) :
    ∃ node, graph.arena.DependsOn output node ∧
      graph.arena.bufferOf? node .gradient = some target.buffer := by
  obtain ⟨source, buffer⟩ := target
  obtain ⟨node, isSource, owned⟩ := Script.mem_targets_iff.1 member
  exact ⟨node, properly.dependsOn_of_isSource valid.arena.ordered valid.arena.proper isSource,
    owned⟩

section

variable
    {compiled : Script}
    {data : List BufferId}
    (owned : List.Forall₂
      (fun node buffer => graph.arena.bufferOf? node .content = some buffer) compiled.data data)
    (valid : graph.Valid pins)
    (properly : Script.Compiled graph.arena output compiled)

include owned valid properly

omit [Element α] in
/-- The buffers that a pass reads and writes belong to nodes. -/
theorem exists_owner_of_mem_pass
    {buffer : BufferId}
    (member : buffer ∈ data ++ (compiled.targets graph.arena).map (·.buffer)) :
    ∃ node part, graph.arena.bufferOf? node part = some buffer := by
  rcases List.mem_append.1 member with member | member
  · obtain ⟨leaf, -, owns⟩ := exists_of_forall₂ owned.flip buffer member
    exact ⟨leaf, .content, owns⟩
  · obtain ⟨target, among, rfl⟩ := List.mem_map.1 member
    obtain ⟨node, -, owns⟩ := exists_owner_of_mem_targets valid properly among
    exact ⟨node, .gradient, owns⟩

omit [Element α] in
theorem claim_ne_none_of_mem_pass
    {buffer : BufferId}
    (member : buffer ∈ data ++ (compiled.targets graph.arena).map (·.buffer)) :
    graph.store.claim? buffer ≠ none := by
  obtain ⟨node, part, owns⟩ := exists_owner_of_mem_pass owned valid properly member
  obtain ⟨size, claimed⟩ := valid.exists_claim owns
  rw [claimed]
  exact nofun

end

/-- The pass itself, once its targets are found. -/
def addToTargets
    (plan : Plan)
    (compiled : Script)
    (targets : List Gradient.Target)
    (domain : Nat) : Action α Unit := do
  let data ← dataBuffers compiled
  let fanIn := (← get).config.fanIn
  onStore (Gradient.addAdjoints plan data targets domain fanIn)

/-- What a backward pass does once its output is up to date and compiled. -/
def addGradients (output : NodeId) (compiled : Script) : Action α Unit := do
  onStore compiled.checkSupported
  let plan ← check (Plan.ofScript compiled)
  let domain ← sizeOf output
  let targets := (← dataTargets compiled) ++ (← recordTargets compiled)
  if targets.isEmpty then
    return
  addToTargets plan compiled targets domain

theorem backward_eq (output : NodeId) :
    (backward output : Action α Unit) =
      materialize output >>= fun _ => script output >>= addGradients output :=
  rfl

/--
Of a script that is compiled, everything is found before anything is written.  Only the support
of the accelerator may be lacking.
-/
theorem ends_addGradients
    {done : Unit → Graph α → Prop}
    {failed : Error → Graph α → Prop}
    {compiled : Script}
    (valid : graph.Valid pins)
    (inside : output.index < graph.arena.size)
    (properly : Script.Compiled graph.arena output compiled)
    (supports : Ends (onStore compiled.checkSupported) graph (fun _ after => after = graph) failed)
    (runs : ∀ plan shape domain, Plan.ofScript compiled = .ok plan →
      graph.arena.shape? output = some shape → shape.size = .ok domain →
      Ends
        (if (compiled.targets graph.arena).isEmpty then pure ()
          else addToTargets plan compiled (compiled.targets graph.arena) domain)
        graph done failed) :
    Ends (addGradients output compiled) graph done failed := by
  obtain ⟨plan, planned, -⟩ := Plan.ofScript_eq_ok (properly.validate valid.arena.proper)
  obtain ⟨shape, domain, shaped, sized⟩ := valid.exists_size inside
  obtain ⟨found, present, sameShape⟩ := Option.map_eq_some_iff.1 shaped
  have lifted : Size.lift found.shape.size = .ok domain := by
    rw [sameShape, sized]
    rfl
  unfold addGradients
  rw [ends_bind_iff]
  refine supports.mono ?_ fun _ _ failed => failed
  rintro _ graph rfl
  rw [planned, ends_bind_iff]
  show Ends (sizeOf output >>= _) graph _ _
  rw [ends_bind_iff, sizeOf, ends_bind_iff]
  refine ends_node_of_present present ?_
  rw [lifted]
  show Ends (dataTargets compiled >>= _) graph _ _
  rw [ends_bind_iff]
  refine (ends_dataTargets compiled fun leaf member absent =>
    absurd absent (node_ne_none_of_mem valid properly inside (.inl member))).mono ?_
      fun _ _ failed => failed
  rintro fromData graph ⟨rfl, rfl⟩
  rw [ends_bind_iff]
  refine (ends_recordTargets compiled fun node member absent =>
    absurd absent (node_ne_none_of_mem valid properly inside (.inr member))).mono ?_
      fun _ _ failed => failed
  rintro fromRecords graph ⟨rfl, rfl⟩
  exact runs plan shape domain planned shaped sized

/--
Adding the adjoints writes the gradients of what the output depends on.  If that fails, it
may be interrupted.
-/
theorem ends_addToTargets
    (valid : graph.Valid pins)
    {compiled : Script}
    {plan : Plan}
    (properly : Script.Compiled graph.arena output compiled)
    (planned : Plan.ofScript compiled = .ok plan)
    (domain : Nat) :
    Ends (addToTargets plan compiled (compiled.targets graph.arena) domain) graph
      (fun _ after => Keeps pins (gradients graph.arena output) graph after ∧
        after.arena = graph.arena ∧ graph.Grows after compiled plan domain)
      (fun _ after => Keeps pins ∅ graph after ∨
        Keeps pins (gradients graph.arena output) graph after ∧ after.arena = graph.arena ∧
          graph.Interrupted after compiled plan domain) := by
  obtain ⟨-, members⟩ := properly.sources valid.arena.ordered valid.arena.proper
  obtain ⟨other, again, ordered, -, enough⟩ :=
    Plan.ofScript_eq_ok (properly.validate valid.arena.proper)
  rw [planned] at again
  cases again
  have distinctBuffers := nodup_targets valid properly
  have written : { buffer | buffer ∈ (compiled.targets graph.arena).map (·.buffer) } ⊆
      gradients graph.arena output := by
    intro buffer member
    rw [Set.mem_ofPred_eq, Script.buffers_targets, List.mem_filterMap] at member
    obtain ⟨node, source, owned⟩ := member
    exact ⟨node, (members node).1 source, owned⟩
  have contents : ∀ node content, graph.arena.bufferOf? node .content = some content →
      content ∉ gradients graph.arena output := by
    rintro node content owned ⟨other, -, ownedGradient⟩
    exact content_ne_gradient valid owned ownedGradient rfl
  unfold addToTargets
  rw [ends_bind_iff]
  refine (ends_dataBuffers compiled).mono ?_ ?_
  · rintro data graph ⟨rfl, owned⟩
    have live : ∀ buffer ∈ data, graph.store.claim? buffer ≠ none := fun buffer member =>
      claim_ne_none_of_mem_pass owned valid properly (List.mem_append_left _ member)
    have length : data.length = plan.dataLength := owned.length_eq.symm.trans enough.symm
    rw [ends_bind_iff, ends_get_iff, ends_onStore_iff]
    have keeps : ∀ {store : Store α},
        Store.Frame ∅ { buffer | buffer ∈ (compiled.targets graph.arena).map (·.buffer) }
          graph.store store →
        Keeps pins (gradients graph.arena output) graph { graph with store := store } :=
      fun frame => .of_frame valid (frame.mono (Set.Subset.refl _) written)
        (fun _ absent => absent.elim) contents
    have lifts : ∀ {store : Store α} {changed : Array α → Array α → Array α → Prop},
        Gradient.Changes changed plan data (compiled.targets graph.arena) domain
          graph.store.reading? store.reading? →
        graph.Changes { graph with store := store } changed compiled plan domain := by
      rintro store changed ⟨views, viewed, changes⟩ node source buffer isSource ownedGradient
      obtain ⟨old, adjoints, new, reads, given, becomes, holds⟩ := changes ⟨source, buffer⟩
        (Script.mem_targets_iff.2 ⟨node, isSource, ownedGradient⟩)
      rw [views_eq_readings owned viewed] at given
      exact ⟨old, adjoints, new, reads, given, becomes, holds⟩
    refine (Gradient.ends_addAdjoints valid.store ordered length live distinctBuffers).mono ?_ ?_
    · rintro _ store ⟨frame, changes⟩
      exact ⟨keeps frame, rfl, lifts changes⟩
    · rintro _ store ⟨frame, untouched | ⟨changes, target, member, old, reads, different, left⟩⟩
      · refine .inl ((keeps frame).of_untouched rfl ?_)
        rintro buffer ⟨node, depends, ownedGradient⟩
        obtain ⟨source, isSource⟩ :=
          properly.exists_source valid.arena.ordered valid.arena.proper depends
        exact untouched ⟨source, buffer⟩
          (Script.mem_targets_iff.2 ⟨node, isSource, ownedGradient⟩)
      · obtain ⟨node, isSource, ownedGradient⟩ := Script.mem_targets_iff.1 member
        exact .inr ⟨keeps frame, rfl, lifts changes, node, target.source, target.buffer, old,
          isSource, ownedGradient, reads, different, left⟩
  · rintro _ _ rfl
    exact .inl (.refl valid)

/-- What a backward pass does to a graph whose output is marked. -/
structure Backpropagates
    (pins : BufferId → Nat)
    (marked after : Graph α)
    (output : NodeId) : Prop where
  keeps : Keeps pins
    ({ buffer | marked.arena.bufferOf? output .content = some buffer ∧
      ¬ marked.arena.IsCurrent output } ∪ gradients marked.arena output) marked after
  buffers : ∀ node part, after.arena.bufferOf? node part = marked.arena.bufferOf? node part
  current : after.arena.IsCurrent output
  value : ¬ marked.arena.IsCurrent output → ∀ shape size,
    marked.arena.shape? output = some shape → shape.size = .ok size →
    after.reading output = marked.meaning output size
  grows : ∃ script plan shape domain, Script.compile marked.arena output = .ok script ∧
    Plan.ofScript script = .ok plan ∧ marked.arena.shape? output = some shape ∧
    shape.size = .ok domain ∧ marked.Grows after script plan domain

section

variable
    {marked middle after : Graph α}
    {target : BufferId}
    {script : Script}
    {plan : Plan}
    {domain : Nat}

/-- A node is the same source before and after the output is computed. -/
theorem Computes.isSource_iff
    {node : NodeId}
    {source : Operand}
    (computes : Computes pins marked middle output target) :
    script.IsSource middle.arena node source ↔ script.IsSource marked.arena node source := by
  cases source with
  | data slot => exact Iff.rfl
  | record index => rw [Script.IsSource, Script.IsSource, computes.alike.operation?]

/-- A gradient reads the same before and after the output is computed. -/
theorem Computes.gradient_eq
    {node : NodeId}
    {buffer : BufferId}
    (computes : Computes pins marked middle output target)
    (valid : marked.Valid pins)
    (owned : marked.arena.bufferOf? node .gradient = some buffer) :
    middle.store.reading? buffer = marked.store.reading? buffer :=
  computes.keeps.readings node .gradient buffer owned fun written =>
    content_ne_gradient valid computes.owned owned written.1.symm

/-- Gradients that change after the output is computed change from what they were before. -/
theorem Computes.changes
    {changed : Array α → Array α → Array α → Prop}
    (computes : Computes pins marked middle output target)
    (valid : marked.Valid pins)
    (properly : Script.Compiled marked.arena output script)
    (changes : middle.Changes after changed script plan domain) :
    marked.Changes after changed script plan domain := by
  intro node source buffer isSource owned
  obtain ⟨old, adjoints, new, reads, given, becomes, holds⟩ :=
    changes node source buffer (computes.isSource_iff.2 isSource)
      ((computes.buffers node .gradient).trans owned)
  rw [computes.gradient_eq valid owned] at reads
  have leaves : script.data.map middle.reading = script.data.map marked.reading := by
    refine List.map_congr_left fun leaf member => ?_
    rw [properly.data valid.arena.proper, List.mem_filter, Arena.isLeaf_iff] at member
    have current := valid.leaves leaf member.2
    obtain ⟨content, ownedContent⟩ := valid.current leaf current
    refine reading_congr computes.keeps.grows ownedContent
      (computes.keeps.readings leaf .content content ownedContent ?_)
    rintro ⟨rfl, outdated⟩
    obtain ⟨rfl, -⟩ := valid.apart leaf output .content .content content ownedContent
      computes.owned
    exact outdated current
  rw [leaves] at given
  exact ⟨old, adjoints, new, reads, given, becomes, holds⟩

/-- A pass that is interrupted after the output is computed is so from before. -/
theorem Computes.interrupted
    (computes : Computes pins marked middle output target)
    (valid : marked.Valid pins)
    (properly : Script.Compiled marked.arena output script)
    (interrupted : middle.Interrupted after script plan domain) :
    marked.Interrupted after script plan domain := by
  obtain ⟨changes, node, source, buffer, old, isSource, owned, reads, different, left⟩ :=
    interrupted
  rw [computes.keeps.config] at changes
  have ownedBefore := (computes.buffers node .gradient).symm.trans owned
  rw [computes.gradient_eq valid ownedBefore] at reads
  exact ⟨computes.changes valid properly changes, node, source, buffer, old,
    computes.isSource_iff.1 isSource, ownedBefore, reads, different, left⟩

/-- A step that changes neither nodes nor buffers may follow. -/
theorem Computes.followed
    (computes : Computes pins marked middle output target)
    (keeps : Keeps pins ∅ middle after)
    (same : after.arena = middle.arena) :
    Computes pins marked after output target where
  keeps := by
    have both := computes.keeps.trans keeps
    rwa [Set.union_empty] at both
  alike := same ▸ computes.alike
  buffers := same ▸ computes.buffers
  owned := computes.owned
  current := same ▸ computes.current
  value outdated shape size shaped sized := by
    have owned := (computes.buffers output .content).trans computes.owned
    rw [keeps.readings output .content target owned (Set.notMem_empty _)]
    exact computes.value outdated shape size shaped sized

end

/-- What a backward pass leaves behind that stopped between two gradients. -/
structure Stops
    (pins : BufferId → Nat)
    (marked after : Graph α)
    (output : NodeId) : Prop where
  keeps : Keeps pins
    ({ buffer | marked.arena.bufferOf? output .content = some buffer ∧
      ¬ marked.arena.IsCurrent output } ∪ gradients marked.arena output) marked after
  buffers : ∀ node part, after.arena.bufferOf? node part = marked.arena.bufferOf? node part
  interrupted : ∃ script plan shape domain, Script.compile marked.arena output = .ok script ∧
    Plan.ofScript script = .ok plan ∧ marked.arena.shape? output = some shape ∧
    shape.size = .ok domain ∧ marked.Interrupted after script plan domain

/-- What a backward pass that fails leaves behind: all gradients as they were, or some grown. -/
def Fails (pins : BufferId → Nat) (graph after : Graph α) (output : NodeId) : Prop :=
  (∃ written, Keeps pins written graph after ∧ ∀ node buffer,
    after.arena.bufferOf? node .gradient = some buffer → buffer ∉ written) ∨
  ∃ marked, markOutput output graph = .ok () marked ∧ Stops pins marked after output

theorem Fails.keeps
    {after : Graph α}
    (fails : Fails pins graph after output)
    (valid : graph.Valid pins) :
    ∃ written, Keeps pins written graph after := by
  rcases fails with ⟨written, keeps, -⟩ | ⟨marked, outcome, stops⟩
  · exact ⟨written, keeps⟩
  · obtain ⟨first, -⟩ := (ends_markOutput valid output).of_ok outcome
    exact ⟨_, first.trans_empty stops.keeps⟩

section

variable
    {marked middle after : Graph α}
    {target : BufferId}

/-- Before the pass itself only the content of the output was written, which is no gradient. -/
theorem Computes.fails
    (computes : Computes pins marked middle output target)
    (first : Keeps pins ∅ graph marked)
    (keeps : Keeps pins ∅ middle after) :
    Fails pins graph after output := by
  have owned := keeps.grows.buffer output .content target
    ((computes.buffers output .content).trans computes.owned)
  refine .inl ⟨_, (first.trans_empty computes.keeps).trans keeps,
    fun node buffer ownedGradient => ?_⟩
  rw [Set.union_empty]
  rintro ⟨rfl, -⟩
  exact content_ne_gradient keeps.valid owned ownedGradient rfl

/-- A pass that follows writes the gradients besides what was computed. -/
theorem Computes.keeps_pass
    (computes : Computes pins marked middle output target)
    (second : Keeps pins (gradients middle.arena output) middle after) :
    Keeps pins
      ({ buffer | marked.arena.bufferOf? output .content = some buffer ∧
        ¬ marked.arena.IsCurrent output } ∪ gradients marked.arena output) marked after := by
  refine (computes.keeps.trans second).mono (Set.union_subset_union ?_ (Eq.subset ?_))
  · rintro _ ⟨rfl, outdated⟩
    exact ⟨computes.owned, outdated⟩
  · ext buffer
    simp only [gradients, Set.mem_ofPred_eq, computes.buffers, computes.alike.dependsOn]

/-- A pass that follows leaves behind what was computed, and the gradients grown. -/
theorem Computes.backpropagates
    {compiled : Script}
    {plan : Plan}
    {shape : Shape}
    {domain : Nat}
    (computes : Computes pins marked middle output target)
    (valid : marked.Valid pins)
    (compiles : Script.compile marked.arena output = .ok compiled)
    (properly : Script.Compiled marked.arena output compiled)
    (planned : Plan.ofScript compiled = .ok plan)
    (shaped : middle.arena.shape? output = some shape)
    (sized : shape.size = .ok domain)
    (second : Keeps pins (gradients middle.arena output) middle after)
    (same : after.arena = middle.arena)
    (grows : middle.Grows after compiled plan domain) :
    Backpropagates pins marked after output := by
  have ownedMiddle := (computes.buffers output .content).trans computes.owned
  have content : target ∉ gradients middle.arena output := by
    rintro ⟨other, -, ownedGradient⟩
    exact content_ne_gradient computes.keeps.valid ownedMiddle ownedGradient rfl
  rw [computes.alike.shape?] at shaped
  refine ⟨computes.keeps_pass second, same ▸ computes.buffers, same ▸ computes.current,
    fun outdated shape size shapedOutput sizedOutput => ?_, compiled, plan, shape, domain, compiles,
    planned, shaped, sized, ?_⟩
  · refine reading_of_bufferOf? (same ▸ ownedMiddle) ?_
    rw [second.readings output .content target ownedMiddle content]
    exact computes.value outdated shape size shapedOutput sizedOutput
  · unfold Grows at grows
    rw [computes.keeps.config] at grows
    exact computes.changes valid properly grows

end

/--
A backward pass that succeeds marks its output, brings it up to date, and adds the
adjoints; one that fails leaves the graph coherent as well.
-/
theorem ends_backward (valid : graph.Valid pins) (output : NodeId) :
    Ends (backward output) graph
      (fun _ after => ∃ marked, markOutput output graph = .ok () marked ∧
        Backpropagates pins marked after output)
      (fun _ after => Fails pins graph after output) := by
  rw [backward_eq, ends_bind_iff]
  refine (ends_materialize valid output).mono ?_ fun _ _ keeps =>
    .inl ⟨∅, keeps, fun _ _ _ => Set.notMem_empty _⟩
  rintro target computed ⟨marked, outcome, computes⟩
  obtain ⟨first, -⟩ := (ends_markOutput valid output).of_ok outcome
  rw [ends_bind_iff]
  refine (ends_script computes.keeps.valid output).mono ?_
    fun _ _ same => computes.fails first (same.symm ▸ .refl computes.keeps.valid)
  rintro compiled middle ⟨kept, sameArena, -, inside, compiles, properly⟩
  have computes := computes.followed kept sameArena
  have failed := computes.fails first (.refl kept.valid)
  rw [← sameArena] at inside compiles properly
  have insideMarked : output.index < marked.arena.size := computes.alike.size ▸ inside
  have compilesMarked : Script.compile marked.arena output = .ok compiled := by
    rw [← compiles]
    exact (Script.compile_extends first.valid.arena.ordered kept.valid.arena.ordered
      computes.alike.extension insideMarked).symm
  obtain ⟨script, again, properlyMarked⟩ :=
    Script.compile_eq_ok first.valid.arena.ordered first.valid.arena.proper insideMarked
  rw [compilesMarked] at again
  cases again
  refine ends_addGradients kept.valid inside properly ?_ fun plan shape domain planned shaped
    sized => ?_
  · rw [ends_onStore_iff]
    refine Script.ends_checkSupported.mono ?_ ?_
    · rintro _ _ rfl
      rfl
    · rintro _ _ rfl
      exact failed
  split
  next none =>
    refine ⟨marked, outcome, computes.backpropagates first.valid compilesMarked properlyMarked
      planned shaped sized ((Keeps.refl kept.valid).mono (Set.empty_subset _)) rfl ?_⟩
    intro node source buffer isSource owned
    have member := Script.mem_targets_iff.2 ⟨node, isSource, owned⟩
    rw [List.isEmpty_iff.1 none] at member
    cases member
  · refine (ends_addToTargets kept.valid properly planned domain).mono ?_ ?_
    · rintro _ after ⟨second, same, grows⟩
      exact ⟨marked, outcome, computes.backpropagates first.valid compilesMarked properlyMarked
        planned shaped sized second same grows⟩
    · rintro _ after (keeps | ⟨second, same, interrupted⟩)
      · exact computes.fails first keeps
      · exact .inr ⟨marked, outcome, computes.keeps_pass second, same ▸ computes.buffers, compiled,
          plan, shape, domain, compilesMarked, planned, computes.alike.shape? ▸ shaped, sized,
          computes.interrupted first.valid properlyMarked interrupted⟩

end Graph

end Elementwise
