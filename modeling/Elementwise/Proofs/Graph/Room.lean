import Elementwise.Proofs.Graph.Backpropagation
import Elementwise.Proofs.Graph.Lasting
import Elementwise.Proofs.Graph.Upkeep

/-!
# How much room a graph needs

On an accelerator that never fails and that no lease of the user narrows, a
node that is up to date can always be read, and any other just if its leaves
and the node itself fit on the accelerator together, whatever is there before.
A backward pass needs its leaves and one buffer as long as the output for each
gradient, and is refused either before it has changed a gradient or not at all.

The last point needs to know where shapes come from: each computed node has the
shape of one of its operands.  So an output that is longer than one of the
nodes it depends on has a leaf of its own length besides a shorter one, and the
sums at the end of a pass need no more than the launch before them.
-/

namespace Elementwise

namespace Arena

variable {arena other : Arena}

/-! ## Lengths and leaves -/

/-- The number of elements of a node. -/
def lengthOf (arena : Arena) (node : NodeId) : Nat :=
  (((arena.shape? node).map (·.size)).bind Except.toOption).getD 0

theorem lengthOf_eq
    {node : NodeId}
    {shape : Shape}
    {size : Nat}
    (shaped : arena.shape? node = some shape)
    (sized : shape.size = .ok size) :
    arena.lengthOf node = size := by
  rw [lengthOf, shaped, Option.map_some, sized]
  rfl

/-- The nodes of an arena with a property. -/
noncomputable def nodesWith (arena : Arena) (holds : NodeId → Prop) : Finset NodeId := by
  classical
  exact ((Finset.range arena.size).image NodeId.mk).filter holds

theorem mem_nodesWith_iff
    {holds : NodeId → Prop}
    (inside : ∀ node, holds node → node.index < arena.size)
    {node : NodeId} :
    node ∈ arena.nodesWith holds ↔ holds node := by
  classical
  rw [nodesWith, Finset.mem_filter, Finset.mem_image]
  exact ⟨fun member => member.2,
    fun held => ⟨⟨node.index, Finset.mem_range.2 (inside node held), rfl⟩, held⟩⟩

/-- The different leaves that a node depends on. -/
noncomputable def leavesOf (arena : Arena) (output : NodeId) : Finset NodeId :=
  arena.nodesWith fun node => arena.DependsOn output node ∧ arena.operation? node = some .leaf

theorem mem_leavesOf_iff
    {output node : NodeId} :
    node ∈ arena.leavesOf output ↔
      arena.DependsOn output node ∧ arena.operation? node = some .leaf :=
  mem_nodesWith_iff fun _ held => Graph.lt_size_of_operation? held.2

/-- The elements that are on the accelerator at once when a node is computed. -/
noncomputable def loadOf (arena : Arena) (output : NodeId) : Nat :=
  ∑ leaf ∈ arena.leavesOf output, arena.lengthOf leaf + arena.lengthOf output

theorem Alike.lengthOf (alike : arena.Alike other) : other.lengthOf = arena.lengthOf := by
  unfold Arena.lengthOf
  rw [alike.shape?]

theorem Alike.leavesOf (alike : arena.Alike other) : other.leavesOf = arena.leavesOf := by
  unfold Arena.leavesOf nodesWith
  rw [alike.size, alike.dependsOn, alike.operation?]

theorem Alike.loadOf (alike : arena.Alike other) : other.loadOf = arena.loadOf := by
  unfold Arena.loadOf
  rw [alike.lengthOf, alike.leavesOf]

/-- The nodes with a gradient buffer that a node depends on, itself included. -/
noncomputable def gradientsOf (arena : Arena) (output : NodeId) : Finset NodeId :=
  arena.nodesWith fun node => arena.DependsOn output node ∧
    ∃ buffer, arena.bufferOf? node .gradient = some buffer

theorem mem_gradientsOf_iff
    {output node : NodeId} :
    node ∈ arena.gradientsOf output ↔
      arena.DependsOn output node ∧ ∃ buffer, arena.bufferOf? node .gradient = some buffer :=
  mem_nodesWith_iff fun _ ⟨_, _, owned⟩ => Graph.index_lt_of_bufferOf? owned

/-- The elements that are on the accelerator at once in a backward pass. -/
noncomputable def passLoadOf (arena : Arena) (output : NodeId) : Nat :=
  ∑ leaf ∈ arena.leavesOf output, arena.lengthOf leaf +
    (arena.gradientsOf output).card * arena.lengthOf output

/-! ## Leaves of both lengths -/

/-- Every node depends on a leaf of its own shape. -/
theorem Sided.exists_leaf
    (sided : arena.Sided)
    (ordered : arena.Ordered)
    (node : NodeId)
    {shape : Shape}
    (shaped : arena.shape? node = some shape) :
    ∃ leaf ∈ arena.leavesOf node, arena.shape? leaf = some shape := by
  induction node using ordered.induction with
  | step node below =>
    by_cases isLeaf : arena.operation? node = some .leaf
    · exact ⟨node, mem_leavesOf_iff.2 ⟨.refl, isLeaf⟩, shaped⟩
    · obtain ⟨found, present, same⟩ := Option.map_eq_some_iff.1 shaped
      have computes : arena.operation? node = some found.operation := by
        rw [operation?, present, Option.map_some]
      have some : ∃ operand, operand ∈ arena.operands node := by
        rw [operands, computes]
        cases operation : found.operation with
        | leaf => exact absurd (operation ▸ computes) isLeaf
        | unary opcode operand => exact ⟨operand, List.mem_singleton.2 rfl⟩
        | binary opcode left right => exact ⟨left, List.mem_cons_self⟩
      obtain ⟨operand, isOperand⟩ := some
      obtain ⟨operand, member, same⟩ := sided node shape operand shaped isOperand
      obtain ⟨leaf, among, holds⟩ := below operand member same
      obtain ⟨depends, isLeaf⟩ := mem_leavesOf_iff.1 among
      exact ⟨leaf, mem_leavesOf_iff.2 ⟨.head member depends, isLeaf⟩, holds⟩

/-- An output that is longer or shorter than what it depends on has leaves of both lengths. -/
theorem Sided.lt_sum_leavesOf
    (sided : arena.Sided)
    (sound : arena.Sound)
    {output node : NodeId}
    (depends : arena.DependsOn output node)
    (inside : output.index < arena.size)
    (different : arena.lengthOf node ≠ arena.lengthOf output) :
    arena.lengthOf output < ∑ leaf ∈ arena.leavesOf output, arena.lengthOf leaf := by
  have shaped : ∀ node : NodeId, node.index < arena.size →
      ∃ shape size, arena.shape? node = some shape ∧ shape.size = .ok size := by
    intro node inside
    obtain ⟨found, present⟩ := Option.isSome_iff_exists.1 ((node?_isSome_iff node).2 inside)
    have shaped : arena.shape? node = some found.shape := by rw [shape?, present, Option.map_some]
    obtain ⟨size, sized⟩ := sound.sized node found.shape shaped
    exact ⟨found.shape, size, shaped, sized⟩
  obtain ⟨shape, size, shapedOutput, sizedOutput⟩ := shaped output inside
  obtain ⟨below, length, shapedNode, sizedNode⟩ :=
    shaped node (Nat.lt_of_le_of_lt (depends.index_le sound.ordered) inside)
  rw [lengthOf_eq shapedOutput sizedOutput] at different ⊢
  rw [lengthOf_eq shapedNode sizedNode] at different
  have single : length = 1 := by
    rcases sound.shape_of_dependsOn depends shapedOutput shapedNode with rfl | one
    · rw [sizedOutput] at sizedNode
      exact absurd (Except.ok.inj sizedNode).symm different
    · rw [sizedNode] at one
      exact Except.ok.inj one
  obtain ⟨long, amongLong, sameLong⟩ := sided.exists_leaf sound.ordered output shapedOutput
  obtain ⟨short, amongShort, sameShort⟩ := sided.exists_leaf sound.ordered node shapedNode
  have lengthLong := lengthOf_eq sameLong sizedOutput
  have lengthShort := lengthOf_eq sameShort sizedNode
  have apart : long ≠ short := by
    rintro rfl
    exact different (lengthShort.symm.trans lengthLong)
  have among : short ∈ arena.leavesOf output := by
    obtain ⟨further, isLeaf⟩ := mem_leavesOf_iff.1 amongShort
    exact mem_leavesOf_iff.2 ⟨depends.trans further, isLeaf⟩
  have both : ∑ leaf ∈ ({long, short} : Finset NodeId), arena.lengthOf leaf ≤
      ∑ leaf ∈ arena.leavesOf output, arena.lengthOf leaf := by
    refine Finset.sum_le_sum_of_subset fun leaf member => ?_
    rcases Finset.mem_insert.1 member with rfl | member
    · exact amongLong
    · rwa [Finset.mem_singleton.1 member]
  rw [Finset.sum_pair apart, lengthLong, lengthShort, single] at both
  exact both

/-- A pass that sums a column is about more than two of them. -/
theorem Sided.two_mul_lt_passLoadOf
    (sided : arena.Sided)
    (sound : arena.Sound)
    {output node : NodeId}
    (inside : output.index < arena.size)
    (owns : node ∈ arena.gradientsOf output)
    (different : arena.lengthOf node ≠ arena.lengthOf output) :
    2 * arena.lengthOf output < arena.passLoadOf output := by
  have longer := sided.lt_sum_leavesOf sound (mem_gradientsOf_iff.1 owns).1 inside different
  have one : arena.lengthOf output ≤ (arena.gradientsOf output).card * arena.lengthOf output :=
    Nat.le_mul_of_pos_left _ (Finset.card_pos.2 ⟨node, owns⟩)
  unfold passLoadOf
  omega

end Arena

namespace Graph

variable
    {α β : Type}
    [Element α]
    {graph : Graph α}
    {output node : NodeId}

/-! ## Buffers of nodes -/

section

variable
    {pins : BufferId → Nat}
    {part : Part}
    {buffer : BufferId}
    {nodes : List NodeId}
    {buffers : List BufferId}

omit [Element α] in
theorem lengthOf_of_bufferOf?
    (valid : graph.Valid pins)
    (owned : graph.arena.bufferOf? node part = some buffer) :
    graph.store.lengthOf buffer = graph.arena.lengthOf node := by
  obtain ⟨shape, size, shaped, sized⟩ := valid.exists_size (index_lt_of_bufferOf? owned)
  rw [Store.lengthOf, valid.claims node part buffer shape size owned shaped sized,
    Arena.lengthOf_eq shaped sized]
  rfl

omit [Element α] in
theorem extent_of_bufferOf?
    (valid : graph.Valid pins)
    (owned : List.Forall₂
      (fun node buffer => graph.arena.bufferOf? node part = some buffer) nodes buffers) :
    graph.store.extent buffers = (nodes.map graph.arena.lengthOf).sum := by
  induction owned with
  | nil => rfl
  | cons first _ step =>
    rw [List.map_cons, List.sum_cons, ← step, ← lengthOf_of_bufferOf? valid first]
    exact List.sum_cons

omit [Element α] in
theorem nodup_of_bufferOf?
    (valid : graph.Valid pins)
    (owned : List.Forall₂
      (fun node buffer => graph.arena.bufferOf? node part = some buffer) nodes buffers)
    (distinct : nodes.Nodup) :
    buffers.Nodup := by
  induction owned with
  | nil => exact .nil
  | @cons node buffer nodes buffers first rest step =>
    obtain ⟨outside, later⟩ := List.nodup_cons.1 distinct
    refine List.nodup_cons.2 ⟨fun member => outside ?_, step later⟩
    obtain ⟨other, among, same⟩ := exists_of_forall₂ rest.flip buffer member
    rwa [(valid.apart node other part part buffer first same).1]

omit [Element α] in
theorem free_of_bufferOf?
    (valid : graph.Valid fun _ => 0)
    (owned : graph.arena.bufferOf? node part = some buffer) :
    graph.store.Free buffer := by
  obtain ⟨size, claimed⟩ := valid.exists_claim owned
  exact ⟨_, claimed, rfl⟩

end

omit [Element α] in
/-- The data of a script are the leaves that its output depends on. -/
theorem mem_data_iff
    {arena : Arena}
    {script : Script}
    {leaf : NodeId}
    (sound : arena.Sound)
    (properly : Script.Compiled arena output script) :
    leaf ∈ script.data ↔ leaf ∈ arena.leavesOf output := by
  rw [properly.data sound.proper, List.mem_filter, List.mem_reverse,
    Arena.mem_postOrder_nil_iff sound.ordered, Arena.isLeaf_iff, Arena.mem_leavesOf_iff]

omit [Element α] in
theorem sum_data
    {arena : Arena}
    {script : Script}
    (sound : arena.Sound)
    (properly : Script.Compiled arena output script)
    (length : NodeId → Nat) :
    (script.data.map length).sum = ∑ leaf ∈ arena.leavesOf output, length leaf := by
  rw [← List.sum_toFinset _ (properly.nodup_data sound.ordered sound.proper)]
  refine Finset.sum_congr (Finset.ext fun leaf => ?_) fun _ _ => rfl
  rw [List.mem_toFinset, mem_data_iff sound properly]

/-! ## Operations that only lack room -/

omit [Element α] in
/-- A node that is there can be marked. -/
theorem ends_markOutput_of_inside
    {pins : BufferId → Nat}
    {failed : Error → Graph α → Prop}
    (valid : graph.Valid pins)
    (inside : output.index < graph.arena.size) :
    Ends (markOutput output) graph (fun _ _ => True) failed := by
  obtain ⟨found, present⟩ := Option.isSome_iff_exists.1 ((Arena.node?_isSome_iff output).2 inside)
  have shaped : graph.arena.shape? output = some found.shape := by
    rw [Arena.shape?, present, Option.map_some]
  obtain ⟨size, sized⟩ := valid.arena.sized output found.shape shaped
  unfold markOutput
  rw [ends_bind_iff]
  refine ends_node_of_present present ?_
  rw [ends_bind_iff, ends_modifyNode_iff]
  split
  · rw [sized, ends_bind_iff]
    show Ends (onStore (Store.allocate size) >>= _) _ _ _
    rw [ends_bind_iff, ends_onStore_iff, Store.allocate, ends_modifyGet_iff]
    exact ends_gradientIfNeeded found.needsGradient fun gradient store _ => trivial
  · trivial

/-- A node that is there has a script. -/
theorem ends_script_of_inside
    {pins : BufferId → Nat}
    {failed : Error → Graph α → Prop}
    (valid : graph.Valid pins)
    (inside : output.index < graph.arena.size) :
    Ends (script output) graph (fun _ _ => True) failed := by
  unfold script
  rw [ends_bind_iff, ends_get_iff]
  split
  · trivial
  · exact (ends_compile valid output).mono (fun _ _ _ => trivial)
      fun _ _ failed => absurd inside (Nat.not_lt_of_le failed.2)

omit [Element α] in
/-- All data of a script have a content buffer. -/
theorem ends_dataBuffers_of_compiled
    {pins : BufferId → Nat}
    {compiled : Script}
    {failed : Error → Graph α → Prop}
    (valid : graph.Valid pins)
    (properly : Script.Compiled graph.arena output compiled) :
    Ends (dataBuffers compiled) graph
      (fun buffers after => after = graph ∧ List.Forall₂
        (fun node buffer => graph.arena.bufferOf? node .content = some buffer)
        compiled.data buffers) failed := by
  refine ends_mapM compiled.data fun node member => ?_
  obtain ⟨-, isLeaf⟩ := Arena.mem_leavesOf_iff.1 ((mem_data_iff valid.arena properly).1 member)
  obtain ⟨buffer, owned⟩ := valid.current node (valid.leaves node isLeaf)
  obtain ⟨found, present, stored⟩ := Option.bind_eq_some_iff.1 owned
  unfold content
  rw [ends_bind_iff]
  refine ends_node_of_present present ?_
  rw [stored]
  exact ⟨rfl, owned⟩

/-- Every coordinate of the output of a script can be computed. -/
theorem rows_isOk
    {pins : BufferId → Nat}
    {compiled : Script}
    {data : List BufferId}
    {views : List (Array α)}
    {shape : Shape}
    {size : Nat}
    (valid : graph.Valid pins)
    (properly : Script.Compiled graph.arena output compiled)
    (shaped : graph.arena.shape? output = some shape)
    (sized : shape.size = .ok size)
    (owned : List.Forall₂
      (fun node buffer => graph.arena.bufferOf? node .content = some buffer) compiled.data data)
    (viewed : List.Forall₂
      (fun buffer values => graph.store.reading? buffer = some values) data views) :
    ∃ rows, compiled.kernel.rows views.toArray size = .ok rows := by
  have initial : (zeros α compiled.cacheSize).size = compiled.cacheSize := Array.size_replicate
  rw [views_eq_readings owned viewed]
  refine Kernel.rows_isOk (·.size = compiled.cacheSize) initial
    fun coordinate inside workspace enough => ?_
  obtain ⟨after, size, computed⟩ :=
    evalAt_reading valid properly shaped sized inside (Nat.le_of_eq enough.symm)
  exact ⟨_, after, bind_eq_ok_iff.2 ⟨_, computed, rfl⟩, size.trans enough⟩

section

variable
    {make : Make}
    (steady : make.Steady)
    (valid : graph.Valid fun _ => 0)
    (within : graph.store.Within make (Store.quotaOf []))

include steady valid within

/-- A node is computed just if its leaves and the node itself fit. -/
theorem ends_compute_full
    {target : BufferId}
    (owned : graph.arena.bufferOf? output .content = some target)
    (outdated : ¬ graph.arena.IsCurrent output)
    (supported : ∀ script, Script.compile graph.arena output = .ok script →
      script.SupportedBy make) :
    Ends
      (do
        let compiled ← script output
        let data ← dataBuffers compiled
        onStore (compiled.forward data target)
        modifyNode output ({ · with isCurrent := true })
        return target)
      graph
      (fun _ _ => graph.arena.loadOf output ≤ make.capacity)
      (fun reason _ => Full make.capacity (graph.arena.loadOf output) reason) := by
  have inside := index_lt_of_bufferOf? owned
  rw [ends_bind_iff]
  refine ((ends_script valid output).and (ends_script_of_inside valid inside)).mono ?_
    fun _ _ never => never.2
  rintro compiled middle ⟨⟨first, sameArena, sameStore, -, compiles, properly⟩, -⟩
  obtain ⟨shape, size, shaped, sized⟩ := valid.exists_size inside
  rw [← sameArena] at owned outdated shaped properly
  rw [← sameStore] at within
  rw [ends_bind_iff]
  refine (ends_dataBuffers_of_compiled first.valid properly).mono ?_ fun _ _ never => never
  rintro data middle ⟨rfl, ownedData⟩
  have computed : middle.arena.operation? output ≠ some .leaf :=
    fun isLeaf => outdated (first.valid.leaves output isLeaf)
  have length : middle.store.lengthOf target = size := by
    rw [lengthOf_of_bufferOf? first.valid owned, Arena.lengthOf_eq shaped sized]
  have extent : middle.store.extent (target :: data) = graph.arena.loadOf output := by
    rw [Store.extent, List.map_cons, List.sum_cons, length, ← Store.extent,
      extent_of_bufferOf? first.valid ownedData, sum_data first.valid.arena properly, Arena.loadOf,
      ← sameArena, Arena.lengthOf_eq shaped sized, Nat.add_comm]
  have apart : target ∉ data := by
    intro member
    obtain ⟨leaf, among, ownedLeaf⟩ := exists_of_forall₂ ownedData.flip target member
    obtain ⟨rfl, -⟩ := first.valid.apart leaf output .content .content target ownedLeaf owned
    exact computed
      (Arena.mem_leavesOf_iff.1 ((mem_data_iff first.valid.arena properly).1 among)).2
  have free : ∀ buffer ∈ target :: data, middle.store.Free buffer := by
    rintro buffer (_ | ⟨_, member⟩)
    · exact free_of_bufferOf? first.valid owned
    · obtain ⟨leaf, -, ownedLeaf⟩ := exists_of_forall₂ ownedData.flip buffer member
      exact free_of_bufferOf? first.valid ownedLeaf
  have distinct := nodup_of_bufferOf? first.valid ownedData
    (properly.nodup_data first.valid.arena.ordered first.valid.arena.proper)
  have runs := Script.ends_forward_full steady within
    (List.nodup_cons.2 ⟨apart, distinct⟩) free (supported compiled compiles)
    (properly.passedSlot?_eq_none first.valid.arena.proper computed) fun views viewed =>
      length ▸ rows_isOk first.valid properly shaped sized ownedData viewed
  rw [extent] at runs
  rw [ends_bind_iff, ends_onStore_iff]
  exact runs.mono (fun _ _ fits => fits) fun _ _ full => full

/-- A node is brought up to date just if it is so already or fits together with its leaves. -/
theorem ends_materialize_full
    (inside : output.index < graph.arena.size)
    (supported : ∀ script, Script.compile graph.arena output = .ok script →
      script.SupportedBy make) :
    Ends (materialize output) graph
      (fun target after => after.store.Within make (Store.quotaOf []) ∧
        (∃ marked, markOutput output graph = .ok () marked ∧
          Computes (fun _ => 0) marked after output target) ∧
        (¬ graph.arena.IsCurrent output → graph.arena.loadOf output ≤ make.capacity))
      (fun reason after =>
        (∃ marked, markOutput output graph = .ok () marked ∧
          Keeps (fun _ => 0) ∅ marked after) ∧
        ¬ graph.arena.IsCurrent output ∧
        Full make.capacity (graph.arena.loadOf output) reason) := by
  have whole : Ends (materialize output) graph
      (fun _ _ => ¬ graph.arena.IsCurrent output → graph.arena.loadOf output ≤ make.capacity)
      (fun reason after =>
        (∃ marked, markOutput output graph = .ok () marked ∧
          Keeps (fun _ => 0) ∅ marked after) ∧
        ¬ graph.arena.IsCurrent output ∧
        Full make.capacity (graph.arena.loadOf output) reason) := by
    unfold materialize
    rw [ends_bind_iff]
    refine ((ends_markOutput valid output).outcome.and
      ((upheld_within.markOutput output graph within).and
        (ends_markOutput_of_inside valid inside))).mono ?_ fun _ _ never => never.2.2
    rintro _ marked ⟨⟨outcome, first, alike, flags, -, target, owned⟩, booked, -⟩
    obtain ⟨found, present, stored⟩ := Option.bind_eq_some_iff.1 owned
    rw [← alike.loadOf, ← flags output]
    unfold content
    rw [ends_bind_iff, ends_bind_iff]
    refine ends_node_of_present present ?_
    rw [stored, ends_pure_iff, ends_bind_iff]
    refine ends_node_of_present present ?_
    split
    next upToDate => exact fun outdated => absurd ⟨found, present, upToDate⟩ outdated
    next notUpToDate =>
      have outdated : ¬ marked.arena.IsCurrent output :=
        fun current => notUpToDate ((Arena.isCurrent_iff present).1 current)
      refine ((ends_compute first.valid owned outdated).and (ends_compute_full steady first.valid
        booked owned outdated fun script compiles => supported script ?_)).mono
          (fun _ _ done _ => done.2)
          fun _ _ failed => ⟨⟨marked, outcome, failed.1⟩, outdated, failed.2⟩
      rw [← compiles]
      exact (Script.compile_extends valid.arena.ordered first.valid.arena.ordered alike.extension
        inside).symm
  exact ((ends_materialize valid output).and ((upheld_within.materialize graph within).and
    whole)).mono (fun _ _ done => ⟨done.2.1, done.1, done.2.2⟩)
      fun _ _ failed => failed.2.2

/-- A node that is up to date can be read, and any other just if it fits with its leaves. -/
theorem ends_value_full
    (inside : output.index < graph.arena.size)
    (supported : ∀ script, Script.compile graph.arena output = .ok script →
      script.SupportedBy make) :
    Ends (value output) graph
      (fun _ _ => ¬ graph.arena.IsCurrent output → graph.arena.loadOf output ≤ make.capacity)
      (fun reason _ => ¬ graph.arena.IsCurrent output ∧
        Full make.capacity (graph.arena.loadOf output) reason) := by
  unfold value
  rw [ends_bind_iff]
  refine (ends_materialize_full steady valid within inside supported).mono ?_
    fun _ _ failed => failed.2
  rintro target after ⟨booked, ⟨marked, -, computes⟩, fits⟩
  have owned := (computes.buffers output .content).trans computes.owned
  rw [ends_onStore_iff]
  exact (Store.ends_read_of_free steady booked (free_of_bufferOf? computes.keeps.valid owned)).mono
    (fun _ _ _ => fits) fun _ _ never => never

end

/-! ## Backward passes that only lack room -/

omit [Element α] in
/-- A pass has a target for each gradient. -/
theorem length_targets
    {arena : Arena}
    {script : Script}
    (sound : arena.Sound)
    (properly : Script.Compiled arena output script) :
    (script.targets arena).length = (arena.gradientsOf output).card := by
  obtain ⟨distinct, members⟩ := properly.sources sound.ordered sound.proper
  have owners : ((script.sources arena).filter fun node =>
      (arena.bufferOf? node .gradient).isSome).toFinset = arena.gradientsOf output := by
    ext node
    rw [List.mem_toFinset, List.mem_filter, members, Option.isSome_iff_exists,
      Arena.mem_gradientsOf_iff]
  rw [← owners, List.toFinset_card_of_nodup (distinct.filter _), ← List.countP_eq_length_filter,
    ← List.length_map (·.buffer), Script.buffers_targets, List.length_filterMap_eq_countP]

omit [Element α] in
/-- Every target takes its adjoints from a record or data slot of the plan. -/
theorem before_of_mem_targets
    {arena : Arena}
    {script : Script}
    {plan : Plan}
    {target : Gradient.Target}
    (valid : script.validate = .ok ())
    (planned : Plan.ofScript script = .ok plan)
    (member : target ∈ script.targets arena) :
    target.source.Before plan.dataLength plan.length := by
  obtain ⟨other, again, -, length, dataLength⟩ := Plan.ofScript_eq_ok valid
  rw [planned] at again
  cases again
  obtain ⟨-, lines, -⟩ := Script.validate_eq_ok_iff.1 valid
  obtain ⟨source, buffer⟩ := target
  obtain ⟨node, isSource, -⟩ := Script.mem_targets_iff.1 member
  cases source with
  | data slot =>
    have inside := (List.getElem?_eq_some_iff.1 isSource).1
    show slot < plan.dataLength
    rw [dataLength]
    exact inside
  | record index =>
    have inside := (List.getElem?_eq_some_iff.1 isSource.1).1
    show index < plan.length
    rw [length, Script.length, ← lines]
    exact inside

section

variable
    {compiled : Script}
    {data : List BufferId}
    (owned : List.Forall₂
      (fun node buffer => graph.arena.bufferOf? node .content = some buffer) compiled.data data)

include owned

omit [Element α] in
/-- The buffers that a pass reads and writes are all different. -/
theorem nodup_pass
    {pins : BufferId → Nat}
    (valid : graph.Valid pins)
    (properly : Script.Compiled graph.arena output compiled) :
    (data ++ (compiled.targets graph.arena).map (·.buffer)).Nodup := by
  refine List.nodup_append'.2 ⟨nodup_of_bufferOf? valid owned
    (properly.nodup_data valid.arena.ordered valid.arena.proper), nodup_targets valid properly,
      fun buffer member gradient => ?_⟩
  obtain ⟨leaf, -, ownedLeaf⟩ := exists_of_forall₂ owned.flip buffer member
  obtain ⟨target, among, rfl⟩ := List.mem_map.1 gradient
  obtain ⟨node, -, ownedGradient⟩ := exists_owner_of_mem_targets valid properly among
  exact content_ne_gradient valid ownedLeaf ownedGradient rfl

omit [Element α] in
theorem free_of_mem_pass
    (valid : graph.Valid fun _ => 0)
    (properly : Script.Compiled graph.arena output compiled)
    {buffer : BufferId}
    (member : buffer ∈ data ++ (compiled.targets graph.arena).map (·.buffer)) :
    graph.store.Free buffer := by
  obtain ⟨node, part, owns⟩ := exists_owner_of_mem_pass owned valid properly member
  exact free_of_bufferOf? valid owns

end

/-- The data of a script have an element for every coordinate of its output. -/
theorem readable_of_viewed
    {pins : BufferId → Nat}
    {compiled : Script}
    {data : List BufferId}
    {views : List (Array α)}
    {shape : Shape}
    {size dataLength : Nat}
    (valid : graph.Valid pins)
    (properly : Script.Compiled graph.arena output compiled)
    (shaped : graph.arena.shape? output = some shape)
    (sized : shape.size = .ok size)
    (owned : List.Forall₂
      (fun node buffer => graph.arena.bufferOf? node .content = some buffer) compiled.data data)
    (viewed : List.Forall₂
      (fun buffer values => graph.store.reading? buffer = some values) data views)
    (enough : dataLength = compiled.data.length)
    {coordinate : Nat}
    (inside : coordinate < size) :
    Readable views.toArray dataLength coordinate := by
  intro slot before
  rw [enough] at before
  have found := List.getElem?_eq_getElem before
  refine ⟨graph.reading compiled.data[slot], ?_, ?_⟩
  · rw [views_eq_readings owned viewed, List.getElem?_toArray, List.getElem?_map, found,
      Option.map_some]
  · obtain ⟨depends, isLeaf⟩ := Arena.mem_leavesOf_iff.1
      ((mem_data_iff valid.arena properly).1 (List.getElem_mem before))
    exact covers_reading valid shaped sized inside depends isLeaf

section

variable
    {pins : BufferId → Nat}
    {marked middle : Graph α}
    {target : BufferId}

/-- Computing the output makes and drops no gradient. -/
theorem Computes.gradientsOf (computes : Computes pins marked middle output target) :
    middle.arena.gradientsOf output = marked.arena.gradientsOf output := by
  ext node
  simp only [Arena.mem_gradientsOf_iff, computes.alike.dependsOn, computes.buffers]

theorem Computes.passLoadOf (computes : Computes pins marked middle output target) :
    middle.arena.passLoadOf output = marked.arena.passLoadOf output := by
  rw [Arena.passLoadOf, Arena.passLoadOf, computes.gradientsOf, computes.alike.lengthOf,
    computes.alike.leavesOf]

end

section

variable
    {make : Make}
    (steady : make.Steady)
    (valid : graph.Valid fun _ => 0)
    (within : graph.store.Within make (Store.quotaOf []))
    (sided : graph.arena.Sided)
    (sized : make.capacity < Size.limit)
    (width : graph.config.fanIn < Size.limit)

include steady valid within sided sized width

/-- The adjoints are added just if the data and one column for each gradient fit. -/
theorem ends_addToTargets_full
    {compiled : Script}
    {plan : Plan}
    {domain : Nat}
    (inside : output.index < graph.arena.size)
    (properly : Script.Compiled graph.arena output compiled)
    (planned : Plan.ofScript compiled = .ok plan)
    (length : graph.arena.lengthOf output = domain) :
    Ends (addToTargets plan compiled (compiled.targets graph.arena) domain) graph
      (fun _ _ => graph.arena.passLoadOf output ≤ make.capacity)
      (fun reason after => Full make.capacity (graph.arena.passLoadOf output) reason ∧
        after.arena = graph.arena ∧ ∀ node buffer,
          graph.arena.bufferOf? node .gradient = some buffer →
          after.store.reading? buffer = graph.store.reading? buffer) := by
  obtain ⟨shape, size, shaped, sizedShape⟩ := valid.exists_size inside
  obtain rfl : size = domain := (Arena.lengthOf_eq shaped sizedShape).symm.trans length
  obtain ⟨other, again, ordered, -, enough⟩ :=
    Plan.ofScript_eq_ok (properly.validate valid.arena.proper)
  rw [planned] at again
  cases again
  unfold addToTargets
  rw [ends_bind_iff]
  refine (ends_dataBuffers_of_compiled valid properly).mono ?_ fun _ _ never => never
  rintro data graph ⟨rfl, owned⟩
  have load : graph.store.extent data + (compiled.targets graph.arena).length * size =
      graph.arena.passLoadOf output := by
    rw [extent_of_bufferOf? valid owned, sum_data valid.arena properly,
      length_targets valid.arena properly, Arena.passLoadOf, length]
  have wide : ∀ target ∈ compiled.targets graph.arena,
      graph.store.lengthOf target.buffer ≠ size →
      2 * size < graph.store.extent data + (compiled.targets graph.arena).length * size := by
    intro target member different
    obtain ⟨node, depends, owns⟩ := exists_owner_of_mem_targets valid properly member
    rw [lengthOf_of_bufferOf? valid owns, ← length] at different
    rw [load, ← length]
    exact sided.two_mul_lt_passLoadOf valid.arena inside
      (Arena.mem_gradientsOf_iff.2 ⟨depends, _, owns⟩) different
  rw [ends_bind_iff, ends_get_iff, ends_onStore_iff]
  have added := Gradient.ends_addAdjoints_full steady within ordered
    (owned.length_eq.symm.trans enough.symm)
    (fun target member => before_of_mem_targets (properly.validate valid.arena.proper) planned
      member) (nodup_pass owned valid properly) (fun _ => free_of_mem_pass owned valid properly)
      (fun views viewed coordinate among =>
        readable_of_viewed valid properly shaped sizedShape owned viewed enough among)
      wide sized width
  rw [load] at added
  refine ((Gradient.ends_addAdjoints valid.store ordered (owned.length_eq.symm.trans enough.symm)
    (fun buffer member =>
      claim_ne_none_of_mem_pass owned valid properly (List.mem_append_left _ member))
    (nodup_targets valid properly)).and added).mono (fun _ _ done => done.2) ?_
  rintro reason store ⟨⟨frame, -⟩, full, untouched⟩
  refine ⟨full, rfl, fun node buffer ownedGradient => ?_⟩
  by_cases written : buffer ∈ (compiled.targets graph.arena).map (·.buffer)
  · obtain ⟨target, member, rfl⟩ := List.mem_map.1 written
    exact untouched target member
  · exact frame.readings buffer (Set.notMem_empty _) written

/--
A backward pass runs just if its leaves and one column for each gradient fit, and one that
does not run leaves all gradients alone.
-/
theorem ends_backward_full
    {marked : Graph α}
    (inside : output.index < graph.arena.size)
    (supported : ∀ script, Script.compile graph.arena output = .ok script →
      script.SupportedBy make)
    (outcome : markOutput output graph = .ok () marked)
    (some : 0 < (marked.arena.gradientsOf output).card) :
    Ends (backward output) graph
      (fun _ _ => marked.arena.passLoadOf output ≤ make.capacity)
      (fun reason after => Full make.capacity (marked.arena.passLoadOf output) reason ∧
        ∀ node values, marked.gradientReading? node = .some values →
          after.gradientReading? node = .some values) := by
  obtain ⟨first, alike, -⟩ := (ends_markOutput valid output).of_ok outcome
  have untouched : ∀ {after : Graph α}, Keeps (fun _ => 0) ∅ marked after →
      ∀ node values, marked.gradientReading? node = .some values →
        after.gradientReading? node = .some values := by
    intro after keeps node values reads
    obtain ⟨buffer, owned, holds⟩ := gradientReading?_eq_some_iff.1 reads
    exact gradientReading?_eq_some_iff.2 ⟨buffer, keeps.grows.buffer node .gradient buffer owned,
      (keeps.readings node .gradient buffer owned (Set.notMem_empty _)).trans holds⟩
  have enough : graph.arena.loadOf output ≤ marked.arena.passLoadOf output := by
    rw [Arena.loadOf, Arena.passLoadOf, alike.leavesOf, alike.lengthOf]
    exact Nat.add_le_add_left (Nat.le_mul_of_pos_left _ some) _
  rw [backward_eq, ends_bind_iff]
  refine (ends_materialize_full steady valid within inside supported).mono ?_ ?_
  case refine_2 =>
    rintro reason after ⟨⟨other, again, keeps⟩, -, full⟩
    rw [outcome] at again
    cases again
    exact ⟨full.mono enough, untouched keeps⟩
  rintro target computed ⟨booked, ⟨other, again, computes⟩, -⟩
  rw [outcome] at again
  cases again
  have insideComputed : output.index < computed.arena.size := by
    rw [computes.alike.size, alike.size]
    exact inside
  rw [ends_bind_iff]
  refine ((ends_script computes.keeps.valid output).and
    (ends_script_of_inside computes.keeps.valid insideComputed)).mono ?_ fun _ _ never => never.2
  rintro compiled middle ⟨⟨kept, sameArena, sameStore, -, compiles, properly⟩, -⟩
  have computes := computes.followed kept sameArena
  rw [← sameStore] at booked
  rw [← sameArena] at insideComputed compiles properly
  have compilesBefore : Script.compile graph.arena output = .ok compiled := by
    rw [← compiles]
    exact (Script.compile_extends valid.arena.ordered kept.valid.arena.ordered
      (alike.trans computes.alike).extension inside).symm
  have sidedMiddle : middle.arena.Sided := by
    unfold Arena.Sided
    rw [computes.alike.shape?, alike.shape?, computes.alike.operands, alike.operands]
    exact sided
  have widthMiddle : middle.config.fanIn < Size.limit := by
    rw [computes.keeps.config, first.config]
    exact width
  refine ends_addGradients kept.valid insideComputed properly ?_ fun plan shape domain planned
    shaped sizedShape => ?_
  · rw [ends_onStore_iff]
    refine (Script.ends_checkSupported_of_supported booked.accounted
      (supported compiled compilesBefore)).mono ?_ fun _ _ never => never
    rintro _ _ rfl
    rfl
  have filled : ¬ (compiled.targets middle.arena).isEmpty = true := by
    intro none
    rw [← computes.gradientsOf, ← length_targets kept.valid.arena properly,
      List.isEmpty_iff.1 none] at some
    cases some
  rw [if_neg filled, ← computes.passLoadOf]
  refine (ends_addToTargets_full steady kept.valid booked sidedMiddle sized widthMiddle
    insideComputed properly planned (Arena.lengthOf_eq shaped sizedShape)).mono
      (fun _ _ fits => fits) ?_
  rintro reason after ⟨full, same, unwritten⟩
  refine ⟨full, fun node values reads => ?_⟩
  obtain ⟨buffer, owned, holds⟩ := gradientReading?_eq_some_iff.1 reads
  have ownedMiddle := (computes.buffers node .gradient).trans owned
  refine gradientReading?_eq_some_iff.2 ⟨buffer, same ▸ ownedMiddle, ?_⟩
  rw [unwritten node buffer ownedMiddle, computes.gradient_eq first.valid owned, holds]

end

/-! ## Sessions that only lack room -/

namespace Session

variable
    {session marked : Session α}
    {capacity : Nat}
    {device : DeviceId}
    {unsupported : List OpCode}
    {config : Config}
    {commands : List (Command α)}

/-- A request that only lacks room is carried out if there is enough, and refused if not. -/
theorem step_full
    {command : Command α}
    {load : Nat}
    {done : Answer α → Prop}
    {failed : Session α → Prop}
    (ends : Ends (perform command) session (fun answer _ => done answer ∧ load ≤ capacity)
      fun reason after => Full capacity load reason ∧ failed after) :
    (load ≤ capacity → ∃ answer, (session.step command).1 = .ok answer ∧ done answer) ∧
      (capacity < load →
        (∃ requested freed,
          (session.step command).1 = .error (.resourceExhausted requested freed)) ∧
        failed (session.step command).2) := by
  refine ⟨fun fits => ?_, fun exceeds => ?_⟩
  · obtain ⟨answer, answered, holds⟩ := step_eq_ok (ends.mono (fun _ _ done => done)
      fun _ _ failed => Nat.not_lt_of_le fits failed.1.exceeds)
    exact ⟨answer, answered, holds.1⟩
  · cases outcome : (session.step command).1 with
    | ok answer => exact absurd (step_of_ok ends outcome).2 (Nat.not_le_of_lt exceeds)
    | error reason =>
      obtain ⟨full, holds⟩ := step_of_error ends outcome
      obtain ⟨requested, freed, rfl⟩ := full.exhausted
      exact ⟨⟨requested, freed, rfl⟩, holds⟩

omit [Element α] in
theorem leases_of_unleased
    (unleased : ∀ pin ∈ session.pins, pin = none) :
    leases session.pins = fun _ => 0 := by
  funext buffer
  refine Array.count_eq_zero.2 fun member => ?_
  cases unleased _ member

/--
Requests run out of memory exactly where their buffers do not fit, on an accelerator that never
fails and supports what the output needs, while the user holds no lease.  The capacity and the
number of elements that are summed at once are machine sizes.

A node that is not up to date is answered just if its different leaves and the node itself fit,
and one that is up to date always.  A backward pass needs room for the leaves and for one buffer
as long as the output for each gradient, that of the output included, which gets it when it is
marked; a pass that is refused has changed no gradient.
-/
theorem resources_exhausted_exactly
    (reached : (start capacity device unsupported (fun _ _ => none) config).run commands = session)
    (unleased : ∀ pin ∈ session.pins, pin = none)
    (sized : capacity < Size.limit)
    (width : session.graph.config.fanIn < Size.limit)
    (inside : output.index < session.graph.arena.size)
    (supported : ∀ script, Script.compile session.graph.arena output = .ok script →
      ∀ record ∈ script.records, record.opcode ∉ unsupported)
    (marks : (session.step (.markOutput output)).2 = marked) :
    (¬ session.graph.arena.IsCurrent output →
      (session.graph.arena.loadOf output ≤ capacity →
        ∃ values, (session.step (.value output)).1 = .ok (.values values)) ∧
      (capacity < session.graph.arena.loadOf output →
        ∃ requested freed,
          (session.step (.value output)).1 = .error (.resourceExhausted requested freed))) ∧
    (session.graph.arena.IsCurrent output →
      ∃ values, (session.step (.value output)).1 = .ok (.values values)) ∧
    (0 < (marked.graph.arena.gradientsOf output).card →
      (marked.graph.arena.passLoadOf output ≤ capacity →
        (session.step (.backward output)).1 = .ok .done) ∧
      (capacity < marked.graph.arena.passLoadOf output →
        (∃ requested freed,
          (session.step (.backward output)).1 = .error (.resourceExhausted requested freed)) ∧
        ∀ node values, marked.graph.gradientReading? node = some values →
          (session.step (.backward output)).2.graph.gradientReading? node = some values)) := by
  subst reached
  have steady : (⟨device, capacity, unsupported, fun _ _ => none⟩ : Make).Steady := fun _ _ => rfl
  have valid := run_valid capacity device unsupported (fun _ _ => none) config commands
  have booked := booked_run
    (booked_start capacity device unsupported (fun _ _ => none) config) commands
  unfold Valid at valid
  unfold Booked allowance at booked
  rw [leases_of_unleased unleased] at valid booked
  have sided := sided_of_run
    (rfl : (start capacity device unsupported (fun _ _ => none) config).run commands = _)
  generalize (start capacity device unsupported (fun _ _ => none) config).run commands = session
    at *
  refine ⟨fun outdated => ?_, fun current => ?_, fun some => ?_⟩
  · have ends : Ends (perform (.value output)) session
        (fun answer _ => (∃ values, answer = .values values) ∧
          session.graph.arena.loadOf output ≤ capacity)
        (fun reason _ => Full capacity (session.graph.arena.loadOf output) reason ∧ True) := by
      rw [perform, ends_map_iff, ends_onGraph_iff]
      exact (ends_value_full steady valid booked inside supported).mono
        (fun values _ fits => ⟨⟨values, rfl⟩, fits outdated⟩)
        fun _ _ failed => ⟨failed.2, trivial⟩
    obtain ⟨answered, refused⟩ := step_full ends
    refine ⟨fun fits => ?_, fun exceeds => (refused exceeds).1⟩
    obtain ⟨_, outcome, values, rfl⟩ := answered fits
    exact ⟨values, outcome⟩
  · have ends : Ends (perform (.value output)) session
        (fun answer _ => ∃ values, answer = .values values) (fun _ _ => False) := by
      rw [perform, ends_map_iff, ends_onGraph_iff]
      exact (ends_value_full steady valid booked inside supported).mono
        (fun values _ _ => ⟨values, rfl⟩) fun _ _ failed => failed.1 current
    obtain ⟨_, outcome, values, rfl⟩ := step_eq_ok ends
    exact ⟨values, outcome⟩
  · have marking : Ends (perform (.markOutput output)) session
        (fun _ after => markOutput output session.graph = .ok () after.graph)
        (fun _ _ => False) := by
      rw [perform, ends_map_iff, ends_onGraph_iff]
      exact (ends_markOutput_of_inside valid inside).outcome.mono (fun _ _ done => done.1)
        fun _ _ never => never
    obtain ⟨_, -, outcome⟩ := step_eq_ok marking
    rw [marks] at outcome
    have ends : Ends (perform (.backward output)) session
        (fun answer _ => answer = .done ∧ marked.graph.arena.passLoadOf output ≤ capacity)
        (fun reason after => Full capacity (marked.graph.arena.passLoadOf output) reason ∧
          ∀ node values, marked.graph.gradientReading? node = .some values →
            after.graph.gradientReading? node = .some values) := by
      rw [perform, ends_map_iff, ends_onGraph_iff]
      exact (ends_backward_full steady valid booked sided sized width inside supported outcome
        some).mono (fun _ _ fits => ⟨rfl, fits⟩) fun _ _ failed => failed
    obtain ⟨answered, refused⟩ := step_full ends
    refine ⟨fun fits => ?_, refused⟩
    obtain ⟨_, done, rfl⟩ := answered fits
    exact done

/-- A leaf of three elements is multiplied by a constant. -/
def crowded : List (Command Int) :=
  [.leaf ⟨[3]⟩ #[3, 5, 6] true, .scalar 7, .create .mul [⟨0⟩, ⟨1⟩]]

/--
On an accelerator with room for eight elements, the product is answered but its gradients are
not: the leaves, the product and the gradients of both would not fit at once.
-/
theorem resources_exhausted_exactly_crowded :
    (onIntegers crowded).graph.arena.loadOf ⟨2⟩ ≤ 8 ∧
      ((onIntegers crowded).step (.value ⟨2⟩)).1 = .ok (.values #[21, 35, 42]) ∧
      8 < ((onIntegers crowded).step (.markOutput ⟨2⟩)).2.graph.arena.passLoadOf ⟨2⟩ ∧
      ∃ requested freed,
        ((onIntegers crowded).step (.backward ⟨2⟩)).1 =
          .error (.resourceExhausted requested freed) := by
  have inside : (⟨2⟩ : NodeId).index < (onIntegers crowded).graph.arena.size := by
    decide +kernel
  have outdated : ¬ (onIntegers crowded).graph.arena.IsCurrent ⟨2⟩ := by
    have flag : ((onIntegers crowded).graph.arena.node? ⟨2⟩).map (·.isCurrent) = some false := by
      decide +kernel
    rintro ⟨found, present, current⟩
    rw [present, Option.map_some, current] at flag
    cases flag
  have some : 0 < (((onIntegers crowded).step
      (.markOutput ⟨2⟩)).2.graph.arena.gradientsOf ⟨2⟩).card := by
    have owned : (((onIntegers crowded).step (.markOutput ⟨2⟩)).2.graph.arena.bufferOf? ⟨2⟩
        .gradient).isSome = true := by
      decide +kernel
    refine Finset.card_pos.2 ⟨⟨2⟩, Arena.mem_gradientsOf_iff.2 ⟨.refl, ?_⟩⟩
    exact Option.isSome_iff_exists.1 owned
  have answered : ((onIntegers crowded).step (.value ⟨2⟩)).1 = .ok (.values #[21, 35, 42]) := by
    cbv
  have refused : ((onIntegers crowded).step (.backward ⟨2⟩)).1 =
      .error (.resourceExhausted 3 0) := by
    cbv
  obtain ⟨evaluates, -, passes⟩ :=
    resources_exhausted_exactly (run_eq_onIntegers crowded) (by decide +kernel) (by decide)
      (by decide +kernel) inside (fun _ _ _ _ => List.not_mem_nil) rfl
  refine ⟨?_, answered, ?_, 3, 0, refused⟩
  · by_contra exceeds
    obtain ⟨requested, freed, exhausted⟩ := (evaluates outdated).2 (Nat.lt_of_not_le exceeds)
    rw [answered] at exhausted
    cases exhausted
  · by_contra fits
    have done := (passes some).1 (Nat.le_of_not_lt fits)
    rw [refused] at done
    cases done

end Session

end Graph

end Elementwise
