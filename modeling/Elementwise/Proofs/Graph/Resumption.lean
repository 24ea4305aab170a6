import Elementwise.Proofs.Buffer.Following
import Elementwise.Proofs.Graph.Session

/-!
# What a failed operation leaves behind

An operation that fails may have marked a node, kept a script, brought a node up to
date or moved buffers about before it failed.  `Resumes` says that this is all: one
graph resumes another if it has the same nodes, tables and buffers, where a buffer
of the one reads as it does in the other unless it was out of date there.  It may
have more buffers, which nobody leases, and more nodes that are up to date, which
read as their values.

A graph that resumes another is as good for every later operation.
-/

namespace Elementwise.Graph

variable
    {α : Type}
    [Element α]
    {graph left right : Graph α}
    {pins : BufferId → Nat}
    {output : NodeId}
    {store : Store α}

omit [Element α] in
/-- A node that is not up to date is no leaf, and its content is not that of a leaf. -/
theorem content_ne_leaf
    {leaf : NodeId}
    {buffer other : BufferId}
    (valid : graph.Valid pins)
    (outdated : ¬ graph.arena.IsCurrent output)
    (owned : graph.arena.bufferOf? output .content = some buffer)
    (isLeaf : graph.arena.operation? leaf = some .leaf)
    (ownedLeaf : graph.arena.bufferOf? leaf .content = some other) :
    buffer ≠ other := by
  rintro rfl
  obtain ⟨rfl, -⟩ := valid.apart leaf output .content .content buffer ownedLeaf owned
  exact outdated (valid.leaves leaf isLeaf)

/-! ## Graphs that resume others -/

/-- A graph after something was tried on it that changes nothing that was known before. -/
structure Resumes (left right : Graph α) : Prop where
  arena : left.arena.Alike right.arena
  interned : right.interned = left.interned
  constants : right.constants = left.constants
  config : right.config = left.config
  store : left.store.Includes right.store
  owned : ∀ node part buffer, left.arena.bufferOf? node part = some buffer →
    right.arena.bufferOf? node part = some buffer
  fresh : ∀ node part buffer, right.arena.bufferOf? node part = some buffer →
    left.arena.bufferOf? node part = some buffer ∨ right.store.leasesOf buffer = 0
  current : ∀ node, left.arena.IsCurrent node → right.arena.IsCurrent node
  readings : ∀ node part buffer, left.arena.bufferOf? node part = some buffer →
    (part = .content → left.arena.IsCurrent node) →
    right.store.reading? buffer = left.store.reading? buffer
  /-- What was brought up to date reads as its value. -/
  computed : ∀ node buffer shape size, right.arena.IsCurrent node → ¬ left.arena.IsCurrent node →
    right.arena.bufferOf? node .content = some buffer → right.arena.shape? node = some shape →
    shape.size = .ok size → right.store.reading? buffer = some (right.meaning node size)

namespace Resumes

theorem refl (graph : Graph α) : graph.Resumes graph where
  arena := .refl graph.arena
  interned := rfl
  constants := rfl
  config := rfl
  store := .refl graph.store
  owned _ _ _ owned := owned
  fresh _ _ _ owned := .inl owned
  current _ current := current
  readings _ _ _ _ _ := rfl
  computed _ _ _ _ current outdated := absurd current outdated

variable (resumes : left.Resumes right)

include resumes

/-- The buffers of a node stay the same. -/
theorem buffer_eq
    {node : NodeId}
    {part : Part}
    {buffer other : BufferId}
    (owned : left.arena.bufferOf? node part = some buffer)
    (ownedAfter : right.arena.bufferOf? node part = some other) :
    buffer = other :=
  Option.some.inj ((resumes.owned node part buffer owned).symm.trans ownedAfter)

/-- A leaf reads the same. -/
theorem reading_leaf
    (valid : left.Valid pins)
    {leaf : NodeId}
    (isLeaf : left.arena.operation? leaf = some .leaf) :
    right.reading leaf = left.reading leaf := by
  have current := valid.leaves leaf isLeaf
  obtain ⟨buffer, owned⟩ := valid.current leaf current
  have same := resumes.readings leaf .content buffer owned fun _ => current
  rw [reading_eq, reading_eq, owned, resumes.owned leaf .content buffer owned, Option.bind_some,
    Option.bind_some, same]

/-- All values are the same. -/
theorem meaning
    (valid : left.Valid pins)
    {node : NodeId}
    {size : Nat}
    (inside : node.index < left.arena.size) :
    right.meaning node size = left.meaning node size :=
  meaning_congr valid.arena (resumes.arena.sound valid.arena) resumes.arena.extension inside
    fun _ _ isLeaf => resumes.reading_leaf valid isLeaf

/-- What resumes a graph that resumes another one resumes that one too. -/
theorem trans
    {last : Graph α}
    (valid : right.Valid pins)
    (later : right.Resumes last) :
    left.Resumes last where
  arena := resumes.arena.trans later.arena
  interned := later.interned.trans resumes.interned
  constants := later.constants.trans resumes.constants
  config := later.config.trans resumes.config
  store := resumes.store.trans later.store
  owned node part buffer owned :=
    later.owned node part buffer (resumes.owned node part buffer owned)
  fresh node part buffer owned :=
    (later.fresh node part buffer owned).elim
      (fun between => (resumes.fresh node part buffer between).imp_right
        (later.store.leasesOf buffer).trans)
      .inr
  current node current := later.current node (resumes.current node current)
  readings node part buffer owned current := by
    rw [later.readings node part buffer (resumes.owned node part buffer owned)
        fun isContent => resumes.current node (current isContent),
      resumes.readings node part buffer owned current]
  computed node buffer shape size current outdated owned shaped sized := by
    by_cases between : right.arena.IsCurrent node
    · obtain ⟨found, ownedBetween⟩ := valid.current node between
      obtain rfl := later.buffer_eq ownedBetween owned
      rw [later.arena.shape?] at shaped
      rw [later.readings node .content found ownedBetween fun _ => between,
        resumes.computed node found shape size between outdated ownedBetween shaped sized,
        later.meaning valid (index_lt_of_bufferOf? ownedBetween)]
    · exact later.computed node buffer shape size current between owned shaped sized

/-- A node that counts as up to date is so, unless it counted as such wrongly before. -/
theorem reads_meaning
    (valid : left.Valid pins)
    (validAfter : right.Valid pins)
    {node : NodeId}
    {shape : Shape}
    {size : Nat}
    (current : right.arena.IsCurrent node)
    (shaped : right.arena.shape? node = some shape)
    (sized : shape.size = .ok size)
    (before : left.arena.IsCurrent node → left.reading node = left.meaning node size) :
    right.reading node = right.meaning node size := by
  by_cases already : left.arena.IsCurrent node
  · obtain ⟨buffer, owned⟩ := valid.current node already
    rw [resumes.meaning valid (index_lt_of_bufferOf? owned), ← before already, reading_eq,
      reading_eq, owned, resumes.owned node .content buffer owned, Option.bind_some,
      Option.bind_some, resumes.readings node .content buffer owned fun _ => already]
  · obtain ⟨buffer, owned⟩ := validAfter.current node current
    exact reading_of_bufferOf? owned
      (resumes.computed node buffer shape size current already owned shaped sized)

/-- Steps of both stores that keep every reading of a buffer of a node. -/
theorem onStores
    {before after : Store α}
    (includes : before.Includes after)
    (unleased : ∀ buffer, right.store.leasesOf buffer = 0 → after.leasesOf buffer = 0)
    (same : ∀ node part buffer, left.arena.bufferOf? node part = some buffer →
      before.reading? buffer = left.store.reading? buffer)
    (sameOther : ∀ node part buffer, right.arena.bufferOf? node part = some buffer →
      after.reading? buffer = right.store.reading? buffer) :
    Resumes { left with store := before } { right with store := after } where
  arena := resumes.arena
  interned := resumes.interned
  constants := resumes.constants
  config := resumes.config
  store := includes
  owned := resumes.owned
  fresh node part buffer owned := (resumes.fresh node part buffer owned).imp_right (unleased buffer)
  current := resumes.current
  readings node part buffer owned current := by
    rw [sameOther node part buffer (resumes.owned node part buffer owned),
      same node part buffer owned, resumes.readings node part buffer owned current]
  computed node buffer shape size current outdated owned shaped sized := by
    have reading : Graph.reading { right with store := after } = right.reading := by
      funext other
      rw [reading_eq, reading_eq]
      exact congrArg (Option.getD · #[]) (Option.bind_congr fun found ownedOther =>
        sameOther other .content found ownedOther)
    rw [sameOther node .content buffer owned,
      resumes.computed node buffer shape size current outdated owned shaped sized]
    unfold Graph.meaning Graph.elementOf
    rw [reading]

/-- Steps of both stores that make and write nothing. -/
theorem still
    {before after : Store α}
    (frame : Store.Frame ∅ ∅ left.store before)
    (frameOther : Store.Frame ∅ ∅ right.store after) :
    Resumes { left with store := before } { right with store := after } :=
  resumes.onStores (resumes.store.still frame frameOther)
    (fun _ unleased => (Store.leasesOf_frame frameOther (Set.notMem_empty _)).trans unleased)
    (fun _ _ buffer _ => frame.readings buffer (Set.notMem_empty _) (Set.notMem_empty _))
    fun _ _ buffer _ => frameOther.readings buffer (Set.notMem_empty _) (Set.notMem_empty _)

/-- A step of the store after something was tried. -/
theorem onStore
    (frame : Store.Frame ∅ ∅ right.store store)
    (valid : left.store.Valid) :
    left.Resumes { right with store := store } :=
  resumes.still (.refl valid) frame

/-- Scripts may be kept. -/
theorem keep (scripts : Table NodeId Script) : left.Resumes { right with scripts := scripts } where
  arena := resumes.arena
  interned := resumes.interned
  constants := resumes.constants
  config := resumes.config
  store := resumes.store
  owned := resumes.owned
  fresh := resumes.fresh
  current := resumes.current
  readings := resumes.readings
  computed := resumes.computed

/-- A node that was out of date is brought up to date. -/
theorem compute
    (valid : right.Valid pins)
    {target : BufferId}
    {shape : Shape}
    {size : Nat}
    (owned : right.arena.bufferOf? output .content = some target)
    (outdated : ¬ right.arena.IsCurrent output)
    (shaped : right.arena.shape? output = some shape)
    (sized : shape.size = .ok size)
    (frame : Store.Frame ∅ {target} right.store store)
    (reads : store.reading? target = some (right.meaning output size)) :
    left.Resumes
      { right with
        store := store
        arena := right.arena.modify output ({ · with isCurrent := true }) } := by
  have keeps := keeps_compute valid owned outdated shaped sized frame reads
  have alike := right.arena.alike_modify output ({ · with isCurrent := true }) fun _ => rfl
  have buffers : ∀ node part,
      (right.arena.modify output ({ · with isCurrent := true })).bufferOf? node part =
        right.arena.bufferOf? node part :=
    Arena.bufferOf?_modify_of_same output fun _ => rfl
  have flags := isCurrent_modify_true (index_lt_of_bufferOf? owned)
  -- only the content of the node is written
  have unwritten : ∀ node part buffer, right.arena.bufferOf? node part = some buffer →
      (part = .content → node ≠ output) → store.reading? buffer = right.store.reading? buffer := by
    intro node part buffer ownedNode different
    refine frame.readings buffer (Set.notMem_empty _) ?_
    rintro rfl
    obtain ⟨same, isContent⟩ := valid.apart node output part .content buffer ownedNode owned
    exact different isContent same
  have leaves : ∀ leaf buffer, right.arena.operation? leaf = some .leaf →
      right.arena.bufferOf? leaf .content = some buffer → buffer ∉ ({target} : Set BufferId) := by
    rintro leaf _ isLeaf ownedLeaf rfl
    exact content_ne_leaf valid outdated owned isLeaf ownedLeaf rfl
  refine
    { arena := resumes.arena.trans alike
      interned := resumes.interned
      constants := resumes.constants
      config := resumes.config
      store := resumes.store.step frame fun _ absent => absent.elim
      owned := fun node part buffer owned =>
        (buffers node part).trans (resumes.owned node part buffer owned)
      fresh := fun node part buffer owned => ?_
      current := fun node current => (flags node).2 (.inr (resumes.current node current))
      readings := fun node part buffer ownedNode current => ?_
      computed :=
        fun node buffer found length current notBefore ownedNode shapedNode sizedNode => ?_ }
  · rw [buffers] at owned
    refine (resumes.fresh node part buffer owned).imp_right fun unleased => ?_
    exact (Store.leasesOf_frame frame (Set.notMem_empty _)).trans unleased
  · refine (unwritten node part buffer (resumes.owned node part buffer ownedNode) ?_).trans
      (resumes.readings node part buffer ownedNode current)
    rintro isContent rfl
    exact outdated (resumes.current node (current isContent))
  · rw [buffers] at ownedNode
    rw [alike.shape?] at shapedNode
    have inside := index_lt_of_bufferOf? ownedNode
    rw [keeps.meaning valid leaves inside]
    by_cases same : node = output
    · subst same
      rw [owned] at ownedNode
      rw [shaped] at shapedNode
      cases ownedNode
      cases shapedNode
      rw [sized] at sizedNode
      cases sizedNode
      exact reads
    · rw [unwritten node .content buffer ownedNode fun _ => same]
      exact resumes.computed node buffer found length (((flags node).1 current).resolve_left same)
        notBefore ownedNode shapedNode sizedNode

end Resumes

/-! ## Outputs -/

/-- A step that makes buffers which nobody leases, and writes nothing. -/
def Gains (before after : Store α) : Prop :=
  ∃ made, Store.Frame made ∅ before after ∧
    ∀ buffer ∈ made, before.claim? buffer = none ∧ after.leasesOf buffer = 0

theorem gains_of_provides
    {size : Nat}
    {storage : Storage}
    (provides : Provides graph.store size storage store) :
    Gains graph.store store := by
  refine ⟨_, provides.frame, ?_⟩
  rintro buffer ⟨part, among⟩
  exact ⟨provides.absent part buffer among,
    Store.leasesOf_of_claim (provides.claims part buffer among)⟩

/-- Marking an output makes buffers for it if it has none, and fails only if there is no
such node. -/
theorem ends_markOutput_gains
    (valid : graph.Valid pins)
    (output : NodeId) :
    Ends (markOutput output) graph
      (fun _ after => Gains graph.store after.store ∧ after.interned = graph.interned ∧
        after.constants = graph.constants ∧ ∀ node part buffer,
          after.arena.bufferOf? node part = some buffer →
          graph.arena.bufferOf? node part = some buffer ∨ after.store.leasesOf buffer = 0)
      (fun _ after => after = graph) := by
  unfold markOutput
  rw [ends_bind_iff]
  refine ends_node ?_ fun _ => rfl
  intro found present
  have shaped : graph.arena.shape? output = some found.shape := by
    rw [Arena.shape?, present, Option.map_some]
  obtain ⟨size, sized⟩ := valid.arena.sized output found.shape shaped
  have buffers : ∀ node part,
      (graph.arena.modify output ({ · with isOutput := true })).bufferOf? node part =
        graph.arena.bufferOf? node part :=
    Arena.bufferOf?_modify_of_same output fun _ => rfl
  have inside : output.index <
      (graph.arena.modify output ({ · with isOutput := true })).size := by
    rw [← Arena.node?_isSome_iff, Arena.node?_modify, if_pos rfl, present]
    rfl
  rw [ends_bind_iff, ends_modifyNode_iff]
  split
  · rw [sized, ends_bind_iff]
    show Ends (onStore (Store.allocate size) >>= _) _ _ _
    rw [ends_bind_iff, ends_onStore_iff]
    refine (Store.ends_allocate valid.store size).mono ?_ fun _ _ fails => fails
    rintro content store ⟨absent, frame, claimed, -, later⟩
    refine ends_neededGradient (provides_content absent later frame claimed) found.needsGradient ?_
    intro gradient last provides
    rw [ends_modifyNode_iff]
    refine ⟨gains_of_provides provides, rfl, rfl, fun node part buffer owned => ?_⟩
    rw [Arena.bufferOf?_modify (by exact fun _ => rfl) inside] at owned
    split at owned
    · exact .inr (Store.leasesOf_of_claim (provides.claims part buffer owned))
    · exact .inl ((buffers node part).symm.trans owned)
  · refine ⟨⟨∅, .refl valid.store, fun _ absent => absent.elim⟩, rfl, rfl,
      fun node part buffer owned => ?_⟩
    exact .inl ((buffers node part).symm.trans owned)

theorem ends_markOutput_resumes
    (valid : graph.Valid pins)
    (output : NodeId) :
    Ends (markOutput output) graph
      (fun _ after => graph.Resumes after ∧ after.Valid pins)
      (fun _ after => after = graph) := by
  refine ((ends_markOutput valid output).and (ends_markOutput_gains valid output)).mono ?_
    fun _ _ failed => failed.2
  rintro _ after ⟨⟨keeps, alike, flags, -, -⟩, ⟨made, frame, new⟩, interned, constants, fresh⟩
  refine ⟨?_, keeps.valid⟩
  exact
    { arena := alike
      interned := interned
      constants := constants
      config := keeps.config
      store := (Store.Includes.refl graph.store).step frame new
      owned := keeps.grows.buffer
      fresh := fresh
      current := fun node current => (flags node).2 current
      readings := fun node part buffer owned _ =>
        keeps.readings node part buffer owned (Set.notMem_empty _)
      computed := fun node _ _ _ current outdated => absurd ((flags node).1 current) outdated }

/-! ## Evaluation -/

/-- Asking for a script keeps it and does nothing else. -/
theorem ends_script_resumes
    (valid : right.Valid pins)
    (resumes : left.Resumes right)
    (output : NodeId) :
    Ends (script output) right
      (fun compiled after => left.Resumes after ∧ after.Valid pins ∧ after.arena = right.arena ∧
        Script.Compiled after.arena output compiled)
      (fun _ after => after = right) := by
  have kept : Ends (script output) right (fun _ after => ∃ scripts, after = { right with scripts })
      fun _ _ => True := by
    unfold script
    rw [ends_bind_iff, ends_get_iff]
    split
    · exact ⟨right.scripts, rfl⟩
    · unfold compile
      rw [ends_bind_iff, ends_get_iff, ends_bind_iff]
      refine ends_check ?_ fun _ => trivial
      exact fun script _ => ⟨_, rfl⟩
  refine (kept.and (ends_script valid output)).mono ?_ fun _ _ failed => failed.2
  rintro compiled _ ⟨⟨scripts, rfl⟩, keeps, -, -, -, -, properly⟩
  exact ⟨resumes.keep scripts, keeps.valid, rfl, properly⟩

/-- An evaluation changes nothing that was known before, whether it succeeds or not. -/
theorem ends_materialize_resumes
    (valid : graph.Valid pins)
    (output : NodeId) :
    Ends (materialize output) graph
      (fun _ after => graph.Resumes after ∧ after.Valid pins)
      (fun _ after => graph.Resumes after) := by
  unfold materialize
  rw [ends_bind_iff]
  refine (ends_markOutput_resumes valid output).mono ?_ fun _ _ same => same ▸ .refl graph
  rintro _ marked ⟨resumes, validMarked⟩
  rw [ends_bind_iff]
  refine ends_content ?_ fun _ => resumes
  intro target owned
  rw [ends_bind_iff]
  refine ends_node ?_ fun _ => resumes
  intro found present
  split
  next => exact ⟨resumes, validMarked⟩
  next notUpToDate =>
    have outdated : ¬ marked.arena.IsCurrent output :=
      fun current => notUpToDate ((Arena.isCurrent_iff present).1 current)
    rw [ends_bind_iff]
    refine (ends_script_resumes validMarked resumes output).mono ?_ fun _ _ same => same ▸ resumes
    rintro compiled middle ⟨resumes, validMiddle, sameArena, properly⟩
    rw [← sameArena] at owned outdated
    rw [ends_bind_iff]
    refine (ends_dataBuffers compiled).mono ?_ fun _ _ same => same ▸ resumes
    rintro data _ ⟨rfl, ownedData⟩
    obtain ⟨shape, size, shaped, sized⟩ := validMiddle.exists_size (index_lt_of_bufferOf? owned)
    rw [ends_bind_iff, ends_onStore_iff]
    refine (ends_forward_meaning validMiddle properly ownedData owned outdated shaped
      sized).mono ?_ fun _ store frame => resumes.onStore frame valid.store
    rintro _ store ⟨frame, reads⟩
    rw [ends_bind_iff, ends_modifyNode_iff, ends_pure_iff]
    exact ⟨resumes.compute validMiddle owned outdated shaped sized frame reads,
      (keeps_compute validMiddle owned outdated shaped sized frame reads).valid⟩

/-! ## Operations that fail -/

omit [Element α] in
theorem ends_leaf_unchanged
    (shape : Shape)
    (values : Array α)
    (trainable : Bool) :
    Ends (leaf shape values trainable) graph (fun _ _ => True) (fun _ after => after = graph) := by
  unfold leaf
  rw [ends_bind_iff]
  refine ends_check ?_ fun _ => rfl
  intro size _
  dsimp only
  split
  · rfl
  · cases trainable with
    | true => trivial
    | false => trivial

omit [Element α] in
theorem ends_create_unchanged
    (opcode : OpCode)
    (operands : List NodeId) :
    Ends (create opcode operands) graph (fun _ _ => True) (fun _ after => after = graph) := by
  refine ends_create_of_intern (fun operation shape needsGradient _ => ?_) fun _ _ => rfl
  exact ends_intern_of_lookup (fun _ _ => trivial) fun _ => trivial

section

variable (valid : graph.Valid pins)

include valid

/-- A node is read after it was brought up to date. -/
theorem ends_readOutput_resumes (output : NodeId) :
    Ends
      (do
        let target ← materialize output
        onStore (Store.read target))
      graph
      (fun _ after => graph.Resumes after)
      (fun _ after => graph.Resumes after) := by
  rw [ends_bind_iff]
  refine (ends_materialize_resumes valid output).mono ?_ fun _ _ resumes => resumes
  rintro target middle ⟨resumes, validMiddle⟩
  rw [ends_onStore_iff]
  exact (Store.ends_read validMiddle.store).mono
    (fun _ store done => resumes.onStore done.1 valid.store)
    fun _ store frame => resumes.onStore frame valid.store

theorem ends_valueAt_resumes (output : NodeId) (index : List Nat) :
    Ends (valueAt output index) graph
      (fun _ after => graph.Resumes after)
      (fun _ after => graph.Resumes after) := by
  unfold valueAt
  rw [ends_bind_iff]
  refine ends_node ?_ fun _ => .refl graph
  intro found _
  rw [ends_bind_iff]
  refine ends_check ?_ fun _ => .refl graph
  intro flat _
  have read := ends_readOutput_resumes valid output
  rw [ends_bind_iff] at read ⊢
  refine read.mono ?_ fun _ _ resumes => resumes
  intro target middle read
  rw [ends_bind_iff]
  refine read.mono ?_ fun _ _ resumes => resumes
  intro values after resumes
  split
  · exact resumes
  · exact resumes

theorem ends_gradient_resumes (target : NodeId) :
    Ends (gradient target) graph (fun _ _ => True) (fun _ after => graph.Resumes after) := by
  unfold gradient
  rw [ends_bind_iff]
  refine ends_gradientBuffer ?_ fun _ => .refl graph
  intro buffer _
  rw [ends_onStore_iff]
  exact (Store.ends_read valid.store).mono (fun _ _ _ => trivial)
    fun _ _ frame => (Resumes.refl graph).onStore frame valid.store

theorem ends_zeroGradient_resumes (target : NodeId) :
    Ends (zeroGradient target) graph (fun _ _ => True) (fun _ after => graph.Resumes after) := by
  unfold zeroGradient
  rw [ends_bind_iff]
  refine ends_gradientBuffer ?_ fun _ => .refl graph
  intro buffer _
  rw [ends_onStore_iff]
  exact (Store.ends_fill valid.store _).mono (fun _ _ _ => trivial)
    fun _ _ frame => (Resumes.refl graph).onStore frame valid.store

theorem ends_setValue_resumes (leaf : NodeId) (values : Array α) :
    Ends (setValue leaf values) graph (fun _ _ => True) (fun _ after => graph.Resumes after) := by
  unfold setValue
  rw [ends_bind_iff]
  refine ends_node ?_ fun _ => .refl graph
  intro found _
  dsimp only
  split
  · exact .refl graph
  · rw [ends_bind_iff]
    refine ends_content ?_ fun _ => .refl graph
    intro target _
    rw [ends_bind_iff, ends_onStore_iff]
    refine (Store.ends_write valid.store values).mono ?_
      fun _ _ frame => (Resumes.refl graph).onStore frame valid.store
    intro _ _ _
    rw [ends_bind_iff, ends_get_iff]
    split
    · trivial
    · trivial

theorem ends_applyGradient_resumes (leaf : NodeId) (rate : α) :
    Ends (applyGradient leaf rate) graph (fun _ _ => True)
      (fun _ after => graph.Resumes after) := by
  unfold applyGradient
  rw [ends_bind_iff]
  refine ends_node ?_ fun _ => .refl graph
  intro found _
  dsimp only
  split
  · exact .refl graph
  · rw [ends_bind_iff]
    refine ends_gradientBuffer ?_ fun _ => .refl graph
    intro gradient _
    rw [ends_bind_iff]
    refine ends_content ?_ fun _ => .refl graph
    intro content _
    rw [ends_bind_iff, ends_onStore_iff]
    exact (ends_descend valid.store content gradient rate).mono (fun _ _ _ => trivial)
      fun _ _ frame => (Resumes.refl graph).onStore frame valid.store

theorem ends_reduce_resumes
    (output : NodeId)
    (axis : Option Nat)
    (reduction : Reduction) :
    Ends (reduce output axis reduction) graph (fun _ _ => True)
      (fun _ after => graph.Resumes after) := by
  have unchanged := Resumes.refl graph
  unfold reduce
  rw [ends_bind_iff]
  refine ends_node ?_ fun _ => unchanged
  intro found present
  have shaped : graph.arena.shape? output = some found.shape := by
    rw [Arena.shape?, present, Option.map_some]
  dsimp only
  rw [ends_bind_iff]
  refine ends_check ?_ fun _ => unchanged
  intro along _
  rw [ends_bind_iff]
  refine ends_check ?_ fun _ => unchanged
  intro layout laidOut
  rw [ends_bind_iff]
  refine ends_check ?_ fun _ => unchanged
  intro reduced _
  rw [ends_bind_iff]
  refine ends_check ?_ fun _ => unchanged
  intro nothing _
  split
  · rw [ends_bind_iff]
    exact ends_check (fun _ _ => trivial) fun _ => unchanged
  · rw [ends_bind_iff]
    refine (ends_script_resumes valid unchanged output).mono ?_ fun _ _ same => same ▸ unchanged
    rintro compiled middle ⟨resumes, validMiddle, sameArena, properly⟩
    rw [← sameArena] at shaped
    rw [ends_bind_iff, ends_onStore_iff]
    refine Script.ends_checkSupported.mono ?_ fun _ _ same => same ▸ resumes
    rintro _ _ rfl
    rw [ends_bind_iff]
    refine (ends_dataBuffers compiled).mono ?_ fun _ _ same => same ▸ resumes
    rintro data _ ⟨rfl, ownedData⟩
    rw [ends_bind_iff, ends_get_iff, ends_bind_iff, ends_onStore_iff]
    exact (ends_reduceScript validMiddle.store _
      (yields_evalAt validMiddle properly ownedData shaped laidOut)).mono (fun _ _ _ => trivial)
        fun _ _ frame => resumes.onStore frame valid.store

end

/-! ## Requests that fail -/

namespace Session

/-- Whether a request is one operation on the graph that does not go backward. -/
def Command.isRepeatable : Command α → Bool
  | .leaf .. | .create .. | .markOutput _ | .script _ | .compile _ | .value _ | .valueAt .. => true
  | .gradient _ | .applyGradient .. | .zeroGradient _ | .setValue .. | .reduce .. => true
  | _ => false

variable {session : Session α}

theorem ends_request_resumes
    {β : Type}
    {action : Graph.Action α β}
    {answer : β → Answer α}
    (ends : Ends action session.graph (fun _ _ => True)
      (fun _ after => session.graph.Resumes after)) :
    Ends (answer <$> onGraph action) session (fun _ _ => True)
      (fun _ after => session.graph.Resumes after.graph ∧ after.pins = session.pins) := by
  rw [ends_map_iff, ends_onGraph_iff]
  exact ends.mono (fun _ _ _ => trivial) fun _ _ resumes => ⟨resumes, rfl⟩

/-- A request that fails changes nothing that was known before. -/
theorem ends_perform_resumes
    (valid : session.Valid)
    {command : Command α}
    (repeatable : command.isRepeatable = true) :
    Ends (perform command) session (fun _ _ => True)
      (fun _ after => session.graph.Resumes after.graph ∧ after.pins = session.pins) := by
  have unchanged : ∀ after, after = session.graph → session.graph.Resumes after :=
    fun _ same => same ▸ .refl session.graph
  cases command with
  | leaf shape values trainable =>
    exact ends_request_resumes ((ends_leaf_unchanged shape values trainable).mono
      (fun _ _ _ => trivial) fun _ after => unchanged after)
  | create opcode operands =>
    exact ends_request_resumes ((ends_create_unchanged opcode operands).mono
      (fun _ _ _ => trivial) fun _ after => unchanged after)
  | markOutput node =>
    exact ends_request_resumes ((ends_markOutput_resumes valid node).mono
      (fun _ _ _ => trivial) fun _ after => unchanged after)
  | script node =>
    exact ends_request_resumes ((ends_script valid node).mono
      (fun _ _ _ => trivial) fun _ after => unchanged after)
  | compile node =>
    exact ends_request_resumes ((ends_compile valid node).mono
      (fun _ _ _ => trivial) fun _ after failed => unchanged after failed.1)
  | value node =>
    exact ends_request_resumes ((ends_readOutput_resumes valid node).mono
      (fun _ _ _ => trivial) fun _ _ resumes => resumes)
  | valueAt node index =>
    exact ends_request_resumes ((ends_valueAt_resumes valid node index).mono
      (fun _ _ _ => trivial) fun _ _ resumes => resumes)
  | gradient node => exact ends_request_resumes (ends_gradient_resumes valid node)
  | applyGradient node rate =>
    exact ends_request_resumes (ends_applyGradient_resumes valid node rate)
  | zeroGradient node => exact ends_request_resumes (ends_zeroGradient_resumes valid node)
  | setValue node values => exact ends_request_resumes (ends_setValue_resumes valid node values)
  | reduce node axis reduction =>
    exact ends_request_resumes (ends_reduce_resumes valid node axis reduction)
  | _ => cases repeatable

end Session

end Elementwise.Graph
