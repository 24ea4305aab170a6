import Elementwise.Graph.Session
import Elementwise.Proofs.Buffer.Access
import Elementwise.Proofs.Graph.Invalidation

/-!
# Valid graphs

A graph is linked if its arena is sound, its store is valid, and the two fit
together: every buffer of a node is live, is held by the node and by nobody
else but the leases of the user, and belongs to one node only; a node that is
up to date has a content buffer; and every script that is kept is the one that
would be compiled now.  In a valid graph, all leaves are up to date besides.

How often the user leases a buffer is a parameter, because a graph does not
know of it.
-/

namespace Elementwise

/-- One of the buffers of a node. -/
def Arena.bufferOf? (arena : Arena) (node : NodeId) : Graph.Part → Option BufferId
  | .content => (arena.node? node).bind Node.content?
  | .gradient => (arena.node? node).bind Node.gradient?

/-- One of the buffers of a storage. -/
def Storage.buffer? (storage : Storage) : Graph.Part → Option BufferId
  | .content => some storage.content
  | .gradient => storage.gradient

/-- The node is marked as up to date. -/
def Arena.IsCurrent (arena : Arena) (node : NodeId) : Prop :=
  ∃ found, arena.node? node = some found ∧ found.isCurrent = true

theorem Arena.isCurrent_iff
    {arena : Arena}
    {node : NodeId}
    {found : Node}
    (present : arena.node? node = some found) :
    arena.IsCurrent node ↔ found.isCurrent = true := by
  rw [IsCurrent, present]
  exact ⟨fun ⟨_, same, current⟩ => Option.some.inj same ▸ current, fun current =>
    ⟨found, rfl, current⟩⟩

/-- The claim on a buffer that a node holds and the user leases a number of times. -/
def Claim.held (size pins : Nat) : Claim :=
  ⟨size, pins + 1, pins⟩

namespace Arena

variable
    (arena : Arena)
    (operation : Operation)
    (shape : Shape)
    (needsGradient : Bool)

/-- A new node has no buffers. -/
theorem bufferOf?_push (node : NodeId) (part : Graph.Part) :
    (arena.push operation shape needsGradient).2.bufferOf? node part =
      arena.bufferOf? node part := by
  have same : ∀ read : Node → Option BufferId,
      (∀ found user, read (found.addUser user) = read found) →
      (∀ found : Node, found.storage = none → read found = none) →
      ((arena.push operation shape needsGradient).2.node? node).bind read =
        (arena.node? node).bind read := by
    intro read kept none
    rw [node?_push]
    split
    next last =>
      rw [node?_of_size_le (Nat.le_of_eq last.symm)]
      exact none _ rfl
    · rw [Option.bind_map]
      refine Option.bind_congr fun found _ => ?_
      rw [Function.comp_apply]
      split
      · exact kept found _
      · rfl
  cases part with
  | content =>
    refine same Node.content? ?_ ?_
    · intro found user
      rw [Node.addUser_eq]
      rfl
    · intro found absent
      rw [Node.content?, absent]
      rfl
  | gradient =>
    refine same Node.gradient? ?_ ?_
    · intro found user
      rw [Node.addUser_eq]
      rfl
    · intro found absent
      rw [Node.gradient?, absent]
      rfl

/-- A new node is not up to date. -/
theorem isCurrent_push (node : NodeId) :
    (arena.push operation shape needsGradient).2.IsCurrent node ↔ arena.IsCurrent node := by
  unfold IsCurrent
  rw [node?_push]
  split
  next last =>
    rw [node?_of_size_le (Nat.le_of_eq last.symm)]
    constructor
    · rintro ⟨found, same, current⟩
      cases same
      cases current
    · rintro ⟨found, absent, -⟩
      cases absent
  · constructor
    · rintro ⟨found, same, current⟩
      obtain ⟨old, present, rfl⟩ := Option.map_eq_some_iff.1 same
      refine ⟨old, present, ?_⟩
      split at current
      · rwa [Node.addUser_eq] at current
      · exact current
    · rintro ⟨old, present, current⟩
      refine ⟨_, Option.map_eq_some_iff.2 ⟨old, present, rfl⟩, ?_⟩
      split
      · rwa [Node.addUser_eq]
      · exact current

variable {arena}

/-- One more node is up to date. -/
theorem isCurrent_modify_iff
    {node : NodeId}
    {change : Node → Node}
    (sets : ∀ found, (change found).isCurrent = true)
    (inside : node.index < arena.size)
    (other : NodeId) :
    (arena.modify node change).IsCurrent other ↔ other = node ∨ arena.IsCurrent other := by
  unfold IsCurrent
  rw [node?_modify]
  split
  next same =>
    subst same
    obtain ⟨found, present⟩ := Option.isSome_iff_exists.1 ((node?_isSome_iff node).2 inside)
    simp [present, sets]
  next different => simp [Ne.symm different]

/-- A change that leaves the storage alone leaves the buffers alone. -/
theorem bufferOf?_modify_of_same
    (node : NodeId)
    {change : Node → Node}
    (stored : ∀ found, (change found).storage = found.storage)
    (other : NodeId)
    (part : Graph.Part) :
    (arena.modify node change).bufferOf? other part = arena.bufferOf? other part := by
  have same : ∀ read : Node → Option BufferId, (∀ found, read (change found) = read found) →
      ((arena.modify node change).node? other).bind read = (arena.node? other).bind read := by
    intro read kept
    rw [node?_modify]
    split
    · rw [Option.bind_map]
      exact Option.bind_congr fun found _ => kept found
    · rfl
  cases part with
  | content => exact same Node.content? fun found => by rw [Node.content?, stored]; rfl
  | gradient => exact same Node.gradient? fun found => by rw [Node.gradient?, stored]; rfl

/-- A change that leaves the flag alone. -/
theorem isCurrent_modify_of_same
    (node : NodeId)
    {change : Node → Node}
    (current : ∀ found, (change found).isCurrent = found.isCurrent)
    (other : NodeId) :
    (arena.modify node change).IsCurrent other ↔ arena.IsCurrent other := by
  unfold IsCurrent
  rw [node?_modify]
  split
  · simp [current]
  · rfl

/-- A node that gets a storage has the buffers of that storage. -/
theorem bufferOf?_modify
    {node : NodeId}
    {change : Node → Node}
    {storage : Storage}
    (stored : ∀ found, (change found).storage = some storage)
    (inside : node.index < arena.size)
    (other : NodeId)
    (part : Graph.Part) :
    (arena.modify node change).bufferOf? other part =
      if node = other then storage.buffer? part else arena.bufferOf? other part := by
  by_cases same : node = other
  · subst same
    obtain ⟨found, present⟩ := Option.isSome_iff_exists.1 ((node?_isSome_iff node).2 inside)
    have changed : (arena.modify node change).node? node = some (change found) := by
      rw [node?_modify, if_pos rfl, present, Option.map_some]
    rw [if_pos rfl]
    cases part with
    | content =>
      show ((arena.modify node change).node? node).bind Node.content? = _
      rw [changed, Option.bind_some, Node.content?, stored]
      rfl
    | gradient =>
      show ((arena.modify node change).node? node).bind Node.gradient? = _
      rw [changed, Option.bind_some, Node.gradient?, stored]
      rfl
  · have kept : (arena.modify node change).node? other = arena.node? other := by
      rw [node?_modify, if_neg same]
    rw [if_neg same]
    cases part with
    | content => exact congrArg (Option.bind · Node.content?) kept
    | gradient => exact congrArg (Option.bind · Node.gradient?) kept

end Arena

namespace Graph

variable
    {α : Type}
    [Element α]
    {graph : Graph α}
    {pins : BufferId → Nat}
    {arena : Arena}
    {store : Store α}

/-- How the arena, the store and the scripts of a graph fit together. -/
structure Linked (graph : Graph α) (pins : BufferId → Nat) : Prop where
  arena : graph.arena.Sound
  store : graph.store.Valid
  /-- The user leases no buffer that does not exist yet. -/
  pinned : ∀ buffer : BufferId, graph.store.nextIndex ≤ buffer.index → pins buffer = 0
  claims : ∀ node part buffer shape size, graph.arena.bufferOf? node part = some buffer →
    graph.arena.shape? node = some shape → shape.size = .ok size →
    graph.store.claim? buffer = some (.held size (pins buffer))
  apart : ∀ node other part otherPart buffer, graph.arena.bufferOf? node part = some buffer →
    graph.arena.bufferOf? other otherPart = some buffer → node = other ∧ part = otherPart
  current : ∀ node, graph.arena.IsCurrent node →
    ∃ buffer, graph.arena.bufferOf? node .content = some buffer
  scripts : ∀ node script, graph.scripts.get? node = some script →
    node.index < graph.arena.size ∧ Script.compile graph.arena node = .ok script

/-- A linked graph in which all leaves are up to date. -/
structure Valid (graph : Graph α) (pins : BufferId → Nat) : Prop extends graph.Linked pins where
  leaves : ∀ node, graph.arena.operation? node = some .leaf → graph.arena.IsCurrent node

/-! ## What a linked graph says of its buffers -/

omit [Element α] in
/-- A node has a shape, and the shape a size. -/
theorem Linked.exists_size
    (linked : graph.Linked pins)
    {node : NodeId}
    (inside : node.index < graph.arena.size) :
    ∃ shape size, graph.arena.shape? node = some shape ∧ shape.size = .ok size := by
  obtain ⟨found, present⟩ :=
    Option.isSome_iff_exists.1 ((Arena.node?_isSome_iff node).2 inside)
  have shaped : graph.arena.shape? node = some found.shape := by
    rw [Arena.shape?, present, Option.map_some]
  obtain ⟨size, sized⟩ := linked.arena.sized node found.shape shaped
  exact ⟨found.shape, size, shaped, sized⟩

theorem index_lt_of_bufferOf?
    {node : NodeId}
    {part : Part}
    {buffer : BufferId}
    (owned : arena.bufferOf? node part = some buffer) :
    node.index < arena.size := by
  rw [← Arena.node?_isSome_iff]
  cases found : arena.node? node with
  | some value => rfl
  | none => cases part <;> simp [Arena.bufferOf?, found] at owned

omit [Element α] in
/-- Every buffer of a node is live. -/
theorem Linked.exists_claim
    (linked : graph.Linked pins)
    {node : NodeId}
    {part : Part}
    {buffer : BufferId}
    (owned : graph.arena.bufferOf? node part = some buffer) :
    ∃ size, graph.store.claim? buffer = some (.held size (pins buffer)) := by
  obtain ⟨shape, size, shaped, sized⟩ := linked.exists_size (index_lt_of_bufferOf? owned)
  exact ⟨size, linked.claims node part buffer shape size owned shaped sized⟩

/-- A buffer of a node reads as an array of the node's size. -/
theorem Linked.exists_reading
    (linked : graph.Linked pins)
    {node : NodeId}
    {part : Part}
    {buffer : BufferId}
    {shape : Shape}
    {size : Nat}
    (owned : graph.arena.bufferOf? node part = some buffer)
    (shaped : graph.arena.shape? node = some shape)
    (sized : shape.size = .ok size) :
    ∃ values, graph.store.reading? buffer = some values ∧ values.size = size :=
  Store.exists_reading linked.store (linked.claims node part buffer shape size owned shaped sized)

/-! ## Changes of the store -/

/-- A step of the store that leaves the buffers of the nodes alone. -/
theorem Linked.of_frame
    {made written : Set BufferId}
    (linked : graph.Linked pins)
    (frame : Store.Frame made written graph.store store)
    (new : ∀ buffer ∈ made, graph.store.claim? buffer = none) :
    Linked { graph with store := store } pins where
  arena := linked.arena
  store := frame.valid
  pinned buffer later := linked.pinned buffer (Nat.le_trans frame.nextIndex later)
  claims node part buffer shape size owned shaped sized := by
    have claimed := linked.claims node part buffer shape size owned shaped sized
    have old : buffer ∉ made := by
      intro member
      rw [new buffer member] at claimed
      cases claimed
    exact (frame.claims buffer old).trans claimed
  apart := linked.apart
  current := linked.current
  scripts := linked.scripts

theorem Valid.of_frame
    {made written : Set BufferId}
    (valid : graph.Valid pins)
    (frame : Store.Frame made written graph.store store)
    (new : ∀ buffer ∈ made, graph.store.claim? buffer = none) :
    Valid { graph with store := store } pins :=
  ⟨valid.toLinked.of_frame frame new, valid.leaves⟩

/-! ## Changes of the arena -/

omit [Element α] in
/-- Flags may change as long as only nodes with a content buffer count as up to date. -/
theorem Linked.of_alike
    (linked : graph.Linked pins)
    (alike : graph.arena.Alike arena)
    (same : ∀ node part, arena.bufferOf? node part = graph.arena.bufferOf? node part)
    (current : ∀ node, arena.IsCurrent node →
      ∃ buffer, graph.arena.bufferOf? node .content = some buffer) :
    Linked { graph with arena := arena } pins where
  arena := alike.sound linked.arena
  store := linked.store
  pinned := linked.pinned
  claims node part buffer shape size owned shaped sized := by
    rw [same] at owned
    rw [alike.shape?] at shaped
    exact linked.claims node part buffer shape size owned shaped sized
  apart node other part otherPart buffer owned ownedOther := by
    rw [same] at owned ownedOther
    exact linked.apart node other part otherPart buffer owned ownedOther
  current node isCurrent := by
    obtain ⟨buffer, owned⟩ := current node isCurrent
    exact ⟨buffer, (same node .content).trans owned⟩
  scripts node script kept := by
    obtain ⟨inside, compiled⟩ := linked.scripts node script kept
    refine ⟨by rw [alike.size]; exact inside, ?_⟩
    rw [Script.compile_extends linked.arena.ordered (alike.sound linked.arena).ordered
      alike.extension inside, compiled]

omit [Element α] in
/-- A new node. -/
theorem Linked.push
    (linked : graph.Linked pins)
    {operation : Operation}
    {shape : Shape}
    {needsGradient : Bool}
    (sound : (graph.arena.push operation shape needsGradient).2.Sound) :
    Linked { graph with arena := (graph.arena.push operation shape needsGradient).2 } pins where
  arena := sound
  store := linked.store
  pinned := linked.pinned
  claims node part buffer found size owned shaped sized := by
    have old : graph.arena.bufferOf? node part = some buffer := by
      rwa [Arena.bufferOf?_push] at owned
    have shapedOld : graph.arena.shape? node = some found := by
      rwa [Arena.shape?_push, if_neg (Nat.ne_of_lt (index_lt_of_bufferOf? old))] at shaped
    exact linked.claims node part buffer found size old shapedOld sized
  apart node other part otherPart buffer owned ownedOther := by
    rw [Arena.bufferOf?_push] at owned ownedOther
    exact linked.apart node other part otherPart buffer owned ownedOther
  current node isCurrent := by
    rw [Arena.isCurrent_push] at isCurrent
    obtain ⟨buffer, owned⟩ := linked.current node isCurrent
    exact ⟨buffer, (Arena.bufferOf?_push ..).trans owned⟩
  scripts node script kept := by
    obtain ⟨inside, compiled⟩ := linked.scripts node script kept
    have same := Script.compile_extends linked.arena.ordered sound.ordered
      (Arena.extends_push shape needsGradient) inside
    refine ⟨by rw [Arena.size_push]; exact Nat.lt_succ_of_lt inside, ?_⟩
    exact same.trans compiled

omit [Element α] in
/-- A node gets buffers that are new. -/
theorem Linked.store_node
    (linked : graph.Linked pins)
    {node : NodeId}
    {shape : Shape}
    {size : Nat}
    {storage : Storage}
    (change : Node → Node)
    (core : ∀ found, (change found).core = found.core)
    (stored : ∀ found, (change found).storage = some storage)
    (shaped : graph.arena.shape? node = some shape)
    (sized : shape.size = .ok size)
    (fresh : ∀ part buffer, storage.buffer? part = some buffer →
      graph.store.claim? buffer = some (.fresh size) ∧ pins buffer = 0 ∧
        ∀ other otherPart, graph.arena.bufferOf? other otherPart ≠ some buffer)
    (apart : storage.gradient ≠ some storage.content) :
    Linked { graph with arena := graph.arena.modify node change } pins := by
  have inside : node.index < graph.arena.size := by
    obtain ⟨found, present, -⟩ := Option.map_eq_some_iff.1 shaped
    rw [← Arena.node?_isSome_iff, present]
    rfl
  have alike := graph.arena.alike_modify node change core
  have buffers := Arena.bufferOf?_modify stored inside
  refine ⟨alike.sound linked.arena, linked.store, linked.pinned, ?_, ?_, ?_, ?_⟩
  · intro other part buffer found otherSize owned shapedOther sizedOther
    rw [alike.shape?] at shapedOther
    rw [buffers] at owned
    split at owned
    next same =>
      subst same
      rw [shaped] at shapedOther
      cases shapedOther
      rw [sized] at sizedOther
      cases sizedOther
      obtain ⟨claimed, unpinned, -⟩ := fresh part buffer owned
      rw [claimed, unpinned]
      rfl
    · exact linked.claims other part buffer found otherSize owned shapedOther sizedOther
  · intro first second part otherPart buffer owned ownedOther
    rw [buffers] at owned ownedOther
    split at owned
    next same =>
      split at ownedOther
      next sameOther =>
        refine ⟨same.symm.trans sameOther, ?_⟩
        cases part with
        | content =>
          cases otherPart with
          | content => rfl
          | gradient => exact absurd (ownedOther.trans owned.symm) apart
        | gradient =>
          cases otherPart with
          | content => exact absurd (owned.trans ownedOther.symm) apart
          | gradient => rfl
      · exact absurd ownedOther ((fresh part buffer owned).2.2 second otherPart)
    · split at ownedOther
      · exact absurd owned ((fresh otherPart buffer ownedOther).2.2 first part)
      · exact linked.apart first second part otherPart buffer owned ownedOther
  · rintro other ⟨found, present, isCurrent⟩
    by_cases same : node = other
    · exact ⟨storage.content, (buffers other .content).trans (if_pos same)⟩
    · rw [Arena.node?_modify, if_neg same] at present
      obtain ⟨buffer, owned⟩ := linked.current other ⟨found, present, isCurrent⟩
      exact ⟨buffer, (buffers other .content).trans ((if_neg same).trans owned)⟩
  · intro other script kept
    obtain ⟨insideOther, compiled⟩ := linked.scripts other script kept
    have same := Script.compile_extends linked.arena.ordered (alike.sound linked.arena).ordered
      alike.extension insideOther
    exact ⟨by rw [alike.size]; exact insideOther, same.trans compiled⟩

omit [Element α] in
/-- A script may be kept if it is the one that would be compiled. -/
theorem Linked.keep
    (linked : graph.Linked pins)
    {node : NodeId}
    {script : Script}
    (inside : node.index < graph.arena.size)
    (compiled : Script.compile graph.arena node = .ok script) :
    Linked { graph with scripts := graph.scripts.insert node script } pins where
  arena := linked.arena
  store := linked.store
  pinned := linked.pinned
  claims := linked.claims
  apart := linked.apart
  current := linked.current
  scripts other found kept := by
    rw [Table.get?_insert] at kept
    split at kept
    next same =>
      cases kept
      exact same ▸ ⟨inside, compiled⟩
    · exact linked.scripts other found kept

end Graph

end Elementwise
