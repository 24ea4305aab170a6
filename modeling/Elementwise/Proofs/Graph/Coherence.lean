import Elementwise.Graph.Meaning
import Elementwise.Proofs.Graph.Validity
import Elementwise.Proofs.Script.Evaluation

/-!
# Coherent graphs

A graph is coherent if the content buffer of every node that is marked as up to
date reads as the value of the node on the current leaves.  The value of a node
depends on the leaves behind it only, and not on nodes that are added later.

`Keeps` says what an operation of the graph leaves alone.  It comes with the
rules by which it composes, so that the operations can be taken apart.
-/

namespace Elementwise

/-! ## What values depend on -/

/-- The value of a node depends on the elements of the leaves behind it only. -/
theorem Arena.elementOf_eq_of_leaves
    {α : Type}
    [Arithmetic α]
    {arena larger : Arena}
    {leaves others : NodeId → Array α}
    {coordinate otherCoordinate : Nat}
    (ordered : arena.Ordered)
    (orderedLarger : larger.Ordered)
    (extension : arena.Extends larger)
    {node : NodeId}
    (inside : node.index < arena.size)
    (same : ∀ leaf, arena.DependsOn node leaf → arena.operation? leaf = some .leaf →
      leafElement (others leaf) otherCoordinate = leafElement (leaves leaf) coordinate) :
    larger.elementOf others otherCoordinate node = arena.elementOf leaves coordinate node := by
  induction node using ordered.induction with
  | step node operandwise =>
    have equal := extension node inside
    have below : ∀ operand ∈ arena.operands node,
        larger.elementOf others otherCoordinate operand =
          arena.elementOf leaves coordinate operand := by
      intro operand member
      refine operandwise operand member
        (Nat.lt_trans (ordered node operand member) inside) fun leaf depends isLeaf => ?_
      exact same leaf (Relation.ReflTransGen.head member depends) isLeaf
    cases found : arena.operation? node with
    | none =>
      rw [found] at equal
      unfold elementOf
      rw [equal, found]
    | some operation =>
      rw [found] at equal
      by_cases isLeaf : operation = .leaf
      · subst isLeaf
        rw [elementOf_leaf equal, elementOf_leaf found, same node .refl found]
      · obtain ⟨opcode, left, right, parts⟩ := Operation.parts?_of_ne_leaf isLeaf
        rw [elementOf_parts orderedLarger equal parts, elementOf_parts ordered found parts]
        rw [Arena.operands_of_parts? found parts] at below
        rw [below left List.mem_cons_self]
        cases right with
        | none => rfl
        | some right =>
          simp only [Option.map_some, Option.getD_some]
          rw [below right (List.mem_cons_of_mem _ (List.mem_singleton.2 rfl))]

/-- The value of a node depends on the leaves behind it only. -/
theorem Arena.elementOf_congr
    {α : Type}
    [Arithmetic α]
    {arena larger : Arena}
    {leaves others : NodeId → Array α}
    {coordinate : Nat}
    (ordered : arena.Ordered)
    (orderedLarger : larger.Ordered)
    (extension : arena.Extends larger)
    {node : NodeId}
    (inside : node.index < arena.size)
    (same : ∀ leaf, arena.DependsOn node leaf → arena.operation? leaf = some .leaf →
      others leaf = leaves leaf) :
    larger.elementOf others coordinate node = arena.elementOf leaves coordinate node :=
  elementOf_eq_of_leaves ordered orderedLarger extension inside fun leaf depends isLeaf =>
    congrArg (leafElement · coordinate) (same leaf depends isLeaf)

/-- Nodes keep what they compute, their shape and their buffers. -/
structure Arena.Grows (before after : Arena) : Prop where
  extension : before.Extends after
  shape : ∀ node shape, before.shape? node = some shape → after.shape? node = some shape
  buffer : ∀ node part buffer, before.bufferOf? node part = some buffer →
    after.bufferOf? node part = some buffer

theorem Arena.Grows.refl (arena : Arena) : arena.Grows arena where
  extension _ _ := rfl
  shape _ _ found := found
  buffer _ _ _ found := found

theorem Arena.Grows.trans
    {before middle after : Arena}
    (first : before.Grows middle)
    (second : middle.Grows after) :
    before.Grows after where
  extension node inside := by
    rw [second.extension node (first.extension.lt_size inside), first.extension node inside]
  shape node shape found := second.shape node shape (first.shape node shape found)
  buffer node part buffer found := second.buffer node part buffer
    (first.buffer node part buffer found)

namespace Graph

variable
    {α : Type}
    [Element α]
    {graph before middle after : Graph α}
    {pins : BufferId → Nat}
    {written : Set BufferId}
    {node : NodeId}
    {shape : Shape}
    {size : Nat}

theorem reading_eq (graph : Graph α) (node : NodeId) :
    graph.reading node =
      ((graph.arena.bufferOf? node .content).bind graph.store.reading?).getD #[] := by
  unfold reading Arena.bufferOf?
  cases graph.arena.node? node <;> rfl

/-- What a content buffer reads as, if there is one. -/
theorem reading_of_bufferOf?
    {buffer : BufferId}
    {values : Array α}
    (owned : graph.arena.bufferOf? node .content = some buffer)
    (reads : graph.store.reading? buffer = some values) :
    graph.reading node = values := by
  rw [reading_eq, owned, Option.bind_some, reads, Option.getD_some]

/-- The value of a node is the same on graphs whose leaves read the same. -/
theorem meaning_congr
    (sound : before.arena.Sound)
    (soundAfter : after.arena.Sound)
    (extension : before.arena.Extends after.arena)
    (inside : node.index < before.arena.size)
    (same : ∀ leaf, before.arena.DependsOn node leaf →
      before.arena.operation? leaf = some .leaf → after.reading leaf = before.reading leaf) :
    after.meaning node size = before.meaning node size := by
  unfold meaning
  refine congrArg _ (funext fun coordinate => ?_)
  exact Arena.elementOf_congr sound.ordered soundAfter.ordered extension inside same

/-- A leaf stands for what its content buffer reads as. -/
theorem reading_leaf
    (valid : graph.Valid pins)
    (isLeaf : graph.arena.operation? node = some .leaf)
    (shaped : graph.arena.shape? node = some shape)
    (sized : shape.size = .ok size) :
    graph.reading node = graph.meaning node size := by
  obtain ⟨buffer, owned⟩ := valid.current node (valid.leaves node isLeaf)
  obtain ⟨values, reads, length⟩ := valid.exists_reading owned shaped sized
  have reading := reading_of_bufferOf? owned reads
  refine Array.ext ?_ fun index inside insideMeaning => ?_
  · rw [reading, length, size_meaning]
  · have place : (if values.size = 1 then 0 else index) = index := by
      split
      next single =>
        rw [reading, single] at inside
        omega
      next => rfl
    simp only [meaning, Array.getElem_ofFn, elementOf, Arena.elementOf_leaf isLeaf, leafElement,
      reading, place]
    rw [Array.getD_eq_getD_getElem?, Array.getElem?_eq_getElem (reading ▸ inside),
      Option.getD_some]

/-- The content of every node that is up to date is its value. -/
def Coherent (graph : Graph α) : Prop :=
  ∀ node shape size, graph.arena.IsCurrent node → graph.arena.shape? node = some shape →
    shape.size = .ok size → graph.reading node = graph.meaning node size

/-- A content buffer that is left alone gives the same reading. -/
theorem reading_congr
    (grows : before.arena.Grows after.arena)
    {buffer : BufferId}
    (owned : before.arena.bufferOf? node .content = some buffer)
    (same : after.store.reading? buffer = before.store.reading? buffer) :
    after.reading node = before.reading node := by
  rw [reading_eq, reading_eq, owned, grows.buffer node .content buffer owned,
    Option.bind_some, Option.bind_some, same]

/--
A graph stays coherent if the contents that are up to date do not change and what
becomes up to date is right.
-/
theorem Coherent.of_contents
    {pinsAfter : BufferId → Nat}
    (coherent : before.Coherent)
    (valid : before.Valid pins)
    (validAfter : after.Valid pinsAfter)
    (grows : before.arena.Grows after.arena)
    (same : ∀ node buffer, before.arena.IsCurrent node →
      before.arena.bufferOf? node .content = some buffer →
      after.store.reading? buffer = before.store.reading? buffer)
    (new : ∀ node shape size, after.arena.IsCurrent node → ¬ before.arena.IsCurrent node →
      after.arena.shape? node = some shape → shape.size = .ok size →
      after.reading node = after.meaning node size) :
    after.Coherent := by
  intro node shape size isCurrent shaped sized
  by_cases old : before.arena.IsCurrent node
  · obtain ⟨buffer, owned⟩ := valid.current node old
    have inside := index_lt_of_bufferOf? owned
    obtain ⟨shapeBefore, sizeBefore, shapedBefore, sizedBefore⟩ := valid.exists_size inside
    have equal := grows.shape node shapeBefore shapedBefore
    rw [shaped] at equal
    cases equal
    rw [reading_congr grows owned (same node buffer old owned),
      coherent node shape size old shapedBefore sized]
    refine (meaning_congr valid.arena validAfter.arena grows.extension inside ?_).symm
    intro leaf _ isLeaf
    have currentLeaf := valid.leaves leaf isLeaf
    obtain ⟨leafBuffer, ownedLeaf⟩ := valid.current leaf currentLeaf
    exact reading_congr grows ownedLeaf (same leaf leafBuffer currentLeaf ownedLeaf)
  · exact new node shape size isCurrent old shaped sized

/-! ## What an operation leaves alone -/

/--
What an operation of the graph leaves alone: the nodes there are, and the
readings of their buffers except some.  A new gradient reads as zeros, and a
coherent graph stays coherent.
-/
structure Keeps
    (pins : BufferId → Nat)
    (written : Set BufferId)
    (before after : Graph α) : Prop where
  valid : after.Valid pins
  grows : before.arena.Grows after.arena
  readings : ∀ node part buffer, before.arena.bufferOf? node part = some buffer →
    buffer ∉ written → after.store.reading? buffer = before.store.reading? buffer
  fresh : ∀ node buffer, before.arena.bufferOf? node .gradient = none →
    after.arena.bufferOf? node .gradient = some buffer → buffer ∉ written →
      ∃ size, after.store.reading? buffer = some (zeros α size)
  coherent : before.Coherent → after.Coherent
  config : after.config = before.config

namespace Keeps

theorem refl (valid : graph.Valid pins) : Keeps pins ∅ graph graph where
  valid := valid
  grows := .refl graph.arena
  readings _ _ _ _ _ := rfl
  fresh _ _ none owned _ := nomatch none.symm.trans owned
  coherent coherent := coherent
  config := rfl

theorem mono
    {more : Set BufferId}
    (keeps : Keeps pins written before after)
    (longer : written ⊆ more) :
    Keeps pins more before after where
  valid := keeps.valid
  grows := keeps.grows
  readings node part buffer owned unwritten :=
    keeps.readings node part buffer owned fun member => unwritten (longer member)
  fresh node buffer none owned unwritten :=
    keeps.fresh node buffer none owned fun member => unwritten (longer member)
  coherent := keeps.coherent
  config := keeps.config

theorem trans
    {laterWritten : Set BufferId}
    (first : Keeps pins written before middle)
    (second : Keeps pins laterWritten middle after) :
    Keeps pins (written ∪ laterWritten) before after where
  valid := second.valid
  grows := first.grows.trans second.grows
  readings node part buffer owned unwritten := by
    rw [Set.mem_union, not_or] at unwritten
    rw [second.readings node part buffer (first.grows.buffer node part buffer owned) unwritten.2,
      first.readings node part buffer owned unwritten.1]
  fresh node buffer none owned unwritten := by
    rw [Set.mem_union, not_or] at unwritten
    cases between : middle.arena.bufferOf? node .gradient with
    | none => exact second.fresh node buffer between owned unwritten.2
    | some other =>
      have same := second.grows.buffer node .gradient other between
      rw [owned] at same
      cases same
      rw [second.readings node .gradient buffer between unwritten.2]
      exact first.fresh node buffer none between unwritten.1
  coherent coherent := second.coherent (first.coherent coherent)
  config := second.config.trans first.config

/-- The value of a node stays the same if no leaf is written. -/
theorem meaning
    (keeps : Keeps pins written before after)
    (valid : before.Valid pins)
    (leaves : ∀ leaf buffer, before.arena.operation? leaf = some .leaf →
      before.arena.bufferOf? leaf .content = some buffer → buffer ∉ written)
    (inside : node.index < before.arena.size) :
    after.meaning node size = before.meaning node size := by
  refine meaning_congr valid.arena keeps.valid.arena keeps.grows.extension inside ?_
  intro leaf _ isLeaf
  obtain ⟨buffer, owned⟩ := valid.current leaf (valid.leaves leaf isLeaf)
  exact reading_congr keeps.grows owned
    (keeps.readings leaf .content buffer owned (leaves leaf buffer isLeaf owned))

/-- A step after one that writes nothing. -/
theorem trans_empty
    (first : Keeps pins ∅ before middle)
    (second : Keeps pins written middle after) :
    Keeps pins written before after := by
  have both := first.trans second
  rwa [Set.empty_union] at both

/-- A step of the store that writes no content. -/
theorem of_frame
    {made : Set BufferId}
    {store : Store α}
    (valid : graph.Valid pins)
    (frame : Store.Frame made written graph.store store)
    (new : ∀ buffer ∈ made, graph.store.claim? buffer = none)
    (contents : ∀ node buffer, graph.arena.bufferOf? node .content = some buffer →
      buffer ∉ written) :
    Keeps pins written graph { graph with store := store } := by
  have validAfter := valid.of_frame frame new
  have old : ∀ node part buffer, graph.arena.bufferOf? node part = some buffer →
      buffer ∉ made := by
    intro node part buffer owned member
    obtain ⟨size, claimed⟩ := valid.exists_claim owned
    rw [new buffer member] at claimed
    cases claimed
  have grows : graph.arena.Grows graph.arena := .refl graph.arena
  refine ⟨validAfter, grows, ?_, ?_, ?_, rfl⟩
  · intro node part buffer owned unwritten
    exact frame.readings buffer (old node part buffer owned) unwritten
  · intro node buffer none owned _
    cases none.symm.trans owned
  · intro coherent
    refine coherent.of_contents valid validAfter grows ?_ ?_
    · intro node buffer _ owned
      exact frame.readings buffer (old node .content buffer owned) (contents node buffer owned)
    · intro node _ _ isCurrent notBefore
      exact absurd isCurrent notBefore

/-- A step of the store that writes nothing. -/
theorem of_frame_empty
    {store : Store α}
    (valid : graph.Valid pins)
    (frame : Store.Frame ∅ ∅ graph.store store) :
    Keeps pins ∅ graph { graph with store := store } :=
  of_frame valid frame (fun _ absent => absent.elim) fun _ _ _ => Set.notMem_empty _

/-- A change of the arena that makes nothing up to date that was not. -/
theorem of_arena
    {arena : Arena}
    (valid : graph.Valid pins)
    (validAfter : Valid { graph with arena := arena } pins)
    (grows : graph.arena.Grows arena)
    (current : ∀ node, arena.IsCurrent node → ¬ graph.arena.IsCurrent node →
      arena.operation? node = some .leaf)
    (fresh : ∀ node buffer, graph.arena.bufferOf? node .gradient = none →
      arena.bufferOf? node .gradient = some buffer →
        ∃ size, graph.store.reading? buffer = some (zeros α size)) :
    Keeps pins ∅ graph { graph with arena := arena } := by
  refine ⟨validAfter, grows, fun _ _ _ _ _ => rfl,
    fun node buffer none owned _ => fresh node buffer none owned, fun coherent => ?_, rfl⟩
  refine coherent.of_contents valid validAfter grows (fun _ _ _ _ => rfl) ?_
  intro node shape size isCurrent notBefore shaped sized
  exact reading_leaf validAfter (current node isCurrent notBefore) shaped sized

end Keeps

end Graph

end Elementwise
