import Elementwise.Graph.Meaning
import Elementwise.Script.Evaluation
import Elementwise.Proofs.Script.Placement

/-!
# What a compiled script computes

At every coordinate, running the records of a compiled script gives the value
that the node has by recursion over the graph.  The run may start in any
workspace that is large enough.

The invariant of the run is that every cache slot that a placement holds a
node in contains the value of that node.  Slots are used over and over, so
nothing is said of a slot once its node is freed.
-/

namespace Elementwise

variable {α : Type} [Arithmetic α]

/-! ## Leaves -/

/-- Whether an array has an element for a coordinate, a single element serving all. -/
def Covers (values : Array α) (coordinate : Nat) : Prop :=
  values.size = 1 ∨ coordinate < values.size

theorem broadcastGet_eq_ok
    {values : Array α}
    {coordinate : Nat}
    (covers : Covers values coordinate) :
    broadcastGet values coordinate = .ok (leafElement values coordinate) := by
  have inside : (if values.size = 1 then 0 else coordinate) < values.size := by
    rcases covers with single | inside
    · simp [single]
    · split <;> omega
  rw [broadcastGet, elementAt_eq_ok_iff, leafElement, Array.getElem?_eq_getElem inside,
    Array.getD_eq_getD_getElem?, Array.getElem?_eq_getElem inside, Option.getD_some]

theorem leafElement_of_broadcastGet
    {values : Array α}
    {coordinate : Nat}
    {value : α}
    (read : broadcastGet values coordinate = .ok value) :
    leafElement values coordinate = value := by
  rw [broadcastGet, elementAt_eq_ok_iff] at read
  rw [leafElement, Array.getD_eq_getD_getElem?, read, Option.getD_some]

namespace Arena

variable {arena : Arena} {leaves : NodeId → Array α} {coordinate : Nat}

theorem elementOf_leaf
    {node : NodeId}
    (isLeaf : arena.operation? node = some .leaf) :
    arena.elementOf leaves coordinate node = leafElement (leaves node) coordinate := by
  unfold elementOf
  rw [isLeaf]

/-- A node that is not a leaf applies its operation to the values of its operands. -/
theorem elementOf_parts
    (ordered : arena.Ordered)
    {node left : NodeId}
    {right : Option NodeId}
    {opcode : OpCode}
    {operation : Operation}
    (found : arena.operation? node = some operation)
    (parts : operation.parts? = some (opcode, left, right)) :
    arena.elementOf leaves coordinate node =
      Arithmetic.eval opcode (arena.elementOf leaves coordinate left)
        ((right.map (arena.elementOf leaves coordinate)).getD Arithmetic.zero) := by
  have earlier := ordered node
  rw [operands, found] at earlier
  cases operation with
  | leaf => cases parts
  | unary _ operand =>
    cases parts
    rw [elementOf, found]
    exact dif_pos (earlier left (by simp [Operation.operands]))
  | binary _ first second =>
    cases parts
    rw [elementOf, found]
    exact dif_pos ⟨earlier left (by simp [Operation.operands]),
      earlier second (by simp [Operation.operands])⟩

end Arena

namespace Script

variable
    {arena : Arena}
    {order before rest : List NodeId}
    {placement : Placement}
    {leaves : NodeId → Array α}
    {coordinate : Nat}

/-- The inputs of a run are the values of the leaves behind the data slots. -/
def Supplies (leaves : NodeId → Array α) (data : List NodeId) (inputs : Array (Array α)) : Prop :=
  ∀ (index : Nat) (node : NodeId), data[index]? = some node →
    inputs[index]? = some (leaves node)

/-- A workspace in which every slot in use contains the value of its node. -/
def Placement.Contains
    (arena : Arena)
    (leaves : NodeId → Array α)
    (coordinate : Nat)
    (placement : Placement)
    (cache : Array α) : Prop :=
  ∀ (index : Nat) (node : NodeId), placement.slots[index]? = some (some node) →
    cache[index]? = some (arena.elementOf leaves coordinate node)

/-- A node with a slot is read with its value. -/
theorem read_eq_ok
    {inputs : Array (Array α)}
    {scratch : Scratch α}
    {node : NodeId}
    {slot : Slot}
    (data : ∀ node ∈ placement.data, arena.operation? node = some .leaf ∧
      Covers (leaves node) coordinate)
    (supplied : Supplies leaves placement.data inputs)
    (contains : placement.Contains arena leaves coordinate scratch.cache)
    (found : placement.slot? node = some slot) :
    scratch.read inputs coordinate slot = .ok (arena.elementOf leaves coordinate node) := by
  cases slot with
  | data index =>
    have held := Placement.data_of_slot? found
    obtain ⟨isLeaf, covers⟩ := data node (List.mem_of_getElem? held)
    have input := elementAt_eq_ok_iff.2 (supplied index node held)
    rw [Scratch.read, input, Arena.elementOf_leaf isLeaf]
    exact broadcastGet_eq_ok covers
  | cache index =>
    rw [Scratch.read, elementAt_eq_ok_iff]
    exact contains index node (Placement.slots_of_slot? found)
  | output => exact absurd found Placement.slot?_ne_output

/-- A record over operands with slots writes the value of its node. -/
theorem step_eq_write
    {inputs : Array (Array α)}
    {scratch : Scratch α}
    {node left : NodeId}
    {right : Option NodeId}
    {opcode : OpCode}
    {operation : Operation}
    (result : Slot)
    {leftSlot : Slot}
    {rightSlot : Option Slot}
    (ordered : arena.Ordered)
    (data : ∀ node ∈ placement.data, arena.operation? node = some .leaf ∧
      Covers (leaves node) coordinate)
    (supplied : Supplies leaves placement.data inputs)
    (contains : placement.Contains arena leaves coordinate scratch.cache)
    (found : arena.operation? node = some operation)
    (parts : operation.parts? = some (opcode, left, right))
    (leftAt : placement.slot? left = some leftSlot)
    (rightAt : right.mapM placement.slot? = some rightSlot) :
    Scratch.step inputs coordinate scratch ⟨opcode, result, leftSlot, rightSlot⟩ =
      scratch.write result (arena.elementOf leaves coordinate node) := by
  have leftRead := read_eq_ok data supplied contains leftAt
  have rightRead : scratch.read? inputs coordinate rightSlot =
      .ok ((right.map (arena.elementOf leaves coordinate)).getD Arithmetic.zero) := by
    rcases Placement.slot?_right rightAt with ⟨rfl, rfl⟩ | ⟨other, slot, rfl, rfl, held⟩
    · rfl
    · exact read_eq_ok data supplied contains held
  rw [Scratch.step, leftRead, Arena.elementOf_parts ordered found parts]
  simp only [bind, Except.bind, rightRead]

/--
Running the records of a placement, from any workspace that is large enough,
leaves the value of every node that is held in its slot.
-/
def Placement.Computes
    (arena : Arena)
    (leaves : NodeId → Array α)
    (coordinate : Nat)
    (placement : Placement) : Prop :=
  ∀ inputs workspace, Supplies leaves placement.data inputs →
    placement.slots.length ≤ workspace.size →
    ∃ scratch,
      placement.records.toList.foldlM (Scratch.step inputs coordinate)
        ⟨workspace, Arithmetic.zero⟩ = .ok scratch ∧
      scratch.cache.size = workspace.size ∧
      placement.Contains arena leaves coordinate scratch.cache

omit [Arithmetic α] in
theorem Supplies.of_append
    {first second : List NodeId}
    {inputs : Array (Array α)}
    (supplied : Supplies leaves (first ++ second) inputs) :
    Supplies leaves first inputs := by
  intro index node held
  have inside := (List.getElem?_eq_some_iff.1 held).1
  exact supplied index node (by rw [List.getElem?_append_left inside, held])

omit [Arithmetic α] in
/-- The data of a placement are leaves, each with an element for the coordinate. -/
theorem Placed.data_covers
    (proper : ∀ node operation, arena.operation? node = some operation → operation.Proper)
    (covers : ∀ node ∈ order, arena.operation? node = some .leaf →
      Covers (leaves node) coordinate)
    (placed : Placed arena order before rest placement) :
    ∀ node ∈ placement.data, arena.operation? node = some .leaf ∧
      Covers (leaves node) coordinate := by
  intro node member
  rw [(placed.sound proper).data, List.mem_filter, Arena.isLeaf_iff] at member
  refine ⟨member.2, covers node ?_ member.2⟩
  rw [placed.split]
  exact List.mem_append_left _ member.1

theorem Placed.computes
    (ordered : arena.Ordered)
    (proper : ∀ node operation, arena.operation? node = some operation → operation.Proper)
    (covers : ∀ node ∈ order, arena.operation? node = some .leaf →
      Covers (leaves node) coordinate)
    (placed : Placed arena order before rest placement) :
    placement.Computes arena leaves coordinate := by
  induction placed with
  | start =>
    intro inputs workspace _ _
    exact ⟨⟨workspace, Arithmetic.zero⟩, rfl, rfl, fun _ _ held => by cases held⟩
  | leaf earlier _ _ step =>
    intro inputs workspace supplied enough
    obtain ⟨scratch, run, size, contains⟩ := step inputs workspace supplied.of_append enough
    exact ⟨scratch, run, size, contains⟩
  | @record before rest node left right opcode operation placement leftSlot rightSlot
      earlier _ found parts leftAt rightAt step =>
    intro inputs workspace supplied enough
    obtain ⟨sameData, sameRecords, -⟩ := placement.allocate_rest node
    have supplied : Supplies leaves placement.data inputs := by
      rw [← sameData]
      exact supplied
    have enough : (placement.allocate node).2.slots.length ≤ workspace.size := by
      simpa [Placement.advance, Placement.free, Placement.emit] using enough
    obtain ⟨scratch, run, size, contains⟩ := step inputs workspace supplied
      (Nat.le_trans (placement.slots_length_le_allocate node) enough)
    have written := step_eq_write (.cache (placement.allocate node).1) ordered
      (earlier.data_covers proper covers) supplied contains found parts leftAt rightAt
    have inside : (placement.allocate node).1 < scratch.cache.size := by
      rw [size]
      exact Nat.lt_of_lt_of_le (placement.allocate_lt node) enough
    refine ⟨⟨scratch.cache.setIfInBounds (placement.allocate node).1
      (arena.elementOf leaves coordinate node), scratch.output⟩, ?_, by simpa using size, ?_⟩
    · simp only [Placement.advance, Placement.free, Placement.emit, sameRecords,
        Array.toList_push, List.foldlM_append, run, bind, Except.bind, List.foldlM_cons, written]
      simp only [Scratch.write, setElement, inside, if_true, bind, Except.bind, List.foldlM_nil]
      rfl
    · intro index other held
      obtain ⟨held, -⟩ := (Placement.slots_free _ _ _ _).1 held
      have held : (placement.allocate node).2.slots[index]? = some (some other) := held
      rw [Placement.slots_allocate] at held
      split at held
      next same =>
        cases held
        rw [same]
        simp [inside]
      next different =>
        rw [Array.getElem?_setIfInBounds_ne (Ne.symm different)]
        exact contains index other held

/--
What the script of a node computes at a coordinate: the value of the node, which for a
leaf is passed through a copy.
-/
def outputElement
    (arena : Arena)
    (leaves : NodeId → Array α)
    (coordinate : Nat)
    (output : NodeId) : α :=
  if arena.operation? output = some .leaf then
    Arithmetic.eval .copy (arena.elementOf leaves coordinate output) Arithmetic.zero
  else
    arena.elementOf leaves coordinate output

/-- Where copying passes a value on, the script of every node computes its value. -/
theorem outputElement_eq_elementOf
    {output : NodeId}
    (copies : arena.operation? output = some .leaf →
      ∀ left right : α, Arithmetic.eval .copy left right = left) :
    outputElement arena leaves coordinate output = arena.elementOf leaves coordinate output := by
  unfold outputElement
  split
  next isLeaf => exact copies isLeaf _ _
  · rfl

/-- The script of a node runs at every coordinate, whatever the workspace holds. -/
theorem Compiled.evalAt_eq_ok
    {output : NodeId}
    {script : Script}
    (ordered : arena.Ordered)
    (proper : ∀ node operation, arena.operation? node = some operation → operation.Proper)
    (compiled : Compiled arena output script)
    (covers : ∀ node, arena.DependsOn output node → arena.operation? node = some .leaf →
      Covers (leaves node) coordinate)
    {workspace : Array α}
    (enough : script.cacheSize ≤ workspace.size) :
    ∃ after, after.size = workspace.size ∧
      evalAt script.records (script.data.map leaves).toArray coordinate workspace =
        .ok (outputElement arena leaves coordinate output, after) := by
  have supplies : ∀ data : List NodeId, Supplies leaves data (data.map leaves).toArray := by
    intro data index node held
    simp [held]
  have coversOrder : ∀ {before : List NodeId},
      (arena.postOrder [] output).reverse = before ++ [output] →
        ∀ node ∈ before ++ [output], arena.operation? node = some .leaf →
          Covers (leaves node) coordinate := by
    intro before order node member isLeaf
    rw [← order, List.mem_reverse, Arena.mem_postOrder_nil_iff ordered] at member
    exact covers node member isLeaf
  cases compiled with
  | @leaf before placement order placed isLeaf =>
    obtain ⟨scratch, run, size, -⟩ := placed.computes ordered proper (coversOrder order)
      ((placement.data ++ [output]).map leaves).toArray workspace (supplies _).of_append enough
    have input : elementAt ((placement.data ++ [output]).map leaves).toArray
        placement.data.length = .ok (leaves output) := by
      rw [elementAt_eq_ok_iff]
      simp
    have element := broadcastGet_eq_ok (covers output .refl isLeaf)
    have written : Scratch.step ((placement.data ++ [output]).map leaves).toArray coordinate
        scratch ⟨.copy, .output, .data placement.data.length, none⟩ =
          .ok ⟨scratch.cache, outputElement arena leaves coordinate output⟩ := by
      rw [outputElement, if_pos isLeaf, Arena.elementOf_leaf isLeaf]
      simp only [Scratch.step, Scratch.read, Scratch.read?, input, element, bind, Except.bind]
      rfl
    refine ⟨scratch.cache, size, ?_⟩
    simp only [evalAt, ofPlacement, placeLeaf, if_true, Placement.emit, Array.toList_push,
      List.foldlM_append, run, bind, Except.bind, List.foldlM_cons, written]
    rfl
  | @record before placement left right opcode operation leftSlot rightSlot
      order placed found parts leftAt rightAt =>
    obtain ⟨scratch, run, size, contains⟩ := placed.computes ordered proper (coversOrder order)
      (placement.data.map leaves).toArray workspace (supplies _)
      (by simpa [ofPlacement, Placement.free, Placement.emit] using enough)
    have written := step_eq_write .output ordered
      (placed.data_covers proper (coversOrder order)) (supplies _) contains
      found parts leftAt rightAt
    have computed : arena.operation? output ≠ some .leaf := by
      rw [found]
      rintro ⟨⟩
      cases parts
    refine ⟨scratch.cache, size, ?_⟩
    rw [outputElement, if_neg computed]
    simp only [evalAt, ofPlacement, Placement.free, Placement.emit, Array.toList_push,
      List.foldlM_append, run, bind, Except.bind, List.foldlM_cons, written]
    rfl

end Script

end Elementwise
