import Elementwise.Proofs.Script.Allocation
import Elementwise.Proofs.Script.Validity
import Mathlib.Data.List.Induction

/-!
# The placements of a compilation

`Placed` lists the states that a compilation goes through: between its start
and its last node, every leaf takes a data slot and every other node becomes a
record.  Compilation never fails on the way, because the operands of a node
keep their slots until the last node that reads them.  From this the shape of
the finished script follows: which leaves its data slots stand for, which
nodes its records compute, and that it is valid.

What the records compute is the subject of another module.
-/

namespace Elementwise

namespace Operation

/-- The code and the operands of an operation that is not a leaf. -/
def parts? : Operation → Option (OpCode × NodeId × Option NodeId)
  | leaf => none
  | unary opcode operand => some (opcode, operand, none)
  | binary opcode left right => some (opcode, left, some right)

/-- The codes fit the number of operands, and none of them is the copy. -/
def Proper (operation : Operation) : Prop :=
  ∀ opcode left right, operation.parts? = some (opcode, left, right) →
    opcode.isBinary = right.isSome ∧ opcode ≠ .copy

theorem operands_of_parts?
    {operation : Operation}
    {opcode : OpCode}
    {left : NodeId}
    {right : Option NodeId}
    (parts : operation.parts? = some (opcode, left, right)) :
    operation.operands = left :: right.toList := by
  cases operation with
  | leaf => cases parts
  | unary _ operand => cases parts; rfl
  | binary _ first second => cases parts; rfl

theorem parts?_of_ne_leaf
    {operation : Operation}
    (computed : operation ≠ leaf) :
    ∃ opcode left right, operation.parts? = some (opcode, left, right) := by
  cases operation with
  | leaf => exact absurd rfl computed
  | unary opcode operand => exact ⟨opcode, operand, none, rfl⟩
  | binary opcode left right => exact ⟨opcode, left, some right, rfl⟩

end Operation

namespace Arena

/-- Whether a node is a leaf. -/
def isLeaf (arena : Arena) (node : NodeId) : Bool :=
  arena.operation? node == some .leaf

theorem isLeaf_iff
    {arena : Arena}
    {node : NodeId} :
    arena.isLeaf node ↔ arena.operation? node = some .leaf := by
  simp [isLeaf]

theorem operands_of_parts?
    {arena : Arena}
    {node left : NodeId}
    {right : Option NodeId}
    {opcode : OpCode}
    {operation : Operation}
    (found : arena.operation? node = some operation)
    (parts : operation.parts? = some (opcode, left, right)) :
    arena.operands node = left :: right.toList := by
  rw [operands, found]
  exact Operation.operands_of_parts? parts

/-- A node with an operation code is not a leaf. -/
theorem isLeaf_of_parts?
    {arena : Arena}
    {node left : NodeId}
    {right : Option NodeId}
    {opcode : OpCode}
    {operation : Operation}
    (found : arena.operation? node = some operation)
    (parts : operation.parts? = some (opcode, left, right)) :
    arena.isLeaf node = false := by
  rw [← Bool.not_eq_true, isLeaf_iff, found]
  rintro ⟨⟩
  cases parts

end Arena

namespace Script

namespace Placement

/-! ## One step of a placement -/

theorem slots_of_slot?
    {placement : Placement}
    {node : NodeId}
    {index : Nat}
    (found : placement.slot? node = some (.cache index)) :
    placement.slots[index]? = some (some node) := by
  unfold slot? at found
  split at found
  next position first =>
    obtain ⟨inside, holds, -⟩ := List.findIdx?_eq_some_iff_getElem.1 first
    cases found
    rw [List.getElem?_eq_getElem inside]
    simpa using holds
  next => simp at found

theorem data_of_slot?
    {placement : Placement}
    {node : NodeId}
    {index : Nat}
    (found : placement.slot? node = some (.data index)) :
    placement.data[index]? = some node := by
  unfold slot? at found
  split at found
  next => simp at found
  next =>
    obtain ⟨position, first, equal⟩ := Option.map_eq_some_iff.1 found
    obtain ⟨inside, holds, -⟩ := List.findIdx?_eq_some_iff_getElem.1 first
    cases equal
    rw [List.getElem?_eq_getElem inside]
    simpa using holds

theorem slot?_ne_output
    {placement : Placement}
    {node : NodeId} :
    placement.slot? node ≠ some .output := by
  unfold slot?
  split <;> simp

/-- A right operand that is looked up is either absent or has a slot. -/
theorem slot?_right
    {placement : Placement}
    {right : Option NodeId}
    {slot : Option Slot}
    (found : right.mapM placement.slot? = some slot) :
    (right = none ∧ slot = none) ∨
      ∃ other otherSlot, right = some other ∧ slot = some otherSlot ∧
        placement.slot? other = some otherSlot := by
  cases right with
  | none => exact .inl ⟨rfl, by simpa using found.symm⟩
  | some other =>
    cases held : placement.slot? other with
    | none => simp [held] at found
    | some otherSlot =>
      exact .inr ⟨other, otherSlot, rfl, by simpa [held] using found.symm, held⟩

/-- A node has a slot if a cache slot holds it or it is among the data. -/
theorem slot?_isSome
    {placement : Placement}
    {node : NodeId}
    (present : some node ∈ placement.slots ∨ node ∈ placement.data) :
    (placement.slot? node).isSome := by
  unfold slot?
  split
  · rfl
  next nowhere =>
    rw [List.findIdx?_eq_none_iff] at nowhere
    rcases present with held | among
    · simpa using nowhere _ held
    · rw [Option.isSome_map, List.findIdx?_isSome, List.any_eq_true]
      exact ⟨node, among, by simp⟩

theorem slots_length_le_allocate
    (placement : Placement)
    (node : NodeId) :
    placement.slots.length ≤ (placement.allocate node).2.slots.length := by
  unfold allocate
  split <;> simp

theorem allocate_lt
    (placement : Placement)
    (node : NodeId) :
    (placement.allocate node).1 < (placement.allocate node).2.slots.length := by
  have held := slots_allocate placement node (placement.allocate node).1
  rw [if_pos rfl] at held
  exact (List.getElem?_eq_some_iff.1 held).1

/-- The rest of a placement is not touched by an allocation. -/
theorem allocate_rest
    (placement : Placement)
    (node : NodeId) :
    (placement.allocate node).2.data = placement.data ∧
      (placement.allocate node).2.records = placement.records ∧
      (placement.allocate node).2.nodes = placement.nodes := by
  unfold allocate
  split <;> exact ⟨rfl, rfl, rfl⟩

/-- The placement after a node that is not the last has become a record. -/
def advance
    (placement : Placement)
    (node : NodeId)
    (opcode : OpCode)
    (left : Slot)
    (right : Option Slot)
    (finished : List NodeId) : Placement :=
  ((placement.allocate node).2.emit node
    ⟨opcode, .cache (placement.allocate node).1, left, right⟩).free finished

section

variable
    (placement : Placement)
    (node : NodeId)
    (opcode : OpCode)
    (left : Slot)
    (right : Option Slot)
    (finished : List NodeId)

theorem records_advance :
    (placement.advance node opcode left right finished).records =
      placement.records.push ⟨opcode, .cache (placement.allocate node).1, left, right⟩ := by
  simp [advance, free, emit, placement.allocate_rest node]

theorem nodes_advance :
    (placement.advance node opcode left right finished).nodes = placement.nodes.push node := by
  simp [advance, free, emit, placement.allocate_rest node]

theorem data_advance :
    (placement.advance node opcode left right finished).data = placement.data :=
  (placement.allocate_rest node).1

theorem length_slots_advance :
    (placement.advance node opcode left right finished).slots.length =
      (placement.allocate node).2.slots.length := by
  simp [advance, free, emit]

/-- A slot in use has the new node or one that was there before, and that is not freed. -/
theorem slots_advance (index : Nat) (other : NodeId) :
    (placement.advance node opcode left right finished).slots[index]? = some (some other) ↔
      other ∉ finished ∧
        if index = (placement.allocate node).1 then other = node
        else placement.slots[index]? = some (some other) := by
  rw [advance, slots_free, and_comm]
  refine and_congr_right fun _ => ?_
  rw [emit, slots_allocate]
  split
  · simp [eq_comm]
  · rfl

end

end Placement

/--
The placements of a compilation, each with the nodes that were taken and those
that are left; the last node is never taken here.
-/
inductive Placed
    (arena : Arena)
    (order : List NodeId) :
    (before rest : List NodeId) → Placement → Prop where
  | start : Placed arena order [] order .start
  | leaf
      {before rest : List NodeId}
      {node : NodeId}
      {placement : Placement}
      (earlier : Placed arena order before (node :: rest) placement)
      (more : rest ≠ [])
      (isLeaf : arena.operation? node = some .leaf) :
      Placed arena order (before ++ [node]) rest
        (placeLeaf arena order placement node false)
  | record
      {before rest : List NodeId}
      {node left : NodeId}
      {right : Option NodeId}
      {opcode : OpCode}
      {operation : Operation}
      {placement : Placement}
      {leftSlot : Slot}
      {rightSlot : Option Slot}
      (earlier : Placed arena order before (node :: rest) placement)
      (more : rest ≠ [])
      (found : arena.operation? node = some operation)
      (parts : operation.parts? = some (opcode, left, right))
      (leftAt : placement.slot? left = some leftSlot)
      (rightAt : right.mapM placement.slot? = some rightSlot) :
      Placed arena order (before ++ [node]) rest
        (placement.advance node opcode leftSlot rightSlot (finished arena node rest))

/-- What holds of every placement of a compilation. -/
structure Placement.Sound
    (arena : Arena)
    (before rest : List NodeId)
    (placement : Placement) : Prop where
  data : placement.data = before.filter arena.isLeaf
  nodes : placement.nodes.toList = before.filter (!arena.isLeaf ·)
  length : placement.nodes.size = placement.records.size
  held : ∀ {index : Nat} {node : NodeId}, placement.slots[index]? = some (some node) →
    node ∈ before ∧ arena.isLeaf node = false
  /-- A result that is still to be read sits in a slot. -/
  live : ∀ node ∈ before, arena.isLeaf node = false → node ∈ rest.flatMap arena.operands →
    some node ∈ placement.slots
  written : ∀ index < placement.slots.length,
    index ∈ writtenAfter [] placement.records.toList
  fits : ∀ first record second, placement.records.toList = first ++ record :: second →
    Fits placement.data.length placement.slots.length (writtenAfter [] first) false record

section

variable {arena : Arena} {order before rest : List NodeId} {placement : Placement}

/-- Where a node that has a slot is read is populated. -/
theorem Placement.Sound.isPopulated
    (sound : Placement.Sound arena before rest placement)
    {node : NodeId}
    {slot : Slot}
    (found : placement.slot? node = some slot) :
    isPopulated placement.data.length (writtenAfter [] placement.records.toList) slot := by
  cases slot with
  | data index =>
    have held := Placement.data_of_slot? found
    simpa [Script.isPopulated] using (List.getElem?_eq_some_iff.1 held).1
  | cache index =>
    have held := Placement.slots_of_slot? found
    have inside := (List.getElem?_eq_some_iff.1 held).1
    simpa [Script.isPopulated] using sound.written index inside
  | output => exact absurd found Placement.slot?_ne_output

/-- A node that is taken and still to be read has a slot. -/
theorem Placement.Sound.slot?_isSome
    (sound : Placement.Sound arena before rest placement)
    {node : NodeId}
    (taken : node ∈ before)
    (wanted : node ∈ rest.flatMap arena.operands) :
    (placement.slot? node).isSome := by
  cases leaf : arena.isLeaf node with
  | true =>
    refine Placement.slot?_isSome (.inr ?_)
    rw [sound.data]
    exact List.mem_filter.2 ⟨taken, leaf⟩
  | false => exact Placement.slot?_isSome (.inl (sound.live node taken leaf wanted))

/-- A record over operands that have slots fits behind the records so far. -/
theorem Placement.Sound.fits_operands
    {left : NodeId}
    {right : Option NodeId}
    {opcode : OpCode}
    {operation : Operation}
    {result leftSlot : Slot}
    {rightSlot : Option Slot}
    {cacheSize : Nat}
    {last : Bool}
    (sound : Placement.Sound arena before rest placement)
    (proper : operation.Proper)
    (parts : operation.parts? = some (opcode, left, right))
    (leftAt : placement.slot? left = some leftSlot)
    (rightAt : right.mapM placement.slot? = some rightSlot)
    (output : last = true → result = .output)
    (cache : last = false → ∃ index < cacheSize, result = .cache index) :
    Fits placement.data.length cacheSize (writtenAfter [] placement.records.toList) last
      ⟨opcode, result, leftSlot, rightSlot⟩ := by
  refine ⟨?_, ?_, output, cache⟩
  · rw [(proper opcode left right parts).1]
    rcases Placement.slot?_right rightAt with ⟨rfl, rfl⟩ | ⟨other, slot, rfl, rfl, -⟩ <;> rfl
  · intro slot member
    rcases List.mem_cons.1 member with rfl | member
    · exact sound.isPopulated leftAt
    · rcases Placement.slot?_right rightAt with
        ⟨rfl, rfl⟩ | ⟨other, otherSlot, rfl, rfl, rightFound⟩
      · cases member
      · obtain rfl : slot = otherSlot := by simpa using member
        exact sound.isPopulated rightFound

theorem Placement.sound_start : Placement.Sound arena [] order .start where
  data := rfl
  nodes := rfl
  length := rfl
  held held := by simp [Placement.start] at held
  live node taken := by cases taken
  written index inside := by cases inside
  fits first record second split := by simp [Placement.start] at split

theorem Placement.Sound.leaf
    {node : NodeId}
    (sound : Placement.Sound arena before (node :: rest) placement)
    (isLeaf : arena.operation? node = some .leaf) :
    Placement.Sound arena (before ++ [node]) rest (placeLeaf arena order placement node false) where
  data := by simp [placeLeaf, sound.data, Arena.isLeaf_iff.2 isLeaf]
  nodes := by simp [placeLeaf, sound.nodes, Arena.isLeaf_iff.2 isLeaf]
  length := sound.length
  held held := by
    obtain ⟨taken, computed⟩ := sound.held held
    exact ⟨List.mem_append_left _ taken, computed⟩
  live other taken computed wanted := by
    rcases List.mem_append.1 taken with taken | same
    · exact sound.live other taken computed (by simp_all)
    · rw [List.mem_singleton.1 same, Arena.isLeaf_iff.2 isLeaf] at computed
      cases computed
  written := sound.written
  fits first record second split :=
    (sound.fits first record second split).mono (by simp [placeLeaf]) (Nat.le_refl _)

theorem Placement.Sound.record
    {node left : NodeId}
    {right : Option NodeId}
    {opcode : OpCode}
    {operation : Operation}
    {leftSlot : Slot}
    {rightSlot : Option Slot}
    (sound : Placement.Sound arena before (node :: rest) placement)
    (proper : operation.Proper)
    (found : arena.operation? node = some operation)
    (parts : operation.parts? = some (opcode, left, right))
    (leftAt : placement.slot? left = some leftSlot)
    (rightAt : right.mapM placement.slot? = some rightSlot) :
    Placement.Sound arena (before ++ [node]) rest
      (placement.advance node opcode leftSlot rightSlot (finished arena node rest)) := by
  have computed := Arena.isLeaf_of_parts? found parts
  have grown := placement.slots_length_le_allocate node
  have records :
      (placement.advance node opcode leftSlot rightSlot
        (finished arena node rest)).records.toList =
      placement.records.toList ++
        [⟨opcode, .cache (placement.allocate node).1, leftSlot, rightSlot⟩] := by
    rw [Placement.records_advance, Array.toList_push]
  have slots := placement.length_slots_advance node opcode leftSlot rightSlot
    (finished arena node rest)
  have data := placement.data_advance node opcode leftSlot rightSlot (finished arena node rest)
  refine
    { data := ?data
      nodes := ?nodes
      length := ?length
      held := ?held
      live := ?live
      written := ?written
      fits := ?fits }
  case data => simp [data, sound.data, computed]
  case nodes => simp [Placement.nodes_advance, sound.nodes, computed]
  case length => simp [Placement.nodes_advance, Placement.records_advance, sound.length]
  case held =>
    intro index other held
    obtain ⟨-, held⟩ := (Placement.slots_advance ..).1 held
    split at held
    · rw [held]
      exact ⟨by simp, computed⟩
    · obtain ⟨taken, notLeaf⟩ := sound.held held
      exact ⟨List.mem_append_left _ taken, notLeaf⟩
  case live =>
    intro other taken notLeaf wanted
    have kept : other ∉ finished arena node rest := by
      intro member
      simpa [wanted] using (List.mem_filter.1 member).2
    by_cases same : other = node
    · refine List.mem_iff_getElem?.2
        ⟨(placement.allocate node).1, (Placement.slots_advance ..).2 ⟨kept, ?_⟩⟩
      rw [if_pos rfl, same]
    · have taken : other ∈ before := by simpa [same] using taken
      have held := sound.live other taken notLeaf
        (List.mem_flatMap.2 (by
          obtain ⟨user, later, reads⟩ := List.mem_flatMap.1 wanted
          exact ⟨user, List.mem_cons_of_mem _ later, reads⟩))
      obtain ⟨index, held⟩ := List.mem_iff_getElem?.1 held
      refine List.mem_iff_getElem?.2 ⟨index, (Placement.slots_advance ..).2 ⟨kept, ?_⟩⟩
      rw [if_neg, held]
      rintro rfl
      exact placement.free_allocate node other held
  case written =>
    intro index inside
    rw [slots] at inside
    rw [records, writtenAfter_append]
    have held := placement.slots_allocate node index
    rw [List.getElem?_eq_getElem inside] at held
    split at held
    next same => simp [writtenBy, same]
    next =>
      have old := (List.getElem?_eq_some_iff.1 held.symm).1
      simpa [writtenBy] using .inr (sound.written index old)
  case fits =>
    intro first record second split
    rw [records] at split
    rw [slots, data]
    -- The new record is either the one in question or the last of those behind it.
    rcases List.eq_nil_or_concat second with rfl | ⟨middle, final, rfl⟩
    · obtain ⟨rfl, same⟩ := List.append_inj' split rfl
      obtain rfl := List.singleton_inj.1 same
      exact sound.fits_operands proper parts leftAt rightAt (by simp)
        fun _ => ⟨_, placement.allocate_lt node, rfl⟩
    · rw [List.concat_eq_append, ← List.cons_append, ← List.append_assoc] at split
      obtain ⟨inner, -⟩ := List.append_inj' split rfl
      have fits := (sound.fits first record middle inner).mono (Nat.le_refl _) grown
      simpa using fits

/-! ## The run of a compilation -/

theorem Placed.split
    (placed : Placed arena order before rest placement) :
    order = before ++ rest := by
  induction placed with
  | start => rfl
  | leaf _ _ _ step => simpa using step
  | record _ _ _ _ _ _ step => simpa using step

theorem Placed.sound
    (proper : ∀ node operation, arena.operation? node = some operation → operation.Proper)
    (placed : Placed arena order before rest placement) :
    Placement.Sound arena before rest placement := by
  induction placed with
  | start => exact Placement.sound_start
  | leaf _ _ isLeaf step => exact step.leaf isLeaf
  | record _ _ found parts leftAt rightAt step =>
    exact step.record (proper _ _ found) found parts leftAt rightAt

/-- The operands of the next node have slots. -/
theorem Placed.slot?_isSome
    {node : NodeId}
    (proper : ∀ node operation, arena.operation? node = some operation → operation.Proper)
    (arranged : arena.Arranged order.reverse)
    (placed : Placed arena order before (node :: rest) placement) :
    ∀ operand ∈ arena.operands node, (placement.slot? operand).isSome := by
  intro operand member
  rw [placed.split] at arranged
  refine (placed.sound proper).slot?_isSome (arranged.of_split.2 operand member) ?_
  exact List.mem_flatMap.2 ⟨node, List.mem_cons_self, member⟩

/-- Both operands of the next node are found where they are looked for. -/
theorem Placed.operands
    {node left : NodeId}
    {right : Option NodeId}
    {opcode : OpCode}
    {operation : Operation}
    (proper : ∀ node operation, arena.operation? node = some operation → operation.Proper)
    (arranged : arena.Arranged order.reverse)
    (placed : Placed arena order before (node :: rest) placement)
    (found : arena.operation? node = some operation)
    (parts : operation.parts? = some (opcode, left, right)) :
    ∃ leftSlot rightSlot, placement.slot? left = some leftSlot ∧
      right.mapM placement.slot? = some rightSlot := by
  have slots := placed.slot?_isSome proper arranged
  rw [Arena.operands_of_parts? found parts] at slots
  obtain ⟨leftSlot, leftAt⟩ := Option.isSome_iff_exists.1 (slots left List.mem_cons_self)
  cases right with
  | none => exact ⟨leftSlot, none, leftAt, rfl⟩
  | some other =>
    obtain ⟨rightSlot, rightAt⟩ := Option.isSome_iff_exists.1
      (slots other (by simp))
    exact ⟨leftSlot, some rightSlot, leftAt, by simp [rightAt]⟩

/-- What becomes of a node whose operands are found. -/
theorem placeRecord_eq
    {step : Step}
    {left : NodeId}
    {right : Option NodeId}
    {leftSlot : Slot}
    {rightSlot : Option Slot}
    (position : Nat)
    (last : Bool)
    (opcode : OpCode)
    (leftAt : placement.slot? left = some leftSlot)
    (rightAt : right.mapM placement.slot? = some rightSlot) :
    placeRecord placement step position last opcode left right =
      .ok (if last then
          (placement.emit step.node ⟨opcode, .output, leftSlot, rightSlot⟩).free step.finished
        else
          placement.advance step.node opcode leftSlot rightSlot step.finished) := by
  have leftFound : placement.locate step.node position left = .ok leftSlot := by
    simp [Placement.locate, leftAt]
  have rightFound : right.mapM (placement.locate step.node position) = .ok rightSlot := by
    rcases Placement.slot?_right rightAt with ⟨rfl, rfl⟩ | ⟨other, slot, rfl, rfl, held⟩
    · rfl
    · simp [Placement.locate, held]
  unfold placeRecord
  rw [leftFound, rightFound]
  cases last <;> rfl

theorem placeFrom_parts
    {step : Step}
    {steps : List Step}
    {left : NodeId}
    {right : Option NodeId}
    {opcode : OpCode}
    {operation : Operation}
    (position : Nat)
    (found : arena.operation? step.node = some operation)
    (parts : operation.parts? = some (opcode, left, right)) :
    placeFrom arena order position (step :: steps) placement =
      (placeRecord placement step position steps.isEmpty opcode left right).bind
        (placeFrom arena order (position + 1) steps) := by
  cases operation with
  | leaf => cases parts
  | unary _ _ => cases parts; simp only [placeFrom, found]; rfl
  | binary _ _ _ => cases parts; simp only [placeFrom, found]; rfl

theorem placeFrom_leaf
    {step : Step}
    {steps : List Step}
    (position : Nat)
    (isLeaf : arena.operation? step.node = some .leaf) :
    placeFrom arena order position (step :: steps) placement =
      placeFrom arena order (position + 1) steps
        (placeLeaf arena order placement step.node steps.isEmpty) := by
  simp only [placeFrom, isLeaf]

theorem isEmpty_steps : (steps arena rest).isEmpty = rest.isEmpty := by
  cases rest <;> rfl

/-- Every node but the last is taken without a failure. -/
theorem exists_placed
    (proper : ∀ node operation, arena.operation? node = some operation → operation.Proper)
    (existing : ∀ node ∈ order, node.index < arena.size)
    (arranged : arena.Arranged order.reverse)
    (split : order = before ++ rest)
    (more : rest ≠ []) :
    ∃ placement, Placed arena order before rest placement ∧
      placeFrom arena order 0 (steps arena order) .start =
        placeFrom arena order before.length (steps arena rest) placement := by
  induction before using List.reverseRecOn generalizing rest with
  | nil =>
    obtain rfl : order = rest := split
    exact ⟨.start, .start, rfl⟩
  | append_singleton before node earlier =>
    have splitHere : order = before ++ node :: rest := by simpa using split
    obtain ⟨placement, placed, run⟩ := earlier splitHere (by simp)
    have member : node ∈ order := by simp [split]
    have notLast : (steps arena rest).isEmpty = false := by
      rw [isEmpty_steps]
      simpa using more
    rw [steps] at run
    rw [List.length_append, List.length_singleton]
    obtain ⟨value, found⟩ := Option.isSome_iff_exists.1
      ((Arena.node?_isSome_iff node).2 (existing node member))
    have operation : arena.operation? node = some value.operation := by
      simp [Arena.operation?, found]
    by_cases leaf : value.operation = .leaf
    · rw [leaf] at operation
      refine ⟨_, .leaf placed more operation, ?_⟩
      rw [run, placeFrom_leaf _ operation, notLast]
    · obtain ⟨opcode, left, right, parts⟩ := Operation.parts?_of_ne_leaf leaf
      obtain ⟨leftSlot, rightSlot, leftAt, rightAt⟩ :=
        placed.operands proper arranged operation parts
      refine ⟨_, .record placed more operation parts leftAt rightAt, ?_⟩
      rw [run, placeFrom_parts _ operation parts, placeRecord_eq _ _ _ leftAt rightAt, notLast]
      rfl

/-- The scripts that a node may be compiled to, by what its last step is. -/
inductive Compiled (arena : Arena) (output : NodeId) : Script → Prop where
  | leaf
      {before : List NodeId}
      {placement : Placement}
      (order : (arena.postOrder [] output).reverse = before ++ [output])
      (placed : Placed arena (before ++ [output]) before [output] placement)
      (isLeaf : arena.operation? output = some .leaf) :
      Compiled arena output
        (ofPlacement output (placeLeaf arena (before ++ [output]) placement output true))
  | record
      {before : List NodeId}
      {placement : Placement}
      {left : NodeId}
      {right : Option NodeId}
      {opcode : OpCode}
      {operation : Operation}
      {leftSlot : Slot}
      {rightSlot : Option Slot}
      (order : (arena.postOrder [] output).reverse = before ++ [output])
      (placed : Placed arena (before ++ [output]) before [output] placement)
      (found : arena.operation? output = some operation)
      (parts : operation.parts? = some (opcode, left, right))
      (leftAt : placement.slot? left = some leftSlot)
      (rightAt : right.mapM placement.slot? = some rightSlot) :
      Compiled arena output
        (ofPlacement output
          ((placement.emit output ⟨opcode, .output, leftSlot, rightSlot⟩).free
            (finished arena output [])))

/-- Every node of an arena is compiled, and never to anything else. -/
theorem compile_eq_ok
    (ordered : arena.Ordered)
    (proper : ∀ node operation, arena.operation? node = some operation → operation.Proper)
    {output : NodeId}
    (inside : output.index < arena.size) :
    ∃ script, compile arena output = .ok script ∧ Compiled arena output script := by
  obtain ⟨arranged, -, -⟩ := arena.arranged_postOrder ordered output .nil
  have shape : ∃ before, (arena.postOrder [] output).reverse = before ++ [output] :=
    ⟨_, by rw [Arena.postOrder_of_not_mem ordered List.not_mem_nil, List.reverse_cons]⟩
  obtain ⟨before, order⟩ := shape
  have existing : ∀ node ∈ before ++ [output], node.index < arena.size := by
    intro node member
    rw [← order, List.mem_reverse, Arena.mem_postOrder_nil_iff ordered] at member
    exact Nat.lt_of_le_of_lt (member.index_le ordered) inside
  have arrangedOrder : arena.Arranged (before ++ [output]).reverse := by
    rw [← order, List.reverse_reverse]
    exact arranged
  obtain ⟨placement, placed, run⟩ :=
    exists_placed proper existing arrangedOrder rfl (List.cons_ne_nil output [])
  rw [steps] at run
  have start : compile arena output =
      (placeFrom arena (before ++ [output]) 0 (steps arena (before ++ [output])) .start).map
        (ofPlacement output) := by
    rw [compile_eq ordered inside, order]
  obtain ⟨value, found⟩ := Option.isSome_iff_exists.1 ((Arena.node?_isSome_iff output).2 inside)
  have operation : arena.operation? output = some value.operation := by
    simp [Arena.operation?, found]
  by_cases leaf : value.operation = .leaf
  · rw [leaf] at operation
    refine ⟨_, ?_, .leaf order placed operation⟩
    rw [start, run, placeFrom_leaf _ operation]
    rfl
  · obtain ⟨opcode, left, right, parts⟩ := Operation.parts?_of_ne_leaf leaf
    obtain ⟨leftSlot, rightSlot, leftAt, rightAt⟩ :=
      placed.operands proper arrangedOrder operation parts
    refine ⟨_, ?_, .record order placed operation parts leftAt rightAt⟩
    rw [start, run, placeFrom_parts _ operation parts, placeRecord_eq _ _ _ leftAt rightAt]
    rfl

/-! ## The finished script -/

variable {output : NodeId} {script : Script}

/-- The data slots stand for the leaves in the order of computation. -/
theorem Compiled.data
    (proper : ∀ node operation, arena.operation? node = some operation → operation.Proper)
    (compiled : Compiled arena output script) :
    script.data = (arena.postOrder [] output).reverse.filter arena.isLeaf := by
  cases compiled with
  | leaf order placed isLeaf =>
    simp [ofPlacement, placeLeaf, Placement.emit, order, (placed.sound proper).data,
      Arena.isLeaf_iff.2 isLeaf]
  | @record _ _ _ _ _ operation _ _ order placed found parts _ _ =>
    have computed := Arena.isLeaf_of_parts? found parts
    simp [ofPlacement, Placement.emit, Placement.free, order, (placed.sound proper).data,
      computed]

/-- The records compute the other nodes in the order of computation. -/
theorem Compiled.nodes
    (proper : ∀ node operation, arena.operation? node = some operation → operation.Proper)
    (compiled : Compiled arena output script)
    (computed : arena.isLeaf output = false) :
    script.nodes = (arena.postOrder [] output).reverse.filter (!arena.isLeaf ·) := by
  cases compiled with
  | leaf order placed isLeaf =>
    rw [Arena.isLeaf_iff.2 isLeaf] at computed
    cases computed
  | record order placed _ _ _ _ =>
    simp [ofPlacement, Placement.emit, Placement.free, order, (placed.sound proper).nodes,
      computed]

/-- A leaf that is compiled itself has a single record. -/
theorem Compiled.nodes_of_leaf
    (proper : ∀ node operation, arena.operation? node = some operation → operation.Proper)
    (compiled : Compiled arena output script)
    (isLeaf : arena.isLeaf output) :
    script.nodes = [output] := by
  have operation := Arena.isLeaf_iff.1 isLeaf
  cases compiled with
  | @leaf before placement order placed _ =>
    rw [Arena.postOrder_of_leaf operation] at order
    obtain rfl : before = [] := by simpa using order
    have none := (placed.sound proper).nodes
    simp only [List.filter_nil] at none
    simp [ofPlacement, placeLeaf, Placement.emit, none]
  | record order placed found parts _ _ =>
    rw [operation] at found
    cases found
    cases parts

theorem Compiled.nodup_data
    (ordered : arena.Ordered)
    (proper : ∀ node operation, arena.operation? node = some operation → operation.Proper)
    (compiled : Compiled arena output script) :
    script.data.Nodup := by
  rw [compiled.data proper]
  exact (arena.nodup_postOrder ordered output).filter _

theorem Compiled.nodup_nodes
    (ordered : arena.Ordered)
    (proper : ∀ node operation, arena.operation? node = some operation → operation.Proper)
    (compiled : Compiled arena output script) :
    script.nodes.Nodup := by
  cases isLeaf : arena.isLeaf output with
  | true =>
    rw [compiled.nodes_of_leaf proper isLeaf]
    exact List.nodup_singleton output
  | false =>
    rw [compiled.nodes proper isLeaf]
    exact (arena.nodup_postOrder ordered output).filter _

theorem validate_ofPlacement
    {record : Record}
    (sound : Placement.Sound arena before rest placement)
    {finished : Placement}
    (records : finished.records = placement.records.push record)
    (nodes : finished.nodes.size = finished.records.size)
    (data : placement.data.length ≤ finished.data.length)
    (slots : finished.slots.length = placement.slots.length)
    (fits : Fits finished.data.length placement.slots.length
      (writtenAfter [] placement.records.toList) true record) :
    (ofPlacement output finished).validate = .ok () := by
  rw [validate_eq_ok_iff]
  refine ⟨by simp [ofPlacement, records], by simpa [ofPlacement] using nodes, ?_⟩
  intro first other second split
  have split : placement.records.toList ++ [record] = first ++ other :: second := by
    simpa [ofPlacement, records] using split
  simp only [ofPlacement, slots]
  rcases List.eq_nil_or_concat second with rfl | ⟨middle, final, rfl⟩
  · obtain ⟨rfl, same⟩ := List.append_inj' split rfl
    obtain rfl := List.singleton_inj.1 same
    exact fits
  · rw [List.concat_eq_append, ← List.cons_append, ← List.append_assoc] at split
    obtain ⟨inner, -⟩ := List.append_inj' split rfl
    have notLast : (middle.concat final).isEmpty = false := by simp
    rw [notLast]
    exact (sound.fits first other middle inner).mono data (Nat.le_refl _)

/-- What a compilation yields passes the check. -/
theorem Compiled.validate
    (proper : ∀ node operation, arena.operation? node = some operation → operation.Proper)
    (compiled : Compiled arena output script) :
    script.validate = .ok () := by
  cases compiled with
  | leaf order placed isLeaf =>
    have sound := placed.sound proper
    refine validate_ofPlacement sound rfl ?_ ?_ rfl ?_
    · simp [placeLeaf, Placement.emit, sound.length]
    · simp [placeLeaf, Placement.emit]
    · refine ⟨rfl, ?_, fun _ => rfl, by simp⟩
      intro slot member
      obtain rfl : slot = .data _ := by simpa [Record.operands] using member
      simp [placeLeaf, Placement.emit, isPopulated]
  | record order placed found parts leftAt rightAt =>
    have sound := placed.sound proper
    refine validate_ofPlacement sound rfl ?_ (Nat.le_refl _) ?_ ?_
    · simp [Placement.free, Placement.emit, sound.length]
    · simp [Placement.free, Placement.emit]
    · exact sound.fits_operands (proper _ _ found) parts leftAt rightAt (fun _ => rfl) (by simp)

/-! ## Growth of the arena -/

theorem placeFrom_congr
    {larger : Arena}
    (count : ∀ node, readCount larger order node = readCount arena order node)
    {steps : List Step}
    (same : ∀ step ∈ steps, larger.operation? step.node = arena.operation? step.node)
    (position : Nat)
    (placement : Placement) :
    placeFrom larger order position steps placement =
      placeFrom arena order position steps placement := by
  have leaves : placeLeaf larger order = placeLeaf arena order := by
    funext placement node last
    simp only [placeLeaf, count]
  induction steps generalizing position placement with
  | nil => rfl
  | cons step steps rest =>
    have rest := rest fun later member => same later (List.mem_cons_of_mem _ member)
    rw [placeFrom, placeFrom, same step List.mem_cons_self, leaves]
    cases arena.operation? step.node with
    | none => rfl
    | some operation => cases operation <;> simp only [rest]

theorem steps_congr
    {larger : Arena}
    (same : ∀ node ∈ order, larger.operands node = arena.operands node) :
    steps larger order = steps arena order := by
  induction order with
  | nil => rfl
  | cons node order rest =>
    have others : order.flatMap larger.operands = order.flatMap arena.operands :=
      List.flatMap_congr fun later member => same later (List.mem_cons_of_mem _ member)
    rw [steps, steps, finished, finished,
      rest fun later member => same later (List.mem_cons_of_mem _ member),
      same node List.mem_cons_self, others]

theorem steps_nodes (arena : Arena) (order : List NodeId) :
    (steps arena order).map (·.node) = order := by
  induction order with
  | nil => rfl
  | cons node order rest => rw [steps, List.map_cons, rest]

/-- A node is compiled to the same script however many nodes are added later. -/
theorem compile_extends
    {larger : Arena}
    (ordered : arena.Ordered)
    (orderedLarger : larger.Ordered)
    (extension : arena.Extends larger)
    (inside : output.index < arena.size) :
    compile larger output = compile arena output := by
  have existing : ∀ node ∈ (arena.postOrder [] output).reverse, node.index < arena.size := by
    intro node member
    rw [List.mem_reverse, Arena.mem_postOrder_nil_iff ordered] at member
    exact Nat.lt_of_le_of_lt (member.index_le ordered) inside
  have sameSteps :
      steps larger (arena.postOrder [] output).reverse =
        steps arena (arena.postOrder [] output).reverse :=
    steps_congr fun node member => extension.operands (existing node member)
  have sameCount : ∀ node,
      readCount larger (arena.postOrder [] output).reverse node =
        readCount arena (arena.postOrder [] output).reverse node := by
    intro node
    unfold readCount
    rw [List.flatMap_congr fun other member => extension.operands (existing other member)]
  rw [compile_eq ordered inside, compile_eq orderedLarger (extension.lt_size inside),
    extension.postOrder ordered output inside [], sameSteps, placeFrom_congr sameCount]
  intro step member
  have among : step.node ∈ (arena.postOrder [] output).reverse := by
    have nodes := steps_nodes arena (arena.postOrder [] output).reverse
    rw [← nodes]
    exact List.mem_map_of_mem member
  exact extension step.node (existing step.node among)

end

end Script

end Elementwise
