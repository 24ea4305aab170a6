import Mathlib.Data.List.Nodup
import Elementwise.Table
import Elementwise.Script.Compilation
import Elementwise.Proofs.Graph.Order

/-!
# Compilation without tables

What the tables of a compilation tell can be read off its slots and off the rest
of the order: a node is in the slot that holds it, and it is read last where no
later node has it as an operand.  `Placement` is the state of a compilation without
tables, `placeFrom` takes nodes with nothing but this state, and `compile_eq` says
that compilation comes to the same.

The tables are right as long as each node is in one slot at most, which holds because
an order of computation has no node twice.
-/

namespace Elementwise

namespace Script

/-! ## Placements -/

/-- The state of a compilation without its tables. -/
structure Placement where
  /-- The node whose result each cache slot holds, if it is in use. -/
  slots : List (Option NodeId)
  /-- The leaves met so far, in the order of their data slots. -/
  data : List NodeId
  records : Array Record
  /-- The node of each record. -/
  nodes : Array NodeId
  /-- How many results went to a slot that had been used before. -/
  reused : Nat
  /-- How many of the leaves are read once only. -/
  inlined : Nat

namespace Placement

/-- The state before the first node. -/
def start : Placement := ⟨[], [], #[], #[], 0, 0⟩

/-- The slot that holds a node. -/
def slot? (placement : Placement) (node : NodeId) : Option Slot :=
  match placement.slots.findIdx? (· == some node) with
  | some index => some (.cache index)
  | none => (placement.data.findIdx? (· == node)).map .data

/-- The slot of an operand, which has to have one. -/
def locate
    (placement : Placement)
    (user : NodeId)
    (position : Nat)
    (operand : NodeId) : Except Error Slot :=
  match placement.slot? operand with
  | some slot => .ok slot
  | none => .error (.inconsistency (.unplacedOperand operand user position))

/-- Puts a node into the first free cache slot, or into a new one. -/
def allocate (placement : Placement) (node : NodeId) : Nat × Placement :=
  match placement.slots.findIdx? (·.isNone) with
  | some index =>
      (index,
        { placement with
          slots := placement.slots.set index (some node)
          reused := placement.reused + 1 })
  | none =>
      (placement.slots.length,
        { placement with slots := placement.slots ++ [some node] })

/-- The slot for the result of a node, which is the output if it is the last one. -/
def resultSlot
    (placement : Placement)
    (node : NodeId)
    (last : Bool) : Slot × Placement :=
  if last then
    (.output, placement)
  else
    let (index, placement) := placement.allocate node
    (.cache index, placement)

/-- Frees the slots of the given nodes. -/
def free (placement : Placement) (nodes : List NodeId) : Placement :=
  { placement with
    slots := placement.slots.map (·.filter fun node => !nodes.contains node) }

/-- Adds a record for a node. -/
def emit (placement : Placement) (node : NodeId) (record : Record) : Placement :=
  { placement with
    records := placement.records.push record
    nodes := placement.nodes.push node }

theorem getElem?_map_filter_eq_some_iff
    {slots : List (Option NodeId)}
    {keep : NodeId → Bool}
    {index : Nat}
    {node : NodeId} :
    (slots.map (·.filter keep))[index]? = some (some node) ↔
      slots[index]? = some (some node) ∧ keep node = true := by
  rw [List.getElem?_map]
  cases slots[index]? with
  | none => simp
  | some slot =>
    simp only [Option.map_some, Option.some.injEq, Option.filter_eq_some_iff]

/-- The new node sits in the slot that was allocated and all others stay. -/
theorem slots_allocate
    (placement : Placement)
    (node : NodeId)
    (index : Nat) :
    (placement.allocate node).2.slots[index]? =
      if index = (placement.allocate node).1 then some (some node)
      else placement.slots[index]? := by
  unfold allocate
  split
  next free first =>
    obtain ⟨inside, -, -⟩ := List.findIdx?_eq_some_iff_getElem.1 first
    by_cases same : index = free
    · subst same
      simp [inside]
    · simp [same, Ne.symm same]
  next =>
    by_cases same : index = placement.slots.length
    · simp [same]
    · simp only [same, if_false]
      rw [List.getElem?_append]
      split
      · rfl
      next beyond =>
        have beyond : placement.slots.length ≤ index := Nat.le_of_not_lt beyond
        have later : index - placement.slots.length ≠ 0 := by omega
        simp [later, beyond]

/-- The slot that is allocated was free or did not exist. -/
theorem free_allocate
    (placement : Placement)
    (node other : NodeId) :
    placement.slots[(placement.allocate node).1]? ≠ some (some other) := by
  unfold allocate
  split
  next free first =>
    obtain ⟨inside, empty, -⟩ := List.findIdx?_eq_some_iff_getElem.1 first
    simp only [List.getElem?_eq_getElem inside]
    intro holds
    simp only [Option.some.injEq] at holds
    simp [holds] at empty
  next => simp

/-- A node that is not freed stays in its slot. -/
theorem slots_free
    (placement : Placement)
    (freed : List NodeId)
    (index : Nat)
    (node : NodeId) :
    (placement.free freed).slots[index]? = some (some node) ↔
      placement.slots[index]? = some (some node) ∧ node ∉ freed := by
  rw [free, getElem?_map_filter_eq_some_iff]
  simp

theorem free_nil (placement : Placement) : placement.free [] = placement := by
  have kept : (fun slot : Option NodeId => slot.filter fun node => ! [].contains node) = id := by
    funext slot
    cases slot <;> rfl
  rw [free, kept, List.map_id]

theorem free_cons (placement : Placement) (node : NodeId) (nodes : List NodeId) :
    placement.free (node :: nodes) = (placement.free [node]).free nodes := by
  unfold free
  simp only [List.map_map]
  congr 2
  funext slot
  cases slot with
  | none => rfl
  | some other =>
    by_cases same : other = node
    · simp [Option.filter, same]
    · simp [Option.filter, same]

end Placement

/-- A node in the order of computation, with the operands that it is the last to read. -/
structure Step where
  node : NodeId
  finished : List NodeId

/-- The operands of a node that no node of the rest of the order has. -/
def finished (arena : Arena) (node : NodeId) (rest : List NodeId) : List NodeId :=
  (arena.operands node).filter fun operand => !(rest.flatMap arena.operands).contains operand

/-- The nodes of an order with the operands that each is the last to read. -/
def steps (arena : Arena) : (order : List NodeId) → List Step
  | [] => []
  | node :: rest => ⟨node, finished arena node rest⟩ :: steps arena rest

section

variable (arena : Arena) (order : List NodeId)

/-- How often a node is an operand of the scheduled nodes. -/
def readCount (node : NodeId) : Nat :=
  (order.flatMap arena.operands).count node

/-- Takes a leaf, which is the output if no node is left. -/
def placeLeaf
    (placement : Placement)
    (node : NodeId)
    (last : Bool) : Placement :=
  let index := placement.data.length
  let placement := { placement with
    data := placement.data ++ [node]
    inlined := placement.inlined + if readCount arena order node = 1 then 1 else 0 }
  if last then
    placement.emit node ⟨.copy, .output, .data index, none⟩
  else
    placement

/-- Takes a node that applies an operation, and may be the output. -/
def placeRecord
    (placement : Placement)
    (step : Step)
    (position : Nat)
    (last : Bool)
    (opcode : OpCode)
    (leftOperand : NodeId)
    (rightOperand : Option NodeId) : Except Error Placement := do
  let left ← placement.locate step.node position leftOperand
  let right ← rightOperand.mapM (placement.locate step.node position)
  let (result, placement) := placement.resultSlot step.node last
  let placement := placement.emit step.node ⟨opcode, result, left, right⟩
  return placement.free step.finished

/-- Takes scheduled nodes in order, the first of which has a given position. -/
def placeFrom :
    (position : Nat) → List Step → Placement → Except Error Placement
  | _, [], placement => .ok placement
  | position, step :: rest, placement => do
      match arena.operation? step.node with
      | none => throw (.unknownNode step.node)
      | some .leaf =>
          placeFrom (position + 1) rest
            (placeLeaf arena order placement step.node rest.isEmpty)
      | some (.unary opcode operand) =>
          let placement ←
            placeRecord placement step position rest.isEmpty opcode operand none
          placeFrom (position + 1) rest placement
      | some (.binary opcode left right) =>
          let placement ←
            placeRecord placement step position rest.isEmpty opcode left (some right)
          placeFrom (position + 1) rest placement

end

/-- The script of what was placed. -/
def ofPlacement (output : NodeId) (placement : Placement) : Script where
  output := output
  records := placement.records.toList
  nodes := placement.nodes.toList
  data := placement.data
  cacheSize := placement.slots.length
  statistics :=
    { records := placement.records.size
      dataSlots := placement.data.length
      cacheSlots := placement.slots.length
      reusedSlots := placement.reused
      inlinedLeaves := placement.inlined }

/-! ## Where nodes are read last, and how often -/

namespace Usage

variable
    {arena : Arena}
    {order before rest : List NodeId}
    {usage : Usage}
    {node operand : NodeId}

theorem last_note
    (usage : Usage)
    (position : Nat)
    (operand other : NodeId) :
    (usage.note position operand).last[other]? =
      if operand = other then some position else usage.last[other]? :=
  Sorted.getElem?_insert ..

theorem last_foldl_note
    (usage : Usage)
    (position : Nat)
    (operands : List NodeId)
    (other : NodeId) :
    (operands.foldl (·.note position ·) usage).last[other]? =
      if other ∈ operands then some position else usage.last[other]? := by
  induction operands generalizing usage with
  | nil => rfl
  | cons operand operands step =>
    rw [List.foldl_cons, step, last_note]
    by_cases among : other ∈ operands
    · rw [if_pos among, if_pos (List.mem_cons_of_mem _ among)]
    · rw [if_neg among]
      simp only [List.mem_cons, among, or_false, eq_comm]

/-- A node that the nodes of a list read is read last at one of their positions. -/
theorem last_noteFrom
    (arena : Arena)
    (position : Nat)
    (order : List NodeId)
    (usage : Usage)
    (other : NodeId) :
    (other ∉ order.flatMap arena.operands →
      (noteFrom arena position order usage).last[other]? = usage.last[other]?) ∧
    (other ∈ order.flatMap arena.operands →
      ∃ later, position ≤ later ∧
        (noteFrom arena position order usage).last[other]? = some later) := by
  induction order generalizing position usage with
  | nil => exact ⟨fun _ => rfl, nofun⟩
  | cons node order step =>
    obtain ⟨absent, present⟩ :=
      step (position + 1) ((arena.operands node).foldl (·.note position ·) usage)
    rw [last_foldl_note] at absent
    simp only [List.flatMap_cons, List.mem_append, noteFrom]
    refine ⟨fun unread => ?_, fun read => ?_⟩
    · rw [absent fun after => unread (.inr after), if_neg fun here => unread (.inl here)]
    · by_cases after : other ∈ order.flatMap arena.operands
      · obtain ⟨later, following, found⟩ := present after
        exact ⟨later, Nat.le_of_succ_le following, found⟩
      · rw [absent after, if_pos (read.resolve_right after)]
        exact ⟨position, Nat.le_refl _, rfl⟩

theorem noteFrom_append
    (arena : Arena)
    (position : Nat)
    (before rest : List NodeId)
    (usage : Usage) :
    noteFrom arena position (before ++ rest) usage =
      noteFrom arena (position + before.length) rest (noteFrom arena position before usage) := by
  induction before generalizing position usage with
  | nil => rfl
  | cons node before step =>
    rw [List.cons_append, noteFrom, step, noteFrom, List.length_cons, Nat.add_right_comm,
      Nat.add_assoc]

/-- An operand is read last at the position of a node that has it just if no later node does. -/
theorem last_ofOrder
    (split : order = before ++ node :: rest)
    (uses : operand ∈ arena.operands node) :
    (ofOrder arena order).last[operand]? = some before.length ↔
      operand ∉ rest.flatMap arena.operands := by
  rw [ofOrder, split, noteFrom_append, noteFrom, Nat.zero_add]
  obtain ⟨absent, present⟩ := last_noteFrom arena (before.length + 1) rest
    ((arena.operands node).foldl (·.note before.length ·) (noteFrom arena 0 before empty)) operand
  rw [last_foldl_note, if_pos uses] at absent
  refine ⟨fun last read => ?_, absent⟩
  obtain ⟨later, following, found⟩ := present read
  rw [found] at last
  cases last
  exact Nat.lt_irrefl _ following

theorem count_foldl_note
    (usage : Usage)
    (position : Nat)
    (operands : List NodeId)
    (other : NodeId) :
    (operands.foldl (·.note position ·) usage).count[other]? =
      if other ∈ operands then some (usage.count[other]?.getD 0 + operands.count other)
      else usage.count[other]? := by
  induction operands generalizing usage with
  | nil => rfl
  | cons operand operands step =>
    have noted : (usage.note position operand).count[other]? =
        if operand = other then some (usage.count[operand]?.getD 0 + 1)
        else usage.count[other]? := by
      rw [note, Std.TreeMap.getD_eq_getD_getElem?]
      exact Sorted.getElem?_insert ..
    rw [List.foldl_cons, step, noted, List.count_cons]
    by_cases same : operand = other
    · subst same
      simp only [List.mem_cons_self, if_true, Option.getD_some, beq_self_eq_true]
      by_cases among : operand ∈ operands
      · rw [if_pos among, Nat.add_assoc, Nat.add_comm 1]
      · rw [if_neg among, List.count_eq_zero_of_not_mem among, Nat.zero_add]
    · simp only [if_neg same, List.mem_cons, Ne.symm same, false_or, beq_eq_false_iff_ne.2 same,
        Bool.false_eq_true, if_false, Nat.add_zero]

theorem count_noteFrom
    (arena : Arena)
    (position : Nat)
    (order : List NodeId)
    (usage : Usage)
    (other : NodeId) :
    (noteFrom arena position order usage).count[other]? =
      if other ∈ order.flatMap arena.operands then
        some (usage.count[other]?.getD 0 + readCount arena order other)
      else usage.count[other]? := by
  induction order generalizing position usage with
  | nil => rfl
  | cons node order step =>
    rw [noteFrom, step, count_foldl_note]
    simp only [readCount, List.flatMap_cons, List.mem_append, List.count_append]
    by_cases here : other ∈ arena.operands node
    · by_cases after : other ∈ order.flatMap arena.operands
      · simp only [here, after, or_self, if_true, Option.getD_some, Nat.add_assoc]
      · simp only [here, after, or_false, if_true, if_false, List.count_eq_zero_of_not_mem after,
          Nat.add_zero]
    · by_cases after : other ∈ order.flatMap arena.operands
      · simp only [here, after, or_true, if_true, if_false, List.count_eq_zero_of_not_mem here,
          Nat.zero_add]
      · simp only [here, after, or_self, if_false]

/-- The table of counts tells which nodes are read once. -/
theorem count_ofOrder (arena : Arena) (order : List NodeId) (node : NodeId) :
    (ofOrder arena order).count[node]? = some 1 ↔ readCount arena order node = 1 := by
  rw [ofOrder, count_noteFrom]
  have nothing : (empty.count)[node]? = none := Std.TreeMap.getElem?_emptyc
  split
  · simp [nothing]
  next unread =>
    rw [nothing, readCount, List.count_eq_zero_of_not_mem unread]
    exact ⟨nofun, nofun⟩

end Usage

/-! ## Where nodes are kept -/

/-- Where a position is the only one of an element, it is the first one. -/
theorem findIdx?_eq_of_unique
    {ι : Type}
    [BEq ι]
    [LawfulBEq ι]
    {elements : List ι}
    {element : ι}
    {found : Option Nat}
    (unique : ∀ index, found = some index ↔ elements[index]? = some element) :
    elements.findIdx? (· == element) = found := by
  cases found with
  | none =>
    refine List.findIdx?_eq_none_iff.2 fun other member => ?_
    refine beq_eq_false_iff_ne.2 ?_
    rintro rfl
    obtain ⟨index, holds⟩ := List.getElem?_of_mem member
    cases (unique index).2 holds
  | some index =>
    obtain ⟨inside, holds⟩ := List.getElem?_eq_some_iff.1 ((unique index).1 rfl)
    refine List.findIdx?_eq_some_iff_getElem.2
      ⟨inside, beq_iff_eq.2 holds, fun earlier before => ?_⟩
    rintro same
    have again : elements[earlier]? = some element := by
      rw [List.getElem?_eq_getElem (Nat.lt_trans before inside), beq_iff_eq.1 same]
    exact Nat.ne_of_gt before (Option.some.inj ((unique earlier).2 again))

theorem CacheSlots.resident_allocate
    (cache : CacheSlots)
    (node : NodeId) :
    (cache.allocate node).2.resident = cache.resident.insert node (cache.allocate node).1 := by
  unfold allocate
  split <;> rfl

namespace Assembly

/-- The state of a compilation as it is without the tables. -/
def placement (assembly : Assembly) : Placement where
  slots := assembly.cache.slots
  data := assembly.data
  records := assembly.records
  nodes := assembly.nodes
  reused := assembly.cache.reused
  inlined := assembly.inlined

/--
The tables tell where a node is, which is nowhere else, and only nodes that have been taken
are anywhere.
-/
structure Synchronised (taken : List NodeId) (assembly : Assembly) : Prop where
  resident : ∀ (node : NodeId) (index : Nat), assembly.cache.resident[node]? = some index ↔
    assembly.cache.slots[index]? = some (some node)
  dataSlots : ∀ (node : NodeId) (index : Nat), assembly.dataSlots[node]? = some index ↔
    assembly.data[index]? = some node
  taken : ∀ (node : NodeId) (index : Nat), assembly.cache.resident[node]? = some index ∨
    assembly.dataSlots[node]? = some index → node ∈ taken

variable
    {arena : Arena}
    {taken : List NodeId}
    {assembly : Assembly}
    {node : NodeId}

theorem synchronised_start : start.Synchronised [] where
  resident node index := by
    show (∅ : Std.TreeMap NodeId Nat)[node]? = some index ↔ [][index]? = some (some node)
    simp
  dataSlots node index := by
    show (∅ : Std.TreeMap NodeId Nat)[node]? = some index ↔ [][index]? = some node
    simp
  taken node index found := by
    have empty : (∅ : Std.TreeMap NodeId Nat)[node]? = none := Std.TreeMap.getElem?_emptyc
    rcases found with found | found
    · exact nomatch empty.symm.trans found
    · exact nomatch empty.symm.trans found

namespace Synchronised

variable (synchronised : assembly.Synchronised taken)

include synchronised

theorem mono
    {others : List NodeId}
    (more : ∀ node ∈ taken, node ∈ others) :
    assembly.Synchronised others :=
  { synchronised with
    taken := fun node index found => more node (synchronised.taken node index found) }

/-- The tables find an operand where a search of the slots and of the leaves does. -/
theorem locate_eq
    (user : NodeId)
    (position : Nat) :
    assembly.placement.locate user position = assembly.locate user position := by
  funext operand
  have cached := findIdx?_eq_of_unique (synchronised.resident operand)
  have read := findIdx?_eq_of_unique (synchronised.dataSlots operand)
  unfold Placement.locate Placement.slot? locate
  simp only [placement, cached, read]
  cases assembly.cache.resident[operand]? with
  | some index => rfl
  | none => cases assembly.dataSlots[operand]? <;> rfl

/-- A leaf that has not been taken gets the next data slot. -/
theorem dataSlot_eq (fresh : node ∉ taken) :
    assembly.dataSlot node = (assembly.data.length,
      { assembly with
        data := assembly.data ++ [node]
        dataSlots := assembly.dataSlots.insert node assembly.data.length }) := by
  have absent : assembly.dataSlots[node]? = none :=
    Option.eq_none_iff_forall_ne_some.2 fun index found =>
      fresh (synchronised.taken node index (.inr found))
  rw [dataSlot, absent]

theorem dataSlot
    (fresh : node ∉ taken)
    (inlined : Nat) :
    Synchronised (taken ++ [node]) { (assembly.dataSlot node).2 with inlined } := by
  rw [synchronised.dataSlot_eq fresh]
  refine ⟨synchronised.resident, fun other index => ?_, fun other index found => ?_⟩
  · show (assembly.dataSlots.insert node assembly.data.length)[other]? = some index ↔
      (assembly.data ++ [node])[index]? = some other
    rw [Sorted.getElem?_insert]
    by_cases same : node = other
    · subst same
      rw [if_pos rfl, Option.some.injEq]
      constructor
      · rintro rfl
        exact List.getElem?_concat_length
      · intro holds
        -- a leaf that has not been taken is at no earlier place
        by_contra different
        rcases Nat.lt_or_gt_of_ne different with beyond | inside
        · rw [List.getElem?_eq_none (by rw [List.length_append]; exact beyond)] at holds
          cases holds
        · rw [List.getElem?_append_left inside] at holds
          exact fresh (synchronised.taken node index (.inr ((synchronised.dataSlots _ _).2 holds)))
    · rw [if_neg same, synchronised.dataSlots]
      rcases Nat.lt_trichotomy index assembly.data.length with inside | rfl | beyond
      · rw [List.getElem?_append_left inside]
      · rw [List.getElem?_concat_length, List.getElem?_eq_none (Nat.le_refl _)]
        simp [same]
      · rw [List.getElem?_eq_none (Nat.le_of_lt beyond),
          List.getElem?_eq_none (by rw [List.length_append]; exact beyond)]
  · refine List.mem_append.2 ?_
    rcases found with cached | found
    · exact .inl (synchronised.taken other index (.inl cached))
    · have found : (assembly.dataSlots.insert node assembly.data.length)[other]? =
          some index := found
      rw [Sorted.getElem?_insert] at found
      split at found
      next same => exact .inr (List.mem_singleton.2 same.symm)
      · exact .inl (synchronised.taken other index (.inr found))

omit synchronised in
theorem allocate_eq (assembly : Assembly) (node : NodeId) :
    assembly.placement.allocate node =
      ((assembly.cache.allocate node).1,
        { assembly with cache := (assembly.cache.allocate node).2 }.placement) := by
  unfold Placement.allocate CacheSlots.allocate
  simp only [placement]
  cases assembly.cache.slots.findIdx? (·.isNone) <;> rfl

omit synchronised in
/-- A result goes to the same slot. -/
theorem resultSlot_eq (last : Bool) :
    assembly.placement.resultSlot node last =
      ((assembly.resultSlot node last).1, (assembly.resultSlot node last).2.placement) := by
  unfold Placement.resultSlot Assembly.resultSlot
  rw [allocate_eq]
  cases last <;> rfl

theorem resultSlot
    (fresh : node ∉ taken)
    (last : Bool) :
    Synchronised (taken ++ [node]) (assembly.resultSlot node last).2 := by
  cases last with
  | true => exact synchronised.mono fun other member => List.mem_append_left _ member
  | false =>
    have tables := assembly.cache.resident_allocate node
    have slots : ∀ index, (assembly.cache.allocate node).2.slots[index]? =
        if index = (assembly.cache.allocate node).1 then some (some node)
        else assembly.cache.slots[index]? := by
      have slots := assembly.placement.slots_allocate node
      rw [allocate_eq] at slots
      exact slots
    have vacant : ∀ other, assembly.cache.slots[(assembly.cache.allocate node).1]? ≠
        some (some other) := by
      have vacant := assembly.placement.free_allocate node
      rw [allocate_eq] at vacant
      exact vacant
    refine ⟨fun other index => ?_, synchronised.dataSlots, fun other index found => ?_⟩
    · show (assembly.cache.allocate node).2.resident[other]? = some index ↔
        (assembly.cache.allocate node).2.slots[index]? = some (some other)
      rw [tables, Sorted.getElem?_insert, slots]
      by_cases given : index = (assembly.cache.allocate node).1
      · -- the slot had no node before, so that no other one is in it
        have vacant := mt (synchronised.resident other index).1 (given ▸ vacant other)
        rw [if_pos given]
        by_cases same : node = other
        · simp [same, given]
        · simp [same, vacant]
      · rw [if_neg given, ← synchronised.resident]
        by_cases same : node = other
        · have absent : assembly.cache.resident[other]? ≠ some index := fun found =>
            fresh (same ▸ synchronised.taken other index (.inl found))
          rw [if_pos same]
          simp [Ne.symm given, absent]
        · rw [if_neg same]
    · have found : (assembly.cache.allocate node).2.resident[other]? = some index ∨
          assembly.dataSlots[other]? = some index := found
      rw [tables, Sorted.getElem?_insert] at found
      refine List.mem_append.2 ?_
      split at found
      next same => exact .inr (List.mem_singleton.2 same.symm)
      · exact .inl (synchronised.taken other index found)

/-- A node that is freed is in no slot any more, and the others stay where they are. -/
theorem slots_free (node : NodeId) :
    (assembly.cache.free node).slots =
      assembly.cache.slots.map (·.filter fun other => ! [node].contains other) := by
  refine List.ext_getElem? fun index => ?_
  have here := synchronised.resident node index
  rw [List.getElem?_map]
  -- the slot that is freed is the only one that changes, because the node is in no other
  have elsewhere : assembly.cache.resident[node]? ≠ some index →
      assembly.cache.slots[index]? = assembly.cache.slots[index]?.map
        (·.filter fun other => ! [node].contains other) := by
    intro away
    cases held : assembly.cache.slots[index]? with
    | none => rfl
    | some slot =>
      cases slot with
      | none => rfl
      | some other =>
        have different : other ≠ node := by
          rintro rfl
          exact away (here.2 held)
        simp [Option.filter, different]
  unfold CacheSlots.free
  split
  next position found =>
    rw [List.getElem?_set]
    by_cases same : position = index
    · rw [found, same] at here
      have held := here.1 rfl
      rw [if_pos same, same, if_pos (List.getElem?_eq_some_iff.1 held).1, held]
      simp [Option.filter]
    · rw [if_neg same]
      exact elsewhere fun again => same (Option.some.inj (found.symm.trans again))
  next absent => exact elsewhere (absent ▸ nofun)

omit synchronised in
theorem resident_free (cache : CacheSlots) (node other : NodeId) :
    (cache.free node).resident[other]? = if node = other then none else cache.resident[other]? := by
  unfold CacheSlots.free
  split
  · exact Sorted.getElem?_erase ..
  next absent =>
    split
    next same => rw [← same, absent]
    · rfl

theorem free (node : NodeId) :
    Synchronised taken { assembly with cache := assembly.cache.free node } where
  resident other index := by
    rw [resident_free, synchronised.slots_free, Placement.getElem?_map_filter_eq_some_iff,
      ← synchronised.resident]
    by_cases same : node = other
    · simp [same]
    · simp [same, Ne.symm same]
  dataSlots := synchronised.dataSlots
  taken other index found := by
    rw [resident_free] at found
    split at found
    · exact synchronised.taken other index (.inr (found.resolve_left nofun))
    · exact synchronised.taken other index found

/-- Operands whose last reader is at a position are freed one by one. -/
theorem foldl_release
    (usage : Usage)
    (position : Nat)
    (operands : List NodeId) :
    Synchronised taken (operands.foldl (release usage position) assembly) ∧
      (operands.foldl (release usage position) assembly).placement =
        assembly.placement.free (operands.filter fun operand =>
          usage.last[operand]? = some position) := by
  induction operands generalizing assembly with
  | nil => exact ⟨synchronised, by rw [List.filter_nil, Placement.free_nil, List.foldl_nil]⟩
  | cons operand operands step =>
    rw [List.foldl_cons, release]
    by_cases last : usage.last[operand]? = some position
    · obtain ⟨after, same⟩ := step (synchronised.free operand)
      have freed : { assembly with cache := assembly.cache.free operand }.placement =
          assembly.placement.free [operand] := by
        have reused : (assembly.cache.free operand).reused = assembly.cache.reused := by
          unfold CacheSlots.free
          split <;> rfl
        unfold placement Placement.free
        rw [synchronised.slots_free, reused]
      rw [if_pos last, List.filter_cons_of_pos (by simpa using last), Placement.free_cons]
      exact ⟨after, same.trans (by rw [freed])⟩
    · rw [if_neg last, List.filter_cons_of_neg (by simpa using last)]
      exact step synchronised

/-- The records and what is kept of the nodes have nothing to do with the tables. -/
theorem emit (record : Record) : Synchronised taken (assembly.emit node record) :=
  ⟨synchronised.resident, synchronised.dataSlots, synchronised.taken⟩

end Synchronised

/-! ## One step of a compilation -/

variable
    {order rest : List NodeId}
    (synchronised : assembly.Synchronised taken)

include synchronised

/-- A leaf takes the next data slot. -/
theorem placement_addLeaf
    (fresh : node ∉ taken)
    (last : Bool) :
    (assembly.addLeaf (.ofOrder arena order) node last).placement =
      placeLeaf arena order assembly.placement node last := by
  unfold addLeaf placeLeaf
  rw [synchronised.dataSlot_eq fresh]
  simp only [Usage.count_ofOrder]
  cases last <;> rfl

theorem Synchronised.addLeaf
    (fresh : node ∉ taken)
    (usage : Usage)
    (last : Bool) :
    Synchronised (taken ++ [node]) (assembly.addLeaf usage node last) := by
  unfold Assembly.addLeaf
  dsimp only
  split
  · exact (synchronised.dataSlot fresh _).emit _
  · exact synchronised.dataSlot fresh _

/-- A node becomes a record, and the slots of its finished operands are free. -/
theorem addRecord_eq
    {left : NodeId}
    {right : Option NodeId}
    (split : order = taken ++ node :: rest)
    (fresh : node ∉ taken)
    (operands : arena.operands node = left :: right.toList)
    (last : Bool)
    (opcode : OpCode) :
    (assembly.addRecord (.ofOrder arena order) node taken.length last opcode left right).map
        placement =
      placeRecord assembly.placement ⟨node, finished arena node rest⟩ taken.length last opcode left
        right ∧
    ∀ after, assembly.addRecord (.ofOrder arena order) node taken.length last opcode left right =
      .ok after → after.Synchronised (taken ++ [node]) := by
  have released : (left :: right.toList).filter (fun operand =>
      (Usage.ofOrder arena order).last[operand]? = some taken.length) =
        finished arena node rest := by
    rw [finished, ← operands]
    refine List.filter_congr fun operand uses => ?_
    have last := Usage.last_ofOrder split uses
    rw [← List.contains_iff_mem] at last
    simp only [last, decide_not, Bool.decide_eq_true]
  unfold addRecord placeRecord
  rw [synchronised.locate_eq]
  cases assembly.locate node taken.length left with
  | error reason => exact ⟨rfl, nofun⟩
  | ok leftSlot =>
    cases right.mapM (assembly.locate node taken.length) with
    | error reason => exact ⟨rfl, nofun⟩
    | ok rightSlot =>
      simp only [bind, Except.bind, Synchronised.resultSlot_eq]
      obtain ⟨after, same⟩ := ((synchronised.resultSlot fresh last).emit
        ⟨opcode, (assembly.resultSlot node last).1, leftSlot, rightSlot⟩).foldl_release
          (.ofOrder arena order) taken.length (left :: right.toList)
      rw [released] at same
      refine ⟨congrArg Except.ok same, ?_⟩
      rintro _ ⟨⟩
      exact after

omit synchronised in
/-- The rest of an order is assembled to what it is placed to without tables. -/
theorem placement_assemble
    (split : order = taken ++ rest)
    (distinct : order.Nodup)
    (synchronised : assembly.Synchronised taken) :
    (assemble arena (.ofOrder arena order) taken.length rest assembly).map placement =
      placeFrom arena order taken.length (steps arena rest) assembly.placement := by
  induction rest generalizing taken assembly with
  | nil => rfl
  | cons node rest step =>
    have fresh : node ∉ taken := by
      rw [split, List.nodup_append] at distinct
      exact fun member => distinct.2.2 node member node List.mem_cons_self rfl
    have later : order = (taken ++ [node]) ++ rest := by
      rw [split, List.append_assoc]
      rfl
    have length : (taken ++ [node]).length = taken.length + 1 := List.length_append
    have last : (steps arena rest).isEmpty = rest.isEmpty := by
      cases rest <;> rfl
    have record : ∀ opcode left right, arena.operands node = left :: right.toList →
        ((assembly.addRecord (.ofOrder arena order) node taken.length rest.isEmpty opcode left
          right).bind (assemble arena (.ofOrder arena order) (taken.length + 1) rest)).map
            placement =
        (placeRecord assembly.placement ⟨node, finished arena node rest⟩ taken.length
          (steps arena rest).isEmpty opcode left right).bind
          (placeFrom arena order (taken.length + 1) (steps arena rest)) := by
      intro opcode left right operands
      obtain ⟨same, after⟩ :=
        addRecord_eq synchronised split fresh operands rest.isEmpty opcode
      rw [last, ← same]
      cases added : assembly.addRecord (.ofOrder arena order) node taken.length rest.isEmpty opcode
          left right with
      | error reason => rfl
      | ok assembly =>
        have rest := step later (after assembly added)
        rw [length] at rest
        exact rest
    rw [assemble, steps, placeFrom]
    cases operation : arena.operation? node with
    | none => rfl
    | some value =>
      have operands : arena.operands node = value.operands := by
        rw [Arena.operands, operation]
      cases value with
      | leaf =>
        have rest := step later (synchronised.addLeaf fresh (.ofOrder arena order) rest.isEmpty)
        rw [length, placement_addLeaf synchronised fresh, ← last] at rest
        rw [← last]
        exact rest
      | unary opcode operand => exact record opcode operand none operands
      | binary opcode left right => exact record opcode left (some right) operands

end Assembly

/-- Compilation comes to the same without tables. -/
theorem compile_eq
    {arena : Arena}
    (ordered : arena.Ordered)
    {output : NodeId}
    (inside : output.index < arena.size) :
    compile arena output =
      (placeFrom arena (arena.postOrder [] output).reverse 0
        (steps arena (arena.postOrder [] output).reverse) .start).map (ofPlacement output) := by
  have distinct := arena.nodup_postOrder ordered output
  rw [compile, Arena.schedule_eq ordered inside]
  generalize (arena.postOrder [] output).reverse = order at distinct
  have placed : (assemble arena (.ofOrder arena order) 0 order .start).map Assembly.placement =
      placeFrom arena order 0 (steps arena order) .start :=
    Assembly.placement_assemble (List.nil_append order).symm distinct Assembly.synchronised_start
  rw [← placed]
  simp only [bind, Except.bind]
  cases assemble arena (.ofOrder arena order) 0 order .start <;> rfl

end Script

end Elementwise
