import Elementwise.Script.Basic
import Elementwise.Script.Schedule

/-!
# Compiling a node to a script

The nodes that the output depends on are taken in the order of computation.
A leaf takes the next data slot.  Any other node becomes a record, whose
result goes to the first free cache slot, or to the output if it is the last
one; after a record, the slots of operands that no later record reads are
free again.  An output that is itself a leaf becomes a single copy.

Tables tell at which position a node is read last, how often it is read, and
where a node is kept while it is needed.
-/

namespace Elementwise

namespace Script

/-- Where and how often nodes are read. -/
structure Usage where
  /-- The position at which a node is read last. -/
  last : Std.TreeMap NodeId Nat
  /-- How often a node is read. -/
  count : Std.TreeMap NodeId Nat

namespace Usage

/-- Nothing is read. -/
def empty : Usage := ⟨∅, ∅⟩

/-- Notes that an operand is read at a position, after all that was noted before. -/
def note (usage : Usage) (position : Nat) (operand : NodeId) : Usage where
  last := usage.last.insert operand position
  count := usage.count.insert operand (usage.count.getD operand 0 + 1)

/-- Notes what nodes read, the first of which has a given position. -/
def noteFrom (arena : Arena) : (position : Nat) → List NodeId → Usage → Usage
  | _, [], usage => usage
  | position, node :: rest, usage =>
      noteFrom arena (position + 1) rest
        ((arena.operands node).foldl (·.note position ·) usage)

/-- What the nodes of an order read. -/
def ofOrder (arena : Arena) (order : List NodeId) : Usage :=
  noteFrom arena 0 order empty

end Usage

/-- The cache slots in the course of a compilation. -/
structure CacheSlots where
  /-- The node whose result each slot holds, if it is in use. -/
  slots : List (Option NodeId)
  /-- The slot of each node whose result is held. -/
  resident : Std.TreeMap NodeId Nat
  /-- How many results went to a slot that had been used before. -/
  reused : Nat

namespace CacheSlots

/-- There are no slots yet. -/
def empty : CacheSlots := ⟨[], ∅, 0⟩

/-- Puts a node into the first free slot, or into a new one. -/
def allocate (cache : CacheSlots) (node : NodeId) : Nat × CacheSlots :=
  match cache.slots.findIdx? (·.isNone) with
  | some index =>
      (index,
        { slots := cache.slots.set index (some node)
          resident := cache.resident.insert node index
          reused := cache.reused + 1 })
  | none =>
      (cache.slots.length,
        { slots := cache.slots ++ [some node]
          resident := cache.resident.insert node cache.slots.length
          reused := cache.reused })

/-- Frees the slot of a node, if it is in one. -/
def free (cache : CacheSlots) (node : NodeId) : CacheSlots :=
  match cache.resident[node]? with
  | some index =>
      { cache with
        slots := cache.slots.set index none
        resident := cache.resident.erase node }
  | none => cache

end CacheSlots

/-- The state of a compilation. -/
structure Assembly where
  cache : CacheSlots
  /-- The leaves met so far, in the order of their data slots. -/
  data : List NodeId
  /-- The data slot of each leaf met so far. -/
  dataSlots : Std.TreeMap NodeId Nat
  records : Array Record
  /-- The node of each record. -/
  nodes : Array NodeId
  /-- How many of the leaves are read once only. -/
  inlined : Nat

namespace Assembly

/-- The state before the first node. -/
def start : Assembly := ⟨.empty, [], ∅, #[], #[], 0⟩

/-- The slot of an operand, which has to have one. -/
def locate
    (assembly : Assembly)
    (user : NodeId)
    (position : Nat)
    (operand : NodeId) : Except Error Slot :=
  match assembly.cache.resident[operand]? with
  | some index => .ok (.cache index)
  | none =>
      match assembly.dataSlots[operand]? with
      | some index => .ok (.data index)
      | none => .error (.inconsistency (.unplacedOperand operand user position))

/-- The data slot of a leaf, which is a new one when the leaf is met first. -/
def dataSlot (assembly : Assembly) (leaf : NodeId) : Nat × Assembly :=
  match assembly.dataSlots[leaf]? with
  | some index => (index, assembly)
  | none =>
      (assembly.data.length,
        { assembly with
          data := assembly.data ++ [leaf]
          dataSlots := assembly.dataSlots.insert leaf assembly.data.length })

/-- The slot for the result of a node, which is the output if it is the last one. -/
def resultSlot
    (assembly : Assembly)
    (node : NodeId)
    (last : Bool) : Slot × Assembly :=
  if last then
    (.output, assembly)
  else
    let (index, cache) := assembly.cache.allocate node
    (.cache index, { assembly with cache })

/-- Adds a record for a node. -/
def emit (assembly : Assembly) (node : NodeId) (record : Record) : Assembly :=
  { assembly with
    records := assembly.records.push record
    nodes := assembly.nodes.push node }

/-- Frees the slot of an operand if a position is the last one to read it. -/
def release
    (usage : Usage)
    (position : Nat)
    (assembly : Assembly)
    (operand : NodeId) : Assembly :=
  if usage.last[operand]? = some position then
    { assembly with cache := assembly.cache.free operand }
  else
    assembly

/-- Takes a leaf, which is the output if no node is left. -/
def addLeaf
    (usage : Usage)
    (assembly : Assembly)
    (leaf : NodeId)
    (last : Bool) : Assembly :=
  let (index, assembly) := assembly.dataSlot leaf
  let assembly := { assembly with
    inlined := assembly.inlined + if usage.count[leaf]? = some 1 then 1 else 0 }
  if last then
    assembly.emit leaf ⟨.copy, .output, .data index, none⟩
  else
    assembly

/-- Takes a node that applies an operation, and may be the output. -/
def addRecord
    (usage : Usage)
    (assembly : Assembly)
    (node : NodeId)
    (position : Nat)
    (last : Bool)
    (opcode : OpCode)
    (leftOperand : NodeId)
    (rightOperand : Option NodeId) : Except Error Assembly := do
  let left ← assembly.locate node position leftOperand
  let right ← rightOperand.mapM (assembly.locate node position)
  let (result, assembly) := assembly.resultSlot node last
  let assembly := assembly.emit node ⟨opcode, result, left, right⟩
  return (leftOperand :: rightOperand.toList).foldl (release usage position) assembly

end Assembly

/-- Takes scheduled nodes in order, the first of which has a given position. -/
def assemble
    (arena : Arena)
    (usage : Usage) :
    (position : Nat) → List NodeId → Assembly → Except Error Assembly
  | _, [], assembly => .ok assembly
  | position, node :: rest, assembly => do
      match arena.operation? node with
      | none => throw (.unknownNode node)
      | some .leaf =>
          assemble arena usage (position + 1) rest
            (assembly.addLeaf usage node rest.isEmpty)
      | some (.unary opcode operand) =>
          let assembly ←
            assembly.addRecord usage node position rest.isEmpty opcode operand none
          assemble arena usage (position + 1) rest assembly
      | some (.binary opcode left right) =>
          let assembly ←
            assembly.addRecord usage node position rest.isEmpty opcode left (some right)
          assemble arena usage (position + 1) rest assembly

/-- The script of what was assembled. -/
def ofAssembly (output : NodeId) (assembly : Assembly) : Script where
  output := output
  records := assembly.records.toList
  nodes := assembly.nodes.toList
  data := assembly.data
  cacheSize := assembly.cache.slots.length
  statistics :=
    { records := assembly.records.size
      dataSlots := assembly.data.length
      cacheSlots := assembly.cache.slots.length
      reusedSlots := assembly.cache.reused
      inlinedLeaves := assembly.inlined }

/-- The script that computes a node. -/
def compile (arena : Arena) (output : NodeId) : Except Error Script := do
  let order ← arena.schedule output
  return ofAssembly output (← assemble arena (.ofOrder arena order) 0 order .start)

end Script

end Elementwise
