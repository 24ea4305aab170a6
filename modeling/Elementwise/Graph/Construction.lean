import Elementwise.Graph.Basic
import Elementwise.Shape.Index

/-!
# Building graphs

Leaves hold given values and are never shared; a leaf that is to be trained
gets a gradient buffer of zeros at once.  Constants are shared as long as
their bit pattern is the same, operations as long as they apply the same code
to the same operands.  Outputs get their buffers when they are marked.
-/

namespace Elementwise.Graph

variable {α : Type} [Element α]

/-- A new leaf with given values, which may be trained. -/
def leaf (shape : Shape) (values : Array α) (trainable : Bool) : Action α NodeId := do
  let size ← check (Size.lift shape.size)
  if values.size ≠ size then
    throw (.lengthMismatch size values.size)
  let node ← push .leaf shape trainable
  let content ← onStore (Store.allocateFrom values)
  let gradient ←
    if trainable then some <$> onStore (Store.allocate size) else pure none
  modifyNode node fun found =>
    { found with storage := some ⟨content, gradient⟩, isCurrent := true }
  return node

/-- The node of a constant. -/
def scalar (value : α) : Action α NodeId := do
  let key := Key.constant (Element.bits value)
  match (← get).interned[key]? with
  | some node => return node
  | none =>
      let node ← push .leaf .scalar false
      let content ← onStore (Store.allocateFrom #[value])
      modifyNode node fun found =>
        { found with storage := some ⟨content, none⟩, isCurrent := true }
      modify fun graph =>
        { graph with
          interned := graph.interned.insert key node
          constants := graph.constants.insert node key }
      return node

/-- The node of an operation, whose shape is only needed if it is new. -/
def intern
    (operation : Operation)
    (shape : Shape)
    (needsGradient : Bool) : Action α NodeId := do
  let key := Key.ofOperation operation
  match (← get).interned[key]? with
  | some node => return node
  | none =>
      let node ← push operation shape needsGradient
      modify fun graph => { graph with interned := graph.interned.insert key node }
      return node

/-- The node that applies an operation to operands. -/
def create (opcode : OpCode) (operands : List NodeId) : Action α NodeId := do
  if opcode = .copy then
    throw (.unsupportedOperation opcode .graph)
  if operands.length ≠ opcode.arity then
    throw (.arityMismatch opcode opcode.arity operands.length)
  match operands with
  | [operand] =>
      let found ← node operand
      intern (.unary opcode operand) found.shape found.needsGradient
  | [left, right] =>
      let foundLeft ← node left
      let foundRight ← node right
      let shape ← check (foundLeft.shape.broadcast foundRight.shape)
      intern (.binary opcode left right) shape
        (foundLeft.needsGradient || foundRight.needsGradient)
  | _ => throw (.arityMismatch opcode opcode.arity operands.length)

/--
The last node of a chain, which applies an operation to the node before, on
both sides if it takes two operands.
-/
def chain (opcode : OpCode) : (count : Nat) → NodeId → Action α NodeId
  | 0, node => pure node
  | count + 1, node => do
      let next ← create opcode (List.replicate opcode.arity node)
      chain opcode count next

/-- Marks a node as an output, which needs buffers of its own. -/
def markOutput (output : NodeId) : Action α Unit := do
  let found ← node output
  modifyNode output ({ · with isOutput := true })
  if found.storage.isNone then
    let size ← check (Size.lift found.shape.size)
    let content ← onStore (Store.allocate size)
    let gradient ←
      if found.needsGradient then some <$> onStore (Store.allocate size) else pure none
    modifyNode output ({ · with storage := some ⟨content, gradient⟩ })

/-- The store without the buffers of a node. -/
def dropStorage (store : Store α) (node : Node) : Store α :=
  match node.storage with
  | none => store
  | some storage =>
      (storage.gradient.toList).foldl Store.drop (store.drop storage.content)

/-- Removes all nodes, their buffers, and everything known about them. -/
def clear (graph : Graph α) : Graph α :=
  { graph with
    arena := Arena.empty
    interned := ∅
    constants := Table.empty
    scripts := Table.empty
    store := graph.arena.nodes.foldl dropStorage graph.store }

end Elementwise.Graph
