import Elementwise.Graph.Construction
import Elementwise.Script.Forward
import Elementwise.Reduction.Basic
import Elementwise.Reduction.Tree

/-!
# Values of nodes

The value of a node is computed when it is asked for and kept until a leaf it
depends on changes.  A reduction evaluates the script of its node inside the
first pass, so the unreduced value is not stored.
-/

namespace Elementwise.Graph

variable {α : Type} [Element α]

/-- Compiles the script of a node and keeps it. -/
def compile (output : NodeId) : Action α Script := do
  let script ← check (Script.compile (← get).arena output)
  modify fun graph => { graph with scripts := graph.scripts.insert output script }
  return script

/-- The script of a node, which is compiled when it is first asked for. -/
def script (output : NodeId) : Action α Script := do
  match (← get).scripts.get? output with
  | some script => return script
  | none => compile output

/-- The content buffers behind the data slots of a script. -/
def dataBuffers (script : Script) : Action α (List BufferId) :=
  script.data.mapM content

/-- Brings the content of a node up to date and answers its buffer. -/
def materialize (output : NodeId) : Action α BufferId := do
  markOutput output
  let target ← content output
  if (← node output).isCurrent then
    return target
  let compiled ← script output
  let data ← dataBuffers compiled
  onStore (compiled.forward data target)
  modifyNode output ({ · with isCurrent := true })
  return target

/-- The value of a node. -/
def value (output : NodeId) : Action α (Array α) := do
  onStore (Store.read (← materialize output))

/-- One element of the value of a node, by its coordinate. -/
def valueAt (output : NodeId) (index : List Nat) : Action α α := do
  let flat ← check ((← node output).shape.flatten index)
  let target ← materialize output
  let values ← onStore (Store.read target)
  match values[flat]? with
  | some value => return value
  | none => throw (.inconsistency (.missingElement output))

/-- Replaces the values of a leaf; a constant is not known as such any more. -/
def setValue (leaf : NodeId) (values : Array α) : Action α Unit := do
  if !(← node leaf).operation.isLeaf then
    throw (.notALeaf leaf)
  onStore (Store.write (← content leaf) values)
  match (← get).constants.get? leaf with
  | some key =>
      modify fun graph =>
        { graph with
          interned := graph.interned.erase key
          constants := graph.constants.erase leaf }
  | none => pure ()
  modify fun graph => { graph with arena := graph.arena.invalidate leaf }

/-- The axis of a reduction, which is the last one unless it is given. -/
def reducedAxis (shape : Shape) : Option Nat → Except Error Nat
  | some axis => .ok axis
  | none => if shape.rank = 0 then .error (.axisOutOfRange 0 0) else .ok (shape.rank - 1)

/-- Runs a script inside the first pass of a reduction over its data. -/
def reduceScript
    (script : Script)
    (data : List BufferId)
    (layout : AxisLayout)
    (fanIn : Nat)
    (reduction : Reduction) : Store.Action α (Array α) := do
  let result ← Store.withLeases data do
    layout.treeReduce fanIn reduction.combine (← data.mapM Store.blockOf)
      (zeros α script.cacheSize) (fun index inputs workspace =>
        Script.evalAt script.records inputs index workspace)
  Store.take result

/-- Whether a reduction has nothing to read, because the axis or the rest is empty. -/
def reducesNothing (layout : AxisLayout) : Except Fault Bool := do
  if layout.length = 0 then
    return true
  return (← layout.reducedSize) == 0

/-- The value of a node reduced along an axis, with its shape. -/
def reduce
    (output : NodeId)
    (axis : Option Nat)
    (reduction : Reduction) : Action α (Shape × Array α) := do
  let shape := (← node output).shape
  let axis ← check (reducedAxis shape axis)
  let layout ← check (AxisLayout.ofShape shape axis)
  let reduced ← check (shape.withDim axis 1)
  if ← check (Size.lift (reducesNothing layout)) then
    let size ← check (Size.lift reduced.size)
    return (reduced, Array.replicate size reduction.identity)
  let compiled ← script output
  onStore compiled.checkSupported
  let data ← dataBuffers compiled
  let fanIn := (← get).config.fanIn
  let values ← onStore (reduceScript compiled data layout fanIn reduction)
  return (reduced, values)

end Elementwise.Graph
