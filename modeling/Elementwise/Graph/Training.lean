import Elementwise.Graph.Evaluation
import Elementwise.Gradient.Accumulation

/-!
# Gradients and updates

A backward pass adds the derivative of an output with respect to a node to
the gradient buffer of that node, for every node the output depends on that
has one.  Gradients are never reset on their own.  An update moves a leaf
against its gradient.
-/

namespace Elementwise.Graph

variable {α : Type} [Element α]

/-- The leaves behind data slots that have a gradient buffer. -/
def dataTargets (script : Script) : Action α (List Gradient.Target) := do
  let found ← script.data.zipIdx.mapM fun (leaf, slot) => do
    return (← node leaf).gradient?.map (⟨.data slot, ·⟩ : BufferId → Gradient.Target)
  return found.filterMap id

/-- The records whose node is not a leaf and has a gradient buffer. -/
def recordTargets (script : Script) : Action α (List Gradient.Target) := do
  let found ← script.nodes.zipIdx.mapM fun (computed, index) => do
    let computed ← node computed
    if computed.operation.isLeaf then
      return none
    return computed.gradient?.map (⟨.record index, ·⟩ : BufferId → Gradient.Target)
  return found.filterMap id

/-- Adds the derivatives of an output to the gradients of what it depends on. -/
def backward (output : NodeId) : Action α Unit := do
  let _ ← materialize output
  let compiled ← script output
  onStore compiled.checkSupported
  let plan ← check (Plan.ofScript compiled)
  let domain ← sizeOf output
  let targets := (← dataTargets compiled) ++ (← recordTargets compiled)
  if targets.isEmpty then
    return
  let data ← dataBuffers compiled
  let fanIn := (← get).config.fanIn
  onStore (Gradient.addAdjoints plan data targets domain fanIn)

/-- The gradient of a node. -/
def gradient (target : NodeId) : Action α (Array α) := do
  onStore (Store.read (← gradientBuffer target))

/-- The kernel that moves values against their gradient. -/
def descentKernel (rate : α) : Kernel α Unit :=
  .pure fun index inputs => do
    let value ← elementAt (← elementAt inputs 0) index
    let slope ← elementAt (← elementAt inputs 1) index
    return #[Element.sub value (Arithmetic.mul rate slope)]

/-- Moves the contents of a buffer against a gradient. -/
def descend (content gradient : BufferId) (rate : α) : Store.Action α Unit :=
  Store.withLease content .accelerator do
    Store.withLease gradient .accelerator do
      let values ← Store.blockOf content
      let slopes ← Store.blockOf gradient
      let length := (← Store.find content).length
      Store.perform
        (Accelerator.launch length [values, slopes] [values] (descentKernel rate))

/-- Moves a leaf against its gradient, which stays as it is. -/
def applyGradient (leaf : NodeId) (rate : α) : Action α Unit := do
  if !(← node leaf).operation.isLeaf then
    throw (.notALeaf leaf)
  let gradient ← gradientBuffer leaf
  let content ← content leaf
  onStore (descend content gradient rate)
  modify fun graph => { graph with arena := graph.arena.invalidate leaf }

/-- Resets the gradient of a node to zero. -/
def zeroGradient (target : NodeId) : Action α Unit := do
  onStore (Store.clear (← gradientBuffer target))

end Elementwise.Graph
